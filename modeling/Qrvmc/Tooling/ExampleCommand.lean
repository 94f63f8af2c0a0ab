import Qrvmc.ExampleVm.RunMeaning
import Qrvmc.Tooling.Report

/-! The run command with the example VM on the standard output. What it reports is what the
code means, in a fresh mocked host. With `create`, it is what the code means that the given
code returns, in the host that it leaves. The verbosity of the VM adds a line for each
execution. -/
namespace Qrvmc.Tooling
open ExampleVm Semantics

/-- What is left to the platform: allocations, the bytes behind a pointer of a host, and
what a run does that goes out of bounds. -/
structure Platform where
  malloc : Nat → Option Nat
  outputData : HostWorld MockedHost → RawResult → List UInt8
  stray : RunVm Unit
  supplied : ∀ world result, result.outputSize ≤ (outputData world result).length

/-- An execution as the example VM sees it. -/
def Platform.environment (platform : Platform) (msg : Message) (input code : List UInt8) :
    Environment MockedHost where
  host := getInterface MockedHost.methods
  context := 0
  msg
  input
  code
  malloc := platform.malloc
  outputData := platform.outputData

/-- The world with a host in it. -/
def hostWorld (host : MockedHost) : HostWorld MockedHost where
  objects _ := host

/-- What `execute` writes at its start. `puts` adds a line break to the one of the text. -/
def startText (verbose : Int32) : List CChar :=
  if verbose > 0 then lit "execution started\n" ++ lit "\n" else []

def ranTo (verbose : Int32) (outcome : ExecutionResult × HostWorld MockedHost) :
    RunResult × MockedHost × Unit :=
  ({ gasLeft := outcome.1.gasLeft
     output := outcome.1.output
     written := startText verbose
     statusCode := outcome.1.statusCode }, outcome.2.objects 0, ())

/-- The example VM under the command, with the verbosity that it was set. -/
def Platform.exampleVm (platform : Platform) (verbose : Int32) : RunVm Unit :=
  fun rev msg input code state =>
    match execute (platform.environment msg input code) (hostWorld state.1) with
    | .ok outcome => ranTo verbose (observed outcome)
    | .error _ => platform.stray rev msg input code state

/-- What an execution means. -/
def Platform.meaning (platform : Platform) (msg : Message) (input code : List UInt8)
    (host : MockedHost) : Except Fault (ExecutionResult × HostWorld MockedHost) :=
  Meaning.run (platform.environment msg input code) (decode code) msg.gas.toInt.toNat
    { world := hostWorld host }

/-- The report about an outcome. -/
def outcomeReport (gas : Int64) (outcome : ExecutionResult × HostWorld MockedHost) : Report :=
  .ofExecution gas outcome.1.statusCode outcome.1.gasLeft outcome.1.output

/-- What a command means. -/
def Platform.command (platform : Platform) (gas : Int64) (code input : List UInt8) :
    Bool → Except Fault Report
  | false => do
      let outcome ← platform.meaning (callMessage gas input) input code {}
      return outcomeReport gas outcome
  | true => do
      let created ← platform.meaning createMessage [] code {}
      if created.1.statusCode ≠ .success then return .creationFailed created.1.statusCode
      else
        let outcome ← platform.meaning { callMessage gas input with recipient := createAddress }
          input created.1.output (deploy created.1.output (created.2.objects 0))
        return outcomeReport gas outcome

variable {platform : Platform} {verbose : Int32}

theorem supplied_environment (msg : Message) (input code : List UInt8)
    (hInput : msg.inputSize ≤ input.length) :
    Supplied (platform.environment msg input code) where
  input := hInput
  output _ _ _ := platform.supplied _ _

theorem exampleVm_of_meaning {rev : Int32} {msg : Message} {input code : List UInt8}
    {host : MockedHost} {state : Unit} {outcome : ExecutionResult × HostWorld MockedHost}
    (hLength : code.length < 2 ^ 64) (hGas : 0 ≤ msg.gas) (hInput : msg.inputSize ≤ input.length)
    (h : platform.meaning msg input code host = .ok outcome) :
    platform.exampleVm verbose rev msg input code (host, state) = ranTo verbose outcome := by
  have hCode : (platform.environment msg input code).code.length < 2 ^ 64 := hLength
  have hMeaning := execute_meaning hCode hGas (supplied_environment msg input code hInput)
    (hostWorld host)
  unfold Platform.exampleVm
  cases hRun : execute (platform.environment msg input code) (hostWorld host) with
  | error fault =>
      rw [hRun] at hMeaning
      cases hMeaning.trans h
  | ok ended =>
      rw [hRun] at hMeaning
      have hSame : observed ended = outcome := Except.ok.inj (hMeaning.trans h)
      rw [← hSame]

section Results

variable {State : Type} {env : Environment State}

/-- An ending has no more output than there is memory. -/
abbrev EndsSmall (program : Meaning State (Option Ending)) : Prop :=
  Triple (fun _ : Fault => False) (fun _ => True) program
    fun ending _ => ∀ final, ending = some final → final.output.length ≤ 1024

/-- What comes before makes no difference. -/
theorem EndsSmall.after {Value : Type} {program : Meaning State Value}
    {next : Value → Meaning State (Option Ending)} (h : ∀ value, EndsSmall (next value)) :
    EndsSmall (program >>= next) :=
  Triple.bind (Triple.any fun _ _ => trivial) h

theorem endsSmall_none : EndsSmall (pure none : Meaning State (Option Ending)) :=
  Triple.pure fun _ _ _ h => by cases h

theorem endsSmall_silent (statusCode : StatusCode) :
    EndsSmall (pure (some { statusCode }) : Meaning State (Option Ending)) := by
  apply Triple.pure
  rintro _ _ final ⟨⟩
  exact Nat.zero_le _

theorem endsSmall_finish (statusCode : StatusCode) (offset length : Nat) :
    EndsSmall (Meaning.finish env statusCode offset length >>=
      fun ending => pure (some ending)) := by
  have hFinish : Triple (fun _ : Fault => False) (fun _ => True)
      (Meaning.finish env statusCode offset length) fun ending _ => ending.output.length ≤ 1024 := by
    unfold Meaning.finish
    apply Triple.ite
    · intro _
      exact Triple.pure fun _ _ => Nat.zero_le _
    · intro _
      apply Triple.ite
      · intro _
        exact Triple.pure fun _ _ => Nat.zero_le _
      · intro _
        have hLoad : Triple (fun _ : Fault => False) (fun _ => True)
            (Meaning.load offset length : Meaning State (List UInt8))
            fun output _ => output.length ≤ 1024 := by
          intro view _
          unfold Meaning.load
          by_cases hInside : offset + length ≤ 1024
          · rw [if_pos hInside]
            simp only [List.length_map, List.length_range']
            omega
          · rw [if_neg hInside]
            exact id
        exact hLoad.bind fun output => Triple.pure fun _ h => h
  apply hFinish.bind
  intro ending
  apply Triple.pure
  rintro _ hLength final ⟨⟩
  exact hLength

theorem endsSmall_call : EndsSmall (Meaning.call env) := by
  unfold Meaning.call
  apply EndsSmall.after
  intro gas
  apply EndsSmall.after
  intro recipient
  apply EndsSmall.after
  intro value
  apply EndsSmall.after
  intro inputOffset
  apply EndsSmall.after
  intro inputLength
  apply EndsSmall.after
  intro inputGranted
  apply EndsSmall.after
  intro outputOffset
  apply EndsSmall.after
  intro outputLength
  apply EndsSmall.after
  intro outputGranted
  apply Triple.ite
  · intro _
    apply EndsSmall.after
    intro input
    apply EndsSmall.after
    intro result
    apply EndsSmall.after
    intro _
    apply EndsSmall.after
    intro view
    apply EndsSmall.after
    intro _
    apply EndsSmall.after
    intro _
    exact endsSmall_none
  · intro _
    exact endsSmall_silent _

theorem endsSmall_perform (instruction : Instruction) :
    EndsSmall (Meaning.perform env instruction) := by
  cases instruction with
  | stop => exact endsSmall_silent _
  | add =>
      exact EndsSmall.after fun _ => EndsSmall.after fun _ => EndsSmall.after fun _ => endsSmall_none
  | address => exact EndsSmall.after fun _ => endsSmall_none
  | calldataload => exact EndsSmall.after fun _ => EndsSmall.after fun _ => endsSmall_none
  | number => exact EndsSmall.after fun _ => EndsSmall.after fun _ => endsSmall_none
  | mstore =>
      apply EndsSmall.after
      intro offset
      apply EndsSmall.after
      intro value
      apply EndsSmall.after
      intro granted
      exact Triple.ite (fun _ => endsSmall_none) fun _ => endsSmall_silent _
  | sload =>
      exact EndsSmall.after fun _ => EndsSmall.after fun _ => EndsSmall.after fun _ => endsSmall_none
  | sstore =>
      exact EndsSmall.after fun _ => EndsSmall.after fun _ => EndsSmall.after fun _ => endsSmall_none
  | msize => exact EndsSmall.after fun _ => EndsSmall.after fun _ => endsSmall_none
  | push immediate => exact EndsSmall.after fun _ => endsSmall_none
  | cutOff => exact Triple.throw id
  | dup1 =>
      exact EndsSmall.after fun _ => EndsSmall.after fun _ => EndsSmall.after fun _ => endsSmall_none
  | call => exact endsSmall_call
  | output statusCode =>
      apply EndsSmall.after
      intro offset
      apply EndsSmall.after
      intro length
      apply EndsSmall.after
      intro granted
      exact Triple.ite (fun _ => endsSmall_finish _ _ _) fun _ => endsSmall_silent _
  | undefined => exact endsSmall_silent _

theorem report_bounds (ending : Ending) {gas left : Nat} (hLeft : left ≤ gas)
    (hOutput : ending.output.length ≤ 1024) :
    (∃ rest ≤ gas, (ending.report env (Int64.ofNat left)).gasLeft = Int64.ofNat rest) ∧
      (ending.report env (Int64.ofNat left)).output.length ≤ 1024 := by
  unfold Ending.report
  by_cases hEmpty : ending.output = []
  · rw [if_pos hEmpty]
    refine ⟨?_, Nat.zero_le _⟩
    by_cases hKeeps : ending.statusCode = .success ∨ ending.statusCode = .revert
    · rw [if_pos hKeeps]
      exact ⟨left, hLeft, rfl⟩
    · rw [if_neg hKeeps]
      exact ⟨0, Nat.zero_le _, rfl⟩
  · rw [if_neg hEmpty]
    exact ⟨⟨left, hLeft, rfl⟩, hOutput⟩

/-- A run leaves a part of its gas, and its output fits the memory. -/
theorem run_bounds {instructions : List Instruction} {gas : Nat} {view : View State}
    {result : ExecutionResult} {world : HostWorld State}
    (h : Meaning.run env instructions gas view = .ok (result, world)) :
    (∃ left ≤ gas, result.gasLeft = Int64.ofNat left) ∧ result.output.length ≤ 1024 := by
  induction instructions generalizing gas view with
  | nil =>
      cases h
      exact report_bounds _ (Nat.le_refl gas) (Nat.zero_le _)
  | cons instruction rest ih =>
      cases gas with
      | zero =>
          cases h
          exact report_bounds _ (Nat.le_refl 0) (Nat.zero_le _)
      | succ gas =>
          have hSmall := @endsSmall_perform _ env instruction view trivial
          rw [Meaning.run] at h
          cases hPerform : Meaning.perform env instruction view with
          | error fault =>
              rw [hPerform] at h
              cases h
          | ok answer =>
              obtain ⟨ending, next⟩ := answer
              rw [hPerform] at h hSmall
              cases ending with
              | some ending =>
                  cases h
                  exact report_bounds _ (Nat.le_succ gas) (hSmall ending rfl)
              | none =>
                  obtain ⟨⟨left, hLeft, hGas⟩, hOutput⟩ := ih h
                  exact ⟨⟨left, hLeft.trans (Nat.le_succ gas), hGas⟩, hOutput⟩

end Results

/-- The gas that a run uses is a number that can be printed. -/
theorem fits_of_meaning {msg : Message} {input code : List UInt8} {host : MockedHost}
    {outcome : ExecutionResult × HostWorld MockedHost} (hGas : 0 ≤ msg.gas)
    (h : platform.meaning msg input code host = .ok outcome) :
    FitsInt64 (msg.gas.toInt - outcome.1.gasLeft.toInt) := by
  obtain ⟨⟨left, hLeft, hValue⟩, _⟩ := run_bounds h
  have hLow := Int64.le_iff_toInt_le.mp hGas
  have hHigh := msg.gas.toInt_lt
  have hNumber : outcome.1.gasLeft.toInt = left := by
    rw [hValue]
    exact Int64.toInt_ofNat_of_lt (by omega)
  change 0 ≤ msg.gas.toInt at hLow
  rw [hNumber]
  constructor <;> omega

/-- What is executed, and what the VM makes of it, where the command has a meaning. -/
theorem subject_of_command {rev : Int32} {gas : Int64} {code input : List UInt8} {create : Bool}
    {report : Report} (hLength : code.length < 2 ^ 64) (hGas : 0 ≤ gas)
    (h : platform.command gas code input create = .ok report) :
    creationText (platform.exampleVm verbose) rev code create () =
      (if create then startText verbose else []) ∧
    ((∃ statusCode,
      subject (platform.exampleVm verbose) rev gas code input create () = .inl statusCode ∧
      report = .creationFailed statusCode) ∨
    ∃ msg execCode start outcome,
      subject (platform.exampleVm verbose) rev gas code input create () =
        .inr (msg, execCode, start) ∧
      platform.exampleVm verbose rev msg input execCode start = ranTo verbose outcome ∧
      FitsInt64 (msg.gas.toInt - outcome.1.gasLeft.toInt) ∧
      report = outcomeReport gas outcome) := by
  cases create with
  | false =>
      obtain ⟨outcome, hOutcome, hReport⟩ := (bind_eq_ok_iff _ _ _).mp h
      refine ⟨rfl, .inr ⟨callMessage gas input, code, ({}, ()), outcome, rfl, ?_, ?_, ?_⟩⟩
      · exact exampleVm_of_meaning hLength hGas (Nat.le_refl _) hOutcome
      · exact fits_of_meaning hGas hOutcome
      · exact (Except.ok.inj hReport).symm
  | true =>
      obtain ⟨created, hCreated, hRest⟩ := (bind_eq_ok_iff _ _ _).mp h
      have hCreation : platform.exampleVm verbose rev createMessage [] code ({}, ()) =
          ranTo verbose created :=
        exampleVm_of_meaning hLength (by decide) (Nat.le_refl _) hCreated
      refine ⟨by rw [creationText, hCreation]; rfl, ?_⟩
      by_cases hStatus : created.1.statusCode ≠ .success
      · left
        rw [if_pos hStatus] at hRest
        refine ⟨created.1.statusCode, ?_, (Except.ok.inj hRest).symm⟩
        simp only [subject, hCreation]
        exact if_pos hStatus
      · right
        rw [if_neg hStatus] at hRest
        obtain ⟨outcome, hOutcome, hReport⟩ := (bind_eq_ok_iff _ _ _).mp hRest
        have hSmall : created.1.output.length < 2 ^ 64 := by
          have hBound := (run_bounds hCreated).2
          omega
        refine ⟨{ callMessage gas input with recipient := createAddress }, created.1.output,
          (deploy created.1.output (created.2.objects 0), ()), outcome, ?_, ?_, ?_, ?_⟩
        · simp only [subject, hCreation]
          exact if_neg hStatus
        · exact exampleVm_of_meaning hSmall hGas (Nat.le_refl _) hOutcome
        · exact fits_of_meaning hGas hOutcome
        · exact (Except.ok.inj hReport).symm

/-- What stands between the header of a command and its result, where it has a meaning. -/
theorem textBetween_of_command {rev : Int32} {gas : Int64} {code input : List UInt8} {create : Bool}
    {report : Report} {clock : Clock} (hLength : code.length < 2 ^ 64) (hGas : 0 ≤ gas)
    (h : platform.command gas code input create = .ok report) :
    report.textWith (textBetween (platform.exampleVm verbose) clock rev gas code input create false
      ()) = report.textWith (startText verbose) := by
  obtain ⟨_, hSubjects⟩ :=
    @subject_of_command platform verbose rev gas code input create report hLength hGas h
  rcases hSubjects with
    ⟨statusCode, _, rfl⟩ | ⟨msg, execCode, start, outcome, hSubject, hVm, _, _⟩
  · rfl
  · rw [textBetween, hSubject]
    simp only [linesBetween_false, hVm]
    rfl

/-- A command with the example VM ends, and it tells what the code means. -/
theorem run_meaning {rev : Int32} {gas : Int64} {code input : List UInt8} {create : Bool}
    {report : Report} (verbose : Int32) (clock : Clock) (hLength : code.length < 2 ^ 64)
    (hGas : 0 ≤ gas) (h : platform.command gas code input create = .ok report) :
    ∃ world, run (platform.exampleVm verbose) clock rev gas code input create false () =
        .ok (report.exitCode, world) ∧
      world.out = header rev gas create ++ (if create then startText verbose else []) ++
        report.textWith (startText verbose) := by
  obtain ⟨hCreation, hSubjects⟩ :=
    @subject_of_command platform verbose rev gas code input create report hLength hGas h
  have hReport : reportOf (platform.exampleVm verbose) rev gas code input create () = report := by
    rcases hSubjects with
      ⟨statusCode, hSubject, rfl⟩ | ⟨msg, execCode, start, outcome, hSubject, hVm, _, rfl⟩
    · rw [reportOf, hSubject]
    · rw [reportOf, hSubject]
      simp only [hVm]
      rfl
  have hEnds : ∃ outcome,
      run (platform.exampleVm verbose) clock rev gas code input create false () = .ok outcome := by
    apply run_plain_ok
    intro msg execCode start hStart
    rcases hSubjects with
      ⟨statusCode, hSubject, _⟩ | ⟨other, begun, state, outcome, hSubject, hVm, hFits, _⟩
    · cases hSubject.symm.trans hStart
    · cases hSubject.symm.trans hStart
      rw [hVm]
      exact hFits
  obtain ⟨⟨exit, world⟩, hRun⟩ := hEnds
  obtain ⟨hExit, hOut⟩ := run_ok (fun hBench => absurd hBench Bool.false_ne_true) hRun
  rw [hReport] at hExit hOut
  rw [hCreation, textBetween_of_command hLength hGas h] at hOut
  exact ⟨world, by rw [hRun, hExit], hOut⟩

/-- A platform on which every allocation succeeds, and a host has zeros to show. -/
def testPlatform : Platform where
  malloc _ := some 0
  outputData _ result := List.replicate result.outputSize 0
  stray := emptyVm
  supplied _ _ := (List.length_replicate ..).ge

/-- The created contract returns what the code stored while creating it. -/
theorem run_meaning_create :
    ∃ world, run (testPlatform.exampleVm 1) coarseClock 1 200
        [0x60, 0xbb, 0x60, 0x00, 0x55, 0x6a, 0x60, 0x00, 0x54, 0x60, 0x00, 0x52, 0x60, 0x01, 0x60,
          0x1f, 0xf3, 0x60, 0x00, 0x52, 0x60, 0x0b, 0x60, 0x15, 0xf3] [] true false () =
        .ok (0, world) ∧
      world.out = header 1 200 true ++ lit "execution started\n\n" ++
        (Report.executed .success 7 (some [0xbb])).textWith (lit "execution started\n\n") := by
  have hCommand : testPlatform.command 200
      [0x60, 0xbb, 0x60, 0x00, 0x55, 0x6a, 0x60, 0x00, 0x54, 0x60, 0x00, 0x52, 0x60, 0x01, 0x60,
        0x1f, 0xf3, 0x60, 0x00, 0x52, 0x60, 0x0b, 0x60, 0x15, 0xf3] [] true =
      .ok (.executed .success 7 (some [0xbb])) := by
    rfl
  exact run_meaning 1 coarseClock (by decide) (by decide) hCommand

end Qrvmc.Tooling
