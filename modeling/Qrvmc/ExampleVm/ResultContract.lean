import Qrvmc.ExampleVm.Runs
import Qrvmc.Wrapper.Transparency

/-! The results of the example VM. A run within bounds comes to a result, and the gas
that it takes is the number of instructions it performs. Every exit of the loop makes
its result by the same contract, and only outputs run out of memory. -/
namespace Qrvmc.ExampleVm
open Semantics

variable {State : Type} {env : Environment State}

/-- The run accesses nothing outside its stack, its memory and its code. -/
def InBounds (env : Environment State) (world : HostWorld State) : Prop :=
  execute env world ≠ .error .stackBounds ∧ execute env world ≠ .error .memoryBounds ∧
    execute env world ≠ .error .codeBounds

/-- Every instruction takes one unit of gas and at least one byte of code. -/
theorem Runs.length_le (hLength : env.code.length < 2 ^ 64) {machine : Machine State}
    {machines : List (Machine State)} {outcome : Except Fault (ExecutionResult × Machine State)}
    (h : Runs env machine machines outcome) (hGas : 0 ≤ machine.gasLeft.toInt) :
    (machines.length : Int) ≤ machine.gasLeft.toInt ∧
      machines.length ≤ env.code.length - machine.pc := by
  induction h with
  | finished => exact ⟨hGas, Nat.zero_le _⟩
  | overflow => exact ⟨hGas, Nat.zero_le _⟩
  | refused => exact ⟨hGas, Nat.zero_le _⟩
  | failed hOpcode hPositive =>
      have hPc := (List.getElem?_eq_some_iff.mp hOpcode).1
      have hOne := Int64.lt_iff_toInt_lt.mp hPositive
      simp only [List.length_singleton]
      exact ⟨hOne, by omega⟩
  | ended hOpcode hPositive =>
      have hPc := (List.getElem?_eq_some_iff.mp hOpcode).1
      have hOne := Int64.lt_iff_toInt_lt.mp hPositive
      simp only [List.length_singleton]
      exact ⟨hOne, by omega⟩
  | @step machine next opcode machines outcome hOpcode hPositive hDispatch rest ih =>
      have hOne : 0 < machine.gasLeft.toInt := Int64.lt_iff_toInt_lt.mp hPositive
      obtain ⟨hCharged, hAdvanced, hInside⟩ := step_control hLength hOpcode hPositive hDispatch
      obtain ⟨hLessGas, hLessCode⟩ := ih (by omega)
      rw [List.length_cons]
      exact ⟨by omega, by omega⟩

/-- The result is made when the gas of the instructions is taken. -/
theorem Runs.contract (hLength : env.code.length < 2 ^ 64) {machine final : Machine State}
    {machines : List (Machine State)} {result : ExecutionResult}
    {outcome : Except Fault (ExecutionResult × Machine State)}
    (h : Runs env machine machines outcome) (hOutcome : outcome = .ok (result, final)) :
    ∃ gasLeft : Int64, gasLeft.toInt = machine.gasLeft.toInt - machines.length ∧
      Contract env gasLeft result := by
  induction h with
  | finished =>
      cases hOutcome
      exact ⟨_, (Int.sub_zero _).symm, contract_silent _ (Or.inl rfl)⟩
  | overflow => cases hOutcome
  | refused =>
      cases hOutcome
      exact ⟨_, (Int.sub_zero _).symm,
        contract_failure _ (by decide) (by decide) (by decide)⟩
  | failed => cases hOutcome
  | @ended machine next opcode result hOpcode hPositive hDispatch =>
      cases hOutcome
      have hPc := (List.getElem?_eq_some_iff.mp hOpcode).1
      obtain ⟨_, _, _, hContract⟩ := dispatch_ok hLength
        (show machine.charged.pc < env.code.length from hPc) hDispatch
      exact ⟨_, charged_toInt (ne_minValue_of_pos hPositive), hContract _ rfl⟩
  | @step machine next opcode machines outcome hOpcode hPositive hDispatch rest ih =>
      obtain ⟨hCharged, _⟩ := step_control hLength hOpcode hPositive hDispatch
      obtain ⟨gasLeft, hLeft, hContract⟩ := ih hOutcome
      refine ⟨gasLeft, ?_, hContract⟩
      rw [hLeft, hCharged, List.length_cons]
      omega

/-- A run with gas fails on its bounds or on the buffers of others. -/
theorem Runs.fault {machine : Machine State} {machines : List (Machine State)} {fault : Fault}
    {outcome : Except Fault (ExecutionResult × Machine State)}
    (hLength : env.code.length < 2 ^ 64) (h : Runs env machine machines outcome)
    (hGas : 0 ≤ machine.gasLeft.toInt) (hOutcome : outcome = .error fault) :
    fault = .codeBounds ∨ ¬Unexpected env fault := by
  induction h with
  | finished => cases hOutcome
  | overflow _ hMin =>
      rw [hMin] at hGas
      exact absurd hGas (by decide)
  | refused => cases hOutcome
  | failed _ _ hDispatch =>
      cases hOutcome
      rcases dispatch_error hDispatch with ⟨hCode, _⟩ | hExpected
      · exact Or.inl hCode
      · exact Or.inr hExpected
  | ended => cases hOutcome
  | @step machine next opcode machines outcome hOpcode hPositive hDispatch rest ih =>
      have hOne : 0 < machine.gasLeft.toInt := Int64.lt_iff_toInt_lt.mp hPositive
      obtain ⟨hCharged, _⟩ := step_control hLength hOpcode hPositive hDispatch
      exact ih (by omega) hOutcome

/-- An output that no buffer is allocated for: the region is granted and not empty. -/
def Unallocated (env : Environment State) (stack : Stack) : Prop :=
  ¬toUint32 (stack.peek 0) + toUint32 (stack.peek 1) > 1024 ∧
    (toUint32 (stack.peek 1)).toNat ≠ 0 ∧ env.malloc (toUint32 (stack.peek 1)).toNat = none

/-- A `RETURN` or `REVERT` whose allocation fails. -/
def OutputUnallocated (env : Environment State) (machine : Machine State) : Prop :=
  (env.code[machine.pc]? = some 0xf3 ∨ env.code[machine.pc]? = some 0xfd) ∧
    Unallocated env machine.stack

theorem makeOutput_outOfMemory {statusCode : StatusCode}
    (hOutput : statusCode = .success ∨ statusCode = .revert) (gasLeft gasRefund : Int64)
    (outputPtr outputSize : Nat) :
    Triple (fun _ => False) (fun _ => True)
      (makeOutput env statusCode gasLeft gasRefund outputPtr outputSize)
      fun result _ => result.statusCode = .outOfMemory ↔
        outputSize ≠ 0 ∧ env.malloc outputSize = none := by
  have hStatus : statusCode ≠ .outOfMemory := by
    rcases hOutput with rfl | rfl
    · decide
    · decide
  by_cases hSize : outputSize = 0
  · subst hSize
    exact Triple.pure fun _ _ => iff_of_false hStatus fun h => h.1 rfl
  · cases hMalloc : env.malloc outputSize with
    | none =>
        simp only [makeOutput, qrvmcMakeResult, hMalloc, if_pos hSize, if_true]
        exact Triple.pure fun _ _ => iff_of_true rfl ⟨hSize, trivial⟩
    | some buffer =>
        simp only [makeOutput, qrvmcMakeResult, hMalloc, if_pos hSize, reduceCtorEq, if_false]
        apply Triple.bind (Triple.any fun _ _ => trivial)
        intro output
        exact Triple.pure fun _ _ => iff_of_false hStatus fun h => h.2

/-- The output instructions end the run, and run out of memory only for their output. -/
theorem opOutput_outOfMemory {statusCode : StatusCode}
    (hOutput : statusCode = .success ∨ statusCode = .revert) (stack : Stack) :
    Triple (fun _ => False) (Popped (fun _ => True) stack 0) (opOutput env statusCode)
      fun outcome _ => ∃ result, outcome = some result ∧
        (result.statusCode = .outOfMemory ↔ Unallocated env stack) := by
  have hStable : Stable env fun _ => True := Stable.of_frame fun _ _ _ _ hTrue => hTrue
  unfold opOutput
  apply pop_bind hStable.stack id
  apply pop_bind hStable.stack id
  apply expand_bind hStable
  · intro hRefused
    exact Triple.pure fun _ _ =>
      ⟨_, rfl, iff_of_false (by decide) fun hUnallocated => hUnallocated.1 hRefused⟩
  intro hGranted
  apply Triple.get_bind
  intro machine _
  have hMakes := @makeOutput_outOfMemory _ env statusCode hOutput machine.gasLeft 0
    (toUint32 (stack.peek 0)).toNat (toUint32 (stack.peek 1)).toNat
  apply (hMakes.strengthen fun _ _ => trivial).bind
  intro result
  exact Triple.pure fun _ hResult => ⟨result, rfl, hResult.trans (and_iff_right hGranted).symm⟩

/-- No other instruction allocates anything, so it does not run out of memory. -/
theorem dispatch_allocates (hLength : env.code.length < 2 ^ 64) {machine next : Machine State}
    (hPc : machine.pc < env.code.length) {opcode : UInt8} {result : ExecutionResult}
    (hReturn : opcode ≠ 0xf3) (hRevert : opcode ≠ 0xfd)
    (h : dispatch env opcode machine = .ok (some result, next)) :
    result.statusCode ≠ .outOfMemory := by
  let generous : Environment State := { env with malloc := fun _ => some 0 }
  have hSame : dispatch generous opcode = dispatch env opcode := by
    unfold dispatch
    simp only [if_neg hReturn, if_neg hRevert]
    rfl
  rw [← hSame] at h
  obtain ⟨_, _, _, hContract⟩ := @dispatch_ok _ generous machine next opcode _ hLength hPc h
  intro hMemory
  obtain ⟨_, size, _, hNone⟩ := (hContract _ rfl).noMemory hMemory
  cases hNone

/-- Whether an instruction runs out of memory can be told from its operands. -/
theorem dispatch_outOfMemory_iff (hLength : env.code.length < 2 ^ 64)
    {machine next : Machine State} {opcode : UInt8} {result : ExecutionResult}
    (hOpcode : env.code[machine.pc]? = some opcode)
    (h : dispatch env opcode machine.charged = .ok (some result, next)) :
    result.statusCode = .outOfMemory ↔ OutputUnallocated env machine := by
  have hPc : machine.charged.pc < env.code.length := (List.getElem?_eq_some_iff.mp hOpcode).1
  have hEnds {statusCode : StatusCode} (hOutput : statusCode = .success ∨ statusCode = .revert)
      (hSame : dispatch env opcode = opOutput env statusCode)
      (hKind : opcode = 0xf3 ∨ opcode = 0xfd) :
      result.statusCode = .outOfMemory ↔ OutputUnallocated env machine := by
    have hTriple := @opOutput_outOfMemory _ env statusCode hOutput machine.stack machine.charged
      ⟨trivial, rfl⟩
    rw [← hSame, h] at hTriple
    obtain ⟨_, hResult, hMemory⟩ := hTriple
    cases hResult
    rw [OutputUnallocated, hOpcode, Option.some.injEq, Option.some.injEq]
    exact hMemory.trans (and_iff_right hKind).symm
  by_cases hReturn : opcode = 0xf3
  · subst hReturn
    exact hEnds (.inl rfl) rfl (.inl rfl)
  by_cases hRevert : opcode = 0xfd
  · subst hRevert
    exact hEnds (.inr rfl) rfl (.inr rfl)
  refine iff_of_false (dispatch_allocates hLength hPc hReturn hRevert h) ?_
  rintro ⟨hKind, _⟩
  rw [hOpcode, Option.some.injEq, Option.some.injEq] at hKind
  exact hKind.elim hReturn hRevert

/-- An output instruction gives a result or fails, so the run does not go on after it. -/
theorem not_outputUnallocated_of_step {machine next : Machine State} {opcode : UInt8}
    (hOpcode : env.code[machine.pc]? = some opcode)
    (h : dispatch env opcode machine.charged = .ok (none, next)) :
    ¬OutputUnallocated env machine := by
  have hGoesOn {statusCode : StatusCode} (hOutput : statusCode = .success ∨ statusCode = .revert)
      (hSame : dispatch env opcode = opOutput env statusCode) : False := by
    have hTriple := @opOutput_outOfMemory _ env statusCode hOutput machine.stack machine.charged
      ⟨trivial, rfl⟩
    rw [← hSame, h] at hTriple
    obtain ⟨_, hResult, _⟩ := hTriple
    cases hResult
  rintro ⟨hKind, _⟩
  rw [hOpcode, Option.some.injEq, Option.some.injEq] at hKind
  rcases hKind with rfl | rfl
  · exact hGoesOn (.inl rfl) rfl
  · exact hGoesOn (.inr rfl) rfl

/-- A run is out of memory exactly if its last instruction is an output without a buffer. -/
theorem Runs.outOfMemory_iff (hLength : env.code.length < 2 ^ 64)
    {machine final : Machine State} {machines : List (Machine State)} {result : ExecutionResult}
    {outcome : Except Fault (ExecutionResult × Machine State)}
    (h : Runs env machine machines outcome) (hOutcome : outcome = .ok (result, final)) :
    result.statusCode = .outOfMemory ↔
      ∃ last, machines.getLast? = some last ∧ OutputUnallocated env last := by
  induction h with
  | finished =>
      cases hOutcome
      exact iff_of_false (fun hMemory => by cases hMemory) fun ⟨_, hLast, _⟩ => by cases hLast
  | overflow => cases hOutcome
  | refused =>
      cases hOutcome
      exact iff_of_false (by decide) fun ⟨_, hLast, _⟩ => by cases hLast
  | failed => cases hOutcome
  | ended hOpcode _ hDispatch =>
      cases hOutcome
      rw [dispatch_outOfMemory_iff hLength hOpcode hDispatch]
      constructor
      · intro hOutput
        exact ⟨_, rfl, hOutput⟩
      · rintro ⟨_, hLast, hOutput⟩
        cases hLast
        exact hOutput
  | @step machine next opcode machines outcome hOpcode _ hDispatch rest ih =>
      rw [ih hOutcome]
      cases machines with
      | nil =>
          refine iff_of_false (fun ⟨_, hLast, _⟩ => by cases hLast) ?_
          rintro ⟨_, hLast, hOutput⟩
          cases hLast
          exact not_outputUnallocated_of_step hOpcode hDispatch hOutput
      | cons head tail => rw [List.getLast?_cons_cons]

/-- A run within bounds ends with a result that follows the contract, after at most as
many instructions as there is gas and code for. -/
theorem result_contract {world : HostWorld State} (hLength : env.code.length < 2 ^ 64)
    (hGas : 0 ≤ env.msg.gas) (hSupplied : Supplied env) (hBounds : InBounds env world) :
    ∃ result machine, execute env world = .ok (result, machine) ∧
      ((instructions env world).length : Int) ≤ env.msg.gas.toInt ∧
      (instructions env world).length ≤ env.code.length ∧
      0 ≤ result.gasLeft ∧ result.gasLeft ≤ env.msg.gas ∧
      (result.statusCode ≠ .success → result.statusCode ≠ .revert → result.gasLeft = 0) ∧
      (result.statusCode = .success ∨ result.statusCode = .revert →
        env.msg.gas.toInt - result.gasLeft.toInt = (instructions env world).length) ∧
      (result.outputSize ≠ 0 → env.malloc result.outputSize = result.outputData) ∧
      (result.statusCode = .outOfMemory →
        result = { statusCode := .outOfMemory, output := [] } ∧
          ∃ size, size ≠ 0 ∧ env.malloc size = none) ∧
      (result.statusCode = .outOfMemory ↔ ∃ last,
        (instructions env world).getLast? = some last ∧ OutputUnallocated env last) ∧
      result.gasRefund = 0 ∧ result.createAddress = 0 ∧
      (result.outputData = none ↔ result.outputSize = 0) := by
  have hRuns := runs_execute hLength world
  have hStart : 0 ≤ (initial env world).gasLeft.toInt := Int64.le_iff_toInt_le.mp hGas
  obtain ⟨hLessGas, hLessCode⟩ := hRuns.length_le hLength hStart
  cases hExecute : execute env world with
  | error fault =>
      obtain ⟨hStack, hMemory, hCode⟩ := hBounds
      rcases hRuns.fault hLength hStart hExecute with rfl | hExpected
      · exact absurd hExecute hCode
      · refine absurd ⟨?_, ?_, fun _ => hSupplied⟩ hExpected
        · rintro rfl
          exact hStack hExecute
        · rintro rfl
          exact hMemory hExecute
  | ok outcome =>
      obtain ⟨result, machine⟩ := outcome
      obtain ⟨gasLeft, hLeft, hContract⟩ := hRuns.contract hLength hExecute
      have hMessage : (initial env world).gasLeft.toInt = env.msg.gas.toInt := rfl
      rw [hMessage] at hLeft hLessGas hStart
      have hResult : 0 ≤ result.gasLeft.toInt ∧ result.gasLeft.toInt ≤ env.msg.gas.toInt := by
        by_cases hOutput : result.statusCode = .success ∨ result.statusCode = .revert
        · rw [hContract.gas hOutput]
          omega
        · rw [hContract.noGas (fun h => hOutput (Or.inl h)) fun h => hOutput (Or.inr h)]
          exact ⟨Int.le_refl 0, hStart⟩
      refine ⟨result, machine, rfl, hLessGas, hLessCode.trans (Nat.sub_le _ _),
        Int64.le_iff_toInt_le.mpr hResult.1, Int64.le_iff_toInt_le.mpr hResult.2, hContract.noGas,
        ?_, hContract.buffer, hContract.noMemory, hRuns.outOfMemory_iff hLength hExecute,
        hContract.refund, hContract.createAddress, hContract.output⟩
      intro hOutput
      rw [hContract.gas hOutput, hLeft]
      omega

/-- The message of the unit tests. -/
def testMessage (gas : Int64) (input : List UInt8) : Message where
  kind := .call
  flags := 0
  depth := 0
  gas
  recipient := addressLiteral "Qd00000000000000000000000000000000000000d"
  sender := addressLiteral "Q5000000000000000000000000000000000000005"
  inputData := .caller 0
  inputSize := input.length
  value := 0
  create2Salt := 0
  codeAddress := 0

/-- `execute_in_example_vm`, where the allocations succeed and the host returns zeros. -/
def testEnvironment (gas : Int64) (code input : List UInt8) : Environment MockedHost where
  host := getInterface MockedHost.methods
  context := 0
  msg := testMessage gas input
  input
  code
  malloc _ := some 0
  outputData _ result := List.replicate result.outputSize 0

/-- The mocked host of the unit tests. -/
def testWorld : HostWorld MockedHost where
  objects _ := {}

theorem testEnvironment_supplied (gas : Int64) (code input : List UInt8) :
    Supplied (testEnvironment gas code input) where
  input := Nat.le_refl _
  output _ _ _ := (List.length_replicate ..).ge

/-- A run that is seen to end has a result. -/
theorem ok_of_isOk {State : Type} {outcome : Except Fault (ExecutionResult × Machine State)}
    (h : outcome.isOk = true) : ∃ result machine, outcome = .ok (result, machine) := by
  cases outcome with
  | error fault => cases h
  | ok value => exact ⟨value.1, value.2, rfl⟩

/-- A push and a stop take two units of gas. -/
theorem result_contract_stop :
    ∃ result machine,
      execute (testEnvironment 10 [0x60, 0x07, 0x00] []) testWorld = .ok (result, machine) ∧
        result.statusCode = .success ∧ result.gasLeft = 8 ∧
        (10 : Int64).toInt - result.gasLeft.toInt =
          (instructions (testEnvironment 10 [0x60, 0x07, 0x00] []) testWorld).length := by
  have hSuccess : ∃ result machine,
      execute (testEnvironment 10 [0x60, 0x07, 0x00] []) testWorld = .ok (result, machine) ∧
        result.statusCode = .success ∧ result.gasLeft = 8 := ⟨_, _, rfl, rfl, rfl⟩
  obtain ⟨result, machine, hExecute, hStatus, hLeft⟩ := hSuccess
  have hBounds : InBounds (testEnvironment 10 [0x60, 0x07, 0x00] []) testWorld := by
    rw [InBounds, hExecute]
    simp
  obtain ⟨_, _, hSame, _, _, _, _, _, hTaken, _⟩ := result_contract (by decide) (by decide)
    (testEnvironment_supplied 10 [0x60, 0x07, 0x00] []) hBounds
  cases hExecute.symm.trans hSame
  exact ⟨_, _, hExecute, hStatus, hLeft, hTaken (Or.inl hStatus)⟩

end Qrvmc.ExampleVm
