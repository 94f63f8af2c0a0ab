import Qrvmc.Tooling.BenchArithmetic
import Qrvmc.Tooling.Run

/-! What the run command tells about an execution. What is executed in the end, and with
which result, does not depend on the benchmark, which only adds its lines. The text of a
command without benchmark tells the gas limit, whether a contract was created, and all that
it reports, but for the numbers of status codes without a name. -/
namespace Qrvmc.Tooling
open Containers Semantics

variable {State : Type}

/-- What a run tells. -/
inductive Report where
  | creationFailed (statusCode : StatusCode)
  | executed (statusCode : StatusCode) (gasUsed : Int) (output : Option (List UInt8))

namespace Report

def exitCode : Report → Int
  | .creationFailed statusCode => statusCode.toInt
  | .executed .. => 0

def outputLine : Option (List UInt8) → List CChar
  | none => []
  | some output => lit "Output:   " ++ hex output ++ lit "\n"

/-- The lines behind the header, with those of a benchmark in between. -/
def textWith (between : List CChar) : Report → List CChar
  | .creationFailed statusCode =>
      lit "Contract creation failed: " ++ qrvmcStatusCodeToString statusCode ++ lit "\n"
  | .executed statusCode gasUsed output =>
      lit "\n" ++ between ++ (lit "Result:   " ++ qrvmcStatusCodeToString statusCode ++
        lit "\nGas used: " ++ printed gasUsed ++ lit "\n" ++ outputLine output)

theorem outputLine_inj {first second : Option (List UInt8)}
    (h : outputLine first = outputLine second) : first = second := by
  cases first with
  | none =>
      cases second with
      | none => rfl
      | some output => cases h
  | some output =>
      cases second with
      | none => cases h
      | some other =>
          have hHex : hex output = hex other :=
            List.append_cancel_left (List.append_cancel_right h)
          have hBytes := congrArg decodeDigits hHex
          rw [decodeDigits_hex, decodeDigits_hex] at hBytes
          rw [hBytes]

/-- Reports that are written in the same way. Codes outside the enumeration share a name. -/
inductive Alike : Report → Report → Prop where
  | creationFailed {first second : StatusCode} (hName : first.named = second.named) :
      Alike (.creationFailed first) (.creationFailed second)
  | executed {first second : StatusCode} (hName : first.named = second.named) (gasUsed : Int)
      (output : Option (List UInt8)) :
      Alike (.executed first gasUsed output) (.executed second gasUsed output)

/-- The text of a report tells what is reported, but for the numbers of unknown codes. -/
theorem alike_of_text {first second : Report} (h : first.textWith [] = second.textWith []) :
    Alike first second := by
  cases first with
  | creationFailed statusCode =>
      cases second with
      | creationFailed other =>
          have hName : qrvmcStatusCodeToString statusCode = qrvmcStatusCodeToString other :=
            List.append_cancel_left (List.append_cancel_right h)
          exact .creationFailed ((qrvmcStatusCodeToString_eq_iff ..).mp hName)
      | executed other gasUsed output =>
          exact absurd (List.cons.inj h).1 (by decide)
  | executed statusCode gasUsed output =>
      cases second with
      | creationFailed other => exact absurd (List.cons.inj h).1 (by decide)
      | executed other gasTaken written =>
          unfold textWith at h
          simp only [List.append_assoc, List.nil_append] at h
          have hLines := List.append_cancel_left (List.append_cancel_left h)
          obtain ⟨hName, hRest⟩ := separated_inj (newline_not_mem_name _) (newline_not_mem_name _)
            hLines
          have hGasLine : printed gasUsed ++ chr '\n' :: outputLine output =
              printed gasTaken ++ chr '\n' :: outputLine written :=
            @List.append_cancel_left _ (lit "Gas used: ") _ _ hRest
          obtain ⟨hGas, hOutput⟩ := separated_inj (newline_not_mem_printed _)
            (newline_not_mem_printed _) hGasLine
          rw [printed_inj hGas, outputLine_inj hOutput]
          exact .executed ((qrvmcStatusCodeToString_eq_iff ..).mp hName) _ _

theorem Alike.text {first second : Report} (h : Alike first second) (between : List CChar) :
    first.textWith between = second.textWith between := by
  cases h with
  | creationFailed hName =>
      rw [textWith, (qrvmcStatusCodeToString_eq_iff ..).mpr hName, textWith]
  | executed hName =>
      rw [textWith, (qrvmcStatusCodeToString_eq_iff ..).mpr hName, textWith]

def statusCode : Report → StatusCode
  | .creationFailed statusCode => statusCode
  | .executed statusCode _ _ => statusCode

/-- Where the status has a name of its own, nothing is lost. -/
theorem Alike.eq {first second : Report} (h : Alike first second)
    (hNamed : first.statusCode.named.isSome) : first = second := by
  cases h with
  | creationFailed hName => rw [eq_of_same_name hName hNamed]
  | executed hName => rw [eq_of_same_name hName hNamed]

end Report

theorem space_not_mem_revision (rev : Int32) : chr ' ' ∉ qrvmcRevisionToString rev := by
  unfold qrvmcRevisionToString
  split <;> decide +kernel

/-- The first line tells its parts, and what follows it. -/
theorem header_inj {rev other : Int32} {gas limit : Int64} {create deploying : Bool}
    {text following : List CChar}
    (h : header rev gas create ++ text = header other limit deploying ++ following) :
    create = deploying ∧ gas = limit ∧ qrvmcRevisionToString rev = qrvmcRevisionToString other ∧
      text = following := by
  have hLine {start : List CChar}
      (h : start ++ (qrvmcRevisionToString rev ++ (lit " with " ++ (printed gas.toInt ++
          (lit " gas limit\n" ++ text)))) =
        start ++ (qrvmcRevisionToString other ++ (lit " with " ++ (printed limit.toInt ++
          (lit " gas limit\n" ++ following))))) :
      gas = limit ∧ qrvmcRevisionToString rev = qrvmcRevisionToString other ∧ text = following := by
    obtain ⟨hRevision, hRest⟩ := separated_inj (space_not_mem_revision _) (space_not_mem_revision _)
      (List.append_cancel_left h)
    have hGas : printed gas.toInt ++ chr ' ' :: (lit "gas limit\n" ++ text) =
        printed limit.toInt ++ chr ' ' :: (lit "gas limit\n" ++ following) :=
      @List.append_cancel_left _ (lit "with ") _ _ hRest
    obtain ⟨hSame, hText⟩ := separated_inj (space_not_mem_printed _) (space_not_mem_printed _) hGas
    exact ⟨Int64.toInt_inj.mp (printed_inj hSame), hRevision, List.append_cancel_left hText⟩
  unfold header at h
  simp only [List.append_assoc] at h
  cases create with
  | true =>
      cases deploying with
      | true => exact ⟨rfl, hLine h⟩
      | false => exact absurd (List.cons.inj h).1 (by decide)
  | false =>
      cases deploying with
      | true => exact absurd (List.cons.inj h).1 (by decide)
      | false => exact ⟨rfl, hLine h⟩

/-- What is reported of an execution. -/
def Report.ofExecution (gas : Int64) (statusCode : StatusCode) (gasLeft : Int64)
    (output : List UInt8) : Report :=
  .executed statusCode (gas.toInt - gasLeft.toInt)
    (if statusCode = .success ∨ statusCode = .revert then some output else none)

/-- What is reported of a result. -/
def RunResult.report (gas : Int64) (result : RunResult) : Report :=
  .ofExecution gas result.statusCode result.gasLeft result.output

theorem textWith_report (between : List CChar) (gas : Int64) (result : RunResult) :
    (result.report gas).textWith between = lit "\n" ++ between ++
      resultLines result.statusCode (gas.toInt - result.gasLeft.toInt) result.output := by
  by_cases hShown : result.statusCode = .success ∨ result.statusCode = .revert
  · simp only [RunResult.report, Report.ofExecution, Report.textWith, resultLines, if_pos hShown,
      Report.outputLine]
  · simp only [RunResult.report, Report.ofExecution, Report.textWith, resultLines, if_neg hShown,
      Report.outputLine]

/-- The execution that is reported, or the status of a failed creation. -/
def subject (vm : RunVm State) (rev : Int32) (gas : Int64) (code input : List UInt8) (create : Bool)
    (state : State) : StatusCode ⊕ (Message × List UInt8 × MockedHost × State) :=
  if create then
    let created := vm rev createMessage [] code ({}, state)
    if created.1.statusCode ≠ .success then .inl created.1.statusCode
    else .inr ({ callMessage gas input with recipient := createAddress }, created.1.output,
      deploy created.1.output created.2.1, created.2.2)
  else .inr (callMessage gas input, code, {}, state)

section Bench

variable {vm : Executor State} {clock : Clock} {msg : Message} {code : List UInt8}
  {expectedResult : ExecuteResult} {world : BenchWorld State}

/-- The warning about gas, unless as much is left as expected. -/
def gasWarning (msg : Message) (result expectedResult : ExecuteResult) : List CChar :=
  if result.gasLeft ≠ expectedResult.gasLeft then
    warning ++ lit "(gas used: " ++ printed (msg.gas.toInt - result.gasLeft.toInt) ++ lit ")\n"
  else []

/-- The warning about the output, unless it is what was expected. -/
def outputWarning (result expectedResult : ExecuteResult) : List CChar :=
  if result.output ≠ expectedResult.output then
    warning ++ lit "(output: " ++ hex result.output ++ lit ")\n"
  else []

/-- How often the probe fits the target time, but at least once. -/
def iterationsBetween (start stop : Int64) : Int := max (1000000000 / (stop.toInt - start.toInt)) 1

/-- The line about the average time, which is rounded down. -/
def timeLine (start stop : Int64) (iterations : Int) : List CChar :=
  lit "Time:     " ++ printed ((stop.toInt - start.toInt) / iterations) ++ unitName ++
    lit " (avg of " ++ printed iterations ++ lit " iterations)\n"

/-- What the VM itself writes when it is executed several times. -/
def writings (vm : Executor State) (msg : Message) (code : List UInt8) : Nat → State → List CChar
  | 0, _ => []
  | count + 1, state =>
      (vm msg code state).1.written ++ writings vm msg code count (vm msg code state).2

/-- The lines of a benchmark: warnings if the probe went otherwise than expected, and the
average time. They follow what the VM writes itself. -/
def benchLines (vm : Executor State) (clock : Clock) (msg : Message) (code : List UInt8)
    (expectedResult : ExecuteResult) (world : BenchWorld State) : List CChar :=
  let (result, state) := vm msg code world.state
  let iterations := iterationsBetween (clock world.readings) (clock (world.readings + 1))
  result.written ++ gasWarning msg result expectedResult ++ outputWarning result expectedResult ++
    writings vm msg code iterations.toNat state ++
    timeLine (clock (world.readings + 1)) (clock (world.readings + 2)) iterations

theorem warnGas_ok {result : ExecuteResult} {warned : BenchWorld State}
    (h : warnGas msg result expectedResult world = .ok warned) :
    warned = world.print (gasWarning msg result expectedResult) := by
  unfold warnGas at h
  unfold gasWarning
  split at h
  · rename_i hDiffers
    cases hGas : subtract msg.gas result.gasLeft with
    | error fault =>
        rw [hGas] at h
        cases h
    | ok gasUsed =>
        rw [hGas] at h
        cases h
        rw [if_pos hDiffers, ← ((int64_eq_ok_iff _ _).mp hGas).2]
  · rename_i hSame
    cases h
    rw [if_neg hSame, BenchWorld.print, List.append_nil]

theorem warnOutput_eq (result : ExecuteResult) :
    warnOutput result expectedResult world = world.print (outputWarning result expectedResult) := by
  unfold warnOutput outputWarning
  split
  · rfl
  · rw [BenchWorld.print, List.append_nil]

/-- The loop only adds what the VM writes. -/
theorem benchLoop_out (iterations : Int32) :
    (benchLoop vm msg code iterations world).out =
      world.out ++ writings vm msg code iterations.toInt.toNat world.state := by
  have hLoop (count first : Nat) (world : BenchWorld State) :
      (countLoop (fun _ world => (world.execute vm msg code).2) count first world).out =
        world.out ++ writings vm msg code count world.state := by
    induction count generalizing first world with
    | zero => exact (List.append_nil _).symm
    | succ count ih =>
        rw [countLoop, ih, writings, ← List.append_assoc]
        rfl
  exact hLoop _ 0 world

/-- The numbers that a benchmark prints, where it ends. -/
theorem bench_numbers (hOrder : ∀ i, clock i ≤ clock (i + 1))
    (hMeasurable : Measurable vm clock msg code expectedResult world) {probeTime elapsed : Int64}
    {iterations : Int32} {benchTime : Int64}
    (hProbe : subtract (clock (world.readings + 1)) (clock world.readings) = .ok probeTime)
    (hIterations : numIterations probeTime = .ok iterations)
    (hElapsed : subtract (clock (world.readings + 2)) (clock (world.readings + 1)) = .ok elapsed)
    (hBenchTime : divide elapsed iterations.toInt64 = .ok benchTime) :
    iterations.toInt =
        iterationsBetween (clock world.readings) (clock (world.readings + 1)) ∧
      report benchTime iterations = timeLine (clock (world.readings + 1))
        (clock (world.readings + 2)) iterations.toInt := by
  have hLater : (clock (world.readings + 1)).toInt ≤ (clock (world.readings + 2)).toInt :=
    Int64.le_iff_toInt_le.mp (hOrder (world.readings + 1))
  have hProbeValue := ((int64_eq_ok_iff _ _).mp hProbe).2
  have hElapsedValue := ((int64_eq_ok_iff _ _).mp hElapsed).2
  obtain ⟨count, hCount, hCountValue, hLow, _⟩ := @exists_numIterations probeTime (by
    have hProbed := hMeasurable.probe
    omega)
  cases hIterations.symm.trans hCount
  have hWiden : iterations.toInt64.toInt = iterations.toInt := Int32.toInt_toInt64 iterations
  obtain ⟨average, hAverage, hAverageValue⟩ := @exists_divide elapsed iterations.toInt64
    (by omega) (by omega)
  cases hBenchTime.symm.trans hAverage
  rw [hWiden, hElapsedValue] at hAverageValue
  rw [hProbeValue] at hCountValue
  exact ⟨hCountValue, by rw [report, hAverageValue, timeLine]⟩

/-- A benchmark adds its lines to the output. -/
theorem bench_out (hOrder : ∀ i, clock i ≤ clock (i + 1)) {final : BenchWorld State}
    (h : bench vm clock msg code expectedResult world = .ok final) :
    final.out = world.out ++ benchLines vm clock msg code expectedResult world := by
  obtain ⟨probeTime, hProbe, warned, hWarned, iterations, hIterations, elapsed, hElapsed, benchTime,
    hBenchTime, hFinal⟩ := (bench_eq_ok_iff final).mp h
  rw [(loop_counts hWarned).2] at hElapsed
  obtain ⟨hCount, hReport⟩ := bench_numbers hOrder (measurable_of_ok hOrder h) hProbe hIterations
    hElapsed hBenchTime
  have hGas := warnGas_ok hWarned
  subst hGas
  rw [warnOutput_eq, hReport] at hFinal
  have hOut := congrArg BenchWorld.out (Except.ok.inj hFinal)
  rw [← hOut, BenchWorld.print, BenchWorld.now, benchLoop_out, benchLines, ← hCount]
  simp only [BenchWorld.print, probed, BenchWorld.execute, List.append_assoc]

theorem benchLines_congr {other : BenchWorld State} (hState : other.state = world.state)
    (hReadings : other.readings = world.readings) :
    benchLines vm clock msg code expectedResult other =
      benchLines vm clock msg code expectedResult world := by
  rw [benchLines, hState, hReadings, benchLines]

theorem bench_ok_iff (hOrder : ∀ i, clock i ≤ clock (i + 1)) :
    (∃ final, bench vm clock msg code expectedResult world = .ok final) ↔
      Measurable vm clock msg code expectedResult world := by
  constructor
  · rintro ⟨final, hFinal⟩
    exact measurable_of_ok hOrder hFinal
  · intro h
    obtain ⟨final, _, _, hFinal, _⟩ := h.measures hOrder
    exact ⟨final, hFinal⟩

theorem benchIf_true :
    benchIf true vm clock msg code expectedResult world =
      bench vm clock msg code expectedResult world := if_pos rfl

theorem benchIf_false : benchIf false vm clock msg code expectedResult world = .ok world :=
  if_neg Bool.false_ne_true

theorem Measurable.congr {other : BenchWorld State}
    (h : Measurable vm clock msg code expectedResult world) (hState : other.state = world.state)
    (hReadings : other.readings = world.readings) :
    Measurable vm clock msg code expectedResult other where
  probe := hReadings ▸ h.probe
  probeFits := hReadings ▸ h.probeFits
  loopFits := hReadings ▸ h.loopFits
  gas := hState ▸ h.gas

end Bench

section Run

variable {vm : RunVm State} {clock : Clock} {rev : Int32} {msg : Message}
  {input execCode : List UInt8} {benchmark : Bool} {world : BenchWorld (MockedHost × State)}

/-- The numbers of an execution fit their types, and the benchmark has something to
measure if there is one. -/
structure Reportable (vm : RunVm State) (clock : Clock) (rev : Int32) (msg : Message)
    (input execCode : List UInt8) (benchmark : Bool) (state : MockedHost × State) : Prop where
  gasUsed : FitsInt64 (msg.gas.toInt - (vm rev msg input execCode state).1.gasLeft.toInt)
  bench : benchmark = true → Measurable (vm.executor rev input) clock msg execCode
    (vm rev msg input execCode state).1.toExecuteResult
    { state := (vm rev msg input execCode state).2 }

/-- The world of the command behind the execution. -/
def executedWorld (vm : RunVm State) (rev : Int32) (msg : Message) (input execCode : List UInt8)
    (world : BenchWorld (MockedHost × State)) : BenchWorld (MockedHost × State) :=
  (vm.execute rev msg input execCode (world.print (lit "\n"))).2

/-- The operations that may fail, in order. -/
theorem runCode_eq_ok_iff (outcome : Int × BenchWorld (MockedHost × State)) :
    runCode vm clock rev msg input execCode benchmark world = .ok outcome ↔
      ∃ measured, benchIf benchmark (vm.executor rev input) clock msg execCode
          (vm rev msg input execCode world.state).1.toExecuteResult
          (executedWorld vm rev msg input execCode world) = .ok measured ∧
      ∃ gasUsed, subtract msg.gas (vm rev msg input execCode world.state).1.gasLeft = .ok gasUsed ∧
      .ok (0, measured.print (resultLines (vm rev msg input execCode world.state).1.statusCode
        gasUsed.toInt (vm rev msg input execCode world.state).1.output)) =
          (.ok outcome : Except BenchFault _) := by
  simp only [← bind_eq_ok_iff]
  rfl

/-- What stands between the header and the result of an execution: what the VM writes
itself, and the lines of the benchmark if there is one. -/
def linesBetween (vm : RunVm State) (clock : Clock) (rev : Int32) (msg : Message)
    (input execCode : List UInt8) (benchmark : Bool) (state : MockedHost × State) : List CChar :=
  (vm rev msg input execCode state).1.written ++
    if benchmark then benchLines (vm.executor rev input) clock msg execCode
      (vm rev msg input execCode state).1.toExecuteResult
      { state := (vm rev msg input execCode state).2 }
    else []

theorem benchIf_out (hOrder : benchmark = true → ∀ i, clock i ≤ clock (i + 1))
    (hReadings : world.readings = 0) {measured : BenchWorld (MockedHost × State)}
    (h : benchIf benchmark (vm.executor rev input) clock msg execCode
      (vm rev msg input execCode world.state).1.toExecuteResult
      (executedWorld vm rev msg input execCode world) = .ok measured) :
    measured.out = world.out ++ lit "\n" ++
      linesBetween vm clock rev msg input execCode benchmark world.state := by
  have hExecuted : (executedWorld vm rev msg input execCode world).out =
      world.out ++ lit "\n" ++ (vm rev msg input execCode world.state).1.written := rfl
  unfold linesBetween
  cases benchmark with
  | false =>
      rw [benchIf_false] at h
      cases h
      rw [hExecuted, if_neg Bool.false_ne_true, List.append_nil]
  | true =>
      rw [benchIf_true] at h
      have hSame : benchLines (vm.executor rev input) clock msg execCode
          (vm rev msg input execCode world.state).1.toExecuteResult
          (executedWorld vm rev msg input execCode world) =
          benchLines (vm.executor rev input) clock msg execCode
            (vm rev msg input execCode world.state).1.toExecuteResult
            { state := (vm rev msg input execCode world.state).2 } :=
        benchLines_congr rfl hReadings
      rw [bench_out (hOrder rfl) h, hSame, hExecuted, if_pos rfl, List.append_assoc]

theorem runCode_ok (hOrder : benchmark = true → ∀ i, clock i ≤ clock (i + 1))
    (hReadings : world.readings = 0) {exit : Int} {final : BenchWorld (MockedHost × State)}
    (h : runCode vm clock rev msg input execCode benchmark world = .ok (exit, final)) :
    exit = 0 ∧ final.out = world.out ++
      ((vm rev msg input execCode world.state).1.report msg.gas).textWith
        (linesBetween vm clock rev msg input execCode benchmark world.state) := by
  obtain ⟨measured, hMeasured, gasUsed, hGas, hFinal⟩ := (runCode_eq_ok_iff _).mp h
  have hValue := ((int64_eq_ok_iff _ _).mp hGas).2
  have hOut := benchIf_out hOrder hReadings hMeasured
  cases hFinal
  refine ⟨rfl, ?_⟩
  change measured.out ++ _ = _
  rw [textWith_report, hOut, hValue]
  simp only [List.append_assoc]

/-- A command ends with a report exactly if the execution can be reported. -/
theorem runCode_ok_iff (hOrder : ∀ i, clock i ≤ clock (i + 1)) (hReadings : world.readings = 0) :
    (∃ outcome, runCode vm clock rev msg input execCode benchmark world = .ok outcome) ↔
      Reportable vm clock rev msg input execCode benchmark world.state := by
  have hSame : (executedWorld vm rev msg input execCode world).readings = 0 := hReadings
  constructor
  · rintro ⟨outcome, hOutcome⟩
    obtain ⟨measured, hMeasured, gasUsed, hGas, _⟩ := (runCode_eq_ok_iff _).mp hOutcome
    refine ⟨((int64_eq_ok_iff _ _).mp hGas).1, ?_⟩
    rintro rfl
    rw [benchIf_true] at hMeasured
    exact ((bench_ok_iff hOrder).mp ⟨measured, hMeasured⟩).congr rfl hSame.symm
  · intro h
    obtain ⟨gasUsed, hGas, _⟩ := exists_int64 h.gasUsed
    cases benchmark with
    | false => exact ⟨_, (runCode_eq_ok_iff _).mpr ⟨_, benchIf_false, gasUsed, hGas, rfl⟩⟩
    | true =>
        have hMeasurable : Measurable (vm.executor rev input) clock msg execCode
            (vm rev msg input execCode world.state).1.toExecuteResult
            (executedWorld vm rev msg input execCode world) :=
          (h.bench rfl).congr rfl hSame
        obtain ⟨measured, hMeasured⟩ := (bench_ok_iff hOrder).mpr hMeasurable
        rw [← benchIf_true] at hMeasured
        exact ⟨_, (runCode_eq_ok_iff _).mpr ⟨measured, hMeasured, gasUsed, hGas, rfl⟩⟩

end Run

section Command

variable {vm : RunVm State} {clock : Clock} {rev : Int32} {gas : Int64} {code input : List UInt8}
  {create benchmark : Bool} {state : State}

/-- The report of a command. -/
def reportOf (vm : RunVm State) (rev : Int32) (gas : Int64) (code input : List UInt8)
    (create : Bool) (state : State) : Report :=
  match subject vm rev gas code input create state with
  | .inl statusCode => .creationFailed statusCode
  | .inr (msg, execCode, state) => (vm rev msg input execCode state).1.report gas

/-- What the VM itself writes while it creates a contract. -/
def creationText (vm : RunVm State) (rev : Int32) (code : List UInt8) (create : Bool)
    (state : State) : List CChar :=
  if create then (vm rev createMessage [] code ({}, state)).1.written else []

/-- A command whose creation failed stops there. -/
theorem run_of_failed {statusCode : StatusCode}
    (h : subject vm rev gas code input create state = .inl statusCode) :
    ∃ world, run vm clock rev gas code input create benchmark state =
        .ok (statusCode.toInt, world) ∧
      world.out = header rev gas create ++ creationText vm rev code create state ++
        (Report.creationFailed statusCode).textWith [] := by
  cases create with
  | false => cases h
  | true =>
      by_cases hStatus : (vm rev createMessage [] code ({}, state)).1.statusCode ≠ .success
      · simp only [subject, if_pos hStatus, if_true] at h
        cases h
        refine ⟨_, if_pos hStatus, ?_⟩
        rfl
      · simp only [subject, if_neg hStatus, if_true] at h
        cases h

/-- Otherwise it executes what there is to execute. -/
theorem run_of_subject {msg : Message} {execCode : List UInt8} {start : MockedHost × State}
    (h : subject vm rev gas code input create state = .inr (msg, execCode, start)) :
    msg.gas = gas ∧ ∃ world, run vm clock rev gas code input create benchmark state =
        runCode vm clock rev msg input execCode benchmark world ∧
      world.out = header rev gas create ++ creationText vm rev code create state ∧
      world.readings = 0 ∧ world.state = start := by
  cases create with
  | false =>
      cases h
      exact ⟨rfl, _, rfl, (List.append_nil _).symm, rfl, rfl⟩
  | true =>
      by_cases hStatus : (vm rev createMessage [] code ({}, state)).1.statusCode ≠ .success
      · simp only [subject, if_pos hStatus, if_true] at h
        cases h
      · simp only [subject, if_neg hStatus, if_true] at h
        cases h
        exact ⟨rfl, _, if_neg hStatus, rfl, rfl, rfl⟩

/-- What stands between the header and the result of a command. -/
def textBetween (vm : RunVm State) (clock : Clock) (rev : Int32) (gas : Int64)
    (code input : List UInt8) (create benchmark : Bool) (state : State) : List CChar :=
  match subject vm rev gas code input create state with
  | .inl _ => []
  | .inr (msg, execCode, start) => linesBetween vm clock rev msg input execCode benchmark start

theorem run_ok (hOrder : benchmark = true → ∀ i, clock i ≤ clock (i + 1)) {exit : Int}
    {final : BenchWorld (MockedHost × State)}
    (h : run vm clock rev gas code input create benchmark state = .ok (exit, final)) :
    exit = (reportOf vm rev gas code input create state).exitCode ∧
      final.out = header rev gas create ++ creationText vm rev code create state ++
        (reportOf vm rev gas code input create state).textWith
          (textBetween vm clock rev gas code input create benchmark state) := by
  unfold textBetween
  cases hSubject : subject vm rev gas code input create state with
  | inl statusCode =>
      obtain ⟨world, hRun, hOut⟩ := @run_of_failed _ vm clock rev gas code input create benchmark
        state statusCode hSubject
      have hReport : reportOf vm rev gas code input create state = .creationFailed statusCode := by
        rw [reportOf, hSubject]
      rw [hRun] at h
      rw [hReport]
      cases h
      exact ⟨rfl, hOut⟩
  | inr start =>
      obtain ⟨msg, execCode, start⟩ := start
      obtain ⟨hGas, world, hRun, hOut, hReadings, hState⟩ := @run_of_subject _ vm clock rev gas code
        input create benchmark state msg execCode start hSubject
      have hReport : reportOf vm rev gas code input create state =
          (vm rev msg input execCode start).1.report gas := by
        rw [reportOf, hSubject]
      rw [hRun] at h
      rw [hReport]
      obtain ⟨hExit, hFinal⟩ := runCode_ok hOrder hReadings h
      rw [hState, hGas, hOut] at hFinal
      exact ⟨hExit, hFinal⟩

/-- A VM that does not write to the stream of the command itself. -/
def RunVm.Silent (vm : RunVm State) : Prop :=
  ∀ rev msg input code state, (vm rev msg input code state).1.written = []

theorem RunVm.Silent.creationText (hSilent : vm.Silent) :
    creationText vm rev code create state = [] := by
  unfold Tooling.creationText
  split
  · exact hSilent ..
  · rfl

theorem linesBetween_false {msg : Message} {start : MockedHost × State} :
    linesBetween vm clock rev msg input code false start =
      (vm rev msg input code start).1.written := by
  rw [linesBetween, if_neg Bool.false_ne_true, List.append_nil]

theorem RunVm.Silent.textBetween (hSilent : vm.Silent) :
    textBetween vm clock rev gas code input create false state = [] := by
  unfold Tooling.textBetween
  split
  · rfl
  · rw [linesBetween_false, hSilent]

/-- Without a benchmark and another text the report stands behind the header. -/
theorem run_plain_out (hSilent : vm.Silent) {exit : Int}
    {final : BenchWorld (MockedHost × State)}
    (h : run vm clock rev gas code input create false state = .ok (exit, final)) :
    exit = (reportOf vm rev gas code input create state).exitCode ∧
      final.out = header rev gas create ++
        (reportOf vm rev gas code input create state).textWith [] := by
  have hRun := run_ok (fun hBench => absurd hBench Bool.false_ne_true) h
  rw [hSilent.creationText, hSilent.textBetween, List.append_nil] at hRun
  exact hRun

theorem run_ok_iff (hOrder : ∀ i, clock i ≤ clock (i + 1)) :
    (∃ outcome, run vm clock rev gas code input create benchmark state = .ok outcome) ↔
      ∀ msg execCode start, subject vm rev gas code input create state =
        .inr (msg, execCode, start) →
          Reportable vm clock rev msg input execCode benchmark start := by
  cases hSubject : subject vm rev gas code input create state with
  | inl statusCode =>
      obtain ⟨world, hRun, _⟩ := @run_of_failed _ vm clock rev gas code input create benchmark
        state statusCode hSubject
      exact iff_of_true ⟨_, hRun⟩ fun _ _ _ h => by cases h
  | inr start =>
      obtain ⟨msg, execCode, start⟩ := start
      obtain ⟨_, world, hRun, _, hReadings, hState⟩ := @run_of_subject _ vm clock rev gas code
        input create benchmark state msg execCode start hSubject
      rw [hRun, runCode_ok_iff hOrder hReadings, hState]
      constructor
      · intro h other following begun hSame
        cases hSame
        exact h
      · intro h
        exact h _ _ _ rfl

/-- Without a benchmark the clock makes no difference. -/
theorem run_plain_ok
    (h : ∀ msg execCode start, subject vm rev gas code input create state =
      .inr (msg, execCode, start) →
        FitsInt64 (msg.gas.toInt - (vm rev msg input execCode start).1.gasLeft.toInt)) :
    ∃ outcome, run vm clock rev gas code input create false state = .ok outcome := by
  cases hSubject : subject vm rev gas code input create state with
  | inl statusCode =>
      obtain ⟨world, hRun, _⟩ := @run_of_failed _ vm clock rev gas code input create false
        state statusCode hSubject
      exact ⟨_, hRun⟩
  | inr start =>
      obtain ⟨msg, execCode, start⟩ := start
      obtain ⟨_, world, hRun, _, _, hState⟩ := @run_of_subject _ vm clock rev gas code
        input create false state msg execCode start hSubject
      obtain ⟨gasUsed, hGas, _⟩ := exists_int64 (h msg execCode start hSubject)
      rw [← hState] at hGas
      rw [hRun]
      exact ⟨_, (runCode_eq_ok_iff _).mpr ⟨_, benchIf_false, gasUsed, hGas, rfl⟩⟩

/-- When a command ends, and what it tells: the exit code and the text of its report. Before
the result stand only what the VM writes itself and the lines of the benchmark. -/
theorem run_reports (vm : RunVm State) (rev : Int32) (gas : Int64) (code input : List UInt8)
    (create benchmark : Bool) (state : State) (hOrder : ∀ i, clock i ≤ clock (i + 1)) :
    ((∃ outcome, run vm clock rev gas code input create benchmark state = .ok outcome) ↔
      ∀ msg execCode start, subject vm rev gas code input create state =
        .inr (msg, execCode, start) →
          Reportable vm clock rev msg input execCode benchmark start) ∧
    ∀ exit final, run vm clock rev gas code input create benchmark state = .ok (exit, final) →
      exit = (reportOf vm rev gas code input create state).exitCode ∧
        final.out = header rev gas create ++ creationText vm rev code create state ++
          (reportOf vm rev gas code input create state).textWith
            (textBetween vm clock rev gas code input create benchmark state) :=
  ⟨run_ok_iff hOrder, fun _ _ h => run_ok (fun _ => hOrder) h⟩

/-- A VM that gives no output and all gas back. -/
def emptyVm : RunVm State := fun _ msg _ _ state =>
  ({ gasLeft := msg.gas, output := [], statusCode := .success }, state)

theorem emptyVm_silent : (emptyVm : RunVm State).Silent := fun _ _ _ _ _ => rfl

/-- The clock of the benchmark shows a quarter of a second. -/
theorem run_reports_empty :
    (∃ outcome, run emptyVm coarseClock 1 7 [] [] true true () = .ok outcome) ∧
    ∀ exit final, run emptyVm coarseClock 1 7 [] [] true true () = .ok (exit, final) →
      exit = 0 ∧ final.out = header 1 7 true ++ (Report.executed .success 0 (some [])).textWith
        (lit "Time:     0 ns (avg of 4 iterations)\n") := by
  have hOrder : ∀ i, coarseClock i ≤ coarseClock (i + 1) := by
    intro i
    cases i with
    | zero => decide
    | succ i => exact Int64.le_refl _
  obtain ⟨hEnds, hTells⟩ := run_reports emptyVm 1 7 [] [] true true () hOrder
  refine ⟨hEnds.mpr ?_, fun exit final h => hTells exit final h⟩
  rintro _ _ _ ⟨⟩
  exact ⟨⟨by decide, by decide⟩, fun _ => ⟨by decide, by decide, by decide, Or.inl rfl⟩⟩

end Command

section Texts

variable {Other : Type} {vm : RunVm State} {other : RunVm Other} {clock watch : Clock}
  {rev revision : Int32} {gas limit : Int64} {code input bytecode calldata : List UInt8}
  {create deploying : Bool} {state : State} {start : Other}

/-- When two commands without benchmark print the same text, whatever VMs they ran that do
not write to it: the first lines agree, and the reports are alike. Then a status in the
enumeration is the same, and with it the exit code and the report. -/
theorem run_text_determines (hSilent : vm.Silent) (hQuiet : other.Silent) {exit left : Int}
    {world : BenchWorld (MockedHost × State)} {final : BenchWorld (MockedHost × Other)}
    (h : run vm clock rev gas code input create false state = .ok (exit, world))
    (hOther : run other watch revision limit bytecode calldata deploying false start =
      .ok (left, final)) :
    (world.out = final.out ↔ create = deploying ∧ gas = limit ∧
      qrvmcRevisionToString rev = qrvmcRevisionToString revision ∧
      (reportOf vm rev gas code input create state).Alike
        (reportOf other revision limit bytecode calldata deploying start)) ∧
    (world.out = final.out →
      (reportOf vm rev gas code input create state).statusCode.named.isSome →
        exit = left ∧ reportOf vm rev gas code input create state =
          reportOf other revision limit bytecode calldata deploying start) := by
  obtain ⟨hExit, hOut⟩ := run_plain_out hSilent h
  obtain ⟨hLeft, hFinal⟩ := run_plain_out hQuiet hOther
  have hAlike (hText : world.out = final.out) : create = deploying ∧ gas = limit ∧
      qrvmcRevisionToString rev = qrvmcRevisionToString revision ∧
      (reportOf vm rev gas code input create state).Alike
        (reportOf other revision limit bytecode calldata deploying start) := by
    rw [hOut, hFinal] at hText
    obtain ⟨hCreate, hGas, hRevision, hBody⟩ := header_inj hText
    exact ⟨hCreate, hGas, hRevision, Report.alike_of_text hBody⟩
  refine ⟨⟨hAlike, ?_⟩, ?_⟩
  · rintro ⟨hCreate, hGas, hRevision, hReports⟩
    rw [hOut, hFinal, hReports.text, header, header, hCreate, hGas, hRevision]
  · intro hText hNamed
    have hReport := (hAlike hText).2.2.2.eq hNamed
    exact ⟨by rw [hExit, hLeft, hReport], hReport⟩

/-- Commands with different codes, which the VM does not look at. -/
theorem run_text_determines_empty :
    reportOf emptyVm 1 7 [] [] true () = reportOf emptyVm 1 7 [0xfe] [0xfe] true () := by
  have hRuns : ∃ exit world left final,
      run emptyVm coarseClock 1 7 [] [] true false () = .ok (exit, world) ∧
      run emptyVm coarseClock 1 7 [0xfe] [0xfe] true false () = .ok (left, final) ∧
      world.out = final.out :=
    ⟨_, _, _, _, rfl, rfl, rfl⟩
  obtain ⟨exit, world, left, final, hRun, hOther, hText⟩ := hRuns
  exact ((run_text_determines emptyVm_silent emptyVm_silent hRun hOther).2 hText rfl).2

end Texts

end Qrvmc.Tooling
