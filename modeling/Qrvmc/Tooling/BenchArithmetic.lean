import Qrvmc.Tooling.Bench

/-! When the arithmetic of the benchmark is defined. The probe has to take some time on
the clock, which two readings of a coarse clock need not show. -/
namespace Qrvmc.Tooling
open Semantics

/-- The values of `int64_t`. -/
def FitsInt64 (value : Int) : Prop := -2 ^ 63 ≤ value ∧ value < 2 ^ 63

theorem int64_eq_ok_iff (value : Int) (result : Int64) :
    int64 value = .ok result ↔ FitsInt64 value ∧ result.toInt = value := by
  unfold int64 FitsInt64
  split
  · rename_i hFits
    have hValue : (Int64.ofInt value).toInt = value := Int64.toInt_ofInt_of_le hFits.1 hFits.2
    rw [Except.ok.injEq, ← Int64.toInt_inj, hValue, eq_comm]
    exact ⟨fun hResult => ⟨hFits, hResult⟩, And.right⟩
  · rename_i hFits
    exact iff_of_false (fun hOk => by cases hOk) fun h => hFits h.1

/-- An expression whose value fits its type is evaluated. -/
theorem exists_int64 {value : Int} (h : FitsInt64 value) :
    ∃ result, int64 value = .ok result ∧ result.toInt = value := by
  have hValue : (Int64.ofInt value).toInt = value := Int64.toInt_ofInt_of_le h.1 h.2
  exact ⟨Int64.ofInt value, (int64_eq_ok_iff _ _).mpr ⟨h, hValue⟩, hValue⟩

theorem exists_divide {a b : Int64} (hLow : 0 ≤ a.toInt) (hPositive : 0 < b.toInt) :
    ∃ result, divide a b = .ok result ∧ result.toInt = a.toInt / b.toInt := by
  have hNonzero : b ≠ 0 := by
    rintro rfl
    exact absurd hPositive (by decide)
  have hQuotient : a.toInt.tdiv b.toInt = a.toInt / b.toInt := Int.tdiv_eq_ediv_of_nonneg hLow
  have hNonneg : 0 ≤ a.toInt / b.toInt := Int.ediv_nonneg hLow (Int.le_of_lt hPositive)
  have hLess : a.toInt / b.toInt ≤ a.toInt := Int.ediv_le_self _ hLow
  have hBound := a.toInt_lt
  obtain ⟨result, hResult, hValue⟩ := @exists_int64 (a.toInt.tdiv b.toInt) (by
    rw [hQuotient]
    exact ⟨by omega, by omega⟩)
  exact ⟨result, by rw [divide, if_neg hNonzero, hResult], hValue.trans hQuotient⟩

theorem divide_zero (a : Int64) : divide a 0 = .error .divisionByZero := if_pos rfl

/-- The narrowing to `int` keeps the number of probes that fit the target time. -/
theorem exists_numIterations {probeTime : Int64} (hPositive : 0 < probeTime.toInt) :
    ∃ iterations, numIterations probeTime = .ok iterations ∧
      iterations.toInt = max (1000000000 / probeTime.toInt) 1 ∧
      1 ≤ iterations.toInt ∧ iterations.toInt ≤ 1000000000 := by
  have hTarget : targetBenchTime.toInt = 1000000000 := by decide
  obtain ⟨quotient, hQuotient, hValue⟩ := @exists_divide targetBenchTime probeTime
    (by rw [hTarget]; decide) hPositive
  rw [hTarget] at hValue
  have hNonneg : 0 ≤ quotient.toInt := by
    rw [hValue]
    exact Int.ediv_nonneg (by decide) (Int.le_of_lt hPositive)
  have hLess : quotient.toInt ≤ 1000000000 := by
    rw [hValue]
    exact Int.ediv_le_self _ (by decide)
  have hNarrow : quotient.toInt32.toInt = quotient.toInt := by
    rw [Int64.toInt_toInt32]
    exact Int.bmod_eq_of_le (by omega) (by omega)
  have hOne : (1 : Int32).toInt = 1 := by decide
  refine ⟨if quotient.toInt32 < 1 then 1 else quotient.toInt32, ?_, ?_⟩
  · rw [numIterations, hQuotient]
    rfl
  · rw [← hValue]
    split
    · rename_i hZero
      rw [Int32.lt_iff_toInt_lt, hNarrow, hOne] at hZero
      rw [hOne]
      omega
    · rename_i hSome
      rw [Int32.lt_iff_toInt_lt, hNarrow, hOne] at hSome
      rw [hNarrow]
      omega

variable {State : Type} {vm : Executor State} {clock : Clock} {msg : Message} {code : List UInt8}
  {expectedResult : ExecuteResult} {world : BenchWorld State}

/-- The loop executes the VM once for each iteration, and does nothing else. -/
theorem benchLoop_executes (iterations : Int32) :
    (benchLoop vm msg code iterations world).executions =
      world.executions + iterations.toInt.toNat ∧
    (benchLoop vm msg code iterations world).readings = world.readings := by
  have hBody : ∀ (i : Nat) (reached : BenchWorld State),
      (reached.executions = world.executions + i ∧ reached.readings = world.readings) →
      ((reached.execute vm msg code).2.executions = world.executions + (i + 1) ∧
        (reached.execute vm msg code).2.readings = world.readings) := by
    rintro i reached ⟨hExecutions, hReadings⟩
    exact ⟨by rw [BenchWorld.execute, hExecutions, Nat.add_assoc], hReadings⟩
  have hLoop := countLoop_invariant (fun _ world => (world.execute vm msg code).2)
    (fun i reached => reached.executions = world.executions + i ∧
      reached.readings = world.readings)
    iterations.toInt.toNat 0 world (fun i reached _ _ => hBody i reached) ⟨rfl, rfl⟩
  rw [Nat.zero_add] at hLoop
  exact hLoop

/-- The gas used is printed only if less or more of it is left than expected. -/
def GasPrintable (msg : Message) (result expectedResult : ExecuteResult) : Prop :=
  result.gasLeft = expectedResult.gasLeft ∨ FitsInt64 (msg.gas.toInt - result.gasLeft.toInt)

theorem warnGas_ok_iff (result : ExecuteResult) :
    (∃ warned, warnGas msg result expectedResult world = .ok warned) ↔
      GasPrintable msg result expectedResult := by
  unfold warnGas GasPrintable
  by_cases hSame : result.gasLeft = expectedResult.gasLeft
  · simp only [hSame, ne_eq, not_true_eq_false, ↓reduceIte, true_or, iff_true]
    exact ⟨world, rfl⟩
  · simp only [ne_eq, hSame, not_false_eq_true, ↓reduceIte, false_or]
    constructor
    · rintro ⟨warned, hWarned⟩
      cases hGas : subtract msg.gas result.gasLeft with
      | error fault =>
          rw [hGas] at hWarned
          cases hWarned
      | ok gasUsed => exact ((int64_eq_ok_iff _ _).mp hGas).1
    · intro hFits
      obtain ⟨gasUsed, hGas, _⟩ := exists_int64 hFits
      rw [subtract, hGas]
      exact ⟨_, rfl⟩

/-- Warnings only print. -/
theorem warnGas_counts {result : ExecuteResult} {warned : BenchWorld State}
    (h : warnGas msg result expectedResult world = .ok warned) :
    warned.executions = world.executions ∧ warned.readings = world.readings := by
  unfold warnGas at h
  split at h
  · cases hGas : subtract msg.gas result.gasLeft with
    | error fault =>
        rw [hGas] at h
        cases h
    | ok gasUsed =>
        rw [hGas] at h
        cases h
        exact ⟨rfl, rfl⟩
  · cases h
    exact ⟨rfl, rfl⟩

theorem warnOutput_counts (result : ExecuteResult) :
    (warnOutput result expectedResult world).executions = world.executions ∧
      (warnOutput result expectedResult world).readings = world.readings := by
  unfold warnOutput
  split <;> exact ⟨rfl, rfl⟩

/-- The world behind the probe, after two readings of the clock. -/
def probed (vm : Executor State) (msg : Message) (code : List UInt8) (world : BenchWorld State) :
    BenchWorld State :=
  { (world.execute vm msg code).2 with readings := world.readings + 2 }

/-- The operations of the benchmark that may fail, in order. -/
theorem bench_eq_ok_iff (final : BenchWorld State) :
    bench vm clock msg code expectedResult world = .ok final ↔
      ∃ probeTime, subtract (clock (world.readings + 1)) (clock world.readings) = .ok probeTime ∧
      ∃ warned, warnGas msg (vm msg code world.state).1 expectedResult
        (probed vm msg code world) = .ok warned ∧
      ∃ iterations, numIterations probeTime = .ok iterations ∧
      ∃ elapsed, subtract (clock (benchLoop vm msg code iterations
          (warnOutput (vm msg code world.state).1 expectedResult warned)).readings)
        (clock (world.readings + 1)) = .ok elapsed ∧
      ∃ benchTime, divide elapsed iterations.toInt64 = .ok benchTime ∧
      .ok (((benchLoop vm msg code iterations
          (warnOutput (vm msg code world.state).1 expectedResult warned)).now clock).2.print
        (report benchTime iterations)) = (.ok final : Except BenchFault (BenchWorld State)) := by
  simp only [← bind_eq_ok_iff]
  rfl

variable (vm clock msg code expectedResult world)

/-- The benchmark ends with all of its numbers defined: how often it iterates, how often
the VM has been executed, and the average that it reports. -/
def Measures : Prop :=
  ∃ final iterations benchTime,
    bench vm clock msg code expectedResult world = .ok final ∧
    iterations.toInt = max (1000000000 /
      ((clock (world.readings + 1)).toInt - (clock world.readings).toInt)) 1 ∧
    1 ≤ iterations.toInt ∧ iterations.toInt ≤ 1000000000 ∧
    final.executions = world.executions + 1 + iterations.toInt.toNat ∧
    benchTime.toInt = ((clock (world.readings + 2)).toInt -
      (clock (world.readings + 1)).toInt) / iterations.toInt ∧
    0 ≤ benchTime.toInt ∧ report benchTime iterations <:+ final.out

/-- The probe takes time on the clock, no time is too long for its type, and neither is
the difference of gas that a warning prints. -/
structure Measurable : Prop where
  probe : (clock world.readings).toInt < (clock (world.readings + 1)).toInt
  probeFits : (clock (world.readings + 1)).toInt - (clock world.readings).toInt < 2 ^ 63
  loopFits : (clock (world.readings + 2)).toInt - (clock (world.readings + 1)).toInt < 2 ^ 63
  gas : GasPrintable msg (vm msg code world.state).1 expectedResult

variable {vm clock msg code expectedResult world}

theorem loop_counts {iterations : Int32} {warned : BenchWorld State}
    (hWarned : warnGas msg (vm msg code world.state).1 expectedResult
      (probed vm msg code world) = .ok warned) :
    (benchLoop vm msg code iterations
      (warnOutput (vm msg code world.state).1 expectedResult warned)).executions =
        world.executions + 1 + iterations.toInt.toNat ∧
    (benchLoop vm msg code iterations
      (warnOutput (vm msg code world.state).1 expectedResult warned)).readings =
        world.readings + 2 := by
  obtain ⟨hExecutions, hReadings⟩ := warnGas_counts hWarned
  obtain ⟨hOutputExecutions, hOutputReadings⟩ := @warnOutput_counts _ expectedResult warned
    (vm msg code world.state).1
  obtain ⟨hLoop, hLoopReadings⟩ := @benchLoop_executes _ vm msg code
    (warnOutput (vm msg code world.state).1 expectedResult warned) iterations
  rw [hLoop, hLoopReadings, hOutputExecutions, hOutputReadings, hExecutions, hReadings]
  exact ⟨rfl, rfl⟩

/-- A run that ends has had time between the first two readings. -/
theorem measurable_of_ok {final : BenchWorld State}
    (hOrder : ∀ i, clock i ≤ clock (i + 1))
    (h : bench vm clock msg code expectedResult world = .ok final) :
    Measurable vm clock msg code expectedResult world := by
  obtain ⟨probeTime, hProbe, warned, hWarned, iterations, hIterations, elapsed, hElapsed, _⟩ :=
    (bench_eq_ok_iff final).mp h
  rw [(loop_counts hWarned).2] at hElapsed
  obtain ⟨hProbeFits, hProbeValue⟩ := (int64_eq_ok_iff _ _).mp hProbe
  have hNonzero : probeTime.toInt ≠ 0 := by
    intro hZero
    obtain rfl : probeTime = 0 := Int64.toInt_inj.mp hZero
    rw [numIterations, divide_zero] at hIterations
    cases hIterations
  have hNext := Int64.le_iff_toInt_le.mp (hOrder world.readings)
  exact {
    probe := by omega
    probeFits := hProbeFits.2
    loopFits := ((int64_eq_ok_iff _ _).mp hElapsed).1.2
    gas := (warnGas_ok_iff _).mp ⟨warned, hWarned⟩ }

/-- With time between them, every operation is defined. -/
theorem Measurable.measures (h : Measurable vm clock msg code expectedResult world)
    (hOrder : ∀ i, clock i ≤ clock (i + 1)) :
    Measures vm clock msg code expectedResult world := by
  have hLater : (clock (world.readings + 1)).toInt ≤ (clock (world.readings + 2)).toInt :=
    Int64.le_iff_toInt_le.mp (hOrder (world.readings + 1))
  obtain ⟨hProbe, hProbeFits, hLoopFits, hGas⟩ := h
  obtain ⟨probeTime, hProbeTime, hProbeValue⟩ := @exists_int64
    ((clock (world.readings + 1)).toInt - (clock world.readings).toInt) ⟨by omega, hProbeFits⟩
  obtain ⟨warned, hWarned⟩ :=
    (@warnGas_ok_iff _ msg expectedResult (probed vm msg code world) _).mpr hGas
  obtain ⟨iterations, hIterations, hValue, hLow, hHigh⟩ :=
    @exists_numIterations probeTime (by omega)
  obtain ⟨elapsed, hElapsed, hElapsedValue⟩ := @exists_int64
    ((clock (world.readings + 2)).toInt - (clock (world.readings + 1)).toInt)
    ⟨by omega, hLoopFits⟩
  have hWiden : iterations.toInt64.toInt = iterations.toInt := Int32.toInt_toInt64 iterations
  obtain ⟨benchTime, hBenchTime, hAverage⟩ := @exists_divide elapsed iterations.toInt64
    (by omega) (by omega)
  obtain ⟨hExecutions, hReadings⟩ := @loop_counts _ vm msg code expectedResult world iterations
    warned hWarned
  rw [hWiden, hElapsedValue] at hAverage
  refine ⟨_, iterations, benchTime, (bench_eq_ok_iff _).mpr ⟨probeTime, hProbeTime, warned, hWarned,
    iterations, hIterations, elapsed, ?_, benchTime, hBenchTime, rfl⟩, ?_, hLow, hHigh, hExecutions,
    hAverage, ?_, List.suffix_append _ _⟩
  · rw [hReadings]
    exact hElapsed
  · rw [hValue, hProbeValue]
  · rw [hAverage]
    exact Int.ediv_nonneg (by omega) (by omega)

/-- The benchmark measures exactly when the probe takes time on the clock and the numbers
fit their types. Nothing else depends on the VM. -/
theorem bench_measures_iff (vm : Executor State) (clock : Clock) (msg : Message)
    (code : List UInt8) (expectedResult : ExecuteResult) (world : BenchWorld State)
    (hOrder : ∀ i, clock i ≤ clock (i + 1)) :
    Measures vm clock msg code expectedResult world ↔
      Measurable vm clock msg code expectedResult world := by
  constructor
  · rintro ⟨final, _, _, hBench, _⟩
    exact measurable_of_ok hOrder hBench
  · intro hMeasurable
    exact hMeasurable.measures hOrder

/-- A clock that goes on by a quarter of a second during the probe and then stands. -/
def coarseClock : Clock
  | 0 => 0
  | _ + 1 => 250000000

/-- A result without gas and output. -/
def idleResult : ExecuteResult where
  gasLeft := 0
  output := []

/-- A VM that does nothing. -/
def idle : Executor Unit := fun _ _ state => (idleResult, state)

theorem bench_measures_coarse :
    Measures idle coarseClock (runMessage 100000) [] idleResult { state := () } := by
  apply (bench_measures_iff idle coarseClock (runMessage 100000) [] idleResult { state := () } ?_).mpr
  · exact ⟨by decide, by decide, by decide, Or.inl rfl⟩
  · intro i
    cases i with
    | zero => decide
    | succ i => exact Int64.le_refl _

/-- The same VM on a clock that shows one time before and after the probe. -/
theorem bench_divides_by_zero :
    bench idle (fun _ => 0) (runMessage 100000) [] idleResult { state := () } =
      .error .divisionByZero ∧
    (∀ i : Nat, (fun _ => 0 : Clock) i ≤ (fun _ => 0 : Clock) (i + 1)) ∧
    ¬Measures idle (fun _ => 0) (runMessage 100000) [] idleResult { state := () } := by
  have hBench : bench idle (fun _ => 0) (runMessage 100000) [] idleResult { state := () } =
      .error .divisionByZero := by rfl
  refine ⟨hBench, fun _ => Int64.le_refl _, ?_⟩
  rintro ⟨final, _, _, hOk, _⟩
  rw [hBench] at hOk
  cases hOk

end Qrvmc.Tooling
