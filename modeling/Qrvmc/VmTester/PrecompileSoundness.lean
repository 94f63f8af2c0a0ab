import Mathlib.Data.List.Nodup
import Qrvmc.Bytes.Endian
import Qrvmc.Types.Integers
import Qrvmc.VmTester.PrecompileTest

/-! What a VM has shown once it passes the test of the precompiled contracts. The loop
stops before the last reserved address, so nothing is shown of that one. -/
namespace Qrvmc.VmTester
open Bytes Semantics

deriving instance DecidableEq for Message

/-- The constraints on the result of a precompiled contract. -/
structure Acceptable (result : RawResult) : Prop where
  statusCode : result.statusCode ∈ precompileCodes
  gasLeft : result.statusCode ≠ .success → result.statusCode ≠ .revert → result.gasLeft = 0
  outputSize : result.outputData = none → result.outputSize = 0

theorem precompileAddress_toNat {i : Nat} (h : i ≤ 0xffff) : (precompileAddress i).toNat = i := by
  have hBytes : (precompileAddress i).bytes.toList = List.replicate 18 (0 : UInt8) ++
      [UInt8.ofNat (i >>> 8), UInt8.ofNat (i &&& 0xff)] := rfl
  rw [Address.toNat, hBytes, beNat_zeros]
  simp only [beNat_cons, beNat_nil, UInt8.toNat_ofNat', Nat.shiftRight_eq_div_pow]
  have hLow : i &&& 0xff = i % 256 := Nat.and_two_pow_sub_one_eq_mod i 8
  rw [hLow]
  simp only [List.length_cons, List.length_nil]
  omega

/-- The reserved addresses are those that the index can compose. -/
theorem precompileAddress_eq {addr : Address} (h : addr.toNat ≤ 0xffff) :
    precompileAddress addr.toNat = addr :=
  Address.toNat_inj.mp (precompileAddress_toNat h)

@[simp] theorem passes_nil : passes [] := fun _ h => nomatch h

@[simp] theorem passes_append (first second : List TestEvent) :
    passes (first ++ second) ↔ passes first ∧ passes second := by
  simp only [passes, List.mem_append, not_or, forall_and]

@[simp] theorem passes_expect (expectation : Expectation) (condition : Bool) :
    passes (expect expectation condition) ↔ condition = true := by
  cases condition with
  | false => exact iff_of_false (fun h => h expectation List.mem_cons_self) Bool.false_ne_true
  | true => exact iff_of_true passes_nil rfl

@[simp] theorem passes_execute (msg : Message) (rest : List TestEvent) :
    passes (.execute msg :: rest) ↔ passes rest := by
  simp [passes]

theorem passes_checkGasLeft (result : RawResult) : passes (checkGasLeft result) ↔
    (result.statusCode ≠ .success → result.statusCode ≠ .revert → result.gasLeft = 0) := by
  unfold checkGasLeft
  split
  · rename_i hFailed
    simp [hFailed]
  · rename_i hReturned
    exact iff_of_true passes_nil fun hSuccess hRevert => absurd ⟨hSuccess, hRevert⟩ hReturned

theorem passes_checkOutput (result : RawResult) : passes (checkOutput result) ↔
    (result.outputData = none → result.outputSize = 0) := by
  unfold checkOutput
  cases result.outputData with
  | none => simp
  | some ptr =>
      have hReads : passes
          (if result.outputSize ≠ 0 then [TestEvent.readBuffer ptr result.outputSize] else []) := by
        split <;> simp [passes]
      exact iff_of_true hReads fun hNull => by cases hNull

theorem passes_releaseResult (result : RawResult) : passes (releaseResult result) := by
  unfold releaseResult
  cases result.release <;> simp [passes]

/-- The checks fail exactly on results that break a constraint. -/
theorem passes_checkResult (result : RawResult) :
    passes (checkResult result) ↔ Acceptable result := by
  simp only [checkResult, passes_append, passes_expect, passes_checkGasLeft, passes_checkOutput,
    passes_releaseResult, decide_eq_true_eq, and_true]
  constructor
  · rintro ⟨⟨hStatus, hGas⟩, hOutput⟩
    exact ⟨hStatus, hGas, hOutput⟩
  · rintro ⟨hStatus, hGas, hOutput⟩
    exact ⟨⟨hStatus, hGas⟩, hOutput⟩

/-- The answer of a VM to the empty call of an address. -/
def TestedVm.answer (vm : TestedVm) (addr : Address) : RawResult := vm.execute (emptyCall addr)

/-- What the loop does for the first indices. -/
theorem precompileLoop_eq (vm : TestedVm) (count : Nat) :
    countLoop (precompileIteration vm) count 0 [] = (List.range count).flatMap fun i =>
      .execute (emptyCall (precompileAddress i)) ::
        checkResult (vm.answer (precompileAddress i)) := by
  have hStep (i : Nat) (log : List TestEvent) : id (precompileIteration vm i log) = id log ++
      (.execute (emptyCall (precompileAddress i)) ::
        checkResult (vm.answer (precompileAddress i))) := rfl
  rw [List.range_eq_range']
  exact countLoop_log hStep count 0 []

theorem passes_flatMap {Index : Type} (indices : List Index) (events : Index → List TestEvent) :
    passes (indices.flatMap events) ↔ ∀ i ∈ indices, passes (events i) := by
  simp only [passes, List.mem_flatMap, not_exists, not_and]
  exact ⟨fun h i hi expectation => h expectation i hi, fun h expectation i hi => h i hi expectation⟩

theorem executed_append (first second : List TestEvent) :
    executed (first ++ second) = executed first ++ executed second := List.filterMap_append ..

theorem executed_checkResult (result : RawResult) : executed (checkResult result) = [] := by
  have hExpect (expectation : Expectation) (condition : Bool) :
      executed (expect expectation condition) = [] := by
    cases condition <;> rfl
  have hGasLeft : executed (checkGasLeft result) = [] := by
    unfold checkGasLeft
    split
    · exact hExpect ..
    · rfl
  have hOutput : executed (checkOutput result) = [] := by
    unfold checkOutput
    split
    · exact hExpect ..
    · split <;> rfl
  have hRelease : executed (releaseResult result) = [] := by
    unfold releaseResult
    split <;> rfl
  simp only [checkResult, executed_append, hExpect, hGasLeft, hOutput, hRelease, List.append_nil]

/-- The messages are the empty calls of the addresses in turn. -/
theorem executed_precompileLoop (vm : TestedVm) (count : Nat) :
    executed (countLoop (precompileIteration vm) count 0 []) =
      (List.range count).map fun i => emptyCall (precompileAddress i) := by
  have hBody (i : Nat) : executed (.execute (emptyCall (precompileAddress i)) ::
      checkResult (vm.answer (precompileAddress i))) = [emptyCall (precompileAddress i)] := by
    rw [← List.singleton_append, executed_append, executed_checkResult]
    rfl
  rw [precompileLoop_eq, executed, List.filterMap_flatMap]
  change (List.range count).flatMap (fun i => executed _) = _
  simp only [hBody, List.map_eq_flatMap]

/-- How often the test has called an address. -/
def executions (log : List TestEvent) (addr : Address) : Nat :=
  (executed log).count (emptyCall addr)

theorem emptyCall_inj {first second : Address} : emptyCall first = emptyCall second ↔
    first = second := ⟨fun h => congrArg Message.codeAddress h, congrArg emptyCall⟩

variable {vm : TestedVm} (hCapability : vm.hasCapability capabilityPrecompiles = true)
include hCapability

theorem precompileTest_eq :
    precompileTest vm = countLoop (precompileIteration vm) 0xffff 0 [] := by
  rw [precompileTest, hCapability, Bool.not_true, if_neg Bool.false_ne_true]

/-- Passing the test means that all addresses but the last are answered well. -/
theorem passes_precompileTest :
    passes (precompileTest vm) ↔ ∀ addr, addr.toNat < 0xffff → Acceptable (vm.answer addr) := by
  rw [precompileTest_eq hCapability, precompileLoop_eq, passes_flatMap]
  simp only [passes_execute, passes_checkResult, List.mem_range]
  constructor
  · intro h addr hAddr
    rw [← precompileAddress_eq (Nat.le_of_lt hAddr)]
    exact h addr.toNat hAddr
  · intro h i hi
    apply h
    rwa [precompileAddress_toNat (Nat.le_of_lt hi)]

/-- The test calls each reserved address once, but not the last. -/
theorem executions_precompileTest {addr : Address} (hReserved : addr.toNat ≤ 0xffff) :
    executions (precompileTest vm) addr = if addr.toNat < 0xffff then 1 else 0 := by
  have hInjective : ∀ i ∈ List.range 0xffff, ∀ j ∈ List.range 0xffff,
      emptyCall (precompileAddress i) = emptyCall (precompileAddress j) → i = j := by
    intro i hi j hj hEqual
    have hNumber := congrArg Address.toNat (emptyCall_inj.mp hEqual)
    rwa [precompileAddress_toNat (Nat.le_of_lt (List.mem_range.mp hi)),
      precompileAddress_toNat (Nat.le_of_lt (List.mem_range.mp hj))] at hNumber
  have hMem : emptyCall addr ∈ (List.range 0xffff).map (fun i => emptyCall (precompileAddress i)) ↔
      addr.toNat < 0xffff := by
    rw [List.mem_map]
    constructor
    · rintro ⟨i, hi, hEqual⟩
      rw [← emptyCall_inj.mp hEqual, precompileAddress_toNat (Nat.le_of_lt (List.mem_range.mp hi))]
      exact List.mem_range.mp hi
    · intro hLess
      exact ⟨addr.toNat, List.mem_range.mpr hLess, by rw [precompileAddress_eq hReserved]⟩
  rw [executions, precompileTest_eq hCapability, executed_precompileLoop]
  split
  · exact List.count_eq_one_of_mem (List.Nodup.map_on hInjective List.nodup_range) (hMem.mpr ‹_›)
  · exact List.count_eq_zero_of_not_mem (mt hMem.mp ‹_›)

omit hCapability

/-- What passing the test should mean for the whole reserved range. -/
def Sound (vm : TestedVm) : Prop :=
  passes (precompileTest vm) → ∀ addr, addr.toNat ≤ 0xffff →
    Acceptable (vm.answer addr) ∧ executions (precompileTest vm) addr = 1

/-- The end of the reserved range. -/
def lastAddress : Address := precompileAddress 0xffff

theorem lastAddress_toNat : lastAddress.toNat = 0xffff := precompileAddress_toNat (Nat.le_refl _)

theorem reserved_cases {addr : Address} (h : addr.toNat ≤ 0xffff) :
    addr.toNat < 0xffff ∨ addr = lastAddress := by
  rcases Nat.lt_or_eq_of_le h with hLess | hLast
  · exact Or.inl hLess
  · exact Or.inr (Address.toNat_inj.mp (hLast.trans lastAddress_toNat.symm))

/-- No VM that passes has been called at the last address, so the test shows what it
should of no VM but those that fail it. The answers are right if the one to the last
address happens to be. -/
theorem precompileTest_sound_iff (vm : TestedVm)
    (hCapability : vm.hasCapability capabilityPrecompiles = true) :
    (Sound vm ↔ ∃ addr, addr.toNat < 0xffff ∧ ¬Acceptable (vm.answer addr)) ∧
    ((passes (precompileTest vm) →
        ∀ addr, addr.toNat ≤ 0xffff → Acceptable (vm.answer addr)) ↔
      (∃ addr, addr.toNat < 0xffff ∧ ¬Acceptable (vm.answer addr)) ∨
        Acceptable (vm.answer lastAddress)) ∧
    ∀ addr, addr.toNat ≤ 0xffff →
      executions (precompileTest vm) addr = if addr.toNat < 0xffff then 1 else 0 := by
  have hLast : executions (precompileTest vm) lastAddress ≠ 1 := by
    rw [executions_precompileTest hCapability (Nat.le_of_eq lastAddress_toNat), if_neg (by
      rw [lastAddress_toNat]
      decide)]
    decide
  have hFails : ¬passes (precompileTest vm) ↔
      ∃ addr, addr.toNat < 0xffff ∧ ¬Acceptable (vm.answer addr) := by
    rw [passes_precompileTest hCapability]
    simp only [Classical.not_forall, exists_prop]
  refine ⟨?_, ?_, fun addr hReserved => executions_precompileTest hCapability hReserved⟩
  · rw [← hFails]
    constructor
    · intro hSound hPasses
      exact hLast (hSound hPasses lastAddress (Nat.le_of_eq lastAddress_toNat)).2
    · intro hFailed hPasses
      exact absurd hPasses hFailed
  · rw [← hFails]
    constructor
    · intro hShown
      by_cases hPasses : passes (precompileTest vm)
      · exact Or.inr (hShown hPasses lastAddress (Nat.le_of_eq lastAddress_toNat))
      · exact Or.inl hPasses
    · rintro (hFailed | hAnswer) hPasses addr hReserved
      · exact absurd hPasses hFailed
      · rcases reserved_cases hReserved with hLess | rfl
        · exact (passes_precompileTest hCapability).mp hPasses addr hLess
        · exact hAnswer

/-- A VM that rejects all calls, except that it breaks at the last address. -/
def brokenAtLast : TestedVm where
  capabilities := capabilityPrecompiles
  execute msg :=
    if msg.codeAddress = lastAddress then { statusCode := .internalError, gasLeft := 1 }
    else { statusCode := .rejected }

theorem precompileTest_sound_iff_brokenAtLast : Sound brokenAtLast ↔
    ∃ addr, addr.toNat < 0xffff ∧ ¬Acceptable (brokenAtLast.answer addr) :=
  (precompileTest_sound_iff brokenAtLast (by decide)).1

theorem brokenAtLast_answer (addr : Address) : brokenAtLast.answer addr =
    if addr = lastAddress then { statusCode := .internalError, gasLeft := 1 }
    else { statusCode := .rejected } := rfl

/-- The broken VM passes. -/
theorem brokenAtLast_not_sound : passes (precompileTest brokenAtLast) ∧ ¬Sound brokenAtLast := by
  have hCapability : brokenAtLast.hasCapability capabilityPrecompiles = true := by decide
  have hPasses : passes (precompileTest brokenAtLast) := by
    rw [passes_precompileTest hCapability]
    intro addr hLess
    have hOther : addr ≠ lastAddress := by
      rintro rfl
      rw [lastAddress_toNat] at hLess
      exact absurd hLess (by decide)
    rw [brokenAtLast_answer, if_neg hOther]
    exact ⟨by decide, fun _ _ => rfl, fun _ => rfl⟩
  refine ⟨hPasses, fun hSound => ?_⟩
  have hStatus := (hSound hPasses lastAddress (Nat.le_of_eq lastAddress_toNat)).1.statusCode
  rw [brokenAtLast_answer, if_pos rfl] at hStatus
  exact absurd hStatus (by decide)

end Qrvmc.VmTester
