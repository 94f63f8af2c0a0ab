import Qrvmc.ExampleVm.ResultContract
import Qrvmc.ExampleVm.Refinement

/-! Whole runs compute what the code means. The loop goes through the code by a program
counter, and the meaning goes through the list of its instructions. At every step the
counter is where the rest of the list begins. -/
namespace Qrvmc.ExampleVm
open Bytes

variable {State : Type} {env : Environment State}

/-- The instructions from an opcode on. -/
theorem decode_drop {code : List UInt8} {pc : Nat} {opcode : UInt8}
    (hOpcode : code[pc]? = some opcode) :
    decode (code.drop pc) = instruction opcode (code.drop (pc + 1)) ::
      decode (code.drop (pc + pushSize opcode + 1)) := by
  obtain ⟨hPc, rfl⟩ := List.getElem?_eq_some_iff.mp hOpcode
  have hNext : pc + 1 + pushSize code[pc] = pc + pushSize code[pc] + 1 := by omega
  rw [List.drop_eq_getElem_cons hPc, decode_cons, List.drop_drop, hNext]

theorem decode_drop_end {code : List UInt8} {pc : Nat} (hPc : code.length ≤ pc) :
    decode (code.drop pc) = [] := by
  rw [List.drop_eq_nil_of_le hPc, decode_nil]

theorem ofNat_toNat_toInt {gas : Int64} (h : 0 ≤ gas.toInt) : Int64.ofNat gas.toInt.toNat = gas := by
  rw [← Int64.ofInt_eq_ofNat, Int.toNat_of_nonneg h, Int64.ofInt_toInt]

theorem Shows.charged {machine : Machine State} {view : View State}
    (h : Shows machine.gasLeft machine view) :
    Shows (machine.gasLeft - 1) machine.charged view :=
  ⟨rfl, h.height, h.stack, h.size, h.memory, h.world⟩

theorem Shows.advanced {gasLeft : Int64} {machine : Machine State} {view : View State}
    (h : Shows gasLeft machine view) : Shows gasLeft machine.advanced view :=
  ⟨h.gas, h.height, h.stack, h.size, h.memory, h.world⟩

/-- What is seen of a run: its result and the world that it leaves. -/
def observed (outcome : ExecutionResult × Machine State) : ExecutionResult × HostWorld State :=
  (outcome.1, outcome.2.world)

theorem charged_toNat {gas : Int64} (h : 0 < gas) :
    gas.toInt.toNat = (gas - 1).toInt.toNat + 1 ∧ 0 ≤ (gas - 1).toInt := by
  have hCharged := charged_toInt (ne_minValue_of_pos h)
  have hPositive : 0 < gas.toInt := Int64.lt_iff_toInt_lt.mp h
  omega

/-- A run from a machine computes the meaning of the rest of the code. -/
theorem Runs.meaning (hLength : env.code.length < 2 ^ 64) (hSupplied : Supplied env)
    {machine : Machine State} {machines : List (Machine State)}
    {outcome : Except Fault (ExecutionResult × Machine State)} {view : View State}
    (h : Runs env machine machines outcome) (hGas : 0 ≤ machine.gasLeft.toInt)
    (hShows : Shows machine.gasLeft machine view) :
    outcome.map observed =
      Meaning.run env (decode (env.code.drop machine.pc)) machine.gasLeft.toInt.toNat view := by
  induction h generalizing view with
  | finished hPc =>
      rw [decode_drop_end hPc, Meaning.run, ofNat_toNat_toInt hGas, hShows.world]
      simp [Except.map, observed, Ending.report]
  | overflow _ hMin =>
      rw [hMin] at hGas
      exact absurd hGas (by decide)
  | @refused machine hPc hNone hMin =>
      have hZero : machine.gasLeft.toInt.toNat = 0 := by
        have hLess : machine.gasLeft.toInt ≤ 0 := Int.not_lt.mp fun h => hNone (Int64.lt_iff_toInt_lt.mpr h)
        omega
      rw [decode_drop (List.getElem?_eq_getElem hPc), hZero, Meaning.run, hShows.world]
      simp [Except.map, observed, Ending.report, Machine.charged]
  | @failed machine opcode fault hOpcode hPositive hDispatch =>
      have hSame := simulates_dispatch hSupplied opcode machine.pc _ _ ⟨hShows.charged, rfl⟩
      rw [decode_drop hOpcode, (charged_toNat hPositive).1, Meaning.run]
      rw [hDispatch] at hSame
      cases hPerform : Meaning.perform env (instruction opcode (env.code.drop (machine.pc + 1)))
          view with
      | error other =>
          rw [hPerform] at hSame
          exact congrArg Except.error hSame
      | ok answer =>
          rw [hPerform] at hSame
          exact hSame.elim
  | @ended machine next opcode result hOpcode hPositive hDispatch =>
      have hSame := simulates_dispatch hSupplied opcode machine.pc _ _ ⟨hShows.charged, rfl⟩
      obtain ⟨hTaken, hLeft⟩ := charged_toNat hPositive
      rw [decode_drop hOpcode, hTaken, Meaning.run, ofNat_toNat_toInt hLeft]
      rw [hDispatch] at hSame
      cases hPerform : Meaning.perform env (instruction opcode (env.code.drop (machine.pc + 1)))
          view with
      | error other =>
          rw [hPerform] at hSame
          exact hSame.elim
      | ok answer =>
          rw [hPerform] at hSame
          obtain ⟨ending, final⟩ := answer
          cases ending with
          | none => exact hSame.elim
          | some ending =>
              obtain ⟨hResult, hWorld⟩ := hSame
              simp only [Except.map, observed, hResult, hWorld]
  | @step machine next opcode machines outcome hOpcode hPositive hDispatch rest ih =>
      have hSame := simulates_dispatch hSupplied opcode machine.pc _ _ ⟨hShows.charged, rfl⟩
      obtain ⟨hTaken, hLeft⟩ := charged_toNat hPositive
      obtain ⟨_, hPc, _⟩ := step_control hLength hOpcode hPositive hDispatch
      rw [decode_drop hOpcode, hTaken, Meaning.run]
      rw [hDispatch] at hSame
      cases hPerform : Meaning.perform env (instruction opcode (env.code.drop (machine.pc + 1)))
          view with
      | error other =>
          rw [hPerform] at hSame
          exact hSame.elim
      | ok answer =>
          rw [hPerform] at hSame
          obtain ⟨ending, final⟩ := answer
          cases ending with
          | some ending => exact hSame.elim
          | none =>
              have hNext : Shows (machine.gasLeft - 1) next final := hSame
              have hGasNext : next.advanced.gasLeft = machine.gasLeft - 1 := hNext.gas
              have hRest := ih (hGasNext ▸ hLeft) (hGasNext ▸ hNext.advanced)
              rw [hPc, hGasNext] at hRest
              exact hRest

/-- The interpreter computes the meaning of its code. -/
theorem execute_meaning (hLength : env.code.length < 2 ^ 64) (hGas : 0 ≤ env.msg.gas)
    (hSupplied : Supplied env) (world : HostWorld State) :
    (execute env world).map observed =
      Meaning.run env (decode env.code) env.msg.gas.toInt.toNat { world } := by
  have hShows : Shows env.msg.gas (initial env world) { world } := by
    refine ⟨rfl, Nat.zero_le _, rfl, rfl, ?_, rfl⟩
    intro i hIndex
    exact (Vector.getElem_replicate ..).symm
  exact (runs_execute hLength world).meaning hLength hSupplied (Int64.le_iff_toInt_le.mp hGas) hShows

/-- The code that adds one and two and returns the sum. -/
theorem execute_meaning_sum :
    ∃ result world,
      (execute (testEnvironment 20 [0x60, 0x01, 0x60, 0x02, 0x01, 0x60, 0x00, 0x52, 0x60, 0x20,
        0x60, 0x00, 0xf3] []) testWorld).map observed = .ok (result, world) ∧
      result.gasLeft = 12 ∧ beNat result.output = 3 := by
  rw [execute_meaning (by decide) (by decide) (testEnvironment_supplied ..)]
  exact ⟨_, _, rfl, by decide +kernel, by decide +kernel⟩

end Qrvmc.ExampleVm
