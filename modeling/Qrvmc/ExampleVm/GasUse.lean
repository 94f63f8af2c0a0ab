import Qrvmc.ExampleVm.RunMeaning

/-! What a run takes of its gas. No instruction looks at the gas, so there is one amount
that a code needs with given inputs, whatever it is given. With less the run is out of
gas, and with more it ends as with that amount and returns the rest. -/
namespace Qrvmc.ExampleVm

variable {State : Type}

/-- The environment with another amount of gas in the message. -/
def Environment.withGas (env : Environment State) (gas : Int64) : Environment State :=
  { env with msg := { env.msg with gas } }

namespace Meaning

/-- The run on any amount of gas: how many instructions it performs, and how it ends. -/
def course (env : Environment State) : List Instruction → View State →
    Nat × Except Fault (Ending × HostWorld State)
  | [], view => (0, .ok ({ statusCode := .success }, view.world))
  | instruction :: rest, view =>
      match perform env instruction view with
      | .error fault => (1, .error fault)
      | .ok (some ending, view) => (1, .ok (ending, view.world))
      | .ok (none, view) => ((course env rest view).1 + 1, (course env rest view).2)

/-- The result of a run on what is left of the gas. -/
def settled (env : Environment State) (gasLeft : Nat)
    (outcome : Except Fault (Ending × HostWorld State)) :
    Except Fault (ExecutionResult × HostWorld State) :=
  outcome.map fun ended => (ended.1.report env (Int64.ofNat gasLeft), ended.2)

variable {env : Environment State}

/-- A run with enough gas for its instructions takes one unit for each. -/
theorem run_of_enough {instructions : List Instruction} {gas : Nat} {view : View State}
    (h : (course env instructions view).1 ≤ gas) :
    run env instructions gas view =
      settled env (gas - (course env instructions view).1) (course env instructions view).2 := by
  induction instructions generalizing gas view with
  | nil => rfl
  | cons instruction rest ih =>
      rw [course] at h ⊢
      cases gas with
      | zero =>
          split at h
          · exact absurd h (by simp)
          · exact absurd h (by simp)
          · exact absurd h (by simp)
      | succ gas =>
          rw [run]
          cases hPerform : perform env instruction view with
          | error fault => rfl
          | ok answer =>
              obtain ⟨ending, next⟩ := answer
              cases ending with
              | some ending => simp [settled, Except.map]
              | none =>
                  rw [hPerform] at h
                  have hEnough : (course env rest next).1 ≤ gas := Nat.le_of_succ_le_succ h
                  simp only [ih hEnough, Nat.add_sub_add_right]

/-- A run with less gas than that stops before an instruction. -/
theorem run_of_less {instructions : List Instruction} {gas : Nat} {view : View State}
    (h : gas < (course env instructions view).1) :
    ∃ world, run env instructions gas view = .ok (makeResult .outOfGas 0 0, world) := by
  induction instructions generalizing gas view with
  | nil => exact absurd h (Nat.not_lt_zero gas)
  | cons instruction rest ih =>
      cases gas with
      | zero => exact ⟨view.world, by simp [run, Ending.report]⟩
      | succ gas =>
          rw [course] at h
          rw [run]
          cases hPerform : perform env instruction view with
          | error fault =>
              rw [hPerform] at h
              exact absurd h (by simp)
          | ok answer =>
              rw [hPerform] at h
              obtain ⟨ending, next⟩ := answer
              cases ending with
              | some ending => exact absurd h (by simp)
              | none => exact ih (Nat.lt_of_succ_lt_succ h)

theorem course_length_le (instructions : List Instruction) (view : View State) :
    (course env instructions view).1 ≤ instructions.length := by
  induction instructions generalizing view with
  | nil => exact Nat.le_refl 0
  | cons instruction rest ih =>
      rw [course, List.length_cons]
      split
      · exact Nat.succ_le_succ (Nat.zero_le _)
      · exact Nat.succ_le_succ (Nat.zero_le _)
      · exact Nat.succ_le_succ (ih _)

theorem perform_withGas (gas : Int64) (instruction : Instruction) :
    perform (env.withGas gas) instruction = perform env instruction := by
  cases instruction with
  | _ => rfl

theorem course_withGas (gas : Int64) (instructions : List Instruction) (view : View State) :
    course (env.withGas gas) instructions view = course env instructions view := by
  induction instructions generalizing view with
  | nil => rfl
  | cons instruction rest ih =>
      rw [course, course, perform_withGas]
      simp only [ih]

end Meaning

theorem length_decodeFrom_le (skip : Nat) (code : List UInt8) :
    (decodeFrom skip code).length ≤ code.length := by
  induction code generalizing skip with
  | nil => cases skip <;> exact Nat.le_refl 0
  | cons opcode rest ih =>
      cases skip with
      | zero => exact Nat.succ_le_succ (ih _)
      | succ skip => exact (ih skip).trans (Nat.le_succ _)

/-- There is an amount of gas that a code needs in a world. With it and with any more,
the run ends in one way and returns all gas but that amount where it returns any. With
any less it is out of gas. -/
theorem gas_threshold {env : Environment State} (hLength : env.code.length < 2 ^ 64)
    (hSupplied : Supplied env) (world : HostWorld State) :
    ∃ (needed : Nat) (outcome : Except Fault (Ending × HostWorld State)),
      needed ≤ env.code.length ∧ ∀ gas : Int64, 0 ≤ gas →
        (needed ≤ gas.toInt.toNat →
          (execute (env.withGas gas) world).map observed =
            outcome.map fun ended =>
              (ended.1.report env (Int64.ofNat (gas.toInt.toNat - needed)), ended.2)) ∧
        (gas.toInt.toNat < needed → ∃ final,
          (execute (env.withGas gas) world).map observed =
            .ok (makeResult .outOfGas 0 0, final)) := by
  refine ⟨(Meaning.course env (decode env.code) { world }).1,
    (Meaning.course env (decode env.code) { world }).2,
    (Meaning.course_length_le _ _).trans (length_decodeFrom_le 0 env.code), ?_⟩
  intro gas hGas
  have hMeaning : (execute (env.withGas gas) world).map observed =
      Meaning.run (env.withGas gas) (decode env.code) gas.toInt.toNat { world } :=
    @execute_meaning _ (env.withGas gas) hLength hGas ⟨hSupplied.input, hSupplied.output⟩ world
  rw [hMeaning]
  have hCourse : Meaning.course (env.withGas gas) (decode env.code) { world } =
      Meaning.course env (decode env.code) { world } :=
    Meaning.course_withGas gas _ _
  constructor
  · intro hEnough
    rw [← hCourse] at hEnough ⊢
    exact Meaning.run_of_enough hEnough
  · intro hLess
    rw [← hCourse] at hLess
    exact Meaning.run_of_less hLess

/-- The threshold of a push and a stop. -/
theorem gas_threshold_stop :
    ∃ (needed : Nat) (outcome : Except Fault (Ending × HostWorld MockedHost)),
      needed ≤ 3 ∧
      (needed ≤ 5 → (execute (testEnvironment 5 [0x60, 0x07, 0x00] []) testWorld).map observed =
        outcome.map fun ended => (ended.1.report (testEnvironment 0 [0x60, 0x07, 0x00] [])
          (Int64.ofNat (5 - needed)), ended.2)) := by
  have hLength : (testEnvironment 0 [0x60, 0x07, 0x00] []).code.length < 2 ^ 64 := by decide
  obtain ⟨needed, outcome, hNeeded, hRuns⟩ :=
    gas_threshold hLength (testEnvironment_supplied ..) testWorld
  exact ⟨needed, outcome, hNeeded, (hRuns 5 (by decide)).1⟩

end Qrvmc.ExampleVm
