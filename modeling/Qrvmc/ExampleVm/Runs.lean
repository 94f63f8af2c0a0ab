import Qrvmc.ExampleVm.Dispatch
import Qrvmc.ExampleVm.StackDiscipline

/-! Runs of the interpreter, instruction by instruction. A run performs instructions
until one of them gives a result or fails, the gas is used up, or the code ends. The
program counter grows with every instruction, so every run comes to an end. -/
namespace Qrvmc.ExampleVm
open Semantics

variable {State : Type} {env : Environment State}

/-- The machine with the gas of one instruction taken. -/
def Machine.charged (machine : Machine State) : Machine State :=
  { machine with gasLeft := machine.gasLeft - 1 }

/-- The machine with the program counter moved past the opcode. -/
def Machine.advanced (machine : Machine State) : Machine State :=
  { machine with pc := sizeT (machine.pc + 1) }

/-- The machines at which the loop performs an instruction, in order. -/
def performed (env : Environment State) : Nat → Machine State → List (Machine State)
  | 0, _ => []
  | fuel + 1, machine =>
      if machine.pc < env.code.length ∧ 0 < machine.gasLeft then
        match iteration env machine with
        | .ok (none, next) => machine :: performed env fuel next
        | _ => [machine]
      else []

/-- The machines at which `execute` performs an instruction. -/
def instructions (env : Environment State) (world : HostWorld State) : List (Machine State) :=
  performed env (env.code.length + 1) (initial env world)

/-- A run from a machine, with the machines at which it performs instructions. -/
inductive Runs (env : Environment State) :
    Machine State → List (Machine State) → Except Fault (ExecutionResult × Machine State) →
      Prop where
  | finished {machine : Machine State} (hPc : env.code.length ≤ machine.pc) :
      Runs env machine [] (.ok (makeResult .success machine.gasLeft 0, machine))
  | overflow {machine : Machine State} (hPc : machine.pc < env.code.length)
      (hGas : machine.gasLeft = Int64.minValue) : Runs env machine [] (.error .signedOverflow)
  | refused {machine : Machine State} (hPc : machine.pc < env.code.length)
      (hGas : ¬0 < machine.gasLeft) (hMin : machine.gasLeft ≠ Int64.minValue) :
      Runs env machine [] (.ok (makeResult .outOfGas 0 0, machine.charged))
  | failed {machine : Machine State} {opcode : UInt8} {fault : Fault}
      (hOpcode : env.code[machine.pc]? = some opcode) (hGas : 0 < machine.gasLeft)
      (hDispatch : dispatch env opcode machine.charged = .error fault) :
      Runs env machine [machine] (.error fault)
  | ended {machine next : Machine State} {opcode : UInt8} {result : ExecutionResult}
      (hOpcode : env.code[machine.pc]? = some opcode) (hGas : 0 < machine.gasLeft)
      (hDispatch : dispatch env opcode machine.charged = .ok (some result, next)) :
      Runs env machine [machine] (.ok (result, next))
  | step {machine next : Machine State} {opcode : UInt8} {machines : List (Machine State)}
      {outcome : Except Fault (ExecutionResult × Machine State)}
      (hOpcode : env.code[machine.pc]? = some opcode) (hGas : 0 < machine.gasLeft)
      (hDispatch : dispatch env opcode machine.charged = .ok (none, next))
      (rest : Runs env next.advanced machines outcome) :
      Runs env machine (machine :: machines) outcome

/-- One unit is taken without overflow from all but the least amount. -/
theorem charged_toInt {gas : Int64} (h : gas ≠ Int64.minValue) :
    (gas - 1).toInt = gas.toInt - 1 := by
  have hLow := gas.le_toInt
  have hHigh := gas.toInt_lt
  have hOne : (1 : Int64).toInt = 1 := rfl
  have hMin : Int64.minValue.toInt = -2 ^ 63 := rfl
  have hNe : gas.toInt ≠ -2 ^ 63 := fun hEqual => h (Int64.toInt_inj.mp (hEqual.trans hMin.symm))
  rw [Int64.toInt_sub, Int.bmod_eq_of_le]
  all_goals omega

theorem ne_minValue_of_pos {gas : Int64} (h : 0 < gas) : gas ≠ Int64.minValue := by
  rintro rfl
  exact absurd h (by decide)

theorem charged_neg_iff {gas : Int64} (h : gas ≠ Int64.minValue) : gas - 1 < 0 ↔ ¬0 < gas := by
  have hZero : (0 : Int64).toInt = 0 := rfl
  rw [Int64.lt_iff_toInt_lt, Int64.lt_iff_toInt_lt, charged_toInt h]
  omega

theorem iteration_dispatch {machine : Machine State} {opcode : UInt8}
    (hOpcode : env.code[machine.pc]? = some opcode) (hGas : 0 < machine.gasLeft) :
    iteration env machine =
      match dispatch env opcode machine.charged with
      | .error fault => .error fault
      | .ok (some result, next) => .ok (some result, next)
      | .ok (none, next) => .ok (none, next.advanced) := by
  have hMin := ne_minValue_of_pos hGas
  have hEnough : ¬machine.gasLeft - 1 < 0 := fun hLess => (charged_neg_iff hMin).mp hLess hGas
  unfold iteration
  rw [Returns.run_get_bind, if_neg hMin]
  change (if machine.gasLeft - 1 < 0 then _ else _ : Interp State _) machine.charged = _
  rw [if_neg hEnough, hOpcode]
  change (dispatch env opcode machine.charged >>= _) = _
  cases dispatch env opcode machine.charged with
  | error fault => rfl
  | ok outcome =>
      obtain ⟨result, next⟩ := outcome
      cases result <;> rfl

theorem iteration_overflow {machine : Machine State} (hGas : machine.gasLeft = Int64.minValue) :
    iteration env machine = .error .signedOverflow := by
  unfold iteration
  rw [Returns.run_get_bind, if_pos hGas]
  rfl

theorem iteration_refused {machine : Machine State} (hGas : ¬0 < machine.gasLeft)
    (hMin : machine.gasLeft ≠ Int64.minValue) :
    iteration env machine = .ok (some (makeResult .outOfGas 0 0), machine.charged) := by
  have hNegative := (charged_neg_iff hMin).mpr hGas
  unfold iteration
  rw [Returns.run_get_bind, if_neg hMin]
  change (if machine.gasLeft - 1 < 0 then _ else _ : Interp State _) machine.charged = _
  rw [if_pos hNegative]
  rfl

/-- What the gas and the program counter are does not depend on stack, memory and host. -/
theorem stable_control (gasLeft : Int64) (pc : Nat) :
    Stable env fun machine => machine.gasLeft = gasLeft ∧ machine.pc = pc :=
  Stable.of_frame fun _ _ _ _ h => h

theorem pushSize_of_not {opcode : UInt8} (h : ¬IsPush opcode) : pushSize opcode = 0 := if_neg h

/-- What an instruction leaves: the gas, the counter at its last byte, and a result
that follows the contract if there is one. -/
theorem dispatch_ok {machine next : Machine State} {opcode : UInt8}
    {outcome : Option ExecutionResult}
    (hLength : env.code.length < 2 ^ 64) (hPc : machine.pc < env.code.length)
    (h : dispatch env opcode machine = .ok (outcome, next)) :
    next.gasLeft = machine.gasLeft ∧ next.pc = machine.pc + pushSize opcode ∧
      next.pc < env.code.length ∧
      ∀ result, outcome = some result → Contract env machine.gasLeft result := by
  by_cases hPush : IsPush opcode
  · rcases dispatch_push_cases env hPush machine with
      ⟨_, hFault⟩ | ⟨hInside, hFault | ⟨stack, hMove⟩⟩
    · cases hFault.symm.trans h
    · cases hFault.symm.trans h
    · cases hMove.symm.trans h
      have hPcNext : sizeT (machine.pc + pushSize opcode) = machine.pc + pushSize opcode :=
        Nat.mod_eq_of_lt (by omega)
      refine ⟨rfl, hPcNext, hPcNext.trans_lt hInside, ?_⟩
      intro result hResult
      cases hResult
  · have hSize := pushSize_of_not hPush
    by_cases hSstore : opcode = 0x55
    · subst hSstore
      rcases dispatch_sstore_cases env machine with hFault | ⟨stack, hStore⟩
      · cases hFault.symm.trans h
      · cases hStore.symm.trans h
        refine ⟨rfl, hSize ▸ rfl, hPc, ?_⟩
        intro result hResult
        cases hResult
    · have hPerforms := performs_dispatch (@stable_control _ env machine.gasLeft machine.pc)
        tolerates_unexpected hPush hSstore (fun hFault => absurd rfl hFault.2.1) machine
        ⟨⟨rfl, rfl⟩, rfl⟩
      rw [h] at hPerforms
      obtain ⟨⟨hGas, hSame⟩, hContract⟩ := hPerforms
      rw [hGas] at hContract
      rw [hSize]
      exact ⟨hGas, hSame, by omega, hContract⟩

/-- Where an instruction fails, it fails as the state before it allows. -/
theorem not_bad_of_dispatch_error {bad : Fault → Prop} {machine : Machine State} {opcode : UInt8}
    {fault : Fault} (hTolerates : Tolerates env bad)
    (hCode : bad .codeBounds → IsPush opcode → machine.pc + pushSize opcode < env.code.length)
    (hMemory : bad .memoryBounds → ∀ request ∈ memoryRequests opcode machine.stack,
      ¬Wraps request.1 request.2)
    (h : dispatch env opcode machine = .error fault) : ¬bad fault := by
  have hStable : Stable env fun _ => True := Stable.of_frame fun _ _ _ _ hTrue => hTrue
  have hKeeps := keeps_dispatch hStable hTolerates (fun _ _ hTrue => hTrue)
    (fun _ _ _ _ hTrue => hTrue) hCode hMemory trivial machine rfl
  rw [h] at hKeeps
  exact hKeeps

/-- Apart from immediate bytes that are cut off, the code is not a cause of failure. -/
theorem dispatch_error {machine : Machine State} {opcode : UInt8} {fault : Fault}
    (h : dispatch env opcode machine = .error fault) :
    (fault = .codeBounds ∧ IsPush opcode ∧ env.code.length ≤ machine.pc + pushSize opcode) ∨
      ¬Unexpected env fault := by
  by_cases hCut : fault = .codeBounds ∧ IsPush opcode ∧
      env.code.length ≤ machine.pc + pushSize opcode
  · exact Or.inl hCut
  · right
    have hTolerates : Tolerates env fun other => Unexpected env other ∧ other = fault :=
      { stack := fun hBad => hBad.1.1 rfl
        foreign := fun hBad => hBad.1.2.2 rfl }
    have hNot := not_bad_of_dispatch_error hTolerates
      (fun hBad hPush => Nat.not_le.mp fun hLess => hCut ⟨hBad.2.symm, hPush, hLess⟩)
      (fun hBad => absurd rfl hBad.1.2.1) h
    exact fun hUnexpected => hNot ⟨hUnexpected, rfl⟩

/-- What an instruction that goes on leaves: a unit of gas less, and the counter past it
in the code or at its end. -/
theorem step_control {machine next : Machine State} {opcode : UInt8}
    (hLength : env.code.length < 2 ^ 64) (hOpcode : env.code[machine.pc]? = some opcode)
    (hGas : 0 < machine.gasLeft)
    (hDispatch : dispatch env opcode machine.charged = .ok (none, next)) :
    next.advanced.gasLeft.toInt = machine.gasLeft.toInt - 1 ∧
      next.advanced.pc = machine.pc + pushSize opcode + 1 ∧
      next.advanced.pc ≤ env.code.length := by
  have hPc : machine.charged.pc < env.code.length := (List.getElem?_eq_some_iff.mp hOpcode).1
  obtain ⟨hGasNext, hNext, hInside, _⟩ := dispatch_ok hLength hPc hDispatch
  have hAdvanced : next.advanced.pc = next.pc + 1 := Nat.mod_eq_of_lt (by omega)
  rw [hAdvanced, hNext, ← charged_toInt (ne_minValue_of_pos hGas)]
  refine ⟨congrArg Int64.toInt hGasNext, rfl, ?_⟩
  rw [← hNext]
  omega

/-- The loop makes a run, and the run comes to an end before the fuel does. -/
theorem runs_loop (hLength : env.code.length < 2 ^ 64) {fuel : Nat} {machine : Machine State}
    (hFuel : env.code.length - machine.pc < fuel) :
    Runs env machine (performed env fuel machine) (loop env fuel machine) := by
  induction fuel generalizing machine with
  | zero => omega
  | succ fuel ih =>
      rw [loop_succ, performed]
      by_cases hPc : machine.pc < env.code.length
      · rw [if_pos hPc]
        have hOpcode := List.getElem?_eq_getElem hPc
        by_cases hGas : 0 < machine.gasLeft
        · rw [if_pos ⟨hPc, hGas⟩, iteration_dispatch hOpcode hGas]
          cases hDispatch : dispatch env env.code[machine.pc] machine.charged with
          | error fault => exact Runs.failed hOpcode hGas hDispatch
          | ok outcome =>
              obtain ⟨result, next⟩ := outcome
              cases result with
              | some result => exact Runs.ended hOpcode hGas hDispatch
              | none =>
                  obtain ⟨_, hAdvanced, _⟩ := step_control hLength hOpcode hGas hDispatch
                  exact Runs.step hOpcode hGas hDispatch (ih (by omega))
        · rw [if_neg fun hBoth => hGas hBoth.2]
          by_cases hMin : machine.gasLeft = Int64.minValue
          · rw [iteration_overflow hMin]
            exact Runs.overflow hPc hMin
          · rw [iteration_refused hGas hMin]
            exact Runs.refused hPc hGas hMin
      · rw [if_neg hPc, if_neg fun hBoth => hPc hBoth.1]
        exact Runs.finished (Nat.not_lt.mp hPc)

theorem runs_execute (hLength : env.code.length < 2 ^ 64) (world : HostWorld State) :
    Runs env (initial env world) (instructions env world) (execute env world) :=
  runs_loop hLength (Nat.lt_succ_of_le (Nat.sub_le _ _))

/-- What holds at the start and is kept by every step of a run holds at every machine at
which an instruction is performed. -/
theorem Runs.invariant {machine : Machine State} {machines : List (Machine State)}
    {outcome : Except Fault (ExecutionResult × Machine State)}
    (h : Runs env machine machines outcome) (holds : Machine State → Prop) (hStart : holds machine)
    (hStep : ∀ machine next opcode, holds machine → env.code[machine.pc]? = some opcode →
      0 < machine.gasLeft → dispatch env opcode machine.charged = .ok (none, next) →
      holds next.advanced) :
    ∀ reached ∈ machines, holds reached := by
  induction h with
  | finished => exact fun _ hNone => by cases hNone
  | overflow => exact fun _ hNone => by cases hNone
  | refused => exact fun _ hNone => by cases hNone
  | failed => exact fun _ hReached => List.mem_singleton.mp hReached ▸ hStart
  | ended => exact fun _ hReached => List.mem_singleton.mp hReached ▸ hStart
  | step hOpcode hGas hDispatch rest ih =>
      exact List.forall_mem_cons.mpr ⟨hStart, ih (hStep _ _ _ hStart hOpcode hGas hDispatch)⟩

/-- A run that fails with gas fails in an instruction that it performs. -/
theorem Runs.failure {machine : Machine State} {machines : List (Machine State)} {fault : Fault}
    {outcome : Except Fault (ExecutionResult × Machine State)}
    (h : Runs env machine machines outcome) (hFault : fault ≠ .signedOverflow)
    (hOutcome : outcome = .error fault) :
    ∃ reached ∈ machines, ∃ opcode, env.code[reached.pc]? = some opcode ∧
      dispatch env opcode reached.charged = .error fault := by
  induction h with
  | finished => cases hOutcome
  | overflow =>
      cases hOutcome
      exact absurd rfl hFault
  | refused => cases hOutcome
  | failed hOpcode _ hDispatch =>
      cases hOutcome
      exact ⟨_, List.mem_singleton.mpr rfl, _, hOpcode, hDispatch⟩
  | ended => cases hOutcome
  | step _ _ _ rest ih =>
      obtain ⟨reached, hReached, hRest⟩ := ih hOutcome
      exact ⟨reached, List.mem_cons_of_mem _ hReached, hRest⟩

end Qrvmc.ExampleVm
