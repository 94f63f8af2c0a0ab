import Mathlib.Data.List.Induction
import Qrvmc.ExampleVm.Execute
import Qrvmc.ExampleVm.Metrics
import Qrvmc.Semantics.Path
import Qrvmc.Semantics.Triple

/-! The stack of the example VM against the table of metrics. An instruction that has
the items it requires, and room for those it adds, moves the pointer by the change
of its entry and never accesses a slot outside the array in between. -/
namespace Qrvmc.ExampleVm
open Semantics

variable {State Value Next : Type} {n : Nat}

/-- The program moves the pointer from one height to another, and every access to the
stack on the way is inside the array. -/
def Moves (before after : Nat) (program : Interp State Value) : Prop :=
  Triple (fun fault => fault = .stackBounds) (fun machine => machine.stack.pointer = before) program
    (fun _ machine => machine.stack.pointer = after)

/-- The same of an instruction, which need not leave a certain height if it ends the run. -/
def Settles (before after : Nat) (program : Interp State (Option ExecutionResult)) : Prop :=
  Triple (fun fault => fault = .stackBounds) (fun machine => machine.stack.pointer = before) program
    (fun outcome machine => outcome = none → machine.stack.pointer = after)

theorem Moves.bind {before middle after : Nat} {program : Interp State Value}
    {next : Value → Interp State Next} (hFirst : Moves before middle program)
    (hNext : ∀ value, Moves middle after (next value)) : Moves before after (program >>= next) :=
  Triple.bind hFirst hNext

theorem Settles.bind {before middle after : Nat} {program : Interp State Value}
    {next : Value → Interp State (Option ExecutionResult)} (hFirst : Moves before middle program)
    (hNext : ∀ value, Settles middle after (next value)) :
    Settles before after (program >>= next) :=
  Triple.bind hFirst hNext

theorem settles_break : Settles n n (pure none : Interp State (Option ExecutionResult)) :=
  Triple.pure fun _ hPointer _ => hPointer

theorem settles_result {after : Nat} (result : ExecutionResult) :
    Settles n after (pure (some result) : Interp State (Option ExecutionResult)) :=
  Triple.pure fun _ _ hNone => by cases hNone

theorem settles_proceed {after : Nat} {program : Interp State Unit} (h : Moves n after program) :
    Settles n after (proceed program) :=
  Settles.bind h fun _ => settles_break

theorem moves_pop (h : n < 1024) : Moves (n + 1) n (pop : Interp State Bytes32) := by
  intro machine hPointer
  have hInside : 0 < machine.stack.pointer ∧ machine.stack.pointer - 1 < 1024 := by omega
  simp only [pop, onStack, Stack.pop, dif_pos hInside, Except.map]
  omega

theorem moves_push (h : n < 1024) (value : Bytes32) :
    Moves n (n + 1) (push value : Interp State Unit) := by
  intro machine hPointer
  have hInside : machine.stack.pointer < 1024 := by omega
  simp only [push, onStack, Stack.push, dif_pos hInside, Except.map]
  omega

theorem moves_onWorld (action : StateM (HostWorld State) Value) :
    Moves n n (onWorld action : Interp State Value) :=
  fun _ hPointer => hPointer

theorem moves_get : Moves n n (get : Interp State (Machine State)) := fun _ hPointer => hPointer

theorem moves_modify {change : Machine State → Machine State}
    (h : ∀ machine, (change machine).stack = machine.stack) :
    Moves n n (modify change : Interp State Unit) := by
  apply Triple.modify
  intro machine hPointer
  rw [h]
  exact hPointer

/-- What works on the memory leaves the stack alone. -/
theorem moves_onMemory {action : Memory → Except Fault (Value × Memory)}
    (h : ∀ memory, action memory ≠ .error .stackBounds) :
    Moves n n (onMemory action : Interp State Value) := by
  intro machine hPointer
  unfold onMemory
  cases hAction : action machine.memory with
  | error fault =>
      intro hFault
      exact h machine.memory (hFault ▸ hAction)
  | ok outcome => exact hPointer

theorem moves_lift {outcome : Except Fault Value} (h : outcome ≠ .error .stackBounds) :
    Moves n n (liftM outcome : Interp State Value) := by
  intro machine hPointer
  cases outcome with
  | error fault =>
      intro hFault
      exact h (hFault ▸ rfl)
  | ok value => exact hPointer

theorem readFrom_fault {fault : Fault} (hFault : fault ≠ .stackBounds) (bytes : List UInt8)
    (start count : Nat) : readFrom fault bytes start count ≠ .error .stackBounds := by
  unfold readFrom
  split
  · intro h
    cases h
  · intro h
    exact hFault (Except.error.inj h)

theorem moves_expand (offset regionSize : UInt32) :
    Moves n n (expand offset regionSize : Interp State (Option Nat)) :=
  moves_onMemory fun memory h => by cases h

theorem moves_region (pointer size : Nat) :
    Moves n n (region pointer size : Interp State (List UInt8)) := by
  apply moves_onMemory
  intro memory h
  have hRead := @readFrom_fault .memoryBounds (by decide) memory.data.toList pointer size
  cases hOutcome : readFrom .memoryBounds memory.data.toList pointer size with
  | error fault =>
      rw [hOutcome] at h hRead
      exact hRead (congrArg Except.error (Except.error.inj h))
  | ok bytes =>
      rw [hOutcome] at h
      cases h

theorem moves_memoryStore (offset : UInt32) (valueData : List UInt8) (valueSize : UInt32) :
    Moves n n (memoryStore offset valueData valueSize : Interp State Bool) := by
  apply moves_onMemory
  intro memory h
  unfold Memory.store at h
  split at h
  · cases h
  · have hRead := @readFrom_fault .foreignBounds (by decide) valueData 0 valueSize.toNat
    cases hOutcome : readFrom .foreignBounds valueData 0 valueSize.toNat with
    | error fault =>
        rw [hOutcome] at h hRead
        exact hRead (congrArg Except.error (Except.error.inj h))
    | ok bytes =>
        rw [hOutcome] at h
        simp only [bind, Except.bind] at h
        split at h <;> cases h

theorem moves_makeOutput (env : Environment State) (statusCode : StatusCode)
    (gasLeft gasRefund : Int64) (outputPtr outputSize : Nat) :
    Moves n n (makeOutput env statusCode gasLeft gasRefund outputPtr outputSize) := by
  unfold makeOutput
  apply Triple.ite
  · intro _
    exact Triple.pure fun _ hPointer => hPointer
  · intro _
    exact (moves_region outputPtr outputSize).bind fun _ => Triple.pure fun _ hPointer => hPointer

theorem moves_opAdd (h : n + 2 ≤ 1024) : Moves (n + 2) (n + 1) (opAdd : Interp State Unit) := by
  unfold opAdd
  apply (moves_pop (by omega)).bind
  intro a
  apply (moves_pop (by omega)).bind
  intro b
  exact moves_push (by omega) _

theorem moves_opAddress (env : Environment State) (h : n < 1024) : Moves n (n + 1) (opAddress env) :=
  moves_push h _

theorem moves_opCalldataload (env : Environment State) (h : n < 1024) :
    Moves (n + 1) (n + 1) (opCalldataload env) := by
  unfold opCalldataload
  apply (moves_pop h).bind
  intro offset
  apply Triple.ite
  · intro _
    apply (moves_lift (readFrom_fault (by decide) _ _ _)).bind
    intro bytes
    exact moves_push h _
  · intro _
    exact moves_push h 0

theorem moves_opNumber (env : Environment State) (h : n < 1024) :
    Moves n (n + 1) (opNumber env) := by
  unfold opNumber
  apply (moves_onWorld _).bind
  intro txContext
  exact moves_push h _

theorem settles_opMstore (h : n + 2 ≤ 1024) :
    Settles (n + 2) n (opMstore : Interp State (Option ExecutionResult)) := by
  unfold opMstore
  apply Settles.bind (moves_pop (by omega))
  intro index
  apply Settles.bind (moves_pop (by omega))
  intro value
  apply Settles.bind (moves_memoryStore _ _ _)
  intro stored
  apply Triple.ite
  · intro _
    exact settles_result _
  · intro _
    exact settles_break

theorem moves_opSload (env : Environment State) (h : n < 1024) :
    Moves (n + 1) (n + 1) (opSload env) := by
  unfold opSload
  apply (moves_pop h).bind
  intro index
  apply (moves_onWorld _).bind
  intro value
  exact moves_push h value

theorem moves_opSstore (env : Environment State) (h : n + 2 ≤ 1024) :
    Moves (n + 2) n (opSstore env) := by
  unfold opSstore
  apply (moves_pop (by omega)).bind
  intro index
  apply (moves_pop (by omega)).bind
  intro value
  apply (moves_onWorld _).bind
  intro status
  exact Triple.pure fun _ hPointer => hPointer

theorem moves_opMsize (h : n < 1024) : Moves n (n + 1) (opMsize : Interp State Unit) := by
  unfold opMsize
  apply moves_get.bind
  intro machine
  exact moves_push h _

theorem moves_opPush (env : Environment State) (opcode : UInt8) (h : n < 1024) :
    Moves n (n + 1) (opPush env opcode) := by
  unfold opPush
  apply moves_get.bind
  intro machine
  apply (moves_lift (readFrom_fault (by decide) _ _ _)).bind
  intro bytes
  refine Moves.bind (moves_modify ?_) fun _ => moves_push h _
  intro machine
  rfl

theorem moves_opDup1 (h : n + 2 ≤ 1024) :
    Moves (n + 1) (n + 2) (opDup1 : Interp State Unit) := by
  unfold opDup1
  apply (moves_pop (by omega)).bind
  intro value
  apply (moves_push (by omega) value).bind
  intro _
  exact moves_push (by omega) value

theorem settles_opCall (env : Environment State) (h : n + 7 ≤ 1024) :
    Settles (n + 7) (n + 1) (opCall env) := by
  unfold opCall
  apply Settles.bind (moves_pop (by omega))
  intro gas
  apply Settles.bind (moves_pop (by omega))
  intro recipient
  apply Settles.bind (moves_pop (by omega))
  intro value
  apply Settles.bind (moves_pop (by omega))
  intro callInputOffset
  apply Settles.bind (moves_pop (by omega))
  intro callInputSize
  apply Settles.bind (moves_expand _ _)
  intro inputData
  apply Settles.bind (moves_pop (by omega))
  intro callOutputOffset
  apply Settles.bind (moves_pop (by omega))
  intro callOutputSize
  apply Settles.bind (moves_expand _ _)
  intro callOutputPtr
  cases inputData with
  | none => exact settles_result _
  | some inputPtr =>
      cases callOutputPtr with
      | none => exact settles_result _
      | some outputPtr =>
          apply Settles.bind (moves_region _ _)
          intro input
          apply Settles.bind (moves_onWorld _)
          intro callResult
          apply Settles.bind (moves_push (by omega) _)
          intro _
          apply Settles.bind moves_get
          intro machine
          apply Settles.bind (moves_memoryStore _ _ _)
          intro stored
          apply Settles.bind (moves_onWorld _)
          intro _
          exact settles_break

theorem settles_opOutput {after : Nat} (env : Environment State) (statusCode : StatusCode)
    (h : n + 2 ≤ 1024) : Settles (n + 2) after (opOutput env statusCode) := by
  unfold opOutput
  apply Settles.bind (moves_pop (by omega))
  intro outputOffset
  apply Settles.bind (moves_pop (by omega))
  intro outputSize
  apply Settles.bind (moves_expand _ _)
  intro outputPtr
  cases outputPtr with
  | none => exact settles_result _
  | some outputPtr =>
      apply Settles.bind moves_get
      intro machine
      apply Settles.bind (moves_makeOutput _ _ _ _ _ _)
      intro result
      exact settles_result result

/-- The entry of an opcode allows an instruction at a height. -/
def Allowed (height : Int) (opcode : UInt8) : Prop :=
  ((metrics opcode).stackHeightRequired.toInt ≤ height) ∧
    height + (metrics opcode).stackHeightChange.toInt ≤ 1024

/-- The height after an instruction. -/
def heightAfter (height : Int) (opcode : UInt8) : Int :=
  height + (metrics opcode).stackHeightChange.toInt

theorem metrics_push {opcode : UInt8} (h : 0x60 ≤ opcode ∧ opcode ≤ 0x7f) :
    metrics opcode = ⟨3, 0, 1⟩ := by
  have hAll : ∀ index : Fin 32, metrics (UInt8.ofNat (0x60 + index)) = ⟨3, 0, 1⟩ := by
    decide +kernel
  have hLow : 0x60 ≤ opcode.toNat := UInt8.le_iff_toNat_le.mp h.1
  have hHigh : opcode.toNat ≤ 0x7f := UInt8.le_iff_toNat_le.mp h.2
  have hOpcode : opcode = UInt8.ofNat (0x60 + (opcode.toNat - 0x60)) := by
    rw [Nat.add_sub_cancel' hLow, UInt8.ofNat_toNat]
  rw [hOpcode]
  exact hAll ⟨opcode.toNat - 0x60, by omega⟩

/-- A case of the switch for an entry with `p` items required and `a` left. -/
theorem settles_entry {program : Interp State (Option ExecutionResult)} {opcode : UInt8}
    {before p a : Nat} (hAllowed : Allowed before opcode) (hBefore : before ≤ 1024)
    (hRequired : (metrics opcode).stackHeightRequired.toInt = p)
    (hChange : (metrics opcode).stackHeightChange.toInt = a - p)
    (hProgram : ∀ n, n + p ≤ 1024 → n + a ≤ 1024 → Settles (n + p) (n + a) program) :
    Settles before (heightAfter before opcode).toNat program := by
  obtain ⟨hEnough, hRoom⟩ := hAllowed
  rw [hRequired] at hEnough
  rw [hChange] at hRoom
  have hItems : before = before - p + p := by omega
  have hAfter : (heightAfter before opcode).toNat = before - p + a := by
    rw [heightAfter, hChange]
    omega
  rw [hAfter]
  have hSettles := hProgram (before - p) (by omega) (by omega)
  rw [← hItems] at hSettles
  exact hSettles

theorem settles_stop {after : Nat} :
    Settles n after (do return some (makeResult .success (← get).gasLeft 0) :
      Interp State (Option ExecutionResult)) := by
  apply Settles.bind moves_get
  intro machine
  exact settles_result _

/-- Every case of the switch moves the pointer as the table of metrics tells. -/
theorem settles_dispatch (env : Environment State) {opcode : UInt8} {before : Nat}
    (hAllowed : Allowed before opcode) (hBefore : before ≤ 1024) :
    Settles before (heightAfter before opcode).toNat (dispatch env opcode) := by
  unfold dispatch
  refine Triple.ite (fun _ => settles_stop) fun _ => ?_
  refine Triple.ite (fun hAdd => ?_) fun _ => ?_
  · subst hAdd
    exact settles_entry (p := 2) (a := 1) hAllowed hBefore (by decide +kernel) (by decide +kernel)
      fun n hItems _ => settles_proceed (moves_opAdd hItems)
  refine Triple.ite (fun hAddress => ?_) fun _ => ?_
  · subst hAddress
    exact settles_entry (p := 0) (a := 1) hAllowed hBefore (by decide +kernel) (by decide +kernel)
      fun n _ hRoom => settles_proceed (moves_opAddress env hRoom)
  refine Triple.ite (fun hCalldataload => ?_) fun _ => ?_
  · subst hCalldataload
    exact settles_entry (p := 1) (a := 1) hAllowed hBefore (by decide +kernel) (by decide +kernel)
      fun n _ hRoom => settles_proceed (moves_opCalldataload env hRoom)
  refine Triple.ite (fun hNumber => ?_) fun _ => ?_
  · subst hNumber
    exact settles_entry (p := 0) (a := 1) hAllowed hBefore (by decide +kernel) (by decide +kernel)
      fun n _ hRoom => settles_proceed (moves_opNumber env hRoom)
  refine Triple.ite (fun hMstore => ?_) fun _ => ?_
  · subst hMstore
    exact settles_entry (p := 2) (a := 0) hAllowed hBefore (by decide +kernel) (by decide +kernel)
      fun n hItems _ => settles_opMstore hItems
  refine Triple.ite (fun hSload => ?_) fun _ => ?_
  · subst hSload
    exact settles_entry (p := 1) (a := 1) hAllowed hBefore (by decide +kernel) (by decide +kernel)
      fun n _ hRoom => settles_proceed (moves_opSload env hRoom)
  refine Triple.ite (fun hSstore => ?_) fun _ => ?_
  · subst hSstore
    exact settles_entry (p := 2) (a := 0) hAllowed hBefore (by decide +kernel) (by decide +kernel)
      fun n hItems _ => settles_proceed (moves_opSstore env hItems)
  refine Triple.ite (fun hMsize => ?_) fun _ => ?_
  · subst hMsize
    exact settles_entry (p := 0) (a := 1) hAllowed hBefore (by decide +kernel) (by decide +kernel)
      fun n _ hRoom => settles_proceed (moves_opMsize hRoom)
  refine Triple.ite (fun hPush => ?_) fun _ => ?_
  · have hEntry := metrics_push hPush
    exact settles_entry (p := 0) (a := 1) hAllowed hBefore (by rw [hEntry]; rfl)
      (by rw [hEntry]; rfl) fun n _ hRoom => settles_proceed (moves_opPush env opcode hRoom)
  refine Triple.ite (fun hDup1 => ?_) fun _ => ?_
  · subst hDup1
    exact settles_entry (p := 1) (a := 2) hAllowed hBefore (by decide +kernel) (by decide +kernel)
      fun n _ hRoom => settles_proceed (moves_opDup1 hRoom)
  refine Triple.ite (fun hCall => ?_) fun _ => ?_
  · subst hCall
    exact settles_entry (p := 7) (a := 1) hAllowed hBefore (by decide +kernel) (by decide +kernel)
      fun n hItems _ => settles_opCall env hItems
  refine Triple.ite (fun hReturn => ?_) fun _ => ?_
  · subst hReturn
    exact settles_entry (p := 2) (a := 0) hAllowed hBefore (by decide +kernel) (by decide +kernel)
      fun n hItems _ => settles_opOutput env .success hItems
  refine Triple.ite (fun hRevert => ?_) fun _ => settles_result _
  subst hRevert
  exact settles_entry (p := 2) (a := 0) hAllowed hBefore (by decide +kernel) (by decide +kernel)
    fun n hItems _ => settles_opOutput env .revert hItems

/-- One turn of the loop, at an opcode that the height allows. -/
theorem iteration_settles (env : Environment State) {machine : Machine State} {opcode : UInt8}
    (hCode : env.code[machine.pc]? = some opcode)
    (hAllowed : Allowed machine.stack.pointer opcode) (hBefore : machine.stack.pointer ≤ 1024) :
    Triple (fun fault => fault = .stackBounds) (fun current => current = machine) (iteration env)
      (fun outcome next => outcome = none →
        next.stack.pointer = (heightAfter machine.stack.pointer opcode).toNat) := by
  unfold iteration
  apply Triple.get_bind
  intro current hCurrent
  subst hCurrent
  refine Triple.ite (fun _ => Triple.throw (by decide)) fun _ => ?_
  apply Triple.bind (Triple.set rfl : Triple _ _ _ fun _ next => next = _)
  intro _
  refine Triple.ite (fun _ => Triple.pure fun _ _ hNone => by cases hNone) fun _ => ?_
  rw [hCode]
  have hDispatch := settles_dispatch env hAllowed hBefore
  refine Triple.bind (hDispatch.strengthen ?_) fun outcome => ?_
  · rintro next rfl
    rfl
  · cases outcome with
    | some result => exact Triple.pure fun _ _ hNone => by cases hNone
    | none =>
        refine (Settles.bind (moves_modify ?_) fun _ => settles_break).strengthen
          fun next hPointer => hPointer rfl
        intro next
        rfl

/-- A turn of the loop that performs the opcode and does not end the run. -/
def Continues (env : Environment State) (machine : Machine State) (opcode : UInt8)
    (next : Machine State) : Prop :=
  env.code[machine.pc]? = some opcode ∧ iteration env machine = .ok (none, next)

/-- The height that the table of metrics predicts for a sequence of instructions. -/
def height (opcodes : List UInt8) : Int := opcodes.foldl heightAfter 0

/-- Every instruction found the items it requires and left at most as many as fit. -/
def WithinBounds (opcodes : List UInt8) : Prop :=
  ∀ before opcode after, opcodes = before ++ opcode :: after → Allowed (height before) opcode

theorem height_snoc (opcodes : List UInt8) (opcode : UInt8) :
    height (opcodes ++ [opcode]) = heightAfter (height opcodes) opcode := by
  rw [height, List.foldl_append]
  rfl

theorem WithinBounds.init {opcodes : List UInt8} {opcode : UInt8}
    (h : WithinBounds (opcodes ++ [opcode])) : WithinBounds opcodes := by
  intro before first after hSplit
  exact h before first (after ++ [opcode]) (by rw [hSplit]; simp)

theorem WithinBounds.last {opcodes : List UInt8} {opcode : UInt8}
    (h : WithinBounds (opcodes ++ [opcode])) : Allowed (height opcodes) opcode :=
  h opcodes opcode [] rfl

/-- No entry of the table takes more items than it requires. -/
theorem heightAfter_nonneg {before : Int} {opcode : UInt8} (h : Allowed before opcode) :
    0 ≤ heightAfter before opcode := by
  have hAll : ∀ entry ∈ Metrics.shanghaiMetrics,
      0 ≤ entry.stackHeightRequired.toInt + entry.stackHeightChange.toInt := by
    decide +kernel
  have hEntry := hAll (metrics opcode) (List.getElem_mem _)
  obtain ⟨hRequired, _⟩ := h
  unfold heightAfter
  exact hEntry.trans (Int.add_le_add_right hRequired _)

theorem Continues.settles {env : Environment State} {machine next : Machine State} {opcode : UInt8}
    (h : Continues env machine opcode next) (hAllowed : Allowed machine.stack.pointer opcode)
    (hBefore : machine.stack.pointer ≤ 1024) :
    (next.stack.pointer : Int) = heightAfter machine.stack.pointer opcode := by
  obtain ⟨hCode, hIteration⟩ := h
  have hSettles := iteration_settles env hCode hAllowed hBefore machine rfl
  rw [hIteration] at hSettles
  rw [hSettles rfl]
  exact Int.toNat_of_nonneg (heightAfter_nonneg hAllowed)

/-- After instructions within bounds the pointer is where the table predicts. -/
theorem path_pointer {env : Environment State} {start machine : Machine State}
    {opcodes : List UInt8} (hStart : start.stack.pointer = 0)
    (hPath : Path (Continues env) start opcodes machine) (hBounds : WithinBounds opcodes) :
    (machine.stack.pointer : Int) = height opcodes ∧ machine.stack.pointer ≤ 1024 := by
  induction opcodes using List.reverseRecOn generalizing machine with
  | nil =>
      cases hPath with
      | nil => exact ⟨by rw [hStart]; rfl, by omega⟩
  | append_singleton opcodes opcode ih =>
      obtain ⟨middle, next, hFirst, hStep, hRest⟩ := hPath.split_cons
      obtain ⟨hPointer, hMiddle⟩ := ih hFirst hBounds.init
      cases hRest with
      | nil =>
          have hAllowed := hBounds.last
          rw [← hPointer] at hAllowed
          have hNext := hStep.settles hAllowed hMiddle
          have hRoom : heightAfter middle.stack.pointer opcode ≤ 1024 := hAllowed.2
          rw [height_snoc, ← hPointer]
          exact ⟨hNext, by omega⟩

/-- One more turn of the loop, by the outcome of its body. -/
theorem loop_succ (env : Environment State) (fuel : Nat) (machine : Machine State) :
    loop env (fuel + 1) machine =
      if machine.pc < env.code.length then
        match iteration env machine with
        | .error fault => .error fault
        | .ok (some result, next) => .ok (result, next)
        | .ok (none, next) => loop env fuel next
      else .ok (makeResult .success machine.gasLeft 0, machine) := by
  change (if machine.pc < env.code.length then _ else _ : Interp State ExecutionResult) machine = _
  by_cases hPc : machine.pc < env.code.length
  · rw [if_pos hPc, if_pos hPc]
    change (iteration env machine >>= _) = _
    cases iteration env machine with
    | error fault => rfl
    | ok outcome =>
        obtain ⟨result, next⟩ := outcome
        cases result <;> rfl
  · rw [if_neg hPc, if_neg hPc]
    rfl

/-- A stack fault of the loop is one of the turn that some instructions lead to. -/
theorem loop_fault {env : Environment State} {fuel : Nat} {machine : Machine State}
    (h : loop env fuel machine = .error .stackBounds) :
    ∃ opcodes last opcode, Path (Continues env) machine opcodes last ∧
      env.code[last.pc]? = some opcode ∧ iteration env last = .error .stackBounds := by
  induction fuel generalizing machine with
  | zero => cases h
  | succ fuel ih =>
      rw [loop_succ] at h
      by_cases hPc : machine.pc < env.code.length
      · rw [if_pos hPc] at h
        have hCode := List.getElem?_eq_getElem hPc
        cases hIteration : iteration env machine with
        | error fault =>
            rw [hIteration] at h
            obtain rfl : fault = .stackBounds := Except.error.inj h
            exact ⟨[], machine, _, Path.nil machine, hCode, hIteration⟩
        | ok outcome =>
            rw [hIteration] at h
            obtain ⟨result, next⟩ := outcome
            cases result with
            | some result => cases h
            | none =>
                obtain ⟨opcodes, last, opcode, hPath, hLast, hFault⟩ := ih h
                exact ⟨_, last, opcode, Path.cons ⟨hCode, hIteration⟩ hPath, hLast, hFault⟩
      · rw [if_neg hPc] at h
        cases h

/-- While the table of metrics allows every instruction, the pointer is at the height
that the table predicts after each of them, and no instruction accesses a slot
outside the array, whether it ends the run or not. So a run that the table allows
throughout does not fail on the stack. -/
theorem stack_discipline (env : Environment State) (world : HostWorld State) :
    (∀ opcodes machine, Path (Continues env) (initial env world) opcodes machine →
      WithinBounds opcodes →
      (machine.stack.pointer : Int) = height opcodes ∧ machine.stack.pointer ≤ 1024 ∧
      ∀ opcode, env.code[machine.pc]? = some opcode → Allowed (height opcodes) opcode →
        iteration env machine ≠ .error .stackBounds) ∧
    ((∀ opcodes machine opcode, Path (Continues env) (initial env world) opcodes machine →
        env.code[machine.pc]? = some opcode → WithinBounds (opcodes ++ [opcode])) →
      execute env world ≠ .error .stackBounds) := by
  have hTurn : ∀ opcodes machine opcode, Path (Continues env) (initial env world) opcodes machine →
      WithinBounds opcodes → env.code[machine.pc]? = some opcode →
      Allowed (height opcodes) opcode → iteration env machine ≠ .error .stackBounds := by
    intro opcodes machine opcode hPath hBounds hCode hAllowed hFault
    obtain ⟨hPointer, hMachine⟩ := path_pointer rfl hPath hBounds
    rw [← hPointer] at hAllowed
    have hSettles := iteration_settles env hCode hAllowed hMachine machine rfl
    rw [hFault] at hSettles
    exact hSettles rfl
  constructor
  · intro opcodes machine hPath hBounds
    obtain ⟨hPointer, hMachine⟩ := path_pointer rfl hPath hBounds
    exact ⟨hPointer, hMachine, fun opcode => hTurn opcodes machine opcode hPath hBounds⟩
  · intro hThroughout hFault
    obtain ⟨opcodes, last, opcode, hPath, hCode, hLast⟩ := loop_fault hFault
    have hBounds := hThroughout opcodes last opcode hPath hCode
    exact hTurn opcodes last opcode hPath hBounds.init hCode hBounds.last hLast

end Qrvmc.ExampleVm
