import Qrvmc.ExampleVm.Effects
import Qrvmc.ExampleVm.Regions
import Qrvmc.Semantics.Returns

/-! What the switch of the example VM does. Instructions that use the memory take their
regions from the stack, and access no byte outside it unless the end of such a region
wraps around. Pushes move the program counter and stores to storage act on the host. -/
namespace Qrvmc.ExampleVm
open Semantics

variable {State Value Next : Type} {env : Environment State} {bad : Fault → Prop}
  {holds : Machine State → Prop}

/-- The opcodes of the push instructions. -/
def IsPush (opcode : UInt8) : Prop := 0x60 ≤ opcode ∧ opcode ≤ 0x7f

instance (opcode : UInt8) : Decidable (IsPush opcode) := inferInstanceAs (Decidable (_ ∧ _))

/-- The immediate bytes after an opcode. -/
def pushSize (opcode : UInt8) : Nat := if IsPush opcode then opcode.toNat - 0x60 + 1 else 0

/-- The item at a depth below the top of the stack, if there are so many. -/
def Stack.peek (stack : Stack) (depth : Nat) : Bytes32 :=
  if depth < stack.pointer then stack.items.toList.getD (stack.pointer - 1 - depth) 0 else 0

theorem Stack.pop_eq (stack : Stack) :
    stack.pop = if 0 < stack.pointer ∧ stack.pointer - 1 < 1024 then
      .ok (stack.peek 0, { stack with pointer := stack.pointer - 1 }) else .error .stackBounds := by
  unfold Stack.pop
  split
  · rename_i hInside
    congr 2
    simp [Stack.peek, List.getD_eq_getElem?_getD, hInside.1, hInside.2]
  · rfl

theorem Stack.peek_pops (stack : Stack) (count depth : Nat) :
    { stack with pointer := stack.pointer - count : Stack }.peek depth =
      stack.peek (count + depth) := by
  have hDepth : depth < stack.pointer - count ↔ count + depth < stack.pointer := by omega
  have hIndex : stack.pointer - count - 1 - depth = stack.pointer - 1 - (count + depth) := by omega
  simp only [Stack.peek, hDepth, hIndex]

/-- A program that begins with a pop goes on with the item on top, or it fails. -/
theorem run_pop_bind (next : Bytes32 → Interp State Next) (machine : Machine State) :
    (pop >>= next) machine =
      if 0 < machine.stack.pointer ∧ machine.stack.pointer - 1 < 1024 then
        next (machine.stack.peek 0)
          { machine with stack := { machine.stack with pointer := machine.stack.pointer - 1 } }
      else .error .stackBounds := by
  change ((machine.stack.pop.map _ : Except Fault _) >>= _) = _
  rw [Stack.pop_eq]
  split
  · rfl
  · rfl

/-- The regions that an instruction asks the memory for, from its operands. -/
def memoryRequests (opcode : UInt8) (stack : Stack) : List (UInt32 × UInt32) :=
  if opcode = 0x52 then [(toUint32 (stack.peek 0), 32)]
  else if opcode = 0xf1 then
    [(toUint32 (stack.peek 3), toUint32 (stack.peek 4)),
      (toUint32 (stack.peek 5), toUint32 (stack.peek 6))]
  else if opcode = 0xf3 ∨ opcode = 0xfd then [(toUint32 (stack.peek 0), toUint32 (stack.peek 1))]
  else []

/-- The property, after a number of items of the stack have been popped. -/
def Popped (holds : Machine State → Prop) (stack : Stack) (count : Nat) (machine : Machine State) :
    Prop :=
  holds machine ∧ machine.stack = { stack with pointer := stack.pointer - count }

section Memory

variable {stack : Stack} {count : Nat} {post : Next → Machine State → Prop}

/-- A pop takes the next item below those that have been popped. -/
theorem pop_bind (hStack : Unstacked holds) (hFault : ¬bad .stackBounds)
    {next : Bytes32 → Interp State Next}
    (h : Triple bad (Popped holds stack (count + 1)) (next (stack.peek count)) post) :
    Triple bad (Popped holds stack count) (pop >>= next) post := by
  intro machine hMachine
  obtain ⟨hHolds, hSame⟩ := hMachine
  have hPeek : machine.stack.peek 0 = stack.peek count := by
    rw [hSame]
    exact Stack.peek_pops stack count 0
  rw [run_pop_bind, hPeek]
  by_cases hRoom : 0 < machine.stack.pointer ∧ machine.stack.pointer - 1 < 1024
  · rw [if_pos hRoom]
    apply h
    refine ⟨hStack machine _ hHolds, ?_⟩
    rw [hSame, Nat.sub_sub]
  · rw [if_neg hRoom]
    exact hFault

variable (hStable : Stable env holds)
include hStable

/-- Expanding the memory gives the region unless its wrapped end is too large. -/
theorem expand_bind {offset regionSize : UInt32} {next : Option Nat → Interp State Next}
    (hRefused : offset + regionSize > 1024 → Triple bad (Popped holds stack count) (next none) post)
    (hReturned : ¬offset + regionSize > 1024 →
      Triple bad (Popped holds stack count) (next (some offset.toNat)) post) :
    Triple bad (Popped holds stack count) (expand offset regionSize >>= next) post := by
  intro machine hMachine
  have hExpanded : Popped holds stack count
      { machine with memory := (machine.memory.expand offset regionSize).2 } :=
    ⟨hStable.expand machine offset regionSize hMachine.1, hMachine.2⟩
  have hRun : expand offset regionSize machine = .ok ((machine.memory.expand offset regionSize).1,
      { machine with memory := (machine.memory.expand offset regionSize).2 }) := rfl
  rw [Returns.run_bind hRun, Memory.expand_fst]
  by_cases hTest : offset + regionSize > 1024
  · rw [if_pos hTest]
    exact hRefused hTest _ hExpanded
  · rw [if_neg hTest]
    exact hReturned hTest _ hExpanded

/-- A shorter region with the same start has room where the longer one has. -/
theorem keeps_memoryStore_within (offset : UInt32) {valueData : List UInt8}
    {valueSize requestSize : UInt32} (hSize : valueSize ≤ requestSize)
    (hForeign : bad .foreignBounds → valueSize.toNat ≤ valueData.length)
    (hRoom : bad .memoryBounds → regionEnd offset requestSize ≤ 1024) :
    Keeps bad holds (memoryStore offset valueData valueSize) := by
  apply keeps_memoryStore hStable offset valueData valueSize hForeign
  intro hFault memory pointer hPointer
  have hEnd := hRoom hFault
  have hLess := UInt32.le_iff_toNat_le.mp hSize
  rw [Memory.expand_fst] at hPointer
  split at hPointer
  · cases hPointer
  · cases hPointer
    unfold regionEnd at hEnd
    omega

variable (hTolerates : Tolerates env bad)
include hTolerates

theorem performs_opMstore
    (hMemory : bad .memoryBounds → ∀ request ∈ memoryRequests 0x52 stack,
      ¬Wraps request.1 request.2) :
    Triple bad (Popped holds stack 0) opMstore (Follows env holds) := by
  unfold opMstore
  apply pop_bind hStable.stack hTolerates.stack
  apply pop_bind hStable.stack hTolerates.stack
  have hStore : Keeps bad holds (memoryStore (toUint32 (stack.peek 0))
      (stack.peek 1).bytes.toList 32) := by
    apply keeps_memoryStore hStable
    · intro _
      simp
    · intro hFault memory pointer hPointer
      have hWraps := hMemory hFault _ (List.mem_singleton.mpr rfl)
      rw [Memory.expand_fst] at hPointer
      split at hPointer
      · cases hPointer
      · rename_i hReturned
        cases hPointer
        exact inside_of_not_wraps hWraps hReturned
  apply Triple.bind (hStore.strengthen fun machine hMachine => hMachine.1)
  intro stored
  apply Triple.ite
  · intro _
    exact performs_makeFailure
  · intro _
    exact performs_break

/-- The output of the nested call is read in the world that the call leaves. -/
theorem performs_opCall
    (hMemory : bad .memoryBounds → ∀ request ∈ memoryRequests 0xf1 stack,
      ¬Wraps request.1 request.2) :
    Triple bad (Popped holds stack 0) (opCall env) (Follows env holds) := by
  have hInput : bad .memoryBounds →
      ¬Wraps (toUint32 (stack.peek 3)) (toUint32 (stack.peek 4)) :=
    fun hFault => hMemory hFault _ (List.mem_cons_self ..)
  have hOutput : bad .memoryBounds →
      ¬Wraps (toUint32 (stack.peek 5)) (toUint32 (stack.peek 6)) :=
    fun hFault => hMemory hFault _ (List.mem_cons_of_mem _ (List.mem_cons_self ..))
  have hFailure : Triple bad (Popped holds stack 7) (pure (some (makeResult .failure 0 0)))
      (Follows env holds) :=
    performs_makeFailure.strengthen fun _ hMachine => hMachine.1
  unfold opCall
  apply pop_bind hStable.stack hTolerates.stack
  apply pop_bind hStable.stack hTolerates.stack
  apply pop_bind hStable.stack hTolerates.stack
  apply pop_bind hStable.stack hTolerates.stack
  apply pop_bind hStable.stack hTolerates.stack
  apply expand_bind hStable
  · intro _
    apply pop_bind hStable.stack hTolerates.stack
    apply pop_bind hStable.stack hTolerates.stack
    apply expand_bind hStable
    · exact fun _ => hFailure
    · exact fun _ => hFailure
  intro hInputReturned
  apply pop_bind hStable.stack hTolerates.stack
  apply pop_bind hStable.stack hTolerates.stack
  apply expand_bind hStable
  · exact fun _ => hFailure
  intro hOutputReturned
  suffices hRest : Triple bad holds _ _ from hRest.strengthen fun _ hMachine => hMachine.1
  apply Triple.bind (reads_region _ _ fun hFault =>
    inside_of_not_wraps (hInput hFault) hInputReturned)
  intro input
  let answered (callResult : RawResult) (machine : Machine State) : Prop :=
    holds machine ∧ (Supplied env →
      callResult.outputSize ≤ (env.outputData machine.world callResult).length)
  refine @Triple.bind _ _ _ _ _ _ _ _ answered _ ?_ fun callResult => ?_
  · intro machine hMachine
    exact ⟨hStable.call machine _ input hMachine.1, fun hSupplied => hSupplied.output _ _ _⟩
  have hPush : Keeps bad (answered callResult)
      (push (toUint256 (if callResult.statusCode = .success then 1 else 0))) :=
    keeps_push (fun machine stack hMachine =>
      ⟨hStable.stack machine stack hMachine.1, hMachine.2⟩) hTolerates.stack _
  apply Triple.bind hPush
  intro _
  apply Triple.get_bind
  intro machine hMachine
  have hSize : (if (toUint32 (stack.peek 6)).toNat > callResult.outputSize then
        callResult.outputSize.toUInt32
      else toUint32 (stack.peek 6)) ≤ toUint32 (stack.peek 6) ∧
      (Supplied env → (if (toUint32 (stack.peek 6)).toNat > callResult.outputSize then
        callResult.outputSize.toUInt32
      else toUint32 (stack.peek 6)).toNat ≤ (env.outputData machine.world callResult).length) := by
    have hWord := (toUint32 (stack.peek 6)).toNat_lt
    by_cases hLess : (toUint32 (stack.peek 6)).toNat > callResult.outputSize
    · rw [if_pos hLess, UInt32.le_iff_toNat_le, Nat.toUInt32,
        UInt32.toNat_ofNat_of_lt' (by simp only [UInt32.size]; omega)]
      exact ⟨hLess.le, hMachine.2⟩
    · rw [if_neg hLess]
      refine ⟨UInt32.le_refl _, ?_⟩
      intro hSupplied
      have hLength := hMachine.2 hSupplied
      omega
  have hStore := keeps_memoryStore_within hStable (toUint32 (stack.peek 5)) hSize.1
    (fun hFault => hSize.2 (hTolerates.foreign hFault))
    fun hFault => inside_of_not_wraps (hOutput hFault) hOutputReturned
  refine Triple.strengthen (Performs.bind hStore fun stored => ?_) ?_
  · exact Performs.bind (fun machine hMachine => hStable.release machine callResult hMachine)
      fun _ => performs_break
  · rintro current rfl
    exact hMachine.1

omit hStable hTolerates in
/-- The helper that makes results with output follows the contract, also where the
allocation fails. -/
theorem makes_output (statusCode : StatusCode) (gasLeft : Int64) (outputPtr outputSize : Nat)
    (hOutput : statusCode = .success ∨ statusCode = .revert)
    (hMemory : bad .memoryBounds → outputPtr + outputSize ≤ 1024) :
    Triple bad (fun machine => holds machine ∧ machine.gasLeft = gasLeft)
      (makeOutput env statusCode gasLeft 0 outputPtr outputSize)
      (fun result machine => holds machine ∧ Contract env machine.gasLeft result) := by
  by_cases hSize : outputSize = 0
  · subst hSize
    apply Triple.pure
    rintro machine ⟨hMachine, rfl⟩
    exact ⟨hMachine, contract_silent machine.gasLeft hOutput⟩
  · cases hMalloc : env.malloc outputSize with
    | none =>
        simp only [makeOutput, qrvmcMakeResult, hMalloc, if_pos hSize, if_true]
        apply Triple.pure
        intro machine hMachine
        exact ⟨hMachine.1, contract_noMemory machine.gasLeft hSize hMalloc⟩
    | some buffer =>
        simp only [makeOutput, qrvmcMakeResult, hMalloc, if_pos hSize, reduceCtorEq, if_false]
        apply Triple.bind (reads_region outputPtr outputSize hMemory)
        intro output
        apply Triple.pure
        rintro machine ⟨⟨hMachine, rfl⟩, rfl⟩
        exact ⟨hMachine, contract_output machine.gasLeft hOutput hSize hMalloc⟩

/-- `RETURN` and `REVERT` end the run in any case. -/
theorem performs_opOutput {statusCode : StatusCode}
    (hOutput : statusCode = .success ∨ statusCode = .revert)
    (hMemory : bad .memoryBounds → ¬Wraps (toUint32 (stack.peek 0)) (toUint32 (stack.peek 1))) :
    Triple bad (Popped holds stack 0) (opOutput env statusCode) (Follows env holds) := by
  unfold opOutput
  apply pop_bind hStable.stack hTolerates.stack
  apply pop_bind hStable.stack hTolerates.stack
  apply expand_bind hStable
  · intro _
    exact performs_makeFailure.strengthen fun _ hMachine => hMachine.1
  intro hReturned
  apply Triple.get_bind
  intro machine hMachine
  have hMakes := @makes_output _ env bad holds statusCode machine.gasLeft
    (toUint32 (stack.peek 0)).toNat (toUint32 (stack.peek 1)).toNat hOutput
    fun hFault => inside_of_not_wraps (hMemory hFault) hReturned
  refine Triple.strengthen (Triple.bind hMakes fun result => ?_) ?_
  · apply Triple.pure
    intro machine hMachine
    refine ⟨hMachine.1, ?_⟩
    intro given hGiven
    obtain rfl := Option.some.inj hGiven
    exact hMachine.2
  · rintro current rfl
    exact ⟨hMachine.1, rfl⟩

end Memory

/-- A store to storage fails on the stack only, and else it stores the second item
under the first. -/
theorem opSstore_cases (env : Environment State) (machine : Machine State) :
    opSstore env machine = .error .stackBounds ∨
    ∃ stack, opSstore env machine = .ok ((), { machine with
      stack
      world := (env.host.setStorage env.context env.msg.recipient (machine.stack.peek 0)
        (machine.stack.peek 1) machine.world).2 }) := by
  unfold opSstore
  rw [run_pop_bind]
  split
  · rw [run_pop_bind]
    split
    · have hSecond : machine.stack.peek 1 = _ := (Stack.peek_pops machine.stack 1 0).symm
      rw [hSecond]
      exact Or.inr ⟨{ machine.stack with pointer := machine.stack.pointer - 1 - 1 }, rfl⟩
    · exact Or.inl rfl
  · exact Or.inl rfl

/-- The value of the immediate bytes. -/
def pushValue (env : Environment State) (opcode : UInt8) (pc : Nat) : Bytes32 :=
  ⟨copyInto (Vector.replicate 32 0) (32 - pushSize opcode)
    ((env.code.drop (pc + 1)).take (pushSize opcode))⟩

/-- A push fails on the code exactly when its immediate bytes are cut off. -/
theorem opPush_eq (env : Environment State) {opcode : UInt8} (h : IsPush opcode)
    (machine : Machine State) :
    opPush env opcode machine =
      if machine.pc + pushSize opcode < env.code.length then
        push (pushValue env opcode machine.pc)
          { machine with pc := sizeT (machine.pc + pushSize opcode) }
      else .error .codeBounds := by
  have hSize : opcode.toNat - 0x60 + 1 = pushSize opcode := (if_pos h).symm
  simp only [opPush, hSize]
  rw [Returns.run_get_bind]
  by_cases hInside : machine.pc + pushSize opcode < env.code.length
  · rw [if_pos hInside, readFrom, if_pos (by omega)]
    rfl
  · rw [if_neg hInside, readFrom, if_neg (by omega)]
    rfl

theorem dispatch_push (env : Environment State) {opcode : UInt8} (h : IsPush opcode) :
    dispatch env opcode = proceed (opPush env opcode) := by
  have hLow : ∀ other : UInt8, other < 0x60 → opcode ≠ other := by
    rintro other hOther rfl
    exact absurd h.1 (UInt8.not_le.mpr hOther)
  unfold dispatch
  rw [if_neg (hLow 0x00 (by decide)), if_neg (hLow 0x01 (by decide)),
    if_neg (hLow 0x30 (by decide)), if_neg (hLow 0x35 (by decide)), if_neg (hLow 0x43 (by decide)),
    if_neg (hLow 0x52 (by decide)), if_neg (hLow 0x54 (by decide)), if_neg (hLow 0x55 (by decide)),
    if_neg (hLow 0x59 (by decide))]
  exact if_pos h

theorem proceed_eq (program : Interp State Unit) (machine : Machine State) :
    proceed program machine = (program machine).map fun outcome => (none, outcome.2) := by
  change (program machine >>= _) = _
  cases program machine <;> rfl

theorem push_cases (value : Bytes32) (machine : Machine State) :
    push value machine = .error .stackBounds ∨
    ∃ stack, push value machine = .ok ((), { machine with stack }) := by
  by_cases hRoom : machine.stack.pointer < 1024
  · right
    simp only [push, onStack, Stack.push, dif_pos hRoom]
    exact ⟨_, rfl⟩
  · left
    simp only [push, onStack, Stack.push, dif_neg hRoom]
    rfl

/-- The cases of a push: the immediate bytes are cut off, there is no room on the stack,
or the counter moves to the last of the bytes. -/
theorem dispatch_push_cases (env : Environment State) {opcode : UInt8} (h : IsPush opcode)
    (machine : Machine State) :
    (env.code.length ≤ machine.pc + pushSize opcode ∧
      dispatch env opcode machine = .error .codeBounds) ∨
    (machine.pc + pushSize opcode < env.code.length ∧
      (dispatch env opcode machine = .error .stackBounds ∨
      ∃ stack, dispatch env opcode machine =
        .ok (none, { machine with stack, pc := sizeT (machine.pc + pushSize opcode) }))) := by
  rw [dispatch_push env h, proceed_eq, opPush_eq env h]
  by_cases hInside : machine.pc + pushSize opcode < env.code.length
  · rw [if_pos hInside]
    right
    refine ⟨hInside, ?_⟩
    rcases push_cases (pushValue env opcode machine.pc)
      { machine with pc := sizeT (machine.pc + pushSize opcode) } with hFault | ⟨stack, hPush⟩
    · rw [hFault]
      exact Or.inl rfl
    · rw [hPush]
      exact Or.inr ⟨stack, rfl⟩
  · rw [if_neg hInside]
    exact Or.inl ⟨Nat.not_lt.mp hInside, rfl⟩

/-- The cases of a store to storage. -/
theorem dispatch_sstore_cases (env : Environment State) (machine : Machine State) :
    dispatch env 0x55 machine = .error .stackBounds ∨
    ∃ stack, dispatch env 0x55 machine = .ok (none, { machine with
      stack
      world := (env.host.setStorage env.context env.msg.recipient (machine.stack.peek 0)
        (machine.stack.peek 1) machine.world).2 }) := by
  have hDispatch : dispatch env 0x55 = proceed (opSstore env) := rfl
  rw [hDispatch, proceed_eq]
  rcases opSstore_cases env machine with hFault | ⟨stack, hStore⟩
  · rw [hFault]
    exact Or.inl rfl
  · rw [hStore]
    exact Or.inr ⟨stack, rfl⟩

/-- All other instructions keep what is stable. They access bytes outside the memory only
where the end of a region that they ask for wraps around. -/
theorem performs_dispatch {stack : Stack} (hStable : Stable env holds)
    (hTolerates : Tolerates env bad) {opcode : UInt8} (hPush : ¬IsPush opcode)
    (hSstore : opcode ≠ 0x55)
    (hMemory : bad .memoryBounds → ∀ request ∈ memoryRequests opcode stack,
      ¬Wraps request.1 request.2) :
    Triple bad (fun machine => holds machine ∧ machine.stack = stack) (dispatch env opcode)
      (Follows env holds) := by
  have hProceed : ∀ {program : Interp State Unit}, Keeps bad holds program →
      Triple bad (fun machine => holds machine ∧ machine.stack = stack) (proceed program)
        (Follows env holds) :=
    fun hKeeps => (performs_proceed hKeeps).strengthen fun _ hMachine => hMachine.1
  unfold dispatch
  refine Triple.ite (fun _ => ?_) fun _ => ?_
  · apply Triple.get_bind
    intro machine hMachine
    apply Triple.pure
    rintro current rfl
    refine ⟨hMachine.1, ?_⟩
    intro result hResult
    obtain rfl := Option.some.inj hResult
    exact contract_silent current.gasLeft (Or.inl rfl)
  refine Triple.ite (fun _ => hProceed (keeps_opAdd hStable hTolerates)) fun _ => ?_
  refine Triple.ite (fun _ => hProceed (keeps_opAddress hStable hTolerates)) fun _ => ?_
  refine Triple.ite (fun _ => hProceed (keeps_opCalldataload hStable hTolerates)) fun _ => ?_
  refine Triple.ite (fun _ => hProceed (keeps_opNumber hStable hTolerates)) fun _ => ?_
  refine Triple.ite (fun hOpcode => ?_) fun _ => ?_
  · subst hOpcode
    exact performs_opMstore hStable hTolerates hMemory
  refine Triple.ite (fun _ => hProceed (keeps_opSload hStable hTolerates)) fun _ => ?_
  refine Triple.ite (fun hOpcode => absurd hOpcode hSstore) fun _ => ?_
  refine Triple.ite (fun _ => hProceed (keeps_opMsize hStable hTolerates)) fun _ => ?_
  refine Triple.ite (fun hOpcode => absurd hOpcode hPush) fun _ => ?_
  refine Triple.ite (fun _ => hProceed (keeps_opDup1 hStable hTolerates)) fun _ => ?_
  refine Triple.ite (fun hOpcode => ?_) fun _ => ?_
  · subst hOpcode
    exact performs_opCall hStable hTolerates hMemory
  refine Triple.ite (fun hOpcode => ?_) fun _ => ?_
  · subst hOpcode
    exact performs_opOutput hStable hTolerates (Or.inl rfl)
      fun hFault => hMemory hFault _ (List.mem_singleton.mpr rfl)
  refine Triple.ite (fun hOpcode => ?_) fun _ => ?_
  · subst hOpcode
    exact performs_opOutput hStable hTolerates (Or.inr rfl)
      fun hFault => hMemory hFault _ (List.mem_singleton.mpr rfl)
  exact (performs_failure (by decide) (by decide) (by decide)).strengthen
    fun _ hMachine => hMachine.1

/-- What all instructions keep, and the causes of their failures: immediate bytes that are
cut off, and regions that wrap around. -/
theorem keeps_dispatch {opcode : UInt8} {machine : Machine State} (hStable : Stable env holds)
    (hTolerates : Tolerates env bad)
    (hMoved : ∀ machine pc, holds machine → holds { machine with pc })
    (hStored : opcode = 0x55 → ∀ machine key value, holds machine → holds { machine with
      world := (env.host.setStorage env.context env.msg.recipient key value machine.world).2 })
    (hCode : bad .codeBounds → IsPush opcode → machine.pc + pushSize opcode < env.code.length)
    (hMemory : bad .memoryBounds → ∀ request ∈ memoryRequests opcode machine.stack,
      ¬Wraps request.1 request.2) (hMachine : holds machine) :
    Triple bad (fun current => current = machine) (dispatch env opcode) (fun _ => holds) := by
  rintro current rfl
  by_cases hPush : IsPush opcode
  · rcases dispatch_push_cases env hPush current with ⟨hCut, hFault⟩ | ⟨_, hFault | ⟨stack, hMove⟩⟩
    · rw [hFault]
      exact fun hBad => absurd (hCode hBad hPush) (Nat.not_lt.mpr hCut)
    · rw [hFault]
      exact hTolerates.stack
    · rw [hMove]
      exact hMoved _ _ (hStable.stack current stack hMachine)
  · by_cases hSstore : opcode = 0x55
    · subst hSstore
      rcases dispatch_sstore_cases env current with hFault | ⟨stack, hStore⟩
      · rw [hFault]
        exact hTolerates.stack
      · rw [hStore]
        exact hStable.stack _ stack (hStored rfl current _ _ hMachine)
    · have hPerforms := performs_dispatch hStable hTolerates hPush hSstore hMemory current
        ⟨hMachine, rfl⟩
      cases hRun : dispatch env opcode current with
      | error fault =>
          rw [hRun] at hPerforms
          exact hPerforms
      | ok outcome =>
          rw [hRun] at hPerforms
          exact hPerforms.1

/-- What all instructions keep, an instruction that comes back has kept. -/
theorem holds_of_dispatch {opcode : UInt8} {machine next : Machine State}
    {outcome : Option ExecutionResult} (hStable : Stable env holds)
    (hMoved : ∀ machine pc, holds machine → holds { machine with pc })
    (hStored : opcode = 0x55 → ∀ machine key value, holds machine → holds { machine with
      world := (env.host.setStorage env.context env.msg.recipient key value machine.world).2 })
    (hMachine : holds machine) (h : dispatch env opcode machine = .ok (outcome, next)) :
    holds next := by
  have hTolerates : Tolerates env fun _ => False := { stack := id, foreign := False.elim }
  have hKeeps := @keeps_dispatch _ env _ holds opcode machine hStable hTolerates hMoved hStored
    False.elim False.elim hMachine machine rfl
  rw [h] at hKeeps
  exact hKeeps

end Qrvmc.ExampleVm
