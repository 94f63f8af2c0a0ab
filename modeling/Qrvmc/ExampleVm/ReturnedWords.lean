import Qrvmc.ExampleVm.CodeBlocks
import Qrvmc.ExampleVm.ProgramLogic
import Mathlib.Tactic.IntervalCases

/-! Codes that compute a word and return it, as most of the unit tests do. A block leaves
its word on the stack that it finds, and blocks are put together from smaller ones. -/
namespace Qrvmc.ExampleVm
open Bytes Semantics

variable {State : Type} {env : Environment State}

/-- The code leaves a word on the stack and takes one world to another. It needs a number
of free slots of the stack. -/
inductive Produces (env : Environment State) :
    Nat → HostWorld State → List UInt8 → Nat → HostWorld State → Prop where
  | push {world : HostWorld State} {opcode : UInt8} {immediate : List UInt8}
      (hPush : IsPush opcode) (hLength : immediate.length = pushSize opcode) :
      Produces env 1 world (opcode :: immediate) (beNat immediate) world
  | address {world : HostWorld State} :
      Produces env 1 world [0x30] env.msg.recipient.toNat world
  | number {world : HostWorld State} :
      Produces env 1 world [0x43]
        ((env.host.getTxContext env.context world).1.blockNumber.toInt % 4294967296).toNat
        (env.host.getTxContext env.context world).2
  | calldataload {slots : Nat} {world final : HostWorld State} {block : List UInt8} {offset : Nat}
      (h : Produces env slots world block offset final) :
      Produces env slots world (block ++ [0x35]) (beNat (inputWord env (offset % 4294967296))) final
  | sload {slots : Nat} {world final : HostWorld State} {block : List UInt8} {key : Nat}
      (h : Produces env slots world block key final) :
      Produces env slots world (block ++ [0x54])
        (env.host.getStorage env.context env.msg.recipient (Bytes32.ofNat key) final).1.toNat
        (env.host.getStorage env.context env.msg.recipient (Bytes32.ofNat key) final).2
  | add {slots more : Nat} {world mid final : HostWorld State} {first second : List UInt8}
      {a b : Nat} (hFirst : Produces env slots world first a mid)
      (hSecond : Produces env more mid second b final) :
      Produces env (max slots (more + 1)) world (first ++ second ++ [0x01])
        ((b + a) % 4294967296) final

theorem whole_append {skip : Nat} {first second : List UInt8} (hFirst : Whole skip first)
    (hSecond : Whole 0 second) : Whole skip (first ++ second) := by
  induction first generalizing skip with
  | nil =>
      obtain rfl : skip = 0 := by
        cases skip with
        | zero => rfl
        | succ skip => exact hFirst
      exact hSecond
  | cons opcode rest ih =>
      cases skip with
      | zero => exact ih hFirst
      | succ skip => exact ih hFirst

theorem Produces.whole {slots word : Nat} {world final : HostWorld State} {block : List UInt8}
    (h : Produces env slots world block word final) : Whole 0 block := by
  induction h with
  | @push _ opcode immediate hPush hLength =>
      refine (whole_iff (pushSize opcode) immediate).mpr ⟨hLength.ge, ?_⟩
      rw [← hLength, List.drop_length]
      rfl
  | address => exact rfl
  | number => exact rfl
  | calldataload _ ih => exact whole_append ih rfl
  | sload _ ih => exact whole_append ih rfl
  | add _ _ ihFirst ihSecond => exact whole_append (whole_append ihFirst ihSecond) rfl

/-- One instruction from a view. -/
theorem derives_one {instruction : Instruction} {view next : View State}
    (h : (rules env).before instruction (· = next) (fun _ _ => False) view) :
    Derives (rules env) (· = view) [instruction] (· = next) fun _ _ => False :=
  (Derives.perform instruction (· = next) fun _ _ => False).weaken (fun _ hView => hView ▸ h)
    (fun _ hNext => hNext) fun _ _ hNever => hNever

theorem decode_push {opcode : UInt8} {immediate : List UInt8} (hPush : IsPush opcode)
    (hLength : immediate.length = pushSize opcode) :
    decode (opcode :: immediate) = [.push immediate] := by
  rw [decode_cons, instruction_push hPush, pushInstruction, if_pos hLength.ge, ← hLength,
    List.take_length, List.drop_length, decode_nil]

theorem Produces.slots_pos {slots word : Nat} {world final : HostWorld State} {block : List UInt8}
    (h : Produces env slots world block word final) : 0 < slots := by
  induction h with
  | push => exact Nat.one_pos
  | address => exact Nat.one_pos
  | number => exact Nat.one_pos
  | calldataload _ ih => exact ih
  | sload _ ih => exact ih
  | add _ _ ihFirst _ => exact Nat.lt_of_lt_of_le ihFirst (Nat.le_max_left ..)

/-- A block works on top of any stack that leaves it the slots it needs. -/
theorem Produces.derives {slots word : Nat} {world final : HostWorld State} {block : List UInt8}
    (h : Produces env slots world block word final) {stack : List Nat} {size : Nat}
    {memory : Nat → UInt8} (hSlots : stack.length + slots ≤ 1024) :
    Derives (rules env) (· = { stack, size, memory, world }) (decode block)
      (· = { stack := word :: stack, size, memory, world := final }) fun _ _ => False := by
  have hRoom : stack.length < 1024 := by
    have hPositive := h.slots_pos
    omega
  induction h generalizing stack with
  | push hPush hLength =>
      rw [decode_push hPush hLength]
      exact derives_one ⟨hRoom, rfl⟩
  | address => exact derives_one ⟨hRoom, rfl⟩
  | number => exact derives_one ⟨hRoom, rfl⟩
  | calldataload h ih =>
      rw [decode_append h.whole]
      exact (ih hSlots hRoom).append (derives_one ⟨_, _, rfl, hRoom, rfl⟩)
  | sload h ih =>
      rw [decode_append h.whole]
      exact (ih hSlots hRoom).append (derives_one ⟨_, _, rfl, hRoom, rfl⟩)
  | @add slots more _ _ _ first second a b hFirst hSecond ihFirst ihSecond =>
      rw [decode_append (whole_append hFirst.whole hSecond.whole), decode_append hFirst.whole]
      have hPositive := hSecond.slots_pos
      have hLeft : stack.length + slots ≤ 1024 := by omega
      have hRight : (a :: stack).length + more ≤ 1024 := by rw [List.length_cons]; omega
      have hAbove : (a :: stack).length < 1024 := by omega
      exact ((ihFirst hLeft hRoom).append (ihSecond hRight hAbove)).append
        (derives_one ⟨_, _, rfl, _, _, rfl, hRoom, rfl⟩)

/-! ### The code that returns the word -/

/-- `mstore(0, ·) return(0, msize())`. -/
def returnWord : List UInt8 := [0x60, 0x00, 0x52, 0x59, 0x60, 0x00, 0xf3]

def returnInstructions : List Instruction :=
  [.push [0x00], .mstore, .msize, .push [0x00], .output .success]

theorem decode_returnWord : decode returnWord = returnInstructions := by decide

/-- The views before its instructions. -/
def returning (word : Nat) (final : HostWorld State) : Nat → View State → Prop
  | 0 => (· = { stack := [word], world := final })
  | 1 => (· = { stack := [0, word], world := final })
  | 2 => (· = { size := 32, memory := overwrite (fun _ => 0) 0 (spell 32 word), world := final })
  | 3 => (· = { stack := [32], size := 32
                memory := overwrite (fun _ => 0) 0 (spell 32 word), world := final })
  | 4 => (· = { stack := [0, 32], size := 32
                memory := overwrite (fun _ => 0) 0 (spell 32 word), world := final })
  | _ => fun _ => False

/-- The end of a run that returns a word, where there is memory for a copy. -/
def wordEnding (env : Environment State) (word : Nat) : Ending :=
  if env.malloc 32 = none then { statusCode := .outOfMemory }
  else { statusCode := .success, output := spell 32 word }

theorem map_overwrite (memory : Nat → UInt8) (offset : Nat) (bytes : List UInt8) :
    (List.range' offset bytes.length).map (overwrite memory offset bytes) = bytes := by
  apply List.ext_getElem
  · simp
  · intro i hLeft hRight
    simp [overwrite, hRight]

/-- The output ends the run. The other instructions go on. -/
theorem return_outline (word : Nat) (final : HostWorld State) :
    Outline (rules env) (returning word final) returnInstructions
      fun index ending view => index = 4 ∧ view.world = final ∧ ending = wordEnding env word := by
  intro index instruction hIndex view hView
  obtain ⟨hLess, rfl⟩ := List.getElem?_eq_some_iff.mp hIndex
  have hFive : index < 5 := hLess
  interval_cases index
  · obtain rfl := hView
    exact ⟨by simp, rfl⟩
  · obtain rfl := hView
    refine ⟨0, [word], rfl, word, [], rfl, ?_⟩
    simp [storing, claiming, returning]
  · obtain rfl := hView
    exact ⟨by simp, rfl⟩
  · obtain rfl := hView
    exact ⟨by simp, rfl⟩
  · obtain rfl := hView
    refine ⟨0, [32], rfl, 32, [], rfl, ?_⟩
    have hOutput := map_overwrite (fun _ => 0) 0 (spell 32 word)
    rw [length_spell] at hOutput
    simp only [claiming, finishing, wordEnding]
    by_cases hMalloc : env.malloc 32 = none
    · simp [hMalloc]
    · simp [hMalloc, loading, hOutput]

/-- With the gas for all its instructions the code returns the word of its block, in the
world that the block leaves. -/
theorem word_returned {slots word : Nat} {world final : HostWorld State} {block : List UInt8}
    (hProduces : Produces env slots world block word final) (hSlots : slots ≤ 1024)
    (hCode : env.code = block ++ returnWord) (hLength : env.code.length < 2 ^ 64)
    (hGas : 0 ≤ env.msg.gas) (hSupplied : Supplied env) :
    ∃ result machine, execute env world = .ok (result, machine) ∧
      ((decode block).length + 5 ≤ env.msg.gas.toInt.toNat →
        machine.world = final ∧
        result = (wordEnding env word).report env
          (Int64.ofNat (env.msg.gas.toInt.toNat - ((decode block).length + 5)))) ∧
      (env.msg.gas.toInt.toNat < (decode block).length + 5 →
        result = makeResult .outOfGas 0 0) := by
  have hDerives : Derives (rules env) (· = { world }) (decode block)
      (· = { stack := [word], world := final }) fun _ _ => False :=
    hProduces.derives (by simpa using hSlots)
  obtain ⟨asserts, hBlock, hStart, hEnd⟩ := hDerives.outline
  have hOutline := hBlock.append (return_outline word final) hEnd
  have hDecode : decode env.code = decode block ++ returnInstructions := by
    rw [hCode, decode_append hProduces.whole, decode_returnWord]
  have hCount : (decode env.code).length = (decode block).length + 5 := by
    rw [hDecode, List.length_append]
    rfl
  rw [← hDecode] at hOutline
  obtain ⟨result, machine, view, hExecute, hWorld, hEnds⟩ :=
    execute_outline hLength hGas hSupplied hOutline
      (joined_start (hEnd _) (hStart { world } rfl))
  refine ⟨result, machine, hExecute, ?_⟩
  rw [hCount] at hEnds
  cases hEnds with
  | behind hEnough hView =>
      rw [joined_end] at hView
      exact hView.elim
  | @inside index ending hLess hEnded =>
      by_cases hInside : index < (decode block).length
      · rw [joined, if_pos hInside] at hEnded
        exact hEnded.elim
      · rw [joined, if_neg hInside] at hEnded
        obtain ⟨hLast, hFinal, rfl⟩ := hEnded
        have hLeft : env.msg.gas.toInt.toNat - index - 1 =
            env.msg.gas.toInt.toNat - ((decode block).length + 5) := by omega
        rw [hLeft]
        exact ⟨fun _ => ⟨hWorld.trans hFinal, rfl⟩, fun hFew => absurd hFew (by omega)⟩
  | outOfGas hLess hView =>
      have hFew : ¬(decode block).length + 5 ≤ env.msg.gas.toInt.toNat := Nat.not_le_of_lt hLess
      exact ⟨fun hEnough => absurd hEnough hFew, fun _ => by simp [Ending.report]⟩

/-- `mstore(0, calldataload(2)) return(0, msize())` on a short input. -/
theorem word_returned_calldata :
    ∃ result machine,
      execute (testEnvironment 7 ([0x60, 0x02, 0x35] ++ returnWord) [0x44, 0x44, 0x01]) testWorld =
        .ok (result, machine) ∧
      result.gasLeft = 0 ∧ result.output = 0x01 :: List.replicate 31 0 := by
  have hPush : Produces (testEnvironment 7 ([0x60, 0x02, 0x35] ++ returnWord) [0x44, 0x44, 0x01]) 1
      testWorld [0x60, 0x02] 2 testWorld := .push (by decide) (by decide)
  obtain ⟨result, machine, hExecute, hEnough, _⟩ :=
    word_returned hPush.calldataload (by decide) rfl (by decide) (by decide)
      (testEnvironment_supplied ..)
  obtain ⟨_, rfl⟩ := hEnough (by decide)
  exact ⟨_, machine, hExecute, by decide +kernel, by decide +kernel⟩

end Qrvmc.ExampleVm
