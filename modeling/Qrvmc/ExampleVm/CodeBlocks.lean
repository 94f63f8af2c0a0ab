import Qrvmc.ExampleVm.CodeBounds
import Qrvmc.ExampleVm.RunMeaning

/-! Codes made of blocks. A block whose last instruction is whole is decoded by itself, so
the code runs its blocks one after the other. What follows an instruction that always
ends the run makes no difference. -/
namespace Qrvmc.ExampleVm
open Semantics

variable {State : Type} {env : Environment State}

/-- The instructions before and after the end of a whole block do not mix. -/
theorem decodeFrom_append {skip : Nat} {first second : List UInt8} (hWhole : Whole skip first) :
    decodeFrom skip (first ++ second) = decodeFrom skip first ++ decode second := by
  induction first generalizing skip with
  | nil =>
      have hSkip : skip = 0 := by
        cases skip with
        | zero => rfl
        | succ skip => exact hWhole
      subst hSkip
      rfl
  | cons opcode rest ih =>
      cases skip with
      | succ skip => exact ih hWhole
      | zero =>
          have hRest : pushSize opcode ≤ rest.length := ((whole_iff (pushSize opcode) rest).mp hWhole).1
          have hSame : instruction opcode (rest ++ second) = instruction opcode rest := by
            have hPush : pushInstruction opcode (rest ++ second) = pushInstruction opcode rest := by
              rw [pushInstruction, pushInstruction, List.length_append, if_pos (by omega),
                if_pos hRest, List.take_append_of_le_length hRest]
            simp only [instruction, hPush]
          rw [List.cons_append, decodeFrom, decodeFrom, hSame, ih hWhole, List.cons_append]

theorem decode_append {first second : List UInt8} (hWhole : Whole 0 first) :
    decode (first ++ second) = decode first ++ decode second := decodeFrom_append hWhole

namespace Meaning

/-- A block of instructions: what it leaves for the code after it, or how it ends the run. -/
def block (env : Environment State) : List Instruction → Nat → View State →
    Except Fault ((Nat × View State) ⊕ (ExecutionResult × HostWorld State))
  | [], gas, view => .ok (.inl (gas, view))
  | _ :: _, 0, view => .ok (.inr (Ending.report env 0 { statusCode := .outOfGas }, view.world))
  | instruction :: rest, gas + 1, view =>
      match perform env instruction view with
      | .error fault => .error fault
      | .ok (some ending, view) => .ok (.inr (ending.report env (Int64.ofNat gas), view.world))
      | .ok (none, view) => block env rest gas view

/-- Go on behind a block with what it leaves. -/
def andThen (env : Environment State) (second : List Instruction)
    (outcome : Except Fault ((Nat × View State) ⊕ (ExecutionResult × HostWorld State))) :
    Except Fault (ExecutionResult × HostWorld State) :=
  match outcome with
  | .error fault => .error fault
  | .ok (.inr ended) => .ok ended
  | .ok (.inl (gas, view)) => run env second gas view

theorem run_append (first second : List Instruction) (gas : Nat) (view : View State) :
    run env (first ++ second) gas view = andThen env second (block env first gas view) := by
  induction first generalizing gas view with
  | nil => rfl
  | cons instruction rest ih =>
      cases gas with
      | zero => rfl
      | succ gas =>
          rw [List.cons_append, run, block]
          cases hPerform : perform env instruction view with
          | error fault => rfl
          | ok answer =>
              obtain ⟨ending, next⟩ := answer
              cases ending with
              | some ending => rfl
              | none => exact ih gas next

/-- A block that ends with an instruction that does not go on leaves nothing to go on. -/
theorem block_ends {last : Instruction}
    (hLast : ∀ view next, perform env last view ≠ .ok (none, next)) (first : List Instruction)
    (gas : Nat) (view : View State) (left : Nat × View State) :
    block env (first ++ [last]) gas view ≠ .ok (.inl left) := by
  induction first generalizing gas view with
  | nil =>
      cases gas with
      | zero => exact fun h => by cases h
      | succ gas =>
          rw [List.nil_append, block]
          split
          · exact fun h => by cases h
          · exact fun h => by cases h
          · rename_i next hPerform
            exact absurd hPerform (hLast view next)
  | cons instruction rest ih =>
      cases gas with
      | zero => exact fun h => by cases h
      | succ gas =>
          rw [List.cons_append, block]
          split
          · exact fun h => by cases h
          · exact fun h => by cases h
          · exact ih gas _

theorem run_withCode (code : List UInt8) (instructions : List Instruction) (gas : Nat)
    (view : View State) :
    run { env with code } instructions gas view = run env instructions gas view := by
  induction instructions generalizing gas view with
  | nil => rfl
  | cons instruction rest ih =>
      cases gas with
      | zero => rfl
      | succ gas =>
          have hPerform : perform { env with code } instruction = perform env instruction := by
            cases instruction with
            | _ => rfl
          rw [run, run, hPerform]
          simp only [ih]
          rfl

end Meaning

/-- The opcodes that end the run in any case. -/
def EndsRun (opcode : UInt8) : Prop :=
  instruction opcode [] = .stop ∨ instruction opcode [] = .output .success ∨
    instruction opcode [] = .output .revert ∨ instruction opcode [] = .undefined

theorem instruction_push {opcode : UInt8} (hPush : IsPush opcode) (rest : List UInt8) :
    instruction opcode rest = pushInstruction opcode rest := by
  have hLow : ∀ other : UInt8, other < 0x60 → opcode ≠ other := by
    rintro other hOther rfl
    exact absurd hPush.1 (UInt8.not_le.mpr hOther)
  unfold instruction
  rw [if_neg (hLow 0x00 (by decide)), if_neg (hLow 0x01 (by decide)),
    if_neg (hLow 0x30 (by decide)), if_neg (hLow 0x35 (by decide)), if_neg (hLow 0x43 (by decide)),
    if_neg (hLow 0x52 (by decide)), if_neg (hLow 0x54 (by decide)), if_neg (hLow 0x55 (by decide)),
    if_neg (hLow 0x59 (by decide)), if_pos hPush]

theorem not_push_of_endsRun {opcode : UInt8} (hEnds : EndsRun opcode) : ¬IsPush opcode := by
  intro hPush
  have hSize := (pushSize_pos hPush).1
  have hCut : instruction opcode [] = .cutOff := by
    rw [instruction_push hPush, pushInstruction, if_neg (by simp; omega)]
  rw [EndsRun, hCut] at hEnds
  simp at hEnds

/-- Only a push depends on the bytes after its opcode. -/
theorem decode_endsRun {opcode : UInt8} (hEnds : EndsRun opcode) (rest : List UInt8) :
    decode (opcode :: rest) = instruction opcode [] :: decode rest := by
  have hPush := not_push_of_endsRun hEnds
  have hSame : instruction opcode rest = instruction opcode [] := by
    simp only [instruction, if_neg hPush]
  rw [decode_cons, hSame, pushSize_of_not hPush, List.drop_zero]

/-- The output instructions end the run also where the region is refused. -/
theorem ends_output (statusCode : StatusCode) :
    Triple (fun _ => False) (fun _ => True) (Meaning.perform env (.output statusCode))
      (fun ending _ => ending ≠ none) := by
  have hAny : ∀ {Value : Type} (program : Meaning State Value),
      Triple (fun _ => False) (fun _ => True) program fun _ _ => True :=
    fun program => Triple.any fun _ _ => trivial
  have hSome : ∀ ending : Ending, Triple (fun _ => False) (fun _ => True)
      (pure (some ending) : Meaning State (Option Ending)) fun ending _ => ending ≠ none :=
    fun ending => Triple.pure fun _ _ hNone => by cases hNone
  unfold Meaning.perform
  apply Triple.bind (hAny _)
  intro offset
  apply Triple.bind (hAny _)
  intro length
  apply Triple.bind (hAny _)
  intro granted
  apply Triple.ite
  · intro _
    exact Triple.bind (hAny _) fun ending => hSome ending
  · intro _
    exact hSome _

theorem perform_ends {opcode : UInt8} (hEnds : EndsRun opcode) (view next : View State) :
    Meaning.perform env (instruction opcode []) view ≠ .ok (none, next) := by
  have hOutput : ∀ statusCode,
      Meaning.perform env (.output statusCode) view ≠ .ok (none, next) := by
    intro statusCode h
    have hSome := @ends_output _ env statusCode view trivial
    rw [h] at hSome
    exact hSome rfl
  rcases hEnds with hStop | hReturn | hRevert | hUndefined
  · rw [hStop]
    exact fun h => by cases h
  · rw [hReturn]
    exact hOutput .success
  · rw [hRevert]
    exact hOutput .revert
  · rw [hUndefined]
    exact fun h => by cases h

/-- The code as a block and a rest: the run of the block, and of the rest on what it
leaves. -/
theorem execute_append {first second : List UInt8} (hCode : env.code = first ++ second)
    (hWhole : Whole 0 first) (hLength : env.code.length < 2 ^ 64) (hGas : 0 ≤ env.msg.gas)
    (hSupplied : Supplied env) (world : HostWorld State) :
    (execute env world).map observed =
      Meaning.andThen env (decode second)
        (Meaning.block env (decode first) env.msg.gas.toInt.toNat { world }) := by
  rw [execute_meaning hLength hGas hSupplied, hCode, decode_append hWhole, Meaning.run_append]

/-- A push before a stop. -/
theorem execute_append_push :
    (execute (testEnvironment 5 ([0x60, 0x07] ++ [0x00]) []) testWorld).map observed =
      Meaning.andThen (testEnvironment 5 ([0x60, 0x07] ++ [0x00]) []) (decode [0x00])
        (Meaning.block (testEnvironment 5 ([0x60, 0x07] ++ [0x00]) []) [.push [0x07]] 5
          { world := testWorld }) :=
  execute_append rfl (show Whole 0 [0x60, 0x07] from rfl) (by decide) (by decide)
    (testEnvironment_supplied ..) testWorld

/-- Whatever bytes follow an opcode that ends the run, the run is the same. -/
theorem code_after_end {first second third : List UInt8} {opcode : UInt8}
    (hWhole : Whole 0 first) (hEnds : EndsRun opcode)
    (hSecond : (first ++ opcode :: second).length < 2 ^ 64)
    (hThird : (first ++ opcode :: third).length < 2 ^ 64) (hGas : 0 ≤ env.msg.gas)
    (hSupplied : Supplied env) (world : HostWorld State) :
    (execute { env with code := first ++ opcode :: second } world).map observed =
      (execute { env with code := first ++ opcode :: third } world).map observed := by
  have hBlock : ∀ rest : List UInt8, (first ++ opcode :: rest).length < 2 ^ 64 →
      (execute { env with code := first ++ opcode :: rest } world).map observed =
        Meaning.andThen env [] (Meaning.block env (decode first ++ [instruction opcode []])
          env.msg.gas.toInt.toNat { world }) := by
    intro rest hLength
    have hMeaning := @execute_meaning _ { env with code := first ++ opcode :: rest } hLength hGas
      ⟨hSupplied.input, hSupplied.output⟩ world
    rw [hMeaning, Meaning.run_withCode, decode_append hWhole, decode_endsRun hEnds,
      List.append_cons, Meaning.run_append]
    have hNever := Meaning.block_ends (@perform_ends _ env _ hEnds) (decode first)
      env.msg.gas.toInt.toNat { world }
    cases hOutcome : Meaning.block env (decode first ++ [instruction opcode []])
        env.msg.gas.toInt.toNat { world } with
    | error fault => rfl
    | ok ended =>
        cases ended with
        | inr ended => rfl
        | inl left => exact absurd hOutcome (hNever left)
  rw [hBlock second hSecond, hBlock third hThird]

/-- Data behind a stop. -/
theorem code_after_end_stop :
    (execute { testEnvironment 5 [] [] with code := [0x60, 0x07] ++ 0x00 :: [0x60] }
        testWorld).map observed =
      (execute { testEnvironment 5 [] [] with code := [0x60, 0x07] ++ 0x00 :: [0xde, 0xad] }
        testWorld).map observed :=
  code_after_end (show Whole 0 [0x60, 0x07] from rfl) (Or.inl rfl) (by decide) (by decide) (by decide)
    (testEnvironment_supplied ..) testWorld

end Qrvmc.ExampleVm
