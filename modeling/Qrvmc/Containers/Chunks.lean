import Mathlib.Data.List.Basic

/-! Reading a byte source in chunks. A reader copies from an offset into a buffer and
tells how much it copied. Reading on until nothing is copied gives the contents from
the first offset on, whatever the sizes of the buffers are. -/
namespace Containers
universe u v
variable {State : Type u} {Item : Type v}

/-- What an access to arrays by index and size does wrong. -/
inductive CopyFault where
  | underflow
  | sourceBounds
  | targetBounds
  deriving DecidableEq

/-- Subtraction of sizes. -/
def checkedSub (a b : Nat) : Except CopyFault Nat :=
  if b ≤ a then .ok (a - b) else .error .underflow

/-- `std::copy_n` from an index of the source to the start of the target. -/
def checkedCopy (source : List Item) (start count : Nat) (target : List Item) :
    Except CopyFault (List Item) :=
  if start + count ≤ source.length then
    if count ≤ target.length then .ok ((source.drop start).take count ++ target.drop count)
    else .error .targetBounds
  else .error .sourceBounds

/-- A call gets an offset and a buffer, and returns a count and the buffer it leaves. -/
abbrev Reader (State : Type u) (Item : Type v) := State → Nat → List Item → State × Nat × List Item

/-- Call the reader with one buffer after the other until it returns zero. The chunks
are what it copied, unless the buffers run out first. -/
def readChunks (reader : Reader State Item) :
    List (List Item) → State → Nat → State × Option (List (List Item))
  | [], state, _ => (state, none)
  | buffer :: rest, state, offset =>
      let (state, count, filled) := reader state offset buffer
      if count = 0 then (state, some [])
      else
        let (state, chunks) := readChunks reader rest state (offset + count)
        (state, chunks.map fun chunks => filled.take count :: chunks)

/-- From the states in question the reader copies from the contents what fits, keeps
the rest of the buffer, and stays in these states. -/
structure ReadsFrom (reader : Reader State Item) (states : State → Prop) (contents : List Item) :
    Prop where
  keeps : ∀ state offset buffer, states state → states (reader state offset buffer).1
  count : ∀ state offset buffer, states state →
    (reader state offset buffer).2.1 = min buffer.length (contents.length - offset)
  filled : ∀ state offset buffer, states state → (reader state offset buffer).2.2 =
    (contents.drop offset).take (reader state offset buffer).2.1 ++
      buffer.drop (reader state offset buffer).2.1

variable {reader : Reader State Item} {states : State → Prop} {contents : List Item}

/-- The chunk that a call copies. -/
theorem ReadsFrom.chunk (h : ReadsFrom reader states contents) {state : State}
    (hState : states state) (offset : Nat) (buffer : List Item) :
    (reader state offset buffer).2.2.take (reader state offset buffer).2.1 =
      (contents.drop offset).take (reader state offset buffer).2.1 := by
  have hCount := h.count state offset buffer hState
  rw [h.filled state offset buffer hState]
  apply List.take_left'
  rw [List.length_take, List.length_drop]
  omega

/-- The bytes of the buffer beyond the returned count stay. -/
theorem ReadsFrom.untouched (h : ReadsFrom reader states contents) {state : State}
    (hState : states state) (offset : Nat) (buffer : List Item) :
    (reader state offset buffer).2.2.drop (reader state offset buffer).2.1 =
      buffer.drop (reader state offset buffer).2.1 := by
  have hCount := h.count state offset buffer hState
  rw [h.filled state offset buffer hState]
  apply List.drop_left'
  rw [List.length_take, List.length_drop]
  omega

/-- The buffers hold the given number of items, and one is left to see the end. -/
def Enough (size : Nat) (buffers : List (List Item)) : Prop :=
  buffers ≠ [] ∧ size ≤ buffers.dropLast.flatten.length

/-- One more buffer than items is always enough if no buffer is empty. -/
theorem enough_of_length {size : Nat} {buffers : List (List Item)}
    (hSome : ∀ buffer ∈ buffers, buffer ≠ []) (hLength : size < buffers.length) :
    Enough size buffers := by
  refine ⟨List.ne_nil_of_length_pos (by omega), ?_⟩
  have hEach (few : List (List Item)) (hFew : ∀ buffer ∈ few, buffer ≠ []) :
      few.length ≤ few.flatten.length := by
    induction few with
    | nil => exact Nat.le_refl 0
    | cons buffer rest ih =>
        have hBuffer := List.length_pos_iff.mpr (hFew buffer (List.mem_cons_self ..))
        have hRest := ih fun other hOther => hFew other (List.mem_cons_of_mem _ hOther)
        rw [List.flatten_cons, List.length_append, List.length_cons]
        omega
  have hInit := hEach buffers.dropLast fun buffer hBuffer =>
    hSome buffer (List.dropLast_subset buffers hBuffer)
  rw [List.length_dropLast] at hInit
  omega

/-- The chunks make up the contents from the offset on. -/
theorem ReadsFrom.readChunks_flatten (h : ReadsFrom reader states contents)
    {buffers : List (List Item)} (hSome : ∀ buffer ∈ buffers, buffer ≠ []) {state : State}
    (hState : states state) {offset : Nat} (hEnough : Enough (contents.length - offset) buffers) :
    ∃ final chunks, readChunks reader buffers state offset = (final, some chunks) ∧
      chunks.flatten = contents.drop offset ∧ states final := by
  induction buffers generalizing state offset with
  | nil => exact absurd rfl hEnough.1
  | cons buffer rest ih =>
      have hKeeps := h.keeps state offset buffer hState
      have hCount := h.count state offset buffer hState
      have hChunk := h.chunk hState offset buffer
      have hBuffer := List.length_pos_iff.mpr (hSome buffer (List.mem_cons_self ..))
      rw [readChunks]
      generalize reader state offset buffer = outcome at hKeeps hCount hChunk ⊢
      obtain ⟨next, count, filled⟩ := outcome
      simp only at hKeeps hCount hChunk ⊢
      by_cases hZero : count = 0
      · refine ⟨next, [], if_pos hZero, ?_, hKeeps⟩
        rw [List.drop_eq_nil_of_le (by omega)]
        rfl
      · have hRest : Enough (contents.length - (offset + count)) rest := by
          obtain ⟨_, hSize⟩ := hEnough
          cases rest with
          | nil =>
              simp at hSize
              omega
          | cons second rest =>
              refine ⟨List.cons_ne_nil _ _, ?_⟩
              rw [List.dropLast_cons_cons, List.flatten_cons, List.length_append] at hSize
              omega
        obtain ⟨final, chunks, hRun, hFlatten, hFinal⟩ :=
          ih (fun other hOther => hSome other (List.mem_cons_of_mem _ hOther)) hKeeps hRest
        refine ⟨final, filled.take count :: chunks, ?_, ?_, hFinal⟩
        · rw [if_neg hZero, hRun]
          rfl
        · rw [List.flatten_cons, hFlatten, hChunk, ← List.drop_drop, List.take_append_drop]

end Containers
