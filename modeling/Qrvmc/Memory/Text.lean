import Mathlib.Algebra.Group.Defs
import Mathlib.Data.List.TakeWhile

/-! Terminated texts in blocks of memory. A text is a list of cells without the
terminator, which is zero, and its tokens are what stands between the occurrences of a
delimiter. A block holds a text at a position when the text and a terminator start there.
Reads and writes outside the block give nothing. -/
namespace Memory
universe u
variable {Cell : Type u} [Zero Cell]

structure Text (Cell : Type u) [Zero Cell] where
  chars : List Cell
  noNul : 0 ∉ chars

namespace Text

@[ext] theorem ext {first second : Text Cell} (h : first.chars = second.chars) :
    first = second := by
  cases first
  cases second
  congr 1

def length (t : Text Cell) : Nat := t.chars.length

def take (t : Text Cell) (count : Nat) : Text Cell :=
  ⟨t.chars.take count, fun h => t.noNul (List.mem_of_mem_take h)⟩

def drop (t : Text Cell) (count : Nat) : Text Cell :=
  ⟨t.chars.drop count, fun h => t.noNul (List.mem_of_mem_drop h)⟩

def append (first second : Text Cell) : Text Cell :=
  ⟨first.chars ++ second.chars, fun h => (List.mem_append.mp h).elim first.noNul second.noNul⟩

/-- A text with another cell at an index. -/
def set (t : Text Cell) (index : Nat) {cell : Cell} (hCell : cell ≠ 0) : Text Cell :=
  ⟨t.chars.set index cell, fun h => (List.mem_or_eq_of_mem_set h).elim t.noNul
    fun hZero => hCell hZero.symm⟩

@[simp] theorem length_set (t : Text Cell) (index : Nat) {cell : Cell} (hCell : cell ≠ 0) :
    (t.set index hCell).length = t.length := List.length_set ..

theorem set_chars (t : Text Cell) {index : Nat} {cell : Cell} (hCell : cell ≠ 0)
    (hIndex : index < t.length) :
    (t.set index hCell).chars = t.chars.take index ++ [cell] ++ (t.drop (index + 1)).chars := by
  change t.chars.set index cell = _
  rw [List.set_eq_take_append_cons_drop, if_pos (show index < t.chars.length from hIndex),
    List.append_assoc]
  rfl

variable [DecidableEq Cell]

/-- The part before the first occurrence of a cell, or all of the text. -/
def before (t : Text Cell) (cell : Cell) : Text Cell := t.take (t.chars.idxOf cell)

/-- The part after the first occurrence of a cell, or nothing. -/
def after (t : Text Cell) (cell : Cell) : Text Cell := t.drop (t.chars.idxOf cell + 1)

theorem before_chars (t : Text Cell) (cell : Cell) :
    (t.before cell).chars = t.chars.takeWhile (· ≠ cell) := by
  simp [before, take, List.takeWhile_eq_take_findIdx_not, List.idxOf, Bool.beq_eq_decide_eq]

theorem length_before_le (t : Text Cell) (cell : Cell) : (t.before cell).length ≤ t.length :=
  List.length_take_le' ..

theorem length_after_lt {t : Text Cell} (h : t.chars ≠ []) (cell : Cell) :
    (t.after cell).length < t.length := by
  have hPos := List.length_pos_iff.mpr h
  have hLength : (t.after cell).length = t.length - (t.chars.idxOf cell + 1) :=
    List.length_drop ..
  unfold length at *
  omega

theorem not_mem_before (t : Text Cell) (cell : Cell) : cell ∉ (t.before cell).chars := by
  intro hCell
  rw [before_chars] at hCell
  simpa using List.mem_takeWhile_imp hCell

theorem before_of_not_mem {t : Text Cell} {cell : Cell} (h : cell ∉ t.chars) :
    t.before cell = t := by
  apply Text.ext
  simp [before, take, List.idxOf_eq_length h]

theorem after_of_not_mem {t : Text Cell} {cell : Cell} (h : cell ∉ t.chars) :
    (t.after cell).chars = [] := by
  simp [after, drop, List.idxOf_eq_length h]

/-- A text with the cell in it is its two parts with the cell between them. -/
theorem chars_eq_of_mem {t : Text Cell} {cell : Cell} (h : cell ∈ t.chars) :
    t.chars = (t.before cell).chars ++ cell :: (t.after cell).chars := by
  have hIndex := List.idxOf_lt_length_of_mem h
  have hCell : cell = t.chars[t.chars.idxOf cell] := (List.getElem_idxOf hIndex).symm
  calc t.chars = t.chars.take (t.chars.idxOf cell) ++ t.chars.drop (t.chars.idxOf cell) :=
        (List.take_append_drop ..).symm
    _ = _ := by
        rw [List.drop_eq_getElem_cons hIndex, ← hCell]
        rfl

/-- What stands between the delimiters, without a final empty part. -/
def tokens (t : Text Cell) (delim : Cell) : List (List Cell) :=
  let parts := t.chars.splitOn delim
  if parts.getLast? = some [] then parts.dropLast else parts

theorem tokens_of_empty {t : Text Cell} (h : t.chars = []) (delim : Cell) :
    t.tokens delim = [] := by
  simp [tokens, h]

/-- Tokens can be taken one by one from the front. -/
theorem tokens_of_nonempty {t : Text Cell} (h : t.chars ≠ []) (delim : Cell) :
    t.tokens delim = (t.before delim).chars :: (t.after delim).tokens delim := by
  unfold tokens
  rcases Decidable.em (delim ∈ t.chars) with hDelim | hNone
  · have hSplit : t.chars.splitOn delim =
        (t.before delim).chars :: (t.after delim).chars.splitOn delim := by
      rw [chars_eq_of_mem hDelim]
      exact List.splitOn_append_cons_self_of_not_mem (not_mem_before t delim) _
    have hNonempty := List.splitOn_ne_nil delim (t.after delim).chars
    simp only [hSplit, List.getLast?_cons_of_ne_nil hNonempty,
      List.dropLast_cons_of_ne_nil hNonempty]
    split <;> rfl
  · have hSplit : t.chars.splitOn delim = [t.chars] := List.splitOn_eq_singleton hNone
    simp [hSplit, before_of_not_mem hNone, after_of_not_mem hNone, h]

end Text

/-- The cells of a block have the text and a terminator from the position on. -/
def Holds (block : List Cell) (pos : Nat) (t : Text Cell) : Prop :=
  ∃ post, block.drop pos = t.chars ++ 0 :: post

namespace Holds

variable {block : List Cell} {pos : Nat} {t : Text Cell}

theorem lt (h : Holds block pos t) : pos + t.length < block.length := by
  obtain ⟨post, hBlock⟩ := h
  have hLength := congrArg List.length hBlock
  simp only [List.length_drop, List.length_append, List.length_cons] at hLength
  unfold Text.length
  omega

/-- A text holds its own tails. -/
theorem drop (h : Holds block pos t) {count : Nat} (hCount : count ≤ t.length) :
    Holds block (pos + count) (t.drop count) := by
  obtain ⟨post, hBlock⟩ := h
  refine ⟨post, ?_⟩
  rw [← List.drop_drop, hBlock, List.drop_append_of_le_length hCount]
  rfl

/-- A text with a cell in it does not start at the terminator of another. -/
theorem apart {other : Text Cell} {start : Nat} (h : Holds block pos t)
    (hOther : Holds block start other) (hStart : pos + t.length ≤ start)
    (hNonempty : other.chars ≠ []) : pos + t.length < start := by
  apply Nat.lt_of_le_of_ne hStart
  intro hEq
  obtain ⟨post, hBlock⟩ := h
  obtain ⟨post', hBlock'⟩ := hOther
  obtain ⟨cell, rest, hChars⟩ := List.exists_cons_of_ne_nil hNonempty
  rw [← hEq, ← List.drop_drop, hBlock, Text.length, List.drop_left, hChars] at hBlock'
  apply other.noNul
  rw [(List.cons.inj hBlock').1, hChars]
  exact List.mem_cons_self ..

/-- A terminator alone is the empty text. -/
theorem of_terminator {block : List Cell} {pos : Nat} (hPos : pos < block.length) {t : Text Cell}
    (hEmpty : t.chars = []) : Holds (block.set pos 0) pos t := by
  refine ⟨block.drop (pos + 1), ?_⟩
  rw [List.drop_set, if_neg (Nat.lt_irrefl pos), Nat.sub_self, List.drop_eq_getElem_cons hPos,
    List.set_cons_zero, hEmpty, List.nil_append]

/-- Writing a terminator into a text, or over its own, leaves what stands before. -/
theorem cut (h : Holds block pos t) {count : Nat} (hCount : count ≤ t.length) :
    Holds (block.set (pos + count) 0) pos (t.take count) := by
  obtain ⟨post, hBlock⟩ := h
  refine ⟨((t.chars ++ 0 :: post).drop (count + 1)), ?_⟩
  have hLength : count < (t.chars ++ 0 :: post).length := by
    rw [List.length_append, List.length_cons]
    unfold Text.length at hCount
    omega
  rw [← List.set_drop, hBlock, List.set_eq_take_append_cons_drop, if_pos hLength,
    List.take_append_of_le_length hCount]
  rfl

/-- A text up to a cell that is overwritten. -/
theorem take_set (h : Holds block pos t) {count : Nat} (hCount : count < t.length) (cell : Cell) :
    ((block.set (pos + count) cell).drop pos).take (count + 1) =
      t.chars.take count ++ [cell] := by
  obtain ⟨post, hBlock⟩ := h
  have hLength : (t.chars.take count).length = count := List.length_take_of_le (Nat.le_of_lt hCount)
  rw [← List.set_drop, hBlock, List.set_append, if_pos (show count < t.chars.length from hCount),
    List.set_eq_take_append_cons_drop, if_pos (show count < t.chars.length from hCount),
    List.append_assoc, List.take_append, hLength, List.take_of_length_le (by omega)]
  simp

/-- Cells in front of a text make a longer text with it. -/
theorem prepend {chars : List Cell} {whole : Text Cell}
    (hChars : (block.drop pos).take chars.length = chars)
    (h : Holds block (pos + chars.length) t) (hWhole : whole.chars = chars ++ t.chars) :
    Holds block pos whole := by
  obtain ⟨post, hBlock⟩ := h
  refine ⟨post, ?_⟩
  calc block.drop pos
      = (block.drop pos).take chars.length ++ (block.drop pos).drop chars.length :=
        (List.take_append_drop ..).symm
    _ = chars ++ (t.chars ++ 0 :: post) := by rw [hChars, List.drop_drop, hBlock]
    _ = whole.chars ++ 0 :: post := by rw [hWhole, List.append_assoc]

/-- A text with one cell overwritten, when what follows that cell became another text
and what stands before it stayed. -/
theorem overwrite (h : Holds block pos t) {later : List Cell} {rest whole : Text Cell}
    {count : Nat} (hCount : count < t.length) {cell : Cell}
    (hFrame : later.take (pos + count + 1) = (block.set (pos + count) cell).take (pos + count + 1))
    (hRest : Holds later (pos + count + 1) rest)
    (hWhole : whole.chars = t.chars.take count ++ [cell] ++ rest.chars) :
    Holds later pos whole := by
  have hLength : (t.chars.take count ++ [cell]).length = count + 1 := by
    rw [List.length_append, List.length_take_of_le (Nat.le_of_lt hCount)]
    rfl
  have hSwap (cells : List Cell) :
      (cells.drop pos).take (count + 1) = (cells.take (pos + count + 1)).drop pos := by
    rw [List.drop_take, Nat.add_assoc, Nat.add_sub_cancel_left]
  have hHead : (later.drop pos).take (count + 1) = t.chars.take count ++ [cell] := by
    rw [hSwap, hFrame, ← hSwap]
    exact h.take_set hCount cell
  exact Holds.prepend (by rw [hLength]; exact hHead) (by rw [hLength]; exact hRest) hWhole

/-- A write before the text does not concern it. -/
theorem set_before (h : Holds block pos t) {index : Nat} (hIndex : index < pos) (cell : Cell) :
    Holds (block.set index cell) pos t := by
  obtain ⟨post, hBlock⟩ := h
  exact ⟨post, by rw [List.drop_set_of_lt hIndex, hBlock]⟩

/-- Neither does a write after its terminator. -/
theorem set_after (h : Holds block pos t) {index : Nat} (hIndex : pos + t.length < index)
    (cell : Cell) : Holds (block.set index cell) pos t := by
  obtain ⟨post, hBlock⟩ := h
  obtain ⟨offset, rfl⟩ := Nat.exists_eq_add_of_lt hIndex
  refine ⟨post.set offset cell, ?_⟩
  have hSplit : pos + t.length + offset + 1 = pos + (t.length + (offset + 1)) := by omega
  rw [hSplit, ← List.set_drop, hBlock, List.set_append, if_neg (by unfold Text.length; omega)]
  simp [Text.length]

/-- A write into a text that does not end it. -/
theorem set_inside (h : Holds block pos t) {index : Nat} (hIndex : index < t.length) {cell : Cell}
    (hCell : cell ≠ 0) : Holds (block.set (pos + index) cell) pos (t.set index hCell) := by
  have hRest : Holds (block.set (pos + index) cell) (pos + index + 1) (t.drop (index + 1)) :=
    (h.drop hIndex).set_before (Nat.lt_succ_self _) cell
  exact h.overwrite hIndex rfl hRest (t.set_chars hCell hIndex)

end Holds

variable {n : Nat}

def store (block : Vector Cell n) (pos : Nat) (cell : Cell) : Option (Vector Cell n) :=
  if h : pos < n then some (block.set pos cell) else none

def memcpy (block : Vector Cell n) (pos : Nat) (cells : List Cell) : Option (Vector Cell n) :=
  if h : pos + cells.length ≤ n then
    some ⟨(block.toList.take pos ++ cells ++ block.toList.drop (pos + cells.length)).toArray,
      by simp; omega⟩
  else none

omit [Zero Cell] in
theorem store_eq {block : Vector Cell n} {pos : Nat} (h : pos < n) (cell : Cell) :
    store block pos cell = some (block.set pos cell) := dif_pos h

/-- Copying a text and terminating it makes the block hold it. The cells before
it are as they were. -/
theorem store_memcpy (block : Vector Cell n) (pos : Nat) (t : Text Cell)
    (hFits : pos + t.length < n) :
    ∃ copied written, memcpy block pos t.chars = some copied ∧
      store copied (pos + t.length) 0 = some written ∧
      Holds written.toList pos t ∧ written.toList.take pos = block.toList.take pos := by
  have hPos : (block.toList.take pos).length = pos := by
    rw [List.length_take, Vector.length_toList]
    omega
  have hHead : (block.toList.take pos ++ t.chars).length = pos + t.length := by
    rw [List.length_append, List.length_take, Vector.length_toList, Nat.min_eq_left (by omega)]
    rfl
  have hCell : pos + t.length < block.toList.length := by
    rw [Vector.length_toList]
    exact hFits
  have hCells : (block.toList.take pos ++ t.chars ++ block.toList.drop (pos + t.length)).set
      (pos + t.length) 0 = block.toList.take pos ++
        (t.chars ++ 0 :: block.toList.drop (pos + t.length + 1)) := by
    rw [List.drop_eq_getElem_cons hCell, List.set_append, if_neg (by omega), hHead, Nat.sub_self,
      List.set_cons_zero, List.append_assoc]
  refine ⟨_, _, dif_pos (Nat.le_of_lt hFits), store_eq hFits 0,
    ⟨block.toList.drop (pos + t.length + 1), ?_⟩, ?_⟩
  · rw [Vector.toList_set]
    exact (congrArg (List.drop pos) hCells).trans (List.drop_left' hPos)
  · rw [Vector.toList_set]
    exact (congrArg (List.take pos) hCells).trans (List.take_left' hPos)

variable [DecidableEq Cell]

/-- The text that starts at a position, as far as the first terminator. -/
def textAt (block : Vector Cell n) (pos : Nat) : Option (Text Cell) :=
  if 0 ∈ block.toList.drop pos then
    some ⟨(block.toList.drop pos).takeWhile (· ≠ 0), fun h => by
      simpa using List.mem_takeWhile_imp h⟩
  else none

theorem takeWhile_terminated {chars : List Cell} (h : 0 ∉ chars)
    (post : List Cell) : (chars ++ 0 :: post).takeWhile (· ≠ 0) = chars := by
  rw [List.takeWhile_append_of_pos
    (by intro cell hCell; simpa using fun hZero : cell = 0 => h (hZero ▸ hCell))]
  simp

theorem textAt_eq_some_iff (block : Vector Cell n) (pos : Nat) (t : Text Cell) :
    textAt block pos = some t ↔ Holds block.toList pos t := by
  constructor
  · intro hText
    by_cases hNul : 0 ∈ block.toList.drop pos
    · obtain ⟨first, post, hBlock, hFirst⟩ := List.eq_append_cons_of_mem hNul
      rw [textAt, if_pos hNul, Option.some.injEq, Text.ext_iff] at hText
      change (block.toList.drop pos).takeWhile (· ≠ 0) = t.chars at hText
      rw [hBlock, takeWhile_terminated hFirst] at hText
      exact ⟨post, by rw [hBlock, hText]⟩
    · rw [textAt, if_neg hNul] at hText
      cases hText
  · intro ⟨post, hBlock⟩
    have hNul : 0 ∈ block.toList.drop pos := by
      rw [hBlock]
      exact List.mem_append_right _ (List.mem_cons_self ..)
    rw [textAt, if_pos hNul, Option.some.injEq, Text.ext_iff]
    change (block.toList.drop pos).takeWhile (· ≠ 0) = t.chars
    rw [hBlock, takeWhile_terminated t.noNul]

theorem Holds.textAt {block : Vector Cell n} {pos : Nat} {t : Text Cell}
    (h : Holds block.toList pos t) : textAt block pos = some t :=
  (textAt_eq_some_iff block pos t).mpr h

/-- The position of the first occurrence of a cell in the text at a position. -/
def strchr (block : Vector Cell n) (pos : Nat) (cell : Cell) : Option (Option Nat) :=
  (textAt block pos).map fun t =>
    if cell ∈ t.chars then some (pos + t.chars.idxOf cell) else none

theorem Holds.strchr {block : Vector Cell n} {pos : Nat} {t : Text Cell}
    (h : Holds block.toList pos t) (cell : Cell) :
    strchr block pos cell =
      some (if cell ∈ t.chars then some (pos + t.chars.idxOf cell) else none) := by
  rw [Memory.strchr, h.textAt]
  rfl

/-- The position of the last occurrence of a cell in a text. -/
def strrchr (t : Text Cell) (cell : Cell) : Option Nat :=
  if cell ∈ t.chars then some (t.length - 1 - t.chars.reverse.idxOf cell) else none

/-- Whether two texts agree on their first cells. -/
def strncmp (first second : Text Cell) (count : Nat) : Bool :=
  first.chars.take count == second.chars.take count

end Memory
