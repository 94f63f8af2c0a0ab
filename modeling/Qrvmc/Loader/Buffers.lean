import Qrvmc.Loader.Loader

/-! What the buffer operations of the loader leave behind. Each stays inside its
buffer, and the texts it is about are held there afterwards. -/
namespace Qrvmc
open Memory

variable {n : Nat}

/-- A source that fits is copied with its terminator. -/
theorem strcpySx_fits (dest : Vector CChar n) (pos destsz : Nat) (src : CText)
    (hSize : pos + destsz ≤ n) (hFits : src.length < destsz) :
    ∃ written, strcpySx dest pos destsz src = .ok (written, 0) ∧
      Holds written.toList pos src ∧ written.toList.take pos = dest.toList.take pos := by
  obtain ⟨copied, written, hCopied, hWritten, hHolds⟩ :=
    store_memcpy dest pos src (by omega)
  refine ⟨written, ?_, hHolds⟩
  simp only [strcpySx, ge_iff_le, Nat.not_le.mpr hFits, ↓reduceIte, hCopied, hWritten, inBounds_some,
    Exec.ok_bind]
  rfl

/-- A source that does not fit leaves the empty text. -/
theorem strcpySx_overflows (dest : Vector CChar n) {pos destsz : Nat} {src : CText}
    (hPos : pos < n) (hLong : destsz ≤ src.length) :
    strcpySx dest pos destsz src = .ok (dest.set pos 0, 1) := by
  simp only [strcpySx, ge_iff_le, hLong, ↓reduceIte, store_eq hPos, inBounds_some,
    Exec.ok_bind]
  rfl

/-- A copy leaves its source where it fits, else the empty text, and keeps what stands
before it. -/
theorem strcpySx_holds (dest : Vector CChar n) {pos destsz : Nat} (src : CText)
    (hSize : pos + destsz ≤ n) (hRoom : 0 < destsz) :
    ∃ copied failed, strcpySx dest pos destsz src = .ok (copied, failed) ∧
      Holds copied.toList pos (if src.length < destsz then src else text "") ∧
      copied.toList.take pos = dest.toList.take pos := by
  split
  · rename_i hFits
    obtain ⟨copied, hCopied, hHolds⟩ := strcpySx_fits dest pos destsz src hSize hFits
    exact ⟨copied, 0, hCopied, hHolds⟩
  · rename_i hLong
    have hPos : pos < n := by omega
    refine ⟨_, 1, strcpySx_overflows dest hPos (Nat.not_lt.mp hLong), ?_, ?_⟩
    · rw [Vector.toList_set]
      exact Holds.of_terminator (by rwa [Vector.length_toList]) rfl
    · rw [Vector.toList_set, List.take_set_of_le (Nat.le_refl pos)]

/-- The buffer shows as much of the output as its size allows. -/
theorem vsnprintf_holds (dest : Vector CChar n) (size : Nat) (output : CText) (hSize : 0 < size)
    (hRoom : size ≤ n) :
    ∃ written, vsnprintf dest size output = .ok (written, output.length) ∧
      Holds written.toList 0 (output.take (size - 1)) := by
  have hLength : (output.take (size - 1)).length ≤ size - 1 := List.length_take_le ..
  obtain ⟨copied, written, hCopied, hWritten, hHolds, _⟩ :=
    store_memcpy dest 0 (output.take (size - 1)) (by omega)
  refine ⟨written, ?_, hHolds⟩
  simp only [vsnprintf, Nat.ne_of_gt hSize, ↓reduceIte, hCopied, hWritten, inBounds_some,
    Exec.ok_bind]
  rfl

/-- A token is cut from the text at the pointer: it holds what stands before the
delimiter, and the slid pointer what stands after. Texts that end before the
pointer or start at the slid one or later are as they were. -/
theorem getToken_holds {block : Vector CChar n} {pos : Nat} {t : CText}
    (h : Holds block.toList pos t) (delim : CChar) :
    ∃ cut next, getToken block pos delim = .ok (cut, next, pos) ∧
      Holds cut.toList pos (t.before delim) ∧ Holds cut.toList next (t.after delim) ∧
      pos + (t.before delim).length ≤ next ∧ next ≤ pos + t.length ∧
      (∀ first other, first + other.length < pos → Holds block.toList first other →
        Holds cut.toList first other) ∧
      ∀ first other, next ≤ first → Holds block.toList first other →
        Holds cut.toList first other := by
  by_cases hDelim : delim ∈ t.chars
  · have hIndex : t.chars.idxOf delim < t.length := List.idxOf_lt_length_of_mem hDelim
    have hPos : pos + t.chars.idxOf delim < n := by
      have hEnd := h.lt
      rw [Vector.length_toList] at hEnd
      omega
    refine ⟨block.set (pos + t.chars.idxOf delim) 0, pos + t.chars.idxOf delim + 1, ?_, ?_⟩
    · simp only [getToken, h.strchr, hDelim, ↓reduceIte, store_eq hPos, inBounds_some, Exec.ok_bind]
      rfl
    · rw [Vector.toList_set]
      refine ⟨h.cut (Nat.le_of_lt hIndex), (h.drop hIndex).set_before (Nat.lt_succ_self _) 0, ?_,
        by omega, fun first other hEnd hOther => hOther.set_after (by omega) 0,
        fun first other hStart hOther => hOther.set_before (by omega) 0⟩
      have hLength : (t.before delim).length ≤ t.chars.idxOf delim := List.length_take_le ..
      omega
  · have hRest : t.after delim = t.drop t.length := by
      apply Text.ext
      rw [Text.after_of_not_mem hDelim]
      exact (List.drop_length ..).symm
    refine ⟨block, pos + t.length, ?_, ?_, ?_, ?_, Nat.le_refl _, fun _ _ _ hOther => hOther,
      fun _ _ _ hOther => hOther⟩
    · simp only [getToken, h.strchr, hDelim, ↓reduceIte, h.textAt, inBounds_some, Exec.ok_bind]
      rfl
    · rw [Text.before_of_not_mem hDelim]
      exact h
    · rw [hRest]
      exact h.drop (Nat.le_refl _)
    · rw [Text.before_of_not_mem hDelim]

end Qrvmc
