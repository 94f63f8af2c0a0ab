import Mathlib.Logic.Function.Basic

/-! Hashes that fold words into a state. When a step loses neither the state nor the
word, a fold tells lists apart that differ in one place only. Xor followed by a
multiplication is such a step if the factor has an inverse. -/
namespace Bytes
universe u v
variable {Hash : Type u} {Word : Type v} {step : Hash → Word → Hash}

/-- The step loses neither of its arguments. -/
structure Lossless (step : Hash → Word → Hash) : Prop where
  state : ∀ word, Function.Injective fun hash => step hash word
  word : ∀ hash, Function.Injective (step hash)

theorem Lossless.foldl_injective (h : Lossless step) (words : List Word) :
    Function.Injective fun hash => words.foldl step hash := by
  induction words with
  | nil => exact fun _ _ hEqual => hEqual
  | cons word rest ih =>
      intro first second hEqual
      exact h.state word (ih hEqual)

/-- Lists of one length that differ in one place only are told apart. -/
theorem Lossless.foldl_ne (h : Lossless step) {first second : List Word} (place : Nat) (hash : Hash)
    (hLength : first.length = second.length)
    (hSame : ∀ i, i ≠ place → first[i]? = second[i]?) (hDiffer : first ≠ second) :
    first.foldl step hash ≠ second.foldl step hash := by
  induction first generalizing second place hash with
  | nil => exact absurd (List.length_eq_zero_iff.mp hLength.symm).symm hDiffer
  | cons word rest ih =>
      cases second with
      | nil => simp at hLength
      | cons other tail =>
          have hTail : rest.length = tail.length := by simpa using hLength
          rw [List.foldl_cons, List.foldl_cons]
          cases place with
          | zero =>
              have hRest : rest = tail := List.ext_getElem? fun i => hSame (i + 1) (by omega)
              subst hRest
              intro hEqual
              have hWord := h.word hash (h.foldl_injective rest hEqual)
              exact hDiffer (by rw [hWord])
          | succ place =>
              have hHead : word = other := by simpa using hSame 0 (by omega)
              subst hHead
              apply ih place (step hash word) hTail
              · intro i hi
                exact hSame (i + 1) (by omega)
              · intro hRest
                exact hDiffer (by rw [hRest])

/-- A factor with an inverse can be cancelled. -/
theorem mul_inverse_injective {factor inverse : UInt64} (h : factor * inverse = 1) :
    Function.Injective fun word : UInt64 => word * factor := by
  intro first second hEqual
  have hCancel (word : UInt64) : word * factor * inverse = word := by
    rw [UInt64.mul_assoc, h, UInt64.mul_one]
  rw [← hCancel first, ← hCancel second]
  exact congrArg (· * inverse) hEqual

theorem lossless_xor_mul {factor inverse : UInt64} (h : factor * inverse = 1) :
    Lossless fun hash word : UInt64 => (hash ^^^ word) * factor where
  state word _ _ hEqual := (UInt64.xor_left_inj word).mp (mul_inverse_injective h hEqual)
  word hash _ _ hEqual := (UInt64.xor_right_inj hash).mp (mul_inverse_injective h hEqual)

/-- Words that are zero in their low halves leave the low half of the hash alone. -/
theorem xor_mul_low {first second : UInt64} (hash factor : UInt64) (hFirst : first.toUInt32 = 0)
    (hSecond : second.toUInt32 = 0) :
    ((hash ^^^ first) * factor).toUInt32 = ((hash ^^^ second) * factor).toUInt32 := by
  rw [UInt64.toUInt32_mul, UInt64.toUInt32_mul, UInt64.toUInt32_xor, UInt64.toUInt32_xor, hFirst,
    hSecond]

/-- Where the first words are zero in their low halves, and the second words in their
high halves, two steps lose neither of the halves. -/
theorem xor_mul_halves {factor inverse : UInt64} (h : factor * inverse = 1)
    {hash first second : UInt64} {low other : UInt32} (hFirst : first.toUInt32 = 0)
    (hSecond : second.toUInt32 = 0)
    (hEqual : ((hash ^^^ first) * factor ^^^ low.toUInt64) * factor =
      ((hash ^^^ second) * factor ^^^ other.toUInt64) * factor) :
    first = second ∧ low = other := by
  have hInner := mul_inverse_injective h hEqual
  have hHalf := congrArg UInt64.toUInt32 hInner
  rw [UInt64.toUInt32_xor, UInt64.toUInt32_xor, xor_mul_low hash factor hFirst hSecond,
    UInt32.toUInt32_toUInt64, UInt32.toUInt32_toUInt64] at hHalf
  have hLow : low = other := (UInt32.xor_right_inj _).mp hHalf
  subst hLow
  have hWords := mul_inverse_injective h ((UInt64.xor_left_inj _).mp hInner)
  exact ⟨(UInt64.xor_right_inj hash).mp hWords, rfl⟩

end Bytes
