import Mathlib.Data.Nat.Digits.Defs
import Mathlib.Tactic.Ring

/-! The integers spelled by byte strings in the two byte orders. Both are
positional numerals in base 256, so the general facts are those of
`Nat.ofDigits`. Strings of one length are told apart by value, and spelling an integer
is inverse to reading it below the bound that the length gives. -/
namespace Bytes

/-- The integer spelled by a byte string, least significant byte first. -/
def leNat (bytes : List UInt8) : Nat := Nat.ofDigits 256 (bytes.map UInt8.toNat)

/-- The integer spelled by a byte string, most significant byte first. -/
def beNat (bytes : List UInt8) : Nat := leNat bytes.reverse

@[simp] theorem leNat_nil : leNat [] = 0 := rfl

@[simp] theorem leNat_cons (byte : UInt8) (rest : List UInt8) :
    leNat (byte :: rest) = byte.toNat + 256 * leNat rest := by
  simp [leNat, Nat.ofDigits_cons]

theorem leNat_append (first second : List UInt8) :
    leNat (first ++ second) = leNat first + 256 ^ first.length * leNat second := by
  simp [leNat, Nat.ofDigits_append]

@[simp] theorem beNat_nil : beNat [] = 0 := rfl

theorem beNat_append (first second : List UInt8) :
    beNat (first ++ second) = beNat first * 256 ^ second.length + beNat second := by
  simp only [beNat, List.reverse_append, leNat_append, List.length_reverse]
  ring

@[simp] theorem beNat_cons (byte : UInt8) (rest : List UInt8) :
    beNat (byte :: rest) = byte.toNat * 256 ^ rest.length + beNat rest := by
  have hSingle : beNat [byte] = byte.toNat := by simp [beNat]
  rw [← List.singleton_append, beNat_append, hSingle]

/-- Leading zeros do not count. -/
theorem beNat_zeros (count : Nat) (bytes : List UInt8) :
    beNat (List.replicate count 0 ++ bytes) = beNat bytes := by
  induction count with
  | zero => rfl
  | succ count ih =>
      rw [List.replicate_succ, List.cons_append, beNat_cons, ih]
      simp

theorem beNat_eq_zero_iff (bytes : List UInt8) : beNat bytes = 0 ↔ ∀ byte ∈ bytes, byte = 0 := by
  induction bytes with
  | nil => simp
  | cons byte rest ih =>
      rw [beNat_cons, Nat.add_eq_zero_iff, ih, List.forall_mem_cons, Nat.mul_eq_zero,
        ← UInt8.toNat_inj]
      simp

/-- Byte strings of one length are told apart by the integers they spell. -/
theorem leNat_inj {first second : List UInt8} (hLength : first.length = second.length)
    (h : leNat first = leNat second) : first = second := by
  induction first generalizing second with
  | nil => exact (List.length_eq_zero_iff.mp hLength.symm).symm
  | cons byte rest ih =>
      cases second with
      | nil => simp at hLength
      | cons other tail =>
          have hByte := byte.toNat_lt
          have hOther := other.toNat_lt
          simp only [leNat_cons] at h
          have hHead : byte = other := UInt8.toNat_inj.mp (by omega)
          have hTail : rest = tail := ih (by simpa using hLength) (by omega)
          rw [hHead, hTail]

theorem beNat_inj {first second : List UInt8} (hLength : first.length = second.length)
    (h : beNat first = beNat second) : first = second := by
  have hReverse : first.reverse.length = second.reverse.length := by
    rw [List.length_reverse, List.length_reverse, hLength]
  exact List.reverse_inj.mp (leNat_inj hReverse h)

/-- Appending one byte below a shifted number, most significant byte first. -/
theorem or_append {high low shift : Nat} (hLow : low < 256) :
    high * 2 ^ (shift + 8) ||| low * 2 ^ shift = (256 * high + low) * 2 ^ shift := by
  have hBound : low * 2 ^ shift < 2 ^ (shift + 8) := by
    rw [Nat.pow_add, Nat.mul_comm (2 ^ shift)]
    exact Nat.mul_lt_mul_of_pos_right hLow (Nat.two_pow_pos shift)
  rw [← Nat.shiftLeft_eq high, ← Nat.shiftLeft_add_eq_or_of_lt hBound, Nat.shiftLeft_eq]
  ring

/-- Placing one byte above a number that lies below it. -/
theorem or_place {low : Nat} (shift high : Nat) (hLow : low < 2 ^ shift) :
    low ||| high * 2 ^ shift = low + high * 2 ^ shift := by
  rw [Nat.or_comm, ← Nat.shiftLeft_eq, ← Nat.shiftLeft_add_eq_or_of_lt hLow, Nat.add_comm]

/-- The last `width` digits of an integer in base 256, most significant first. -/
def spell : Nat → Nat → List UInt8
  | 0, _ => []
  | width + 1, n => UInt8.ofNat (n / 256 ^ width) :: spell width n

@[simp] theorem length_spell (width n : Nat) : (spell width n).length = width := by
  induction width with
  | zero => rfl
  | succ width ih => rw [spell, List.length_cons, ih]

theorem beNat_spell (width n : Nat) : beNat (spell width n) = n % 256 ^ width := by
  induction width with
  | zero => simp [spell, Nat.mod_one]
  | succ width ih =>
      have hByte : (UInt8.ofNat (n / 256 ^ width)).toNat = n / 256 ^ width % 256 :=
        UInt8.toNat_ofNat'
      rw [spell, beNat_cons, ih, length_spell, hByte, Nat.mod_pow_succ, Nat.add_comm, Nat.mul_comm]

theorem beNat_lt (bytes : List UInt8) : beNat bytes < 256 ^ bytes.length := by
  induction bytes with
  | nil => simp
  | cons byte rest ih =>
      have hByte := byte.toNat_lt
      rw [beNat_cons, List.length_cons, pow_succ]
      nlinarith

theorem spell_beNat (bytes : List UInt8) : spell bytes.length (beNat bytes) = bytes := by
  apply beNat_inj (length_spell _ _)
  rw [beNat_spell, Nat.mod_eq_of_lt (beNat_lt bytes)]

end Bytes

/-! The six comparison operators on values of a fixed number of bytes. When the
strict operator compares the integers that the bytes spell, the six are those of
a linear order, and the keys it cannot order are the equal ones. -/
namespace Bytes
universe u
variable {width : Nat} {Value : Type u}

structure Comparison (width : Nat) (Value : Type u) where
  bytes : Value → Vector UInt8 width
  eq : Value → Value → Bool
  ne : Value → Value → Bool
  lt : Value → Value → Bool
  gt : Value → Value → Bool
  le : Value → Value → Bool
  ge : Value → Value → Bool

namespace Comparison

/-- The unsigned big-endian integer that the bytes of a value spell. -/
def number (c : Comparison width Value) (a : Value) : Nat := beNat (c.bytes a).toList

/-- The operators compare big-endian integers. An ordered container takes two keys
for one when neither is less, a hash container when they are equal. -/
structure BigEndian (c : Comparison width Value) : Prop where
  eq_iff : ∀ a b, c.eq a b = true ↔ ∀ i : Fin width, (c.bytes a)[i] = (c.bytes b)[i]
  lt_iff : ∀ a b, c.lt a b = true ↔ c.number a < c.number b
  trichotomy : ∀ a b,
    (c.lt a b = true ∧ c.eq a b = false ∧ c.lt b a = false) ∨
    (c.lt a b = false ∧ c.eq a b = true ∧ c.lt b a = false) ∨
    (c.lt a b = false ∧ c.eq a b = false ∧ c.lt b a = true)
  trans : ∀ a₁ a₂ a₃, c.lt a₁ a₂ = true → c.lt a₂ a₃ = true → c.lt a₁ a₃ = true
  ne_iff : ∀ a b, c.ne a b = true ↔ c.eq a b = false
  gt_iff : ∀ a b, c.gt a b = true ↔ c.lt b a = true
  le_iff : ∀ a b, c.le a b = true ↔ c.lt a b = true ∨ c.eq a b = true
  ge_iff : ∀ a b, c.ge a b = true ↔ c.lt b a = true ∨ c.eq a b = true
  same_key : ∀ a b, (c.lt a b = false ∧ c.lt b a = false) ↔ c.eq a b = true

/-- Equal bytes are equal integers, as the number of bytes is fixed. -/
theorem bytes_eq_iff (c : Comparison width Value) (a b : Value) :
    (∀ i : Fin width, (c.bytes a)[i] = (c.bytes b)[i]) ↔ c.number a = c.number b := by
  constructor
  · intro h
    have hBytes : c.bytes a = c.bytes b := Vector.ext fun i hIndex => h ⟨i, hIndex⟩
    rw [number, number, hBytes]
  · intro h i
    have hLength : (c.bytes a).toList.length = (c.bytes b).toList.length := by simp
    have hBytes : c.bytes a = c.bytes b := Vector.toList_inj.mp (beNat_inj hLength h)
    rw [hBytes]

/-- Two operators on the integers determine the other four. -/
theorem bigEndian (c : Comparison width Value)
    (hEq : ∀ a b, c.eq a b = true ↔ c.number a = c.number b)
    (hLt : ∀ a b, c.lt a b = true ↔ c.number a < c.number b)
    (hNe : ∀ a b, c.ne a b = !c.eq a b) (hGt : ∀ a b, c.gt a b = c.lt b a)
    (hLe : ∀ a b, c.le a b = !c.lt b a) (hGe : ∀ a b, c.ge a b = !c.lt a b) : c.BigEndian where
  eq_iff a b := by rw [hEq, bytes_eq_iff]
  lt_iff := hLt
  trichotomy a b := by
    simp only [← Bool.not_eq_true, hEq, hLt]
    omega
  trans a₁ a₂ a₃ hFirst hSecond := by
    rw [hLt] at hFirst hSecond ⊢
    exact hFirst.trans hSecond
  ne_iff a b := by rw [hNe, Bool.not_eq_true']
  gt_iff a b := by rw [hGt]
  le_iff a b := by
    rw [hLe, Bool.not_eq_true', ← Bool.not_eq_true, hLt, hLt, hEq]
    omega
  ge_iff a b := by
    rw [hGe, Bool.not_eq_true', ← Bool.not_eq_true, hLt, hLt, hEq]
    omega
  same_key a b := by
    simp only [← Bool.not_eq_true, hEq, hLt]
    omega

end Comparison
end Bytes
