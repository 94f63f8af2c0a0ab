import Qrvmc.Types.Words

/-! Addresses and 256-bit values with the comparison operators and the hashes of the
C++ API. Equality is computed on little-endian words and order on big-endian words.
The containers of the mocked host compare keys with these operators, so the
instances below are built from them. -/
namespace Qrvmc
open Bytes

/-- The big-endian 160-bit hash that names an account. -/
structure Address where
  bytes : Vector UInt8 20

/-- The fixed-size array of 32 bytes, also read as a big-endian 256-bit integer. -/
structure Bytes32 where
  bytes : Vector UInt8 32

theorem Address.ext_toList {a b : Address} (h : a.bytes.toList = b.bytes.toList) : a = b := by
  cases a
  cases b
  congr 1
  exact Vector.toList_inj.mp h

theorem Bytes32.ext_toList {a b : Bytes32} (h : a.bytes.toList = b.bytes.toList) : a = b := by
  cases a
  cases b
  congr 1
  exact Vector.toList_inj.mp h

/-- `operator==` on addresses. -/
def Address.beq (a b : Address) : Bool :=
  load64le a.bytes 0 == load64le b.bytes 0 &&
  load64le a.bytes 8 == load64le b.bytes 8 &&
  load32le a.bytes 16 == load32le b.bytes 16

/-- `operator==` on 32-byte values. -/
def Bytes32.beq (a b : Bytes32) : Bool :=
  load64le a.bytes 0 == load64le b.bytes 0 &&
  load64le a.bytes 8 == load64le b.bytes 8 &&
  load64le a.bytes 16 == load64le b.bytes 16 &&
  load64le a.bytes 24 == load64le b.bytes 24

private theorem window_all {n : Nat} (data : Vector UInt8 n) : window data 0 n = data.toList := by
  rw [window, List.drop_zero, List.take_of_length_le (by simp)]

private theorem address_windows (a : Address) : a.bytes.toList =
    window a.bytes 0 8 ++ window a.bytes 8 8 ++ window a.bytes 16 4 := by
  rw [window_append a.bytes 0 8 8, window_append a.bytes 0 16 4, window_all]

private theorem bytes32_windows (a : Bytes32) : a.bytes.toList =
    window a.bytes 0 8 ++ window a.bytes 8 8 ++ window a.bytes 16 8 ++ window a.bytes 24 8 := by
  rw [window_append a.bytes 0 8 8, window_append a.bytes 0 16 8, window_append a.bytes 0 24 8,
    window_all]

/-- Word-wise equality is equality of all bytes. -/
theorem Address.beq_iff (a b : Address) : a.beq b = true ↔ a = b := by
  simp only [Address.beq, Bool.and_eq_true, beq_iff_eq, load64le_inj, load32le_inj]
  constructor
  · rintro ⟨⟨hFirst, hSecond⟩, hThird⟩
    apply Address.ext_toList
    rw [address_windows a, address_windows b, hFirst, hSecond, hThird]
  · rintro rfl
    exact ⟨⟨rfl, rfl⟩, rfl⟩

theorem Bytes32.beq_iff (a b : Bytes32) : a.beq b = true ↔ a = b := by
  simp only [Bytes32.beq, Bool.and_eq_true, beq_iff_eq, load64le_inj]
  constructor
  · rintro ⟨⟨⟨hFirst, hSecond⟩, hThird⟩, hFourth⟩
    apply Bytes32.ext_toList
    rw [bytes32_windows a, bytes32_windows b, hFirst, hSecond, hThird, hFourth]
  · rintro rfl
    exact ⟨⟨⟨rfl, rfl⟩, rfl⟩, rfl⟩

instance : DecidableEq Address := fun a b => decidable_of_iff _ (Address.beq_iff a b)

instance : DecidableEq Bytes32 := fun a b => decidable_of_iff _ (Bytes32.beq_iff a b)

namespace fnv

def prime : UInt64 := 0x100000001b3

def offsetBasis : UInt64 := 0xcbf29ce484222325

/-- `fnv1a_by64`. -/
def fnv1aBy64 (h x : UInt64) : UInt64 := (h ^^^ x) * prime

end fnv

/-- `std::hash<qrvmc::address>`. -/
def Address.hash (s : Address) : UInt64 :=
  fnv.fnv1aBy64
    (fnv.fnv1aBy64 (fnv.fnv1aBy64 fnv.offsetBasis (load64le s.bytes 0)) (load64le s.bytes 8))
    (load32le s.bytes 16).toUInt64

/-- `std::hash<qrvmc::bytes32>`. -/
def Bytes32.hash (s : Bytes32) : UInt64 :=
  fnv.fnv1aBy64
    (fnv.fnv1aBy64
      (fnv.fnv1aBy64 (fnv.fnv1aBy64 fnv.offsetBasis (load64le s.bytes 0)) (load64le s.bytes 8))
      (load64le s.bytes 16))
    (load64le s.bytes 24)

/-- The words that the hash of an address folds. -/
def Address.words (s : Address) : List UInt64 :=
  [load64le s.bytes 0, load64le s.bytes 8, (load32le s.bytes 16).toUInt64]

/-- The words that the hash of a 32-byte value folds. -/
def Bytes32.words (s : Bytes32) : List UInt64 :=
  [load64le s.bytes 0, load64le s.bytes 8, load64le s.bytes 16, load64le s.bytes 24]

/-- `address{}`: all bytes are zero. -/
instance : Zero Address := ⟨⟨Vector.replicate 20 0⟩⟩

/-- `bytes32{}`: all bytes are zero. -/
instance : Zero Bytes32 := ⟨⟨Vector.replicate 32 0⟩⟩

/-- `is_zero` on 32-byte values. -/
def Bytes32.isZero (a : Bytes32) : Bool := a.beq 0

@[simp] theorem Bytes32.isZero_iff (a : Bytes32) : a.isZero = true ↔ a = 0 := a.beq_iff 0

/-- `operator<` on addresses. -/
def Address.lt (a b : Address) : Bool :=
  load64be a.bytes 0 < load64be b.bytes 0 ||
  (load64be a.bytes 0 == load64be b.bytes 0 &&
    (load64be a.bytes 8 < load64be b.bytes 8 ||
    (load64be a.bytes 8 == load64be b.bytes 8 &&
      load32be a.bytes 16 < load32be b.bytes 16)))

/-- `operator!=` on addresses. -/
def Address.ne (a b : Address) : Bool := !a.beq b

/-- `operator>` on addresses. -/
def Address.gt (a b : Address) : Bool := b.lt a

/-- `operator<=` on addresses. -/
def Address.le (a b : Address) : Bool := !b.lt a

/-- `operator>=` on addresses. -/
def Address.ge (a b : Address) : Bool := !a.lt b

/-- The 160-bit integer an address spells. -/
def Address.toNat (a : Address) : Nat := beNat a.bytes.toList

/-- The word-wise order is the order of the integers the bytes spell. -/
theorem Address.lt_iff (a b : Address) : a.lt b = true ↔ a.toNat < b.toNat := by
  have hWords (c : Address) : c.toNat = ((load64be c.bytes 0).toNat * 2 ^ 64 +
      (load64be c.bytes 8).toNat) * 2 ^ 32 + (load32be c.bytes 16).toNat := by
    rw [Address.toNat, address_windows, beNat_append, beNat_append, window_length _ _ _ (by decide),
      window_length _ _ _ (by decide), load64be_toNat, load64be_toNat, load32be_toNat]
    rfl
  have hThirdA := (load32be a.bytes 16).toNat_lt
  have hThirdB := (load32be b.bytes 16).toNat_lt
  have hSecondA := (load64be a.bytes 8).toNat_lt
  have hSecondB := (load64be b.bytes 8).toNat_lt
  simp only [Address.lt, Bool.or_eq_true, Bool.and_eq_true, decide_eq_true_eq, beq_iff_eq,
    UInt64.lt_iff_toNat_lt, UInt32.lt_iff_toNat_lt, ← UInt64.toNat_inj, hWords]
  omega

theorem Address.le_iff (a b : Address) : a.le b = true ↔ a.toNat ≤ b.toNat := by
  rw [Address.le, Bool.not_eq_true', ← Bool.not_eq_true, Address.lt_iff, Nat.not_lt]

theorem Address.ge_iff (a b : Address) : a.ge b = true ↔ b.toNat ≤ a.toNat := by
  rw [Address.ge, Bool.not_eq_true', ← Bool.not_eq_true, Address.lt_iff, Nat.not_lt]

/-- `operator!=` on 32-byte values. -/
def Bytes32.ne (a b : Bytes32) : Bool := !a.beq b

/-- `operator<` on 32-byte values. -/
def Bytes32.lt (a b : Bytes32) : Bool :=
  load64be a.bytes 0 < load64be b.bytes 0 ||
  (load64be a.bytes 0 == load64be b.bytes 0 &&
    (load64be a.bytes 8 < load64be b.bytes 8 ||
    (load64be a.bytes 8 == load64be b.bytes 8 &&
      (load64be a.bytes 16 < load64be b.bytes 16 ||
      (load64be a.bytes 16 == load64be b.bytes 16 &&
        load64be a.bytes 24 < load64be b.bytes 24)))))

/-- `operator>` on 32-byte values. -/
def Bytes32.gt (a b : Bytes32) : Bool := b.lt a

/-- `operator<=` on 32-byte values. -/
def Bytes32.le (a b : Bytes32) : Bool := !b.lt a

/-- `operator>=` on 32-byte values. -/
def Bytes32.ge (a b : Bytes32) : Bool := !a.lt b

/-- The 256-bit integer a value spells. -/
def Bytes32.toNat (a : Bytes32) : Nat := beNat a.bytes.toList

theorem Bytes32.lt_iff (a b : Bytes32) : a.lt b = true ↔ a.toNat < b.toNat := by
  have hWords (c : Bytes32) : c.toNat = (((load64be c.bytes 0).toNat * 2 ^ 64 +
      (load64be c.bytes 8).toNat) * 2 ^ 64 + (load64be c.bytes 16).toNat) * 2 ^ 64 +
      (load64be c.bytes 24).toNat := by
    rw [Bytes32.toNat, bytes32_windows, beNat_append, beNat_append, beNat_append,
      window_length _ _ _ (by decide), window_length _ _ _ (by decide),
      window_length _ _ _ (by decide), load64be_toNat, load64be_toNat, load64be_toNat,
      load64be_toNat]
    rfl
  have hWord (c : Bytes32) (i : Nat) (h : i + 8 ≤ 32) : (load64be c.bytes i h).toNat < 2 ^ 64 :=
    (load64be c.bytes i h).toNat_lt
  have hFourthA := hWord a 24 (by decide)
  have hFourthB := hWord b 24 (by decide)
  have hThirdA := hWord a 16 (by decide)
  have hThirdB := hWord b 16 (by decide)
  have hSecondA := hWord a 8 (by decide)
  have hSecondB := hWord b 8 (by decide)
  simp only [Bytes32.lt, Bool.or_eq_true, Bool.and_eq_true, decide_eq_true_eq, beq_iff_eq,
    UInt64.lt_iff_toNat_lt, ← UInt64.toNat_inj, hWords]
  omega

end Qrvmc
