import Qrvmc.Bytes.Endian
import Qrvmc.Types.Values

/-! Addresses and 256-bit values as integers. Both types compare the integers that their
bytes spell, although equality reads the words in the other byte order. The constructors
from 64-bit integers put the eight bytes of the integer last, most significant byte first,
so the value spells the integer itself. -/
namespace Qrvmc
open Bytes

def Address.comparison : Comparison 20 Address where
  bytes := Address.bytes
  eq := Address.beq
  ne := Address.ne
  lt := Address.lt
  gt := Address.gt
  le := Address.le
  ge := Address.ge

def Bytes32.comparison : Comparison 32 Bytes32 where
  bytes := Bytes32.bytes
  eq := Bytes32.beq
  ne := Bytes32.ne
  lt := Bytes32.lt
  gt := Bytes32.gt
  le := Bytes32.le
  ge := Bytes32.ge

theorem Address.toNat_inj {a b : Address} : a.toNat = b.toNat ↔ a = b := by
  constructor
  · intro h
    apply Address.ext_toList
    exact beNat_inj (by simp) h
  · intro h
    rw [h]

theorem Bytes32.toNat_inj {a b : Bytes32} : a.toNat = b.toNat ↔ a = b := by
  constructor
  · intro h
    apply Bytes32.ext_toList
    exact beNat_inj (by simp) h
  · intro h
    rw [h]

/-- Both types are ordered by the big-endian integers of 160 and 256 bits. -/
theorem comparison_bigEndian :
    Address.comparison.BigEndian ∧ Bytes32.comparison.BigEndian := by
  constructor
  · apply Comparison.bigEndian
    · intro a b
      exact (a.beq_iff b).trans Address.toNat_inj.symm
    · exact Address.lt_iff
    all_goals exact fun _ _ => rfl
  · apply Comparison.bigEndian
    · intro a b
      exact (a.beq_iff b).trans Bytes32.toNat_inj.symm
    · exact Bytes32.lt_iff
    all_goals exact fun _ _ => rfl

/-- `address(uint64_t v)`. -/
def Address.ofUInt64 (v : UInt64) : Address :=
  ⟨#v[0, 0, 0, 0, 0, 0, 0, 0, 0, 0, 0, 0,
    (v >>> 56).toUInt8, (v >>> 48).toUInt8, (v >>> 40).toUInt8, (v >>> 32).toUInt8,
    (v >>> 24).toUInt8, (v >>> 16).toUInt8, (v >>> 8).toUInt8, (v >>> 0).toUInt8]⟩

/-- `bytes32(uint64_t v)`. -/
def Bytes32.ofUInt64 (v : UInt64) : Bytes32 :=
  ⟨#v[0, 0, 0, 0, 0, 0, 0, 0, 0, 0, 0, 0, 0, 0, 0, 0, 0, 0, 0, 0, 0, 0, 0, 0,
    (v >>> 56).toUInt8, (v >>> 48).toUInt8, (v >>> 40).toUInt8, (v >>> 32).toUInt8,
    (v >>> 24).toUInt8, (v >>> 16).toUInt8, (v >>> 8).toUInt8, (v >>> 0).toUInt8]⟩

/-- The eight bytes of an integer, most significant byte first. -/
def wordBytes (v : UInt64) : List UInt8 :=
  [(v >>> 56).toUInt8, (v >>> 48).toUInt8, (v >>> 40).toUInt8, (v >>> 32).toUInt8,
    (v >>> 24).toUInt8, (v >>> 16).toUInt8, (v >>> 8).toUInt8, (v >>> 0).toUInt8]

theorem beNat_wordBytes (v : UInt64) : beNat (wordBytes v) = v.toNat := by
  have hBound := v.toNat_lt
  simp [wordBytes, Nat.shiftRight_eq_div_pow]
  omega

theorem Address.ofUInt64_toList (v : UInt64) :
    (Address.ofUInt64 v).bytes.toList = List.replicate 12 0 ++ wordBytes v := rfl

theorem Bytes32.ofUInt64_toList (v : UInt64) :
    (Bytes32.ofUInt64 v).bytes.toList = List.replicate 24 0 ++ wordBytes v := rfl

theorem Address.ofUInt64_leading (v : UInt64) (i : Nat) (h : i < 12) :
    (Address.ofUInt64 v).bytes[i] = 0 := by
  rw [← Vector.getElem_toList (by simp only [Vector.length_toList]; omega)]
  simp only [Address.ofUInt64_toList]
  rw [List.getElem_append_left (by simpa using h), List.getElem_replicate]

theorem Bytes32.ofUInt64_leading (v : UInt64) (i : Nat) (h : i < 24) :
    (Bytes32.ofUInt64 v).bytes[i] = 0 := by
  rw [← Vector.getElem_toList (by simp only [Vector.length_toList]; omega)]
  simp only [Bytes32.ofUInt64_toList]
  rw [List.getElem_append_left (by simpa using h), List.getElem_replicate]

theorem Address.ofUInt64_toNat (v : UInt64) : (Address.ofUInt64 v).toNat = v.toNat := by
  rw [Address.toNat, Address.ofUInt64_toList, beNat_zeros, beNat_wordBytes]

theorem Bytes32.ofUInt64_toNat (v : UInt64) : (Bytes32.ofUInt64 v).toNat = v.toNat := by
  rw [Bytes32.toNat, Bytes32.ofUInt64_toList, beNat_zeros, beNat_wordBytes]

theorem Address.ofUInt64_inj {u v : UInt64} : Address.ofUInt64 u = Address.ofUInt64 v ↔ u = v := by
  rw [← Address.toNat_inj, Address.ofUInt64_toNat, Address.ofUInt64_toNat, UInt64.toNat_inj]

theorem Bytes32.ofUInt64_inj {u v : UInt64} : Bytes32.ofUInt64 u = Bytes32.ofUInt64 v ↔ u = v := by
  rw [← Bytes32.toNat_inj, Bytes32.ofUInt64_toNat, Bytes32.ofUInt64_toNat, UInt64.toNat_inj]

/-- The value that spells an integer modulo 2^256. -/
def Bytes32.ofNat (n : Nat) : Bytes32 := ⟨⟨(spell 32 n).toArray, by simp⟩⟩

/-- The address that spells an integer modulo 2^160. -/
def Address.ofNat (n : Nat) : Address := ⟨⟨(spell 20 n).toArray, by simp⟩⟩

theorem Bytes32.ofNat_toList (n : Nat) : (Bytes32.ofNat n).bytes.toList = spell 32 n := rfl

theorem Bytes32.toNat_ofNat (n : Nat) : (Bytes32.ofNat n).toNat = n % 256 ^ 32 := beNat_spell 32 n

theorem Address.toNat_ofNat (n : Nat) : (Address.ofNat n).toNat = n % 256 ^ 20 := beNat_spell 20 n

@[simp] theorem Bytes32.ofNat_toNat (value : Bytes32) : Bytes32.ofNat value.toNat = value := by
  apply Bytes32.ext_toList
  have hSpell := spell_beNat value.bytes.toList
  rw [Vector.length_toList] at hSpell
  exact hSpell

theorem Bytes32.toList_eq_spell (value : Bytes32) : value.bytes.toList = spell 32 value.toNat := by
  rw [← Bytes32.ofNat_toList, Bytes32.ofNat_toNat]

end Qrvmc
