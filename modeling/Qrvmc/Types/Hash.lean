import Qrvmc.Bytes.Folding
import Qrvmc.Types.Integers

/-! The hashes of addresses and of 32-byte values, by which the containers of the
mocked host find their keys. They fold the words of a value into 64 bits, which is
the width of `size_t` here. -/
namespace Qrvmc
open Bytes

namespace fnv

/-- The prime is odd, so it has an inverse. -/
theorem prime_inverse : prime * 0xce965057aff6957b = 1 := rfl

theorem lossless_fnv1aBy64 : Lossless fnv1aBy64 := lossless_xor_mul prime_inverse

end fnv
open fnv

theorem Address.hash_eq_foldl (s : Address) : s.hash = s.words.foldl fnv1aBy64 offsetBasis := rfl

theorem Bytes32.hash_eq_foldl (s : Bytes32) : s.hash = s.words.foldl fnv1aBy64 offsetBasis := rfl

/-- The two arrays differ at most in the eight bytes of one word. -/
def DifferInWord {n : Nat} (word : Nat) (first second : Vector UInt8 n) : Prop :=
  ∀ i : Fin n, i.val / 8 ≠ word → first.get i = second.get i

theorem DifferInWord.load64le {n word i : Nat} {first second : Vector UInt8 n}
    (h : DifferInWord word first second) (hBound : i + 8 ≤ n) (hAligned : i % 8 = 0)
    (hOther : i / 8 ≠ word) : load64le first i hBound = load64le second i hBound := by
  have hByte (k : Nat) (hk : k < 8) : first[i + k] = second[i + k] :=
    h ⟨i + k, by omega⟩ (by simp only; omega)
  have hZero : first[i] = second[i] := hByte 0 (by decide)
  simp only [Qrvmc.load64le, hZero, hByte 1 (by decide), hByte 2 (by decide), hByte 3 (by decide),
    hByte 4 (by decide), hByte 5 (by decide), hByte 6 (by decide), hByte 7 (by decide)]

theorem DifferInWord.load32le {n word i : Nat} {first second : Vector UInt8 n}
    (h : DifferInWord word first second) (hBound : i + 4 ≤ n) (hAligned : i % 8 = 0)
    (hOther : i / 8 ≠ word) : load32le first i hBound = load32le second i hBound := by
  have hByte (k : Nat) (hk : k < 4) : first[i + k] = second[i + k] :=
    h ⟨i + k, by omega⟩ (by simp only; omega)
  have hZero : first[i] = second[i] := hByte 0 (by decide)
  simp only [Qrvmc.load32le, hZero, hByte 1 (by decide), hByte 2 (by decide), hByte 3 (by decide)]

@[simp] theorem Bytes32.length_words (a : Bytes32) : a.words.length = 4 := by
  simp [Bytes32.words]

@[simp] theorem Address.length_words (a : Address) : a.words.length = 3 := by
  simp [Address.words]

theorem Bytes32.words_inj {a b : Bytes32} : a.words = b.words ↔ a = b := by
  rw [← Bytes32.beq_iff]
  simp only [Bytes32.words, Bytes32.beq, List.cons.injEq, Bool.and_eq_true, beq_iff_eq, and_true,
    and_assoc]

theorem Address.words_inj {a b : Address} : a.words = b.words ↔ a = b := by
  rw [← Address.beq_iff]
  simp only [Address.words, Address.beq, List.cons.injEq, Bool.and_eq_true, beq_iff_eq, and_true,
    and_assoc, UInt32.toUInt64_inj]

/-- Values that differ in one word have lists of words that differ in its place. -/
theorem Bytes32.words_same {word : Nat} {a b : Bytes32} (h : DifferInWord word a.bytes b.bytes)
    (i : Nat) (hi : i ≠ word) : a.words[i]? = b.words[i]? := by
  simp only [Bytes32.words]
  rcases i with _ | _ | _ | _ | i
  · simp [h.load64le (i := 0) (by decide) rfl hi]
  · simp [h.load64le (i := 8) (by decide) rfl hi]
  · simp [h.load64le (i := 16) (by decide) rfl hi]
  · simp [h.load64le (i := 24) (by decide) rfl hi]
  · simp

theorem Address.words_same {word : Nat} {a b : Address} (h : DifferInWord word a.bytes b.bytes)
    (i : Nat) (hi : i ≠ word) : a.words[i]? = b.words[i]? := by
  simp only [Address.words]
  rcases i with _ | _ | _ | i
  · simp [h.load64le (i := 0) (by decide) rfl hi]
  · simp [h.load64le (i := 8) (by decide) rfl hi]
  · simp [h.load32le (i := 16) (by decide) rfl hi]
  · simp

theorem Bytes32.hash_ne_of_word {word : Nat} {a b : Bytes32}
    (h : DifferInWord word a.bytes b.bytes) (hDiffer : a ≠ b) : a.hash ≠ b.hash := by
  rw [Bytes32.hash_eq_foldl, Bytes32.hash_eq_foldl]
  exact lossless_fnv1aBy64.foldl_ne word offsetBasis (by simp) (Bytes32.words_same h)
    (mt Bytes32.words_inj.mp hDiffer)

theorem Address.hash_ne_of_word {word : Nat} {a b : Address}
    (h : DifferInWord word a.bytes b.bytes) (hDiffer : a ≠ b) : a.hash ≠ b.hash := by
  rw [Address.hash_eq_foldl, Address.hash_eq_foldl]
  exact lossless_fnv1aBy64.foldl_ne word offsetBasis (by simp) (Address.words_same h)
    (mt Address.words_inj.mp hDiffer)

/-- The integer lies in the last word of the value. -/
theorem Bytes32.hash_ofUInt64_injective :
    Function.Injective fun u => (Bytes32.ofUInt64 u).hash := by
  intro u v hEqual
  have hWord : DifferInWord 3 (Bytes32.ofUInt64 u).bytes (Bytes32.ofUInt64 v).bytes := by
    intro i hi
    have hLeading : i.val < 24 := by omega
    exact (Bytes32.ofUInt64_leading u i.val hLeading).trans
      (Bytes32.ofUInt64_leading v i.val hLeading).symm
  by_contra hDiffer
  exact Bytes32.hash_ne_of_word hWord (mt Bytes32.ofUInt64_inj.mp hDiffer) hEqual

/-- The second word is zero in its lower half. -/
theorem Address.ofUInt64_second (v : UInt64) :
    (load64le (Address.ofUInt64 v).bytes 8).toUInt32 = 0 := by
  rw [← UInt32.toNat_inj, UInt64.toNat_toUInt32, load64le_toNat, window_eight _ _ (by decide)]
  rw [Address.ofUInt64_leading v 8 (by decide), Address.ofUInt64_leading v 9 (by decide),
    Address.ofUInt64_leading v 10 (by decide), Address.ofUInt64_leading v 11 (by decide)]
  simp only [leNat_cons, UInt8.toNat_zero, UInt32.toNat_zero]
  omega

/-- The first word is zero. -/
theorem Address.ofUInt64_first (v : UInt64) : load64le (Address.ofUInt64 v).bytes 0 = 0 := by
  have hByte (i : Nat) (hi : i < 12) := Address.ofUInt64_leading v i hi
  rw [← UInt64.toNat_inj, load64le_toNat, window_eight _ _ (by decide), hByte 0 (by decide),
    hByte (0 + 1) (by decide), hByte (0 + 2) (by decide), hByte (0 + 3) (by decide),
    hByte (0 + 4) (by decide), hByte (0 + 5) (by decide), hByte (0 + 6) (by decide),
    hByte (0 + 7) (by decide)]
  rfl

/-- The upper half of the integer lies in the upper half of the second word, as that
is read in the other byte order, and the lower half is the third word. -/
theorem Address.hash_ofUInt64_injective :
    Function.Injective fun u => (Address.ofUInt64 u).hash := by
  intro u v hEqual
  simp only [Address.hash, fnv1aBy64, Address.ofUInt64_first] at hEqual
  obtain ⟨hSecond, hThird⟩ := xor_mul_halves prime_inverse (Address.ofUInt64_second u)
    (Address.ofUInt64_second v) hEqual
  apply Address.ofUInt64_inj.mp
  apply Address.words_inj.mp
  simp only [Address.words, Address.ofUInt64_first, hSecond, hThird]

/-- Values that differ in one word only have different hashes, and so have the values
of different 64-bit integers. -/
theorem hash_separates :
    (∀ (word : Nat) (a b : Bytes32), DifferInWord word a.bytes b.bytes → a ≠ b →
      a.hash ≠ b.hash) ∧
    (∀ (word : Nat) (a b : Address), DifferInWord word a.bytes b.bytes → a ≠ b →
      a.hash ≠ b.hash) ∧
    (∀ u v : UInt64, u ≠ v → (Bytes32.ofUInt64 u).hash ≠ (Bytes32.ofUInt64 v).hash) ∧
    (∀ u v : UInt64, u ≠ v → (Address.ofUInt64 u).hash ≠ (Address.ofUInt64 v).hash) := by
  refine ⟨fun _ _ _ => Bytes32.hash_ne_of_word, fun _ _ _ => Address.hash_ne_of_word, ?_, ?_⟩
  · intro u v hDiffer hEqual
    exact hDiffer (Bytes32.hash_ofUInt64_injective hEqual)
  · intro u v hDiffer hEqual
    exact hDiffer (Address.hash_ofUInt64_injective hEqual)

theorem hash_separates_across_words :
    (Address.ofUInt64 1).hash ≠ (Address.ofUInt64 0x100000000).hash :=
  hash_separates.2.2.2 1 0x100000000 (by decide)

end Qrvmc
