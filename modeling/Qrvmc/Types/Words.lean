import Qrvmc.Bytes.Endian

/-! The four word loads of the C++ API. Each reads consecutive bytes of an
array starting at an index that lies far enough from its end, and combines
them by shifts and disjunctions in one of the two byte orders. -/
namespace Qrvmc
open Bytes

variable {n : Nat}

def load64be (data : Vector UInt8 n) (i : Nat) (h : i + 8 ≤ n := by decide) : UInt64 :=
  data[i].toUInt64 <<< 56 ||| data[i + 1].toUInt64 <<< 48 ||| data[i + 2].toUInt64 <<< 40 |||
  data[i + 3].toUInt64 <<< 32 ||| data[i + 4].toUInt64 <<< 24 ||| data[i + 5].toUInt64 <<< 16 |||
  data[i + 6].toUInt64 <<< 8 ||| data[i + 7].toUInt64

def load64le (data : Vector UInt8 n) (i : Nat) (h : i + 8 ≤ n := by decide) : UInt64 :=
  data[i].toUInt64 ||| data[i + 1].toUInt64 <<< 8 ||| data[i + 2].toUInt64 <<< 16 |||
  data[i + 3].toUInt64 <<< 24 ||| data[i + 4].toUInt64 <<< 32 ||| data[i + 5].toUInt64 <<< 40 |||
  data[i + 6].toUInt64 <<< 48 ||| data[i + 7].toUInt64 <<< 56

def load32be (data : Vector UInt8 n) (i : Nat) (h : i + 4 ≤ n := by decide) : UInt32 :=
  data[i].toUInt32 <<< 24 ||| data[i + 1].toUInt32 <<< 16 ||| data[i + 2].toUInt32 <<< 8 |||
  data[i + 3].toUInt32

def load32le (data : Vector UInt8 n) (i : Nat) (h : i + 4 ≤ n := by decide) : UInt32 :=
  data[i].toUInt32 ||| data[i + 1].toUInt32 <<< 8 ||| data[i + 2].toUInt32 <<< 16 |||
  data[i + 3].toUInt32 <<< 24

/-- The `width` bytes of an array from index `i` on. -/
def window (data : Vector UInt8 n) (i width : Nat) : List UInt8 := (data.toList.drop i).take width

theorem window_length (data : Vector UInt8 n) (i width : Nat) (h : i + width ≤ n) :
    (window data i width).length = width := by
  simp [window]
  omega

theorem window_succ (data : Vector UInt8 n) (i width : Nat) (h : i < n) :
    window data i (width + 1) = data[i] :: window data (i + 1) width := by
  have hDrop : data.toList.drop i = data[i] :: data.toList.drop (i + 1) := by
    rw [List.drop_eq_getElem_cons (by simpa using h), Vector.getElem_toList]
  rw [window, hDrop, List.take_succ_cons, window]

@[simp] theorem window_zero (data : Vector UInt8 n) (i : Nat) : window data i 0 = [] := rfl

/-- Adjacent windows join to one window. -/
theorem window_append (data : Vector UInt8 n) (i first second : Nat) :
    window data i first ++ window data (i + first) second = window data i (first + second) := by
  rw [window, window, window, List.take_add, List.drop_drop]

theorem window_eight (data : Vector UInt8 n) (i : Nat) (h : i + 8 ≤ n) :
    window data i 8 = [data[i], data[i + 1], data[i + 2], data[i + 3], data[i + 4], data[i + 5],
      data[i + 6], data[i + 7]] := by
  iterate 8 rw [window_succ data _ _ (by omega)]
  rfl

theorem window_four (data : Vector UInt8 n) (i : Nat) (h : i + 4 ≤ n) :
    window data i 4 = [data[i], data[i + 1], data[i + 2], data[i + 3]] := by
  iterate 4 rw [window_succ data _ _ (by omega)]
  rfl

/-- A shift that keeps a byte inside the word loses none of its bits. -/
private theorem shift_toNat (byte : UInt8) (shift width : Nat) (h : shift + 8 ≤ width) :
    byte.toNat <<< shift % 2 ^ width = byte.toNat * 2 ^ shift := by
  rw [Nat.shiftLeft_eq]
  apply Nat.mod_eq_of_lt
  calc byte.toNat * 2 ^ shift < 2 ^ 8 * 2 ^ shift :=
        Nat.mul_lt_mul_of_pos_right byte.toNat_lt (Nat.two_pow_pos shift)
    _ = 2 ^ (shift + 8) := by rw [Nat.pow_add, Nat.mul_comm]
    _ ≤ 2 ^ width := Nat.pow_le_pow_right (by decide) h

/-- The big-endian load is the integer its eight bytes spell. -/
theorem load64be_toNat (data : Vector UInt8 n) (i : Nat) (h : i + 8 ≤ n) :
    (load64be data i h).toNat = beNat (window data i 8) := by
  have hByte (k : Nat) (hk : k < n) : data[k].toNat < 256 := data[k].toNat_lt
  simp only [load64be, UInt64.toNat_or, UInt64.toNat_shiftLeft, UInt8.toNat_toUInt64,
    UInt64.reduceToNat, Nat.reduceMod]
  simp (disch := decide) only [shift_toNat]
  rw [or_append (hByte (i + 1) (by omega)), or_append (hByte (i + 2) (by omega)),
    or_append (hByte (i + 3) (by omega)), or_append (hByte (i + 4) (by omega)),
    or_append (hByte (i + 5) (by omega)), or_append (hByte (i + 6) (by omega)),
    Nat.or_comm, or_place 8 _ (hByte (i + 7) (by omega)), window_eight data i h]
  simp only [beNat_cons, beNat_nil, List.length_cons, List.length_nil]
  omega

/-- The little-endian load is the integer its eight bytes spell in reverse. -/
theorem load64le_toNat (data : Vector UInt8 n) (i : Nat) (h : i + 8 ≤ n) :
    (load64le data i h).toNat = leNat (window data i 8) := by
  have hByte (k : Nat) (hk : k < n) : data[k].toNat < 256 := data[k].toNat_lt
  have h0 := hByte i (by omega)
  have h1 := hByte (i + 1) (by omega)
  have h2 := hByte (i + 2) (by omega)
  have h3 := hByte (i + 3) (by omega)
  have h4 := hByte (i + 4) (by omega)
  have h5 := hByte (i + 5) (by omega)
  have h6 := hByte (i + 6) (by omega)
  simp only [load64le, UInt64.toNat_or, UInt64.toNat_shiftLeft, UInt8.toNat_toUInt64,
    UInt64.reduceToNat, Nat.reduceMod]
  simp (disch := decide) only [shift_toNat]
  rw [or_place 8 data[i + 1].toNat, or_place 16 data[i + 2].toNat, or_place 24 data[i + 3].toNat,
    or_place 32 data[i + 4].toNat, or_place 40 data[i + 5].toNat, or_place 48 data[i + 6].toNat,
    or_place 56 data[i + 7].toNat, window_eight data i h]
  · simp only [leNat_cons, leNat_nil]
    omega
  all_goals omega

theorem load32be_toNat (data : Vector UInt8 n) (i : Nat) (h : i + 4 ≤ n) :
    (load32be data i h).toNat = beNat (window data i 4) := by
  have hByte (k : Nat) (hk : k < n) : data[k].toNat < 256 := data[k].toNat_lt
  simp only [load32be, UInt32.toNat_or, UInt32.toNat_shiftLeft, UInt8.toNat_toUInt32,
    UInt32.reduceToNat, Nat.reduceMod]
  simp (disch := decide) only [shift_toNat]
  rw [or_append (hByte (i + 1) (by omega)), or_append (hByte (i + 2) (by omega)), Nat.or_comm,
    or_place 8 _ (hByte (i + 3) (by omega)), window_four data i h]
  simp only [beNat_cons, beNat_nil, List.length_cons, List.length_nil]
  omega

theorem load32le_toNat (data : Vector UInt8 n) (i : Nat) (h : i + 4 ≤ n) :
    (load32le data i h).toNat = leNat (window data i 4) := by
  have hByte (k : Nat) (hk : k < n) : data[k].toNat < 256 := data[k].toNat_lt
  have h0 := hByte i (by omega)
  have h1 := hByte (i + 1) (by omega)
  have h2 := hByte (i + 2) (by omega)
  simp only [load32le, UInt32.toNat_or, UInt32.toNat_shiftLeft, UInt8.toNat_toUInt32,
    UInt32.reduceToNat, Nat.reduceMod]
  simp (disch := decide) only [shift_toNat]
  rw [or_place 8 data[i + 1].toNat, or_place 16 data[i + 2].toNat, or_place 24 data[i + 3].toNat,
    window_four data i h]
  · simp only [leNat_cons, leNat_nil]
    omega
  all_goals omega

/-- Two loads from one place agree exactly when the bytes there agree. -/
theorem load64le_inj (first second : Vector UInt8 n) (i : Nat) (h : i + 8 ≤ n) :
    load64le first i h = load64le second i h ↔ window first i 8 = window second i 8 := by
  rw [← UInt64.toNat_inj, load64le_toNat, load64le_toNat]
  refine ⟨leNat_inj ?_, congrArg leNat⟩
  rw [window_length first i 8 h, window_length second i 8 h]

theorem load32le_inj (first second : Vector UInt8 n) (i : Nat) (h : i + 4 ≤ n) :
    load32le first i h = load32le second i h ↔ window first i 4 = window second i 4 := by
  rw [← UInt32.toNat_inj, load32le_toNat, load32le_toNat]
  refine ⟨leNat_inj ?_, congrArg leNat⟩
  rw [window_length first i 4 h, window_length second i 4 h]

end Qrvmc
