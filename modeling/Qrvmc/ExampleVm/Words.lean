import Qrvmc.ExampleVm.Meaning

/-! The conversions of the example VM between words, as arithmetic. Narrow words are the
remainders of wide ones, and bytes copied to the end of a word of zeros spell the integer
that they spell alone. -/
namespace Qrvmc.ExampleVm
open Bytes

variable {State : Type}

theorem copyInto_getElem {n : Nat} (block : Vector UInt8 n) (start : Nat) (bytes : List UInt8)
    (i : Nat) (h : i < n) :
    (copyInto block start bytes)[i] =
      if start ≤ i then bytes.getD (i - start) block[i] else block[i] := by
  rw [copyInto, Vector.getElem_ofFn]
  rfl

/-- Bytes that are copied to an array of zeros have zeros on both sides. -/
theorem copyInto_zeros {n start : Nat} {bytes : List UInt8} (h : start + bytes.length ≤ n) :
    (copyInto (Vector.replicate n 0) start bytes).toList =
      List.replicate start 0 ++ bytes ++ List.replicate (n - start - bytes.length) 0 := by
  apply List.ext_getElem
  · simp only [Vector.length_toList, List.length_append, List.length_replicate]
    omega
  · intro i hLeft hRight
    rw [Vector.length_toList] at hLeft
    rw [Vector.getElem_toList, copyInto_getElem _ _ _ _ hLeft, Vector.getElem_replicate]
    by_cases hBefore : i < start
    · rw [if_neg (by omega), List.getElem_append_left (by simp; omega),
        List.getElem_append_left (by simpa using hBefore), List.getElem_replicate]
    · rw [if_pos (by omega), List.getD_eq_getElem?_getD]
      by_cases hInside : i - start < bytes.length
      · rw [List.getElem?_eq_getElem hInside, Option.getD_some,
          List.getElem_append_left (by simp; omega), List.getElem_append_right (by simp; omega)]
        simp
      · rw [List.getElem?_eq_none (by omega), Option.getD_none,
          List.getElem_append_right (by simp; omega), List.getElem_replicate]

/-- Bytes copied to the end of a word. -/
theorem toNat_copyInto_end {bytes : List UInt8} (h : bytes.length ≤ 32) :
    (Bytes32.mk (copyInto (Vector.replicate 32 0) (32 - bytes.length) bytes)).toNat =
      beNat bytes := by
  have hRest : 32 - (32 - bytes.length) - bytes.length = 0 := by omega
  rw [Bytes32.toNat, copyInto_zeros (by omega), hRest, List.replicate_zero, List.append_nil,
    beNat_zeros]

/-- The last four bytes of a value spell its remainder. -/
theorem toUint32_toNat (value : Bytes32) : (toUint32 value).toNat = value.toNat % 4294967296 := by
  have hLoad : (toUint32 value).toNat = beNat (window value.bytes 28 4) :=
    load32be_toNat value.bytes 28 (by decide)
  have hWindow : window value.bytes 28 4 = value.bytes.toList.drop 28 := by
    rw [window, List.take_of_length_le (by simp)]
  have hLess := beNat_lt (value.bytes.toList.drop 28)
  have hSplit := beNat_append (value.bytes.toList.take 28) (value.bytes.toList.drop 28)
  have hLength : (value.bytes.toList.drop 28).length = 4 := by simp
  rw [List.take_append_drop, hLength] at hSplit
  rw [hLength] at hLess
  rw [hLoad, hWindow, Bytes32.toNat, hSplit]
  omega

theorem toUint256_toNat (x : UInt32) : (toUint256 x).toNat = x.toNat := by
  have hBytes : (toUint256 x).bytes.toList = List.replicate 28 (0 : UInt8) ++
      [(x >>> 24).toUInt8, (x >>> 16).toUInt8, (x >>> 8).toUInt8, x.toUInt8] := rfl
  have hBound := x.toNat_lt
  rw [Bytes32.toNat, hBytes, beNat_zeros]
  simp [Nat.shiftRight_eq_div_pow]
  omega

theorem uint256OfAddress_toNat (address : Address) :
    (uint256OfAddress address).toNat = address.toNat := by
  have hLength : address.bytes.toList.length = 20 := Vector.length_toList
  have hEnd := toNat_copyInto_end (show address.bytes.toList.length ≤ 32 by omega)
  rw [hLength] at hEnd
  exact hEnd

/-- The last twenty bytes of a value spell its remainder. -/
theorem toAddress_eq (value : Bytes32) : toAddress value = Address.ofNat value.toNat := by
  have hLength : (value.bytes.toList.drop 12).length = 20 := by simp
  have hBytes : (toAddress value).bytes.toList = value.bytes.toList.drop 12 := by
    rw [toAddress, copyInto_zeros (by simp), hLength]
    simp
  have hLess := beNat_lt (value.bytes.toList.drop 12)
  have hSplit := beNat_append (value.bytes.toList.take 12) (value.bytes.toList.drop 12)
  rw [List.take_append_drop, hLength] at hSplit
  rw [hLength] at hLess
  rw [← Address.toNat_inj, Address.toNat_ofNat, Address.toNat, Bytes32.toNat, hBytes, hSplit]
  omega

/-- The word that a program loads from the input. -/
theorem toNat_copyInto_start {env : Environment State} {offset : Nat}
    (hSupplied : env.msg.inputSize ≤ env.input.length) (hOffset : offset < env.msg.inputSize) :
    (Bytes32.mk (copyInto (Vector.replicate 32 0) 0
      ((env.input.drop offset).take (min (env.msg.inputSize - offset) 32)))).toNat =
        beNat (inputWord env offset) := by
  have hLength : ((env.input.drop offset).take (min (env.msg.inputSize - offset) 32)).length =
      min (env.msg.inputSize - offset) 32 := by
    rw [List.length_take, List.length_drop]
    omega
  rw [Bytes32.toNat, copyInto_zeros (by omega), hLength]
  congr 1
  apply List.ext_getElem
  · simp only [inputWord, List.length_append, List.length_replicate, hLength, List.length_map,
      List.length_range']
    omega
  · intro i hLeft hRight
    simp only [inputWord, List.length_map, List.length_range'] at hRight
    simp only [inputWord, List.getElem_map, List.getElem_range', List.replicate_zero,
      List.nil_append, Nat.one_mul, List.getD_eq_getElem?_getD, List.getElem?_take]
    by_cases hInside : i < min (env.msg.inputSize - offset) 32
    · rw [List.getElem_append_left (by rw [hLength]; exact hInside), List.getElem_take,
        List.getElem_drop, if_pos (by omega), List.getElem?_eq_getElem (by omega), Option.getD_some]
    · rw [List.getElem_append_right (by rw [hLength]; omega), List.getElem_replicate,
        if_neg (by omega), Option.getD_none]

/-- Behind the end of the input there are zeros. -/
theorem inputWord_outside {env : Environment State} {offset : Nat}
    (hOffset : env.msg.inputSize ≤ offset) : beNat (inputWord env offset) = 0 := by
  rw [beNat_eq_zero_iff]
  intro byte hByte
  simp only [inputWord, List.mem_map, List.mem_range'_1] at hByte
  obtain ⟨i, ⟨hLow, _⟩, rfl⟩ := hByte
  rw [List.getD_eq_getElem?_getD, List.getElem?_take, if_neg (by omega), Option.getD_none]

end Qrvmc.ExampleVm
