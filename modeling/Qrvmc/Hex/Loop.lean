import Qrvmc.Hex.Decode
import Qrvmc.Hex.Digits

/-! What the decoding loop does on every input. `scan` reads pairs of digits
until the text ends or a pair is malformed; the loop writes exactly the bytes
of these pairs, also on a text that it rejects in the end. -/
namespace Qrvmc

/-- The bytes of the leading digit pairs, and whether they are the whole text. -/
def scan : List CChar → List UInt8 × Bool
  | [] => ([], true)
  | [_] => ([], false)
  | high :: low :: rest =>
      if high ∈ hexDigits ∧ low ∈ hexDigits then
        (digitPair high low :: (scan rest).1, (scan rest).2)
      else ([], false)

/-- The loop recognises one `0x` at the very beginning of its own input. -/
def scanText (text : List CChar) : List UInt8 × Bool :=
  if lit "0x" <+: text then scan (text.drop 2) else scan text

/-- Write bytes one after another. -/
def putAll {Out : Type} [OutputIterator Out] : Out → List UInt8 → Exec Out
  | out, [] => .ok out
  | out, byte :: rest => do putAll (← OutputIterator.put out byte) rest

theorem scan_length_le (text : List CChar) : (scan text).1.length ≤ text.length / 2 := by
  induction text using scan.induct with
  | case1 => simp [scan]
  | case2 c => simp [scan]
  | case3 high low rest hDigits ih =>
      simp only [scan, if_pos hDigits, List.length_cons]
      omega
  | case4 high low rest hDigits => simp [scan, if_neg hDigits]

/-- A text is read to its end exactly when it is hexadecimal text. -/
theorem scan_snd_iff (text : List CChar) : (scan text).2 = true ↔ HexText text := by
  induction text using scan.induct with
  | case1 => simp [scan]
  | case2 c => simp [scan, HexText.not_single]
  | case3 high low rest hDigits ih =>
      rw [HexText.pair_iff, ← ih, scan, if_pos hDigits]
      simp [hDigits]
  | case4 high low rest hDigits =>
      rw [HexText.pair_iff, scan, if_neg hDigits]
      simp only [Bool.false_eq_true, false_iff]
      rintro ⟨hHigh, hLow, _⟩
      exact hDigits ⟨hHigh, hLow⟩

theorem scan_of_hexText {text : List CChar} (h : HexText text) :
    scan text = (decodeDigits text, true) := by
  induction text using scan.induct with
  | case1 => rfl
  | case2 c => exact (HexText.not_single c h).elim
  | case3 high low rest hDigits ih =>
      rw [scan, if_pos hDigits, ih ((HexText.pair_iff high low rest).mp h).2.2, decodeDigits_pair]
  | case4 high low rest hDigits =>
      obtain ⟨hHigh, hLow, _⟩ := (HexText.pair_iff high low rest).mp h
      exact (hDigits ⟨hHigh, hLow⟩).elim

/-- The comparisons of the source separate the digits from all other characters. -/
theorem fromHexDigit_neg_iff (c : CChar) : fromHexDigit c < 0 ↔ c ∉ hexDigits := by
  revert c
  apply forall_char
  decide +kernel

/-- Two nibbles are joined to the byte that the two digits spell. -/
theorem join_nibbles : ∀ high ∈ hexDigits, ∀ low ∈ hexDigits,
    (fromHexDigit high <<< 4 ||| fromHexDigit low).toUInt32.toUInt8 = digitPair high low := by
  decide +kernel

/-- Only the digit zero leaves a zero high nibble. -/
theorem shifted_eq_zero_iff : ∀ c ∈ hexDigits, (fromHexDigit c <<< 4 = 0 ↔ c = chr '0') := by
  decide +kernel

variable {Out : Type} [OutputIterator Out]

/-- Two iterations from an even position. The saved nibble of the iterations
before does not matter there, and a prefix is possible at the start only. -/
theorem fromHexLoop_pair (high low : CChar) (rest : List CChar) (hiNibble : Int32) (i : Nat)
    (out : Out) (hEven : i % 2 = 0) :
    fromHexLoop (high :: low :: rest) hiNibble i out =
      if high ∈ hexDigits ∧ low ∈ hexDigits then do
        fromHexLoop rest (fromHexDigit high <<< 4) (i + 2)
          (← OutputIterator.put out (digitPair high low))
      else if i = 0 ∧ high = chr '0' ∧ low = chr 'x' then fromHexLoop rest 0 2 out
      else .ok (false, out) := by
  have hOdd : (i + 1) % 2 ≠ 0 := by omega
  have hNotOne : i ≠ 1 := by omega
  by_cases hHigh : high ∈ hexDigits
  · have hFirst : ¬fromHexDigit high < 0 := by rwa [fromHexDigit_neg_iff, not_not]
    by_cases hLow : low ∈ hexDigits
    · have hSecond : ¬fromHexDigit low < 0 := by rwa [fromHexDigit_neg_iff, not_not]
      simp only [fromHexLoop, hFirst, hSecond, hEven, hOdd, hHigh, hLow, and_self, ↓reduceIte,
        join_nibbles high hHigh low hLow]
    · have hSecond : fromHexDigit low < 0 := (fromHexDigit_neg_iff low).mpr hLow
      simp only [fromHexLoop, hFirst, hSecond, hEven, hLow, and_false, ↓reduceIte,
        shifted_eq_zero_iff high hHigh, Nat.add_eq_right]
      by_cases hPrefix : i = 0 ∧ high = chr '0' ∧ low = chr 'x'
      · obtain ⟨rfl, rfl, rfl⟩ := hPrefix
        rfl
      · rw [if_neg hPrefix, if_neg hPrefix]
  · have hFirst : fromHexDigit high < 0 := (fromHexDigit_neg_iff high).mpr hHigh
    have hZero : high ≠ chr '0' := by
      rintro rfl
      exact hHigh (by decide)
    simp only [fromHexLoop, hFirst, hNotOne, hHigh, hZero, false_and, and_false, ↓reduceIte]

/-- Past the prefix position the loop writes what `scan` reads. -/
theorem fromHexLoop_eq (text : List CChar) (hiNibble : Int32) (i : Nat) (out : Out)
    (hEven : i % 2 = 0) (hPos : 0 < i) :
    fromHexLoop text hiNibble i out = do
      return ((scan text).2, ← putAll out (scan text).1) := by
  induction text using scan.induct generalizing hiNibble i out with
  | case1 => simp [fromHexLoop, scan, putAll, hEven]
  | case2 c =>
      have hOdd : (i + 1) % 2 ≠ 0 := by omega
      have hNotOne : i ≠ 1 := by omega
      by_cases hDigit : fromHexDigit c < 0
      · simp [fromHexLoop, scan, putAll, hDigit, hNotOne]
      · simp [fromHexLoop, scan, putAll, hDigit, hEven, hOdd]
  | case3 high low rest hDigits ih =>
      rw [fromHexLoop_pair high low rest hiNibble i out hEven, if_pos hDigits, scan,
        if_pos hDigits]
      simp only [putAll, bind_assoc]
      congr 1
      funext next
      exact ih _ (i + 2) next (by omega) (by omega)
  | case4 high low rest hDigits =>
      have hStart : ¬(i = 0 ∧ high = chr '0' ∧ low = chr 'x') := by omega
      rw [fromHexLoop_pair high low rest hiNibble i out hEven, if_neg hDigits, if_neg hStart, scan,
        if_neg hDigits]
      rfl

/-- The complete behaviour of `from_hex` on iterators: the bytes written are
those of the leading digit pairs, after one optional prefix. -/
theorem fromHexIter_eq (text : List CChar) (out : Out) :
    fromHexIter text out = do
      return ((scanText text).2, ← putAll out (scanText text).1) := by
  match text with
  | [] => rfl
  | [c] =>
      by_cases hDigit : fromHexDigit c < 0 <;>
        simp [fromHexIter, fromHexLoop, scanText, scan, putAll, lit, hDigit]
  | high :: low :: rest =>
      rw [fromHexIter, fromHexLoop_pair high low rest _ 0 out rfl]
      by_cases hPrefix : high = chr '0' ∧ low = chr 'x'
      · obtain ⟨rfl, rfl⟩ := hPrefix
        have hDigits : ¬(chr '0' ∈ hexDigits ∧ chr 'x' ∈ hexDigits) := by decide
        rw [if_neg hDigits, if_pos ⟨rfl, rfl, rfl⟩, fromHexLoop_eq rest 0 2 out rfl (by decide)]
        simp [scanText, lit]
      · have hScan : scanText (high :: low :: rest) = scan (high :: low :: rest) := by
          rw [scanText, if_neg]
          simpa [lit, eq_comm] using hPrefix
        rw [hScan, scan]
        by_cases hDigits : high ∈ hexDigits ∧ low ∈ hexDigits
        · rw [if_pos hDigits, if_pos hDigits]
          simp only [putAll, bind_assoc]
          congr 1
          funext next
          exact fromHexLoop_eq rest _ 2 next rfl (by decide)
        · rw [if_neg hDigits, if_neg (by simpa using hPrefix), if_neg hDigits]
          rfl

end Qrvmc
