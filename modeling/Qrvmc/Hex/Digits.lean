import Qrvmc.Types.Basic

/-! The grammar of hexadecimal text, independent of any decoder. A text is a
sequence of digit pairs, each pair spelling one byte, high nibble first. -/
namespace Qrvmc

/-- The digits of both cases in the order of their values. -/
def hexDigits : List CChar := lit "0123456789abcdefABCDEF"

/-- The value of a digit. The upper-case digits follow the sixteen others. -/
def nibble (c : CChar) : Nat :=
  if hexDigits.idxOf c < 16 then hexDigits.idxOf c else hexDigits.idxOf c - 6

/-- An even number of digits of either case and nothing else. -/
structure HexText (text : List CChar) : Prop where
  even : text.length % 2 = 0
  digits : ∀ c ∈ text, c ∈ hexDigits

/-- The byte that two digits spell. -/
def digitPair (high low : CChar) : UInt8 := UInt8.ofNat (16 * nibble high + nibble low)

/-- The bytes that successive pairs of digits spell. -/
def decodeDigits : List CChar → List UInt8
  | high :: low :: rest => digitPair high low :: decodeDigits rest
  | _ => []

@[simp] theorem decodeDigits_nil : decodeDigits [] = [] := rfl

@[simp] theorem decodeDigits_pair (high low : CChar) (rest : List CChar) :
    decodeDigits (high :: low :: rest) = digitPair high low :: decodeDigits rest := rfl

@[simp] theorem decodeDigits_length (text : List CChar) :
    (decodeDigits text).length = text.length / 2 := by
  induction text using decodeDigits.induct with
  | case1 high low rest ih =>
      simp only [decodeDigits_pair, List.length_cons, ih]
      omega
  | case2 text hShort =>
      match text with
      | [] => rfl
      | [_] => simp [decodeDigits]
      | high :: low :: rest => exact (hShort high low rest rfl).elim

@[simp] theorem HexText.nil : HexText [] := ⟨rfl, by simp⟩

theorem HexText.not_single (c : CChar) : ¬HexText [c] := fun h => by simpa using h.even

/-- Hexadecimal text is built from pairs of digits. -/
theorem HexText.pair_iff (high low : CChar) (rest : List CChar) :
    HexText (high :: low :: rest) ↔
      high ∈ hexDigits ∧ low ∈ hexDigits ∧ HexText rest := by
  constructor
  · intro h
    have hEven := h.even
    refine ⟨h.digits high (by simp), h.digits low (by simp), ?_,
      fun c hMem => h.digits c (by simp [hMem])⟩
    simp only [List.length_cons] at hEven
    omega
  · rintro ⟨hHigh, hLow, hRest⟩
    refine ⟨?_, ?_⟩
    · have hEven := hRest.even
      simp only [List.length_cons]
      omega
    · intro c hMem
      rcases List.mem_cons.mp hMem with rfl | hMem
      · exact hHigh
      · rcases List.mem_cons.mp hMem with rfl | hMem
        · exact hLow
        · exact hRest.digits c hMem

/-- The letter that marks a prefix is no digit, so no text begins with `0x`. -/
theorem HexText.not_prefixed (rest : List CChar) : ¬HexText (lit "0x" ++ rest) := by
  intro h
  have hMem : chr 'x' ∈ hexDigits := h.digits _ (by simp [lit])
  revert hMem
  decide

end Qrvmc
