import Qrvmc.Hex.FixedSize

/-! The hexadecimal encoder and its round trips. The encoder writes lower-case
digits without a prefix, so no decoder takes its output for prefixed text, and
the digits it writes are the canonical ones among those that spell the bytes. -/
namespace Qrvmc

/-- The table `hex_digits`. -/
def lowerHexDigits : List CChar := lit "0123456789abcdef"

/-- `hex` of one byte. Neither half of a byte indexes beyond the digits. -/
def hexByte (b : UInt8) : List CChar :=
  [lowerHexDigits.getD (b >>> 4).toNat 0, lowerHexDigits.getD (b &&& 0xf).toNat 0]

/-- `hex` of a byte string. -/
def hex (bs : List UInt8) : List CChar := bs.foldl (fun str b => str ++ hexByte b) []

/-- The lower-case letter for an upper-case one, and every other character itself. -/
def lowerCase (c : CChar) : CChar := if chr 'A' ≤ c ∧ c ≤ chr 'Z' then c + 32 else c

theorem hex_eq_flatMap (bs : List UInt8) : hex bs = bs.flatMap hexByte := by
  have hFold (str : List CChar) :
      bs.foldl (fun str b => str ++ hexByte b) str = str ++ bs.flatMap hexByte := by
    induction bs generalizing str with
    | nil => simp
    | cons b rest ih => rw [List.foldl_cons, ih, List.flatMap_cons, List.append_assoc]
  exact hFold []

@[simp] theorem hex_nil : hex [] = [] := rfl

theorem hex_cons (b : UInt8) (rest : List UInt8) : hex (b :: rest) = hexByte b ++ hex rest := by
  rw [hex_eq_flatMap, hex_eq_flatMap, List.flatMap_cons]

/-- The two digits of a byte spell it. -/
theorem hexByte_spells (b : UInt8) :
    ∃ high low, hexByte b = [high, low] ∧ high ∈ hexDigits ∧ low ∈ hexDigits ∧
      digitPair high low = b := by
  have hAll : ∀ byte : Fin 256,
      lowerHexDigits.getD (UInt8.ofFin byte >>> 4).toNat 0 ∈ hexDigits ∧
      lowerHexDigits.getD (UInt8.ofFin byte &&& 0xf).toNat 0 ∈ hexDigits ∧
      digitPair (lowerHexDigits.getD (UInt8.ofFin byte >>> 4).toNat 0)
        (lowerHexDigits.getD (UInt8.ofFin byte &&& 0xf).toNat 0) = UInt8.ofFin byte := by
    decide +kernel
  exact ⟨_, _, rfl, hAll b.toFin⟩

/-- Two digits that spell a byte are the encoder's up to the case of letters. -/
theorem hexByte_digitPair {high low : CChar} (hHigh : high ∈ hexDigits) (hLow : low ∈ hexDigits) :
    hexByte (digitPair high low) = [lowerCase high, lowerCase low] := by
  have hAll : ∀ high ∈ hexDigits, ∀ low ∈ hexDigits,
      hexByte (digitPair high low) = [lowerCase high, lowerCase low] := by
    decide +kernel
  exact hAll high hHigh low hLow

theorem hexText_hex (bs : List UInt8) : HexText (hex bs) := by
  induction bs with
  | nil => exact HexText.nil
  | cons b rest ih =>
      obtain ⟨high, low, hByte, hHigh, hLow, _⟩ := hexByte_spells b
      rw [hex_cons, hByte]
      exact (HexText.pair_iff high low (hex rest)).mpr ⟨hHigh, hLow, ih⟩

@[simp] theorem decodeDigits_hex (bs : List UInt8) : decodeDigits (hex bs) = bs := by
  induction bs with
  | nil => rfl
  | cons b rest ih =>
      obtain ⟨high, low, hByte, _, _, hSpells⟩ := hexByte_spells b
      rw [hex_cons, hByte, List.cons_append, List.singleton_append, decodeDigits_pair, hSpells, ih]

theorem hex_length (bs : List UInt8) : (hex bs).length / 2 = bs.length := by
  rw [← decodeDigits_length, decodeDigits_hex]

/-- Encoding the bytes that a text spells writes the text in lower case. -/
theorem hex_decodeDigits {text : List CChar} (hText : HexText text) :
    hex (decodeDigits text) = text.map lowerCase := by
  induction text using decodeDigits.induct with
  | case1 high low rest ih =>
      obtain ⟨hHigh, hLow, hRest⟩ := (HexText.pair_iff high low rest).mp hText
      rw [decodeDigits_pair, hex_cons, hexByte_digitPair hHigh hLow, ih hRest]
      rfl
  | case2 text hShort =>
      cases text with
      | nil => rfl
      | cons high rest =>
          cases rest with
          | nil => exact (HexText.not_single high hText).elim
          | cons low rest => exact (hShort high low rest rfl).elim

/-- The output of the encoder does not begin with the prefix. -/
theorem hex_plain (bs : List UInt8) : ¬lit "0x" <+: hex bs := by
  rintro ⟨rest, hSplit⟩
  exact HexText.not_prefixed rest (hSplit ▸ hexText_hex bs)

theorem fromHex_spelling {s : List CChar} {bs : List UInt8} (h : Spells s (hex bs)) :
    fromHex s = .ok (some bs) := by
  rw [fromHex_eq_some_iff]
  exact ⟨hex bs, h, (decodeDigits_hex bs).symm⟩

/-- The loop of the fixed-size decoders fills the last bytes of the array. -/
theorem fromHexAligned_hex {n : Nat} {bs : List UInt8} (hFits : bs.length ≤ n) :
    ∃ v : Vector UInt8 n, v.toList = List.replicate (n - bs.length) 0 ++ bs ∧
      fromHexAligned n (hex bs) = .ok (some v) := by
  have hSize : (List.replicate (n - bs.length) 0 ++ bs).toArray.size = n := by
    simp
    omega
  refine ⟨⟨(List.replicate (n - bs.length) 0 ++ bs).toArray, hSize⟩, by simp, ?_⟩
  rw [fromHexAligned_plain (hex bs) (hex_plain bs), hex_length, decodeDigits_hex]
  exact ⟨hexText_hex bs, hFits, by simp⟩

/-- What is left of a string without its optional `0x`. -/
def unprefixed (s : List CChar) : List CChar := if lit "0x" <+: s then s.drop 2 else s

theorem unprefixed_of_spells {s t : List CChar} (h : Spells s t) : unprefixed s = t := by
  unfold unprefixed
  by_cases hPrefix : lit "0x" <+: s
  · obtain ⟨r, rfl⟩ := hPrefix
    obtain ⟨rfl, _⟩ := spells_prefixed.mp h
    rw [if_pos (List.prefix_append _ _)]
    exact List.drop_left' (by decide)
  · obtain ⟨rfl, _⟩ := (spells_plain hPrefix).mp h
    rw [if_neg hPrefix]

/-- Every decoder inverts the encoder, whichever prefix it strips, and the encoder
inverts the decoder of byte strings up to the prefix and the case of digits. -/
theorem hex_roundTrip :
    (∀ bs, fromHex (hex bs) = .ok (some bs) ∧ fromHex (lit "0x" ++ hex bs) = .ok (some bs)) ∧
    (∀ n bs, bs.length ≤ n → ∃ v : Vector UInt8 n,
      v.toList = List.replicate (n - bs.length) 0 ++ bs ∧
      fromHexTo n (hex bs) = .ok (some v) ∧
      fromHexTo n (lit "0x" ++ hex bs) = .ok (some v) ∧
      ∀ pre, pre ++ hex bs ≠ [] → fromPrefixedHex n (pre ++ hex bs) pre = .ok (some v)) ∧
    (∀ s bs, fromHex s = .ok (some bs) → hex bs = (unprefixed s).map lowerCase) := by
  refine ⟨fun bs => ⟨?_, ?_⟩, fun n bs hFits => ?_, fun s bs hDecode => ?_⟩
  · exact fromHex_spelling ((spells_plain (hex_plain bs)).mpr ⟨rfl, hexText_hex bs⟩)
  · exact fromHex_spelling (spells_prefixed.mpr ⟨rfl, hexText_hex bs⟩)
  · obtain ⟨v, hBytes, hAligned⟩ := fromHexAligned_hex hFits
    refine ⟨v, hBytes, ?_, ?_, fun pre hNonempty => ?_⟩
    · rw [fromHexTo_plain (hex bs) (hex_plain bs), hAligned]
    · rw [fromHexTo_prefixed, hAligned]
    · rw [fromPrefixedHex_append hNonempty, hAligned]
  · obtain ⟨t, hSpells, rfl⟩ := (fromHex_eq_some_iff s bs).mp hDecode
    have hUnprefixed := unprefixed_of_spells hSpells
    obtain ⟨_, _, _, hText⟩ := hSpells
    rw [hex_decodeDigits hText, hUnprefixed]

end Qrvmc
