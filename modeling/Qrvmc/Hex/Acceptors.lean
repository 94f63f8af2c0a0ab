import Qrvmc.Hex.Loop

/-! The two acceptors of hexadecimal text. The byte-string decoder and the
validator run one loop with different output iterators, so both accept the same
texts, and these are exactly the texts of the grammar. -/
namespace Qrvmc

/-- The text of digits behind the optional `0x` of a string. -/
def Spells (s t : List CChar) : Prop :=
  ∃ pre, (pre = [] ∨ pre = lit "0x") ∧ s = pre ++ t ∧ HexText t

theorem spells_plain {s t : List CChar} (hPlain : ¬lit "0x" <+: s) :
    Spells s t ↔ t = s ∧ HexText s := by
  constructor
  · rintro ⟨pre, rfl | rfl, rfl, hText⟩
    · exact ⟨rfl, hText⟩
    · exact (hPlain (List.prefix_append _ _)).elim
  · rintro ⟨rfl, hText⟩
    exact ⟨[], Or.inl rfl, rfl, hText⟩

theorem spells_prefixed {r t : List CChar} : Spells (lit "0x" ++ r) t ↔ t = r ∧ HexText r := by
  constructor
  · rintro ⟨pre, rfl | rfl, hSplit, hText⟩
    · rw [List.nil_append] at hSplit
      exact (HexText.not_prefixed r (hSplit ▸ hText)).elim
    · obtain rfl := List.append_cancel_left hSplit
      exact ⟨rfl, hText⟩
  · rintro ⟨rfl, hText⟩
    exact ⟨lit "0x", Or.inr rfl, rfl, hText⟩

theorem scanText_of_spells {s t : List CChar} (h : Spells s t) :
    scanText s = (decodeDigits t, true) := by
  obtain ⟨pre, hPre, rfl, hText⟩ := h
  rcases hPre with rfl | rfl
  · have hPlain : ¬lit "0x" <+: [] ++ t := by
      rintro ⟨rest, hRest⟩
      exact HexText.not_prefixed rest (hRest ▸ hText)
    rw [scanText, if_neg hPlain]
    exact scan_of_hexText hText
  · rw [scanText, if_pos (List.prefix_append _ _)]
    exact scan_of_hexText hText

theorem spells_of_scanText {s : List CChar} (h : (scanText s).2 = true) : ∃ t, Spells s t := by
  by_cases hPrefix : lit "0x" <+: s
  · obtain ⟨t, rfl⟩ := hPrefix
    rw [scanText, if_pos (List.prefix_append _ _), scan_snd_iff] at h
    exact ⟨t, lit "0x", Or.inr rfl, rfl, h⟩
  · rw [scanText, if_neg hPrefix, scan_snd_iff] at h
    exact ⟨s, [], Or.inl rfl, rfl, h⟩

theorem scanText_snd_iff (s : List CChar) : (scanText s).2 = true ↔ ∃ t, Spells s t := by
  refine ⟨spells_of_scanText, ?_⟩
  rintro ⟨t, hSpells⟩
  rw [scanText_of_spells hSpells]

theorem putAll_noop (out : NoopOutputIterator) (bytes : List UInt8) :
    putAll out bytes = .ok out := by
  induction bytes with
  | nil => rfl
  | cons byte rest ih => exact ih

theorem putAll_backInserter (start bytes : List UInt8) :
    putAll (⟨start⟩ : BackInserter) bytes = .ok ⟨start ++ bytes⟩ := by
  induction bytes generalizing start with
  | nil => simp [putAll]
  | cons byte rest ih =>
      change putAll (⟨start ++ [byte]⟩ : BackInserter) rest = _
      rw [ih, List.append_assoc, List.singleton_append]

theorem validateHex_eq (s : List CChar) : validateHex s = .ok (scanText s).2 := by
  rw [validateHex, fromHexIter_eq, putAll_noop]
  rfl

theorem fromHex_eq (s : List CChar) :
    fromHex s = .ok (if (scanText s).2 then some (scanText s).1 else none) := by
  rw [fromHex, fromHexIter_eq, putAll_backInserter]
  rfl

theorem fromHex_eq_some_iff (s : List CChar) (bytes : List UInt8) :
    fromHex s = .ok (some bytes) ↔ ∃ t, Spells s t ∧ bytes = decodeDigits t := by
  rw [fromHex_eq]
  constructor
  · intro h
    by_cases hScan : (scanText s).2 = true
    · obtain ⟨t, hSpells⟩ := spells_of_scanText hScan
      rw [scanText_of_spells hSpells] at h
      exact ⟨t, hSpells, by simpa using h.symm⟩
    · simp [hScan] at h
  · rintro ⟨t, hSpells, rfl⟩
    simp [scanText_of_spells hSpells]

/-- Decoder and validator accept the same strings, namely an optional `0x`
followed by an even number of digits. The decoded bytes are those spelled by
the digits, and both reject every other string. -/
theorem fromHex_grammar (s : List CChar) :
    ((∃ bytes, fromHex s = .ok (some bytes)) ↔ validateHex s = .ok true) ∧
    (validateHex s = .ok true ↔
      ∃ pre t, (pre = [] ∨ pre = lit "0x") ∧ s = pre ++ t ∧ HexText t) ∧
    (∀ pre t, (pre = [] ∨ pre = lit "0x") → s = pre ++ t → HexText t →
      fromHex s = .ok (some (decodeDigits t)) ∧ (decodeDigits t).length = t.length / 2) ∧
    ((¬∃ pre t, (pre = [] ∨ pre = lit "0x") ∧ s = pre ++ t ∧ HexText t) →
      fromHex s = .ok none ∧ validateHex s = .ok false) := by
  have hGrammar : (scanText s).2 = true ↔
      ∃ pre t, (pre = [] ∨ pre = lit "0x") ∧ s = pre ++ t ∧ HexText t := by
    rw [scanText_snd_iff]
    exact exists_comm
  refine ⟨?_, ?_, ?_, ?_⟩
  · simp [fromHex_eq, validateHex_eq]
  · rw [← hGrammar, validateHex_eq]
    simp
  · intro pre t hPre hSplit hText
    refine ⟨?_, decodeDigits_length t⟩
    rw [fromHex_eq_some_iff]
    exact ⟨t, ⟨pre, hPre, hSplit, hText⟩, rfl⟩
  · intro hNone
    rw [← hGrammar, Bool.not_eq_true] at hNone
    simp [fromHex_eq, validateHex_eq, hNone]

end Qrvmc
