import Qrvmc.Hex.Acceptors

/-! The decoders into fixed-size arrays. Both place the output by half the length
of what follows their own prefix. The shared loop strips a `0x` of its own, so a
second prefix is accepted and shifts the decoded bytes away from the end. -/
namespace Qrvmc

variable {n : Nat}

/-- Writing inside the array replaces exactly the bytes from the index on. -/
theorem putAll_bytePointer (out : BytePointer n) (bytes : List UInt8)
    (h : out.index + bytes.length ≤ n) :
    ∃ final : BytePointer n, putAll out bytes = .ok final ∧
      final.bytes.toList = out.bytes.toList.take out.index ++ bytes ++
        out.bytes.toList.drop (out.index + bytes.length) := by
  induction bytes generalizing out with
  | nil => exact ⟨out, rfl, by simp⟩
  | cons byte rest ih =>
      rw [List.length_cons] at h
      have hIndex : out.index < n := by omega
      obtain ⟨final, hPut, hBytes⟩ :=
        ih ⟨out.bytes.set out.index byte, out.index + 1⟩ (by simp only; omega)
      refine ⟨final, ?_, ?_⟩
      · simp only [putAll, OutputIterator.put, dif_pos hIndex]
        exact hPut
      · have hTake : ((out.bytes.set out.index byte).toList).take (out.index + 1) =
            out.bytes.toList.take out.index ++ [byte] := by
          rw [Vector.toList_set, List.take_set, List.take_add_one,
            List.getElem?_eq_getElem (by simpa using hIndex), Option.toList_some, List.set_append]
          simp [Nat.min_eq_left (Nat.le_of_lt hIndex)]
        have hDrop : ((out.bytes.set out.index byte).toList).drop (out.index + 1 + rest.length) =
            out.bytes.toList.drop (out.index + (byte :: rest).length) := by
          rw [Vector.toList_set, List.drop_set_of_lt (by omega), List.length_cons]
          congr 1
          omega
        rw [hBytes, hTake, hDrop]
        simp

theorem scanText_length_le (text : List CChar) : (scanText text).1.length ≤ text.length / 2 := by
  by_cases hPrefix : lit "0x" <+: text
  · have hLength := scan_length_le (text.drop 2)
    rw [List.length_drop] at hLength
    rw [scanText, if_pos hPrefix]
    omega
  · rw [scanText, if_neg hPrefix]
    exact scan_length_le text

/-- Decoding never leaves the array: the bytes read fit behind the offset, and
what they do not fill up to the end keeps its zeros. -/
theorem fromHexAligned_eq (s : List CChar) (hFits : s.length / 2 ≤ n) :
    ∃ r : Vector UInt8 n,
      fromHexAligned n s = .ok (if (scanText s).2 then some r else none) ∧
      r.toList = List.replicate (n - s.length / 2) 0 ++ (scanText s).1 ++
        List.replicate (s.length / 2 - (scanText s).1.length) 0 := by
  have hLength := scanText_length_le s
  obtain ⟨final, hPut, hBytes⟩ := putAll_bytePointer
    (⟨Vector.replicate n 0, n - s.length / 2⟩ : BytePointer n) (scanText s).1
    (by simp only; omega)
  refine ⟨final.bytes, ?_, ?_⟩
  · simp only [fromHexAligned, gt_iff_lt, Nat.not_lt.mpr hFits, ↓reduceIte, fromHexIter_eq, hPut]
    rfl
  · have hFront : min (n - s.length / 2) n = n - s.length / 2 := by omega
    have hBack : n - (n - s.length / 2 + (scanText s).1.length) =
        s.length / 2 - (scanText s).1.length := by omega
    rw [hBytes, Vector.toList_replicate, List.take_replicate, List.drop_replicate, hFront, hBack]

theorem fromHexAligned_eq_some_iff (s : List CChar) (v : Vector UInt8 n) :
    fromHexAligned n s = .ok (some v) ↔ (scanText s).2 = true ∧ s.length / 2 ≤ n ∧
      v.toList = List.replicate (n - s.length / 2) 0 ++ (scanText s).1 ++
        List.replicate (s.length / 2 - (scanText s).1.length) 0 := by
  by_cases hFits : s.length / 2 ≤ n
  · obtain ⟨r, hDecode, hBytes⟩ := fromHexAligned_eq s hFits
    rw [hDecode, ← hBytes, Vector.toList_inj]
    cases hScan : (scanText s).2 <;> simp [hFits, eq_comm]
  · simp [fromHexAligned, Nat.lt_of_not_le hFits, hFits]

/-- Text without a prefix ends at the end of the array. -/
theorem fromHexAligned_plain (s : List CChar) (hPlain : ¬lit "0x" <+: s) (v : Vector UInt8 n) :
    fromHexAligned n s = .ok (some v) ↔ HexText s ∧ s.length / 2 ≤ n ∧
      v.toList = List.replicate (n - s.length / 2) 0 ++ decodeDigits s := by
  rw [fromHexAligned_eq_some_iff, scanText, if_neg hPlain, scan_snd_iff]
  refine and_congr_right fun hText => and_congr_right fun _ => ?_
  simp [scan_of_hexText hText]

/-- A prefix that reaches the loop is accepted and leaves the last byte unwritten. -/
theorem fromHexAligned_prefixed (t : List CChar) (v : Vector UInt8 n) :
    fromHexAligned n (lit "0x" ++ t) = .ok (some v) ↔ HexText t ∧ t.length / 2 + 1 ≤ n ∧
      v.toList = List.replicate (n - (t.length / 2 + 1)) 0 ++ decodeDigits t ++ [0] := by
  have hHalf : (lit "0x" ++ t).length / 2 = t.length / 2 + 1 := by
    have hPrefix : (lit "0x").length = 2 := by decide
    rw [List.length_append, hPrefix]
    omega
  have hDrop : (lit "0x" ++ t).drop 2 = t := List.drop_left' (by decide)
  rw [fromHexAligned_eq_some_iff, scanText, if_pos (List.prefix_append _ _), hDrop, hHalf,
    scan_snd_iff]
  refine and_congr_right fun hText => and_congr_right fun _ => ?_
  simp [scan_of_hexText hText]

/-- The fixed-size decoder returns what the byte-string decoder returns, padded
with zeros on the left, and rejects whatever that one rejects or cannot fit. -/
def DecodersAgree (n : Nat) (s : List CChar) : Prop :=
  ∀ v : Vector UInt8 n, fromHexTo n s = .ok (some v) ↔
    ∃ b, fromHex s = .ok (some b) ∧ b.length ≤ n ∧
      v.toList = List.replicate (n - b.length) 0 ++ b

/-- Two prefixes in a row before digits that leave room for one more byte. -/
def DoublyPrefixed (n : Nat) (s : List CChar) : Prop :=
  ∃ t, s = lit "0x" ++ (lit "0x" ++ t) ∧ HexText t ∧ t.length / 2 + 1 ≤ n

theorem fromHexTo_prefixed (r : List CChar) : fromHexTo n (lit "0x" ++ r) = fromHexAligned n r := by
  simp [fromHexTo, lit]

theorem fromHexTo_plain (s : List CChar) (hPlain : ¬lit "0x" <+: s) :
    fromHexTo n s = fromHexAligned n s := by
  rw [fromHexTo, if_neg]
  rintro ⟨_, hFirst, hSecond⟩
  apply hPlain
  match s with
  | a :: b :: rest =>
      simp only [List.getElem?_cons_zero, List.getElem?_cons_succ, Option.some.injEq] at hFirst hSecond
      rw [hFirst, hSecond]
      exact List.prefix_append _ rest

/-- On hexadecimal text the two decoders differ by the padding alone. -/
theorem padded_iff {t : List CChar} (hText : HexText t) {s : List CChar}
    (hSpells : ∀ t', Spells s t' ↔ t' = t ∧ HexText t) (v : Vector UInt8 n) :
    (∃ b, fromHex s = .ok (some b) ∧ b.length ≤ n ∧
        v.toList = List.replicate (n - b.length) 0 ++ b) ↔
      t.length / 2 ≤ n ∧ v.toList = List.replicate (n - t.length / 2) 0 ++ decodeDigits t := by
  simp only [fromHex_eq_some_iff, hSpells]
  constructor
  · rintro ⟨b, ⟨t', ⟨rfl, _⟩, rfl⟩, hFits, hBytes⟩
    rw [decodeDigits_length] at hFits hBytes
    exact ⟨hFits, hBytes⟩
  · rintro ⟨hFits, hBytes⟩
    exact ⟨decodeDigits t, ⟨t, ⟨rfl, hText⟩, rfl⟩, by simpa using hFits, by simpa using hBytes⟩

theorem rejected_iff {s : List CChar} (hNone : ∀ t, ¬Spells s t) (v : Vector UInt8 n) :
    ¬∃ b, fromHex s = .ok (some b) ∧ b.length ≤ n ∧
      v.toList = List.replicate (n - b.length) 0 ++ b := by
  rintro ⟨b, hDecode, _⟩
  obtain ⟨t, hSpells, _⟩ := (fromHex_eq_some_iff s b).mp hDecode
  exact hNone t hSpells

/-- A text `t` that reaches the loop without a prefix is decoded as by `fromHex`. -/
theorem decodersAgree_of_aligned {s t : List CChar} (hPlain : ¬lit "0x" <+: t)
    (hAligned : fromHexTo n s = fromHexAligned n t)
    (hSpells : ∀ t', Spells s t' ↔ t' = t ∧ HexText t) : DecodersAgree n s := by
  intro v
  rw [hAligned, fromHexAligned_plain t hPlain]
  by_cases hText : HexText t
  · rw [padded_iff hText hSpells]
    simp [hText]
  · simp [hText, rejected_iff (s := s) (n := n) (by simp [hSpells, hText])]

/-- Some value has the shifted bytes that a prefix inside the loop produces. -/
theorem exists_shifted (t : List CChar) (hFits : t.length / 2 + 1 ≤ n) :
    ∃ v : Vector UInt8 n,
      v.toList = List.replicate (n - (t.length / 2 + 1)) 0 ++ decodeDigits t ++ [0] :=
  ⟨⟨(List.replicate (n - (t.length / 2 + 1)) 0 ++ decodeDigits t ++ [0]).toArray, by
    simp
    omega⟩, by simp⟩

theorem DoublyPrefixed.disagree {s : List CChar} (h : DoublyPrefixed n s) : ¬DecodersAgree n s := by
  obtain ⟨t, rfl, hText, hFits⟩ := h
  intro hAgree
  obtain ⟨v, hBytes⟩ := exists_shifted t hFits
  have hAccepts : fromHexTo n (lit "0x" ++ (lit "0x" ++ t)) = .ok (some v) := by
    rw [fromHexTo_prefixed, fromHexAligned_prefixed]
    exact ⟨hText, hFits, hBytes⟩
  refine rejected_iff (fun t' hSpells => ?_) v ((hAgree v).mp hAccepts)
  exact HexText.not_prefixed t (spells_prefixed.mp hSpells).2

/-- The two public decoders agree exactly on the strings that do not carry two
prefixes before digits short enough for the type. -/
theorem decodersAgree_iff (n : Nat) (s : List CChar) :
    DecodersAgree n s ↔ ¬DoublyPrefixed n s := by
  refine ⟨fun hAgree hDouble => hDouble.disagree hAgree, fun hSingle => ?_⟩
  by_cases hPrefix : lit "0x" <+: s
  · obtain ⟨r, rfl⟩ := hPrefix
    by_cases hSecond : lit "0x" <+: r
    · obtain ⟨t, rfl⟩ := hSecond
      intro v
      rw [fromHexTo_prefixed, fromHexAligned_prefixed]
      refine iff_of_false ?_ (rejected_iff (fun t' hSpells => ?_) v)
      · rintro ⟨hText, hFits, _⟩
        exact hSingle ⟨t, rfl, hText, hFits⟩
      · exact HexText.not_prefixed t (spells_prefixed.mp hSpells).2
    · exact decodersAgree_of_aligned hSecond (fromHexTo_prefixed r) fun _ => spells_prefixed
  · exact decodersAgree_of_aligned hPrefix (fromHexTo_plain s hPrefix) fun _ => spells_plain hPrefix

/-- A second prefix is rejected in a byte string, but a 20-byte type accepts it
and the decoded byte is not even the last one. -/
theorem doublePrefix_disagree :
    fromHex (lit "0x0x01") = .ok none ∧
    fromHexTo 20 (lit "0x0x01") =
      .ok (some #v[0, 0, 0, 0, 0, 0, 0, 0, 0, 0, 0, 0, 0, 0, 0, 0, 0, 0, 1, 0]) ∧
    ¬DecodersAgree 20 (lit "0x0x01") :=
  ⟨by decide +kernel, by decide +kernel,
    DoublyPrefixed.disagree ⟨lit "01", rfl, ⟨rfl, by decide +kernel⟩, by decide⟩⟩

/-- The grammar of prefixed text: the empty string, or the prefix followed by at
most `2 * n` digits, which fill the last places of the array. -/
def PrefixedGrammar (n : Nat) (s pre : List CChar) : Prop :=
  ∀ v : Vector UInt8 n, fromPrefixedHex n s pre = .ok (some v) ↔
    (s = [] ∧ v.toList = List.replicate n 0) ∨
    ∃ t, s = pre ++ t ∧ HexText t ∧ t.length ≤ 2 * n ∧
      v.toList = List.replicate (n - t.length / 2) 0 ++ decodeDigits t

/-- A `0x` between the prefix and digits that leave room for one more byte. -/
def NestedPrefix (n : Nat) (s pre : List CChar) : Prop :=
  ∃ t, s = pre ++ (lit "0x" ++ t) ∧ HexText t ∧ t.length / 2 + 1 ≤ n

theorem rfind_zero (s pattern : List CChar) : rfind s pattern 0 = some 0 ↔ pattern <+: s := by
  simp [rfind]

theorem fromPrefixedHex_append {pre t : List CChar} (hNonempty : pre ++ t ≠ []) :
    fromPrefixedHex n (pre ++ t) pre = fromHexAligned n t := by
  have hFound : rfind (pre ++ t) pre 0 = some 0 := (rfind_zero _ _).mpr (List.prefix_append _ _)
  simp [fromPrefixedHex, hFound, hNonempty]

theorem fromPrefixedHex_nil (pre : List CChar) (v : Vector UInt8 n) :
    fromPrefixedHex n [] pre = .ok (some v) ↔ v.toList = List.replicate n 0 := by
  rw [fromPrefixedHex, if_neg (by simp), fromHexAligned_plain [] (by decide)]
  simp

theorem NestedPrefix.not_grammar {s pre : List CChar} (h : NestedPrefix n s pre) :
    ¬PrefixedGrammar n s pre := by
  obtain ⟨t, rfl, hText, hFits⟩ := h
  intro hGrammar
  obtain ⟨v, hBytes⟩ := exists_shifted t hFits
  have hAccepts : fromPrefixedHex n (pre ++ (lit "0x" ++ t)) pre = .ok (some v) := by
    rw [fromPrefixedHex_append (by simp [lit]), fromHexAligned_prefixed]
    exact ⟨hText, hFits, hBytes⟩
  rcases (hGrammar v).mp hAccepts with ⟨hEmpty, _⟩ | ⟨t', hSplit, hText', _⟩
  · simp [lit] at hEmpty
  · obtain rfl := List.append_cancel_left hSplit
    exact HexText.not_prefixed t hText'

/-- Digits that end the string are decoded into the last places of the array. -/
theorem fromHexAligned_grammar (t : List CChar) (hPlain : ¬lit "0x" <+: t) (v : Vector UInt8 n) :
    fromHexAligned n t = .ok (some v) ↔ HexText t ∧ t.length ≤ 2 * n ∧
      v.toList = List.replicate (n - t.length / 2) 0 ++ decodeDigits t := by
  rw [fromHexAligned_plain t hPlain]
  refine and_congr_right fun hText => and_congr_left fun _ => ?_
  have hEven := hText.even
  omega

/-- The grammar holds for every width, string and prefix, except where a `0x`
stands between the prefix and digits short enough for the type. -/
theorem prefixedGrammar_iff (n : Nat) (s pre : List CChar) :
    PrefixedGrammar n s pre ↔ ¬NestedPrefix n s pre := by
  refine ⟨fun hGrammar hNested => hNested.not_grammar hGrammar, fun hPlain v => ?_⟩
  by_cases hEmpty : s = []
  · subst s
    rw [fromPrefixedHex_nil]
    refine ⟨fun hZero => Or.inl ⟨rfl, hZero⟩, ?_⟩
    rintro (⟨_, hZero⟩ | ⟨t, hSplit, _, _, hBytes⟩)
    · exact hZero
    · obtain ⟨_, rfl⟩ := List.append_eq_nil_iff.mp hSplit.symm
      simpa using hBytes
  · by_cases hPrefix : pre <+: s
    · obtain ⟨t, rfl⟩ := hPrefix
      rw [fromPrefixedHex_append hEmpty]
      simp only [hEmpty, false_and, false_or, List.append_cancel_left_eq, exists_eq_left']
      by_cases hSecond : lit "0x" <+: t
      · obtain ⟨t', rfl⟩ := hSecond
        rw [fromHexAligned_prefixed]
        refine iff_of_false ?_ fun h => HexText.not_prefixed t' h.1
        rintro ⟨hText, hFits, _⟩
        exact hPlain ⟨t', rfl, hText, hFits⟩
      · exact fromHexAligned_grammar t hSecond v
    · have hMissing : rfind s pre 0 ≠ some 0 := by rwa [Ne, rfind_zero]
      have hSplit : ∀ t, s ≠ pre ++ t := by
        rintro t rfl
        exact hPrefix (List.prefix_append _ _)
      simp [fromPrefixedHex, hEmpty, hMissing, hSplit]

/-- The address literal accepts a `0x` behind its `Q` and spells another address. -/
theorem nestedPrefix_accepted :
    fromPrefixedHex 20 (lit "Q0x01") (lit "Q") =
      .ok (some #v[0, 0, 0, 0, 0, 0, 0, 0, 0, 0, 0, 0, 0, 0, 0, 0, 0, 0, 1, 0]) ∧
    ¬PrefixedGrammar 20 (lit "Q0x01") (lit "Q") :=
  ⟨by decide +kernel, NestedPrefix.not_grammar ⟨lit "01", rfl, ⟨rfl, by decide +kernel⟩, by decide⟩⟩

end Qrvmc
