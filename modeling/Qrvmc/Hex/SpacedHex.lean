import Qrvmc.Hex.FilterTraversal

/-! The decoder of spaced text against the decoder of plain text. The adaptor over a
range yields the elements of the range that its predicate keeps, and the loop of the
decoder depends on an input range through what it yields only. -/
namespace Qrvmc
open Containers

variable {Stream : Type}

/-- The loop over a range does what it does over the list that the range yields. -/
theorem fromHexRange_eq {Iter Out : Type} [OutputIterator Out]
    {ops : IteratorOps Iter Stream CChar Undefined} {last it : Iter} {stream : Stream}
    {input : List CChar} (hYields : Yields ops last it stream input) {fuel : Nat}
    (hFuel : input.length < fuel) (hiNibble : Int32) (i : Nat) (out : Out) :
    (fromHexRange ops last fuel it hiNibble i out stream).map Prod.fst =
      fromHexLoop input hiNibble i out := by
  induction hYields generalizing fuel hiNibble i out with
  | done hDone =>
      cases fuel with
      | zero => omega
      | succ fuel =>
          rw [fromHexRange, if_neg (by rw [hDone]; decide)]
          rfl
  | @item it next stream read after h rest hMore hRead hStill hNext _ ih =>
      rw [List.length_cons] at hFuel
      cases fuel with
      | zero => omega
      | succ fuel =>
          have hRest (hiNibble : Int32) (out : Out) :=
            ih (show rest.length < fuel by omega) hiNibble (i + 1) out
          rw [fromHexRange, if_pos hMore, hRead, fromHexLoop]
          simp only [bind, Except.bind]
          split
          · split
            · rw [hNext]
              exact hRest hiNibble out
            · rfl
          · split
            · rw [hNext]
              exact hRest _ out
            · cases OutputIterator.put out (hiNibble ||| fromHexDigit h).toUInt32.toUInt8 with
              | error fault => rfl
              | ok out =>
                  simp only [hNext]
                  exact hRest hiNibble out

/-- From a range, spaced text is decoded as the text that the range yields without its
white space. -/
theorem fromSpacedHexRange_eq {Iter : Type} {ops : IteratorOps Iter Stream CChar Undefined}
    {first last : Iter} {stream : Stream} {input : List CChar}
    (hYields : Yields ops last first stream input)
    (hEnd : ∀ stream, ops.ne last last stream = false) {fuel : Nat} (hFuel : input.length < fuel) :
    (fromSpacedHexRange ops fuel first last stream).map Prod.fst =
      fromHex (input.filter isNotSpace) := by
  obtain ⟨ahead, reached, hConstruct, hFiltered⟩ :=
    @FilterIterator.construct_yields _ _ _ _ _ _ isNotSpace _ _ _ hYields hFuel
  have hShort : (input.filter isNotSpace).length < fuel :=
    Nat.lt_of_le_of_lt (List.length_filter_le _ _) hFuel
  have hLoop := fromHexRange_eq hFiltered hShort (-1) 0 (⟨[]⟩ : BackInserter)
  rw [fromHex, fromHexIter, ← hLoop, fromSpacedHexRange, hConstruct]
  change ((FilterIterator.construct ops isNotSpace fuel last last reached >>= _) : Exec _).map _ = _
  rw [FilterIterator.construct_end (Nat.zero_lt_of_lt hFuel) (hEnd reached)]
  change ((fromHexRange _ _ _ _ _ _ _ _ >>= _) : Exec _).map _ = _
  cases fromHexRange (FilterIterator.iteratorOps ops isNotSpace fuel) ⟨last, last, none⟩ fuel ahead
    (-1) 0 (⟨[]⟩ : BackInserter) reached with
  | error fault => rfl
  | ok outcome => rfl

/-- The white space of `isspace`: space, tab, line feed, vertical tab, form feed and
carriage return. -/
def whiteSpace : List CChar := [chr ' ', chr '\t', chr '\n', 11, 12, chr '\r']

/-- No other character is taken for white space, also none with a negative value. -/
theorem isNotSpace_eq (ch : CChar) : isNotSpace ch = !whiteSpace.contains ch := by
  apply forall_char (motive := fun ch => isNotSpace ch = !whiteSpace.contains ch)
  decide +kernel

theorem fromSpacedHex_eq (s : List CChar) : fromSpacedHex s = fromHex (s.filter isNotSpace) := by
  have hYields : Yields (arrayOps s Undefined.outOfBounds) s.length 0 () s :=
    yields_arrayOps [] s Undefined.outOfBounds
  have hEnd (stream : Unit) :
      (arrayOps s Undefined.outOfBounds).ne s.length s.length stream = false := by
    simp [arrayOps]
  rw [← fromSpacedHexRange_eq hYields hEnd (Nat.lt_succ_self _), fromSpacedHex]
  cases fromSpacedHexRange (arrayOps s Undefined.outOfBounds) (s.length + 1) 0 s.length () with
  | error fault => rfl
  | ok outcome => rfl

/-- Spaced text is decoded as the text without its white space: from a string, from a
source that gives each character once, and from any range that yields the text. -/
theorem spaced_hex_of_filtered (s : List CChar) :
    fromSpacedHex s = fromHex (s.filter fun ch => !whiteSpace.contains ch) ∧
    (∀ fuel, s.length < fuel →
      (fromSpacedHexRange (singlePassOps .outOfBounds) fuel false true ⟨s, false⟩).map Prod.fst =
        fromHex (s.filter fun ch => !whiteSpace.contains ch)) ∧
    ∀ (Iter Stream : Type) (ops : IteratorOps Iter Stream CChar Undefined) (first last : Iter)
      (stream : Stream), Yields ops last first stream s →
      (∀ stream, ops.ne last last stream = false) → ∀ fuel, s.length < fuel →
      (fromSpacedHexRange ops fuel first last stream).map Prod.fst =
        fromHex (s.filter fun ch => !whiteSpace.contains ch) := by
  have hFilter : (fun ch => !whiteSpace.contains ch) = isNotSpace := by
    funext ch
    exact (isNotSpace_eq ch).symm
  rw [hFilter]
  refine ⟨fromSpacedHex_eq s, fun fuel hFuel => ?_, ?_⟩
  · apply fromSpacedHexRange_eq (yields_singlePassOps s .outOfBounds) _ hFuel
    intro source
    simp [singlePassOps]
  · intro Iter Stream ops first last stream hYields hEnd fuel hFuel
    exact fromSpacedHexRange_eq hYields hEnd hFuel

/-- White space inside the prefix and between two digits. -/
theorem spaced_hex_of_split_prefix :
    (fromSpacedHexRange (singlePassOps .outOfBounds) 7 false true ⟨lit "0 x1\t2", false⟩).map
      Prod.fst = fromHex (lit "0x12") :=
  (spaced_hex_of_filtered (lit "0 x1\t2")).2.1 7 (by decide)

end Qrvmc
