import Qrvmc.Containers.Iteration
import Qrvmc.Hex.FilterIterator

/-! The filter iterator over a whole range. Going through the filtered range makes the
uses of the base that going through the base range makes, so each element is read once. -/
namespace Qrvmc
open Containers

namespace FilterIterator

variable {Base Stream Item : Type} {ops : IteratorOps Base Stream Item Undefined} {last it : Base}
  {predicate : Item → Bool} {stream final : Stream} {items : List Item}

/-- Forwarding stops ahead of the kept elements of what the base yields. -/
theorem forward_exhausts {fuel : Nat} (hItems : Exhausts ops last it stream items final)
    (hFuel : items.length < fuel) {steps : Nat} (hSteps : items.length < steps)
    (value : Option Item) :
    ∃ ahead reached, forwardToNextValue ops predicate steps ⟨it, last, value⟩ stream =
        .ok (ahead, reached) ∧
      Exhausts (iteratorOps ops predicate fuel) ⟨last, last, none⟩ ahead reached
        (items.filter predicate) final := by
  induction hItems generalizing steps value with
  | done hDone =>
      cases steps with
      | zero => omega
      | succ steps =>
          refine ⟨_, _, by rw [forwardToNextValue, if_neg (by rw [hDone]; decide)], ?_⟩
          exact Exhausts.done hDone
  | @item it next stream read after final head rest hMore hRead hStill hNext _ ih =>
      rw [List.length_cons] at hFuel hSteps
      cases steps with
      | zero => omega
      | succ steps =>
          rw [forwardToNextValue, if_pos hMore, hRead]
          by_cases hKeep : predicate head = true
          · obtain ⟨ahead, reached, hForward, hRest⟩ :=
              ih (by omega) (show rest.length < fuel by omega) (some head)
            refine ⟨_, _, if_pos hKeep, ?_⟩
            rw [List.filter_cons_of_pos hKeep]
            apply Exhausts.item _ rfl _ _ hRest
            · exact hStill
            · exact hStill
            · simp only [iteratorOps, increment, hNext]
              exact hForward
          · obtain ⟨ahead, reached, hForward, hRest⟩ :=
              ih (by omega) (show rest.length < steps by omega) (some head)
            rw [List.filter_cons_of_neg hKeep]
            refine ⟨ahead, reached, ?_, hRest⟩
            simp only [bind, Except.bind, if_neg hKeep, hNext]
            exact hForward

theorem construct_yields {fuel : Nat} (hYields : Yields ops last it stream items)
    (hFuel : items.length < fuel) :
    ∃ ahead reached, construct ops predicate fuel it last stream = .ok (ahead, reached) ∧
      Yields (iteratorOps ops predicate fuel) ⟨last, last, none⟩ ahead reached
        (items.filter predicate) := by
  obtain ⟨final, hItems⟩ := hYields.exhausts
  obtain ⟨ahead, reached, hForward, hFiltered⟩ :=
    @forward_exhausts _ _ _ _ _ _ predicate _ _ _ _ hItems hFuel _ hFuel none
  exact ⟨ahead, reached, hForward, hFiltered.yields⟩

/-- The end of a range makes the end of the filtered range, and nothing is read. -/
theorem construct_end {fuel : Nat} (hFuel : 0 < fuel) {stream : Stream}
    (hEnd : ops.ne last last stream = false) :
    construct ops predicate fuel last last stream = .ok (⟨last, last, none⟩, stream) := by
  cases fuel with
  | zero => omega
  | succ fuel => rw [construct, forwardToNextValue, if_neg (by rw [hEnd]; decide)]

/-- The loop from `filter_iterator{first, last}` to `filter_iterator{last, last}`. -/
def traversal (ops : IteratorOps Base Stream Item Undefined) (predicate : Item → Bool) (fuel : Nat)
    (first last : Base) (stream : Stream) : Exec (List Item × Stream) := do
  let (first, stream) ← construct ops predicate fuel first last stream
  let (last, stream) ← construct ops predicate fuel last last stream
  traverse (iteratorOps ops predicate fuel) .outOfFuel last fuel first stream

theorem traversal_eq {fuel : Nat} (hItems : Exhausts ops last it stream items final)
    (hEnd : ∀ stream, ops.ne last last stream = false) (hFuel : items.length < fuel) :
    traversal ops predicate fuel it last stream = .ok (items.filter predicate, final) := by
  obtain ⟨ahead, reached, hConstruct, hFiltered⟩ :=
    @forward_exhausts _ _ _ _ _ _ predicate _ _ _ _ hItems hFuel _ hFuel none
  have hShort : (items.filter predicate).length < fuel :=
    Nat.lt_of_le_of_lt (List.length_filter_le _ _) hFuel
  have hFirst : construct ops predicate fuel it last stream = .ok (ahead, reached) := hConstruct
  have hLast := @construct_end _ _ _ ops last predicate fuel (Nat.zero_lt_of_lt hFuel) reached
    (hEnd reached)
  simp only [traversal, hFirst, hLast, hFiltered.traverse .outOfFuel hShort, bind, Except.bind]

/-- Over a range that is recorded, the loop gives the kept elements and leaves a record in
which each element is read once and stepped over once, in order, and nothing else is. -/
theorem traversal_reads_once (ops : IteratorOps Base Stream Item Undefined)
    (predicate : Item → Bool) {first last : Base} {stream : Stream} {items : List Item}
    (hYields : Yields ops last first stream items)
    (hEnd : ∀ stream, ops.ne last last stream = false) {fuel : Nat} (hFuel : items.length < fuel) :
    ∃ reached, traversal (recordingOps ops) predicate fuel first last { stream } =
      .ok (items.filter predicate, ⟨reached, items.length, eachOnce 0 items.length⟩) := by
  obtain ⟨reached, hRecorded⟩ := hYields.recorded 0 []
  rw [Nat.zero_add, List.nil_append] at hRecorded
  exact ⟨reached, traversal_eq hRecorded (fun recorded => hEnd recorded.stream) hFuel⟩

end FilterIterator

/-- Each finite sequence is filtered with one read of each element: as an array, as a
source that gives each element once, and as any range that yields it. -/
theorem filter_iterator_traversal (Item : Type) (predicate : Item → Bool) (items : List Item)
    (fuel : Nat) (hFuel : items.length < fuel) :
    FilterIterator.traversal (recordingOps (arrayOps items .outOfBounds)) predicate fuel 0
        items.length { stream := () } =
      .ok (items.filter predicate, ⟨(), items.length, eachOnce 0 items.length⟩) ∧
    (∃ reached, FilterIterator.traversal (recordingOps (singlePassOps .outOfBounds)) predicate fuel
        false true { stream := ⟨items, false⟩ } =
      .ok (items.filter predicate, ⟨reached, items.length, eachOnce 0 items.length⟩)) ∧
    ∀ (Base Stream : Type) (ops : IteratorOps Base Stream Item Undefined) (first last : Base)
      (stream : Stream), Yields ops last first stream items →
      (∀ stream, ops.ne last last stream = false) →
      ∃ reached, FilterIterator.traversal (recordingOps ops) predicate fuel first last { stream } =
        .ok (items.filter predicate, ⟨reached, items.length, eachOnce 0 items.length⟩) := by
  refine ⟨?_, ?_, ?_⟩
  · have hArray : Yields (arrayOps items Undefined.outOfBounds) items.length 0 () items :=
      yields_arrayOps [] items Undefined.outOfBounds
    obtain ⟨reached, hTraversal⟩ := FilterIterator.traversal_reads_once _ predicate hArray
      (fun _ => by simp [arrayOps]) hFuel
    exact hTraversal
  · exact FilterIterator.traversal_reads_once _ predicate
      (yields_singlePassOps items .outOfBounds) (fun _ => by simp [singlePassOps]) hFuel
  · intro Base Stream ops first last stream hYields hEnd
    exact FilterIterator.traversal_reads_once ops predicate hYields hEnd hFuel

theorem filter_iterator_traversal_even :
    FilterIterator.traversal (recordingOps (arrayOps [3, 4, 4, 7] .outOfBounds))
        (fun n => n % 2 == 0) 5 0 4 { stream := () } =
      .ok ([4, 4], ⟨(), 4, eachOnce 0 4⟩) :=
  (filter_iterator_traversal Nat (fun n => n % 2 == 0) [3, 4, 4, 7] 5 (by decide)).1

end Qrvmc
