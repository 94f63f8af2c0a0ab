import Mathlib.Data.List.Nodup
import Qrvmc.Wrapper.Result

/-! Ownership of results. Each statement of the class is an operation on owning
objects, so what was adopted is released exactly once, unless a caller still holds
it, and a result that owns its output shows the fields it was given. -/
namespace Qrvmc
open Ownership

theorem owned_of_null {cell : TrackedResult} (h : cell.release = none) :
    resultDiscipline.owned cell = none := if_neg (not_not_intro h)

theorem owned_of_release {cell : TrackedResult} (h : cell.release ≠ none) :
    resultDiscipline.owned cell = some cell := if_pos h

namespace Result
open Code

variable {heap : ResultHeap}

theorem destructor_run (this : Nat) :
    destructor this heap = (cellAt heap.objects this).map fun self => ((), { heap with
      disposed := heap.disposed ++ (resultDiscipline.owned self).toList }) := by
  rw [destructor, load_bind]
  cases cellAt heap.objects this with
  | none => rfl
  | some self =>
      rw [Option.bind_some, Option.map_some]
      by_cases hRelease : self.release = none
      · rw [if_neg (not_not_intro hRelease), owned_of_null hRelease, Option.toList_none,
          List.append_nil]
        rfl
      · rw [if_pos hRelease, owned_of_release hRelease]
        rfl

theorem moveConstruct_run (other : Nat) :
    moveConstruct other heap =
      (step resultDiscipline heap (.moveConstruct other)).map fun next => ((), next) := by
  rw [moveConstruct, step, load_bind]
  cases h : cellAt heap.objects other with
  | none => rfl
  | some cell =>
      have hSame := cellAt_append_left h [some cell]
      rw [Option.bind_some, construct_bind, load_bind, hSame]
      rfl

theorem moveAssign_run (this other : Nat) :
    moveAssign this other heap =
      (step resultDiscipline heap (.moveAssign this other)).map fun next => ((), next) := by
  rw [moveAssign, step, run_bind, destructor_run]
  cases hThis : cellAt heap.objects this with
  | none => rfl
  | some self =>
      rw [Option.map_some, Option.bind_some, load_bind]
      cases hOther : cellAt heap.objects other with
      | none => rfl
      | some cell =>
          have hSame := cellAt_set_same hThis hOther
          rw [Option.bind_some, store_bind, load_bind, hSame]
          rfl

theorem releaseRaw_run (this : Nat) :
    releaseRaw this heap =
      (step resultDiscipline heap (.release this)).map fun next => ((), next) := by
  rw [releaseRaw, step, load_bind]
  cases h : cellAt heap.objects this with
  | none => rfl
  | some cell =>
      rw [Option.bind_some, load_bind, h]
      rfl

theorem rewrap_run (raw : Nat) :
    rewrap raw heap =
      (step resultDiscipline heap (.rewrap raw)).map fun next => ((), next) := by
  rw [rewrap, step, handIn_bind]
  cases cellAt heap.raws raw <;> rfl

theorem destroy_run (this : Nat) :
    destroy this heap =
      (step resultDiscipline heap (.destroy this)).map fun next => ((), next) := by
  rw [destroy, step, run_bind, destructor_run]
  cases cellAt heap.objects this <;> rfl

end Result

/-- The operations on owning objects that a statement performs. -/
def ResultOp.operations (heap : ResultHeap) : ResultOp → List (Op TrackedResult)
  | .ofRaw res => [.adopt ⟨res, heap.adopted.length⟩]
  | .ofOutput buffer statusCode gasLeft gasRefund outputSize =>
      [.adopt ⟨qrvmcMakeResult buffer statusCode gasLeft gasRefund outputSize, heap.adopted.length⟩]
  | .ofGas statusCode gasLeft gasRefund =>
      [.adopt ⟨qrvmcMakeResult none statusCode gasLeft gasRefund 0, heap.adopted.length⟩]
  | .ofCreate statusCode gasLeft gasRefund createAddress =>
      [.adopt ⟨{ qrvmcMakeResult none statusCode gasLeft gasRefund 0 with createAddress },
        heap.adopted.length⟩]
  | .moveConstruct other => [.moveConstruct other]
  | .moveAssign this other => [.moveAssign this other]
  | .releaseRaw this => [.release this]
  | .rewrap raw => [.rewrap raw]
  | .hostCall returned => [.release returned, .destroy returned, .rewrap heap.raws.length]
  | .destroy this => [.destroy this]

/-- Across the boundary goes a copy, and the object it was taken from owns nothing. -/
theorem internalCall_run (heap : ResultHeap) (returned : Nat) :
    internalCall returned heap =
      (run resultDiscipline heap [.release returned, .destroy returned]).map
        fun next => (heap.raws.length, next) := by
  rw [internalCall, Code.run_bind_of _ (show (get : ResultCode ResultHeap) heap = some (heap, heap)
    from rfl), Code.run_bind, Result.releaseRaw_run, run_cons]
  cases step resultDiscipline heap (.release returned) with
  | none => rfl
  | some released =>
      rw [Option.map_some, Option.bind_some, Option.bind_some, Code.run_bind, Result.destroy_run,
        run_singleton]
      cases step resultDiscipline released (.destroy returned) <;> rfl

theorem hostContextCall_run (heap : ResultHeap) (returned : Nat) :
    hostContextCall returned heap =
      (run resultDiscipline heap
        [.release returned, .destroy returned, .rewrap heap.raws.length]).map
          fun next => ((), next) := by
  have hSplit : [Op.release returned, .destroy returned, .rewrap heap.raws.length] =
      [.release returned, .destroy returned] ++ [(.rewrap heap.raws.length : Op TrackedResult)] :=
    rfl
  rw [hostContextCall, Code.run_bind, internalCall_run, hSplit, run_append]
  cases run resultDiscipline heap [.release returned, .destroy returned] with
  | none => rfl
  | some next =>
      rw [Option.map_some, Option.bind_some, Option.bind_some, Result.rewrap_run, run_singleton]

/-- The class refines the operations on owning objects. -/
theorem ResultOp.exec_run (op : ResultOp) (heap : ResultHeap) :
    op.exec heap =
      (run resultDiscipline heap (op.operations heap)).map fun next => ((), next) := by
  cases op with
  | ofRaw res => rfl
  | ofOutput buffer statusCode gasLeft gasRefund outputSize => rfl
  | ofGas statusCode gasLeft gasRefund => rfl
  | ofCreate statusCode gasLeft gasRefund createAddress => rfl
  | moveConstruct other =>
      rw [exec, Result.moveConstruct_run, operations, run_singleton]
  | moveAssign this other =>
      rw [exec, Result.moveAssign_run, operations, run_singleton]
  | releaseRaw this =>
      rw [exec, Result.releaseRaw_run, operations, run_singleton]
  | rewrap raw =>
      rw [exec, Result.rewrap_run, operations, run_singleton]
  | hostCall returned => exact hostContextCall_run heap returned
  | destroy this =>
      rw [exec, Result.destroy_run, operations, run_singleton]

/-- What the operations of every statement preserve, a program preserves. -/
theorem runResults_invariant {invariant : ResultHeap → Prop}
    (hStep : ∀ heap (op : ResultOp) next, invariant heap →
      run resultDiscipline heap (op.operations heap) = some next → invariant next)
    {program : List ResultOp} {heap final : ResultHeap} (hStart : invariant heap)
    (hRun : runResults program heap = some ((), final)) : invariant final := by
  induction program generalizing heap with
  | nil =>
      cases hRun
      exact hStart
  | cons op rest ih =>
      rw [runResults, Code.run_bind, ResultOp.exec_run] at hRun
      cases hOp : run resultDiscipline heap (op.operations heap) with
      | none =>
          rw [hOp] at hRun
          cases hRun
      | some next =>
          rw [hOp] at hRun
          exact ih (hStep heap op next hStart hOp) hRun

theorem runResults_balanced {program : List ResultOp} {final : ResultHeap}
    (hRun : runResults program {} = some ((), final)) : Balanced resultDiscipline final :=
  runResults_invariant (fun _ _ _ hBalanced hOps => hBalanced.run hOps)
    (balanced_empty resultDiscipline) hRun

/-- The numbers of the adopted raw results are their positions. -/
def Numbered (adopted : List TrackedResult) : Prop :=
  ∀ (position : Nat) (res : TrackedResult), adopted[position]? = some res → res.origin = position

theorem Numbered.append {adopted : List TrackedResult} (h : Numbered adopted) (res : RawResult) :
    Numbered (adopted ++ [⟨res, adopted.length⟩]) := by
  intro position tracked hAt
  rcases Nat.lt_trichotomy position adopted.length with hLt | rfl | hGt
  · rw [List.getElem?_append_left hLt] at hAt
    exact h position tracked hAt
  · rw [List.getElem?_concat_length, Option.some.injEq] at hAt
    rw [← hAt]
  · rw [List.getElem?_eq_none (by simp; omega)] at hAt
    cases hAt

theorem Numbered.nodup {adopted : List TrackedResult} (h : Numbered adopted) : adopted.Nodup := by
  apply List.pairwise_iff_getElem.mpr
  intro first second hFirst hSecond hLt hSame
  have hPosition := h second _ (List.getElem?_eq_getElem hSecond)
  rw [← hSame, h first _ (List.getElem?_eq_getElem hFirst)] at hPosition
  omega

/-- What a statement adopts gets the next number. -/
theorem ResultOp.operations_adopts (op : ResultOp) (heap : ResultHeap) :
    (op.operations heap).flatMap Op.adopts = [] ∨
      ∃ res, (op.operations heap).flatMap Op.adopts = [⟨res, heap.adopted.length⟩] := by
  cases op with
  | ofRaw | ofOutput | ofGas | ofCreate => exact Or.inr ⟨_, rfl⟩
  | moveConstruct | moveAssign | releaseRaw | rewrap | hostCall | destroy => exact Or.inl rfl

theorem runResults_numbered {program : List ResultOp} {final : ResultHeap}
    (hRun : runResults program {} = some ((), final)) : Numbered final.adopted := by
  refine @runResults_invariant (fun heap => Numbered heap.adopted) ?_ program {} final ?_ hRun
  · intro heap op next hNumbered hOps
    rw [run_adopted resultDiscipline hOps]
    rcases op.operations_adopts heap with hNone | ⟨res, hOne⟩
    · rw [hNone, List.append_nil]
      exact hNumbered
    · rw [hOne]
      exact hNumbered.append res
  · intro position res hAt
    cases hAt

theorem eq_of_owned {cell res : TrackedResult} (h : resultDiscipline.owned cell = some res) :
    cell = res := by
  by_cases hRelease : cell.release = none
  · rw [owned_of_null hRelease] at h
    cases h
  · rw [owned_of_release hRelease] at h
    exact Option.some.inj h

/-- A raw result is owned by the structures that are copies of it. -/
theorem owned_iff {res : TrackedResult} (hRelease : res.release ≠ none)
    (cell : Option TrackedResult) :
    cell.bind resultDiscipline.owned = some res ↔ cell = some res := by
  constructor
  · intro hOwned
    obtain ⟨found, rfl, hFound⟩ := Option.bind_eq_some_iff.mp hOwned
    rw [eq_of_owned hFound]
  · rintro rfl
    exact owned_of_release hRelease

theorem tally_adopted {adopted : List TrackedResult} (h : Numbered adopted) {res : TrackedResult}
    (hMem : res ∈ adopted) (hRelease : res.release ≠ none) :
    tally resultDiscipline (adopted.map some) res = 1 := by
  rw [tally_eq_count _ (owned_iff hRelease), List.count_map_of_injective _ _ (Option.some_injective _)]
  exact List.count_eq_one_of_mem h.nodup hMem

/-- Whenever all results are destroyed, each release function was called once with
the result it belongs to, unless a caller of `release_raw` still has that result.
A result that owns its output is the raw result it was made from, field by field. -/
theorem result_ownership (program : List ResultOp) (heap : ResultHeap)
    (hRun : runResults program {} = some ((), heap)) :
    (∀ (this : Nat) (self : TrackedResult), heap.objects[this]? = some (some self) → self.release ≠ none →
      heap.adopted[self.origin]? = some self) ∧
    ((∀ object ∈ heap.objects, object = none) →
      ∀ (origin : Nat) (res : TrackedResult), heap.adopted[origin]? = some res → res.release ≠ none →
        heap.disposed.count res = if some res ∈ heap.raws then 0 else 1) := by
  have hBalanced := runResults_balanced hRun
  have hNumbered := runResults_numbered hRun
  constructor
  · intro this self hAt hRelease
    have hOwned : resultDiscipline.owned self ≠ none := by
      rw [owned_of_release hRelease]
      simp
    have hMem := Derived.adopted_of_owned hBalanced.objects (List.mem_of_getElem? hAt) hOwned
    obtain ⟨position, hPosition⟩ := List.mem_iff_getElem?.mp hMem
    rw [hNumbered position self hPosition]
    exact hPosition
  · intro hDead origin res hAt hRelease
    have hConserved := hBalanced.conserved res
    have hObjects : tally resultDiscipline heap.objects res = 0 :=
      tally_eq_zero resultDiscipline fun cell hMem => by cases hDead _ hMem
    rw [tally_adopted hNumbered (List.mem_of_getElem? hAt) hRelease, hObjects] at hConserved
    rw [tally_eq_count _ (owned_iff hRelease)] at hConserved
    split
    · next hRaw =>
        have hHeld := List.count_pos_iff.mpr hRaw
        omega
    · next hRaw =>
        rw [List.count_eq_zero_of_not_mem hRaw] at hConserved
        omega

/-- One raw result is moved, crosses the boundary and is assigned to itself, which
releases it. Another one is given away and stays with the caller. -/
theorem result_ownership_two :
    let first : TrackedResult := ⟨{ release := some 7 }, 0⟩
    let second : TrackedResult := ⟨{ release := some 8 }, 1⟩
    let final : ResultHeap :=
      { objects := [none, none, none, none], raws := [none, some second],
        adopted := [first, second], disposed := [first] }
    runResults [.ofRaw first.toRawResult, .moveConstruct 0, .hostCall 1, .moveAssign 2 2,
      .ofRaw second.toRawResult, .releaseRaw 3, .destroy 0, .destroy 2, .destroy 3] {} =
        some ((), final) ∧
    final.disposed.count first = 1 ∧ final.disposed.count second = 0 := by
  intro first second final
  have hRun : runResults [.ofRaw first.toRawResult, .moveConstruct 0, .hostCall 1,
      .moveAssign 2 2, .ofRaw second.toRawResult, .releaseRaw 3, .destroy 0, .destroy 2,
      .destroy 3] {} = some ((), final) := rfl
  have hDead : ∀ object ∈ final.objects, object = none := by
    intro object hMem
    simpa [final] using hMem
  obtain ⟨_, hReleased⟩ := result_ownership _ final hRun
  exact ⟨hRun, hReleased hDead 0 first rfl (by decide), hReleased hDead 1 second rfl (by decide)⟩

end Qrvmc
