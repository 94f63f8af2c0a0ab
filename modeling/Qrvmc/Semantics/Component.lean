import Mathlib.Algebra.BigOperators.Group.List.Basic
import Mathlib.Algebra.Order.Group.Defs
import Mathlib.Tactic.Abel
import Qrvmc.Semantics.Run

/-! One part of a larger machine, together with the requests that concern it.
The other requests may be interleaved in any order; they leave the part as it
is. A run of the whole machine is then, seen from the part, a run of the part
alone on its own requests. -/
namespace Semantics
universe u v w u' v' w' u'' v'' w''
variable {State : Type u} {Request : Type v} {Answer : Type w}
  {Part : Type u'} {Query : Type v'} {Reply : Type w'}

/-- `view` reads the part out of the whole state and `select` recognises the
requests that act on it. Unselected requests do not change the part. -/
structure Projection (step : Step State Request Answer) (part : Step Part Query Reply) where
  view : State → Part
  select : Request → Option Query
  frame : ∀ state request, select request = none → view (step state request).1 = view state
  tracks : ∀ state request query, select request = some query →
    view (step state request).1 = (part (view state) query).1

/-- A projection that also determines the answers to the selected requests. -/
structure Component (step : Step State Request Answer) (part : Step Part Query Reply)
    extends Projection step part where
  embed : Reply → Answer
  answers : ∀ state request query, select request = some query →
    (step state request).2 = embed (part (view state) query).2

variable {step : Step State Request Answer} {part : Step Part Query Reply}

/-- The part moves exactly as it would alone, on the selected requests only. -/
theorem Projection.view_finish (projection : Projection step part) (state : State)
    (requests : List Request) :
    projection.view (finish step state requests) =
      finish part (projection.view state) (requests.filterMap projection.select) := by
  induction requests generalizing state with
  | nil => rfl
  | cons request rest ih =>
      rw [finish_cons, ih]
      cases hSelect : projection.select request with
      | none => rw [projection.frame state request hSelect, List.filterMap_cons_none hSelect]
      | some query =>
          rw [projection.tracks state request query hSelect, List.filterMap_cons_some hSelect,
            finish_cons]

/-- The selected requests of a transcript, as queries to the part. -/
def Component.selected (component : Component step part)
    (entries : List (Request × Answer)) : List (Query × Answer) :=
  entries.filterMap fun entry => (component.select entry.1).map fun query => (query, entry.2)

/-- The answers to the selected requests are the answers of the part alone,
whatever other requests the run interleaves with them. -/
theorem Component.selected_transcript (component : Component step part) (state : State)
    (requests : List Request) :
    component.selected (transcript step state requests) =
      (transcript part (component.view state) (requests.filterMap component.select)).map
        (fun entry => (entry.1, component.embed entry.2)) := by
  induction requests generalizing state with
  | nil => rfl
  | cons request rest ih =>
      unfold Component.selected at ih ⊢
      cases hSelect : component.select request with
      | none =>
          rw [transcript_cons, List.filterMap_cons_none (by simp [hSelect]), ih,
            component.frame state request hSelect, List.filterMap_cons_none hSelect]
      | some query =>
          rw [transcript_cons, List.filterMap_cons_some (b := (query, (step state request).2))
              (by simp [hSelect]), ih, component.tracks state request query hSelect,
            component.answers state request query hSelect, List.filterMap_cons_some hSelect]
          rfl

/-- A component of a component is a component of the whole. -/
def Component.trans {Piece : Type u''} {Ask : Type v''} {Echo : Type w''}
    {piece : Step Piece Ask Echo} (outer : Component step part) (inner : Component part piece) :
    Component step piece where
  view state := inner.view (outer.view state)
  select request := (outer.select request).bind inner.select
  embed echo := outer.embed (inner.embed echo)
  frame state request hSelect := by
    cases hOuter : outer.select request with
    | none => rw [outer.frame state request hOuter]
    | some query =>
        rw [hOuter, Option.bind_some] at hSelect
        rw [outer.tracks state request query hOuter, inner.frame _ query hSelect]
  tracks state request ask hSelect := by
    obtain ⟨query, hOuter, hInner⟩ := Option.bind_eq_some_iff.mp hSelect
    rw [outer.tracks state request query hOuter, inner.tracks _ query ask hInner]
  answers state request ask hSelect := by
    obtain ⟨query, hOuter, hInner⟩ := Option.bind_eq_some_iff.mp hSelect
    rw [outer.answers state request query hOuter, inner.answers _ query ask hInner]

end Semantics

/-! Accounting along a run by a potential on states. When every step pays the
same price up to the change of the potential, a run pays that price for each
request up to the change between its two ends. -/
namespace Semantics
universe u v w x
variable {State : Type u} {Request : Type v} {Answer : Type w} {Amount : Type x}

/-- The sum of the charges of the entries of a transcript. -/
def total [AddCommGroup Amount] (charge : Request → Answer → Amount)
    (entries : List (Request × Answer)) : Amount :=
  (entries.map fun entry => charge entry.1 entry.2).sum

@[simp] theorem total_nil [AddCommGroup Amount] (charge : Request → Answer → Amount) :
    total charge [] = 0 := rfl

@[simp] theorem total_cons [AddCommGroup Amount] (charge : Request → Answer → Amount)
    (entry : Request × Answer) (rest : List (Request × Answer)) :
    total charge (entry :: rest) = charge entry.1 entry.2 + total charge rest := rfl

/-- The intermediate potentials cancel. -/
theorem total_transcript [AddCommGroup Amount] (step : Step State Request Answer)
    (charge : Request → Answer → Amount) (potential : State → Amount) (price : Amount)
    (hStep : ∀ state request, charge request (step state request).2 =
      price + (potential (step state request).1 - potential state))
    (state : State) (requests : List Request) :
    total charge (transcript step state requests) =
      requests.length • price + (potential (finish step state requests) - potential state) := by
  induction requests generalizing state with
  | nil => simp
  | cons request rest ih =>
      rw [transcript_cons, total_cons, ih, hStep, finish_cons, List.length_cons, succ_nsmul]
      abel

/-- When each step leaves at most what it gains on top of what it finds, the
gains of a run cover what is left at its end. -/
theorem reserve_le_total [AddCommGroup Amount] [PartialOrder Amount] [IsOrderedAddMonoid Amount]
    (step : Step State Request Answer) (gain : Request → Answer → Amount)
    (reserve : State → Amount)
    (hStep : ∀ state request,
      reserve (step state request).1 ≤ gain request (step state request).2 + reserve state)
    (state : State) (requests : List Request) :
    reserve (finish step state requests) ≤
      total gain (transcript step state requests) + reserve state := by
  induction requests generalizing state with
  | nil => simp
  | cons request rest ih =>
      rw [transcript_cons, total_cons, finish_cons]
      calc reserve (finish step (step state request).1 rest)
          ≤ total gain (transcript step (step state request).1 rest) +
              reserve (step state request).1 := ih _
        _ ≤ total gain (transcript step (step state request).1 rest) +
              (gain request (step state request).2 + reserve state) :=
            add_le_add_right (hStep state request) _
        _ = gain request (step state request).2 +
              total gain (transcript step (step state request).1 rest) + reserve state := by abel

end Semantics
