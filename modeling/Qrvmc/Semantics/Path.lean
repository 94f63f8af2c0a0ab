import Mathlib.Data.List.Basic

/-! Paths of a labelled transition relation, as the lists of their labels. A path
can be cut wherever its labels can. -/
namespace Semantics
universe u v
variable {State : Type u} {Label : Type v}

/-- The labels lead from the first state to the last, one step each. -/
inductive Path (step : State → Label → State → Prop) : State → List Label → State → Prop where
  | nil (state : State) : Path step state [] state
  | cons {start next stop : State} {label : Label} {labels : List Label}
      (first : step start label next) (rest : Path step next labels stop) :
      Path step start (label :: labels) stop

namespace Path

variable {step : State → Label → State → Prop} {start middle stop : State}
  {first second : List Label}

theorem append (hFirst : Path step start first middle) (hSecond : Path step middle second stop) :
    Path step start (first ++ second) stop := by
  induction hFirst with
  | nil => exact hSecond
  | cons hStep _ ih => exact cons hStep (ih hSecond)

theorem split (h : Path step start (first ++ second) stop) :
    ∃ middle, Path step start first middle ∧ Path step middle second stop := by
  induction first generalizing start with
  | nil => exact ⟨start, nil start, h⟩
  | cons label rest ih =>
      cases h with
      | cons hStep hRest =>
          obtain ⟨middle, hFirst, hSecond⟩ := ih hRest
          exact ⟨middle, cons hStep hFirst, hSecond⟩

/-- A label on a path is the label of a step between two of its states. -/
theorem split_cons {label : Label} (h : Path step start (first ++ label :: second) stop) :
    ∃ before after, Path step start first before ∧ step before label after ∧
      Path step after second stop := by
  obtain ⟨before, hFirst, hRest⟩ := h.split
  cases hRest with
  | cons hStep hSecond => exact ⟨before, _, hFirst, hStep, hSecond⟩

/-- What each step preserves holds at the end of a path. -/
theorem invariant {invariant : State → Prop}
    (hStep : ∀ state label next, invariant state → step state label next → invariant next)
    (h : Path step start first stop) (hStart : invariant start) : invariant stop := by
  induction h with
  | nil => exact hStart
  | cons hFirst _ ih => exact ih (hStep _ _ _ hStart hFirst)

/-- A measure that decreases in each step bounds the length of the paths. -/
theorem length_le {invariant : State → Prop} {measure : State → Nat}
    (hStep : ∀ state label next, invariant state → step state label next →
      invariant next ∧ measure next < measure state)
    (h : Path step start first stop) (hStart : invariant start) :
    first.length + measure stop ≤ measure start := by
  induction h with
  | nil => simp
  | cons hFirst _ ih =>
      obtain ⟨hNext, hLess⟩ := hStep _ _ _ hStart hFirst
      have hRest := ih hNext
      rw [List.length_cons]
      omega

end Path
end Semantics
