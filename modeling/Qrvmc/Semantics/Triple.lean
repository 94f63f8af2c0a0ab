import Mathlib.Data.List.Basic

/-! Specifications of programs over a state that may fail. A triple says what holds
of the value and the state when the program does not fail, and which failures it
cannot have. The rules follow the structure of programs. -/
namespace Semantics
universe u
variable {State Error Value Result : Type u}

/-- From every state of `pre`, the program ends in `post` or fails otherwise than `bad`. -/
def Triple (bad : Error → Prop) (pre : State → Prop) (program : StateT State (Except Error) Value)
    (post : Value → State → Prop) : Prop :=
  ∀ state, pre state →
    match program state with
    | .ok (value, final) => post value final
    | .error error => ¬bad error

namespace Triple

variable {bad : Error → Prop} {pre : State → Prop} {program : StateT State (Except Error) Value}
  {next : Value → StateT State (Except Error) Result} {mid : Value → State → Prop}
  {post : Result → State → Prop}

theorem bind (hFirst : Triple bad pre program mid)
    (hNext : ∀ value, Triple bad (mid value) (next value) post) :
    Triple bad pre (program >>= next) post := by
  intro state hPre
  have hMid := hFirst state hPre
  change match (program state >>= fun outcome => next outcome.1 outcome.2) with
    | .ok (value, final) => post value final
    | .error error => ¬bad error
  cases hRun : program state with
  | error error =>
      rw [hRun] at hMid
      exact hMid
  | ok outcome =>
      rw [hRun] at hMid
      exact hNext outcome.1 outcome.2 hMid

theorem pure {value : Value} {post : Value → State → Prop}
    (h : ∀ state, pre state → post value state) :
    Triple bad pre (Pure.pure value : StateT State (Except Error) Value) post := h

theorem throw {error : Error} {post : Value → State → Prop} (h : ¬bad error) :
    Triple bad pre (throw error : StateT State (Except Error) Value) post :=
  fun _ _ => h

theorem strengthen {strong : State → Prop} {post : Value → State → Prop}
    (h : Triple bad pre program post) (hStrong : ∀ state, strong state → pre state) :
    Triple bad strong program post :=
  fun state hState => h state (hStrong state hState)

/-- Nothing is known of a program that may do anything. -/
theorem any {post : Value → State → Prop} (h : ∀ value state, post value state) :
    Triple (fun _ : Error => False) pre program post := by
  intro state _
  cases program state with
  | error error => exact id
  | ok outcome => exact h outcome.1 outcome.2

/-- Both branches of a test on data that does not change. -/
theorem ite {test : Prop} [Decidable test] {other : StateT State (Except Error) Value}
    {post : Value → State → Prop} (hThen : test → Triple bad pre program post)
    (hElse : ¬test → Triple bad pre other post) :
    Triple bad pre (if test then program else other) post := by
  by_cases hTest : test
  · rw [if_pos hTest]
    exact hThen hTest
  · rw [if_neg hTest]
    exact hElse hTest

/-- Reading the state keeps it. -/
theorem get_bind {next : State → StateT State (Except Error) Result}
    (h : ∀ state, pre state → Triple bad (fun current => current = state) (next state) post) :
    Triple bad pre (get >>= next) post :=
  fun state hPre => h state hPre state rfl

theorem modify {change : State → State} {post : PUnit → State → Prop}
    (h : ∀ state, pre state → post ⟨⟩ (change state)) :
    Triple bad pre (modify change : StateT State (Except Error) PUnit) post := h

theorem set {value : State} {post : PUnit → State → Prop} (h : post ⟨⟩ value) :
    Triple bad pre (set value : StateT State (Except Error) PUnit) post :=
  fun _ _ => h

theorem weaken {post weak : Value → State → Prop} (h : Triple bad pre program post)
    (hWeak : ∀ value state, post value state → weak value state) :
    Triple bad pre program weak := by
  intro state hPre
  have hPost := h state hPre
  cases hRun : program state with
  | error error =>
      rw [hRun] at hPost
      exact hPost
  | ok outcome =>
      rw [hRun] at hPost
      exact hWeak outcome.1 outcome.2 hPost

/-- A specification is one of every state of its precondition. -/
theorem iff_at {post : Value → State → Prop} :
    Triple bad pre program post ↔ ∀ state, pre state → Triple bad (· = state) program post := by
  constructor
  · intro h state hPre
    exact h.strengthen fun other hOther => hOther ▸ hPre
  · intro h state hPre
    exact h state hPre state rfl

theorem at_iff {post : Value → State → Prop} {state : State} :
    Triple bad (· = state) program post ↔
      match program state with
      | .ok (value, final) => post value final
      | .error error => ¬bad error :=
  ⟨fun h => h state rfl, fun h _ hState => hState ▸ h⟩

/-- The states between two programs are those from which the second does what is wanted. -/
theorem of_bind (h : Triple bad pre (program >>= next) post) :
    Triple bad pre program fun value final => Triple bad (· = final) (next value) post := by
  intro state hPre
  have hBoth := h state hPre
  change match (program state >>= fun outcome => next outcome.1 outcome.2) with
    | .ok (value, final) => post value final
    | .error error => ¬bad error at hBoth
  cases hRun : program state with
  | error error =>
      rw [hRun] at hBoth
      exact hBoth
  | ok outcome =>
      rw [hRun] at hBoth
      rintro _ rfl
      exact hBoth

end Triple
end Semantics
