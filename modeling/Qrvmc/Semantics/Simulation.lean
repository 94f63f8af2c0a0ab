import Mathlib.Data.List.Basic

/-! Two programs side by side, over states of two types. From related states they fail
alike, or return values that agree and leave states as described. The rules follow the
structure of the programs, which need not be written in the same operations. -/
namespace Semantics
universe u v w
variable {First Value Result : Type u} {Second Answer Outcome : Type v} {Error : Type w}

/-- From related states both programs fail with one error, or both return as described. -/
def Simulates (related : First → Second → Prop) (program : StateT First (Except Error) Value)
    (other : StateT Second (Except Error) Answer)
    (agree : Value → Answer → First → Second → Prop) : Prop :=
  ∀ first second, related first second →
    match program first, other second with
    | .ok (value, first), .ok (answer, second) => agree value answer first second
    | .error error, .error fault => error = fault
    | _, _ => False

/-- The states stay related, and the values are as described. -/
def Keeping (related : First → Second → Prop) (values : Value → Answer → Prop) (value : Value)
    (answer : Answer) (first : First) (second : Second) : Prop :=
  values value answer ∧ related first second

namespace Simulates

variable {related : First → Second → Prop} {program : StateT First (Except Error) Value}
  {other : StateT Second (Except Error) Answer}
  {agree : Value → Answer → First → Second → Prop}

theorem bind {next : Value → StateT First (Except Error) Result}
    {following : Answer → StateT Second (Except Error) Outcome}
    {post : Result → Outcome → First → Second → Prop}
    (hFirst : Simulates related program other agree)
    (hNext : ∀ value answer, Simulates (agree value answer) (next value) (following answer) post) :
    Simulates related (program >>= next) (other >>= following) post := by
  intro first second hRelated
  have hAgree := hFirst first second hRelated
  change match (program first >>= fun outcome => next outcome.1 outcome.2),
      (other second >>= fun outcome => following outcome.1 outcome.2) with
    | .ok (value, first), .ok (answer, second) => post value answer first second
    | .error error, .error fault => error = fault
    | _, _ => False
  cases hProgram : program first with
  | error error =>
      cases hOther : other second with
      | error fault =>
          rw [hProgram, hOther] at hAgree
          exact hAgree
      | ok outcome =>
          rw [hProgram, hOther] at hAgree
          exact hAgree.elim
  | ok value =>
      cases hOther : other second with
      | error fault =>
          rw [hProgram, hOther] at hAgree
          exact hAgree.elim
      | ok outcome =>
          rw [hProgram, hOther] at hAgree
          exact hNext value.1 outcome.1 value.2 outcome.2 hAgree

/-- The first parts keep the states related, and the rest depends on their values. -/
theorem keeping_bind {values : Value → Answer → Prop}
    {next : Value → StateT First (Except Error) Result}
    {following : Answer → StateT Second (Except Error) Outcome}
    {post : Result → Outcome → First → Second → Prop}
    (hFirst : Simulates related program other (Keeping related values))
    (hNext : ∀ value answer, values value answer →
      Simulates related (next value) (following answer) post) :
    Simulates related (program >>= next) (other >>= following) post :=
  hFirst.bind fun value answer first second h => hNext value answer h.1 first second h.2

theorem pure {value : Value} {answer : Answer}
    (h : ∀ first second, related first second → agree value answer first second) :
    Simulates related (Pure.pure value : StateT First (Except Error) Value)
      (Pure.pure answer : StateT Second (Except Error) Answer) agree := h

theorem throw {error : Error} :
    Simulates related (throw error : StateT First (Except Error) Value)
      (throw error : StateT Second (Except Error) Answer) agree :=
  fun _ _ _ => rfl

/-- Both programs read their states. -/
theorem get_bind {next : First → StateT First (Except Error) Value}
    {following : Second → StateT Second (Except Error) Answer}
    (h : ∀ first second, related first second →
      Simulates (fun current other => current = first ∧ other = second) (next first)
        (following second) agree) :
    Simulates related (get >>= next) (get >>= following) agree :=
  fun first second hRelated => h first second hRelated first second ⟨rfl, rfl⟩

/-- One of the programs reads its state. -/
theorem get_bind_left {next : First → StateT First (Except Error) Value}
    (h : ∀ first second, related first second →
      Simulates (fun current answered => current = first ∧ answered = second) (next first) other
        agree) :
    Simulates related (get >>= next) other agree :=
  fun first second hRelated => h first second hRelated first second ⟨rfl, rfl⟩

/-- Tests that come out alike. -/
theorem ite {test check : Prop} [Decidable test] [Decidable check]
    {program' : StateT First (Except Error) Value} {other' : StateT Second (Except Error) Answer}
    (hTest : test ↔ check) (hThen : test → Simulates related program other agree)
    (hElse : ¬test → Simulates related program' other' agree) :
    Simulates related (if test then program else program') (if check then other else other')
      agree := by
  by_cases h : test
  · rw [if_pos h, if_pos (hTest.mp h)]
    exact hThen h
  · rw [if_neg h, if_neg fun hCheck => h (hTest.mpr hCheck)]
    exact hElse h

theorem strengthen {strong : First → Second → Prop} (h : Simulates related program other agree)
    (hStrong : ∀ first second, strong first second → related first second) :
    Simulates strong program other agree :=
  fun first second hBoth => h first second (hStrong first second hBoth)

/-- What is known of the states without looking at them. -/
theorem of_and {fact : Prop} (h : fact → Simulates related program other agree) :
    Simulates (fun first second => fact ∧ related first second) program other agree :=
  fun first second hBoth => h hBoth.1 first second hBoth.2

theorem mono {weak : Value → Answer → First → Second → Prop}
    (h : Simulates related program other agree)
    (hWeak : ∀ value answer first second, agree value answer first second →
      weak value answer first second) :
    Simulates related program other weak := by
  intro first second hRelated
  have hAgree := h first second hRelated
  cases hProgram : program first with
  | error error =>
      rw [hProgram] at hAgree
      cases hOther : other second with
      | error fault =>
          rw [hOther] at hAgree
          exact hAgree
      | ok answer =>
          rw [hOther] at hAgree
          exact hAgree
  | ok value =>
      rw [hProgram] at hAgree
      cases hOther : other second with
      | error fault =>
          rw [hOther] at hAgree
          exact hAgree
      | ok answer =>
          rw [hOther] at hAgree
          exact hWeak _ _ _ _ hAgree

end Simulates
end Semantics
