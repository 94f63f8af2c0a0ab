import Mathlib.Data.List.Basic

/-! Programs over a state that may fail, where the state keeps a log. The rules
say what a program returns, which state it leaves and what it appends to the log.
They follow the structure of programs, and runs of a list of requests. -/
namespace Semantics
universe u
variable {State Error Value Result Entry : Type u}

/-- Run a program, and return what it appends to the log with its value. -/
def observe (log : State → List Entry) (program : StateT State (Except Error) Value) :
    StateT State (Except Error) (Value × List Entry) := do
  let before := log (← get)
  let value ← program
  return (value, (log (← get)).drop before.length)

/-- Run a call for each request in turn, with the list of what they return. -/
def runAll {Request : Type u} (call : Request → StateT State (Except Error) Value) :
    List Request → StateT State (Except Error) (List Value)
  | [] => pure []
  | request :: rest => do
      let value ← call request
      let values ← runAll call rest
      return value :: values

/-- From the given state the program does not fail. Its value, the entries it adds
to the log and its final state are as described. -/
def Returns (log : State → List Entry) (program : StateT State (Except Error) Value)
    (state : State) (post : Value → List Entry → State → Prop) : Prop :=
  ∃ value entries final, program state = .ok (value, final) ∧
    log final = log state ++ entries ∧ post value entries final

namespace Returns

variable {log : State → List Entry} {program : StateT State (Except Error) Value}
  {next : Value → StateT State (Except Error) Result} {state : State}
  {mid : Value → List Entry → State → Prop} {post : Result → List Entry → State → Prop}

/-- Running a sequence runs its first part and then the rest. -/
theorem run_bind {value : Value} {reached : State} (h : program state = .ok (value, reached)) :
    (program >>= next) state = next value reached := by
  change (program state >>= fun outcome => next outcome.1 outcome.2) = _
  rw [h]
  rfl

/-- A sequence fails when its first part does. -/
theorem run_bind_error {error : Error} (h : program state = .error error) :
    (program >>= next) state = .error error := by
  change (program state >>= fun outcome => next outcome.1 outcome.2) = _
  rw [h]
  rfl

theorem run_get_bind (next : State → StateT State (Except Error) Result) (state : State) :
    (get >>= next) state = next state state := rfl

/-- Running a sequence after a step of the failure monad that succeeds. -/
theorem run_lift_bind {outcome : Except Error Value} {value : Value}
    (hOutcome : outcome = .ok value) :
    ((liftM outcome : StateT State (Except Error) Value) >>= next) state = next value state := by
  subst hOutcome
  rfl

theorem pure {value : Result} (h : post value [] state) :
    Returns log (Pure.pure value : StateT State (Except Error) Result) state post :=
  ⟨value, [], state, rfl, (List.append_nil _).symm, h⟩

/-- A sequence appends the entries of its two parts in order. -/
theorem bind (hFirst : Returns log program state mid)
    (hNext : ∀ value entries reached, mid value entries reached →
      Returns log (next value) reached fun result later => post result (entries ++ later)) :
    Returns log (program >>= next) state post := by
  obtain ⟨value, entries, reached, hRun, hLog, hMid⟩ := hFirst
  obtain ⟨result, later, final, hRest, hLater, hPost⟩ := hNext value entries reached hMid
  refine ⟨result, entries ++ later, final, ?_, ?_, hPost⟩
  · rw [run_bind hRun, hRest]
  · rw [hLater, hLog, List.append_assoc]

theorem get_bind {next : State → StateT State (Except Error) Result}
    (h : Returns log (next state) state post) : Returns log (get >>= next) state post := h

/-- A modification that does not concern the log. -/
theorem modify_bind {next : PUnit → StateT State (Except Error) Result} {change : State → State}
    (hLog : log (change state) = log state)
    (h : Returns log (next ⟨⟩) (change state) post) :
    Returns log (modify change >>= next) state post := by
  obtain ⟨value, entries, final, hRun, hEntries, hPost⟩ := h
  exact ⟨value, entries, final, hRun, by rw [hEntries, hLog], hPost⟩

/-- A step of the failure monad that succeeds changes nothing. -/
theorem lift_bind {outcome : Except Error Value} {value : Value} (hOutcome : outcome = .ok value)
    (h : Returns log (next value) state post) :
    Returns log ((liftM outcome : StateT State (Except Error) Value) >>= next) state post := by
  subst hOutcome
  exact h

theorem mono {program : StateT State (Except Error) Result}
    {weak : Result → List Entry → State → Prop} (h : Returns log program state post)
    (hWeak : ∀ value entries final, post value entries final → weak value entries final) :
    Returns log program state weak := by
  obtain ⟨value, entries, final, hRun, hLog, hPost⟩ := h
  exact ⟨value, entries, final, hRun, hLog, hWeak value entries final hPost⟩

/-- A program returns in one way only. -/
theorem and {program : StateT State (Except Error) Result}
    {other : Result → List Entry → State → Prop} (h : Returns log program state post)
    (hOther : Returns log program state other) :
    Returns log program state fun value entries final =>
      post value entries final ∧ other value entries final := by
  obtain ⟨value, entries, final, hRun, hLog, hPost⟩ := h
  obtain ⟨_, _, _, hSame, hEntries, hRest⟩ := hOther
  cases hRun.symm.trans hSame
  cases List.append_cancel_left (hLog.symm.trans hEntries)
  exact ⟨value, entries, final, hRun, hLog, hPost, hRest⟩

/-- What is observed of a program is what it returns and logs. -/
theorem observe {post : Value × List Entry → State → Prop}
    (h : Returns log program state fun value entries final => post (value, entries) final) :
    Returns log (Semantics.observe log program) state fun observed _ final =>
      post observed final := by
  obtain ⟨value, entries, final, hRun, hLog, hPost⟩ := h
  refine ⟨(value, entries), entries, final, ?_, hLog, hPost⟩
  unfold Semantics.observe
  rw [run_get_bind, run_bind hRun, run_get_bind, hLog, List.drop_left]
  rfl

/-- What every call keeps of the history of values and the state, a run keeps. -/
theorem runAll {Request : Type u} {call : Request → StateT State (Except Error) Value}
    {invariant : List Value → State → Prop}
    (hCall : ∀ request history state, invariant history state →
      Returns log (call request) state fun value _ final => invariant (history ++ [value]) final)
    (requests : List Request) {history : List Value} (h : invariant history state) :
    Returns log (Semantics.runAll call requests) state fun values _ final =>
      invariant (history ++ values) final := by
  induction requests generalizing history state with
  | nil =>
      apply pure
      rw [List.append_nil]
      exact h
  | cons request rest ih =>
      apply (hCall request history state h).bind
      intro value _ reached hReached
      apply (ih hReached).bind
      intro values _ final hFinal
      apply pure
      rw [List.append_cons]
      exact hFinal

end Returns
end Semantics
