import Mathlib.Data.List.Range

/-! Finite runs of a machine that answers one request at a time. The state,
the requests and the answers are arbitrary types. Facts about one step are
lifted to whole runs here once, for every machine of the development: invariants,
what an observer can tell, and how two machines correspond. -/
namespace Semantics
universe u v w u' w'
variable {State : Type u} {Request : Type v} {Answer : Type w}

/-- A deterministic machine: one request gives a next state and an answer. -/
abbrev Step (State : Type u) (Request : Type v) (Answer : Type w) :=
  State → Request → State × Answer

/-- The state reached once every request has been answered in order. -/
def finish (step : Step State Request Answer) : State → List Request → State
  | state, [] => state
  | state, request :: rest => finish step (step state request).1 rest

/-- Every request of a run together with the answer it received. -/
def transcript (step : Step State Request Answer) :
    State → List Request → List (Request × Answer)
  | _, [] => []
  | state, request :: rest =>
      (request, (step state request).2) :: transcript step (step state request).1 rest

section Runs

variable (step : Step State Request Answer)

@[simp] theorem finish_nil (state : State) : finish step state [] = state := rfl

@[simp] theorem finish_cons (state : State) (request : Request) (rest : List Request) :
    finish step state (request :: rest) = finish step (step state request).1 rest := rfl

@[simp] theorem transcript_nil (state : State) : transcript step state [] = [] := rfl

@[simp] theorem transcript_cons (state : State) (request : Request) (rest : List Request) :
    transcript step state (request :: rest) =
      (request, (step state request).2) :: transcript step (step state request).1 rest := rfl

theorem finish_append (state : State) (first second : List Request) :
    finish step state (first ++ second) = finish step (finish step state first) second := by
  induction first generalizing state with
  | nil => rfl
  | cons request rest ih => exact ih _

/-- The first entries of a transcript are the transcript of the first requests. -/
theorem transcript_take (state : State) (requests : List Request) (count : Nat) :
    transcript step state (requests.take count) = (transcript step state requests).take count := by
  induction requests generalizing state count with
  | nil => simp
  | cons request rest ih =>
      cases count with
      | zero => rfl
      | succ count => simp [ih]

/-- What one step preserves holds in every state that a run reaches. -/
theorem finish_invariant (invariant : State → Prop)
    (hStep : ∀ state request, invariant state → invariant (step state request).1)
    (state : State) (requests : List Request) (hStart : invariant state) :
    invariant (finish step state requests) := by
  induction requests generalizing state with
  | nil => exact hStart
  | cons request rest ih => exact ih _ (hStep state request hStart)

end Runs

/-! What an observer of some of the requests can tell about the state. Two states are
indistinguishable when all runs from them answer the observed requests alike. -/
section Observation

variable {step : Step State Request Answer} {visible : Request → Bool} {first second : State}

/-- The observed requests of a transcript with their answers. -/
def observations (visible : Request → Bool) (entries : List (Request × Answer)) :
    List (Request × Answer) :=
  entries.filter fun entry => visible entry.1

/-- No run tells the two states apart by the answers to observed requests. -/
def Indistinguishable (step : Step State Request Answer) (visible : Request → Bool)
    (first second : State) : Prop :=
  ∀ requests, observations visible (transcript step first requests) =
    observations visible (transcript step second requests)

/-- A relation between states that every step keeps, and under which observed requests
have the same answers. -/
structure Unwinding (step : Step State Request Answer) (visible : Request → Bool)
    (related : State → State → Prop) : Prop where
  keeps : ∀ first second request, related first second →
    related (step first request).1 (step second request).1
  answers : ∀ first second request, visible request = true → related first second →
    (step first request).2 = (step second request).2

theorem Unwinding.indistinguishable {related : State → State → Prop}
    (h : Unwinding step visible related) (hRelated : related first second) :
    Indistinguishable step visible first second := by
  intro requests
  induction requests generalizing first second with
  | nil => rfl
  | cons request rest ih =>
      have hRest := ih (h.keeps first second request hRelated)
      unfold observations at hRest ⊢
      rw [transcript_cons, transcript_cons, List.filter_cons, List.filter_cons, hRest]
      split
      · rename_i hVisible
        rw [h.answers first second request hVisible hRelated]
      · rfl

end Observation

/-! Two machines that are given the same requests. A relation between their states that
every request keeps, and that says how the answers correspond, says so for whole runs. -/
section Lockstep

variable {Other : Type u'} {Reply : Type w'}
  {step : Step State Request Answer} {move : Step Other Request Reply}
  {allowed : Request → Prop} {related : State → Other → Prop} {agree : Answer → Reply → Prop}

structure Lockstep (step : Step State Request Answer) (move : Step Other Request Reply)
    (allowed : Request → Prop) (related : State → Other → Prop)
    (agree : Answer → Reply → Prop) : Prop where
  keeps : ∀ state other request, allowed request → related state other →
    related (step state request).1 (move other request).1
  answers : ∀ state other request, allowed request → related state other →
    agree (step state request).2 (move other request).2

/-- The answers correspond one by one. -/
theorem Lockstep.transcript (h : Lockstep step move allowed related agree) {state : State}
    {other : Other} (hRelated : related state other) {requests : List Request}
    (hAllowed : ∀ request ∈ requests, allowed request) :
    List.Forall₂ (fun entry reply => entry.1 = reply.1 ∧ agree entry.2 reply.2)
      (transcript step state requests) (transcript move other requests) := by
  induction requests generalizing state other with
  | nil => exact List.Forall₂.nil
  | cons request rest ih =>
      have hRequest := hAllowed request (List.mem_cons_self ..)
      have hRest := fun next hNext => hAllowed next (List.mem_cons_of_mem _ hNext)
      exact List.Forall₂.cons ⟨rfl, h.answers state other request hRequest hRelated⟩
        (ih (h.keeps state other request hRequest hRelated) hRest)

end Lockstep

/-! Loops that count. The body is run for each index of a range and sees the state that
the body left before. A log that each run of the body adds to lists the runs in order. -/
section Counting

variable {Entry : Type v}

/-- `for (i = first; i < first + count; ++i) body`. -/
def countLoop (body : Nat → State → State) : Nat → Nat → State → State
  | 0, _, state => state
  | count + 1, first, state => countLoop body count (first + 1) (body first state)

/-- What each run of the body establishes for the next index holds at the end. -/
theorem countLoop_invariant (body : Nat → State → State) (invariant : Nat → State → Prop)
    (count first : Nat) (state : State)
    (hStep : ∀ i state, first ≤ i → i < first + count → invariant i state →
      invariant (i + 1) (body i state))
    (hStart : invariant first state) :
    invariant (first + count) (countLoop body count first state) := by
  induction count generalizing first state with
  | zero => exact hStart
  | succ count ih =>
      have hEnd : first + (count + 1) = first + 1 + count := by omega
      rw [hEnd]
      apply ih
      · intro i state hFirst hLast
        exact hStep i state (by omega) (by omega)
      · exact hStep first state (Nat.le_refl _) (by omega) hStart

/-- The entries of all runs, in the order of the indices. -/
theorem countLoop_log {body : Nat → State → State} {log : State → List Entry}
    {entries : Nat → List Entry} (hStep : ∀ i state, log (body i state) = log state ++ entries i)
    (count first : Nat) (state : State) :
    log (countLoop body count first state) =
      log state ++ (List.range' first count).flatMap entries := by
  induction count generalizing first state with
  | zero => simp [countLoop]
  | succ count ih =>
      rw [countLoop, ih, hStep, List.range'_succ, List.flatMap_cons, List.append_assoc]

end Counting

end Semantics
