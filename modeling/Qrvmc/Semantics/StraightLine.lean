import Qrvmc.Semantics.Triple

/-! A program logic for code without jumps. An instruction goes on, ends the run or fails.
A table of rules gives, for each instruction, the states before it that lead to what is
wanted, and a derivation puts the rules of a code together. What can be derived is what
holds. Where instructions are paid for, the rules and derivations carry over. -/
namespace Semantics
universe u
variable {State Error Ending : Type u} {Instruction : Type*}

/-- What is wanted of a code that goes on or ends the run. -/
def reaching (after : State → Prop) (ended : Ending → State → Prop) :
    Option Ending → State → Prop
  | none, state => after state
  | some ending, state => ended ending state

/-- Perform instructions in order until one of them ends the run. -/
def performAll (step : Instruction → StateT State (Except Error) (Option Ending)) :
    List Instruction → StateT State (Except Error) (Option Ending)
  | [] => pure none
  | instruction :: rest => do
      match ← step instruction with
      | some ending => return some ending
      | none => performAll step rest

/-- From the states of `pre` the code does not fail, and it goes on in a state of `after` or
ends as `ended` says. -/
def Achieves (step : Instruction → StateT State (Except Error) (Option Ending))
    (pre : State → Prop) (code : List Instruction) (after : State → Prop)
    (ended : Ending → State → Prop) : Prop :=
  Triple (fun _ => True) pre (performAll step code) (reaching after ended)

/-- For each instruction, the states before it that lead to what is wanted. -/
structure Rules (step : Instruction → StateT State (Except Error) (Option Ending)) where
  before : Instruction → (State → Prop) → (Ending → State → Prop) → State → Prop
  correct : ∀ instruction after ended state,
    before instruction after ended state ↔
      Triple (fun _ => True) (· = state) (step instruction) (reaching after ended)

/-- What follows from the rules. -/
inductive Derives {step : Instruction → StateT State (Except Error) (Option Ending)}
    (rules : Rules step) :
    (State → Prop) → List Instruction → (State → Prop) → (Ending → State → Prop) → Prop where
  | skip (after : State → Prop) (ended : Ending → State → Prop) : Derives rules after [] after ended
  | perform (instruction : Instruction) (after : State → Prop) (ended : Ending → State → Prop) :
      Derives rules (rules.before instruction after ended) [instruction] after ended
  | append {pre mid after : State → Prop} {ended : Ending → State → Prop}
      {first second : List Instruction} (hFirst : Derives rules pre first mid ended)
      (hSecond : Derives rules mid second after ended) :
      Derives rules pre (first ++ second) after ended
  | weaken {pre strong after weak : State → Prop} {ended weakEnded : Ending → State → Prop}
      {code : List Instruction} (hStrong : ∀ state, strong state → pre state)
      (h : Derives rules pre code after ended) (hWeak : ∀ state, after state → weak state)
      (hEnded : ∀ ending state, ended ending state → weakEnded ending state) :
      Derives rules strong code weak weakEnded

variable {step : Instruction → StateT State (Except Error) (Option Ending)} {rules : Rules step}
  {pre mid after : State → Prop} {ended : Ending → State → Prop}

theorem reaching_mono {weak : State → Prop} {weakEnded : Ending → State → Prop}
    (hWeak : ∀ state, after state → weak state)
    (hEnded : ∀ ending state, ended ending state → weakEnded ending state)
    (ending : Option Ending) (state : State) :
    reaching after ended ending state → reaching weak weakEnded ending state := by
  cases ending with
  | none => exact hWeak state
  | some ending => exact hEnded ending state

theorem performAll_append (first second : List Instruction) :
    performAll step (first ++ second) = (do
      match ← performAll step first with
      | some ending => return some ending
      | none => performAll step second) := by
  induction first with
  | nil =>
      rw [List.nil_append, performAll, pure_bind]
  | cons instruction rest ih =>
      rw [List.cons_append, performAll, performAll, bind_assoc]
      congr 1
      funext ending
      cases ending with
      | none => exact ih
      | some ending => rw [pure_bind]

/-- Both ways out of the first code lead to what is wanted of the second. -/
theorem achieves_cases {second : List Instruction} (hSecond : Achieves step mid second after ended)
    (ending : Option Ending) :
    Triple (fun _ => True) (reaching mid ended ending)
      (match ending with
        | some ending => pure (some ending)
        | none => performAll step second) (reaching after ended) := by
  cases ending with
  | none => exact hSecond
  | some ending => exact Triple.pure fun _ hEnded => hEnded

theorem Achieves.append {first second : List Instruction}
    (hFirst : Achieves step pre first mid ended) (hSecond : Achieves step mid second after ended) :
    Achieves step pre (first ++ second) after ended := by
  rw [Achieves, performAll_append]
  exact Triple.bind hFirst (achieves_cases hSecond)

theorem performAll_singleton (instruction : Instruction) :
    performAll step [instruction] = step instruction := by
  rw [performAll]
  have hSame : (fun ending : Option Ending =>
      (match ending with
        | some ending => pure (some ending)
        | none => performAll step [] : StateT State (Except Error) (Option Ending))) = pure := by
    funext ending
    cases ending <;> rfl
  exact (congrArg (step instruction >>= ·) hSame).trans (bind_pure _)

/-- What is derived holds. -/
theorem Derives.achieves {code : List Instruction} (h : Derives rules pre code after ended) :
    Achieves step pre code after ended := by
  induction h with
  | skip after ended => exact Triple.pure fun _ hAfter => hAfter
  | perform instruction after ended =>
      rw [Achieves, performAll_singleton, Triple.iff_at]
      exact fun state hBefore => (rules.correct instruction after ended state).mp hBefore
  | append _ _ ihFirst ihSecond => exact ihFirst.append ihSecond
  | weaken hStrong _ hWeak hEnded ih =>
      exact (ih.strengthen hStrong).weaken (reaching_mono hWeak hEnded)

/-- What holds of a code that begins with an instruction, by the states after it from which
the rest does what is wanted. -/
theorem Achieves.of_cons {instruction : Instruction} {rest : List Instruction}
    (h : Achieves step pre (instruction :: rest) after ended) :
    Triple (fun _ => True) pre (step instruction)
      (reaching (fun next => Achieves step (· = next) rest after ended) ended) := by
  apply (Triple.of_bind h).weaken
  intro ending next hNext
  cases ending with
  | none => exact hNext
  | some ending => exact hNext next rfl

/-- What holds can be derived. -/
theorem Achieves.derives {code : List Instruction} (h : Achieves step pre code after ended) :
    Derives rules pre code after ended := by
  induction code generalizing pre with
  | nil =>
      exact (Derives.skip after ended).weaken h (fun _ hAfter => hAfter) fun _ _ hEnded => hEnded
  | cons instruction rest ih =>
      let mid : State → Prop := fun next => Achieves step (· = next) rest after ended
      have hRest : Derives rules mid rest after ended := ih (Triple.iff_at.mpr fun _ hMid => hMid)
      have hFirst : Derives rules (rules.before instruction mid ended) [instruction] mid ended :=
        .perform instruction mid ended
      refine (hFirst.append hRest).weaken ?_ (fun _ hAfter => hAfter) fun _ _ hEnded => hEnded
      intro state hPre
      exact (rules.correct instruction mid ended state).mpr (Triple.iff_at.mp h.of_cons state hPre)

/-- More is reached from where more is wanted. -/
theorem Rules.before_mono (rules : Rules step) {instruction : Instruction} {state : State}
    {weak : State → Prop} {weakEnded : Ending → State → Prop}
    (h : rules.before instruction after ended state) (hWeak : ∀ state, after state → weak state)
    (hEnded : ∀ ending state, ended ending state → weakEnded ending state) :
    rules.before instruction weak weakEnded state := by
  rw [rules.correct] at h ⊢
  exact h.weaken (reaching_mono hWeak hEnded)

theorem derives_iff {code : List Instruction} :
    Derives rules pre code after ended ↔ Achieves step pre code after ended :=
  ⟨Derives.achieves, Achieves.derives⟩

/-- A proof outline has an assertion before each instruction and one at the end, and says for
each instruction how the code may end there. -/
def Outline (rules : Rules step) (asserts : Nat → State → Prop) (code : List Instruction)
    (ended : Nat → Ending → State → Prop) : Prop :=
  ∀ index instruction, code[index]? = some instruction → ∀ state, asserts index state →
    rules.before instruction (asserts (index + 1)) (ended index) state

/-- What belongs to the indexes of two codes, one behind the other. -/
def joined {Assigned : Type*} (length : Nat) (first second : Nat → Assigned) (index : Nat) :
    Assigned :=
  if index < length then first index else second (index - length)

theorem joined_start {length : Nat} {asserts next : Nat → State → Prop} {state : State}
    (hNext : asserts length state → next 0 state) (hStart : asserts 0 state) :
    joined length asserts next 0 state := by
  rw [joined]
  by_cases hFirst : 0 < length
  · rwa [if_pos hFirst]
  · have hEmpty : length = 0 := Nat.eq_zero_of_not_pos hFirst
    subst hEmpty
    exact hNext hStart

@[simp] theorem joined_end {Assigned : Type*} {length rest : Nat} {first second : Nat → Assigned} :
    joined length first second (length + rest) = second rest := by
  rw [joined, if_neg (by omega), Nat.add_sub_cancel_left]

/-- The outline of a code behind that of another. -/
theorem Outline.append {first second : List Instruction} {asserts next : Nat → State → Prop}
    {ended nextEnded : Nat → Ending → State → Prop} (hFirst : Outline rules asserts first ended)
    (hSecond : Outline rules next second nextEnded)
    (hNext : ∀ state, asserts first.length state → next 0 state) :
    Outline rules (joined first.length asserts next) (first ++ second)
      (joined first.length ended nextEnded) := by
  intro index instruction hIndex state hState
  by_cases hInside : index < first.length
  · rw [List.getElem?_append_left hInside] at hIndex
    simp only [joined, if_pos hInside] at hState ⊢
    have hBefore := hFirst index instruction hIndex state hState
    refine rules.before_mono hBefore ?_ fun _ _ hEnded => hEnded
    intro after hAfter
    by_cases hLast : index + 1 < first.length
    · rwa [if_pos hLast]
    · have hEnd : index + 1 = first.length := by omega
      rw [if_neg hLast, hEnd, Nat.sub_self]
      exact hNext after (hEnd ▸ hAfter)
  · rw [List.getElem?_append_right (Nat.le_of_not_lt hInside)] at hIndex
    have hBehind : ¬index + 1 < first.length := by omega
    have hShift : index + 1 - first.length = index - first.length + 1 := by omega
    simp only [joined, if_neg hInside, if_neg hBehind, hShift] at hState ⊢
    exact hSecond (index - first.length) instruction hIndex state hState

/-- What can be derived of a code has an outline. -/
theorem Derives.outline {code : List Instruction} (h : Derives rules pre code after ended) :
    ∃ asserts : Nat → State → Prop, Outline rules asserts code (fun _ => ended) ∧
      (∀ state, pre state → asserts 0 state) ∧
      ∀ state, asserts code.length state → after state := by
  induction h with
  | skip after ended =>
      refine ⟨fun _ => after, ?_, fun _ hState => hState, fun _ hState => hState⟩
      intro index instruction hIndex
      cases hIndex
  | perform instruction after ended =>
      refine ⟨fun index => if index = 0 then rules.before instruction after ended else after, ?_,
        fun _ hState => hState, fun _ hState => hState⟩
      intro index other hIndex state hState
      cases index with
      | zero =>
          obtain rfl : instruction = other := Option.some.inj hIndex
          exact hState
      | succ index => cases hIndex
  | @append pre mid after ended first second _ _ ihFirst ihSecond =>
      obtain ⟨asserts, hFirst, hPre, hMid⟩ := ihFirst
      obtain ⟨next, hSecond, hNext, hAfter⟩ := ihSecond
      have hBoth := hFirst.append hSecond fun state hState => hNext state (hMid state hState)
      have hSame : joined first.length (fun _ => ended) (fun _ => ended) = fun _ => ended := by
        funext index
        exact ite_self ended
      rw [hSame] at hBoth
      refine ⟨_, hBoth, ?_, ?_⟩
      · exact fun state hState =>
          joined_start (fun hLast => hNext state (hMid state hLast)) (hPre state hState)
      · intro state hState
        rw [List.length_append, joined_end] at hState
        exact hAfter state hState
  | weaken hStrong _ hWeak hEnded ih =>
      obtain ⟨asserts, hOutline, hPre, hAfter⟩ := ih
      refine ⟨asserts, ?_, fun state hState => hPre state (hStrong state hState),
        fun state hState => hWeak state (hAfter state hState)⟩
      intro index instruction hIndex state hState
      exact rules.before_mono (hOutline index instruction hIndex state hState)
        (fun _ hNext => hNext) hEnded

theorem getElem?_repeated {code : List Instruction} {count index : Nat} {instruction : Instruction}
    (h : (List.replicate count code).flatten[index]? = some instruction) :
    code[index % code.length]? = some instruction := by
  induction count generalizing index with
  | zero => cases h
  | succ count ih =>
      rw [List.replicate_succ, List.flatten_cons] at h
      by_cases hFirst : index < code.length
      · rw [List.getElem?_append_left hFirst] at h
        rwa [Nat.mod_eq_of_lt hFirst]
      · rw [List.getElem?_append_right (Nat.le_of_not_lt hFirst)] at h
        rw [Nat.mod_eq_sub_mod (Nat.le_of_not_lt hFirst)]
        exact ih h

/-- The outlines of the rounds of a repeated code, one behind the other. -/
theorem Outline.repeated {asserts : Nat → Nat → State → Prop} {code : List Instruction}
    {ended : Nat → Ending → State → Prop}
    (hRound : ∀ round, Outline rules (asserts round) code ended)
    (hNext : ∀ round state, asserts round code.length state → asserts (round + 1) 0 state)
    (count : Nat) :
    Outline rules (fun index => asserts (index / code.length) (index % code.length))
      (List.replicate count code).flatten (fun index => ended (index % code.length)) := by
  intro index instruction hIndex state hState
  have hCode := getElem?_repeated hIndex
  have hInside : index % code.length < code.length := (List.getElem?_eq_some_iff.mp hCode).1
  have hBefore := hRound (index / code.length) (index % code.length) instruction hCode state hState
  refine rules.before_mono hBefore ?_ fun _ _ hEnded => hEnded
  intro next hAfter
  change asserts ((index + 1) / code.length) ((index + 1) % code.length) next
  have hSplit := Nat.div_add_mod index code.length
  -- behind the last instruction of a round the next round begins
  by_cases hLast : index % code.length + 1 = code.length
  · have hEnd : index + 1 = code.length * (index / code.length + 1) := by
      rw [Nat.mul_add, Nat.mul_one]
      omega
    rw [hLast] at hAfter
    rw [hEnd, Nat.mul_div_cancel_left _ (by omega), Nat.mul_mod_right]
    exact hNext _ next hAfter
  · have hSame : index + 1 = index % code.length + 1 + code.length * (index / code.length) := by
      omega
    have hDiv : (index + 1) / code.length = index / code.length := by
      rw [hSame, Nat.add_mul_div_left _ _ (by omega), Nat.div_eq_of_lt (by omega), Nat.zero_add]
    have hMod : (index + 1) % code.length = index % code.length + 1 := by
      rw [hSame, Nat.add_mul_mod_self_left, Nat.mod_eq_of_lt (by omega)]
    rw [hDiv, hMod]
    exact hAfter

/-! ### Instructions that are paid for -/

/-- Each instruction takes a unit, and the run ends where none is left. -/
def metered (exhausted : Ending)
    (step : Instruction → StateT State (Except Error) (Option Ending)) (instruction : Instruction) :
    StateT (Nat × State) (Except Error) (Option Ending)
  | (0, state) => .ok (some exhausted, (0, state))
  | (left + 1, state) =>
      match step instruction state with
      | .error error => .error error
      | .ok (ending, final) => .ok (ending, (left, final))

theorem triple_metered {exhausted : Ending} {instruction : Instruction} {left : Nat} {state : State}
    {post : Option Ending → Nat × State → Prop} :
    Triple (fun _ => True) (· = (left + 1, state)) (metered exhausted step instruction) post ↔
      Triple (fun _ => True) (· = state) (step instruction)
        fun ending final => post ending (left, final) := by
  rw [Triple.at_iff, Triple.at_iff]
  simp only [metered]
  cases step instruction state with
  | error error => exact Iff.rfl
  | ok outcome => exact Iff.rfl

def Rules.beforeMetered (rules : Rules step) (exhausted : Ending) (instruction : Instruction)
    (after : Nat × State → Prop) (ended : Ending → Nat × State → Prop) : Nat × State → Prop
  | (0, state) => ended exhausted (0, state)
  | (left + 1, state) =>
      rules.before instruction (fun final => after (left, final))
        (fun ending final => ended ending (left, final)) state

theorem Rules.beforeMetered_correct (rules : Rules step) (exhausted : Ending)
    (instruction : Instruction) (after : Nat × State → Prop)
    (ended : Ending → Nat × State → Prop) (state : Nat × State) :
    rules.beforeMetered exhausted instruction after ended state ↔
      Triple (fun _ => True) (· = state) (Semantics.metered exhausted step instruction)
        (reaching after ended) := by
  obtain ⟨gas, state⟩ := state
  cases gas with
  | zero =>
      rw [Triple.at_iff]
      exact Iff.rfl
  | succ left =>
      rw [beforeMetered, rules.correct, triple_metered]
      have hSame : reaching (fun final => after (left, final))
            (fun ending final => ended ending (left, final)) =
          fun ending final => reaching after ended ending (left, final) := by
        funext ending final
        cases ending <;> rfl
      rw [hSame]

/-- The rules where instructions are paid for. -/
def Rules.metered (rules : Rules step) (exhausted : Ending) :
    Rules (Semantics.metered exhausted step) where
  before := rules.beforeMetered exhausted
  correct := rules.beforeMetered_correct exhausted

/-- How a run that is paid for ends: an instruction ends it, or nothing is left. -/
def endedAt (exhausted : Ending) (asserts : Nat → State → Prop)
    (ended : Nat → Ending → State → Prop) (gas length : Nat) (ending : Ending)
    (state : Nat × State) : Prop :=
  (∃ index, state.1 + index + 1 = gas ∧ ended index ending state.2) ∨
    ending = exhausted ∧ state.1 = 0 ∧ gas < length ∧ asserts gas state.2

/-- What an outline says of a run that is paid for. -/
theorem Outline.metered {asserts : Nat → State → Prop} {code : List Instruction}
    {ended : Nat → Ending → State → Prop} (h : Outline rules asserts code ended)
    (exhausted : Ending) (gas : Nat) :
    Derives (rules.metered exhausted) (fun state => state.1 = gas ∧ asserts 0 state.2) code
      (fun state => state.1 + code.length = gas ∧ asserts code.length state.2)
      (endedAt exhausted asserts ended gas code.length) := by
  induction code generalizing asserts ended gas with
  | nil => exact Derives.skip _ _
  | cons instruction rest ih =>
      have hRest : Outline rules (fun index => asserts (index + 1)) rest
          fun index => ended (index + 1) :=
        fun index other hOther => h (index + 1) other hOther
      cases gas with
      | zero =>
          have hNever : Derives (rules.metered exhausted) (fun _ => False) rest
              (fun state => state.1 + (instruction :: rest).length = 0 ∧
                asserts (instruction :: rest).length state.2)
              (endedAt exhausted asserts ended 0 (instruction :: rest).length) :=
            Achieves.derives fun _ hFalse => hFalse.elim
          refine ((Derives.perform instruction _ _).append hNever).weaken ?_
            (fun _ hAfter => hAfter) fun _ _ hEnded => hEnded
          rintro ⟨_, state⟩ ⟨rfl, hState⟩
          exact Or.inr ⟨rfl, rfl, Nat.succ_pos _, hState⟩
      | succ left =>
          have hBehind : Derives (rules.metered exhausted)
              (fun state => state.1 = left ∧ asserts 1 state.2) rest
              (fun state => state.1 + (instruction :: rest).length = left + 1 ∧
                asserts (instruction :: rest).length state.2)
              (endedAt exhausted asserts ended (left + 1) (instruction :: rest).length) := by
            refine (ih hRest left).weaken (fun _ hState => hState) ?_ ?_
            · rintro state ⟨hLeft, hState⟩
              exact ⟨congrArg (· + 1) hLeft, hState⟩
            · rintro ending state (⟨index, hIndex, hEnded⟩ | ⟨hOut, hNone, hLess, hState⟩)
              · exact Or.inl ⟨index + 1, congrArg (· + 1) hIndex, hEnded⟩
              · exact Or.inr ⟨hOut, hNone, Nat.succ_lt_succ hLess, hState⟩
          refine ((Derives.perform instruction _ _).append hBehind).weaken ?_
            (fun _ hAfter => hAfter) fun _ _ hEnded => hEnded
          rintro ⟨_, state⟩ ⟨rfl, hState⟩
          refine rules.before_mono (h 0 instruction rfl state hState) ?_ ?_
          · exact fun final hAfter => ⟨rfl, hAfter⟩
          · exact fun ending final hEnded => Or.inl ⟨0, rfl, hEnded⟩

end Semantics
