import Qrvmc.Loader.Configure

/-! The protocol of the last error message over any sequence of calls of the loader.
A message is pending only right after a loading call that failed, and it is the
message of that failure in full. -/
namespace Qrvmc
open Memory Semantics Loader

inductive ApiCall where
  | load (filename : Option CText) (errorCode : ErrorCodePtr)
  | loadAndCreate (filename : Option CText) (errorCode : ErrorCodePtr)
  | loadAndConfigure (config : CText) (errorCode : ErrorCodePtr)
  | lastErrorMsg

inductive ApiAnswer where
  | createFn (value : Option CreateFn) (errorCode : ErrorCodePtr)
  | vm (value : Option Vm) (errorCode : ErrorCodePtr)
  | errorMsg (value : Option CText)

/-- Whether a loading call succeeded. -/
def ApiAnswer.loading : ApiAnswer → Option Bool
  | .createFn value _ => some value.isSome
  | .vm value _ => some value.isSome
  | .errorMsg _ => none

def ApiCall.run (env : Env) : ApiCall → Loader ApiAnswer
  | .load filename errorCode => do
      let (createFn, errorCode) ← qrvmcLoad env filename errorCode
      return .createFn createFn errorCode
  | .loadAndCreate filename errorCode => do
      let (vm, errorCode) ← qrvmcLoadAndCreate env filename errorCode
      return .vm vm errorCode
  | .loadAndConfigure config errorCode => do
      let (vm, errorCode) ← qrvmcLoadAndConfigure env config errorCode
      return .vm vm errorCode
  | .lastErrorMsg => do
      let m ← qrvmcLastErrorMsg
      return .errorMsg m

/-- The answers of the calls so far, each with the events of its call. -/
abbrev History := List (ApiAnswer × List Event)

/-- The most recent loading call of a history, with what came after it. -/
def MostRecent (history : History) (load : ApiAnswer × List Event) (later : History) : Prop :=
  load.1.loading.isSome ∧ (∀ entry ∈ later, entry.1.loading = none) ∧
    ∃ before, history = before ++ load :: later

/-- The call failed, and reported the message as that of its only failure. -/
def FailedWith (load : ApiAnswer × List Event) (output : CText) : Prop :=
  load.1.loading = some false ∧
    ∃ errorCode, load.2.filterMap Event.failed = [(errorCode, output)]

/-- A message that is pending is that of the last call, which failed. -/
def Pending (history : History) (world : World) : Prop :=
  world.lastErrorMsg = .null ∨
    ∃ load output, MostRecent history load [] ∧ FailedWith load output ∧ world.Shows output

variable {env : Env} {world final : World} {history : History}

/-- After a loading call, whatever was pending before. -/
theorem Pending.of_reports {answer : ApiAnswer} {ec : LoaderErrorCode} {events : List Event}
    (hReports : Reports ec events final)
    (hAnswer : answer.loading = some (decide (ec = .success))) :
    Pending (history ++ [(answer, events)]) final := by
  cases hCode : decide (ec = .success) with
  | true => exact .inl (hReports.success (of_decide_eq_true hCode)).2
  | false =>
      obtain ⟨output, hFailed, hMessage⟩ := hReports.failure (of_decide_eq_false hCode)
      rw [hCode] at hAnswer
      rcases hMessage with hNull | hShows
      · exact .inl hNull
      · have hRecent : MostRecent (history ++ [(answer, events)]) (answer, events) [] :=
          ⟨by rw [hAnswer]; rfl, fun _ hEntry => (by cases hEntry), history, rfl⟩
        exact .inr ⟨(answer, events), output, hRecent, ⟨hAnswer, ec, hFailed⟩, hShows⟩

/-- The message is the pending one, and no message is pending afterwards. -/
theorem qrvmcLastErrorMsg_returns (h : Pending history world) :
    Returns World.trace qrvmcLastErrorMsg world fun m _ final => final.lastErrorMsg = .null ∧
      ∀ output, m = some output → ∃ load, MostRecent history load [] ∧ FailedWith load output := by
  unfold qrvmcLastErrorMsg
  apply Returns.get_bind
  apply Returns.modify_bind rfl
  rcases h with hNull | ⟨load, output, hRecent, hFailed, hShows⟩
  · rw [hNull]
    exact Returns.pure ⟨rfl, fun _ hSome => by cases hSome⟩
  · have hMessage (shown : CText) (hShown : some output = some shown) :
        ∃ load, MostRecent history load [] ∧ FailedWith load shown := by
      cases hShown
      exact ⟨load, hRecent, hFailed⟩
    unfold World.Shows at hShows
    cases hPointer : world.lastErrorMsg with
    | null =>
        rw [hPointer] at hShows
        cases hShows
    | linker message =>
        rw [hPointer] at hShows
        cases hShows
        exact Returns.pure ⟨rfl, hMessage⟩
    | buffer =>
        rw [hPointer] at hShows
        apply Returns.get_bind
        apply Returns.lift_bind (by rw [Holds.textAt hShows]; rfl)
        exact Returns.pure ⟨rfl, hMessage⟩

/-- Whatever was pending, a loading call leaves no message or that of its own failure. -/
theorem loading_pending {Value : Type} {call : ErrorCodePtr → Loader (Option Value × ErrorCodePtr)}
    {answer : Option Value → ErrorCodePtr → ApiAnswer} (errorCode : ErrorCodePtr)
    (hAnswer : ∀ value errorCode, (answer value errorCode).loading = some value.isSome)
    {post : Option Value × LoaderErrorCode → List Event → World → Prop}
    (h : Writes call world post)
    (hPost : ∀ result events final, post result events final →
      Reports result.2 events final ∧ (result.1.isSome ↔ result.2 = .success)) :
    Returns World.trace
      (observe World.trace do
        let (value, errorCode) ← call errorCode
        return answer value errorCode) world
      fun entry _ final => Pending (history ++ [entry]) final := by
  obtain ⟨result, events, final, hRun, hTrace, hResult⟩ := h
  obtain ⟨hReports, hReturns⟩ := hPost result events final hResult
  apply Returns.observe
  refine ⟨answer result.1 (errorCode.write result.2), events, final, ?_, hTrace,
    Pending.of_reports hReports ?_⟩
  · rw [Returns.run_bind (hRun errorCode)]
    rfl
  · rw [hAnswer, Option.some.injEq, ← Bool.coe_iff_coe, decide_eq_true_iff]
    exact hReturns

/-- Every call leaves behind no message, or that of its own failure. -/
theorem run_pending (env : Env) (call : ApiCall) (h : Pending history world) :
    Returns World.trace (observe World.trace (call.run env)) world fun entry _ final =>
      Pending (history ++ [entry]) final := by
  cases call with
  | load filename errorCode =>
      exact loading_pending errorCode (fun _ _ => rfl) (qrvmcLoad_writes env filename world)
        fun _ _ _ hEnds => ⟨hEnds.2.reports, hEnds.2.returns⟩
  | loadAndCreate filename errorCode =>
      exact loading_pending errorCode (fun _ _ => rfl)
        (qrvmcLoadAndCreate_writes env filename world)
        fun _ _ _ ⟨_, hEnds, _⟩ => ⟨hEnds.reports, hEnds.returns⟩
  | loadAndConfigure config errorCode =>
      exact loading_pending errorCode (fun _ _ => rfl)
        (qrvmcLoadAndConfigure_writes env config world)
        fun _ _ _ hEnds => ⟨hEnds.reports, hEnds.returns⟩
  | lastErrorMsg =>
      apply Returns.observe
      apply (qrvmcLastErrorMsg_returns h).bind
      intro m _ final ⟨hNull, _⟩
      exact Returns.pure (.inl hNull)

/-- The most recent loading call is unique. -/
theorem MostRecent.last {load other : ApiAnswer × List Event} {later : History}
    (h : MostRecent history load later) (hOther : MostRecent history other []) :
    load = other ∧ later = [] := by
  obtain ⟨_, hLater, before, hHistory⟩ := h
  obtain ⟨hLoading, _, others, hOthers⟩ := hOther
  rw [hHistory] at hOthers
  rcases List.eq_nil_or_concat' later with hNil | ⟨front, entry, hFront⟩
  · subst hNil
    exact ⟨(List.append_singleton_inj.mp hOthers).2, rfl⟩
  · subst hFront
    rw [← List.cons_append, ← List.append_assoc] at hOthers
    rw [← (List.append_singleton_inj.mp hOthers).2, hLater entry (by simp)] at hLoading
    cases hLoading

/-- The protocol, for the next call of `qrvmc_last_error_msg` after any calls. -/
theorem lastErrorMsg_protocol (env : Env) (calls : List ApiCall) :
    ∃ history final m cleared,
      runAll (fun call => observe World.trace (ApiCall.run env call)) calls {} =
        .ok (history, final) ∧
      qrvmcLastErrorMsg final = .ok (m, cleared) ∧
      ((∀ entry ∈ history, entry.1.loading = none) → m = none) ∧
      (∀ load later, MostRecent history load later →
        load.1.loading = some true ∨ later ≠ [] → m = none) ∧
      ∀ output, m = some output → ∃ load, MostRecent history load [] ∧ FailedWith load output := by
  have hInitial : Pending [] ({} : World) := .inl rfl
  obtain ⟨history, _, final, hRun, _, hPending⟩ :=
    Returns.runAll (fun call _ _ h => run_pending env call h) calls hInitial
  rw [List.nil_append] at hPending
  obtain ⟨m, _, cleared, hMsg, _, _, hShown⟩ := qrvmcLastErrorMsg_returns hPending
  refine ⟨history, final, m, cleared, hRun, hMsg, ?_, ?_, hShown⟩
  · intro hNone
    cases m with
    | none => rfl
    | some output =>
        obtain ⟨load, ⟨hLoading, _, before, hHistory⟩, _⟩ := hShown output rfl
        have hLoad : load ∈ history := by
          rw [hHistory]
          exact List.mem_append_right before (List.mem_singleton_self load)
        rw [hNone load hLoad] at hLoading
        cases hLoading
  · intro load later hRecent hCase
    cases m with
    | none => rfl
    | some output =>
        obtain ⟨other, hOther, hFailed, _⟩ := hShown output rfl
        obtain ⟨hSame, hLast⟩ := hRecent.last hOther
        rcases hCase with hSuccess | hLater
        · rw [hSame, hFailed] at hSuccess
          cases hSuccess
        · exact absurd hLast hLater

end Qrvmc
