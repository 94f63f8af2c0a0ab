import Qrvmc.Loader.Configure

/-! What is said about an option that is not accepted. The answer of the instance decides
the error code and the message, which names the instance, its path, and the option. -/
namespace Qrvmc
open Memory Semantics Loader

/-- The error code for an answer other than success. -/
def rejectionCode (answer : Int32) : LoaderErrorCode :=
  if answer = 1 then .invalidOptionName else .invalidOptionValue

theorem unknownOption_ascii :
    "%s (%s): unknown option '%s'".toList.all isAscii = true := by decide

theorem unsupportedValue_ascii :
    "%s (%s): unsupported value '%s' for option '%s'".toList.all isAscii = true := by decide

theorem unknownError_ascii :
    "%s (%s): unknown error when setting value '%s' for option '%s'".toList.all isAscii = true := by
  decide

/-- The message for an answer other than success. -/
def rejectionMessage (vm : Vm) (path name value : CText) (answer : Int32) : CText :=
  if answer = 1 then
    message "%s (%s): unknown option '%s'" [.str vm.name, .str path, .str name] unknownOption_ascii
  else if answer = 2 then
    message "%s (%s): unsupported value '%s' for option '%s'"
      [.str vm.name, .str path, .str value, .str name] unsupportedValue_ascii
  else
    message "%s (%s): unknown error when setting value '%s' for option '%s'"
      [.str vm.name, .str path, .str value, .str name] unknownError_ascii

/-- How the options and the answers to those that were set decide the outcome and what is
reported. Without a method to set options, any text of options is refused. -/
inductive OptionOutcome (vm : Vm) (path options : CText) :
    List (CText × CText × Int32) → LoaderErrorCode → List (LoaderErrorCode × CText) → Prop where
  | accepted {calls : List (CText × CText × Int32)}
      (hAble : vm.hasSetOption = true ∨ options.chars = [])
      (hAccepted : ∀ call ∈ calls, call.2.2 = 0) : OptionOutcome vm path options calls .success []
  | unsupported (hUnsupported : vm.hasSetOption = false) (hSome : options.chars ≠ []) :
      OptionOutcome vm path options [] .invalidOptionName [(.invalidOptionName,
        message "%s (%s) does not support any options" [.str vm.name, .str path])]
  | rejected {before : List (CText × CText × Int32)} {name value : CText} {answer : Int32}
      (hSupport : vm.hasSetOption = true) (hBefore : ∀ call ∈ before, call.2.2 = 0)
      (hAnswer : answer ≠ 0) :
      OptionOutcome vm path options (before ++ [(name, value, answer)]) (rejectionCode answer)
        [(rejectionCode answer, rejectionMessage vm path name value answer)]

/-- Options are set on the instance only, and the answers are those that it gives then. -/
def Answered (env : Env) (vm : Vm) (trace events : List Event) : Prop :=
  ∀ before other name value answer after,
    events = before ++ .setOption other name value answer :: after →
      other = vm ∧ answer = env.setOption (trace ++ before) vm name value

variable {n : Nat} {vm : Vm} {world : World} {path options name value : CText}
  {ec : LoaderErrorCode}

section Answered

variable {env : Env} {trace : List Event}

theorem answered_cons {event : Event} {later : List Event} :
    Answered env vm trace (event :: later) ↔
      (∀ other name value answer, event = .setOption other name value answer →
        other = vm ∧ answer = env.setOption trace vm name value) ∧
      Answered env vm (trace ++ [event]) later := by
  constructor
  · intro h
    constructor
    · rintro other name value answer rfl
      rw [← List.append_nil trace]
      exact h [] other name value answer later rfl
    · rintro before other name value answer after rfl
      rw [List.append_assoc]
      exact h (event :: before) other name value answer after rfl
  · rintro ⟨hHead, hLater⟩ before other name value answer after hEvents
    cases before with
    | nil =>
        rw [List.append_nil]
        exact hHead other name value answer (List.cons.inj hEvents).1
    | cons head tail =>
        obtain ⟨hSame, hRest⟩ := List.cons.inj hEvents
        have hAnswer := hLater tail other name value answer after hRest
        rw [List.append_assoc, hSame] at hAnswer
        exact hAnswer

theorem answered_append {first second : List Event} :
    Answered env vm trace (first ++ second) ↔
      Answered env vm trace first ∧ Answered env vm (trace ++ first) second := by
  induction first generalizing trace with
  | nil =>
      rw [List.append_nil]
      refine (and_iff_right ?_).symm
      intro before other name value answer after hNone
      cases before with
      | nil => cases hNone
      | cons head tail => cases hNone
  | cons event rest ih =>
      rw [List.cons_append, answered_cons, answered_cons, ih, List.append_assoc, and_assoc]
      rfl

/-- Where no option is set there is nothing to answer. -/
theorem answered_silent {events : List Event} (h : events.filterMap Event.optionSet = []) :
    Answered env vm trace events := by
  rintro before other name value answer after rfl
  rw [List.filterMap_append] at h
  cases (List.append_eq_nil_iff.mp h).2

/-- A call of the method between a read of the instance and the rest. -/
theorem answered_setOption {answer : Int32} {later : List Event}
    (hAnswer : env.setOption (trace ++ [.readVm vm]) vm name value = answer)
    (hLater : Answered env vm (trace ++ [.readVm vm] ++ [.setOption vm name value answer]) later) :
    Answered env vm trace (.readVm vm :: .setOption vm name value answer :: later) := by
  refine answered_cons.mpr ⟨fun _ _ _ _ hRead => (by cases hRead), answered_cons.mpr ⟨?_, hLater⟩⟩
  rintro _ _ _ _ ⟨⟩
  exact ⟨rfl, hAnswer.symm⟩

end Answered

/-- An accepted option before the others. -/
theorem OptionOutcome.cons {calls : List (CText × CText × Int32)} {rest : CText}
    {failures : List (LoaderErrorCode × CText)} (hSupport : vm.hasSetOption = true)
    (h : OptionOutcome vm path rest calls ec failures) :
    OptionOutcome vm path options ((name, value, 0) :: calls) ec failures := by
  cases h with
  | accepted _ hAccepted =>
      exact .accepted (.inl hSupport) (List.forall_mem_cons.mpr ⟨rfl, hAccepted⟩)
  | unsupported hUnsupported => cases hSupport.symm.trans hUnsupported
  | rejected _ hBefore hAnswer =>
      exact .rejected hSupport (List.forall_mem_cons.mpr ⟨rfl, hBefore⟩) hAnswer

theorem OptionOutcome.of_accepted {calls : List (CText × CText × Int32)}
    {failures : List (LoaderErrorCode × CText)} (hSupport : vm.hasSetOption = true)
    (h : OptionOutcome vm path options calls ec failures)
    (hAccepted : ∀ call ∈ calls, call.2.2 = 0) : ec = .success := by
  cases h with
  | accepted _ _ => rfl
  | unsupported hUnsupported => cases hSupport.symm.trans hUnsupported
  | rejected _ _ hAnswer =>
      exact absurd (hAccepted _ (List.mem_append_right _ (List.mem_singleton_self _))) hAnswer

theorem OptionOutcome.of_rejected {calls before : List (CText × CText × Int32)}
    {failures : List (LoaderErrorCode × CText)} {answer : Int32}
    (h : OptionOutcome vm path options calls ec failures) (hAnswer : answer ≠ 0)
    (hCalls : calls = before ++ [(name, value, answer)]) :
    ec = rejectionCode answer ∧
      failures = [(ec, rejectionMessage vm path name value answer)] := by
  cases h with
  | accepted _ hAccepted =>
      rw [hCalls] at hAccepted
      exact absurd (hAccepted _ (List.mem_append_right _ (List.mem_singleton_self _))) hAnswer
  | unsupported _ _ => exact absurd hCalls.symm (List.append_ne_nil_of_right_ne_nil _ (by simp))
  | rejected _ _ _ =>
      cases (List.append_singleton_inj.mp hCalls).2
      exact ⟨rfl, rfl⟩

/-- Reporting an option that is not accepted. -/
theorem reportOption_returns (vm : Vm) (ec : LoaderErrorCode) (output : CText → CText) :
    Returns World.trace
      (do
        let name ← readVm vm Vm.name
        setError ec (output name)) world
      fun value events _ => value = ec ∧ events.filterMap Event.optionSet = [] ∧
        events.filterMap Event.failed = [(ec, output vm.name)] := by
  apply readVm_bind
  apply (setError_returns _ _ _).mono
  intro value events final ⟨hValue, hEvents, _⟩
  subst hEvents
  exact ⟨hValue, rfl, rfl⟩

/-- An answer other than success ends the loop with its report. -/
theorem rejectOption_returns {env : Env} {trace : List Event} {output : CText → CText}
    {answer : Int32} (hSupport : vm.hasSetOption = true)
    (hGiven : env.setOption (trace ++ [.readVm vm]) vm name value = answer) (hAnswer : answer ≠ 0)
    (hCode : ec = rejectionCode answer)
    (hOutput : output vm.name = rejectionMessage vm path name value answer) :
    Returns World.trace
      (do
        let name ← readVm vm Vm.name
        setError ec (output name)) world
      fun code later _ => OptionOutcome vm path options
        ((.readVm vm :: .setOption vm name value answer :: later).filterMap Event.optionSet) code
        ((.readVm vm :: .setOption vm name value answer :: later).filterMap Event.failed) ∧
        Answered env vm trace (.readVm vm :: .setOption vm name value answer :: later) := by
  apply (reportOption_returns vm ec output).mono
  intro code later final ⟨hSame, hSilent, hFailed⟩
  subst hSame
  have hCalls : (Event.readVm vm :: .setOption vm name value answer :: later).filterMap
      Event.optionSet = [] ++ [(name, value, answer)] :=
    congrArg (List.cons (name, value, answer)) hSilent
  have hFailures : (Event.readVm vm :: .setOption vm name value answer :: later).filterMap
      Event.failed = [(rejectionCode answer, rejectionMessage vm path name value answer)] := by
    rw [← hCode, ← hOutput]
    exact hFailed
  rw [hCalls, hFailures, hCode]
  exact ⟨.rejected hSupport (fun _ hCall => by cases hCall) hAnswer,
    answered_setOption hGiven (answered_silent hSilent)⟩

/-- The loop, for every text of options. -/
theorem setOptions_outcome (env : Env) {block : Vector CChar n} {pos pathPos fuel : Nat}
    (hPath : Holds block.toList pathPos path) (hOptions : Holds block.toList pos options)
    (hApart : options.chars ≠ [] → pathPos + path.length < pos) (hFuel : options.length < fuel) :
    Returns World.trace (setOptions env vm pathPos fuel block pos) world fun ec events _ =>
      OptionOutcome vm path options (events.filterMap Event.optionSet) ec
        (events.filterMap Event.failed) ∧ Answered env vm world.trace events := by
  induction fuel generalizing block pos options world with
  | zero => cases hFuel
  | succ fuel ih =>
      unfold setOptions
      apply Returns.lift_bind (by rw [hOptions.textAt]; rfl)
      rcases eq_or_ne options.length 0 with hNil | hNonzero
      · rw [if_pos hNil]
        have hNone : options.chars = [] := List.length_eq_zero_iff.mp hNil
        exact Returns.pure ⟨.accepted (.inr hNone) fun _ hCall => (by cases hCall),
          answered_silent rfl⟩
      have hChars : options.chars ≠ [] := fun hNil => hNonzero (List.length_eq_zero_iff.mpr hNil)
      have hFront := hApart hChars
      rw [if_neg hNonzero]
      apply readVm_bind
      cases hSupport : vm.hasSetOption with
      | false =>
          simp only [Bool.not_false, ↓reduceIte]
          apply readVm_bind
          apply Returns.lift_bind (by rw [hPath.textAt]; rfl)
          apply (setError_returns _ _ _).mono
          intro ec later final h
          obtain ⟨hCode, hEvents, _⟩ := h
          subst hCode hEvents
          exact ⟨.unsupported hSupport hChars, answered_silent rfl⟩
      | true =>
          obtain ⟨cut, next, split, valuePos, hCut, hSplit, hPathSplit, hName, hValue, hRest,
            hNext⟩ := cutOption_holds hPath hOptions hFront
          simp only [Bool.not_true, Bool.false_eq_true, ↓reduceIte]
          apply Returns.lift_bind hCut
          apply Returns.lift_bind hSplit
          apply Returns.lift_bind (by rw [hName.textAt]; rfl)
          apply Returns.lift_bind (by rw [hValue.textAt]; rfl)
          apply Returns.lift_bind (by rw [hPathSplit.textAt]; rfl)
          apply asked_bind rfl
          generalize hAnswer : env.setOption _ vm _ _ = answer
          rcases eq_or_ne answer 0 with hZero | hRejected
          · subst hZero
            rw [if_pos rfl]
            have hShorter := Text.length_after_lt hChars (chr ',')
            apply (ih hPathSplit hRest (fun _ => by omega) (by omega)).mono
            intro ec later final h
            obtain ⟨hOutcome, hAnswers⟩ := h
            exact ⟨hOutcome.cons hSupport, answered_setOption hAnswer hAnswers⟩
          · rw [if_neg hRejected]
            have hReport {reached : World} {code : LoaderErrorCode} {output : CText → CText}
                (hCode : code = rejectionCode answer)
                (hOutput : output vm.name = rejectionMessage vm path
                  ((options.before (chr ',')).before (chr '='))
                  ((options.before (chr ',')).after (chr '=')) answer) :=
              @rejectOption_returns vm reached path options _ _ code env world.trace output answer
                hSupport hAnswer hRejected hCode hOutput
            split
            · rename_i hName
              exact hReport (if_pos hName).symm (if_pos hName).symm
            rename_i hName
            split
            · rename_i hValue
              exact hReport (if_neg hName).symm
                ((if_neg hName).trans (if_pos hValue)).symm
            · rename_i hValue
              exact hReport (if_neg hName).symm
                ((if_neg hName).trans (if_neg hValue)).symm

/-- Leaving a call destroys an instance that is not returned, and says nothing more. -/
theorem configureExit_silent (vm : Vm) (ec : LoaderErrorCode) (world : World) :
    Writes (configureExit (some vm) ec) world fun result events _ =>
      result = (if ec = .success then some vm else none, ec) ∧
        events.filterMap Event.optionSet = [] ∧ events.filterMap Event.failed = [] := by
  by_cases hSuccess : ec = .success
  · subst hSuccess
    exact ⟨(some vm, .success), [], world, fun _ => rfl, (List.append_nil _).symm, rfl, rfl, rfl⟩
  · refine ⟨(none, ec), [.destroy vm], world.log (.destroy vm), fun errorCode => ?_, rfl, ?_, rfl,
      rfl⟩
    · simp only [configureExit, if_neg hSuccess]
      rfl
    · rw [if_neg hSuccess]

/-- Setting the options of a module that was loaded. -/
theorem configure_outcome_of_loaded {env : Env} {config : CText} {loaded : World}
    (hShort : config.length < pathMaxLength)
    (hLoad : ∀ errorCode, qrvmcLoadAndCreate env (some (config.before (chr ','))) errorCode world =
      .ok ((some vm, errorCode.write ec), loaded))
    (hNull : loaded.lastErrorMsg = .null) (hCompatible : vm.abiVersion = qrvmcAbiVersion) :
    ∃ code later final, (∀ errorCode, qrvmcLoadAndConfigure env config errorCode world =
        .ok ((if code = .success then some vm else none, errorCode.write code), final)) ∧
      final.trace = loaded.trace ++ later ∧
      OptionOutcome vm (config.before (chr ',')) (config.after (chr ','))
        (later.filterMap Event.optionSet) code (later.filterMap Event.failed) ∧
      Answered env vm loaded.trace later ∧
      (vm.hasSetOption = true → Applied ((config.after (chr ',')).tokens (chr ','))
        (later.filterMap Event.optionSet)) ∧
      (vm.hasSetOption = false → later.filterMap Event.optionSet = []) := by
  obtain ⟨block, pos, hPath, hOptions, hApart, hCall⟩ := configure_of_short env world hShort
  have hLength : (config.after (chr ',')).length < pathMaxLength :=
    Nat.lt_of_le_of_lt ((List.length_drop ..).trans_le (Nat.sub_le ..)) hShort
  obtain ⟨code, events, reached, hRun, hTrace, hSets, hOutcome, hAnswers⟩ :=
    (setOptions_returns env hCompatible hNull hPath hOptions hApart hLength).and
      (setOptions_outcome env hPath hOptions hApart hLength)
  obtain ⟨result, later, final, hExit, hLater, hResult, hSet, hFailed⟩ :=
    configureExit_silent vm code reached
  subst hResult
  refine ⟨code, events ++ later, final, fun errorCode => ?_, ?_, ?_, ?_, fun hSupport => ?_,
    fun hUnable => ?_⟩
  · rw [hCall, Returns.run_bind (hLoad errorCode)]
    simp only
    rw [Returns.run_bind hRun, hExit, ErrorCodePtr.write_write]
  · rw [hLater, hTrace, List.append_assoc]
  · rw [List.filterMap_append, List.filterMap_append, hSet, hFailed, List.append_nil,
      List.append_nil]
    exact hOutcome
  · exact answered_append.mpr ⟨hAnswers, answered_silent hSet⟩
  · rw [List.filterMap_append, hSet, List.append_nil]
    exact (hSets.configures.supported hSupport).1
  · rw [List.filterMap_append, hSet, List.append_nil]
    exact (hSets.configures.unsupported hUnable).1

/-- The outcome of configuring a module that loads: the options are set in order, and the
answer to the last of them decides the code, and which message is reported. An instance
that has no method to set options is returned only if there are none. -/
theorem loadAndConfigure_outcome (env : Env) (config : CText) (world : World) :
    Writes (qrvmcLoadAndConfigure env config) world fun result events _ =>
      ∀ vm loaded, config.length < pathMaxLength →
        qrvmcLoadAndCreate env (some (config.before (chr ','))) .null world =
          .ok ((some vm, .null), loaded) →
        result.1 = (if result.2 = .success then some vm else none) ∧
        OptionOutcome vm (config.before (chr ',')) (config.after (chr ','))
          (events.filterMap Event.optionSet) result.2 (events.filterMap Event.failed) ∧
        Answered env vm world.trace events ∧
        (vm.hasSetOption = true → Applied ((config.after (chr ',')).tokens (chr ','))
          (events.filterMap Event.optionSet)) ∧
        (vm.hasSetOption = false → events.filterMap Event.optionSet = []) := by
  obtain ⟨result, all, final, hRun, hAll, _⟩ := qrvmcLoadAndConfigure_writes env config world
  refine ⟨result, all, final, hRun, hAll, fun vm loaded hShort hCall => ?_⟩
  obtain ⟨⟨created, ec⟩, events, reached, hLoad, hTrace, stop, hEnds, _, hCompatible⟩ :=
    qrvmcLoadAndCreate_writes env (some (config.before (chr ','))) world
  rw [hLoad] at hCall
  cases hCall
  obtain ⟨hSilent, hNull⟩ := hEnds.reports.success (hEnds.returns.mp rfl)
  obtain ⟨code, later, last, hLast, hLater, hOutcome, hAnswers, hApplied⟩ :=
    configure_outcome_of_loaded hShort hLoad hNull (hCompatible vm rfl)
  obtain ⟨value, code'⟩ := result
  have hSame := Except.ok.inj ((hRun (.variable .success)).symm.trans
    (hLast (.variable .success)))
  simp only [Prod.mk.injEq, ErrorCodePtr.write, ErrorCodePtr.variable.injEq] at hSame
  obtain ⟨⟨rfl, rfl⟩, rfl⟩ := hSame
  have hEvents : all = events ++ later := by
    apply List.append_cancel_left
    rw [← hAll, hLater, hTrace, List.append_assoc]
  have hSet : all.filterMap Event.optionSet = later.filterMap Event.optionSet := by
    rw [hEvents, List.filterMap_append, hEnds.options, List.nil_append]
  have hFailed : all.filterMap Event.failed = later.filterMap Event.failed := by
    rw [hEvents, List.filterMap_append, hSilent, List.nil_append]
  rw [hTrace] at hAnswers
  refine ⟨rfl, ?_, ?_, ?_⟩
  · rw [hSet, hFailed]
    exact hOutcome
  · rw [hEvents]
    exact answered_append.mpr ⟨answered_silent hEnds.options, hAnswers⟩
  · rw [hSet]
    exact hApplied

theorem loadAndConfigure_outcome_two :
    ∃ vm returned ec events final,
      qrvmcLoadAndConfigure (.obliging vm) (text "m.so,a=1,b=2=,") .null {} =
        .ok ((returned, .null), final) ∧ final.trace = events ∧
      OptionOutcome vm (text "m.so") (text "a=1,b=2=,") (events.filterMap Event.optionSet) ec
        (events.filterMap Event.failed) ∧
      Applied [lit "a=1", lit "b=2="] (events.filterMap Event.optionSet) := by
  let vm : Vm := ⟨0, qrvmcAbiVersion, text "vm", true⟩
  obtain ⟨result, events, final, hRun, hTrace, hOutcome⟩ :=
    loadAndConfigure_outcome (.obliging vm) (text "m.so,a=1,b=2=,") {}
  obtain ⟨loaded, hLoad⟩ := obliging_loadAndCreate (show vm.abiVersion = qrvmcAbiVersion from rfl)
    ((text "m.so,a=1,b=2=,").before (chr ',')) (by decide) (by decide) .null {}
  obtain ⟨_, hOptions, _, hApplied, _⟩ := hOutcome vm loaded (by decide) hLoad
  have hPath : (text "m.so,a=1,b=2=,").before (chr ',') = text "m.so" := by
    apply Text.ext
    decide
  have hText : (text "m.so,a=1,b=2=,").after (chr ',') = text "a=1,b=2=," := by
    apply Text.ext
    decide
  have hTokens : ((text "m.so,a=1,b=2=,").after (chr ',')).tokens (chr ',') =
      [lit "a=1", lit "b=2="] := by decide
  rw [hPath, hText] at hOptions
  exact ⟨vm, result.1, result.2, events, final, hRun .null, hTrace, hOptions,
    hTokens ▸ hApplied rfl⟩

end Qrvmc
