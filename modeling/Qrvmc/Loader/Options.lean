import Qrvmc.Loader.Outcomes
import Qrvmc.Memory.Text

/-! The options of a configuration are set one after the other, in the order in which
they are written, until the instance does not accept one. The loop works on one
buffer that it cuts into pieces; the options are those of the text it started with. -/
namespace Qrvmc
open Memory Semantics Loader

/-- An option sets what stands before its first `=` to all that stands after it. -/
structure Assigns (option : List CChar) (name value : CText) : Prop where
  name : name.chars = option.takeWhile (· ≠ chr '=')
  value : value.chars = option.drop (option.idxOf (chr '=') + 1)

/-- The options are set in order, up to the first that is not accepted. -/
inductive Applied : List (List CChar) → List (CText × CText × Int32) → Prop where
  | done : Applied [] []
  | accepted {option : List CChar} {options : List (List CChar)} {name value : CText}
      {calls : List (CText × CText × Int32)} (hOption : Assigns option name value)
      (hRest : Applied options calls) :
      Applied (option :: options) ((name, value, 0) :: calls)
  | rejected {option : List CChar} {options : List (List CChar)} {name value : CText}
      {answer : Int32} (hOption : Assigns option name value) (hAnswer : answer ≠ 0) :
      Applied (option :: options) [(name, value, answer)]

/-- What setting the options of a text comes to, with the events of it and the code. -/
structure Configures (vm : Vm) (options : CText) (errorCode : LoaderErrorCode)
    (events : List Event) : Prop where
  supported : vm.hasSetOption = true →
    Applied (options.tokens (chr ',')) (events.filterMap Event.optionSet) ∧
      (errorCode = .success ↔ ∀ call ∈ events.filterMap Event.optionSet, call.2.2 = 0)
  unsupported : vm.hasSetOption = false →
    events.filterMap Event.optionSet = [] ∧
      (errorCode = .success ↔ options.tokens (chr ',') = [])

variable {n : Nat} {vm : Vm} {world : World} {options name value : CText}
  {errorCode : LoaderErrorCode} {events : List Event}

/-- What the second tokenizer makes of an option is its assignment. -/
theorem assigns_before_after (option : CText) :
    Assigns option.chars (option.before (chr '=')) (option.after (chr '=')) :=
  ⟨Text.before_chars option (chr '='), rfl⟩

theorem Configures.nothing (h : options.chars = []) : Configures vm options .success [] := by
  have hTokens := Text.tokens_of_empty h (chr ',')
  constructor
  · intro _
    rw [hTokens]
    exact ⟨.done, fun _ _ hCall => (by cases hCall), fun _ => rfl⟩
  · intro _
    exact ⟨rfl, fun _ => hTokens, fun _ => rfl⟩

/-- An accepted option, and the rest after it. -/
theorem Configures.accepted (hOptions : options.chars ≠ []) (hSupport : vm.hasSetOption = true)
    (hOption : Assigns (options.before (chr ',')).chars name value)
    (h : Configures vm (options.after (chr ',')) errorCode events) :
    Configures vm options errorCode (.readVm vm :: .setOption vm name value 0 :: events) := by
  obtain ⟨hApplied, hCode⟩ := h.supported hSupport
  have hCalls : (Event.readVm vm :: .setOption vm name value 0 :: events).filterMap
      Event.optionSet = (name, value, 0) :: events.filterMap Event.optionSet := rfl
  constructor
  · intro _
    rw [Text.tokens_of_nonempty hOptions, hCalls]
    refine ⟨.accepted hOption hApplied, hCode.trans ?_⟩
    rw [List.forall_mem_cons]
    exact (and_iff_right rfl).symm
  · intro hNone
    rw [hSupport] at hNone
    cases hNone

/-- An option that is not accepted ends it. -/
theorem Configures.rejected {answer : Int32} (hOptions : options.chars ≠ [])
    (hSupport : vm.hasSetOption = true)
    (hOption : Assigns (options.before (chr ',')).chars name value) (hAnswer : answer ≠ 0)
    (hFailure : errorCode ≠ .success) (hSilent : events.filterMap Event.optionSet = []) :
    Configures vm options errorCode (.readVm vm :: .setOption vm name value answer :: events) := by
  have hCalls : (Event.readVm vm :: .setOption vm name value answer :: events).filterMap
      Event.optionSet = [(name, value, answer)] :=
    congrArg (List.cons (name, value, answer)) hSilent
  constructor
  · intro _
    rw [Text.tokens_of_nonempty hOptions, hCalls]
    exact ⟨.rejected hOption hAnswer, fun hSuccess => absurd hSuccess hFailure,
      fun hAll => absurd (hAll _ (List.mem_singleton_self _)) hAnswer⟩
  · intro hNone
    rw [hSupport] at hNone
    cases hNone

/-- Without a method to set options there must be none. -/
theorem Configures.unable (hOptions : options.chars ≠ []) (hSupport : vm.hasSetOption = false)
    (hFailure : errorCode ≠ .success) (hSilent : events.filterMap Event.optionSet = []) :
    Configures vm options errorCode events := by
  constructor
  · intro hSome
    rw [hSupport] at hSome
    cases hSome
  · intro _
    rw [Text.tokens_of_nonempty hOptions]
    exact ⟨hSilent, fun hSuccess => absurd hSuccess hFailure, fun hNil => by cases hNil⟩

/-- What happens before without setting options does not matter. -/
theorem Configures.after {earlier : List Event} (hEarlier : earlier.filterMap Event.optionSet = [])
    (h : Configures vm options errorCode events) :
    Configures vm options errorCode (earlier ++ events) := by
  constructor
  · rw [List.filterMap_append, hEarlier, List.nil_append]
    exact h.supported
  · rw [List.filterMap_append, hEarlier, List.nil_append]
    exact h.unsupported

/-- Neither does what happens afterwards. -/
theorem Configures.before {later : List Event} (h : Configures vm options errorCode events)
    (hLater : later.filterMap Event.optionSet = []) :
    Configures vm options errorCode (events ++ later) := by
  constructor
  · rw [List.filterMap_append, hLater, List.append_nil]
    exact h.supported
  · rw [List.filterMap_append, hLater, List.append_nil]
    exact h.unsupported

/-- How setting the options of a text on a live instance ends. -/
structure Sets (vm : Vm) (options : CText) (errorCode : LoaderErrorCode) (events : List Event)
    (final : World) : Prop where
  reports : Reports errorCode events final
  life : Path VmStep (.live vm) events (.live vm)
  configures : Configures vm options errorCode events

/-- A failure whose message names the instance. -/
theorem fail_naming_returns (vm : Vm) (hFailure : errorCode ≠ .success)
    (hNull : world.lastErrorMsg = .null) (output : CText → CText) :
    Returns World.trace
      (do
        let name ← readVm vm Vm.name
        setError errorCode (output name)) world
      fun value events final => value = errorCode ∧ events.filterMap Event.optionSet = [] ∧
        Path VmStep (.live vm) events (.live vm) ∧ Reports errorCode events final := by
  apply readVm_bind
  apply (setError_reports hFailure (by simp [hNull]) _).mono
  intro value events final ⟨hValue, hEvents, hReports⟩
  subst hEvents
  exact ⟨hValue, rfl, .cons .read (.cons (.other rfl rfl rfl) (.nil _)), hReports.cons rfl⟩

/-- An option that is not accepted ends the loop with a failure. -/
theorem reject_returns {answer : Int32} (hCompatible : vm.abiVersion = qrvmcAbiVersion)
    (hSupport : vm.hasSetOption = true) (hOptions : options.chars ≠ [])
    (hOption : Assigns (options.before (chr ',')).chars name value) (hAnswer : answer ≠ 0)
    (hFailure : errorCode ≠ .success) (hNull : world.lastErrorMsg = .null)
    (output : CText → CText) :
    Returns World.trace
      (do
        let name ← readVm vm Vm.name
        setError errorCode (output name)) world
      fun ec later final =>
        Sets vm options ec (.readVm vm :: .setOption vm name value answer :: later) final := by
  apply (fail_naming_returns vm hFailure hNull output).mono
  intro ec later final ⟨hCode, hSilent, hLife, hReports⟩
  subst hCode
  exact ⟨(hReports.cons rfl).cons rfl, .cons .read (.cons (.setOption hCompatible) hLife),
    .rejected hOptions hSupport hOption hAnswer hFailure hSilent⟩

/-- An option that is accepted goes on to those after it. -/
theorem Sets.accepted (hCompatible : vm.abiVersion = qrvmcAbiVersion)
    (hSupport : vm.hasSetOption = true) (hOptions : options.chars ≠ [])
    (hOption : Assigns (options.before (chr ',')).chars name value)
    (h : Sets vm (options.after (chr ',')) errorCode events world) :
    Sets vm options errorCode (.readVm vm :: .setOption vm name value 0 :: events) world :=
  ⟨(h.reports.cons rfl).cons rfl, .cons .read (.cons (.setOption hCompatible) h.life),
    h.configures.accepted hOptions hSupport hOption⟩

/-- One round of the loop cuts the first option off, and the option into its name and
value. The other options follow, and the path in front is as it was. -/
theorem cutOption_holds {block : Vector CChar n} {path pos : Nat} {pathText : CText}
    (hPath : Holds block.toList path pathText) (hOptions : Holds block.toList pos options)
    (hFront : path + pathText.length < pos) :
    ∃ cut next split value, getToken block pos (chr ',') = .ok (cut, next, pos) ∧
      getToken cut pos (chr '=') = .ok (split, value, pos) ∧
      Holds split.toList path pathText ∧
      Holds split.toList pos ((options.before (chr ',')).before (chr '=')) ∧
      Holds split.toList value ((options.before (chr ',')).after (chr '=')) ∧
      Holds split.toList next (options.after (chr ',')) ∧ pos ≤ next := by
  obtain ⟨cut, next, hCut, hOption, hRest, hNext, _, hBefore, _⟩ := getToken_holds hOptions (chr ',')
  obtain ⟨split, value, hSplit, hName, hValue, _, hEnd, hNameBefore, hValueAfter⟩ :=
    getToken_holds hOption (chr '=')
  exact ⟨cut, next, split, value, hCut, hSplit,
    hNameBefore path pathText hFront (hBefore path pathText hFront hPath), hName, hValue,
    hValueAfter next _ (by omega) hRest, by omega⟩

/-- The loop ends for every text, with its options set as they are written. -/
theorem setOptions_returns (env : Env) {block : Vector CChar n} {path pos fuel : Nat}
    {pathText : CText} (hCompatible : vm.abiVersion = qrvmcAbiVersion)
    (hNull : world.lastErrorMsg = .null) (hPath : Holds block.toList path pathText)
    (hOptions : Holds block.toList pos options)
    (hApart : options.chars ≠ [] → path + pathText.length < pos)
    (hFuel : options.length < fuel) :
    Returns World.trace (setOptions env vm path fuel block pos) world fun ec events final =>
      Sets vm options ec events final := by
  induction fuel generalizing block pos options world with
  | zero => cases hFuel
  | succ fuel ih =>
      unfold setOptions
      apply Returns.lift_bind (by rw [hOptions.textAt]; rfl)
      rcases eq_or_ne options.length 0 with hNil | hNonzero
      · rw [if_pos hNil]
        exact Returns.pure ⟨⟨fun _ => ⟨rfl, hNull⟩, fun hFailure => absurd rfl hFailure⟩, .nil _,
          .nothing (List.length_eq_zero_iff.mp hNil)⟩
      have hChars : options.chars ≠ [] := fun hNil => hNonzero (List.length_eq_zero_iff.mpr hNil)
      have hFront := hApart hChars
      rw [if_neg hNonzero]
      apply readVm_bind
      cases hSupport : vm.hasSetOption with
      | false =>
          simp only [Bool.not_false, ↓reduceIte]
          apply readVm_bind
          apply Returns.lift_bind (by rw [hPath.textAt]; rfl)
          apply (setError_reports (by decide) (by simp [hNull]) _).mono
          intro ec later final ⟨hCode, hEvents, hReports⟩
          subst hCode hEvents
          exact ⟨(hReports.cons rfl).cons rfl,
            .cons .read (.cons .read (.cons (.other rfl rfl rfl) (.nil _))),
            .unable hChars hSupport (by decide) rfl⟩
      | true =>
          obtain ⟨cut, next, split, value, hCut, hSplit, hPathSplit, hName, hValue, hRest, hNext⟩ :=
            cutOption_holds hPath hOptions hFront
          simp only [Bool.not_true, Bool.false_eq_true, ↓reduceIte]
          apply Returns.lift_bind hCut
          apply Returns.lift_bind hSplit
          apply Returns.lift_bind (by rw [hName.textAt]; rfl)
          apply Returns.lift_bind (by rw [hValue.textAt]; rfl)
          apply Returns.lift_bind (by rw [hPathSplit.textAt]; rfl)
          apply ask_bind
          intro answer
          have hAssigns := assigns_before_after (options.before (chr ','))
          rcases eq_or_ne answer 0 with hZero | hRejected
          · subst hZero
            rw [if_pos rfl]
            have hShorter := Text.length_after_lt hChars (chr ',')
            apply (ih (by simp [hNull]) hPathSplit hRest (fun _ => by omega) (by omega)).mono
            intro ec later final hSets
            exact hSets.accepted hCompatible hSupport hChars hAssigns
          · rw [if_neg hRejected]
            have hReject {reached : World} (hReached : reached.lastErrorMsg = .null)
                {ec : LoaderErrorCode} (hFailure : ec ≠ .success) :=
              reject_returns hCompatible hSupport hChars hAssigns hRejected hFailure hReached
            split
            · exact hReject (by simp [hNull]) (by decide) _
            split
            · exact hReject (by simp [hNull]) (by decide) _
            · exact hReject (by simp [hNull]) (by decide) _

end Qrvmc
