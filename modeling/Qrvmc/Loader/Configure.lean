import Qrvmc.Loader.LoadAndCreate
import Qrvmc.Loader.Options

/-! Loading a module, creating its VM and setting its options. The call ends the same
way whichever error code argument it has. It leaves an instance behind only if it
returns it. -/
namespace Qrvmc
open Memory Semantics Loader

/-- How configuring a live instance ends. -/
structure Configured (vm : Vm) (options : CText) (result : Option Vm × LoaderErrorCode)
    (events : List Event) (final : World) : Prop where
  reports : Reports result.2 events final
  returns : result.1 = if result.2 = .success then some vm else none
  life : ∃ stop, Path VmStep (.live vm) events stop ∧ stop.alive = result.1
  configures : Configures vm options result.2 events

/-- How a call that configures ends. -/
structure Concludes (result : Option Vm × LoaderErrorCode) (events : List Event) (final : World) :
    Prop where
  reports : Reports result.2 events final
  returns : result.1.isSome ↔ result.2 = .success
  life : ∃ stop, Path VmStep .absent events stop ∧ stop.alive = result.1

variable {env : Env} {config : CText} {world loaded final : World} {vm : Vm} {ec : LoaderErrorCode}
  {events : List Event}

theorem Configured.returned_iff {options : CText} {result : Option Vm × LoaderErrorCode}
    (h : Configured vm options result events final) :
    result.1 = some vm ↔ result.2 = .success := by
  rw [h.returns]
  split <;> simp [*]

/-- Leaving the loop: the instance is destroyed unless all went well. -/
theorem configureExit_writes {options : CText} (h : Sets vm options ec events world) :
    Writes (configureExit (some vm) ec) world fun result later final =>
      Configured vm options result (events ++ later) final := by
  rcases eq_or_ne ec .success with hSuccess | hFailure
  · subst hSuccess
    refine ⟨(some vm, .success), [], world, fun _ => rfl, (List.append_nil _).symm, ?_⟩
    show Configured vm options _ (events ++ []) world
    rw [List.append_nil]
    exact ⟨h.reports, rfl, ⟨_, h.life, rfl⟩, h.configures⟩
  · refine ⟨(none, ec), [.destroy vm], world.log (.destroy vm), fun errorCode => ?_, rfl,
      h.reports.before rfl rfl rfl, (if_neg hFailure).symm,
      ⟨.gone vm, h.life.append (.cons .destroy (.nil _)), rfl⟩, h.configures.before rfl⟩
    simp only [configureExit, if_neg hFailure]
    rfl

/-- A configuration that fits is cut at its first comma: what stands before is the
path of the module, and what stands after are the options. -/
theorem configure_of_short (env : Env) (world : World) (hShort : config.length < pathMaxLength) :
    ∃ (block : Vector CChar pathMaxLength) (pos : Nat),
      Holds block.toList 0 (config.before (chr ',')) ∧
      Holds block.toList pos (config.after (chr ',')) ∧
      ((config.after (chr ',')).chars ≠ [] → 0 + (config.before (chr ',')).length < pos) ∧
      ∀ errorCode, qrvmcLoadAndConfigure env config errorCode world =
        (do
          let (vm, errorCode) ← qrvmcLoadAndCreate env (some (config.before (chr ','))) errorCode
          match vm with
          | none => return (none, errorCode)
          | some vm =>
              let ec ← setOptions env vm 0 pathMaxLength block pos
              configureExit (some vm) ec errorCode : Loader _) world := by
  obtain ⟨copied, hCopied, hConfig, _⟩ := strcpySx_fits (env.uninitializedConfig world.trace) 0
    pathMaxLength config (Nat.le_of_eq (Nat.zero_add _)) hShort
  obtain ⟨cut, next, hCut, hPath, hOptions, hNext, _⟩ := getToken_holds hConfig (chr ',')
  refine ⟨cut, next, hPath, hOptions, hPath.apart hOptions hNext, fun errorCode => ?_⟩
  unfold qrvmcLoadAndConfigure
  rw [Returns.run_get_bind, Returns.run_lift_bind hCopied]
  simp only [ne_eq, not_true_eq_false, ↓reduceIte]
  rw [Returns.run_lift_bind hCut, hPath.textAt]
  exact Returns.run_lift_bind (inBounds_some _)

/-- The rest of a call whose module loads: the options are set on the new instance. -/
theorem configure_of_loaded (hShort : config.length < pathMaxLength)
    (hLoad : ∀ errorCode, qrvmcLoadAndCreate env (some (config.before (chr ','))) errorCode world =
      .ok ((some vm, errorCode.write ec), loaded))
    (hNull : loaded.lastErrorMsg = .null) (hCompatible : vm.abiVersion = qrvmcAbiVersion) :
    ∃ result later final, (∀ errorCode, qrvmcLoadAndConfigure env config errorCode world =
        .ok ((result.1, errorCode.write result.2), final)) ∧
      final.trace = loaded.trace ++ later ∧
      Configured vm (config.after (chr ',')) result later final := by
  obtain ⟨block, pos, hPath, hOptions, hApart, hCall⟩ := configure_of_short env world hShort
  have hLength : (config.after (chr ',')).length ≤ config.length :=
    (List.length_drop ..).trans_le (Nat.sub_le ..)
  obtain ⟨code, events, reached, hRun, hTrace, hSets⟩ := setOptions_returns env hCompatible hNull
    hPath hOptions hApart (Nat.lt_of_le_of_lt hLength hShort)
  obtain ⟨result, later, final, hExit, hLater, hConfigured⟩ := configureExit_writes hSets
  refine ⟨result, events ++ later, final, fun errorCode => ?_, ?_, hConfigured⟩
  · rw [hCall, Returns.run_bind (hLoad errorCode)]
    simp only
    rw [Returns.run_bind hRun, hExit, ErrorCodePtr.write_write]
  · rw [hLater, hTrace, List.append_assoc]

/-- A call whose module does not load fails in the same way. -/
theorem configure_of_unloaded (hShort : config.length < pathMaxLength)
    (hLoad : ∀ errorCode, qrvmcLoadAndCreate env (some (config.before (chr ','))) errorCode world =
      .ok ((none, errorCode.write ec), loaded)) (errorCode : ErrorCodePtr) :
    qrvmcLoadAndConfigure env config errorCode world =
      .ok ((none, errorCode.write ec), loaded) := by
  obtain ⟨_, _, _, _, _, hCall⟩ := configure_of_short env world hShort
  rw [hCall, Returns.run_bind (hLoad errorCode)]
  rfl

/-- The message of a configuration that is too long fits into the buffer, so it is
shown whatever was pending. -/
theorem configure_rejects (env : Env) (world : World) (hLong : pathMaxLength ≤ config.length) :
    Writes (qrvmcLoadAndConfigure env config) world fun result events final =>
      result = (none, .invalidArgument) ∧
        ∃ output, events = [.failure .invalidArgument output] ∧ final.Shows output := by
  obtain ⟨ec, events, final, hRun, hTrace, hCode, hEvents, hMessage⟩ :=
    setError_returns world .invalidArgument
      (message "invalid argument: configuration is too long (maximum allowed length is %d)"
        [.int (Int32.ofNat pathMaxLength)])
  have hShows := hMessage.resolve_left fun hTooLong => absurd hTooLong.1 (by decide)
  have hCopied := strcpySx_overflows (env.uninitializedConfig world.trace)
    (by decide : 0 < pathMaxLength) hLong
  subst hCode hEvents
  refine ⟨(none, .invalidArgument), _, final, fun errorCode => ?_, hTrace, rfl, _, rfl, hShows⟩
  unfold qrvmcLoadAndConfigure
  rw [Returns.run_get_bind, Returns.run_lift_bind hCopied]
  simp only
  rw [if_pos (by decide), Returns.run_bind hRun]
  rfl

theorem configure_of_long (env : Env) (world : World) (hLong : pathMaxLength ≤ config.length) :
    Writes (qrvmcLoadAndConfigure env config) world fun result events final =>
      Concludes result events final := by
  obtain ⟨result, events, final, hRun, hTrace, hResult, output, hEvents, hShows⟩ :=
    configure_rejects env world hLong
  subst hResult hEvents
  exact ⟨_, _, final, hRun, hTrace, .of_failure (by decide) rfl (.inr hShows),
    ⟨fun hSome => (by cases hSome), fun hSuccess => by cases hSuccess⟩,
    .absent, .cons (.other rfl rfl rfl) (.nil _), rfl⟩

theorem qrvmcLoadAndConfigure_writes (env : Env) (config : CText) (world : World) :
    Writes (qrvmcLoadAndConfigure env config) world fun result events final =>
      Concludes result events final := by
  rcases Nat.lt_or_ge config.length pathMaxLength with hShort | hLong
  · obtain ⟨⟨vm, ec⟩, events, loaded, hLoad, hTrace, stop, hEnds, hAlive, hCompatible⟩ :=
      qrvmcLoadAndCreate_writes env (some (config.before (chr ','))) world
    cases vm with
    | none =>
        exact ⟨(none, ec), events, loaded, configure_of_unloaded hShort hLoad, hTrace,
          hEnds.reports, hEnds.returns, stop, hEnds.life, hAlive⟩
    | some vm =>
        obtain ⟨hSilent, hNull⟩ := hEnds.reports.success (hEnds.returns.mp rfl)
        obtain ⟨result, later, final, hRun, hLater, h⟩ :=
          configure_of_loaded hShort hLoad hNull (hCompatible vm rfl)
        obtain ⟨last, hLife, hLast⟩ := h.life
        refine ⟨result, events ++ later, final, hRun, ?_, h.reports.after hSilent, ?_, last, ?_, hLast⟩
        · rw [hLater, hTrace, List.append_assoc]
        · rw [h.returns]
          split <;> simp [*]
        · cases stop with
          | live other =>
              cases hAlive
              exact hEnds.life.append hLife
          | _ => cases hAlive
  · exact configure_of_long env world hLong

/-- The path is what stands before the first comma, and the options are what stands
between the commas after it, set in order up to the first that is not accepted. -/
theorem loadAndConfigure_options (env : Env) (config : CText) (errorCode : ErrorCodePtr)
    (world : World) :
    ∃ result final, qrvmcLoadAndConfigure env config errorCode world = .ok (result, final) ∧
      ∀ vm code loaded, config.length < pathMaxLength →
        qrvmcLoadAndCreate env (some (config.before (chr ','))) errorCode world =
          .ok ((some vm, code), loaded) →
        ∃ events, final.trace = world.trace ++ events ∧
          events.filterMap Event.opened = [config.before (chr ',')] ∧
          (vm.hasSetOption = true →
            Applied ((config.after (chr ',')).tokens (chr ','))
              (events.filterMap Event.optionSet) ∧
            (result.1 = some vm ↔ ∀ call ∈ events.filterMap Event.optionSet, call.2.2 = 0)) ∧
          (vm.hasSetOption = false →
            events.filterMap Event.optionSet = [] ∧
            (result.1 = some vm ↔ (config.after (chr ',')).tokens (chr ',') = [])) := by
  obtain ⟨concluded, _, concludedFinal, hTotal, _⟩ := qrvmcLoadAndConfigure_writes env config world
  refine ⟨_, concludedFinal, hTotal errorCode, ?_⟩
  intro vm code loaded hShort hCall
  obtain ⟨⟨created, ec⟩, events, reached, hLoad, hTrace, stop, hEnds, _, hCompatible⟩ :=
    qrvmcLoadAndCreate_writes env (some (config.before (chr ','))) world
  rw [hLoad] at hCall
  cases hCall
  obtain ⟨_, hNull⟩ := hEnds.reports.success (hEnds.returns.mp rfl)
  obtain ⟨result, later, final, hRun, hLater, h⟩ :=
    configure_of_loaded hShort hLoad hNull (hCompatible vm rfl)
  obtain ⟨last, hLife, _⟩ := h.life
  have hSame := Except.ok.inj ((hTotal errorCode).symm.trans (hRun errorCode))
  have hResult : concluded.1 = result.1 := congrArg (fun outcome => outcome.1.1) hSame
  have hFinal : concludedFinal = final := congrArg Prod.snd hSame
  have hConfigures := Configures.after hEnds.options h.configures
  simp only [hResult, h.returned_iff, hFinal]
  refine ⟨events ++ later, ?_, ?_, hConfigures.supported, hConfigures.unsupported⟩
  · rw [hLater, hTrace, List.append_assoc]
  · rw [List.filterMap_append, hEnds.opened rfl,
      opened_of_path hLife fun hAbsent => (by cases hAbsent)]
    rfl

theorem loadAndConfigure_options_two :
    ∃ vm result final, vm.hasSetOption = true ∧
      qrvmcLoadAndConfigure (.obliging vm) (text "m.so,a=1,b=2=,") .null {} = .ok (result, final) ∧
        Applied [lit "a=1", lit "b=2="] (final.trace.filterMap Event.optionSet) := by
  let vm : Vm := ⟨0, qrvmcAbiVersion, text "vm", true⟩
  obtain ⟨result, final, hRun, hOptions⟩ :=
    loadAndConfigure_options (.obliging vm) (text "m.so,a=1,b=2=,") .null {}
  obtain ⟨loaded, hLoad⟩ := obliging_loadAndCreate (show vm.abiVersion = qrvmcAbiVersion from rfl)
    ((text "m.so,a=1,b=2=,").before (chr ',')) (by decide) (by decide) .null {}
  obtain ⟨events, hTrace, _, hSupported, _⟩ := hOptions vm _ loaded (by decide) hLoad
  have hTokens : ((text "m.so,a=1,b=2=,").after (chr ',')).tokens (chr ',') =
      [lit "a=1", lit "b=2="] := by decide
  refine ⟨vm, result, final, rfl, hRun, ?_⟩
  rw [hTrace, ← hTokens]
  exact (hSupported rfl).1

/-- The call is atomic. It writes one code, whose success means that an instance is
returned. The instance it creates is alive afterwards if and only if it is returned,
is not used once it is destroyed, and has options set only while it is alive and if
it is compatible. None of this depends on the error code argument. -/
theorem loadAndConfigure_atomic (env : Env) (config : CText) (world : World) :
    ∃ returned ec events final,
      (∀ errorCode, qrvmcLoadAndConfigure env config errorCode world =
        .ok ((returned, errorCode.write ec), final)) ∧
      final.trace = world.trace ++ events ∧ (returned.isSome ↔ ec = .success) ∧
      (events.filterMap Event.created).length =
        (events.filterMap Event.destroyed).length + returned.toList.length ∧
      (∀ vm, returned = some vm →
        events.filterMap Event.created = [vm] ∧ events.filterMap Event.destroyed = []) ∧
      (∀ before vm after, events = before ++ .destroy vm :: after →
        ∀ event ∈ after, event.used = none) ∧
      ∀ before vm name value answer after,
        events = before ++ .setOption vm name value answer :: after →
        vm.abiVersion = qrvmcAbiVersion ∧ before.filterMap Event.created = [vm] ∧
          before.filterMap Event.destroyed = [] := by
  obtain ⟨result, events, final, hRun, hTrace, h⟩ := qrvmcLoadAndConfigure_writes env config world
  obtain ⟨stop, hLife, hAlive⟩ := h.life
  have hFacts := vm_life hLife
  rw [hAlive] at hFacts
  exact ⟨result.1, result.2, events, final, hRun, hTrace, h.returns, hFacts⟩

end Qrvmc
