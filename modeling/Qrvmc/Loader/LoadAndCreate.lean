import Qrvmc.Loader.Outcomes

/-! Loading a module and creating its VM. Every call returns, with a value exactly
when it succeeds. The error code argument plays no part in it: it is written at
the end, if there is one. -/
namespace Qrvmc
open Memory Semantics Loader

variable {Value : Type} {env : Env} {world final : World} {start next stop : VmState}
  {result : Option Value × LoaderErrorCode} {events later : List Event} {files : List CText}

/-- How a step that gives a value or fails ends: what it reports, the path on which
it takes an instance, and the files it opens to succeed. It sets no options. -/
structure Ends (start : VmState) (files : List CText) (result : Option Value × LoaderErrorCode)
    (stop : VmState) (events : List Event) (final : World) : Prop where
  reports : Reports result.2 events final
  returns : result.1.isSome ↔ result.2 = .success
  life : Path VmStep start events stop
  opened : result.1.isSome → events.filterMap Event.opened = files
  options : events.filterMap Event.optionSet = []

/-- An event before the rest of a step. -/
theorem Ends.after (event : Event) (hStep : VmStep start event next)
    (hFailed : event.failed = none) (hOption : event.optionSet = none)
    (h : Ends next files result stop events final) :
    Ends start (event.opened.toList ++ files) result stop (event :: events) final where
  reports := h.reports.cons hFailed
  returns := h.returns
  life := Path.cons hStep h.life
  opened := fun hSome => by
    rw [List.filterMap_cons, h.opened hSome]
    cases event.opened <;> rfl
  options := by rw [List.filterMap_cons_none hOption, h.options]

/-- A step that succeeds in silence. -/
theorem Ends.success {value : Value} (hNull : world.lastErrorMsg = .null) :
    Ends start [] (some value, .success) start [] world where
  reports := ⟨fun _ => ⟨rfl, hNull⟩, fun hFailure => absurd rfl hFailure⟩
  returns := ⟨fun _ => rfl, fun _ => rfl⟩
  life := Path.nil start
  opened := fun _ => rfl
  options := rfl

/-- A step that fails has no value. -/
theorem Ends.failure {ec : LoaderErrorCode} (hFailure : ec ≠ .success)
    (hReports : Reports ec events final) (hLife : Path VmStep start events stop)
    (hOptions : events.filterMap Event.optionSet = []) :
    Ends start files ((none : Option Value), ec) stop events final where
  reports := hReports
  returns := ⟨fun hSome => (by cases hSome), fun hSuccess => absurd hSuccess hFailure⟩
  life := hLife
  opened := fun hSome => by cases hSome
  options := hOptions

/-- A step that does nothing but fail. -/
theorem fail_returns (start : VmState) (files : List CText) {errorCode : LoaderErrorCode}
    (hFailure : errorCode ≠ .success) (hNull : world.lastErrorMsg = .null) (output : CText) :
    Returns World.trace
      (setError errorCode output >>= fun ec => pure ((none : Option Value), ec)) world
      fun result events final => result.1 = none ∧ Ends start files result start events final := by
  apply (setError_reports hFailure hNull output).bind
  intro value events final ⟨hValue, hEvents, hReports⟩
  subst hValue hEvents
  apply Returns.pure
  exact ⟨rfl, .failure hFailure hReports (.cons (.other rfl rfl rfl) (.nil start)) rfl⟩

theorem fail_ends (start : VmState) (files : List CText) {errorCode : LoaderErrorCode}
    (hFailure : errorCode ≠ .success) (hNull : world.lastErrorMsg = .null) (output : CText) :
    Returns World.trace
      (setError errorCode output >>= fun ec => pure ((none : Option Value), ec)) world
      fun result events final => Ends start files result start events final :=
  (fail_returns start files hFailure hNull output).mono fun _ _ _ h => h.2

/-- A file name that is given: every way to search and open the module. -/
theorem loadCreateFn_some (env : Env) (filename : CText) (hNull : world.lastErrorMsg = .null) :
    Returns World.trace (loadCreateFn env (some filename)) world fun result events final =>
      Ends .absent [filename] result .absent events final := by
  simp only [loadCreateFn]
  split
  · exact fail_ends .absent _ (by decide) hNull _
  split
  · exact fail_ends .absent _ (by decide) hNull _
  apply ask_bind
  intro handle
  have hOpen {result : Option CreateFn × LoaderErrorCode} {later : List Event}
      {final : World} (h : Ends .absent [] result .absent later final) :
      Ends .absent [filename] result .absent (.dllOpen filename handle :: later) final :=
    h.after (.dllOpen filename handle) .search rfl rfl
  cases handle with
  | none =>
      apply ask_bind
      intro answer
      cases answer with
      | some output =>
          apply Returns.modify_bind rfl
          apply emit_bind
          apply Returns.pure
          apply hOpen
          exact .failure (by decide) (.of_failure (by decide) rfl (.inr rfl))
            (.cons (.other rfl rfl rfl) (.cons (.other rfl rfl rfl) (.nil _))) rfl
      | none =>
          apply Returns.modify_bind rfl
          apply (fail_ends .absent [] (by decide) rfl _).mono
          intro result events final hEnds
          exact hOpen (hEnds.after (.dllGetErrorMsg none) (.other rfl rfl rfl) rfl rfl)
  | some handle =>
      obtain ⟨built, hBuilt, hHolds⟩ := buildName_holds (env.uninitializedName
        (world.log (.dllOpen filename (some handle))).trace) filename
      apply Returns.get_bind
      apply Returns.lift_bind hBuilt
      rw [hHolds.textAt]
      apply Returns.lift_bind rfl
      apply ask_bind
      intro createFn
      have hName {result : Option CreateFn × LoaderErrorCode} {later : List Event}
          {final : World} (h : Ends .absent [] result .absent later final) :
          Ends .absent [filename] result .absent (.dllOpen filename handle ::
            .dllGetCreateFn handle (createFnName filename) createFn :: later) final :=
        hOpen (h.after (.dllGetCreateFn handle _ createFn) (.other rfl rfl rfl) rfl rfl)
      cases createFn with
      | some createFn => exact Returns.pure (hName (Ends.success hNull))
      | none =>
          apply ask_bind
          intro createFn
          cases createFn with
          | some createFn =>
              apply Returns.pure
              apply hName
              exact (Ends.success (by simp [hNull])).after
                (.dllGetCreateFn handle _ (some createFn)) (.other rfl rfl rfl) rfl rfl
          | none =>
              apply emit_bind
              apply (fail_ends .absent [] (by decide) (by simp [hNull]) _).mono
              intro result events final hEnds
              apply hName
              exact (hEnds.after (.dllClose handle) (.other rfl rfl rfl) rfl rfl).after
                (.dllGetCreateFn handle _ none) (.other rfl rfl rfl) rfl rfl

theorem loadCreateFn_returns (env : Env) (filename : Option CText)
    (hNull : world.lastErrorMsg = .null) :
    Returns World.trace (loadCreateFn env filename) world fun result events final =>
      (result.1.isSome → filename.isSome) ∧
        Ends .absent filename.toList result .absent events final := by
  cases filename with
  | none =>
      apply (fail_returns .absent [] (by decide) hNull _).mono
      intro result events final ⟨hNone, hEnds⟩
      exact ⟨fun hSome => by rw [hNone] at hSome; exact hSome, hEnds⟩
  | some filename =>
      apply (loadCreateFn_some env filename hNull).mono
      intro result events final hEnds
      exact ⟨fun _ => rfl, hEnds⟩

/-- A failure after which the instance is destroyed. -/
theorem fail_destroy_returns (files : List CText) {errorCode : LoaderErrorCode}
    (hFailure : errorCode ≠ .success) (hNull : world.lastErrorMsg = .null) (output : CText)
    (vm : Vm) :
    Returns World.trace
      (do
        let ec ← setError errorCode output
        destroy vm
        return ((none : Option Value), ec)) world
      fun result events final =>
        result.1 = none ∧ Ends (.live vm) files result (.gone vm) events final := by
  apply (setError_reports hFailure hNull output).bind
  intro value events final ⟨hValue, hEvents, hReports⟩
  subst hValue hEvents
  apply emit_bind
  apply Returns.pure
  exact ⟨rfl, .failure hFailure (hReports.before rfl rfl rfl)
    (.cons (.other rfl rfl rfl) (.cons .destroy (.nil _))) rfl⟩

theorem createVm_returns (env : Env) (filename : CText) (createFn : CreateFn)
    (hNull : world.lastErrorMsg = .null) :
    Returns World.trace (createVm env filename createFn) world fun result events final =>
      ∃ stop, Ends .absent [] result stop events final ∧ stop.alive = result.1 ∧
        ∀ vm, result.1 = some vm → vm.abiVersion = qrvmcAbiVersion := by
  apply ask_bind
  intro vm
  cases vm with
  | none =>
      apply (fail_returns .absent [] (by decide) (by simp [hNull]) _).mono
      intro result events final ⟨hNone, hEnds⟩
      exact ⟨.absent, hEnds.after (.create createFn none) (.other rfl rfl rfl) rfl rfl, hNone.symm,
        fun other hVm => by cases hNone.symm.trans hVm⟩
  | some vm =>
      apply readVm_bind
      split
      · rename_i hCompatible
        apply Returns.pure
        exact ⟨.live vm, ((Ends.success (by simp [hNull])).after (.readVm vm) .read rfl rfl).after
          (.create createFn (some vm)) .create rfl rfl, rfl, fun other hVm => by
            cases hVm
            exact hCompatible⟩
      · apply readVm_bind
        apply (fail_destroy_returns [] (by decide) (by simp [hNull]) _ vm).mono
        intro result events final ⟨hNone, hEnds⟩
        exact ⟨.gone vm, ((hEnds.after (.readVm vm) .read rfl rfl).after (.readVm vm) .read
          rfl rfl).after (.create createFn (some vm)) .create rfl rfl, hNone.symm,
          fun other hVm => by cases hNone.symm.trans hVm⟩

/-- A call returns whichever error code argument it has, and writes one code to it. -/
def Writes (call : ErrorCodePtr → Loader (Option Value × ErrorCodePtr)) (world : World)
    (post : Option Value × LoaderErrorCode → List Event → World → Prop) : Prop :=
  ∃ result events final,
    (∀ errorCode, call errorCode world = .ok ((result.1, errorCode.write result.2), final)) ∧
      final.trace = world.trace ++ events ∧ post result events final

/-- Loading returns what the search does, started without a message. -/
theorem qrvmcLoad_of_returns {filename : Option CText}
    {post : Option CreateFn × LoaderErrorCode → List Event → World → Prop}
    (h : Returns World.trace (loadCreateFn env filename) { world with lastErrorMsg := .null } post) :
    Writes (qrvmcLoad env filename) world post := by
  obtain ⟨result, events, final, hRun, hTrace, hPost⟩ := h
  have hReset : setLastErrorMsg .null world = .ok ((), { world with lastErrorMsg := .null }) := rfl
  refine ⟨result, events, final, fun errorCode => ?_, hTrace, hPost⟩
  unfold qrvmcLoad
  rw [Returns.run_bind hReset, Returns.run_bind hRun]
  rfl

theorem qrvmcLoad_writes (env : Env) (filename : Option CText) (world : World) :
    Writes (qrvmcLoad env filename) world fun result events final =>
      (result.1.isSome → filename.isSome) ∧
        Ends .absent filename.toList result .absent events final :=
  qrvmcLoad_of_returns (loadCreateFn_returns env filename rfl)

/-- A failure to load is a failure to load and create. -/
theorem Ends.none {Other : Type} {ec : LoaderErrorCode}
    (h : Ends start files ((none : Option Other), ec) stop events final) :
    Ends start files ((none : Option Value), ec) stop events final :=
  ⟨h.reports, h.returns, h.life, fun hSome => (by cases hSome), h.options⟩

/-- A step that succeeded before the rest. -/
theorem Ends.append {Other : Type} {middle : VmState} {reached : World} {value : Other}
    {ec : LoaderErrorCode} (hFirst : Ends start files (some value, ec) middle events reached)
    (h : Ends middle [] result stop later final) :
    Ends start files result stop (events ++ later) final where
  reports := h.reports.after (hFirst.reports.success (hFirst.returns.mp rfl)).1
  returns := h.returns
  life := hFirst.life.append h.life
  opened := fun hSome => by
    rw [List.filterMap_append, h.opened hSome, hFirst.opened rfl, List.append_nil]
  options := by rw [List.filterMap_append, h.options, hFirst.options, List.append_nil]

/-- What follows a call of `qrvmc_load` that found a create function, or did not. -/
theorem qrvmcLoadAndCreate_of_load {filename : CText} {load : Option CreateFn × LoaderErrorCode}
    {reached : World}
    (hLoad : ∀ errorCode, qrvmcLoad env (some filename) errorCode world =
      .ok ((load.1, errorCode.write load.2), reached))
    (hTrace : reached.trace = world.trace ++ events)
    (hEnds : Ends .absent [filename] load .absent events reached) :
    Writes (qrvmcLoadAndCreate env (some filename)) world fun result all final =>
      (∃ later, all = events ++ later) ∧
        ∃ stop, Ends .absent [filename] result stop all final ∧ stop.alive = result.1 ∧
          ∀ vm, result.1 = some vm → vm.abiVersion = qrvmcAbiVersion := by
  obtain ⟨createFn, ec⟩ := load
  cases createFn with
  | none =>
      refine ⟨(none, ec), events, reached, fun errorCode => ?_, hTrace,
        ⟨[], (List.append_nil _).symm⟩, .absent, hEnds.none, rfl, fun vm hVm => by cases hVm⟩
      unfold qrvmcLoadAndCreate
      rw [Returns.run_bind (hLoad errorCode)]
      rfl
  | some createFn =>
      have hNull : reached.lastErrorMsg = .null :=
        (hEnds.reports.success (hEnds.returns.mp rfl)).2
      obtain ⟨result, later, final, hCreate, hLater, stop, hLast, hAlive, hCompatible⟩ :=
        createVm_returns env filename createFn hNull
      refine ⟨result, events ++ later, final, fun errorCode => ?_, ?_, ⟨later, rfl⟩, stop,
        hEnds.append hLast, hAlive, hCompatible⟩
      · unfold qrvmcLoadAndCreate
        rw [Returns.run_bind (hLoad errorCode)]
        simp only
        rw [Returns.run_lift_bind (inBounds_some filename), Returns.run_bind hCreate,
          ErrorCodePtr.write_write]
        rfl
      · rw [hLater, hTrace, List.append_assoc]

theorem qrvmcLoadAndCreate_writes (env : Env) (filename : Option CText) (world : World) :
    Writes (qrvmcLoadAndCreate env filename) world fun result events final =>
      ∃ stop, Ends .absent filename.toList result stop events final ∧ stop.alive = result.1 ∧
        ∀ vm, result.1 = some vm → vm.abiVersion = qrvmcAbiVersion := by
  obtain ⟨⟨createFn, ec⟩, events, loaded, hLoad, hTrace, hName, hEnds⟩ :=
    qrvmcLoad_writes env filename world
  cases filename with
  | none =>
      cases createFn with
      | some createFn => cases hName rfl
      | none =>
          refine ⟨(none, ec), events, loaded, fun errorCode => ?_, hTrace, .absent, hEnds.none, rfl,
            fun vm hVm => by cases hVm⟩
          unfold qrvmcLoadAndCreate
          rw [Returns.run_bind (hLoad errorCode)]
          rfl
  | some filename =>
      obtain ⟨result, all, final, hRun, hAll, _, hStop⟩ :=
        qrvmcLoadAndCreate_of_load hLoad hTrace hEnds
      exact ⟨result, all, final, hRun, hAll, hStop⟩

/-- An environment in which every module opens, has every create function, and
creates the same VM, which accepts every option. -/
def Env.obliging (vm : Vm) : Env where
  dllOpen := fun _ _ => some 0
  dllGetErrorMsg := fun _ => none
  dllGetCreateFn := fun _ _ _ => some 0
  create := fun _ _ => some vm
  setOption := fun _ _ _ _ => 0
  uninitializedName := fun _ => Vector.replicate _ 0
  uninitializedConfig := fun _ => Vector.replicate _ 0

theorem obliging_loadCreateFn (vm : Vm) (filename : CText) (hNonempty : filename.length ≠ 0)
    (hLength : filename.length ≤ pathMaxLength) (world : World) :
    ∃ loaded, loadCreateFn (.obliging vm) (some filename) world =
      .ok ((some 0, .success), loaded) := by
  obtain ⟨built, hBuilt, hHolds⟩ := buildName_holds
    ((Env.obliging vm).uninitializedName (world.log (.dllOpen filename (some 0))).trace) filename
  have hOpen : dllOpen (.obliging vm) filename world =
      .ok (some 0, world.log (.dllOpen filename (some 0))) := rfl
  simp only [loadCreateFn, hNonempty, Nat.not_lt.mpr hLength, ↓reduceIte]
  rw [Returns.run_bind hOpen]
  simp only
  rw [Returns.run_get_bind, Returns.run_lift_bind hBuilt, hHolds.textAt,
    Returns.run_lift_bind (inBounds_some _)]
  exact ⟨_, rfl⟩

theorem obliging_createVm {vm : Vm} (hCompatible : vm.abiVersion = qrvmcAbiVersion)
    (filename : CText) (createFn : CreateFn) (world : World) :
    ∃ loaded, createVm (.obliging vm) filename createFn world =
      .ok ((some vm, .success), loaded) := by
  have hCreate : create (.obliging vm) createFn world =
      .ok (some vm, world.log (.create createFn (some vm))) := rfl
  have hRead (reached : World) :
      readVm vm Vm.abiVersion reached = .ok (vm.abiVersion, reached.log (.readVm vm)) := rfl
  unfold createVm
  rw [Returns.run_bind hCreate]
  simp only
  rw [Returns.run_bind (hRead _), if_pos hCompatible]
  exact ⟨_, rfl⟩

/-- In an obliging environment every module loads whose name is valid. -/
theorem obliging_loadAndCreate {vm : Vm} (hCompatible : vm.abiVersion = qrvmcAbiVersion)
    (filename : CText) (hNonempty : filename.length ≠ 0) (hLength : filename.length ≤ pathMaxLength)
    (errorCode : ErrorCodePtr) (world : World) :
    ∃ loaded, qrvmcLoadAndCreate (.obliging vm) (some filename) errorCode world =
      .ok ((some vm, errorCode.write .success), loaded) := by
  obtain ⟨reached, hLoad⟩ := obliging_loadCreateFn vm filename hNonempty hLength
    { world with lastErrorMsg := .null }
  obtain ⟨loaded, hCreate⟩ := obliging_createVm hCompatible filename 0 reached
  have hReset : setLastErrorMsg .null world = .ok ((), { world with lastErrorMsg := .null }) := rfl
  have hFn : qrvmcLoad (.obliging vm) (some filename) errorCode world =
      .ok ((some 0, errorCode.write .success), reached) := by
    unfold qrvmcLoad
    rw [Returns.run_bind hReset, Returns.run_bind hLoad]
    rfl
  refine ⟨loaded, ?_⟩
  unfold qrvmcLoadAndCreate
  rw [Returns.run_bind hFn]
  simp only
  rw [Returns.run_lift_bind (inBounds_some filename), Returns.run_bind hCreate,
    ErrorCodePtr.write_write]
  rfl

end Qrvmc
