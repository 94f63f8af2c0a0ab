import Qrvmc.Loader.Configure
import Qrvmc.Loader.CreateFnRule

/-! A configuration without options is a path. Configuring it is creating from it,
unless the path has the largest length that a file name may have: a configuration
of that length is rejected. -/
namespace Qrvmc
open Memory Semantics Loader

variable {env : Env} {path : CText} {world : World}

/-- A call that configures does what a call that creates does, and sets no options. -/
structure Agrees (configured created : Option Vm × LoaderErrorCode)
    (events others : List Event) : Prop where
  returns : configured.1.isSome ↔ created.1.isSome
  code : configured.2 = created.2
  attempts : events.filter Event.attempts = others.filter Event.attempts
  options : events.filterMap Event.optionSet = []

/-- Without options the loop does nothing. -/
theorem setOptions_nothing {n fuel pos : Nat} {block : Vector CChar n} {options : CText}
    (env : Env) (vm : Vm) (start : Nat) (h : Holds block.toList pos options)
    (hNothing : options.chars = []) (hFuel : 0 < fuel) :
    setOptions env vm start fuel block pos world = .ok (.success, world) := by
  have hLength : options.length = 0 := congrArg List.length hNothing
  obtain ⟨fuel, rfl⟩ := Nat.exists_eq_add_one.mpr hFuel
  unfold setOptions
  rw [h.textAt, Returns.run_lift_bind (inBounds_some options), if_pos hLength]
  rfl

/-- A path that fits the buffer is configured in the way in which it is loaded. -/
theorem configure_eq_create (env : Env) (world : World) (hPath : chr ',' ∉ path.chars)
    (hShort : path.length < pathMaxLength) (errorCode : ErrorCodePtr) :
    qrvmcLoadAndConfigure env path errorCode world =
      qrvmcLoadAndCreate env (some path) errorCode world := by
  obtain ⟨⟨vm, ec⟩, events, loaded, hLoad, _, _, hEnds, _⟩ :=
    qrvmcLoadAndCreate_writes env (some path) world
  obtain ⟨block, pos, _, hOptions, _, hCall⟩ := configure_of_short env world hShort
  rw [hCall, Text.before_of_not_mem hPath, Returns.run_bind (hLoad errorCode), hLoad]
  cases vm with
  | none => rfl
  | some vm =>
      have hSuccess : ec = .success := hEnds.returns.mp rfl
      subst hSuccess
      simp only
      rw [Returns.run_bind (setOptions_nothing env vm 0 hOptions (Text.after_of_not_mem hPath)
        (by decide))]
      simp only [configureExit, ↓reduceIte, ErrorCodePtr.write_write]
      rfl

/-- A file name longer than the limit is rejected before anything is opened. -/
theorem qrvmcLoadAndCreate_rejects (env : Env) (world : World)
    (hLong : pathMaxLength < path.length) :
    Writes (qrvmcLoadAndCreate env (some path)) world fun result events _ =>
      result = (none, .invalidArgument) ∧ events.filter Event.attempts = [] := by
  have hNonempty : path.length ≠ 0 := Nat.ne_of_gt (Nat.zero_lt_of_lt hLong)
  have hRejects : Returns World.trace (loadCreateFn env (some path))
      { world with lastErrorMsg := .null } fun result events _ =>
        result = (none, .invalidArgument) ∧ events.filter Event.attempts = [] := by
    simp only [loadCreateFn, hNonempty, hLong, ↓reduceIte]
    apply (setError_returns _ _ _).bind
    rintro _ _ final ⟨rfl, rfl, _⟩
    exact Returns.pure ⟨rfl, rfl⟩
  obtain ⟨load, events, reached, hLoad, hTrace, hLoaded, hAttempts⟩ :=
    qrvmcLoad_of_returns hRejects
  subst hLoaded
  refine ⟨(none, .invalidArgument), events, reached, fun errorCode => ?_, hTrace, rfl, hAttempts⟩
  unfold qrvmcLoadAndCreate
  rw [Returns.run_bind (hLoad errorCode)]
  rfl

/-- A file name of a valid length is given to the dynamic linker. -/
theorem qrvmcLoadAndCreate_attempts (env : Env) (world : World) (hNonempty : path.length ≠ 0)
    (hLength : path.length ≤ pathMaxLength) :
    Writes (qrvmcLoadAndCreate env (some path)) world fun _ events _ =>
      events.filter Event.attempts ≠ [] := by
  obtain ⟨load, events, reached, hLoad, hTrace, hEnds, hSearches⟩ :=
    qrvmcLoad_searches env world hNonempty hLength
  obtain ⟨result, all, final, hRun, hAll, ⟨later, hLater⟩, _⟩ :=
    qrvmcLoadAndCreate_of_load hLoad hTrace hEnds
  refine ⟨result, all, final, hRun, hAll, ?_⟩
  show all.filter Event.attempts ≠ []
  rw [hLater, List.filter_append, hSearches.attempts]
  exact List.cons_ne_nil _ _

/-- For every path without a comma, whatever the environment does: configuring it agrees
with creating from it if and only if its length is not the limit. -/
theorem loadAndConfigure_agrees (env : Env) (path : CText) (world : World)
    (hPath : chr ',' ∉ path.chars) :
    ∃ configured events configuredFinal created others createdFinal,
      (∀ errorCode, qrvmcLoadAndConfigure env path errorCode world =
        .ok ((configured.1, errorCode.write configured.2), configuredFinal)) ∧
      configuredFinal.trace = world.trace ++ events ∧
      (∀ errorCode, qrvmcLoadAndCreate env (some path) errorCode world =
        .ok ((created.1, errorCode.write created.2), createdFinal)) ∧
      createdFinal.trace = world.trace ++ others ∧
      (Agrees configured created events others ↔ path.length ≠ pathMaxLength) := by
  rcases Nat.lt_or_ge path.length pathMaxLength with hShort | hLong
  · obtain ⟨created, events, final, hCreate, hTrace, _, hEnds, _⟩ :=
      qrvmcLoadAndCreate_writes env (some path) world
    have hConfigure (errorCode : ErrorCodePtr) :=
      (configure_eq_create env world hPath hShort errorCode).trans (hCreate errorCode)
    exact ⟨created, events, final, created, events, final, hConfigure, hTrace, hCreate, hTrace,
      fun _ => Nat.ne_of_lt hShort, fun _ => ⟨Iff.rfl, rfl, rfl, hEnds.options⟩⟩
  obtain ⟨configured, events, configuredFinal, hConfigure, hEvents, hConfigured, _, hFailure, _⟩ :=
    configure_rejects env world hLong
  subst hConfigured hFailure
  rcases Nat.lt_or_ge pathMaxLength path.length with hLonger | hLimit
  · obtain ⟨created, others, createdFinal, hCreate, hOthers, hCreated, hAttempts⟩ :=
      qrvmcLoadAndCreate_rejects env world hLonger
    subst hCreated
    exact ⟨_, _, configuredFinal, _, others, createdFinal, hConfigure, hEvents, hCreate, hOthers,
      fun _ => Nat.ne_of_gt hLonger, fun _ => ⟨Iff.rfl, rfl, hAttempts.symm, rfl⟩⟩
  · have hLength : path.length = pathMaxLength := Nat.le_antisymm hLimit hLong
    obtain ⟨created, others, createdFinal, hCreate, hOthers, hAttempts⟩ :=
      qrvmcLoadAndCreate_attempts env world (by rw [hLength]; decide) hLimit
    exact ⟨_, _, configuredFinal, created, others, createdFinal, hConfigure, hEvents, hCreate,
      hOthers, fun hAgrees => absurd hAgrees.attempts.symm hAttempts,
      fun hOther => absurd hLength hOther⟩

theorem loadAndConfigure_agrees_module :
    ∃ configured created configuredFinal createdFinal,
      qrvmcLoadAndConfigure (.obliging ⟨0, qrvmcAbiVersion, text "vm", true⟩) (text "m.so") .null {} =
        .ok ((configured.1, .null), configuredFinal) ∧
      qrvmcLoadAndCreate (.obliging ⟨0, qrvmcAbiVersion, text "vm", true⟩) (some (text "m.so"))
        .null {} = .ok ((created.1, .null), createdFinal) ∧
      Agrees configured created configuredFinal.trace createdFinal.trace := by
  obtain ⟨configured, events, configuredFinal, created, others, createdFinal, hConfigure, hEvents,
      hCreate, hOthers, hAgrees⟩ :=
    loadAndConfigure_agrees (.obliging ⟨0, qrvmcAbiVersion, text "vm", true⟩) (text "m.so") {}
      (by decide)
  refine ⟨configured, created, configuredFinal, createdFinal, hConfigure .null, hCreate .null, ?_⟩
  rw [hEvents, hOthers]
  exact hAgrees.mpr (by decide)

/-- An instance is created from a path of the largest length, but not configured. -/
theorem loadAndConfigure_agrees_longest :
    chr ',' ∉ longestName.chars ∧
      ∃ vm configuredFinal createdFinal,
        qrvmcLoadAndConfigure (.obliging vm) longestName (.variable .success) {} =
          .ok ((none, .variable .invalidArgument), configuredFinal) ∧
        qrvmcLoadAndCreate (.obliging vm) (some longestName) (.variable .success) {} =
          .ok ((some vm, .variable .success), createdFinal) := by
  let vm : Vm := ⟨0, qrvmcAbiVersion, text "vm", true⟩
  obtain ⟨_, _, configuredFinal, hConfigure, _, hResult, _⟩ :=
    configure_rejects (.obliging vm) {} longestName_length.ge
  obtain ⟨createdFinal, hCreate⟩ := obliging_loadAndCreate (show vm.abiVersion = qrvmcAbiVersion from rfl)
    longestName (by rw [longestName_length]; decide) longestName_length.le (.variable .success) {}
  subst hResult
  exact ⟨fun hComma => absurd (mem_longestName hComma) (by decide), vm, configuredFinal,
    createdFinal, hConfigure (.variable .success), hCreate⟩

end Qrvmc
