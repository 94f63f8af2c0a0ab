import Qrvmc.Loader.LastError
import Qrvmc.Semantics.Triple

/-! Which failures the loader tells. A failing call reports one failure. Its message can
be had afterwards, unless the loader composed it and it does not fit into the buffer. -/
namespace Qrvmc
open Memory Semantics Loader

/-- The text that the dynamic linker gave for an error. -/
def Event.linkerMessage : Event → Option CText
  | .dllGetErrorMsg message => message
  | _ => none

/-- The message is the loader's own, and too long for its buffer. -/
structure Lost (output : CText) (events : List Event) : Prop where
  composed : events.filterMap Event.linkerMessage = []
  tooLong : lastErrorMsgBufferSize ≤ output.length

/-- Nothing has failed since the start of the call, and no message is pending. -/
structure Quiet (start : List Event) (world : World) : Prop where
  null : world.lastErrorMsg = .null
  silent : ∃ events, world.trace = start ++ events ∧ events.filterMap Event.failed = [] ∧
    events.filterMap Event.linkerMessage = []

/-- Each failure since the start of the call is told unless its message is lost. -/
def Told (start : List Event) (world : World) : Prop :=
  ∃ events, world.trace = start ++ events ∧
    ∀ failure ∈ events.filterMap Event.failed,
      world.lastErrorMsg = .null ↔ Lost failure.2 events

/-- A call that gives a value was quiet, and one that does not tells why. -/
structure Settled {Value : Type} (start : List Event) (value : Option Value) (world : World) :
    Prop where
  success : value.isSome → Quiet start world
  failure : Told start world

variable {Value : Type} {env : Env} {world : World} {start : List Event} {ec : LoaderErrorCode}
  {output : CText}

theorem Quiet.told (h : Quiet start world) : Told start world := by
  obtain ⟨events, hTrace, hFailed, _⟩ := h.silent
  refine ⟨events, hTrace, fun failure hFailure => ?_⟩
  rw [hFailed] at hFailure
  cases hFailure

theorem Quiet.settled (h : Quiet start world) (value : Option Value) : Settled start value world :=
  ⟨fun _ => h, h.told⟩

theorem Told.settled (h : Told start world) : Settled start (none : Option Value) world :=
  ⟨fun hSome => (by cases hSome), h⟩

/-- Events that are neither a failure nor a text of the linker do not matter. -/
theorem Quiet.log {event : Event} (h : Quiet start world) (hFailed : event.failed = none)
    (hLinker : event.linkerMessage = none) : Quiet start (world.log event) := by
  obtain ⟨events, hTrace, hNone, hSilent⟩ := h.silent
  refine ⟨h.null, events ++ [event], ?_, ?_, ?_⟩
  · rw [← List.append_assoc, ← hTrace]
    rfl
  · rw [List.filterMap_append, hNone, List.filterMap_cons_none hFailed]
    rfl
  · rw [List.filterMap_append, hSilent, List.filterMap_cons_none hLinker]
    rfl

theorem Told.log {event : Event} (h : Told start world) (hFailed : event.failed = none)
    (hLinker : event.linkerMessage = none) : Told start (world.log event) := by
  obtain ⟨events, hTrace, hTold⟩ := h
  refine ⟨events ++ [event], ?_, fun failure hFailure => ?_⟩
  · rw [← List.append_assoc, ← hTrace]
    rfl
  · rw [List.filterMap_append, List.filterMap_cons_none hFailed, List.filterMap_nil,
      List.append_nil] at hFailure
    have hSame : (events ++ [event]).filterMap Event.linkerMessage =
        events.filterMap Event.linkerMessage := by
      rw [List.filterMap_append, List.filterMap_cons_none hLinker, List.filterMap_nil,
        List.append_nil]
    constructor
    · intro hNull
      obtain ⟨hComposed, hLong⟩ := (hTold failure hFailure).mp hNull
      exact ⟨hSame.trans hComposed, hLong⟩
    · intro hLost
      exact (hTold failure hFailure).mpr ⟨hSame.symm.trans hLost.composed, hLost.tooLong⟩

/-- What holds of a loader program that returns. -/
abbrev Partial {Value : Type} (pre : World → Prop) (program : Loader Value)
    (post : Value → World → Prop) : Prop :=
  Triple (fun _ : Undefined => False) pre program post

theorem emit_rule {post : Unit → World → Prop} {pre : World → Prop} (event : Event)
    (h : ∀ world, pre world → post () (world.log event)) : Partial pre (emit event) post :=
  Triple.modify h

/-- A request that fails nothing, whatever its answer. -/
theorem ask_rule {Answer : Type} (oracle : List Event → Answer) (event : Answer → Event)
    (hFailed : ∀ answer, (event answer).failed = none)
    (hLinker : ∀ answer, (event answer).linkerMessage = none) :
    Partial (Quiet start) (ask oracle event) fun _ => Quiet start :=
  fun world hQuiet => hQuiet.log (hFailed (oracle world.trace)) (hLinker _)

/-- Nothing is known of what a step of the failure monad gives. -/
theorem lift_rule {pre : World → Prop} (outcome : Exec Value) :
    Partial pre (liftM outcome) fun _ world => pre world := by
  intro world hPre
  cases outcome with
  | error fault => exact id
  | ok value => exact hPre

theorem readVm_rule {Field : Type} (vm : Vm) (field : Vm → Field) :
    Partial (Quiet start) (readVm vm field) fun _ => Quiet start := by
  have hEmit : Partial (Quiet start) (emit (.readVm vm)) fun _ => Quiet start :=
    emit_rule (.readVm vm) fun _ h => h.log rfl rfl
  apply hEmit.bind
  intro _
  exact Triple.pure fun _ h => h

/-- The world that a failure leaves. -/
theorem setError_run (world : World) (ec : LoaderErrorCode) (output : CText) :
    ∃ final, setError ec output world = .ok (ec, final) ∧
      final.trace = world.trace ++ [.failure ec output] ∧
      final.lastErrorMsg =
        if output.length < lastErrorMsgBufferSize then .buffer else world.lastErrorMsg := by
  obtain ⟨written, hRun, _⟩ := vsnprintf_holds (world.log (.failure ec output)).lastErrorMsgBuffer
    lastErrorMsgBufferSize output (by decide) (by decide)
  have hEmit : emit (.failure ec output) world = .ok ((), world.log (.failure ec output)) := rfl
  unfold setError
  rw [Returns.run_bind hEmit, Returns.run_get_bind, Returns.run_lift_bind hRun]
  by_cases hFits : output.length < lastErrorMsgBufferSize
  · simp only [hFits, ↓reduceIte]
    exact ⟨_, rfl, rfl, rfl⟩
  · simp only [hFits, ↓reduceIte]
    exact ⟨_, rfl, rfl, rfl⟩

theorem setError_rule (ec : LoaderErrorCode) (output : CText) :
    Partial (Quiet start) (setError ec output) fun value world =>
      value = ec ∧ Told start world := by
  intro world hQuiet
  obtain ⟨final, hRun, hTrace, hMessage⟩ := setError_run world ec output
  obtain ⟨events, hEvents, hFailed, hLinker⟩ := hQuiet.silent
  rw [hRun]
  refine ⟨rfl, events ++ [.failure ec output], ?_, fun failure hFailure => ?_⟩
  · rw [hTrace, hEvents, List.append_assoc]
  · rw [List.filterMap_append, hFailed] at hFailure
    obtain rfl : failure = (ec, output) := List.mem_singleton.mp hFailure
    have hComposed : (events ++ [Event.failure ec output]).filterMap Event.linkerMessage = [] := by
      rw [List.filterMap_append, hLinker]
      rfl
    rw [hMessage]
    split
    · rename_i hFits
      exact iff_of_false (fun hNull => by cases hNull)
        fun hLost => absurd hFits (Nat.not_lt.mpr hLost.tooLong)
    · rename_i hLong
      exact iff_of_true hQuiet.null ⟨hComposed, Nat.le_of_not_lt hLong⟩

theorem clear_rule :
    Partial (Quiet start) (setLastErrorMsg .null) fun _ => Quiet start :=
  Triple.modify fun _ h => ⟨rfl, h.silent⟩

/-- A step that does nothing but fail. -/
theorem fail_rule (ec : LoaderErrorCode) (output : CText) :
    Partial (Quiet start)
      (setError ec output >>= fun ec => pure ((none : Option Value), ec))
      fun result => Settled start result.1 := by
  apply Triple.bind (setError_rule ec output)
  intro value
  exact Triple.pure fun _ h => h.2.settled

theorem setError_fail_destroy (vm : Vm) (ec : LoaderErrorCode) (output : CText) :
    Partial (Quiet start)
      (do
        let ec ← setError ec output
        destroy vm
        return ((none : Option Value), ec))
      fun result => Settled start result.1 := by
  apply Triple.bind (setError_rule ec output)
  intro value
  have hDestroy : Partial (fun world => value = ec ∧ Told start world) (destroy vm)
      fun _ => Told start :=
    emit_rule (.destroy vm) fun _ h => h.2.log rfl rfl
  apply hDestroy.bind
  intro _
  exact Triple.pure fun _ h => h.settled

/-- A module that does not open. The text of the linker is told whatever its length. -/
theorem cannotOpen_rule (env : Env) (filename : CText) :
    Partial (Quiet start)
      (do
        match ← dllGetErrorMsg env with
        | some output =>
            setLastErrorMsg (.linker output)
            emit (.failure .cannotOpen output)
            return ((none : Option Value), LoaderErrorCode.cannotOpen)
        | none =>
            setLastErrorMsg .null
            let ec ← setError .cannotOpen (message "cannot open %s" [.str filename])
            return (none, ec))
      fun result => Settled start result.1 := by
  intro world hQuiet
  cases hAnswer : env.dllGetErrorMsg world.trace with
  | some output =>
      have hAsk : dllGetErrorMsg env world =
          .ok (some output, world.log (.dllGetErrorMsg (some output))) := by
        rw [← hAnswer]
        rfl
      obtain ⟨events, hEvents, hFailed, _⟩ := hQuiet.silent
      rw [Returns.run_bind hAsk]
      refine Told.settled ⟨events ++ [.dllGetErrorMsg (some output), .failure .cannotOpen output],
        ?_, fun failure _ => iff_of_false (fun hNull => by cases hNull) fun hLost => ?_⟩
      · rw [← List.append_assoc, ← hEvents]
        exact List.append_assoc world.trace [_] [_]
      · have hComposed := hLost.composed
        rw [List.filterMap_append] at hComposed
        cases (List.append_eq_nil_iff.mp hComposed).2
  | none =>
      have hAsk : dllGetErrorMsg env world = .ok (none, world.log (.dllGetErrorMsg none)) := by
        rw [← hAnswer]
        rfl
      rw [Returns.run_bind hAsk]
      exact clear_rule.bind (fun _ => fail_rule _ _) (world.log (.dllGetErrorMsg none))
        (hQuiet.log rfl rfl)

theorem loadCreateFn_rule (env : Env) (filename : Option CText) :
    Partial (Quiet start) (loadCreateFn env filename) fun result => Settled start result.1 := by
  cases filename with
  | none => exact fail_rule _ _
  | some filename =>
      simp only [loadCreateFn]
      apply Triple.ite
      · intro _
        exact fail_rule _ _
      intro _
      apply Triple.ite
      · intro _
        exact fail_rule _ _
      intro _
      have hOpen : Partial (Quiet start) (dllOpen env filename) fun _ => Quiet start :=
        ask_rule _ _ (fun _ => rfl) fun _ => rfl
      apply hOpen.bind
      intro handle
      cases handle with
      | none => exact cannotOpen_rule env filename
      | some handle =>
          have hGet (name : CText) : Partial (Quiet start) (dllGetCreateFn env handle name)
              fun _ => Quiet start :=
            ask_rule _ _ (fun _ => rfl) fun _ => rfl
          apply Triple.get_bind
          intro world hQuiet
          have hSame : ∀ current, current = world → Quiet start current := by
            intro current hCurrent
            rw [hCurrent]
            exact hQuiet
          apply Triple.strengthen _ hSame
          apply (lift_rule _).bind
          intro prefixedName
          apply (lift_rule _).bind
          intro name
          apply (hGet name).bind
          intro createFn
          cases createFn with
          | some createFn => exact Triple.pure fun _ h => h.settled _
          | none =>
              apply (hGet (text "qrvmc_create")).bind
              intro createFn
              cases createFn with
              | some createFn => exact Triple.pure fun _ h => h.settled _
              | none =>
                  have hClose : Partial (Quiet start) (dllClose handle) fun _ => Quiet start :=
                    emit_rule _ fun _ h => h.log rfl rfl
                  apply hClose.bind
                  intro _
                  exact fail_rule _ _

/-- Whatever was pending before, a call that loads starts quiet. -/
theorem qrvmcLoad_rule (env : Env) (filename : Option CText) (errorCode : ErrorCodePtr) :
    Partial (fun world => world.trace = start) (qrvmcLoad env filename errorCode)
      fun result => Settled start result.1 := by
  have hClear : Partial (fun world => world.trace = start) (setLastErrorMsg .null)
      fun _ => Quiet start := by
    apply Triple.modify
    intro world hStart
    exact ⟨rfl, [], hStart.trans (List.append_nil _).symm, rfl, rfl⟩
  unfold qrvmcLoad
  apply hClear.bind
  intro _
  apply (loadCreateFn_rule env filename).bind
  intro result
  exact Triple.pure fun _ h => h

theorem createVm_rule (env : Env) (filename : CText) (createFn : CreateFn) :
    Partial (Quiet start) (createVm env filename createFn) fun result => Settled start result.1 := by
  have hCreate : Partial (Quiet start) (create env createFn) fun _ => Quiet start :=
    ask_rule _ _ (fun _ => rfl) fun _ => rfl
  unfold createVm
  apply hCreate.bind
  intro vm
  cases vm with
  | none => exact fail_rule _ _
  | some vm =>
      apply (readVm_rule vm Vm.abiVersion).bind
      intro abiVersion
      apply Triple.ite
      · intro _
        exact Triple.pure fun _ h => h.settled _
      · intro _
        apply (readVm_rule vm Vm.abiVersion).bind
        intro _
        exact setError_fail_destroy vm _ _

theorem qrvmcLoadAndCreate_rule (env : Env) (filename : Option CText)
    (errorCode : ErrorCodePtr) :
    Partial (fun world => world.trace = start) (qrvmcLoadAndCreate env filename errorCode)
      fun result => Settled start result.1 := by
  unfold qrvmcLoadAndCreate
  apply (qrvmcLoad_rule env filename errorCode).bind
  intro result
  obtain ⟨found, errorCode⟩ := result
  cases found with
  | none => exact Triple.pure fun _ h => h.failure.settled
  | some createFn =>
      have hQuiet : ∀ world, Settled start (some createFn) world → Quiet start world :=
        fun _ h => h.success rfl
      apply Triple.strengthen _ hQuiet
      apply (lift_rule _).bind
      intro filename
      apply (createVm_rule env filename createFn).bind
      intro result
      exact Triple.pure fun _ h => h

/-- The loop over the options, which succeeds in silence. -/
structure OptionsSettled (start : List Event) (ec : LoaderErrorCode) (world : World) : Prop where
  success : ec = .success → Quiet start world
  failure : Told start world

theorem setError_options (ec : LoaderErrorCode) (hFailure : ec ≠ .success) (output : CText) :
    Partial (Quiet start) (setError ec output) (OptionsSettled start) := by
  have hError := @setError_rule start ec output
  intro world hQuiet
  have hTold := hError world hQuiet
  cases hRun : setError ec output world with
  | error fault => exact id
  | ok outcome =>
      rw [hRun] at hTold
      obtain ⟨hSame, hTold⟩ := hTold
      exact ⟨fun hSuccess => absurd (hSame.symm.trans hSuccess) hFailure, hTold⟩

/-- A failure whose message names the instance. -/
theorem fail_naming_rule (vm : Vm) (hFailure : ec ≠ .success) (output : CText → CText) :
    Partial (Quiet start)
      (do
        let name ← readVm vm Vm.name
        setError ec (output name)) (OptionsSettled start) := by
  apply (readVm_rule vm Vm.name).bind
  intro name
  exact setError_options ec hFailure (output name)

theorem setOptions_rule (env : Env) (vm : Vm) {n : Nat} (path fuel : Nat)
    (block : Vector CChar n) (options : Nat) :
    Partial (Quiet start) (setOptions env vm path fuel block options) (OptionsSettled start) := by
  induction fuel generalizing block options with
  | zero => exact Triple.throw id
  | succ fuel ih =>
      unfold setOptions
      apply (lift_rule _).bind
      intro rest
      apply Triple.ite
      · intro _
        exact Triple.pure fun _ h => ⟨fun _ => h, h.told⟩
      intro _
      apply (readVm_rule vm Vm.hasSetOption).bind
      intro hasSetOption
      apply Triple.ite
      · intro _
        apply (readVm_rule vm Vm.name).bind
        intro name
        apply (lift_rule _).bind
        intro pathText
        exact setError_options _ (by decide) _
      intro _
      apply (lift_rule _).bind
      intro cut
      apply (lift_rule _).bind
      intro split
      apply (lift_rule _).bind
      intro name
      apply (lift_rule _).bind
      intro option
      apply (lift_rule _).bind
      intro pathText
      have hSet : Partial (Quiet start) (setOption env vm name option) fun _ => Quiet start :=
        ask_rule _ _ (fun _ => rfl) fun _ => rfl
      apply hSet.bind
      intro answer
      apply Triple.ite
      · intro _
        exact ih _ _
      intro _
      apply Triple.ite
      · intro _
        exact fail_naming_rule vm (by decide) _
      intro _
      apply Triple.ite
      · intro _
        exact fail_naming_rule vm (by decide) _
      · intro _
        exact fail_naming_rule vm (by decide) _

theorem configureExit_rule (vm : Vm) (ec : LoaderErrorCode) (errorCode : ErrorCodePtr) :
    Partial (OptionsSettled start ec) (configureExit (some vm) ec errorCode)
      fun result => Settled start result.1 := by
  unfold configureExit
  apply Triple.ite
  · intro hSuccess
    exact Triple.pure fun _ h => (h.success hSuccess).settled _
  · intro _
    have hDestroy : Partial (OptionsSettled start ec) (destroy vm) fun _ => Told start :=
      emit_rule _ fun _ h => h.failure.log rfl rfl
    apply hDestroy.bind
    intro _
    exact Triple.pure fun _ h => h.settled

/-- A configuration that is too long is told, since the text about it is short. -/
theorem tooLong_rule (errorCode : ErrorCodePtr) (hShort : output.length < lastErrorMsgBufferSize) :
    Partial (fun world => world.trace = start)
      (do
        let ec ← setError .invalidArgument output
        configureExit none ec errorCode)
      fun result => Settled start result.1 := by
  intro world hStart
  obtain ⟨final, hRun, hTrace, hMessage⟩ := setError_run world .invalidArgument output
  rw [if_pos hShort] at hMessage
  rw [Returns.run_bind hRun]
  refine Told.settled ⟨[.failure .invalidArgument output], by rw [hTrace, hStart], ?_⟩
  intro failure hFailure
  obtain rfl : failure = (.invalidArgument, output) := List.mem_singleton.mp hFailure
  rw [hMessage]
  exact iff_of_false (fun hNull => by cases hNull)
    fun hLost => absurd hShort (Nat.not_lt.mpr hLost.tooLong)

theorem qrvmcLoadAndConfigure_rule (env : Env) (config : CText) (errorCode : ErrorCodePtr) :
    Partial (fun world => world.trace = start) (qrvmcLoadAndConfigure env config errorCode)
      fun result => Settled start result.1 := by
  unfold qrvmcLoadAndConfigure
  apply Triple.get_bind
  intro world hStart
  have hSame : ∀ current, current = world → current.trace = start := by
    intro current hCurrent
    rw [hCurrent]
    exact hStart
  apply Triple.strengthen _ hSame
  apply (lift_rule _).bind
  intro copied
  obtain ⟨configCopy, failed⟩ := copied
  apply Triple.ite
  · intro _
    exact tooLong_rule errorCode (by decide)
  intro _
  apply (lift_rule _).bind
  intro cut
  obtain ⟨configCopy, options, path⟩ := cut
  apply (lift_rule _).bind
  intro pathText
  apply (qrvmcLoadAndCreate_rule env (some pathText) errorCode).bind
  intro result
  obtain ⟨vm, errorCode⟩ := result
  cases vm with
  | none => exact Triple.pure fun _ h => h.failure.settled
  | some vm =>
      have hQuiet : ∀ world, Settled start (some vm) world → Quiet start world :=
        fun _ h => h.success rfl
      apply Triple.strengthen _ hQuiet
      apply (setOptions_rule env vm path pathMaxLength configCopy options).bind
      intro ec
      exact configureExit_rule vm ec errorCode

/-- What `qrvmc_last_error_msg` answers after a call that ended with the code. -/
structure Tells (ec : LoaderErrorCode) (events : List Event) (message : Option CText) : Prop where
  success : ec = .success → events.filterMap Event.failed = [] ∧ message = none
  failure : ec ≠ .success → ∃ output, events.filterMap Event.failed = [(ec, output)] ∧
    (Lost output events → message = none) ∧ (¬Lost output events → message = some output)

/-- A message that is shown is answered. -/
theorem qrvmcLastErrorMsg_shows {world : World} (h : world.Shows output) :
    qrvmcLastErrorMsg world = .ok (some output, { world with lastErrorMsg := .null }) := by
  unfold World.Shows at h
  unfold qrvmcLastErrorMsg
  rw [Returns.run_get_bind]
  cases hPointer : world.lastErrorMsg with
  | null =>
      rw [hPointer] at h
      cases h
  | linker message =>
      rw [hPointer] at h
      cases h
      rfl
  | buffer =>
      rw [hPointer] at h
      have hClear : setLastErrorMsg .null world =
          .ok ((), { world with lastErrorMsg := .null }) := rfl
      have hText : inBounds (textAt world.lastErrorMsgBuffer 0) = .ok output := by
        rw [Holds.textAt h]
        rfl
      rw [Returns.run_bind hClear]
      simp only
      rw [Returns.run_get_bind, Returns.run_lift_bind hText]
      rfl

theorem qrvmcLastErrorMsg_null {world : World} (h : world.lastErrorMsg = .null) :
    qrvmcLastErrorMsg world = .ok (none, { world with lastErrorMsg := .null }) := by
  unfold qrvmcLastErrorMsg
  rw [Returns.run_get_bind, h]
  rfl

/-- The answer after a call, from what the call reports and what is told of it. -/
theorem qrvmcLastErrorMsg_tells {value : Option Value} {events : List Event} {final : World}
    (hReports : Reports ec events final) (hTrace : final.trace = start ++ events)
    (hSettled : Settled start value final) :
    ∃ message, qrvmcLastErrorMsg final = .ok (message, { final with lastErrorMsg := .null }) ∧
      Tells ec events message := by
  by_cases hSuccess : ec = .success
  · obtain ⟨hSilent, hNull⟩ := hReports.success hSuccess
    exact ⟨none, qrvmcLastErrorMsg_null hNull, fun _ => ⟨hSilent, rfl⟩,
      fun hFailure => absurd hSuccess hFailure⟩
  · obtain ⟨output, hFailed, hMessage⟩ := hReports.failure hSuccess
    obtain ⟨others, hOthers, hTold⟩ := hSettled.failure
    obtain rfl : events = others := List.append_cancel_left (hTrace.symm.trans hOthers)
    have hLost : final.lastErrorMsg = .null ↔ Lost output events :=
      hTold (ec, output) (hFailed ▸ List.mem_singleton_self _)
    by_cases hNull : final.lastErrorMsg = .null
    · refine ⟨none, qrvmcLastErrorMsg_null hNull, fun hSome => absurd hSome hSuccess, fun _ =>
        ⟨output, hFailed, fun _ => rfl, fun hKept => absurd (hLost.mp hNull) hKept⟩⟩
    · have hShows : final.Shows output := hMessage.resolve_left hNull
      refine ⟨some output, qrvmcLastErrorMsg_shows hShows, fun hSome => absurd hSome hSuccess,
        fun _ => ⟨output, hFailed, fun hTooLong => absurd (hLost.mpr hTooLong) hNull, fun _ => rfl⟩⟩

/-- A loading call and what can be heard of it afterwards, whatever happened before. -/
def TellsAfter (call : ErrorCodePtr → Loader (Option Value × ErrorCodePtr)) (world : World) :
    Prop :=
  Writes call world fun result events final => (result.1.isSome ↔ result.2 = .success) ∧
    ∃ message cleared, qrvmcLastErrorMsg final = .ok (message, cleared) ∧
      Tells result.2 events message

theorem tellsAfter_of_writes {call : ErrorCodePtr → Loader (Option Value × ErrorCodePtr)}
    {post : Option Value × LoaderErrorCode → List Event → World → Prop}
    (h : Writes call world post)
    (hPost : ∀ result events final, post result events final →
      Reports result.2 events final ∧ (result.1.isSome ↔ result.2 = .success))
    (hSettled : Partial (fun current => current.trace = world.trace) (call .null)
      fun result => Settled world.trace result.1) : TellsAfter call world := by
  obtain ⟨result, events, final, hRun, hTrace, hResult⟩ := h
  obtain ⟨hReports, hReturns⟩ := hPost result events final hResult
  have hEnd := hSettled world rfl
  rw [hRun] at hEnd
  obtain ⟨message, hMessage, hTells⟩ := qrvmcLastErrorMsg_tells hReports hTrace hEnd
  exact ⟨result, events, final, hRun, hTrace, hReturns, message, _, hMessage, hTells⟩

/-- After each of the three loading calls, from any state, the message of the failure can
be had in full, unless it is the loader's own and too long for the buffer. -/
theorem failures_told (env : Env) (world : World) :
    (∀ filename, TellsAfter (qrvmcLoad env filename) world) ∧
    (∀ filename, TellsAfter (qrvmcLoadAndCreate env filename) world) ∧
    ∀ config, TellsAfter (qrvmcLoadAndConfigure env config) world := by
  refine ⟨fun filename => ?_, fun filename => ?_, fun config => ?_⟩
  · exact tellsAfter_of_writes (qrvmcLoad_writes env filename world)
      (fun _ _ _ h => ⟨h.2.reports, h.2.returns⟩) (qrvmcLoad_rule env filename .null)
  · exact tellsAfter_of_writes (qrvmcLoadAndCreate_writes env filename world)
      (fun _ _ _ h => by
        obtain ⟨_, hEnds, _⟩ := h
        exact ⟨hEnds.reports, hEnds.returns⟩) (qrvmcLoadAndCreate_rule env filename .null)
  · exact tellsAfter_of_writes (qrvmcLoadAndConfigure_writes env config world)
      (fun _ _ _ h => ⟨h.reports, h.returns⟩) (qrvmcLoadAndConfigure_rule env config .null)

end Qrvmc
