import Qrvmc.Loader.CreateFnName
import Qrvmc.Loader.VmLife
import Qrvmc.Semantics.Returns

/-! How the steps of the loader end. Each returns for every environment. It
either succeeds in silence, or reports one failure with the code it returns, and
the message pointer refers to that failure's full message or to nothing. -/
namespace Qrvmc
open Memory Semantics Loader

namespace Event

/-- The failure that an event reports, with its message in full. -/
def failed : Event → Option (LoaderErrorCode × CText)
  | .failure errorCode output => some (errorCode, output)
  | _ => none

/-- The option that an event sets, with its value and the answer. -/
def optionSet : Event → Option (CText × CText × Int32)
  | .setOption _ name value answer => some (name, value, answer)
  | _ => none

end Event

/-- The text that `last_error_msg` points to. -/
def World.Shows (world : World) (output : CText) : Prop :=
  match world.lastErrorMsg with
  | .null => False
  | .buffer => Holds world.lastErrorMsgBuffer.toList 0 output
  | .linker message => message = output

/-- What is reported along with an error code. -/
structure Reports (errorCode : LoaderErrorCode) (events : List Event) (final : World) : Prop where
  success : errorCode = .success →
    events.filterMap Event.failed = [] ∧ final.lastErrorMsg = .null
  failure : errorCode ≠ .success → ∃ output,
    events.filterMap Event.failed = [(errorCode, output)] ∧
      (final.lastErrorMsg = .null ∨ final.Shows output)

variable {world final : World} {errorCode : LoaderErrorCode} {events later : List Event}

/-- The world with one more event in its trace. -/
def World.log (world : World) (event : Event) : World :=
  { world with trace := world.trace ++ [event] }

@[simp] theorem World.log_lastErrorMsg (event : Event) :
    (world.log event).lastErrorMsg = world.lastErrorMsg := rfl

theorem emit_bind {Result : Type} {program : Unit → Loader Result}
    {post : Result → List Event → World → Prop} (event : Event)
    (h : Returns World.trace (program ()) (world.log event) fun result later =>
      post result (event :: later)) :
    Returns World.trace (emit event >>= program) world post := by
  have hEmit : Returns World.trace (emit event) world fun _ events final =>
      events = [event] ∧ final = world.log event :=
    ⟨(), [event], world.log event, rfl, rfl, rfl, rfl⟩
  apply hEmit.bind
  intro _ events reached ⟨hEvents, hReached⟩
  subst hEvents hReached
  exact h

/-- Each request to the environment appears in the trace with its answer. -/
theorem asked_bind {Answer Result : Type} {program : Answer → Loader Result}
    {post : Result → List Event → World → Prop} {oracle : List Event → Answer}
    {event : Answer → Event} {answer : Answer} (hAnswer : oracle world.trace = answer)
    (h : Returns World.trace (program answer) (world.log (event answer))
      fun result later => post result (event answer :: later)) :
    Returns World.trace (ask oracle event >>= program) world post := by
  subst hAnswer
  have hAsk : Returns World.trace (ask oracle event) world fun answer events final =>
      answer = oracle world.trace ∧ events = [event answer] ∧ final = world.log (event answer) :=
    ⟨oracle world.trace, [_], _, rfl, rfl, rfl, rfl, rfl⟩
  apply hAsk.bind
  intro answer events reached ⟨hAnswer, hEvents, hReached⟩
  subst hAnswer hEvents hReached
  exact h

/-- Whatever the environment answers. -/
theorem ask_bind {Answer Result : Type} {program : Answer → Loader Result}
    {post : Result → List Event → World → Prop} (oracle : List Event → Answer)
    (event : Answer → Event)
    (h : ∀ answer, Returns World.trace (program answer) (world.log (event answer))
      fun result later => post result (event answer :: later)) :
    Returns World.trace (ask oracle event >>= program) world post :=
  asked_bind rfl (h (oracle world.trace))

theorem readVm_bind {Field Result : Type} {program : Field → Loader Result}
    {post : Result → List Event → World → Prop} (vm : Vm) (field : Vm → Field)
    (h : Returns World.trace (program (field vm)) (world.log (.readVm vm)) fun result later =>
      post result (.readVm vm :: later)) :
    Returns World.trace (readVm vm field >>= program) world post := by
  change Returns World.trace (emit (.readVm vm) >>= fun _ => program (field vm)) world post
  exact emit_bind (.readVm vm) h

theorem take_of_length_lt {output : CText} {size : Nat} (h : output.length < size) :
    output.take (size - 1) = output :=
  Text.ext (List.take_of_length_le (Nat.le_pred_of_lt h))

/-- A failure is reported with its code. Its message is shown in full, or the
pointer stays as it was because the message is too long for the buffer. -/
theorem setError_returns (world : World) (errorCode : LoaderErrorCode) (output : CText) :
    Returns World.trace (setError errorCode output) world fun value events final =>
      value = errorCode ∧ events = [.failure errorCode output] ∧
        (lastErrorMsgBufferSize ≤ output.length ∧ final.lastErrorMsg = world.lastErrorMsg ∨
          final.Shows output) := by
  obtain ⟨written, hRun, hHolds⟩ := vsnprintf_holds world.lastErrorMsgBuffer
    lastErrorMsgBufferSize output (by decide) (by decide)
  unfold setError
  apply emit_bind
  apply Returns.get_bind
  apply Returns.lift_bind hRun
  apply Returns.modify_bind rfl
  rcases Nat.lt_or_ge output.length lastErrorMsgBufferSize with hShort | hLong
  · rw [if_pos hShort]
    apply Returns.modify_bind rfl
    rw [take_of_length_lt hShort] at hHolds
    exact Returns.pure ⟨rfl, rfl, .inr hHolds⟩
  · rw [if_neg (Nat.not_lt.mpr hLong)]
    exact Returns.pure ⟨rfl, rfl, .inl ⟨hLong, rfl⟩⟩

namespace Reports

theorem of_failure (hFailure : errorCode ≠ .success) {output : CText}
    (hFailed : events.filterMap Event.failed = [(errorCode, output)])
    (hMessage : final.lastErrorMsg = .null ∨ final.Shows output) :
    Reports errorCode events final :=
  ⟨fun hSuccess => absurd hSuccess hFailure, fun _ => ⟨output, hFailed, hMessage⟩⟩

/-- Events that report no failure do not matter. -/
theorem after (hEvents : events.filterMap Event.failed = [])
    (h : Reports errorCode later final) : Reports errorCode (events ++ later) final := by
  constructor
  · rw [List.filterMap_append, hEvents]
    exact h.success
  · rw [List.filterMap_append, hEvents]
    exact h.failure

theorem cons {event : Event} (hEvent : event.failed = none) (h : Reports errorCode later final) :
    Reports errorCode (event :: later) final := by
  constructor
  · rw [List.filterMap_cons_none hEvent]
    exact h.success
  · rw [List.filterMap_cons_none hEvent]
    exact h.failure

theorem before (h : Reports errorCode events final) (hLater : later.filterMap Event.failed = [])
    {reached : World} (hPointer : reached.lastErrorMsg = final.lastErrorMsg)
    (hBuffer : reached.lastErrorMsgBuffer = final.lastErrorMsgBuffer) :
    Reports errorCode (events ++ later) reached := by
  constructor
  · rw [List.filterMap_append, hLater, List.append_nil, hPointer]
    exact h.success
  · unfold World.Shows
    rw [List.filterMap_append, hLater, List.append_nil, hPointer, hBuffer]
    exact h.failure

end Reports

/-- A failure with no message pending is reported. -/
theorem setError_reports (hFailure : errorCode ≠ .success) (hNull : world.lastErrorMsg = .null)
    (output : CText) :
    Returns World.trace (setError errorCode output) world fun value events final =>
      value = errorCode ∧ events = [.failure errorCode output] ∧
        Reports errorCode events final := by
  apply (setError_returns world errorCode output).mono
  intro value events final ⟨hValue, hEvents, hMessage⟩
  subst hEvents
  refine ⟨hValue, rfl, Reports.of_failure hFailure rfl ?_⟩
  rcases hMessage with ⟨_, hSame⟩ | hShows
  · exact .inl (hSame.trans hNull)
  · exact .inr hShows

end Qrvmc
