import Mathlib.Data.List.Forall2
import Mathlib.Data.List.ReduceOption
import Qrvmc.Host.Steps
import Qrvmc.Semantics.Path

/-! The record of calls. Non-empty inputs are copied into a sequence of their own, and
the recorded messages point into it. It has room for all copies before the first is
made, so no copy moves, whatever the callers do to their buffers. -/
namespace Qrvmc
open Containers Semantics

/-- A host, and the memory of its callers by the pointers to it. -/
structure Session where
  host : MockedHost
  memory : Nat → List UInt8

/-- What a pointer refers to. -/
def Session.pointee (session : Session) : DataPointer → Option (List UInt8)
  | .null => none
  | .caller buffer => some (session.memory buffer)
  | .copy index moves => session.host.recordedCallsInputs.deref index moves

/-- The message has the given input: as many bytes as it says, and they stand where it
points to unless there are none. -/
structure Session.Passes (session : Session) (msg : Message) (input : List UInt8) : Prop where
  size : input.length = msg.inputSize
  bytes : 0 < msg.inputSize →
    ∃ data, session.pointee msg.inputData = some data ∧ input = data.take msg.inputSize

/-- A step of the callers: a nested call with its input, any other call, or arbitrary
changes to their memory. -/
inductive CallerStep : Session → Option (Message × List UInt8) → Session → Prop where
  | call {session : Session} {msg : Message} {input : List UInt8}
      (hInput : session.Passes msg input) :
      CallerStep session (some (msg, input)) { session with host := (session.host.call msg input).1 }
  | other {session : Session} {call : HostCall} (hOther : ∀ msg input, call ≠ .call msg input) :
      CallerStep session none { session with host := (session.host.step call).1 }
  | overwrite {session : Session} (memory : Nat → List UInt8) :
      CallerStep session none { session with memory := memory }

/-- A recorded message is the message of the call, and points to a copy of its input if
that is not empty. -/
structure Keeps (copies : Sequence (List UInt8)) (recorded : Message)
    (passed : Message × List UInt8) : Prop where
  message : recorded = { passed.1 with inputData := recorded.inputData }
  empty : passed.1.inputSize = 0 → recorded = passed.1
  input : 0 < passed.1.inputSize → ∃ index moves,
    recorded.inputData = .copy index moves ∧ copies.deref index moves = some passed.2

/-- What the record of calls is at any time. -/
structure Recording (calls : List (Message × List UInt8)) (host : MockedHost) : Prop where
  recorded : List.Forall₂ (Keeps host.recordedCallsInputs) host.recordedCalls.items
    (calls.take MockedHost.maxRecordedCalls)
  copies : host.recordedCallsInputs.items.length ≤ host.recordedCalls.items.length
  capacity : host.recordedCalls.items ≠ [] →
    MockedHost.maxRecordedCalls ≤ host.recordedCallsInputs.capacity

variable {host : MockedHost} {calls : List (Message × List UInt8)} {msg : Message}
  {input : List UInt8}

namespace MockedHost

/-- The copies as the call finds them once it has made room. -/
def preparedInputs (host : MockedHost) : Sequence (List UInt8) :=
  if host.recordedCalls.items.isEmpty then host.recordedCallsInputs.reserve maxRecordedCalls
  else host.recordedCallsInputs

theorem preparedInputs_items (host : MockedHost) :
    host.preparedInputs.items = host.recordedCallsInputs.items := by
  unfold preparedInputs
  split
  · exact Sequence.reserve_items ..
  · rfl

theorem preparedInputs_of_recorded (h : host.recordedCalls.items ≠ []) :
    host.preparedInputs = host.recordedCallsInputs :=
  if_neg fun hEmpty => h (List.isEmpty_iff.mp hEmpty)

theorem call_recordedCallsInputs (host : MockedHost) (msg : Message) (input : List UInt8) :
    (host.call msg input).1.recordedCallsInputs =
      if host.recordedCalls.items.length < maxRecordedCalls ∧ 0 < msg.inputSize then
        host.preparedInputs.emplaceBack (input.take msg.inputSize)
      else host.preparedInputs := by
  simp only [call, preparedInputs]
  split_ifs <;> simp_all [recordAccountAccess]

/-- The message that a call leaves in the record. -/
def recordedMessage (host : MockedHost) (msg : Message) (input : List UInt8) : Message :=
  if 0 < msg.inputSize then
    let inputs := host.preparedInputs.emplaceBack (input.take msg.inputSize)
    { msg with inputData := .copy host.preparedInputs.items.length inputs.moves }
  else msg

theorem call_recordedCalls (host : MockedHost) (msg : Message) (input : List UInt8) :
    (host.call msg input).1.recordedCalls.items =
      if host.recordedCalls.items.length < maxRecordedCalls then
        host.recordedCalls.items ++ [host.recordedMessage msg input]
      else host.recordedCalls.items := by
  simp only [call, preparedInputs, recordedMessage]
  split_ifs <;> simp_all [recordAccountAccess]

/-- No other call touches the record. -/
theorem step_recordedCalls (host : MockedHost) {call : HostCall}
    (hOther : ∀ msg input, call ≠ .call msg input) :
    (host.step call).1.recordedCalls = host.recordedCalls ∧
      (host.step call).1.recordedCallsInputs = host.recordedCallsInputs := by
  cases call with
  | call msg input => exact absurd rfl (hOther msg input)
  | setStorage addr key value => exact ⟨rfl, rfl⟩
  | accessStorage addr key => exact ⟨rfl, rfl⟩
  | getTxContext => exact ⟨rfl, rfl⟩
  | getBlockHash blockNumber => exact ⟨rfl, rfl⟩
  | emitLog addr data topics => exact ⟨rfl, rfl⟩
  | _ => simp [step, recordAccountAccess]

end MockedHost

theorem Keeps.emplaceBack {copies : Sequence (List UInt8)} {recorded : Message}
    {passed : Message × List UInt8} (h : Keeps copies recorded passed)
    (hRoom : copies.items.length < copies.capacity) (added : List UInt8) :
    Keeps (copies.emplaceBack added) recorded passed where
  message := h.message
  empty := h.empty
  input hNonempty := by
    obtain ⟨index, moves, hPointer, hDeref⟩ := h.input hNonempty
    exact ⟨index, moves, hPointer, Sequence.deref_emplaceBack hRoom hDeref added⟩

/-- The last message of the record points to the last copy. -/
theorem keeps_recordedMessage (host : MockedHost) (hSize : input.length = msg.inputSize) :
    Keeps (if 0 < msg.inputSize then
        host.preparedInputs.emplaceBack (input.take msg.inputSize) else host.preparedInputs)
      (host.recordedMessage msg input) (msg, input) := by
  unfold MockedHost.recordedMessage
  by_cases hNonempty : 0 < msg.inputSize
  · rw [if_pos hNonempty, if_pos hNonempty, List.take_of_length_le hSize.le]
    exact ⟨rfl, fun hEmpty => absurd hEmpty hNonempty.ne', fun _ =>
      ⟨_, _, rfl, Sequence.deref_back ..⟩⟩
  · rw [if_neg hNonempty, if_neg hNonempty]
    exact ⟨rfl, fun _ => rfl, fun hPositive => absurd hPositive hNonempty⟩

namespace Recording

theorem length_recorded (h : Recording calls host) :
    host.recordedCalls.items.length = min MockedHost.maxRecordedCalls calls.length := by
  rw [h.recorded.length_eq, List.length_take]

/-- Making room moves copies only while there are none. -/
theorem prepared (h : Recording calls host) :
    MockedHost.maxRecordedCalls ≤ host.preparedInputs.capacity ∧
      List.Forall₂ (Keeps host.preparedInputs) host.recordedCalls.items
        (calls.take MockedHost.maxRecordedCalls) := by
  by_cases hEmpty : host.recordedCalls.items = []
  · have hPrepared : host.preparedInputs =
        host.recordedCallsInputs.reserve MockedHost.maxRecordedCalls :=
      if_pos (List.isEmpty_iff.mpr hEmpty)
    have hRecorded := h.recorded
    rw [hEmpty, List.forall₂_nil_left_iff] at hRecorded
    rw [hPrepared, hEmpty, hRecorded]
    exact ⟨Sequence.le_reserve_capacity .., .nil⟩
  · rw [MockedHost.preparedInputs_of_recorded hEmpty]
    exact ⟨h.capacity hEmpty, h.recorded⟩

/-- There is room for the copy of the next message that is recorded. -/
theorem room (h : Recording calls host)
    (hRecords : host.recordedCalls.items.length < MockedHost.maxRecordedCalls) :
    host.preparedInputs.items.length < host.preparedInputs.capacity := by
  rw [MockedHost.preparedInputs_items]
  exact (Nat.lt_of_le_of_lt h.copies hRecords).trans_le h.prepared.1

/-- The copies after a call that is recorded: all that was kept still is. -/
theorem kept (h : Recording calls host) (msg : Message) (input : List UInt8)
    (hRecords : host.recordedCalls.items.length < MockedHost.maxRecordedCalls) :
    List.Forall₂ (Keeps (host.call msg input).1.recordedCallsInputs) host.recordedCalls.items
      (calls.take MockedHost.maxRecordedCalls) := by
  obtain ⟨_, hRecorded⟩ := h.prepared
  rw [MockedHost.call_recordedCallsInputs]
  split
  · exact hRecorded.imp fun _ _ hKeeps => hKeeps.emplaceBack (h.room hRecords) _
  · exact hRecorded

/-- One more call is recorded while fewer than the maximum are. -/
theorem call (h : Recording calls host) (hSize : input.length = msg.inputSize) :
    Recording (calls ++ [(msg, input)]) (host.call msg input).1 := by
  obtain ⟨hCapacity, _⟩ := h.prepared
  have hLength := h.length_recorded
  have hInputs := host.call_recordedCallsInputs msg input
  have hCalls := host.call_recordedCalls msg input
  by_cases hRecords : host.recordedCalls.items.length < MockedHost.maxRecordedCalls
  · have hKept := h.kept msg input hRecords
    have hRoom := h.room hRecords
    have hLast := keeps_recordedMessage host hSize
    simp only [hRecords, true_and, ↓reduceIte] at hInputs hCalls
    rw [← hInputs] at hLast
    have hShort : calls.length < MockedHost.maxRecordedCalls := by omega
    have hAll : (calls ++ [(msg, input)]).take MockedHost.maxRecordedCalls =
        calls ++ [(msg, input)] := List.take_of_length_le (by
          rw [List.length_append]
          exact hShort)
    constructor
    · rw [List.take_of_length_le hShort.le] at hKept
      rw [hCalls, hAll]
      exact List.rel_append hKept (.cons hLast .nil)
    · have hCopies := h.copies
      rw [← MockedHost.preparedInputs_items] at hCopies
      rw [hCalls, hInputs, List.length_append, List.length_singleton]
      split
      · rw [Sequence.emplaceBack_items, List.length_append, List.length_singleton]
        exact Nat.succ_le_succ hCopies
      · exact hCopies.trans (Nat.le_succ _)
    · intro _
      rw [hInputs]
      split
      · rw [Sequence.emplaceBack_of_lt hRoom]
        exact hCapacity
      · exact hCapacity
  · simp only [hRecords, false_and, ↓reduceIte] at hInputs hCalls
    have hNonempty : host.recordedCalls.items ≠ [] := fun hEmpty => by
      rw [hEmpty] at hRecords
      exact hRecords (by decide)
    rw [MockedHost.preparedInputs_of_recorded hNonempty] at hInputs
    constructor
    · rw [hCalls, hInputs, List.take_append_of_le_length (by omega)]
      exact h.recorded
    · rw [hCalls, hInputs]
      exact h.copies
    · rw [hCalls, hInputs]
      exact h.capacity

/-- Before any call nothing is recorded. -/
theorem of_fresh (hCalls : host.recordedCalls = {}) (hInputs : host.recordedCallsInputs = {}) :
    Recording [] host := by
  constructor
  · rw [hCalls]
    exact .nil
  · rw [hCalls, hInputs]
    exact Nat.le_refl _
  · intro hNonempty
    rw [hCalls] at hNonempty
    exact absurd rfl hNonempty

/-- What the callers do one step at a time keeps the record. -/
theorem step {session next : Session} {label : Option (Message × List UInt8)}
    (h : Recording calls session.host) (hStep : CallerStep session label next) :
    Recording (calls ++ label.toList) next.host := by
  cases hStep with
  | call hInput => exact h.call hInput.size
  | other hOther =>
      obtain ⟨hCalls, hInputs⟩ := session.host.step_recordedCalls hOther
      rw [Option.toList_none, List.append_nil]
      constructor
      · rw [hCalls, hInputs]
        exact h.recorded
      · rw [hCalls, hInputs]
        exact h.copies
      · rw [hCalls, hInputs]
        exact h.capacity
  | overwrite memory =>
      rw [Option.toList_none, List.append_nil]
      exact h

theorem run {start stop : Session} {labels : List (Option (Message × List UInt8))}
    (h : Recording calls start.host) (hRun : Path CallerStep start labels stop) :
    Recording (calls ++ labels.reduceOption) stop.host := by
  induction hRun generalizing calls with
  | nil =>
      rw [List.reduceOption_nil, List.append_nil]
      exact h
  | @cons _ _ _ label _ hStep _ ih =>
      have hRest := ih (h.step hStep)
      cases label with
      | none =>
          rw [Option.toList_none, List.append_nil] at hRest
          exact hRest
      | some passed =>
          rw [Option.toList_some, List.append_assoc] at hRest
          exact hRest

/-- No step moves a copy. -/
theorem step_moves {session next : Session} {label : Option (Message × List UInt8)}
    (h : Recording calls session.host) (hStep : CallerStep session label next)
    (hCopied : session.host.recordedCallsInputs.items ≠ []) :
    next.host.recordedCallsInputs.moves = session.host.recordedCallsInputs.moves := by
  cases hStep with
  | call hInput =>
      have hNonempty : session.host.recordedCalls.items ≠ [] := fun hEmpty => by
        have hCopies := h.copies
        rw [hEmpty] at hCopies
        exact hCopied (List.length_eq_zero_iff.mp (Nat.le_zero.mp hCopies))
      rw [MockedHost.call_recordedCallsInputs]
      split
      · rename_i hRecords
        rw [Sequence.emplaceBack_of_lt (h.room hRecords.1)]
        show session.host.preparedInputs.moves = session.host.recordedCallsInputs.moves
        rw [MockedHost.preparedInputs_of_recorded hNonempty]
      · rw [MockedHost.preparedInputs_of_recorded hNonempty]
  | other hOther => rw [(session.host.step_recordedCalls hOther).2]
  | overwrite memory => rfl

end Recording

/-- A recorded message as a reader of the record finds it: the message of the call, with
the bytes of its input behind the pointer if there are any. -/
structure Recorded (session : Session) (recorded : Message)
    (passed : Message × List UInt8) : Prop where
  message : recorded = { passed.1 with inputData := recorded.inputData }
  empty : passed.1.inputSize = 0 → recorded = passed.1
  input : 0 < passed.1.inputSize → session.pointee recorded.inputData = some passed.2

theorem Keeps.recorded {session : Session} {recorded : Message} {passed : Message × List UInt8}
    (h : Keeps session.host.recordedCallsInputs recorded passed) :
    Recorded session recorded passed where
  message := h.message
  empty := h.empty
  input hNonempty := by
    obtain ⟨index, moves, hPointer, hDeref⟩ := h.input hNonempty
    rw [hPointer]
    exact hDeref

/-- For every run of the callers from a host without records: the first calls, as many as
the record takes, are recorded in order with the bytes that were passed at the time. The
copies are not more than the recorded calls, nor than there is room for, and the next
step moves none of them. -/
theorem callRecording {host : MockedHost} (memory : Nat → List UInt8)
    (hCalls : host.recordedCalls = {}) (hInputs : host.recordedCallsInputs = {})
    {labels : List (Option (Message × List UInt8))} {stop : Session}
    (hRun : Path CallerStep ⟨host, memory⟩ labels stop) :
    stop.host.recordedCalls.items.length = min labels.reduceOption.length 100 ∧
      List.Forall₂ (Recorded stop) stop.host.recordedCalls.items (labels.reduceOption.take 100) ∧
      stop.host.recordedCallsInputs.items.length ≤ stop.host.recordedCalls.items.length ∧
      stop.host.recordedCallsInputs.items.length ≤ 100 ∧
      ∀ label next, CallerStep stop label next → stop.host.recordedCallsInputs.items ≠ [] →
        next.host.recordedCallsInputs.moves = stop.host.recordedCallsInputs.moves := by
  have hStop := (Recording.of_fresh hCalls hInputs).run hRun
  rw [List.nil_append] at hStop
  have hLength : stop.host.recordedCalls.items.length = min labels.reduceOption.length 100 :=
    hStop.length_recorded.trans (Nat.min_comm ..)
  have hCopies := hStop.copies
  exact ⟨hLength, hStop.recorded.imp fun _ _ hKeeps => hKeeps.recorded, hCopies, by omega,
    fun _ _ hStep hCopied => hStop.step_moves hStep hCopied⟩

/-- The bytes of an input are still there once the caller has overwritten its buffer. -/
theorem callRecording_overwritten :
    ∃ stop : Session, ∃ recorded, stop.memory 0 = [] ∧ stop.host.recordedCalls.items = [recorded] ∧
      stop.pointee recorded.inputData = some [10, 11, 12] := by
  let msg : Message := ⟨.call, 0, 0, 1, 0, 0, .caller 0, 3, 0, 0, 0⟩
  let start : Session := ⟨{}, fun _ => [10, 11, 12]⟩
  have hPasses : start.Passes msg [10, 11, 12] := ⟨rfl, fun _ => ⟨[10, 11, 12], rfl, rfl⟩⟩
  obtain ⟨hLength, hRecorded, _⟩ := callRecording start.memory rfl rfl
    (.cons (.call hPasses) (.cons (.overwrite fun _ => []) (.nil _)))
  obtain ⟨recorded, hRecords⟩ := List.length_eq_one_iff.mp hLength
  rw [hRecords] at hRecorded
  cases hRecorded with
  | cons hFirst _ => exact ⟨_, recorded, rfl, hRecords, hFirst.input (by decide)⟩

end Qrvmc
