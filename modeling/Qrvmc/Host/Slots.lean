import Qrvmc.Host.Steps
import Qrvmc.Semantics.Component

/-! One storage slot. The three methods that take a slot act on it as a machine
of its own, and no other call touches it. The host is therefore, for each slot,
that small machine run on the calls that name the slot. -/
namespace Qrvmc
open Containers Semantics

inductive SlotQuery where
  | get
  | set (value : Bytes32)
  | access
  deriving DecidableEq

inductive SlotReply where
  | value (value : Bytes32)
  | status (status : StorageStatus)
  | access (status : AccessStatus)

/-- The value a query writes. -/
def SlotQuery.written : SlotQuery → Option Bytes32
  | .set value => some value
  | _ => none

/-- What the three methods do to the slot they are given. -/
def slotStep : Step StorageValue SlotQuery SlotReply
  | slot, .get => (slot, .value slot.current)
  | slot, .set value =>
      ({ slot with current := value },
        .status (storageStatus slot.original slot.current value).status)
  | slot, .access => ({ slot with accessStatus := .warm }, .access slot.accessStatus)

theorem slotStep_original (slot : StorageValue) (query : SlotQuery) :
    (slotStep slot query).1.original = slot.original := by
  cases query <;> rfl

/-- The original value of a slot is the same in every state of a run. -/
theorem finish_slotStep_original (slot : StorageValue) (queries : List SlotQuery) :
    (finish slotStep slot queries).original = slot.original := by
  apply finish_invariant slotStep (fun reached => reached.original = slot.original)
  · intro reached query hReached
    rw [slotStep_original, hReached]
  · rfl

/-- A run leaves the last value written, or the first one where none was written. -/
theorem finish_slotStep_current (slot : StorageValue) (queries : List SlotQuery) :
    (finish slotStep slot queries).current =
      (queries.filterMap SlotQuery.written).getLast?.getD slot.current := by
  induction queries generalizing slot with
  | nil => rfl
  | cons query rest ih =>
      rw [finish_cons, ih]
      cases query with
      | get => rfl
      | access => rfl
      | set value =>
          rw [List.filterMap_cons_some (f := SlotQuery.written) (b := value) rfl,
            List.getLast?_cons, Option.getD_some]
          rfl

/-- A slot is warm after a run when it was before or the run accessed it. -/
theorem finish_slotStep_warm (slot : StorageValue) (queries : List SlotQuery) :
    (finish slotStep slot queries).accessStatus = .warm ↔
      slot.accessStatus = .warm ∨ .access ∈ queries := by
  induction queries generalizing slot with
  | nil => simp
  | cons query rest ih =>
      rw [finish_cons, ih]
      cases query <;> simp [slotStep]

/-- The query a call makes to the slot of the given address and key, if any. -/
def HostCall.onSlot (addr : Address) (key : Bytes32) : HostCall → Option SlotQuery
  | .getStorage calledAddr calledKey =>
      if addr = calledAddr ∧ key = calledKey then some .get else none
  | .setStorage calledAddr calledKey value =>
      if addr = calledAddr ∧ key = calledKey then some (.set value) else none
  | .accessStorage calledAddr calledKey =>
      if addr = calledAddr ∧ key = calledKey then some .access else none
  | _ => none

def HostAnswer.ofSlot : SlotReply → HostAnswer
  | .value value => .getStorage value
  | .status status => .setStorage status
  | .access status => .accessStorage status

/-- Calls on other slots, and calls on no slot, leave the slot as it is. -/
theorem storageEntry_step_of_none (addr : Address) (key : Bytes32) (host : MockedHost)
    (call : HostCall) (h : call.onSlot addr key = none) :
    (host.step call).1.storageEntry addr key = host.storageEntry addr key := by
  cases call with
  | setStorage calledAddr calledKey value =>
      apply MockedHost.storageEntry_assignStorage_of_ne
      simpa [HostCall.onSlot] using h
  | accessStorage calledAddr calledKey =>
      apply MockedHost.storageEntry_assignStorage_of_ne
      simpa [HostCall.onSlot] using h
  | call msg input =>
      obtain ⟨calls, inputs, hCall⟩ := host.call_fst msg input
      simp only [MockedHost.step, Prod.map_fst, id, hCall]
      rfl
  | _ => simp [MockedHost.step, MockedHost.getTxContext, MockedHost.getBlockHash,
      MockedHost.emitLog, MockedHost.storageEntry]

/-- A call on the slot changes it and answers as the slot alone would. -/
theorem step_of_onSlot (addr : Address) (key : Bytes32) (host : MockedHost) (call : HostCall)
    (query : SlotQuery) (h : call.onSlot addr key = some query) :
    (host.step call).1.storageEntry addr key = (slotStep (host.storageEntry addr key) query).1 ∧
      (host.step call).2 = .ofSlot (slotStep (host.storageEntry addr key) query).2 := by
  cases call with
  | getStorage calledAddr calledKey =>
      obtain ⟨⟨rfl, rfl⟩, rfl⟩ := by simpa [HostCall.onSlot] using h
      simp [MockedHost.step, slotStep, HostAnswer.ofSlot, MockedHost.getStorage_snd]
  | setStorage calledAddr calledKey value =>
      obtain ⟨⟨rfl, rfl⟩, rfl⟩ := by simpa [HostCall.onSlot] using h
      simp [MockedHost.step, slotStep, HostAnswer.ofSlot, MockedHost.setStorage]
  | accessStorage calledAddr calledKey =>
      obtain ⟨⟨rfl, rfl⟩, rfl⟩ := by simpa [HostCall.onSlot] using h
      simp [MockedHost.step, slotStep, HostAnswer.ofSlot, MockedHost.accessStorage]
  | _ => cases h

/-- The slot of an address and a key, as a component of the host. -/
def slotComponent (addr : Address) (key : Bytes32) : Component MockedHost.step slotStep where
  view host := host.storageEntry addr key
  select := HostCall.onSlot addr key
  embed := .ofSlot
  frame := storageEntry_step_of_none addr key
  tracks host call query hSelect := (step_of_onSlot addr key host call query hSelect).1
  answers host call query hSelect := (step_of_onSlot addr key host call query hSelect).2

/-- The queries that a run of calls makes to one slot. -/
def slotQueries (addr : Address) (key : Bytes32) (calls : List HostCall) : List SlotQuery :=
  calls.filterMap (HostCall.onSlot addr key)

/-- The answers that a run gives about one slot, each with its query. -/
def slotAnswers (addr : Address) (key : Bytes32) (entries : List (HostCall × HostAnswer)) :
    List (SlotQuery × HostAnswer) :=
  (slotComponent addr key).selected entries

theorem storageEntry_finish (host : MockedHost) (calls : List HostCall) (addr : Address)
    (key : Bytes32) :
    (finish MockedHost.step host calls).storageEntry addr key =
      finish slotStep (host.storageEntry addr key) (slotQueries addr key calls) :=
  (slotComponent addr key).view_finish host calls

/-- After any run, a slot reads as last written, keeps its original value, and is
warm exactly when it was or was accessed. All answers about it are a function of
the initial slot and of the calls on it. -/
theorem slot_refinement (host : MockedHost) (calls : List HostCall) (addr : Address)
    (key : Bytes32) :
    let final := finish MockedHost.step host calls
    let slot := host.storageEntry addr key
    let queries := slotQueries addr key calls
    (final.getStorage addr key).2 =
        (queries.filterMap SlotQuery.written).getLast?.getD slot.current ∧
      (final.storageEntry addr key).original = slot.original ∧
      ((final.accessStorage addr key).2 = .warm ↔ slot.accessStatus = .warm ∨ .access ∈ queries) ∧
      slotAnswers addr key (transcript MockedHost.step host calls) =
        (transcript slotStep slot queries).map fun entry => (entry.1, .ofSlot entry.2) := by
  intro final slot queries
  have hFinal : final.storageEntry addr key = finish slotStep slot queries :=
    storageEntry_finish host calls addr key
  have hAnswers : slotAnswers addr key (transcript MockedHost.step host calls) =
      (transcript slotStep slot queries).map fun entry => (entry.1, .ofSlot entry.2) :=
    (slotComponent addr key).selected_transcript host calls
  refine ⟨?_, ?_, ?_, hAnswers⟩
  · rw [MockedHost.getStorage_snd, hFinal, finish_slotStep_current]
  · rw [hFinal, finish_slotStep_original]
  · rw [← finish_slotStep_warm, ← hFinal]
    rfl

end Qrvmc
