import Mathlib.Algebra.Order.Group.Int
import Mathlib.Algebra.Order.Ring.Int
import Qrvmc.Host.Slots
import Qrvmc.Semantics.Component

/-! Gas for the statuses of a run of writes to one slot. What is charged and not
refunded depends only on the number of writes, the original value and the last
one, and refunds never fall below zero. -/
namespace Qrvmc
open Semantics

/-- The status of any write is the entry of the table for what the slot holds, and
the assertions on the way to it hold. -/
theorem setStorage_status (host : MockedHost) (addr : Address) (key value : Bytes32) :
    let slot := host.storageEntry addr key
    let run := storageStatus slot.original slot.current value
    (host.setStorage addr key value).2 = run.status ∧
      statusByChecks (slot.original ≠ slot.current) (slot.original = value)
        (slot.current ≠ 0) (value ≠ 0) = some (host.setStorage addr key value).2 ∧
      ∀ entry ∈ run.asserts, entry.2 = true ∧ entry.1 ≠ .otherCombinationsImpossible := by
  intro slot run
  have hStatus : (host.setStorage addr key value).2 = run.status := rfl
  refine ⟨hStatus, ?_, storageStatus_asserts slot.original slot.current value⟩
  rw [hStatus]
  exact storageStatus_table slot.original slot.current value

/-- The four amounts that the columns of the storage documentation are made of. -/
structure GasSchedule where
  warmAccess : Int
  sset : Int
  sreset : Int
  sclear : Int

namespace GasSchedule

/-- The column of gas costs. -/
def cost (gas : GasSchedule) : StorageStatus → Int
  | .assigned => gas.warmAccess
  | .added => gas.sset
  | .deleted => gas.sreset
  | .modified => gas.sreset
  | .deletedAdded => gas.warmAccess
  | .modifiedDeleted => gas.warmAccess
  | .deletedRestored => gas.warmAccess
  | .addedDeleted => gas.warmAccess
  | .modifiedRestored => gas.warmAccess

/-- The column of gas refunds. -/
def refund (gas : GasSchedule) : StorageStatus → Int
  | .assigned => 0
  | .added => 0
  | .deleted => gas.sclear
  | .modified => 0
  | .deletedAdded => -gas.sclear
  | .modifiedDeleted => gas.sclear
  | .deletedRestored => -gas.sclear + gas.sreset - gas.warmAccess
  | .addedDeleted => gas.sset - gas.warmAccess
  | .modifiedRestored => gas.sreset - gas.warmAccess

/-- What a slot has cost beyond its accesses, from its original and current value. -/
def potential (gas : GasSchedule) (original current : Bytes32) : Int :=
  if current = original then 0
  else if original = 0 then gas.sset - gas.warmAccess
  else if current = 0 then gas.sreset - gas.warmAccess - gas.sclear
  else gas.sreset - gas.warmAccess

/-- The refund that a later write to the slot may take back. -/
def reserve (gas : GasSchedule) (original current : Bytes32) : Int :=
  if original ≠ 0 ∧ current = 0 then gas.sclear else 0

/-- One write pays for its access and for the change of the potential. -/
theorem cost_sub_refund (gas : GasSchedule) (original current value : Bytes32) :
    gas.cost (storageStatus original current value).status -
        gas.refund (storageStatus original current value).status =
      gas.warmAccess + (gas.potential original value - gas.potential original current) := by
  rw [storageStatus_eq]
  grind [cost, refund, potential]

/-- One write refunds at least as much as it lets later writes take back. -/
theorem reserve_le (gas : GasSchedule) (hSet : gas.warmAccess ≤ gas.sset)
    (hReset : gas.warmAccess ≤ gas.sreset) (original current value : Bytes32) :
    gas.reserve original value ≤
      gas.refund (storageStatus original current value).status + gas.reserve original current := by
  rw [storageStatus_eq]
  grind [refund, reserve]

end GasSchedule

/-- The original and the current value of a slot under writes alone. -/
def writeStep : Step (Bytes32 × Bytes32) Bytes32 StorageStatus
  | (original, current), value =>
      ((original, value), (storageStatus original current value).status)

/-- Reading a slot and accessing it leave both values as they are. -/
def writeComponent : Component slotStep writeStep where
  view slot := (slot.original, slot.current)
  select := SlotQuery.written
  embed := .status
  frame slot query hSelect := by
    cases query with
    | set value => cases hSelect
    | _ => rfl
  tracks slot query value hSelect := by
    cases query with
    | set written =>
        cases hSelect
        rfl
    | _ => cases hSelect
  answers slot query value hSelect := by
    cases query with
    | set written =>
        cases hSelect
        rfl
    | _ => cases hSelect

theorem finish_writeStep (original current : Bytes32) (writes : List Bytes32) :
    finish writeStep (original, current) writes = (original, writes.getLast?.getD current) := by
  induction writes generalizing current with
  | nil => rfl
  | cons value rest ih =>
      rw [finish_cons, List.getLast?_cons, Option.getD_some]
      exact ih value

/-- The values that a run of calls writes to one slot. -/
def slotWrites (addr : Address) (key : Bytes32) (calls : List HostCall) : List Bytes32 :=
  (slotQueries addr key calls).filterMap SlotQuery.written

/-- The statuses that a run returned for its writes to one slot. -/
def slotStatuses (addr : Address) (key : Bytes32) (entries : List (HostCall × HostAnswer)) :
    List StorageStatus :=
  entries.filterMap fun entry =>
    match entry with
    | (.setStorage calledAddr calledKey _, .setStorage status) =>
        if addr = calledAddr ∧ key = calledKey then some status else none
    | _ => none

/-- The original and the current value of a slot, as a component of the host. -/
def slotWriteComponent (addr : Address) (key : Bytes32) : Component MockedHost.step writeStep :=
  (slotComponent addr key).trans writeComponent

def HostAnswer.storageStatus? : HostAnswer → Option StorageStatus
  | .setStorage status => some status
  | _ => none

theorem slotStatuses_eq (addr : Address) (key : Bytes32)
    (entries : List (HostCall × HostAnswer)) :
    slotStatuses addr key entries =
      ((slotWriteComponent addr key).selected entries).filterMap fun entry =>
        entry.2.storageStatus? := by
  rw [slotStatuses, Component.selected, List.filterMap_filterMap]
  congr 1
  funext entry
  obtain ⟨call, answer⟩ := entry
  simp only [slotWriteComponent, Component.trans, slotComponent, writeComponent]
  cases call with
  | setStorage calledAddr calledKey value =>
      by_cases hSlot : addr = calledAddr ∧ key = calledKey <;> cases answer <;>
        simp [HostCall.onSlot, SlotQuery.written, HostAnswer.storageStatus?, hSlot]
  | getStorage calledAddr calledKey =>
      by_cases hSlot : addr = calledAddr ∧ key = calledKey <;>
        simp [HostCall.onSlot, SlotQuery.written, hSlot]
  | accessStorage calledAddr calledKey =>
      by_cases hSlot : addr = calledAddr ∧ key = calledKey <;>
        simp [HostCall.onSlot, SlotQuery.written, hSlot]
  | _ => rfl

/-- The statuses of the writes to a slot are those of the slot's values alone. -/
theorem slotStatuses_transcript (host : MockedHost) (calls : List HostCall) (addr : Address)
    (key : Bytes32) :
    slotStatuses addr key (transcript MockedHost.step host calls) =
      (transcript writeStep ((host.storageEntry addr key).original,
        (host.storageEntry addr key).current) (slotWrites addr key calls)).map Prod.snd := by
  have hWrites : slotWrites addr key calls =
      calls.filterMap (slotWriteComponent addr key).select := List.filterMap_filterMap
  rw [slotStatuses_eq, Component.selected_transcript, hWrites, List.filterMap_map]
  exact congrFun (List.filterMap_eq_map (f := Prod.snd)) _

/-- From a clean slot, charges less refunds of any run come to the accesses of its
writes and the potential of the last value. No prefix of the refunds is negative. -/
theorem storage_gas_accounting (gas : GasSchedule) (host : MockedHost) (calls : List HostCall)
    (addr : Address) (key : Bytes32)
    (hClean : (host.storageEntry addr key).current = (host.storageEntry addr key).original) :
    let original := (host.storageEntry addr key).original
    let writes := slotWrites addr key calls
    let statuses := slotStatuses addr key (transcript MockedHost.step host calls)
    (statuses.map fun status => gas.cost status - gas.refund status).sum =
        writes.length * gas.warmAccess +
          gas.potential original (writes.getLast?.getD original) ∧
      (gas.warmAccess ≤ gas.sset → gas.warmAccess ≤ gas.sreset → 0 ≤ gas.sclear →
        ∀ count, 0 ≤ ((statuses.take count).map gas.refund).sum) := by
  intro original writes statuses
  have hStatuses : statuses = (transcript writeStep (original, original) writes).map Prod.snd :=
    (slotStatuses_transcript host calls addr key).trans (by rw [hClean])
  have hPotential : gas.potential original original = 0 := if_pos rfl
  refine ⟨?_, ?_⟩
  · have hTotal := total_transcript writeStep (fun _ status => gas.cost status - gas.refund status)
      (fun slot => gas.potential slot.1 slot.2) gas.warmAccess
      (fun slot value => gas.cost_sub_refund slot.1 slot.2 value) (original, original) writes
    rw [finish_writeStep, hPotential, sub_zero, nsmul_eq_mul] at hTotal
    rw [hStatuses, List.map_map]
    exact hTotal
  · intro hSet hReset hClear count
    have hReserve := reserve_le_total writeStep (fun _ status => gas.refund status)
      (fun slot => gas.reserve slot.1 slot.2)
      (fun slot value => gas.reserve_le hSet hReset slot.1 slot.2 value) (original, original)
      (writes.take count)
    have hStart : gas.reserve original original = 0 := if_neg fun h => h.1 h.2
    have hEnd : 0 ≤ gas.reserve original ((writes.take count).getLast?.getD original) := by
      unfold GasSchedule.reserve
      split_ifs
      · exact hClear
      · exact le_refl 0
    rw [finish_writeStep, hStart, add_zero, transcript_take] at hReserve
    rw [hStatuses, ← List.map_take, List.map_map]
    exact hEnd.trans hReserve

/-- A fresh slot set, accessed and cleared again has cost its two writes. -/
theorem storage_gas_added_deleted :
    let gas : GasSchedule := ⟨100, 20000, 2900, 4800⟩
    let value : Bytes32 := ⟨Vector.replicate 32 7⟩
    let statuses := slotStatuses 0 0 (transcript MockedHost.step {}
      [.setStorage 0 0 value, .accessStorage 0 0, .setStorage 0 value value, .setStorage 0 0 0])
    (statuses.map fun status => gas.cost status - gas.refund status).sum = 2 * 100 ∧
      ∀ count, 0 ≤ ((statuses.take count).map gas.refund).sum := by
  intro gas value statuses
  obtain ⟨hTotal, hRefunds⟩ := storage_gas_accounting gas {}
    [.setStorage 0 0 value, .accessStorage 0 0, .setStorage 0 value value, .setStorage 0 0 0]
    0 0 rfl
  exact ⟨hTotal.trans (by decide), hRefunds (by decide) (by decide) (by decide)⟩

end Qrvmc
