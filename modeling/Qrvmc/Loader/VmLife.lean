import Qrvmc.Loader.World
import Qrvmc.Semantics.Path

/-! The life of a VM instance during one call of the loader. Modules are opened before
it is created. It is created once, used while it lives, configured only when its ABI
is compatible, and destroyed at most once. What a trace contains follows from its
being a path of this machine. -/
namespace Qrvmc
open Semantics

inductive VmState where
  | absent
  | live (vm : Vm)
  | gone (vm : Vm)

namespace Event

/-- The file that an event asks the dynamic linker for. -/
def opened : Event → Option CText
  | .dllOpen filename _ => some filename
  | _ => none

/-- The instance that an event creates. -/
def created : Event → Option Vm
  | .create _ vm => vm
  | _ => none

/-- The instance that an event destroys. -/
def destroyed : Event → Option Vm
  | .destroy vm => some vm
  | _ => none

/-- The instance that an event uses: reads, configures or destroys. -/
def used : Event → Option Vm
  | .readVm vm => some vm
  | .setOption vm _ _ _ => some vm
  | .destroy vm => some vm
  | _ => none

end Event

/-- One event in the life of an instance. -/
inductive VmStep : VmState → Event → VmState → Prop where
  | other {state : VmState} {event : Event} (hOpened : event.opened = none)
      (hCreated : event.created = none) (hUsed : event.used = none) : VmStep state event state
  | search {filename : CText} {handle : Option DllHandle} :
      VmStep .absent (.dllOpen filename handle) .absent
  | create {createFn : CreateFn} {vm : Vm} :
      VmStep .absent (.create createFn (some vm)) (.live vm)
  | read {vm : Vm} : VmStep (.live vm) (.readVm vm) (.live vm)
  | setOption {vm : Vm} {name value : CText} {answer : Int32}
      (hCompatible : vm.abiVersion = qrvmcAbiVersion) :
      VmStep (.live vm) (.setOption vm name value answer) (.live vm)
  | destroy {vm : Vm} : VmStep (.live vm) (.destroy vm) (.gone vm)

/-- The instances that a state has seen created. -/
def VmState.created : VmState → List Vm
  | .absent => []
  | .live vm => [vm]
  | .gone vm => [vm]

/-- The instances that a state has seen destroyed. -/
def VmState.destroyed : VmState → List Vm
  | .absent => []
  | .live _ => []
  | .gone vm => [vm]

/-- The instance that is alive, if any. -/
def VmState.alive : VmState → Option Vm
  | .live vm => some vm
  | _ => none

variable {start stop : VmState} {events : List Event}

/-- The creations of a path are those its last state has seen. -/
theorem created_of_path (h : Path VmStep start events stop) :
    start.created ++ events.filterMap Event.created = stop.created := by
  induction h with
  | nil => simp
  | cons hStep _ ih =>
      rw [← ih]
      cases hStep with
      | other _ hCreated => rw [List.filterMap_cons_none hCreated]
      | _ => rfl

theorem destroyed_eq_none_of_used {event : Event} (h : event.used = none) :
    event.destroyed = none := by
  cases event with
  | destroy vm => cases h
  | _ => rfl

/-- So are its destructions. -/
theorem destroyed_of_path (h : Path VmStep start events stop) :
    start.destroyed ++ events.filterMap Event.destroyed = stop.destroyed := by
  induction h with
  | nil => simp
  | cons hStep _ ih =>
      rw [← ih]
      cases hStep with
      | other _ _ hUsed => rw [List.filterMap_cons_none (destroyed_eq_none_of_used hUsed)]
      | _ => rfl

/-- Once there is an instance, no file is opened. -/
theorem opened_of_path (h : Path VmStep start events stop) (hStart : start ≠ .absent) :
    events.filterMap Event.opened = [] := by
  induction h with
  | nil => rfl
  | cons hStep _ ih =>
      cases hStep with
      | other hOpened =>
          rw [List.filterMap_cons_none hOpened]
          exact ih hStart
      | read => exact ih hStart
      | setOption => exact ih hStart
      | destroy => exact ih (fun hAbsent => by cases hAbsent)
      | _ => exact absurd rfl hStart

/-- Nothing uses an instance once it is destroyed. -/
theorem used_eq_none_of_gone {vm : Vm} (h : Path VmStep (.gone vm) events stop) :
    ∀ event ∈ events, event.used = none := by
  generalize hStart : VmState.gone vm = start at h
  induction h with
  | nil => simp
  | cons hStep _ ih =>
      cases hStep with
      | other _ _ hUsed =>
          intro event hEvent
          rcases List.mem_cons.mp hEvent with hHead | hTail
          · rw [hHead, hUsed]
          · exact ih hStart event hTail
      | _ => cases hStart

/-- On a path from the start of a call, the created instance is destroyed if and
only if it is not alive at the end, and then used no more. Options are set on it
while it lives, and only if its ABI is compatible. -/
theorem vm_life (h : Path VmStep .absent events stop) :
    (events.filterMap Event.created).length =
        (events.filterMap Event.destroyed).length + stop.alive.toList.length ∧
      (∀ vm, stop.alive = some vm →
        events.filterMap Event.created = [vm] ∧ events.filterMap Event.destroyed = []) ∧
      (∀ before vm after, events = before ++ .destroy vm :: after →
        ∀ event ∈ after, event.used = none) ∧
      ∀ before vm name value answer after,
        events = before ++ .setOption vm name value answer :: after →
        vm.abiVersion = qrvmcAbiVersion ∧ before.filterMap Event.created = [vm] ∧
          before.filterMap Event.destroyed = [] := by
  have hCreated : events.filterMap Event.created = stop.created := created_of_path h
  have hDestroyed : events.filterMap Event.destroyed = stop.destroyed := destroyed_of_path h
  refine ⟨?_, ?_, ?_, ?_⟩
  · rw [hCreated, hDestroyed]
    cases stop <;> rfl
  · intro vm hAlive
    rw [hCreated, hDestroyed]
    cases stop with
    | live other =>
        cases hAlive
        exact ⟨rfl, rfl⟩
    | _ => cases hAlive
  · intro before vm after hSplit
    subst hSplit
    obtain ⟨_, _, _, hStep, hAfter⟩ := h.split_cons
    cases hStep with
    | other _ _ hUsed => cases hUsed
    | destroy => exact used_eq_none_of_gone hAfter
  · intro before vm name value answer after hSplit
    subst hSplit
    obtain ⟨_, _, hBefore, hStep, _⟩ := h.split_cons
    cases hStep with
    | other _ _ hUsed => cases hUsed
    | setOption hCompatible =>
        exact ⟨hCompatible, created_of_path hBefore, destroyed_of_path hBefore⟩

end Qrvmc
