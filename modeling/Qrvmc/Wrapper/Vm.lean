import Qrvmc.Ownership.Heap
import Qrvmc.Types.Basic

/-! The VM class of the C++ API, a pointer to a VM instance that it destroys. An
instance is named by a number, and the null pointer is no instance. Configuring an
instance reads its method table, which null does not have. -/
namespace Qrvmc
open Ownership

/-- The `set_option` method of each instance that has one, with its answers. -/
abbrev VmMethods := Nat → Option (List CChar → List CChar → Int32)

/-- `qrvmc_set_option`. -/
def qrvmcSetOption (methods : VmMethods) (vm : Option Nat) (name value : List CChar) : Exec Int32 :=
  match vm with
  | none => .error .nullDereference
  | some vm =>
      match methods vm with
      | some setOption => .ok (setOption name value)
      | none => .ok 1

abbrev VmHeap := Heap (Option Nat) Nat

abbrev VmCode := Code (Option Nat) Nat

namespace VM
open Code

/-- `VM(qrvmc_vm* vm)`. The default constructor stores null. -/
def ofRaw (vm : Option Nat) : VmCode Unit := do
  record vm
  construct vm

/-- `~VM()`. -/
def destructor (this : Nat) : VmCode Unit := do
  match ← load this with
  | some vm => dispose vm
  | none => return

/-- `VM(VM&& other)`. -/
def moveConstruct (other : Nat) : VmCode Unit := do
  construct (← load other)
  store other none

/-- `operator=(VM&& other)`. -/
def moveAssign (this other : Nat) : VmCode Unit := do
  destructor this
  store this (← load other)
  store other none

/-- The end of a wrapper's lifetime. -/
def destroy (this : Nat) : VmCode Unit := do
  destructor this
  retire this

/-- The loop of the constructor with options. The answers are ignored. -/
def setOptions (methods : VmMethods) (vm : Option Nat) : List (List CChar × List CChar) → Exec Unit
  | [] => .ok ()
  | option :: rest => do
      let _ ← qrvmcSetOption methods vm option.1 option.2
      setOptions methods vm rest

end VM

inductive VmOp where
  | default
  | ofRaw (vm : Option Nat)
  | ofOptions (vm : Option Nat) (options : List (List CChar × List CChar))
  | moveConstruct (other : Nat)
  | moveAssign (this other : Nat)
  | destroy (this : Nat)

/-- Perform one statement. It may end in undefined behaviour. -/
def VmOp.exec (methods : VmMethods) : VmOp → VmCode (Exec Unit)
  | .default => do
      VM.ofRaw none
      return .ok ()
  | .ofRaw vm => do
      VM.ofRaw vm
      return .ok ()
  | .ofOptions vm options => do
      VM.ofRaw vm
      return VM.setOptions methods vm options
  | .moveConstruct other => do
      VM.moveConstruct other
      return .ok ()
  | .moveAssign this other => do
      VM.moveAssign this other
      return .ok ()
  | .destroy this => do
      VM.destroy this
      return .ok ()

/-- The pointer that a statement adopts. -/
def VmOp.pointer : VmOp → Option Nat
  | .ofRaw vm | .ofOptions vm _ => vm
  | _ => none

/-- Programs adopt no instance that a wrapper owns. -/
def VmOp.Allowed (heap : VmHeap) (op : VmOp) : Prop :=
  ∀ vm, op.pointer = some vm → some (some vm) ∉ heap.objects

instance (heap : VmHeap) (op : VmOp) : Decidable (op.Allowed heap) :=
  match h : op.pointer with
  | none => .isTrue fun vm hVm => by rw [h] at hVm; cases hVm
  | some vm => decidable_of_iff (some (some vm) ∉ heap.objects)
      ⟨fun hFree other hOther => by rw [h] at hOther; cases hOther; exact hFree,
        fun hAllowed => hAllowed vm h⟩

/-- A program over wrappers, which ends where its behaviour is undefined. There is
no outcome if it is no program: when it uses an object whose lifetime is over, or
adopts an instance that a wrapper owns. -/
def runVms (methods : VmMethods) : List VmOp → VmCode (Exec Unit)
  | [] => return .ok ()
  | op :: rest => do
      if op.Allowed (← get) then
        match ← op.exec methods with
        | .ok () => runVms methods rest
        | .error undefined => return .error undefined
      else failure

/-- A wrapper owns the instance it points to. -/
def vmDiscipline : Discipline (Option Nat) Nat where
  owned vm := vm
  disown _ := none
  owned_disown _ := rfl
  disown_disown _ := rfl

end Qrvmc
