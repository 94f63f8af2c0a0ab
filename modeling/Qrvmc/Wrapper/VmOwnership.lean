import Mathlib.Data.Option.Basic
import Qrvmc.Wrapper.Vm

/-! Ownership of VM instances. Whatever is moved where, an adopted instance has one
wrapper until it is destroyed, once for each time it was adopted. Only configuring
null has no defined outcome. -/
namespace Qrvmc
open Ownership

/-- The operation on owning objects that a statement performs. -/
def VmOp.operation : VmOp → Op (Option Nat)
  | .default => .adopt none
  | .ofRaw vm | .ofOptions vm _ => .adopt vm
  | .moveConstruct other => .moveConstruct other
  | .moveAssign this other => .moveAssign this other
  | .destroy this => .destroy this

/-- Options are given to an instance or not at all. -/
def VmOp.Configurable : VmOp → Prop
  | .ofOptions vm options => vm = none → options = []
  | _ => True

namespace VM
open Code

variable {heap : VmHeap}

theorem destructor_run (this : Nat) :
    destructor this heap = (cellAt heap.objects this).map fun self => ((), { heap with
      disposed := heap.disposed ++ (vmDiscipline.owned self).toList }) := by
  rw [destructor, load_bind]
  cases cellAt heap.objects this with
  | none => rfl
  | some self =>
      cases self with
      | none =>
          show some ((), heap) = some ((), { heap with disposed := heap.disposed ++ [] })
          rw [List.append_nil]
      | some vm => rfl

theorem moveConstruct_run (other : Nat) :
    moveConstruct other heap =
      (step vmDiscipline heap (.moveConstruct other)).map fun next => ((), next) := by
  rw [moveConstruct, step, load_bind]
  cases cellAt heap.objects other <;> rfl

theorem moveAssign_run (this other : Nat) :
    moveAssign this other heap =
      (step vmDiscipline heap (.moveAssign this other)).map fun next => ((), next) := by
  rw [moveAssign, step, run_bind, destructor_run]
  cases cellAt heap.objects this with
  | none => rfl
  | some self =>
      rw [Option.map_some, Option.bind_some, load_bind]
      cases cellAt heap.objects other <;> rfl

theorem destroy_run (this : Nat) :
    destroy this heap =
      (step vmDiscipline heap (.destroy this)).map fun next => ((), next) := by
  rw [destroy, step, run_bind, destructor_run]
  cases cellAt heap.objects this <;> rfl

/-- An instance takes any list of options. -/
theorem setOptions_instance (methods : VmMethods) (vm : Nat)
    (options : List (List CChar × List CChar)) : setOptions methods (some vm) options = .ok () := by
  induction options with
  | nil => rfl
  | cons option rest ih =>
      have hAnswer : ∃ answer, qrvmcSetOption methods (some vm) option.1 option.2 = .ok answer := by
        cases hMethod : methods vm with
        | none => exact ⟨1, by rw [qrvmcSetOption, hMethod]⟩
        | some setOption => exact ⟨setOption option.1 option.2, by rw [qrvmcSetOption, hMethod]⟩
      obtain ⟨answer, hAnswer⟩ := hAnswer
      rw [setOptions, hAnswer]
      exact ih

end VM

/-- The class refines the operations on owning objects. -/
theorem VmOp.exec_run (methods : VmMethods) (op : VmOp) (heap : VmHeap) (h : op.Configurable) :
    op.exec methods heap =
      (step vmDiscipline heap op.operation).map fun next => (.ok (), next) := by
  cases op with
  | default => rfl
  | ofRaw vm => rfl
  | ofOptions vm options =>
      have hSet : VM.setOptions methods vm options = .ok () := by
        cases vm with
        | none => rw [h rfl]; rfl
        | some vm => exact VM.setOptions_instance methods vm options
      rw [exec, hSet]
      rfl
  | moveConstruct other =>
      rw [exec, Code.run_bind, VM.moveConstruct_run, operation]
      cases step vmDiscipline heap (.moveConstruct other) <;> rfl
  | moveAssign this other =>
      rw [exec, Code.run_bind, VM.moveAssign_run, operation]
      cases step vmDiscipline heap (.moveAssign this other) <;> rfl
  | destroy this =>
      rw [exec, Code.run_bind, VM.destroy_run, operation]
      cases step vmDiscipline heap (.destroy this) <;> rfl

/-- The slots that own an instance are those that point to it. -/
theorem vm_tally (cells : List (Option (Option Nat))) (vm : Nat) :
    tally vmDiscipline cells vm = cells.count (some (some vm)) := by
  apply tally_eq_count
  intro cell
  cases cell with
  | none => exact iff_of_false (fun h => by cases h) (fun h => by cases h)
  | some self => exact (Option.some_inj (a := self) (b := some vm)).symm

/-- What holds between any two statements. -/
structure Owners (heap : VmHeap) : Prop where
  balanced : Balanced vmDiscipline heap
  raws : heap.raws = []
  single : ∀ vm, heap.objects.count (some (some vm)) ≤ 1

theorem owners_empty : Owners {} where
  balanced := balanced_empty vmDiscipline
  raws := rfl
  single vm := by simp

theorem VmOp.operation_raws {op : VmOp} {heap next : VmHeap}
    (h : step vmDiscipline heap op.operation = some next) : next.raws = heap.raws := by
  cases op with
  | default | ofRaw | ofOptions =>
      obtain rfl := Option.some.inj h
      rfl
  | moveConstruct other | destroy other =>
      obtain ⟨cell, _, hNext⟩ := Option.bind_eq_some_iff.mp h
      obtain rfl := Option.some.inj hNext
      rfl
  | moveAssign this other =>
      obtain ⟨old, _, hRest⟩ := Option.bind_eq_some_iff.mp h
      obtain ⟨cell, _, hNext⟩ := Option.bind_eq_some_iff.mp hRest
      obtain rfl := Option.some.inj hNext
      rfl

/-- A statement adopts the pointer it names and nothing else. -/
theorem VmOp.operation_adopts (op : VmOp) (vm : Nat) :
    tally vmDiscipline (op.operation.adopts.map some) vm = if op.pointer = some vm then 1 else 0 := by
  cases op with
  | default | moveConstruct | moveAssign | destroy => rfl
  | ofRaw pointer | ofOptions pointer =>
      rw [vm_tally]
      exact List.count_singleton.trans (if_congr (by simp [VmOp.pointer]) rfl rfl)

theorem Owners.step {heap next : VmHeap} {op : VmOp} (h : Owners heap) (hAllowed : op.Allowed heap)
    (hStep : step vmDiscipline heap op.operation = some next) : Owners next where
  balanced := h.balanced.step hStep
  raws := (op.operation_raws hStep).trans h.raws
  single vm := by
    have hTally := h.balanced.tally_step hStep vm
    rw [op.operation_raws hStep, h.raws, op.operation_adopts, tally_nil, vm_tally, vm_tally] at hTally
    have hSingle := h.single vm
    by_cases hPointer : op.pointer = some vm
    · have hFree := List.count_eq_zero_of_not_mem (hAllowed vm hPointer)
      rw [if_pos hPointer] at hTally
      omega
    · rw [if_neg hPointer] at hTally
      omega

/-- What an owner of instances may rely on. An instance is destroyed after it was
adopted and before it is adopted again, and meanwhile one wrapper points to it. -/
structure Exclusive (heap : VmHeap) : Prop where
  holder : ∀ vm, heap.disposed.count vm < heap.adopted.count (some vm) →
    heap.objects.count (some (some vm)) = 1
  alive : ∀ (this vm : Nat), heap.objects[this]? = some (some (some vm)) →
    heap.disposed.count vm + 1 = heap.adopted.count (some vm)
  ended : (∀ object ∈ heap.objects, object = none) →
    ∀ vm, heap.disposed.count vm = heap.adopted.count (some vm)

theorem Owners.conserved {heap : VmHeap} (h : Owners heap) (vm : Nat) :
    heap.objects.count (some (some vm)) + heap.disposed.count vm =
      heap.adopted.count (some vm) := by
  have hConserved := h.balanced.conserved vm
  rw [h.raws, tally_nil, vm_tally, vm_tally,
    List.count_map_of_injective _ _ (Option.some_injective _)] at hConserved
  omega

theorem Owners.exclusive {heap : VmHeap} (h : Owners heap) : Exclusive heap where
  holder vm hAdopted := by
    have hConserved := h.conserved vm
    have hSingle := h.single vm
    omega
  alive this vm hAt := by
    have hConserved := h.conserved vm
    have hSingle := h.single vm
    have hHeld := List.count_pos_iff.mpr (List.mem_of_getElem? hAt)
    omega
  ended hDead vm := by
    have hConserved := h.conserved vm
    have hNone : some (some vm) ∉ heap.objects := fun hMem => by cases hDead _ hMem
    rw [List.count_eq_zero_of_not_mem hNone] at hConserved
    omega

theorem runVms_owners {methods : VmMethods} {program : List VmOp} {heap final : VmHeap}
    {outcome : Exec Unit} (h : Owners heap) (hConfigurable : ∀ op ∈ program, op.Configurable)
    (hRun : runVms methods program heap = some (outcome, final)) :
    outcome = .ok () ∧ Owners final := by
  induction program generalizing heap with
  | nil =>
      cases hRun
      exact ⟨rfl, h⟩
  | cons op rest ih =>
      rw [runVms, Code.run_bind_of _ (show (get : VmCode VmHeap) heap = some (heap, heap) from rfl)]
        at hRun
      by_cases hAllowed : op.Allowed heap
      · rw [if_pos hAllowed, Code.run_bind,
          op.exec_run methods heap (hConfigurable op List.mem_cons_self)] at hRun
        cases hStep : step vmDiscipline heap op.operation with
        | none =>
            rw [hStep] at hRun
            cases hRun
        | some next =>
            rw [hStep] at hRun
            exact ih (h.step hAllowed hStep)
              (fun other hMem => hConfigurable other (List.mem_cons_of_mem op hMem)) hRun
      · rw [if_neg hAllowed] at hRun
        cases hRun

/-- Wrappers own instances exclusively in every program that configures instances
only. Such a program has a defined outcome. -/
theorem vm_ownership (methods : VmMethods) (program : List VmOp) (outcome : Exec Unit)
    (heap : VmHeap) (hConfigurable : ∀ op ∈ program, op.Configurable)
    (hRun : runVms methods program {} = some (outcome, heap)) :
    outcome = .ok () ∧ Exclusive heap := by
  obtain ⟨hOutcome, hOwners⟩ := runVms_owners owners_empty hConfigurable hRun
  exact ⟨hOutcome, hOwners.exclusive⟩

/-- Two instances are adopted, one of them with an option. They change wrappers, and
one is assigned to itself. In the end each was destroyed once. -/
theorem vm_ownership_two :
    ∃ heap, runVms (fun _ => none) [.ofRaw (some 1), .ofOptions (some 2) [(lit "o", lit "1")],
        .default, .moveAssign 2 0, .moveConstruct 1, .moveAssign 3 3, .destroy 3, .destroy 2,
        .destroy 1, .destroy 0] {} = some (.ok (), heap) ∧
      heap.disposed.count 1 = 1 ∧ heap.disposed.count 2 = 1 := by
  let final : VmHeap :=
    { objects := [none, none, none, none], adopted := [some 1, some 2, none], disposed := [2, 1] }
  have hRun : runVms (fun _ => none) [.ofRaw (some 1), .ofOptions (some 2) [(lit "o", lit "1")],
      .default, .moveAssign 2 0, .moveConstruct 1, .moveAssign 3 3, .destroy 3, .destroy 2,
      .destroy 1, .destroy 0] {} = some (.ok (), final) := rfl
  obtain ⟨_, hExclusive⟩ := vm_ownership _ _ _ final (by simp [VmOp.Configurable]) hRun
  have hDead : ∀ object ∈ final.objects, object = none := by
    intro object hMem
    simpa [final] using hMem
  exact ⟨final, hRun, hExclusive.ended hDead 1, hExclusive.ended hDead 2⟩

/-- Configuring null is undefined, and an instance adopted before is never destroyed. -/
theorem options_on_null :
    (∃ heap, runVms (fun _ => none) [.ofRaw (some 1), .ofOptions none [(lit "o", lit "1")],
        .destroy 1, .destroy 0] {} = some (.error .nullDereference, heap) ∧
      heap.adopted.count (some 1) = 1 ∧ heap.disposed.count 1 = 0) ∧
    ¬∀ (methods : VmMethods) (program : List VmOp) (outcome : Exec Unit) (heap : VmHeap),
      runVms methods program {} = some (outcome, heap) → outcome = .ok () ∧ Exclusive heap := by
  have hRun : runVms (fun _ => none) [.ofRaw (some 1), .ofOptions none [(lit "o", lit "1")],
      .destroy 1, .destroy 0] {} = some (.error .nullDereference,
        { objects := [some (some 1), some none], adopted := [some 1, none] }) := rfl
  refine ⟨⟨_, hRun, rfl, rfl⟩, fun hAll => ?_⟩
  obtain ⟨hOutcome, _⟩ := hAll _ _ _ _ hRun
  cases hOutcome

end Qrvmc
