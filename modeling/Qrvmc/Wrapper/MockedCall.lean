import Qrvmc.Host.Steps
import Qrvmc.Wrapper.ResultOwnership

/-! Results of calls of the mocked host. Each call makes a result of the same raw one,
which the host keeps, so every result that a caller gets owns the same output and
releases it again. -/
namespace Qrvmc
open Ownership

/-- How a caller reaches the method: on the object, by the table of the C interface, or
by the host context of a VM. -/
inductive CallRoute where
  | direct
  | interface
  | context
  deriving DecidableEq

/-- What the caller gets for a result that the method returns. -/
def CallRoute.deliver (route : CallRoute) (returned : RawResult) : ResultCode Unit := do
  let this := (← get).objects.length
  Result.ofRaw (← Result.track returned)
  match route with
  | .direct => return
  | .interface => let _ ← internalCall this
  | .context => hostContextCall this

/-- `qrvmc_release_result`, on a structure that the caller does not use again. -/
def qrvmcReleaseResult (raw : Nat) : ResultCode Unit := do
  let result ← Code.handIn raw
  if result.release ≠ none then Code.dispose result

/-- A statement of a program that calls the mocked host and handles the results. -/
inductive CallerOp where
  | call (route : CallRoute) (msg : Message) (input : List UInt8)
  | moveConstruct (other : Nat)
  | moveAssign (this other : Nat)
  | releaseRaw (this : Nat)
  | rewrap (raw : Nat)
  | destroy (this : Nat)
  | releaseResult (raw : Nat)

namespace CallerOp

def exec : CallerOp → MockedHost × ResultHeap → Option (MockedHost × ResultHeap)
  | .call route msg input, (host, heap) =>
      let (host, returned) := host.call msg input
      (route.deliver returned heap).map fun outcome => (host, outcome.2)
  | .moveConstruct other, (host, heap) =>
      (Result.moveConstruct other heap).map fun outcome => (host, outcome.2)
  | .moveAssign this other, (host, heap) =>
      (Result.moveAssign this other heap).map fun outcome => (host, outcome.2)
  | .releaseRaw this, (host, heap) =>
      (Result.releaseRaw this heap).map fun outcome => (host, outcome.2)
  | .rewrap raw, (host, heap) =>
      (Result.rewrap raw heap).map fun outcome => (host, outcome.2)
  | .destroy this, (host, heap) =>
      (Result.destroy this heap).map fun outcome => (host, outcome.2)
  | .releaseResult raw, (host, heap) =>
      (qrvmcReleaseResult raw heap).map fun outcome => (host, outcome.2)

def isCall : CallerOp → Bool
  | .call _ _ _ => true
  | _ => false

end CallerOp

/-- A program of a caller, statement by statement. -/
def runCaller : List CallerOp → MockedHost × ResultHeap → Option (MockedHost × ResultHeap)
  | [], state => some state
  | op :: rest, state => (op.exec state).bind (runCaller rest)

/-- How often the release function was called for a raw result. -/
def releases (heap : ResultHeap) (res : RawResult) : Nat :=
  heap.disposed.countP fun disposed => disposed.toRawResult = res

/-- Every result that a caller got is destroyed or released. -/
def AllReleased (heap : ResultHeap) : Prop :=
  (∀ object ∈ heap.objects, object = none) ∧ ∀ raw ∈ heap.raws, raw = none

/-- The operations on owning objects that bring a result to the caller, once it is made. -/
def CallRoute.operations (heap : ResultHeap) : CallRoute → List (Op TrackedResult)
  | .direct => []
  | .interface => [.release heap.objects.length, .destroy heap.objects.length]
  | .context =>
      [.release heap.objects.length, .destroy heap.objects.length, .rewrap heap.raws.length]

theorem CallRoute.deliver_run (route : CallRoute) (returned : RawResult) (heap : ResultHeap) :
    route.deliver returned heap =
      (run resultDiscipline heap
        (.adopt ⟨returned, heap.adopted.length⟩ :: route.operations heap)).map
          fun next => ((), next) := by
  cases route with
  | direct => rfl
  | interface =>
      let made : ResultHeap :=
        { heap with
          objects := heap.objects ++ [some ⟨returned, heap.adopted.length⟩]
          adopted := heap.adopted ++ [⟨returned, heap.adopted.length⟩] }
      have hCall : CallRoute.interface.deliver returned heap =
          (internalCall heap.objects.length made).bind fun outcome => some ((), outcome.2) := rfl
      have hRun : run resultDiscipline heap
          (.adopt ⟨returned, heap.adopted.length⟩ :: CallRoute.interface.operations heap) =
          run resultDiscipline made (CallRoute.interface.operations heap) := rfl
      rw [hCall, hRun, internalCall_run, operations, Option.bind_map]
      exact Option.map_eq_bind.symm
  | context => exact hostContextCall_run _ _

/-- Releasing a structure is wrapping it and destroying the wrapper. -/
theorem qrvmcReleaseResult_run (raw : Nat) (heap : ResultHeap) :
    run resultDiscipline heap [.rewrap raw, .destroy heap.objects.length] =
      (qrvmcReleaseResult raw heap).map fun outcome =>
        { outcome.2 with objects := outcome.2.objects ++ [none] } := by
  rw [qrvmcReleaseResult, Code.handIn_bind, run_cons, step]
  cases hRaw : cellAt heap.raws raw with
  | none => rfl
  | some cell =>
      have hLast : cellAt (heap.objects ++ [some cell]) heap.objects.length = some cell :=
        cellAt_eq_some.mpr List.getElem?_concat_length
      have hRetired : (heap.objects ++ [some cell]).set heap.objects.length none =
          heap.objects ++ [none] := by simp
      change (run resultDiscipline { heap with
        objects := heap.objects ++ [some cell], raws := heap.raws.set raw none } _) = _
      rw [Option.bind_some, run_singleton, step]
      simp only [hLast, Option.bind_eq_bind, Option.bind_some, hRetired]
      by_cases hRelease : cell.release = none
      · rw [if_neg (not_not_intro hRelease), owned_of_null hRelease, Option.toList_none,
          List.append_nil]
        rfl
      · rw [if_pos hRelease, owned_of_release hRelease]
        rfl

/-- What holds while results are handled: all that is adopted are copies of the raw
result of the host, one for each call. -/
structure Delivered (res : RawResult) (count : Nat) (state : MockedHost × ResultHeap) : Prop where
  callResult : state.1.callResult = res
  balanced : Balanced resultDiscipline state.2
  adopted : ∀ cell ∈ state.2.adopted, cell.toRawResult = res
  count : state.2.adopted.length = count

variable {res : RawResult} {count : Nat} {host : MockedHost} {heap next : ResultHeap}

/-- Operations that adopt nothing move or dispose of what was delivered. -/
theorem Delivered.handle (h : Delivered res count (host, heap)) {ops : List (Op TrackedResult)}
    (hOps : ops.flatMap Op.adopts = []) (hRun : run resultDiscipline heap ops = some next) :
    Delivered res count (host, next) := by
  have hAdopted := run_adopted resultDiscipline hRun
  rw [hOps, List.append_nil] at hAdopted
  have hSame := h.adopted
  have hCount := h.count
  simp only at hSame hCount
  rw [← hAdopted] at hSame hCount
  exact ⟨h.callResult, h.balanced.run hRun, hSame, hCount⟩

theorem CallRoute.operations_adopts (route : CallRoute) (heap : ResultHeap) :
    (route.operations heap).flatMap Op.adopts = [] := by
  cases route <;> rfl

/-- A call adopts one more copy. -/
theorem Delivered.call (h : Delivered res count (host, heap)) (route : CallRoute) (msg : Message)
    (input : List UInt8)
    (hRun : route.deliver (host.call msg input).2 heap = some ((), next)) :
    Delivered res (count + 1) ((host.call msg input).1, next) := by
  rw [CallRoute.deliver_run, host.call_snd] at hRun
  obtain ⟨reached, hReached, hNext⟩ := Option.map_eq_some_iff.mp hRun
  cases hNext
  have hAdopted := run_adopted resultDiscipline hReached
  rw [List.flatMap_cons, CallRoute.operations_adopts, List.append_nil] at hAdopted
  obtain ⟨calls, inputs, hHost⟩ := host.call_fst msg input
  constructor
  · rw [hHost]
    exact h.callResult
  · exact h.balanced.run hReached
  · intro cell hCell
    simp only [hAdopted, List.mem_append, Op.adopts, List.mem_singleton] at hCell
    rcases hCell with hBefore | rfl
    · exact h.adopted cell hBefore
    · exact h.callResult
  · simp only [hAdopted, List.length_append, Op.adopts, List.length_singleton]
    exact congrArg (· + 1) h.count

/-- Releasing a structure of the C interface leaves no wrapper. -/
theorem Delivered.releaseResult (h : Delivered res count (host, heap)) (raw : Nat)
    (hRun : qrvmcReleaseResult raw heap = some ((), next)) : Delivered res count (host, next) := by
  have hWrapped := qrvmcReleaseResult_run raw heap
  rw [hRun, Option.map_some] at hWrapped
  have hHandled := h.handle rfl hWrapped
  refine ⟨hHandled.callResult, ⟨?_, ?_, ?_⟩, hHandled.adopted, hHandled.count⟩
  · intro x
    have hConserved := hHandled.balanced.conserved x
    simp only [tally_append, tally_cons, share_none, tally_nil, Nat.add_zero] at hConserved
    exact hConserved
  · exact fun cell hCell => hHandled.balanced.objects cell (List.mem_append_left _ hCell)
  · exact hHandled.balanced.raws

/-- A statement that is one operation on owning objects. -/
theorem Delivered.handled {action : ResultCode Unit} {op : Op TrackedResult}
    {final : MockedHost × ResultHeap} (h : Delivered res count (host, heap))
    (hAdopts : op.adopts = [])
    (hAction : action heap = (step resultDiscipline heap op).map fun next => ((), next))
    (hExec : (action heap).map (fun outcome => (host, outcome.2)) = some final) :
    Delivered res count final := by
  rw [hAction, Option.map_map, Option.map_eq_some_iff] at hExec
  obtain ⟨reached, hReached, rfl⟩ := hExec
  have hOps : [op].flatMap Op.adopts = [] := by rw [List.flatMap_singleton, hAdopts]
  have hRun : run resultDiscipline heap [op] = some reached := by rw [run_singleton, hReached]
  exact h.handle hOps hRun

/-- What one statement does to what is delivered. -/
theorem Delivered.exec {op : CallerOp} {state final : MockedHost × ResultHeap}
    (h : Delivered res count state) (hExec : op.exec state = some final) :
    Delivered res (count + if op.isCall then 1 else 0) final := by
  obtain ⟨host, heap⟩ := state
  cases op with
  | call route msg input =>
      obtain ⟨outcome, hRun, rfl⟩ := Option.map_eq_some_iff.mp hExec
      exact h.call route msg input hRun
  | releaseResult raw =>
      obtain ⟨outcome, hRun, rfl⟩ := Option.map_eq_some_iff.mp hExec
      exact h.releaseResult raw hRun
  | moveConstruct other => exact h.handled rfl (Result.moveConstruct_run other) hExec
  | moveAssign this other => exact h.handled rfl (Result.moveAssign_run this other) hExec
  | releaseRaw this => exact h.handled rfl (Result.releaseRaw_run this) hExec
  | rewrap raw => exact h.handled rfl (Result.rewrap_run raw) hExec
  | destroy this => exact h.handled rfl (Result.destroy_run this) hExec

/-- How many calls of the method a program makes. -/
def callCount (program : List CallerOp) : Nat := program.countP CallerOp.isCall

theorem Delivered.runCaller {program : List CallerOp} {state final : MockedHost × ResultHeap}
    (h : Delivered res count state) (hRun : runCaller program state = some final) :
    Delivered res (count + callCount program) final := by
  induction program generalizing count state with
  | nil =>
      cases hRun
      exact h
  | cons op rest ih =>
      obtain ⟨reached, hExec, hRest⟩ := Option.bind_eq_some_iff.mp hRun
      have hFinal := ih (h.exec hExec) hRest
      rw [Nat.add_assoc, Nat.add_comm (if op.isCall then 1 else 0)] at hFinal
      rw [callCount, List.countP_cons]
      exact hFinal

theorem tally_dead {cells : List (Option TrackedResult)} (h : ∀ cell ∈ cells, cell = none)
    (x : TrackedResult) : tally resultDiscipline cells x = 0 :=
  tally_eq_zero resultDiscipline fun _ hMem => by cases h _ hMem

/-- When all results are released, each copy was released once. -/
theorem Delivered.disposed (h : Delivered res count (host, heap)) (hRelease : res.release ≠ none)
    (hDone : AllReleased heap) : heap.disposed.Perm heap.adopted := by
  have hOwning : ∀ cell ∈ heap.adopted, cell.release ≠ none := by
    intro cell hCell
    rw [h.adopted cell hCell]
    exact hRelease
  apply List.perm_iff_count.mpr
  intro x
  have hConserved := h.balanced.conserved x
  rw [tally_dead hDone.1, tally_dead hDone.2, Nat.zero_add] at hConserved
  rw [hConserved]
  by_cases hNull : x.release = none
  · have hAbsent : x ∉ heap.adopted := fun hMem => hOwning x hMem hNull
    rw [List.count_eq_zero_of_not_mem hAbsent]
    apply tally_eq_zero
    intro cell _ hOwned
    rw [eq_of_owned hOwned, owned_of_null hNull] at hOwned
    cases hOwned
  · rw [tally_eq_count _ (owned_iff hNull),
      List.count_map_of_injective _ _ (Option.some_injective _)]

/-- The release function is called once for every call of the method. -/
theorem Delivered.releases (h : Delivered res count (host, heap)) (hRelease : res.release ≠ none)
    (hDone : AllReleased heap) : releases heap res = count := by
  have hAll : ∀ cell ∈ heap.adopted, decide (cell.toRawResult = res) = true :=
    fun cell hCell => decide_eq_true (h.adopted cell hCell)
  rw [Qrvmc.releases, (h.disposed hRelease hDone).countP_eq, List.countP_eq_length.mpr hAll]
  exact h.count

/-- The output that the result of the host owns is released once for each call. So where
a caller disposes of every result that it gets, it is released at most once exactly if
there is at most one call. -/
theorem mocked_call_released_iff (host : MockedHost) (hRelease : host.callResult.release ≠ none)
    (program : List CallerOp) (final : MockedHost × ResultHeap)
    (hRun : runCaller program (host, {}) = some final) (hDone : AllReleased final.2) :
    releases final.2 host.callResult ≤ 1 ↔ callCount program ≤ 1 := by
  have hStart : Delivered host.callResult 0 (host, ({} : ResultHeap)) :=
    ⟨rfl, balanced_empty resultDiscipline, fun _ hNone => (List.not_mem_nil hNone).elim, rfl⟩
  have hFinal := hStart.runCaller hRun
  rw [Nat.zero_add] at hFinal
  obtain ⟨reached, heap⟩ := final
  rw [hFinal.releases hRelease hDone]

/-- The message of a call without input. -/
def plainMessage : Message :=
  { kind := .call, flags := 0, depth := 0, gas := 0, recipient := 0, sender := 0,
    inputData := .null, inputSize := 0, value := 0, create2Salt := 0, codeAddress := 0 }

/-- One result is moved after it has crossed the interface, and destroyed. -/
theorem mocked_call_released_once :
    ∃ final, runCaller [.call .context plainMessage [], .moveConstruct 1, .destroy 1, .destroy 2]
        ({ callResult := { release := some 7 } }, {}) = some final ∧
      releases final.2 { release := some 7 } ≤ 1 := by
  have hRun : ∃ final, runCaller
      [.call .context plainMessage [], .moveConstruct 1, .destroy 1, .destroy 2]
      ({ callResult := { release := some 7 } }, {}) = some final ∧
        final.2.objects = [none, none, none] ∧ final.2.raws = [none] := ⟨_, rfl, rfl, rfl⟩
  obtain ⟨final, hFinal, hObjects, hRaws⟩ := hRun
  have hDone : AllReleased final.2 := by
    rw [AllReleased, hObjects, hRaws]
    simp
  exact ⟨final, hFinal,
    (mocked_call_released_iff _ (by decide) _ final hFinal hDone).mpr (by decide)⟩

/-- Two calls give two owners of one output, and it is released by both. -/
theorem mocked_call_released_twice :
    ∃ final, runCaller [.call .direct plainMessage [], .call .interface plainMessage [],
        .destroy 0, .releaseResult 0] ({ callResult := { release := some 7 } }, {}) = some final ∧
      AllReleased final.2 ∧ releases final.2 { release := some 7 } = 2 := by
  have hRun : ∃ final, runCaller [.call .direct plainMessage [], .call .interface plainMessage [],
      .destroy 0, .releaseResult 0] ({ callResult := { release := some 7 } }, {}) = some final ∧
        final.2.objects = [none, none] ∧ final.2.raws = [none] ∧
        releases final.2 { release := some 7 } = 2 := ⟨_, rfl, rfl, rfl, rfl⟩
  obtain ⟨final, hFinal, hObjects, hRaws, hTwice⟩ := hRun
  refine ⟨final, hFinal, ?_, hTwice⟩
  rw [AllReleased, hObjects, hRaws]
  simp

end Qrvmc
