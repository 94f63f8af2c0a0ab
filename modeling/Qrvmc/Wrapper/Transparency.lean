import Qrvmc.Semantics.Component
import Qrvmc.Wrapper.Interface

/-! Calls through the C boundary against calls on the host object. Both machines
give the same answers, and the boundary changes nothing but the object behind the
pointer. The mocked host is one such object. -/
namespace Qrvmc
open Semantics

variable {State Value : Type}

/-- The context of a VM that runs against a host object. -/
def HostMethods.context (methods : HostMethods State) (host : Nat) : HostContext State :=
  ⟨getInterface methods, toContext host⟩

/-- A result that gave up its resources releases nothing. -/
theorem RawResult.destructor_released (this : RawResult) :
    (this.releaseRaw.2.destructor : StateM (HostWorld State) Unit) = pure () := rfl

theorem internal.call_eq (methods : HostMethods State) (h : Nat) (msg : Message)
    (input : List UInt8) : internal.call methods h msg input = onHost h (methods.call msg input) := by
  simp only [internal.call, RawResult.destructor_released, pure_bind]
  exact bind_pure _

/-- Each forwarder reaches the method of its name with its arguments in order. -/
theorem HostContext.perform_eq (methods : HostMethods State) (host : Nat) (op : HostOp) :
    (methods.context host).perform op = onHost host (methods.perform op) := by
  funext world
  cases op with
  | call msg input =>
      have hCall : (methods.context host).call msg input = onHost host (methods.call msg input) :=
        internal.call_eq methods host msg input
      rw [HostContext.perform, hCall]
      rfl
  | _ => rfl

theorem HostContext.step_eq (methods : HostMethods State) (host : Nat) (world : HostWorld State)
    (op : HostOp) :
    (methods.context host).step world op =
      ({ world with
          objects := Function.update world.objects host (methods.step (world.objects host) op).1 },
        (methods.step (world.objects host) op).2) := by
  rw [HostContext.step, HostContext.perform_eq]
  rfl

/-- The host object is a component of the world that answers every call. -/
def HostMethods.component (methods : HostMethods State) (host : Nat) :
    Component (methods.context host).step methods.step where
  view world := world.objects host
  select := some
  frame _ _ hSelect := by cases hSelect
  tracks world op query hSelect := by
    cases hSelect
    rw [HostContext.step_eq]
    exact Function.update_self _ _ _
  embed := id
  answers world op query hSelect := by
    cases hSelect
    rw [HostContext.step_eq]
    rfl

/-- Outside the host object the world stays as it is. -/
theorem HostContext.finish_frame (methods : HostMethods State) (host : Nat)
    (world : HostWorld State) (ops : List HostOp) :
    (∀ other, other ≠ host →
      (finish (methods.context host).step world ops).objects other = world.objects other) ∧
    (finish (methods.context host).step world ops).released = world.released := by
  apply finish_invariant (methods.context host).step (fun reached =>
    (∀ other, other ≠ host → reached.objects other = world.objects other) ∧
      reached.released = world.released)
  · intro reached op hReached
    rw [HostContext.step_eq]
    refine ⟨fun other hOther => ?_, hReached.2⟩
    exact (Function.update_of_ne hOther _ _).trans (hReached.1 other hOther)
  · exact ⟨fun _ _ => rfl, rfl⟩

/-- Every sequence of calls through a host context has the answers that the methods
of the host give, and leaves the host in the same state. Nothing else changes, and
no result is released on the way. -/
theorem hostContext_transparent (methods : HostMethods State) (host : Nat)
    (world : HostWorld State) (ops : List HostOp) :
    transcript (methods.context host).step world ops =
      transcript methods.step (world.objects host) ops ∧
    (finish (methods.context host).step world ops).objects host =
      finish methods.step (world.objects host) ops ∧
    (∀ other, other ≠ host →
      (finish (methods.context host).step world ops).objects other = world.objects other) ∧
    (finish (methods.context host).step world ops).released = world.released := by
  have hAnswers := (methods.component host).selected_transcript world ops
  have hState := (methods.component host).view_finish world ops
  simp only [Component.selected, HostMethods.component, Option.map_some, List.filterMap_some,
    List.filterMap_eq_map', id, List.map_id'] at hAnswers hState
  exact ⟨hAnswers, hState, HostContext.finish_frame methods host world ops⟩

/-- The mocked host as a host class. A log and a copy of code take as much of a
buffer as its size tells. -/
def MockedHost.methods : HostMethods MockedHost where
  accountExists addr host := (host.accountExists addr).swap
  getStorage addr key host := (host.getStorage addr key).swap
  setStorage addr key value host := (host.setStorage addr key value).swap
  getBalance addr host := (host.getBalance addr).swap
  getCodeSize addr host := (host.getCodeSize addr).swap
  getCodeHash addr host := (host.getCodeHash addr).swap
  copyCode addr codeOffset bufferData bufferSize host :=
    let (host, copied, buffer) := host.copyCode addr codeOffset (bufferData.take bufferSize)
    ((copied, buffer ++ bufferData.drop bufferSize), host)
  call msg input host := (host.call msg input).swap
  getTxContext host := host.getTxContext.swap
  getBlockHash blockNumber host := (host.getBlockHash blockNumber).swap
  emitLog addr data dataSize topics numTopics host :=
    ((), host.emitLog addr (data.take dataSize) (topics.take numTopics))
  accessAccount addr host := (host.accessAccount addr).swap
  accessStorage addr key host := (host.accessStorage addr key).swap

/-- The call of the mocked host that an operation makes. -/
def HostOp.hostCall : HostOp → HostCall
  | .accountExists addr => .accountExists addr
  | .getStorage addr key => .getStorage addr key
  | .setStorage addr key value => .setStorage addr key value
  | .getBalance addr => .getBalance addr
  | .getCodeSize addr => .getCodeSize addr
  | .getCodeHash addr => .getCodeHash addr
  | .copyCode addr codeOffset bufferData bufferSize =>
      .copyCode addr codeOffset (bufferData.take bufferSize)
  | .call msg input => .call msg input
  | .getTxContext => .getTxContext
  | .getBlockHash blockNumber => .getBlockHash blockNumber
  | .emitLog addr data dataSize topics numTopics =>
      .emitLog addr (data.take dataSize) (topics.take numTopics)
  | .accessAccount addr => .accessAccount addr
  | .accessStorage addr key => .accessStorage addr key

theorem MockedHost.methods_step (host : MockedHost) (op : HostOp) :
    (MockedHost.methods.step host op).1 = (MockedHost.step host op.hostCall).1 := by
  cases op <;> rfl

end Qrvmc
