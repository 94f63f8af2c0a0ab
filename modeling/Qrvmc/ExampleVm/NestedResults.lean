import Qrvmc.ExampleVm.HostAgreement

/-! What becomes of the results of nested calls. A host that keeps a record of the results
it returns looks like the host itself, and at the end of a run the results of the record
were released, in order and once each, if they have something to release. -/
namespace Qrvmc
open Semantics

variable {State Value : Type}

def onFirst (method : StateM State Value) : StateM (State × List RawResult) Value :=
  fun state => ((method state.1).1, ((method state.1).2, state.2))

/-- The host with a record of the results that its calls return. -/
def HostMethods.logged (methods : HostMethods State) : HostMethods (State × List RawResult) where
  accountExists addr := onFirst (methods.accountExists addr)
  getStorage addr key := onFirst (methods.getStorage addr key)
  setStorage addr key value := onFirst (methods.setStorage addr key value)
  getBalance addr := onFirst (methods.getBalance addr)
  getCodeSize addr := onFirst (methods.getCodeSize addr)
  getCodeHash addr := onFirst (methods.getCodeHash addr)
  copyCode addr codeOffset bufferData bufferSize :=
    onFirst (methods.copyCode addr codeOffset bufferData bufferSize)
  call msg input state :=
    let (result, host) := methods.call msg input state.1
    (result, (host, state.2 ++ [result]))
  getTxContext := onFirst methods.getTxContext
  getBlockHash blockNumber := onFirst (methods.getBlockHash blockNumber)
  emitLog addr data dataSize topics numTopics :=
    onFirst (methods.emitLog addr data dataSize topics numTopics)
  accessAccount addr := onFirst (methods.accessAccount addr)
  accessStorage addr key := onFirst (methods.accessStorage addr key)

/-- The world without the records. -/
def HostWorld.unlogged (world : HostWorld (State × List RawResult)) : HostWorld State where
  objects host := (world.objects host).1
  released := world.released

/-- The world with empty records. -/
def HostWorld.logging (world : HostWorld State) : HostWorld (State × List RawResult) where
  objects host := (world.objects host, [])
  released := world.released

/-- What a result of these fields owns. -/
def RawResult.owned (result : RawResult) : List RawResult :=
  if result.release ≠ none then [result] else []

theorem RawResult.destructor_eq (result : RawResult) (world : HostWorld State) :
    (result.destructor world).2 = { world with released := world.released ++ result.owned } := by
  unfold RawResult.destructor RawResult.owned
  split
  · rfl
  · exact congrArg (HostWorld.mk world.objects) (List.append_nil _).symm

/-- A method on an object of the logged world is one on the object behind it. -/
theorem HostWorld.unlogged_onHost (host : Nat) (method : StateM (State × List RawResult) Value)
    (acting : StateM State Value) (world : HostWorld (State × List RawResult))
    (hMethod : ∀ state, (method state).2.1 = (acting state.1).2) :
    (onHost host method world).2.unlogged = (onHost host acting world.unlogged).2 := by
  have hObjects : (onHost host method world).2.unlogged.objects =
      (onHost host acting world.unlogged).2.objects := by
    funext other
    change (Function.update world.objects host (method (world.objects host)).2 other).1 =
      Function.update world.unlogged.objects host (acting (world.objects host).1).2 other
    by_cases hOther : other = host
    · subst hOther
      rw [Function.update_self, Function.update_self, hMethod]
    · rw [Function.update_of_ne hOther, Function.update_of_ne hOther]
      rfl
  exact congrArg (HostWorld.mk · world.released) hObjects

namespace ExampleVm

variable {env : Environment State} {methods : HostMethods State}

/-- The environment in which the host keeps a record. -/
def Environment.logged (env : Environment State) (methods : HostMethods State) :
    Environment (State × List RawResult) where
  host := getInterface methods.logged
  context := env.context
  msg := env.msg
  input := env.input
  code := env.code
  malloc := env.malloc
  outputData world := env.outputData world.unlogged

theorem logged_call (hHost : env.host = getInterface methods) (msg : Message) (input : List UInt8)
    (world : HostWorld (State × List RawResult)) :
    ((env.logged methods).host.call env.context msg input world).1 =
        (env.host.call env.context msg input world.unlogged).1 ∧
      ((env.logged methods).host.call env.context msg input world).2.unlogged =
        (env.host.call env.context msg input world.unlogged).2 := by
  have hCall : (getInterface methods).call env.context msg input =
      onHost env.context (methods.call msg input) :=
    internal.call_eq methods env.context msg input
  have hLogged : (env.logged methods).host.call env.context msg input =
      onHost env.context (methods.logged.call msg input) :=
    internal.call_eq methods.logged env.context msg input
  rw [hHost, hCall, hLogged]
  exact ⟨rfl, HostWorld.unlogged_onHost _ _ _ _ fun _ => rfl⟩

theorem logged_supplied (hHost : env.host = getInterface methods) (hSupplied : Supplied env) :
    Supplied (env.logged methods) where
  input := hSupplied.input
  output msg input world := by
    obtain ⟨hResult, hWorld⟩ := logged_call hHost msg input world
    have hOutput := hSupplied.output msg input world.unlogged
    rw [← hResult, ← hWorld] at hOutput
    exact hOutput

/-- The record makes no difference to the instructions. -/
theorem logged_agrees (hHost : env.host = getInterface methods) (instructions : List Instruction) :
    HostsAgree env (env.logged methods) (fun first second => first = second.unlogged)
      instructions where
  recipient := rfl
  input _ := rfl
  malloc := rfl
  getTxContext first second hWorlds := by
    subst hWorlds
    rw [hHost]
    exact ⟨rfl, (HostWorld.unlogged_onHost _ _ _ _ fun _ => rfl).symm⟩
  getStorage key first second hWorlds := by
    subst hWorlds
    rw [hHost]
    exact ⟨rfl, (HostWorld.unlogged_onHost _ _ _ _ fun _ => rfl).symm⟩
  setStorage key value first second hWorlds := by
    subst hWorlds
    rw [hHost]
    exact (HostWorld.unlogged_onHost _ _ _ _ fun _ => rfl).symm
  call _ msg input first second hWorlds := by
    subst hWorlds
    obtain ⟨hResult, hWorld⟩ := logged_call hHost msg input second
    change SameAnswer _ ((env.logged methods).host.call env.context msg input second).1 ∧
      Answered _ _ _ _ ((env.logged methods).host.call env.context msg input second).1 _
        ((env.logged methods).host.call env.context msg input second).2
    rw [hResult, ← hWorld]
    refine ⟨⟨Iff.rfl, rfl⟩, rfl, ?_⟩
    rw [RawResult.destructor_eq, RawResult.destructor_eq]
    rfl

section Ledger

variable {initial : List RawResult}

/-- What was released, and what is still owed, is what was released at the start and what
the results of the record own. -/
def Ledger (context : Nat) (initial owed : List RawResult)
    (world : HostWorld (State × List RawResult)) : Prop :=
  world.released ++ owed = initial ++ (world.objects context).2.flatMap RawResult.owned

/-- What an operation does to the world is nothing. -/
def KeepsWorld {State Value : Type} (program : Meaning State Value) : Prop :=
  ∀ view value next, program view = .ok (value, next) → next.world = view.world

theorem KeepsWorld.triple {State Value : Type} {program : Meaning State Value}
    (h : KeepsWorld program) (holds : HostWorld State → Prop) :
    Triple (fun _ : Fault => False) (fun view => holds view.world) program
      fun _ view => holds view.world := by
  intro view hHolds
  cases hProgram : program view with
  | error fault => exact id
  | ok outcome =>
      have hSame := h view outcome.1 outcome.2 hProgram
      change holds outcome.2.world
      rw [hSame]
      exact hHolds

theorem keepsWorld_pop : KeepsWorld (Meaning.pop : Meaning State Nat) := by
  intro view value next h
  unfold Meaning.pop at h
  split at h
  · cases h
  · cases h
    rfl

theorem keepsWorld_push (n : Nat) : KeepsWorld (Meaning.push n : Meaning State Unit) := by
  intro view value next h
  unfold Meaning.push at h
  split at h
  · cases h
    rfl
  · cases h

theorem View.claim_world (view : View State) (offset length : Nat) :
    (view.claim offset length).2.world = view.world := by
  simp only [View.claim]
  split
  · rfl
  · rfl

theorem keepsWorld_claim (offset length : Nat) :
    KeepsWorld (Meaning.claim offset length : Meaning State Bool) := by
  intro view value next h
  have hNext : (view.claim offset length).2 = next := congrArg Prod.snd (Except.ok.inj h)
  rw [← hNext]
  exact view.claim_world offset length

theorem keepsWorld_load (offset length : Nat) :
    KeepsWorld (Meaning.load offset length : Meaning State (List UInt8)) := by
  intro view value next h
  unfold Meaning.load at h
  split at h
  · cases h
    rfl
  · cases h

theorem keepsWorld_store (offset : Nat) (bytes : List UInt8) :
    KeepsWorld (Meaning.store offset bytes : Meaning State Bool) := by
  intro view value next h
  have hClaim := view.claim_world offset bytes.length
  unfold Meaning.store at h
  split at h
  · rename_i hRefused
    cases h
    rw [hRefused] at hClaim
    exact hClaim
  · rename_i hGranted
    rw [hGranted] at hClaim
    split at h
    · cases h
      exact hClaim
    · cases h

/-- Before and after an instruction nothing is owed. -/
abbrev LedgerTriple {Value : Type} (context : Nat) (initial : List RawResult)
    (program : Meaning (State × List RawResult) Value) : Prop :=
  Triple (fun _ : Fault => False) (fun view => Ledger context initial [] view.world) program
    fun _ view => Ledger context initial [] view.world

theorem KeepsWorld.ledger {Value : Type} {context : Nat}
    {program : Meaning (State × List RawResult) Value} (h : KeepsWorld program) :
    LedgerTriple context initial program :=
  h.triple _

theorem ledger_return {Value : Type} {context : Nat} (value : Value) :
    LedgerTriple context initial (pure value : Meaning (State × List RawResult) Value) :=
  Triple.pure fun _ h => h

/-- A method that returns no result leaves the record as it is. -/
theorem ledger_host {Value : Type} {context : Nat} (method : StateM State Value) :
    LedgerTriple context initial (Meaning.host (onHost context (onFirst method))) := by
  intro view h
  change view.world.released ++ [] =
    initial ++ (Function.update view.world.objects context _ context).2.flatMap RawResult.owned
  rw [Function.update_self]
  exact h

/-- A call owes what its result owns. -/
theorem ledger_answer {context : Nat} (msg : Message) (input : List UInt8) :
    Triple (fun _ : Fault => False) (fun view => Ledger context initial [] view.world)
      (Meaning.host ((getInterface methods.logged).call context msg input))
      fun result view => Ledger context initial result.owned view.world := by
  have hCall : (getInterface methods.logged).call context msg input =
      onHost context (methods.logged.call msg input) :=
    internal.call_eq methods.logged context msg input
  intro view h
  rw [hCall]
  change view.world.released ++ _ =
    initial ++ (Function.update view.world.objects context _ context).2.flatMap RawResult.owned
  rw [Function.update_self]
  have hOpen : view.world.released =
      initial ++ (view.world.objects context).2.flatMap RawResult.owned := by
    rw [← h, List.append_nil]
  have hRecord : ((view.world.objects context).2 ++
        [(methods.call msg input (view.world.objects context).1).1]).flatMap RawResult.owned =
      (view.world.objects context).2.flatMap RawResult.owned ++
        (methods.call msg input (view.world.objects context).1).1.owned := by
    rw [List.flatMap_append, List.flatMap_singleton]
  rw [hOpen, List.append_assoc]
  exact congrArg (initial ++ ·) hRecord.symm

theorem ledger_release {context : Nat} (result : RawResult) :
    Triple (fun _ : Fault => False) (fun view => Ledger context initial result.owned view.world)
      (Meaning.host result.destructor)
      fun _ view => Ledger context initial ([] : List RawResult)
        (view : View (State × List RawResult)).world := by
  intro view h
  change Ledger context initial [] (result.destructor view.world).2
  rw [RawResult.destructor_eq]
  exact (List.append_nil _).trans h

/-- The part of a call behind the answer of the host. -/
theorem ledger_answered (env : Environment State) (result : RawResult) (offset length : Nat) :
    Triple (fun _ : Fault => False) (fun view => Ledger env.context initial result.owned view.world)
      (do
        Meaning.push (if result.statusCode = .success then 1 else 0)
        let view ← get
        let _ ← Meaning.store offset (((env.logged methods).outputData view.world result).take
          (min length result.outputSize))
        Meaning.host result.destructor
        return (none : Option Ending))
      fun _ view => Ledger env.context initial [] view.world := by
  have hStore (bytes : List UInt8) :
      Triple (fun _ : Fault => False)
        (fun view => Ledger env.context initial result.owned view.world)
        (do
          let _ ← Meaning.store offset bytes
          Meaning.host result.destructor
          return (none : Option Ending))
        fun _ (view : View (State × List RawResult)) =>
          Ledger env.context initial [] view.world := by
    apply ((keepsWorld_store _ _).triple _).bind
    intro _
    apply (ledger_release result).bind
    intro _
    exact ledger_return none
  apply ((keepsWorld_push _).triple _).bind
  intro _
  apply Triple.get_bind
  intro view hOwed
  apply (hStore _).strengthen
  rintro current rfl
  exact hOwed

theorem ledger_call (env : Environment State) :
    LedgerTriple env.context initial (Meaning.call (env.logged methods)) := by
  unfold Meaning.call
  apply (keepsWorld_pop.ledger).bind
  intro gas
  apply (keepsWorld_pop.ledger).bind
  intro recipient
  apply (keepsWorld_pop.ledger).bind
  intro value
  apply (keepsWorld_pop.ledger).bind
  intro inputOffset
  apply (keepsWorld_pop.ledger).bind
  intro inputLength
  apply ((keepsWorld_claim _ _).ledger).bind
  intro inputGranted
  apply (keepsWorld_pop.ledger).bind
  intro outputOffset
  apply (keepsWorld_pop.ledger).bind
  intro outputLength
  apply ((keepsWorld_claim _ _).ledger).bind
  intro outputGranted
  apply Triple.ite
  · intro _
    apply ((keepsWorld_load _ _).ledger).bind
    intro input
    apply (ledger_answer _ _).bind
    intro result
    exact ledger_answered env result _ _
  · intro _
    exact ledger_return _

theorem ledger_push_return {context : Nat} (n : Nat) :
    LedgerTriple context initial
      (Meaning.push n >>= fun _ => pure (none : Option Ending) :
        Meaning (State × List RawResult) (Option Ending)) := by
  apply ((keepsWorld_push n).ledger).bind
  intro _
  exact ledger_return none

theorem ledger_finish (env : Environment State) (statusCode : StatusCode) (offset length : Nat) :
    LedgerTriple env.context initial
      (Meaning.finish (env.logged methods) statusCode offset length) := by
  unfold Meaning.finish
  apply Triple.ite
  · intro _
    exact ledger_return _
  · intro _
    apply Triple.ite
    · intro _
      exact ledger_return _
    · intro _
      apply ((keepsWorld_load _ _).ledger).bind
      intro output
      exact ledger_return _

theorem ledger_perform (env : Environment State) (instruction : Instruction) :
    LedgerTriple env.context initial (Meaning.perform (env.logged methods) instruction) := by
  cases instruction with
  | stop => exact ledger_return _
  | add =>
      apply (keepsWorld_pop.ledger).bind
      intro a
      apply (keepsWorld_pop.ledger).bind
      intro b
      exact ledger_push_return _
  | address => exact ledger_push_return _
  | calldataload =>
      apply (keepsWorld_pop.ledger).bind
      intro offset
      exact ledger_push_return _
  | number =>
      apply (ledger_host methods.getTxContext).bind
      intro txContext
      exact ledger_push_return _
  | mstore =>
      apply (keepsWorld_pop.ledger).bind
      intro offset
      apply (keepsWorld_pop.ledger).bind
      intro value
      apply ((keepsWorld_store _ _).ledger).bind
      intro granted
      apply Triple.ite
      · intro _
        exact ledger_return _
      · intro _
        exact ledger_return _
  | sload =>
      apply (keepsWorld_pop.ledger).bind
      intro key
      apply (ledger_host (methods.getStorage _ _)).bind
      intro value
      exact ledger_push_return _
  | sstore =>
      apply (keepsWorld_pop.ledger).bind
      intro key
      apply (keepsWorld_pop.ledger).bind
      intro value
      apply (ledger_host (methods.setStorage _ _ _)).bind
      intro status
      exact ledger_return _
  | msize =>
      apply Triple.get_bind
      intro view h
      apply (ledger_push_return _).strengthen
      rintro current rfl
      exact h
  | push immediate => exact ledger_push_return _
  | cutOff => exact Triple.throw id
  | dup1 =>
      apply (keepsWorld_pop.ledger).bind
      intro top
      apply ((keepsWorld_push _).ledger).bind
      intro _
      exact ledger_push_return _
  | call => exact ledger_call env
  | output statusCode =>
      apply (keepsWorld_pop.ledger).bind
      intro offset
      apply (keepsWorld_pop.ledger).bind
      intro length
      apply ((keepsWorld_claim _ _).ledger).bind
      intro granted
      apply Triple.ite
      · intro _
        apply (ledger_finish env _ _ _).bind
        intro ending
        exact ledger_return _
      · intro _
        exact ledger_return _
  | undefined => exact ledger_return _

/-- At the end of a run nothing is owed. -/
theorem ledger_run (env : Environment State) (instructions : List Instruction) (gas : Nat)
    {view : View (State × List RawResult)} (h : Ledger env.context initial [] view.world)
    {result : ExecutionResult} {final : HostWorld (State × List RawResult)}
    (hRun : Meaning.run (env.logged methods) instructions gas view = .ok (result, final)) :
    Ledger env.context initial [] final := by
  induction instructions generalizing gas view with
  | nil =>
      cases hRun
      exact h
  | cons instruction rest ih =>
      cases gas with
      | zero =>
          cases hRun
          exact h
      | succ gas =>
          have hStep := @ledger_perform _ methods _ env instruction view h
          rw [Meaning.run] at hRun
          cases hPerform : Meaning.perform (env.logged methods) instruction view with
          | error fault =>
              rw [hPerform] at hRun
              cases hRun
          | ok answer =>
              obtain ⟨ending, next⟩ := answer
              rw [hPerform] at hRun hStep
              cases ending with
              | some ending =>
                  cases hRun
                  exact hStep
              | none => exact ih gas hStep hRun

end Ledger

/-- In every run, the results that nested calls returned are released in order, once each.
The record of them is kept by a host that otherwise does and answers what the host does. -/
theorem nested_results_released (hHost : env.host = getInterface methods)
    (hLength : env.code.length < 2 ^ 64) (hGas : 0 ≤ env.msg.gas) (hSupplied : Supplied env)
    {world : HostWorld State} {result : ExecutionResult} {machine : Machine State}
    (h : execute env world = .ok (result, machine)) :
    ∃ final : Machine (State × List RawResult),
      execute (env.logged methods) world.logging = .ok (result, final) ∧
      final.world.unlogged = machine.world ∧
      machine.world.released =
        world.released ++ (final.world.objects env.context).2.flatMap RawResult.owned := by
  have hLogged : (env.logged methods).code.length < 2 ^ 64 := hLength
  have hLoggedGas : 0 ≤ (env.logged methods).msg.gas := hGas
  have hMeaning := execute_meaning hLogged hLoggedGas (logged_supplied hHost hSupplied) world.logging
  have hAlike : Alike (fun first second => first = second.unlogged)
      ((execute env world).map observed) ((execute (env.logged methods) world.logging).map observed) :=
    execute_alike hLength hGas hSupplied (logged_supplied hHost hSupplied) rfl rfl
      (logged_agrees hHost _) rfl
  rw [h] at hAlike
  cases hRun : execute (env.logged methods) world.logging with
  | error fault =>
      rw [hRun] at hAlike
      cases hAlike
  | ok outcome =>
      obtain ⟨answer, final⟩ := outcome
      rw [hRun] at hAlike hMeaning
      obtain ⟨rfl, hWorld⟩ : result = answer ∧ machine.world = final.world.unlogged := by
        cases hAlike with
        | returned value hWorlds => exact ⟨rfl, hWorlds⟩
      have hLedger : Ledger env.context world.released [] final.world :=
        ledger_run env _ _ (List.append_nil _ |>.trans (List.append_nil _).symm) hMeaning.symm
      refine ⟨final, rfl, hWorld.symm, ?_⟩
      rw [hWorld, ← hLedger, List.append_nil]
      rfl

/-- A mocked host whose nested calls return something to release. -/
def owingWorld : HostWorld MockedHost where
  objects _ := { callResult := { release := some 1 } }

theorem nested_results_released_call :
    ∃ (result : ExecutionResult) (machine : Machine MockedHost)
      (final : Machine (MockedHost × List RawResult)),
      execute (testEnvironment 8 (List.replicate 7 0x59 ++ [0xf1]) []) owingWorld =
          .ok (result, machine) ∧
        execute ((testEnvironment 8 (List.replicate 7 0x59 ++ [0xf1]) []).logged
          MockedHost.methods) owingWorld.logging = .ok (result, final) ∧
        final.world.unlogged = machine.world ∧
        machine.world.released = [] ++ (final.world.objects 0).2.flatMap RawResult.owned := by
  have hOk : (execute (testEnvironment 8 (List.replicate 7 0x59 ++ [0xf1]) []) owingWorld).isOk =
      true := by
    decide +kernel
  obtain ⟨result, machine, hRun⟩ := ok_of_isOk hOk
  obtain ⟨final, hFinal⟩ := nested_results_released rfl (by decide) (by decide)
    (testEnvironment_supplied ..) hRun
  exact ⟨result, machine, final, hRun, hFinal⟩

end ExampleVm
end Qrvmc
