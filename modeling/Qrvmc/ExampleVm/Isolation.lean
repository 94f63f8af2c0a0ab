import Qrvmc.ExampleVm.ResultContract
import Qrvmc.Host.Slots

/-! What a run of the example VM changes in the accounts of the mocked host. The
accounts are those that the stores to storage leave, one after the other, whatever is
executed in between. Stores change current values of one account only. -/
namespace Qrvmc.ExampleVm
open Containers Semantics

variable {State : Type}

/-- The key and the value of the store that the instruction at the program counter
makes, if it is one. -/
def storeAt (env : Environment State) (machine : Machine State) : Option (Bytes32 × Bytes32) :=
  if env.code[machine.pc]? = some 0x55 then some (machine.stack.peek 0, machine.stack.peek 1)
  else none

/-- The stores that `execute` makes, in order. -/
def stores (env : Environment State) (world : HostWorld State) : List (Bytes32 × Bytes32) :=
  (instructions env world).flatMap fun machine => (storeAt env machine).toList

/-- The mocked host as a machine that answers stores to one account. -/
def storeStep (addr : Address) : Step MockedHost (Bytes32 × Bytes32) StorageStatus :=
  fun host store => host.setStorage addr store.1 store.2

variable {env : Environment MockedHost}

theorem onHost_accounts {Value : Type} (h : Nat) (method : StateM MockedHost Value)
    (hMethod : ∀ host, (method host).2.accounts = host.accounts) (world : HostWorld MockedHost) :
    ((onHost h method world).2.objects h).accounts = (world.objects h).accounts := by
  change (Function.update world.objects h (method (world.objects h)).2 h).accounts = _
  rw [Function.update_self, hMethod]

/-- No operation but a store to storage changes the accounts. -/
theorem stable_accounts (hHost : env.host = getInterface MockedHost.methods)
    (accounts : UnorderedMap Address MockedAccount) :
    Stable env fun machine => (machine.world.objects env.context).accounts = accounts where
  stack _ _ h := h
  expand _ _ _ h := h
  data _ _ h := h
  getTxContext machine h := by
    rw [hHost]
    exact (onHost_accounts env.context MockedHost.methods.getTxContext (fun _ => rfl)
      machine.world).trans h
  getStorage machine key h := by
    rw [hHost]
    refine (onHost_accounts env.context (MockedHost.methods.getStorage env.msg.recipient key)
      (fun host => ?_) machine.world).trans h
    have hFst : (host.getStorage env.msg.recipient key).1.accounts = host.accounts := by
      rw [MockedHost.getStorage_fst, MockedHost.recordAccountAccess_accounts]
    exact hFst
  call machine msg input h := by
    rw [hHost]
    have hCall : (getInterface MockedHost.methods).call env.context msg input =
        onHost env.context (MockedHost.methods.call msg input) :=
      internal.call_eq MockedHost.methods env.context msg input
    rw [hCall]
    refine (onHost_accounts env.context (MockedHost.methods.call msg input) (fun host => ?_)
      machine.world).trans h
    obtain ⟨calls, inputs, hFst⟩ := host.call_fst msg input
    have hSame : (host.call msg input).1.accounts = host.accounts := by rw [hFst]; rfl
    exact hSame
  release machine result h := by
    unfold RawResult.destructor
    split
    · exact h
    · exact h

/-- What a store does to the accounts depends on the accounts only. -/
theorem setStorage_accounts {first second : MockedHost} (addr : Address) (key value : Bytes32)
    (h : first.accounts = second.accounts) :
    (first.setStorage addr key value).1.accounts =
      (second.setStorage addr key value).1.accounts := by
  simp only [MockedHost.setStorage, MockedHost.assignStorage, MockedHost.storageEntry,
    MockedHost.recordAccountAccess_accounts, h]

/-- An instruction leaves the accounts as its store leaves them, if it makes one. -/
theorem dispatch_accounts (hHost : env.host = getInterface MockedHost.methods)
    {machine next : Machine MockedHost} {opcode : UInt8} {outcome : Option ExecutionResult}
    (hOpcode : env.code[machine.pc]? = some opcode)
    (h : dispatch env opcode machine.charged = .ok (outcome, next)) {host : MockedHost}
    (hSame : (machine.world.objects env.context).accounts = host.accounts) :
    (next.world.objects env.context).accounts =
      (finish (storeStep env.msg.recipient) host (storeAt env machine).toList).accounts := by
  by_cases hSstore : opcode = 0x55
  · subst hSstore
    rw [storeAt, if_pos hOpcode, Option.toList_some, finish_cons, finish_nil]
    rcases dispatch_sstore_cases env machine.charged with hFault | ⟨stack, hStore⟩
    · cases hFault.symm.trans h
    · cases hStore.symm.trans h
      rw [hHost]
      have hStored (key value : Bytes32) :
          (((getInterface MockedHost.methods).setStorage env.context env.msg.recipient key value
            machine.world).2.objects env.context) =
          ((machine.world.objects env.context).setStorage env.msg.recipient key value).1 :=
        Function.update_self ..
      exact (congrArg MockedHost.accounts (hStored _ _)).trans
        (setStorage_accounts env.msg.recipient _ _ hSame)
  · have hNone : env.code[machine.pc]? ≠ some 0x55 := by
      rw [hOpcode]
      exact fun hEqual => hSstore (Option.some.inj hEqual)
    have hCharged : (machine.charged.world.objects env.context).accounts = host.accounts := hSame
    rw [storeAt, if_neg hNone, Option.toList_none, finish_nil]
    exact holds_of_dispatch (stable_accounts hHost host.accounts) (fun _ _ hMachine => hMachine)
      (fun hEqual => absurd hEqual hSstore) hCharged h

/-- A run leaves the accounts as its stores leave them. -/
theorem Runs.accounts (hHost : env.host = getInterface MockedHost.methods)
    {machine final : Machine MockedHost} {machines : List (Machine MockedHost)}
    {result : ExecutionResult} {outcome : Except Fault (ExecutionResult × Machine MockedHost)}
    (h : Runs env machine machines outcome) (hOutcome : outcome = .ok (result, final))
    {host : MockedHost} (hSame : (machine.world.objects env.context).accounts = host.accounts) :
    (final.world.objects env.context).accounts =
      (finish (storeStep env.msg.recipient) host
        (machines.flatMap fun machine => (storeAt env machine).toList)).accounts := by
  induction h generalizing host with
  | finished =>
      cases hOutcome
      exact hSame
  | overflow => cases hOutcome
  | refused =>
      cases hOutcome
      exact hSame
  | failed => cases hOutcome
  | ended hOpcode _ hDispatch =>
      cases hOutcome
      rw [List.flatMap_singleton]
      exact dispatch_accounts hHost hOpcode hDispatch hSame
  | step hOpcode _ hDispatch rest ih =>
      rw [List.flatMap_cons, finish_append]
      exact ih hOutcome (dispatch_accounts hHost hOpcode hDispatch hSame)

/-- The values that the stores write under a key, in order. -/
def storedValues (stores : List (Bytes32 × Bytes32)) (key : Bytes32) : List Bytes32 :=
  (stores.filter fun store => store.1 = key).map Prod.snd

/-- The account is in the map and has the slot. -/
def HasSlot (host : MockedHost) (addr : Address) (key : Bytes32) : Prop :=
  ∃ account, host.accounts.find addr = some account ∧ (account.storage.find key).isSome

section Stores

variable (addr : Address) (host : MockedHost)

/-- One slot of the account, as stores to the account act on it. -/
def storeProjection (key : Bytes32) : Projection (storeStep addr) slotStep where
  view host := host.storageEntry addr key
  select store := if store.1 = key then some (.set store.2) else none
  frame host store hSelect := by
    have hKey : key ≠ store.1 := by
      rintro rfl
      simp at hSelect
    exact MockedHost.storageEntry_assignStorage_of_ne _ _ fun hSame => hKey hSame.2
  tracks host store query hSelect := by
    split at hSelect
    · rename_i hKey
      obtain rfl := Option.some.inj hSelect
      subst hKey
      exact MockedHost.storageEntry_assignStorage_self _ _ _ _
    · cases hSelect

theorem select_stores (key : Bytes32) (stores : List (Bytes32 × Bytes32)) :
    stores.filterMap (storeProjection addr key).select = (storedValues stores key).map .set := by
  unfold storedValues
  induction stores with
  | nil => rfl
  | cons store rest ih =>
      by_cases hKey : store.1 = key
      · have hSelect : (storeProjection addr key).select store = some (.set store.2) := if_pos hKey
        rw [List.filterMap_cons_some hSelect, List.filter_cons, if_pos (decide_eq_true hKey), ih]
        rfl
      · have hSelect : (storeProjection addr key).select store = none := if_neg hKey
        rw [List.filterMap_cons_none hSelect, List.filter_cons, if_neg (by simpa using hKey), ih]

/-- Queries that write change the current value only, to the last that is written. -/
theorem finish_slotStep_sets (slot : StorageValue) (values : List Bytes32) :
    finish slotStep slot (values.map .set) =
      { slot with current := values.getLast?.getD slot.current } := by
  induction values generalizing slot with
  | nil => rfl
  | cons value rest ih =>
      rw [List.map_cons, finish_cons, ih, List.getLast?_cons, Option.getD_some]
      rfl

/-- A slot of the account reads as last stored, and is else as it was. -/
theorem finish_storeStep_slot (key : Bytes32) (stores : List (Bytes32 × Bytes32)) :
    (finish (storeStep addr) host stores).storageEntry addr key =
      { host.storageEntry addr key with
        current :=
          (storedValues stores key).getLast?.getD (host.storageEntry addr key).current } := by
  have hView := (storeProjection addr key).view_finish host stores
  rw [select_stores, finish_slotStep_sets] at hView
  exact hView

/-- The accounts of others are as they were. -/
theorem finish_storeStep_other {other : Address} (hOther : other ≠ addr)
    (stores : List (Bytes32 × Bytes32)) :
    (finish (storeStep addr) host stores).accounts.find other = host.accounts.find other := by
  apply finish_invariant (storeStep addr) fun reached =>
    reached.accounts.find other = host.accounts.find other
  · intro reached store hReached
    exact (UnorderedMap.find_assign_of_ne _ _ hOther).trans hReached
  · rfl

/-- An account without its storage. -/
def bare (account : MockedAccount) : MockedAccount := { account with storage := default }

/-- Of the account the storage only changes. -/
theorem finish_storeStep_bare (stores : List (Bytes32 × Bytes32)) :
    bare ((finish (storeStep addr) host stores).accounts.entry addr) =
      bare (host.accounts.entry addr) := by
  apply finish_invariant (storeStep addr) fun reached =>
    bare (reached.accounts.entry addr) = bare (host.accounts.entry addr)
  · intro reached store hReached
    rw [← hReached]
    simp only [storeStep, MockedHost.setStorage, MockedHost.assignStorage, UnorderedMap.entry,
      UnorderedMap.find_assign_self, Option.getD_some]
    rfl
  · rfl

/-- The account is there if it was or a store creates it. -/
theorem finish_storeStep_isSome (stores : List (Bytes32 × Bytes32)) :
    ((finish (storeStep addr) host stores).accounts.find addr).isSome ↔
      (host.accounts.find addr).isSome ∨ stores ≠ [] := by
  induction stores generalizing host with
  | nil => simp
  | cons store rest ih =>
      have hCreated : (((storeStep addr) host store).1.accounts.find addr).isSome := by
        simp only [storeStep, MockedHost.setStorage, MockedHost.assignStorage,
          UnorderedMap.find_assign_self, Option.isSome_some]
      rw [finish_cons, ih]
      simp [hCreated]

/-- A missing account has no slots. -/
theorem hasSlot_iff (key : Bytes32) :
    HasSlot host addr key ↔ ((host.accounts.entry addr).storage.find key).isSome := by
  unfold HasSlot UnorderedMap.entry
  cases host.accounts.find addr with
  | none => exact iff_of_false (by rintro ⟨_, hNone, _⟩; cases hNone) (by intro hSome; cases hSome)
  | some account => simp

theorem hasSlot_storeStep (store : Bytes32 × Bytes32) (key : Bytes32) :
    HasSlot (storeStep addr host store).1 addr key ↔ HasSlot host addr key ∨ key = store.1 := by
  rw [hasSlot_iff, hasSlot_iff]
  simp only [storeStep, MockedHost.setStorage, MockedHost.assignStorage,
    MockedHost.recordAccountAccess_accounts, UnorderedMap.entry, UnorderedMap.find_assign_self,
    Option.getD_some]
  by_cases hKey : key = store.1
  · subst hKey
    simp
  · rw [UnorderedMap.find_assign_of_ne _ _ hKey]
    simp [hKey]

/-- A slot is there if it was or a store creates it. -/
theorem finish_storeStep_hasSlot (key : Bytes32) (stores : List (Bytes32 × Bytes32)) :
    HasSlot (finish (storeStep addr) host stores) addr key ↔
      HasSlot host addr key ∨ key ∈ stores.map Prod.fst := by
  induction stores generalizing host with
  | nil => simp
  | cons store rest ih =>
      rw [finish_cons, ih, hasSlot_storeStep, List.map_cons, List.mem_cons, or_assoc]

end Stores

/-- A run changes of the accounts of the mocked host current values of slots of the
recipient only, to the last value stored. It creates slots and the recipient where it
stores to them, and nothing else changes. -/
theorem execution_isolation (hHost : env.host = getInterface MockedHost.methods)
    (hLength : env.code.length < 2 ^ 64) {world : HostWorld MockedHost} {result : ExecutionResult}
    {machine : Machine MockedHost} (h : execute env world = .ok (result, machine)) :
    let before := world.objects env.context
    let after := machine.world.objects env.context
    let recipient := env.msg.recipient
    (∀ addr, addr ≠ recipient → after.accounts.find addr = before.accounts.find addr) ∧
      ((after.accounts.find recipient).isSome ↔
        (before.accounts.find recipient).isSome ∨ stores env world ≠ []) ∧
      bare (after.accounts.entry recipient) = bare (before.accounts.entry recipient) ∧
      ∀ key, (HasSlot after recipient key ↔
          HasSlot before recipient key ∨ key ∈ (stores env world).map Prod.fst) ∧
        after.storageEntry recipient key =
          { before.storageEntry recipient key with
            current := (storedValues (stores env world) key).getLast?.getD
              (before.storageEntry recipient key).current } := by
  intro before after recipient
  have hAccounts : after.accounts =
      (finish (storeStep recipient) before (stores env world)).accounts :=
    (runs_execute hLength world).accounts hHost h rfl
  have hEntry : ∀ key, after.storageEntry recipient key =
      (finish (storeStep recipient) before (stores env world)).storageEntry recipient key := by
    intro key
    simp only [MockedHost.storageEntry, hAccounts]
  have hSlot : ∀ key, HasSlot after recipient key ↔
      HasSlot (finish (storeStep recipient) before (stores env world)) recipient key := by
    intro key
    simp only [HasSlot, hAccounts]
  rw [hAccounts]
  refine ⟨fun addr hAddr => finish_storeStep_other recipient before hAddr _,
    finish_storeStep_isSome recipient before _, finish_storeStep_bare recipient before _, ?_⟩
  intro key
  rw [hSlot, hEntry]
  exact ⟨finish_storeStep_hasSlot recipient before key _,
    finish_storeStep_slot recipient before key _⟩

/-- A store of one creates the recipient and its slot, and the sender is not created. -/
theorem execution_isolation_store :
    ∃ result machine,
      execute (testEnvironment 10 [0x60, 0x01, 0x60, 0x00, 0x55, 0x00] []) testWorld =
        .ok (result, machine) ∧
      ((machine.world.objects 0).accounts.find (testMessage 10 []).recipient).isSome ∧
      (machine.world.objects 0).accounts.find (testMessage 10 []).sender = none ∧
      ((machine.world.objects 0).storageEntry (testMessage 10 []).recipient 0).current =
        toUint256 1 := by
  have hStores : stores (testEnvironment 10 [0x60, 0x01, 0x60, 0x00, 0x55, 0x00] []) testWorld =
      [(0, toUint256 1)] := by decide +kernel
  obtain ⟨result, machine, hExecute⟩ := ok_of_isOk (show (execute
    (testEnvironment 10 [0x60, 0x01, 0x60, 0x00, 0x55, 0x00] []) testWorld).isOk = true by
      decide +kernel)
  obtain ⟨hOther, hCreated, _, hSlots⟩ := execution_isolation rfl (by decide) hExecute
  refine ⟨result, machine, hExecute, ?_, ?_, ?_⟩
  · exact hCreated.mpr (Or.inr (by rw [hStores]; simp))
  · exact hOther _ (by decide)
  · rw [hStores] at hSlots
    exact congrArg StorageValue.current (hSlots 0).2

end Qrvmc.ExampleVm
