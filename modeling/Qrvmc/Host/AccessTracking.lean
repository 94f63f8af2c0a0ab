import Qrvmc.Host.Steps
import Qrvmc.Semantics.Run

/-! What access tracking shows of itself. The state of the world behind the host has
no access statuses. All calls other than the two that track accesses are answered
from it, and all calls act on it. Accessing storage changes it where the account is
missing. -/
namespace Qrvmc
open Containers Semantics

/-- An account of the world. A slot has a current and an original value. -/
@[ext] structure AccountState where
  nonce : Int32
  code : List UInt8
  codehash : Bytes32
  balance : Bytes32
  slots : Bytes32 → Bytes32 × Bytes32

/-- What the host knows apart from its records and the access statuses. -/
@[ext] structure WorldState where
  accounts : Address → Option AccountState
  txContext : TxContext
  blockHash : Bytes32
  callResult : RawResult

def StorageValue.content (value : StorageValue) : Bytes32 × Bytes32 :=
  (value.current, value.original)

def MockedAccount.state (account : MockedAccount) : AccountState where
  nonce := account.nonce
  code := account.code
  codehash := account.codehash
  balance := account.balance
  slots key := (account.storage.entry key).content

instance : Inhabited AccountState := ⟨(default : MockedAccount).state⟩

/-- The account at an address. A missing one is as good as empty, except that it is
missing. -/
def WorldState.account (world : WorldState) (addr : Address) : AccountState :=
  (world.accounts addr).getD default

/-- The world in which a slot has the given content. -/
def WorldState.write (world : WorldState) (addr : Address) (key : Bytes32)
    (content : Bytes32 × Bytes32) : WorldState :=
  { world with
    accounts := Function.update world.accounts addr (some { world.account addr with
      slots := Function.update (world.account addr).slots key content }) }

namespace MockedHost

def state (host : MockedHost) : WorldState where
  accounts addr := (host.accounts.find addr).map MockedAccount.state
  txContext := host.txContext
  blockHash := host.blockHash
  callResult := host.callResult

variable (host : MockedHost)

@[simp] theorem recordAccountAccess_state (addr : Address) :
    (host.recordAccountAccess addr).state = host.state := rfl

theorem state_account (addr : Address) :
    host.state.account addr = (host.accounts.entry addr).state := by
  show ((host.accounts.find addr).map MockedAccount.state).getD default =
    ((host.accounts.find addr).getD default).state
  cases host.accounts.find addr <;> rfl

theorem storageEntry_content (addr : Address) (key : Bytes32) :
    (host.storageEntry addr key).content = (host.state.account addr).slots key := by
  rw [state_account]
  rfl

theorem slots_assign (account : MockedAccount) (key : Bytes32) (value : StorageValue) :
    { account with storage := account.storage.assign key value }.state =
      { account.state with slots := Function.update account.state.slots key value.content } := by
  apply AccountState.ext <;> try rfl
  funext other
  show ((account.storage.assign key value).entry other).content =
    Function.update account.state.slots key value.content other
  by_cases hKey : other = key
  · subst hKey
    rw [UnorderedMap.entry, UnorderedMap.find_assign_self, Function.update_self]
    rfl
  · rw [UnorderedMap.entry, UnorderedMap.find_assign_of_ne _ _ hKey, Function.update_of_ne hKey]
    rfl

/-- Assigning to a slot writes its content and nothing else. -/
theorem assignStorage_state (addr : Address) (key : Bytes32) (value : StorageValue) :
    (host.assignStorage addr key value).state = host.state.write addr key value.content := by
  apply WorldState.ext <;> try rfl
  funext other
  show ((host.assignStorage addr key value).accounts.find other).map MockedAccount.state =
    Function.update host.state.accounts addr _ other
  by_cases hAddr : other = addr
  · subst hAddr
    rw [assignStorage, UnorderedMap.find_assign_self, Option.map_some, slots_assign,
      Function.update_self, state_account]
  · rw [assignStorage, UnorderedMap.find_assign_of_ne _ _ hAddr, Function.update_of_ne hAddr]
    rfl

theorem accountExists_snd (addr : Address) :
    (host.accountExists addr).2 = (host.state.accounts addr).isSome := by
  show (host.accounts.count addr != 0) = ((host.accounts.find addr).map MockedAccount.state).isSome
  rw [UnorderedMap.count]
  cases host.accounts.find addr <;> rfl

theorem getBalance_snd (addr : Address) :
    (host.getBalance addr).2 = (host.state.account addr).balance := by
  rw [state_account, UnorderedMap.entry]
  simp only [getBalance, recordAccountAccess_accounts]
  cases host.accounts.find addr <;> rfl

theorem getCodeSize_snd (addr : Address) :
    (host.getCodeSize addr).2 = (host.state.account addr).code.length := by
  rw [state_account, UnorderedMap.entry]
  simp only [getCodeSize, recordAccountAccess_accounts]
  cases host.accounts.find addr <;> rfl

theorem getCodeHash_snd (addr : Address) :
    (host.getCodeHash addr).2 = (host.state.account addr).codehash := by
  rw [state_account, UnorderedMap.entry]
  simp only [getCodeHash, recordAccountAccess_accounts]
  cases host.accounts.find addr <;> rfl

/-- Copying from an account that is missing is copying from empty code. -/
theorem copyCode_snd (addr : Address) (codeOffset : Nat) (buffer : List UInt8) :
    (host.copyCode addr codeOffset buffer).2 =
      if codeOffset ≥ (host.state.account addr).code.length then (0, buffer)
      else
        let n := min buffer.length ((host.state.account addr).code.length - codeOffset)
        if n > 0 then
          (n, ((host.state.account addr).code.drop codeOffset).take n ++ buffer.drop n)
        else (n, buffer) := by
  rw [state_account, UnorderedMap.entry]
  simp only [copyCode, recordAccountAccess_accounts]
  cases host.accounts.find addr with
  | none => rfl
  | some account =>
      have hCode : ((some account).getD default).state.code = account.code := rfl
      rw [hCode]
      by_cases hEnd : codeOffset ≥ account.code.length
      · simp only [hEnd, ↓reduceIte]
      · simp only [hEnd, ↓reduceIte]
        split <;> rfl

theorem setStorage_snd (addr : Address) (key value : Bytes32) :
    (host.setStorage addr key value).2 =
      (storageStatus ((host.state.account addr).slots key).2
        ((host.state.account addr).slots key).1 value).status := by
  rw [← storageEntry_content]
  rfl

/-- Accessing storage writes back the content of the slot. -/
theorem accessStorage_state (addr : Address) (key : Bytes32) :
    (host.accessStorage addr key).1.state =
      host.state.write addr key ((host.state.account addr).slots key) := by
  rw [← storageEntry_content]
  exact host.assignStorage_state addr key _

theorem setStorage_state (addr : Address) (key value : Bytes32) :
    (host.setStorage addr key value).1.state =
      host.state.write addr key (value, ((host.state.account addr).slots key).2) := by
  rw [← storageEntry_content]
  exact (host.recordAccountAccess addr).assignStorage_state addr key _

end MockedHost

/-- Writing back the content of a slot changes nothing where the account exists. -/
theorem WorldState.write_self {world : WorldState} {addr : Address} (key : Bytes32)
    (hExists : (world.accounts addr).isSome) :
    world.write addr key ((world.account addr).slots key) = world := by
  obtain ⟨account, hAccount⟩ := Option.isSome_iff_exists.mp hExists
  have hState : world.account addr = account := by
    rw [WorldState.account, hAccount]
    rfl
  apply WorldState.ext <;> try rfl
  show Function.update world.accounts addr _ = world.accounts
  rw [Function.update_eq_self_iff, hState, Function.update_eq_self, hAccount]

variable {host after : MockedHost}

/-- The queries about accounts are answered alike for every address and key. -/
structure SameAnswers (host after : MockedHost) : Prop where
  accountExists : ∀ addr, (host.accountExists addr).2 = (after.accountExists addr).2
  getStorage : ∀ addr key, (host.getStorage addr key).2 = (after.getStorage addr key).2
  getBalance : ∀ addr, (host.getBalance addr).2 = (after.getBalance addr).2
  getCodeSize : ∀ addr, (host.getCodeSize addr).2 = (after.getCodeSize addr).2
  getCodeHash : ∀ addr, (host.getCodeHash addr).2 = (after.getCodeHash addr).2
  copyCode : ∀ addr codeOffset buffer,
    (host.copyCode addr codeOffset buffer).2 = (after.copyCode addr codeOffset buffer).2

theorem SameAnswers.of_state (h : host.state = after.state) : SameAnswers host after where
  accountExists addr := by rw [MockedHost.accountExists_snd, MockedHost.accountExists_snd, h]
  getStorage addr key := by
    have hSlot := congrArg (fun world => ((world.account addr).slots key).1) h
    simp only [← MockedHost.storageEntry_content] at hSlot
    rw [MockedHost.getStorage_snd, MockedHost.getStorage_snd]
    exact hSlot
  getBalance addr := by rw [MockedHost.getBalance_snd, MockedHost.getBalance_snd, h]
  getCodeSize addr := by rw [MockedHost.getCodeSize_snd, MockedHost.getCodeSize_snd, h]
  getCodeHash addr := by rw [MockedHost.getCodeHash_snd, MockedHost.getCodeHash_snd, h]
  copyCode addr codeOffset buffer := by
    rw [MockedHost.copyCode_snd, MockedHost.copyCode_snd, h]

/-- The calls that track accesses and tell of them. -/
def HostCall.tracks : HostCall → Bool
  | .accessAccount _ => true
  | .accessStorage _ _ => true
  | _ => false

/-- All other calls are answered from the state of the world, and all calls act on it. -/
theorem worldState_unwinding :
    Unwinding MockedHost.step (fun call => !call.tracks)
      fun first second => first.state = second.state where
  keeps first second call hState := by
    cases call with
    | setStorage addr key value =>
        show (first.setStorage addr key value).1.state = (second.setStorage addr key value).1.state
        rw [MockedHost.setStorage_state, MockedHost.setStorage_state, hState]
    | accessStorage addr key =>
        show (first.accessStorage addr key).1.state = (second.accessStorage addr key).1.state
        rw [MockedHost.accessStorage_state, MockedHost.accessStorage_state, hState]
    | call msg input =>
        obtain ⟨firstCalls, firstInputs, hFirst⟩ := first.call_fst msg input
        obtain ⟨secondCalls, secondInputs, hSecond⟩ := second.call_fst msg input
        simp only [MockedHost.step, Prod.map_fst, id, hFirst, hSecond]
        exact hState
    | getTxContext => exact hState
    | getBlockHash blockNumber => exact hState
    | emitLog addr data topics => exact hState
    | _ => simp [MockedHost.step, hState]
  answers first second call hVisible hState := by
    have hSame := SameAnswers.of_state hState
    cases call with
    | accessAccount addr => cases hVisible
    | accessStorage addr key => cases hVisible
    | call msg input =>
        simp only [MockedHost.step, Prod.map_snd, MockedHost.call_snd]
        exact congrArg (fun world => HostAnswer.call world.callResult) hState
    | getTxContext => exact congrArg (fun world => HostAnswer.getTxContext world.txContext) hState
    | getBlockHash blockNumber =>
        exact congrArg (fun world => HostAnswer.getBlockHash world.blockHash) hState
    | emitLog addr data topics => rfl
    | setStorage addr key value => simp [MockedHost.step, MockedHost.setStorage_snd, hState]
    | accountExists addr => exact congrArg HostAnswer.accountExists (hSame.accountExists addr)
    | getStorage addr key => exact congrArg HostAnswer.getStorage (hSame.getStorage addr key)
    | getBalance addr => exact congrArg HostAnswer.getBalance (hSame.getBalance addr)
    | getCodeSize addr => exact congrArg HostAnswer.getCodeSize (hSame.getCodeSize addr)
    | getCodeHash addr => exact congrArg HostAnswer.getCodeHash (hSame.getCodeHash addr)
    | copyCode addr codeOffset buffer =>
        exact congrArg (fun copied => HostAnswer.copyCode copied.1 copied.2)
          (hSame.copyCode addr codeOffset buffer)

/-- No later run tells the hosts apart, except by the calls that track accesses. -/
def Invisible (host after : MockedHost) : Prop :=
  Indistinguishable MockedHost.step (fun call => !call.tracks) host after

theorem Invisible.of_state (h : host.state = after.state) : Invisible host after :=
  worldState_unwinding.indistinguishable h

/-- For every host, address and key: accessing the account changes no answer about
accounts and is invisible to later runs. Accessing the storage changes no answer if
and only if the account exists, and is then invisible to later runs. -/
theorem accessTracking_invisible (host : MockedHost) (addr : Address) (key : Bytes32) :
    SameAnswers host (host.accessAccount addr).1 ∧ Invisible host (host.accessAccount addr).1 ∧
      (SameAnswers host (host.accessStorage addr key).1 ↔ (host.accounts.find addr).isSome) ∧
      ((host.accounts.find addr).isSome → Invisible host (host.accessStorage addr key).1) := by
  have hAccount : host.state = (host.accessAccount addr).1.state := by
    rw [MockedHost.accessAccount_fst, MockedHost.recordAccountAccess_state]
  have hExists : (host.state.accounts addr).isSome ↔ (host.accounts.find addr).isSome := by
    rw [MockedHost.state, Option.isSome_map]
  have hStorage (hFound : (host.accounts.find addr).isSome) :
      host.state = (host.accessStorage addr key).1.state := by
    rw [MockedHost.accessStorage_state, WorldState.write_self key (hExists.mpr hFound)]
  refine ⟨.of_state hAccount, .of_state hAccount, ⟨fun hSame => ?_, fun hFound => ?_⟩,
    fun hFound => .of_state (hStorage hFound)⟩
  · have hAnswer := hSame.accountExists addr
    rw [MockedHost.accountExists_snd, MockedHost.accountExists_snd,
      MockedHost.accessStorage_state] at hAnswer
    simp only [WorldState.write, Function.update_self, Option.isSome_some] at hAnswer
    exact hExists.mp hAnswer
  · exact .of_state (hStorage hFound)

/-- An account that does not exist does once its storage is accessed. -/
theorem accessStorage_creates_account :
    (({} : MockedHost).accountExists 0).2 = false ∧
      ((({} : MockedHost).accessStorage 0 0).1.accountExists 0).2 = true := by
  decide

end Qrvmc
