import Mathlib.Tactic.SplitIfs
import Qrvmc.Host.MockedHost
import Qrvmc.Types.Integers

/-! What one call of the host interface can do to the host. A read records the
access and nothing else. The accounts change in two methods only, and there in
one slot. A balance that is set from an integer is the value constructed from it. -/
namespace Qrvmc
open Containers

namespace MockedHost

@[simp] theorem recordAccountAccess_accounts (host : MockedHost) (addr : Address) :
    (host.recordAccountAccess addr).accounts = host.accounts := rfl

@[simp] theorem recordAccountAccess_storageEntry (host : MockedHost) (accessed addr : Address)
    (key : Bytes32) :
    (host.recordAccountAccess accessed).storageEntry addr key = host.storageEntry addr key := rfl

@[simp] theorem accountExists_fst (host : MockedHost) (addr : Address) :
    (host.accountExists addr).1 = host.recordAccountAccess addr := rfl

@[simp] theorem getStorage_fst (host : MockedHost) (addr : Address) (key : Bytes32) :
    (host.getStorage addr key).1 = host.recordAccountAccess addr := by
  simp only [getStorage]
  split
  · rfl
  · split <;> rfl

@[simp] theorem getBalance_fst (host : MockedHost) (addr : Address) :
    (host.getBalance addr).1 = host.recordAccountAccess addr := by
  simp only [getBalance]
  split <;> rfl

@[simp] theorem getCodeSize_fst (host : MockedHost) (addr : Address) :
    (host.getCodeSize addr).1 = host.recordAccountAccess addr := by
  simp only [getCodeSize]
  split <;> rfl

@[simp] theorem getCodeHash_fst (host : MockedHost) (addr : Address) :
    (host.getCodeHash addr).1 = host.recordAccountAccess addr := by
  simp only [getCodeHash]
  split <;> rfl

@[simp] theorem copyCode_fst (host : MockedHost) (addr : Address) (codeOffset : Nat)
    (buffer : List UInt8) :
    (host.copyCode addr codeOffset buffer).1 = host.recordAccountAccess addr := by
  simp only [copyCode]
  split
  · rfl
  · split
    · rfl
    · split <;> rfl

@[simp] theorem accessAccount_fst (host : MockedHost) (addr : Address) :
    (host.accessAccount addr).1 = host.recordAccountAccess addr := by
  simp only [accessAccount]
  split <;> rfl

/-- A nested call fills the record of calls. Of the rest of the host it changes
what recording the access changes. -/
theorem call_fst (host : MockedHost) (msg : Message) (input : List UInt8) :
    ∃ calls inputs, (host.call msg input).1 =
      { host.recordAccountAccess msg.recipient with
        recordedCalls := calls, recordedCallsInputs := inputs } := by
  simp only [call]
  split
  · split
    · split
      · exact ⟨_, _, rfl⟩
      · exact ⟨_, _, rfl⟩
    · exact ⟨_, _, rfl⟩
  · split
    · split
      · exact ⟨_, _, rfl⟩
      · exact ⟨_, _, rfl⟩
    · exact ⟨_, _, rfl⟩

theorem call_snd (host : MockedHost) (msg : Message) (input : List UInt8) :
    (host.call msg input).2 = host.callResult := by
  simp only [call]
  split_ifs <;> rfl

/-- The current value behind a missing account or slot is that of a default one. -/
theorem getStorage_snd (host : MockedHost) (addr : Address) (key : Bytes32) :
    (host.getStorage addr key).2 = (host.storageEntry addr key).current := by
  simp only [getStorage, recordAccountAccess_accounts, storageEntry, UnorderedMap.entry]
  cases hAccount : host.accounts.find addr with
  | none => rfl
  | some account =>
      cases hValue : account.storage.find key with
      | none =>
          simp only [Option.getD_some, hValue]
          rfl
      | some value => simp only [Option.getD_some, hValue]

@[simp] theorem storageEntry_assignStorage_self (host : MockedHost) (addr : Address)
    (key : Bytes32) (value : StorageValue) :
    (host.assignStorage addr key value).storageEntry addr key = value := by
  simp [storageEntry, assignStorage, UnorderedMap.entry]

/-- Also where the assignment creates the account, its other slots read as default. -/
theorem storageEntry_assignStorage_of_ne (host : MockedHost) {addr other : Address}
    {key otherKey : Bytes32} (value : StorageValue) (h : ¬(other = addr ∧ otherKey = key)) :
    (host.assignStorage addr key value).storageEntry other otherKey =
      host.storageEntry other otherKey := by
  by_cases hAddr : other = addr
  · subst hAddr
    have hKey : otherKey ≠ key := fun hKey => h ⟨rfl, hKey⟩
    simp only [storageEntry, assignStorage, UnorderedMap.entry, UnorderedMap.find_assign_self,
      Option.getD_some, UnorderedMap.find_assign_of_ne _ _ hKey]
  · simp only [storageEntry, assignStorage, UnorderedMap.entry,
      UnorderedMap.find_assign_of_ne _ _ hAddr]

end MockedHost

/-- The balance does not depend on the one before. -/
theorem MockedAccount.setBalance_eq (account : MockedAccount) (x : UInt64) :
    account.setBalance x = { account with balance := Bytes32.ofUInt64 x } := by
  have hRange : List.range 8 = [0, 1, 2, 3, 4, 5, 6, 7] := rfl
  have hZero : (0 : Bytes32).bytes.toList = List.replicate 32 0 := rfl
  have hBalance : (account.setBalance x).balance = Bytes32.ofUInt64 x := by
    simp only [MockedAccount.setBalance, hRange, List.foldl_cons, List.foldl_nil]
    apply Bytes32.ext_toList
    rw [Bytes32.ofUInt64_toList]
    simp only [Vector.toList_setIfInBounds, hZero, wordBytes]
    rfl
  rw [← hBalance]
  rfl

/-- A 64-bit integer is spelled by its values of both types, which are equal or less
exactly when the integers are. A balance set from it is such a value. -/
theorem integer_embedding :
    (∀ u : UInt64, (Bytes32.ofUInt64 u).toNat = u.toNat ∧
      (Address.ofUInt64 u).toNat = u.toNat) ∧
    (∀ u v : UInt64,
      (u < v ↔ (Bytes32.ofUInt64 u).lt (Bytes32.ofUInt64 v) = true) ∧
      (u < v ↔ (Address.ofUInt64 u).lt (Address.ofUInt64 v) = true) ∧
      (u = v ↔ (Bytes32.ofUInt64 u).beq (Bytes32.ofUInt64 v) = true) ∧
      (u = v ↔ (Address.ofUInt64 u).beq (Address.ofUInt64 v) = true)) ∧
    (∀ (account : MockedAccount) (u : UInt64),
      account.setBalance u = { account with balance := Bytes32.ofUInt64 u }) := by
  refine ⟨fun u => ⟨Bytes32.ofUInt64_toNat u, Address.ofUInt64_toNat u⟩, ?_,
    MockedAccount.setBalance_eq⟩
  intro u v
  rw [Bytes32.lt_iff, Address.lt_iff, Bytes32.beq_iff, Address.beq_iff, Bytes32.ofUInt64_toNat,
    Bytes32.ofUInt64_toNat, Address.ofUInt64_toNat, Address.ofUInt64_toNat, Bytes32.ofUInt64_inj,
    Address.ofUInt64_inj, UInt64.lt_iff_toNat_lt]
  exact ⟨Iff.rfl, Iff.rfl, Iff.rfl, Iff.rfl⟩

end Qrvmc
