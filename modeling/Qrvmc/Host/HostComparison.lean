import Qrvmc.Host.AccessTracking
import Qrvmc.Host.CodeReading
import Qrvmc.Host.ExampleHost
import Qrvmc.Semantics.Run
import Qrvmc.Wrapper.Transparency

/-! The mocked host against the example host. They hold their accounts in containers of
different kinds and record different things, but they answer what is asked about the
accounts alike, as long as nothing else creates accounts. -/
namespace Qrvmc
open Containers Semantics

/-- What the answers of the mocked host and of the example host have in common. -/
def HostAnswer.Corresponds (exactly : Prop) : HostAnswer → HostAnswer → Prop
  | .accountExists found, .accountExists known =>
      (known = true → found = true) ∧ (exactly → found = known)
  | .getStorage value, .getStorage read => value = read
  | .setStorage status, .setStorage told => status = .assigned ∨ told = .modified
  | .getBalance balance, .getBalance held => balance = held
  | .getCodeSize size, .getCodeSize length => size = length
  | .getCodeHash hash, .getCodeHash computed => hash = computed
  | .copyCode copied buffer, .copyCode count bytes => copied = count ∧ buffer = bytes
  | .call _, .call _ => True
  | .getTxContext context, .getTxContext given => context = given
  | .getBlockHash _, .getBlockHash _ => True
  | .emitLog, .emitLog => True
  | .accessAccount _, .accessAccount told => told = .cold
  | .accessStorage _, .accessStorage told => told = .cold
  | _, _ => False

/-- The contents of an account. The code hash of the mocked host is a field. -/
structure SameAccount (account : MockedAccount) (other : ExampleAccount) : Prop where
  balance : account.balance = other.balance
  code : account.code = other.code
  codeHash : account.codehash = other.codeHash
  storage : ∀ key, (account.storage.entry key).current = other.storage.entry key

/-- The hosts hold the same accounts and the same context. The mocked host may have
accounts of its own, which look like missing ones, unless this is excluded. -/
structure SameHost (exactly : Prop) (mocked : MockedHost) (host : ExampleContext) : Prop where
  txContext : mocked.txContext = host.txContext
  account : ∀ addr, SameAccount (mocked.accounts.entry addr) (host.accounts.entry addr)
  found : ∀ addr, (host.accounts.find addr).isSome → (mocked.accounts.find addr).isSome
  known : exactly → ∀ addr, (mocked.accounts.find addr).isSome → (host.accounts.find addr).isSome

section Reads

variable (addr : Address)

theorem MockedHost.codeAt_eq (mocked : MockedHost) :
    mocked.codeAt addr = (mocked.accounts.entry addr).code := by
  rw [codeAt, UnorderedMap.entry]
  cases mocked.accounts.find addr <;> rfl

theorem ExampleHost.getBalance_eq (host : ExampleHost) :
    host.getBalance addr = (host.accounts.entry addr).balance := by
  rw [getBalance, UnorderedMap.entry]
  cases host.accounts.find addr <;> rfl

theorem ExampleHost.getCodeSize_eq (host : ExampleHost) :
    host.getCodeSize addr = (host.accounts.entry addr).code.length := by
  rw [getCodeSize, UnorderedMap.entry]
  cases host.accounts.find addr <;> rfl

theorem ExampleHost.getCodeHash_eq (host : ExampleHost) :
    host.getCodeHash addr = (host.accounts.entry addr).codeHash := by
  rw [getCodeHash, UnorderedMap.entry]
  cases host.accounts.find addr <;> rfl

theorem ExampleHost.codeAt_eq (host : ExampleHost) :
    host.codeAt addr = (host.accounts.entry addr).code := by
  rw [codeAt, UnorderedMap.entry]
  cases host.accounts.find addr <;> rfl

theorem ExampleHost.getStorage_eq (host : ExampleHost) (key : Bytes32) :
    host.getStorage addr key = (host.accounts.entry addr).storage.entry key := by
  cases hAccount : host.accounts.find addr with
  | none =>
      simp only [getStorage, UnorderedMap.entry, hAccount]
      rfl
  | some account =>
      cases hValue : account.storage.find key with
      | none =>
          simp only [getStorage, UnorderedMap.entry, hAccount, hValue, Option.getD_some]
          rfl
      | some value => simp only [getStorage, UnorderedMap.entry, hAccount, hValue, Option.getD_some]

end Reads

section Steps

variable {exactly : Prop} {mocked : MockedHost} {host : ExampleContext}

/-- The rest of the mocked host makes no difference. -/
theorem SameHost.of_accounts (h : SameHost exactly mocked host) {other : MockedHost}
    (hAccounts : other.accounts = mocked.accounts) (hContext : other.txContext = mocked.txContext) :
    SameHost exactly other host where
  txContext := hContext.trans h.txContext
  account := hAccounts ▸ h.account
  found := hAccounts ▸ h.found
  known := hAccounts ▸ h.known

theorem SameHost.recorded (h : SameHost exactly mocked host) (addr : Address) :
    SameHost exactly (mocked.recordAccountAccess addr) host :=
  h.of_accounts rfl rfl

/-- The slot that a store changes changes alike, and the accounts exist afterwards. -/
theorem SameHost.stored (h : SameHost exactly mocked host) (addr : Address) (key : Bytes32)
    (value : StorageValue) :
    SameHost exactly (mocked.assignStorage addr key value)
      { host with toExampleHost := (host.setStorage addr key value.current).1 } where
  txContext := h.txContext
  account other := by
    have hSame := h.account addr
    simp only [MockedHost.assignStorage, ExampleHost.setStorage, UnorderedMap.entry_assign]
    split_ifs
    · refine ⟨hSame.balance, hSame.code, hSame.codeHash, ?_⟩
      intro slot
      simp only [UnorderedMap.entry_assign]
      split_ifs
      · rfl
      · exact hSame.storage slot
    · exact h.account other
  found other := by
    by_cases hOther : other = addr
    · subst hOther
      simp [MockedHost.assignStorage]
    · simp only [MockedHost.assignStorage, ExampleHost.setStorage,
        UnorderedMap.find_assign_of_ne _ _ hOther]
      exact h.found other
  known hExactly other := by
    by_cases hOther : other = addr
    · subst hOther
      simp [ExampleHost.setStorage]
    · simp only [MockedHost.assignStorage, ExampleHost.setStorage,
        UnorderedMap.find_assign_of_ne _ _ hOther]
      exact h.known hExactly other

/-- To access storage changes no contents. It can create the account. -/
theorem SameHost.accessed (h : SameHost exactly mocked host) (hLoose : ¬exactly) (addr : Address)
    (key : Bytes32) :
    SameHost exactly (mocked.accessStorage addr key).1 host where
  txContext := h.txContext
  account other := by
    have hSame := h.account addr
    simp only [MockedHost.accessStorage, MockedHost.assignStorage, UnorderedMap.entry_assign]
    split_ifs with hOther
    · subst hOther
      refine ⟨hSame.balance, hSame.code, hSame.codeHash, ?_⟩
      intro slot
      simp only [UnorderedMap.entry_assign]
      split_ifs with hSlot
      · subst hSlot
        exact hSame.storage slot
      · exact hSame.storage slot
    · exact h.account other
  found other hFound := by
    by_cases hOther : other = addr
    · subst hOther
      simp [MockedHost.accessStorage, MockedHost.assignStorage]
    · simp only [MockedHost.accessStorage, MockedHost.assignStorage,
        UnorderedMap.find_assign_of_ne _ _ hOther]
      exact h.found other hFound
  known hExactly := absurd hExactly hLoose

/-- A store that the example host calls assigned is one that changes nothing. -/
theorem SameHost.status (h : SameHost exactly mocked host) (addr : Address) (key value : Bytes32) :
    (mocked.setStorage addr key value).2 = .assigned ∨
      (host.setStorage addr key value).2 = .modified := by
  have hPrevious := (h.account addr).storage key
  cases hAssigned : ((host.accounts.entry addr).storage.entry key).beq value with
  | true =>
      left
      have hCurrent : ((mocked.accounts.entry addr).storage.entry key).current.beq value = true :=
        hPrevious ▸ hAssigned
      simp only [MockedHost.setStorage, MockedHost.storageEntry, storageStatus,
        MockedHost.recordAccountAccess_accounts, hCurrent]
      rfl
  | false =>
      right
      simp only [ExampleHost.setStorage, hAssigned]
      rfl

/-- The calls under which the hosts keep holding the same accounts. -/
def HostOp.CreatesAlike (exactly : Prop) : HostOp → Prop
  | .accessStorage _ _ => ¬exactly
  | _ => True

theorem SameHost.step (h : SameHost exactly mocked host) (malloc : Nat → Option Nat) (op : HostOp)
    (hOp : op.CreatesAlike exactly) :
    SameHost exactly (MockedHost.methods.step mocked op).1
      ((ExampleContext.methods malloc).step host op).1 := by
  rw [MockedHost.methods_step]
  cases op with
  | setStorage addr key value =>
      have hRecorded := h.recorded addr
      exact hRecorded.stored addr key _
  | accessStorage addr key => exact h.accessed hOp addr key
  | call msg input =>
      obtain ⟨calls, inputs, hCall⟩ := mocked.call_fst msg input
      have hAccounts : (mocked.call msg input).1.accounts = mocked.accounts := by rw [hCall]; rfl
      have hContext : (mocked.call msg input).1.txContext = mocked.txContext := by rw [hCall]; rfl
      exact h.of_accounts hAccounts hContext
  | getTxContext => exact h
  | getBlockHash blockNumber => exact h.of_accounts rfl rfl
  | emitLog addr data dataSize topics numTopics => exact h.of_accounts rfl rfl
  | accountExists addr => exact h.recorded addr
  | getStorage addr key =>
      have hFst := mocked.getStorage_fst addr key
      exact hFst ▸ h.recorded addr
  | getBalance addr =>
      have hFst := mocked.getBalance_fst addr
      exact hFst ▸ h.recorded addr
  | getCodeSize addr =>
      have hFst := mocked.getCodeSize_fst addr
      exact hFst ▸ h.recorded addr
  | getCodeHash addr =>
      have hFst := mocked.getCodeHash_fst addr
      exact hFst ▸ h.recorded addr
  | copyCode addr codeOffset bufferData bufferSize =>
      have hFst := mocked.copyCode_fst addr codeOffset (bufferData.take bufferSize)
      exact hFst ▸ h.recorded addr
  | accessAccount addr =>
      have hFst := mocked.accessAccount_fst addr
      exact hFst ▸ h.recorded addr

theorem SameHost.answer (h : SameHost exactly mocked host) (malloc : Nat → Option Nat)
    (op : HostOp) :
    HostAnswer.Corresponds exactly (MockedHost.methods.step mocked op).2
      ((ExampleContext.methods malloc).step host op).2 := by
  cases op with
  | accountExists addr =>
      have hFound : (mocked.accountExists addr).2 = (mocked.accounts.find addr).isSome := by
        rw [MockedHost.accountExists_snd]
        exact Option.isSome_map
      constructor
      · intro hKnown
        exact hFound.trans (h.found addr hKnown)
      · intro hExactly
        exact hFound.trans (Bool.eq_iff_iff.mpr ⟨h.known hExactly addr, h.found addr⟩)
  | getStorage addr key =>
      change (mocked.getStorage addr key).2 = host.getStorage addr key
      rw [MockedHost.getStorage_snd, ExampleHost.getStorage_eq]
      exact (h.account addr).storage key
  | setStorage addr key value => exact h.status addr key value
  | getBalance addr =>
      change (mocked.getBalance addr).2 = host.getBalance addr
      rw [MockedHost.getBalance_snd, MockedHost.state_account, ExampleHost.getBalance_eq]
      exact (h.account addr).balance
  | getCodeSize addr =>
      change (mocked.getCodeSize addr).2 = host.getCodeSize addr
      rw [MockedHost.getCodeSize_snd, MockedHost.state_account, ExampleHost.getCodeSize_eq]
      exact congrArg List.length (h.account addr).code
  | getCodeHash addr =>
      change (mocked.getCodeHash addr).2 = host.getCodeHash addr
      rw [MockedHost.getCodeHash_snd, MockedHost.state_account, ExampleHost.getCodeHash_eq]
      exact (h.account addr).codeHash
  | copyCode addr codeOffset bufferData bufferSize =>
      have hCode : mocked.codeAt addr = host.codeAt addr := by
        rw [MockedHost.codeAt_eq, ExampleHost.codeAt_eq, (h.account addr).code]
      have hCopied : (mocked.copyCode addr codeOffset (bufferData.take bufferSize)).2 =
          host.copyCode addr codeOffset (bufferData.take bufferSize) := by
        rw [MockedHost.copyCode_eq, ExampleHost.copyCode_eq, hCode]
      exact ⟨congrArg Prod.fst hCopied,
        congrArg (fun copied => copied.2 ++ bufferData.drop bufferSize) hCopied⟩
  | call msg input => trivial
  | getTxContext => exact h.txContext
  | getBlockHash blockNumber => trivial
  | emitLog addr data dataSize topics numTopics => trivial
  | accessAccount addr => rfl
  | accessStorage addr key => rfl

end Steps

theorem hosts_lockstep (exactly : Prop) (malloc : Nat → Option Nat) :
    Lockstep MockedHost.methods.step (ExampleContext.methods malloc).step
      (HostOp.CreatesAlike exactly) (SameHost exactly) (HostAnswer.Corresponds exactly) where
  keeps _ _ op hOp h := h.step malloc op hOp
  answers _ _ op _ h := h.answer malloc op

/-- The two hosts over any calls. Only whether an account exists can be answered
differently, and only once storage was accessed. -/
theorem hosts_correspond (malloc : Nat → Option Nat) {exactly : Prop} {mocked : MockedHost}
    {host : ExampleContext} (h : SameHost exactly mocked host) (ops : List HostOp)
    (hOps : exactly → ∀ op ∈ ops, ∀ addr key, op ≠ .accessStorage addr key) :
    List.Forall₂ (fun entry reply =>
        entry.1 = reply.1 ∧ HostAnswer.Corresponds exactly entry.2 reply.2)
      (transcript MockedHost.methods.step mocked ops)
      (transcript (ExampleContext.methods malloc).step host ops) := by
  apply (hosts_lockstep exactly malloc).transcript h
  intro op hOp
  cases op with
  | accessStorage addr key => exact fun hExactly => hOps hExactly _ hOp addr key rfl
  | _ => trivial

/-- New hosts hold the same accounts, namely none. -/
theorem sameHost_new (txContext : TxContext) :
    SameHost True { txContext } (exampleHostCreateContext txContext) where
  txContext := rfl
  account _ := ⟨rfl, rfl, rfl, fun _ => rfl⟩
  found _ h := h
  known _ _ h := h

theorem hosts_correspond_new :
    List.Forall₂ (fun entry reply =>
        entry.1 = reply.1 ∧ HostAnswer.Corresponds True entry.2 reply.2)
      (transcript MockedHost.methods.step {} [.setStorage 0 0 0, .accountExists 0])
      (transcript (ExampleContext.methods some).step (exampleHostCreateContext {})
        [.setStorage 0 0 0, .accountExists 0]) := by
  apply hosts_correspond some (sameHost_new {})
  intro _ op hOp addr key hAccess
  subst hAccess
  simp at hOp

end Qrvmc
