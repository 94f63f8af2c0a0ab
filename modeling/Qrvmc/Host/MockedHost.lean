import Qrvmc.Containers.Standard
import Qrvmc.Hex.Decode
import Qrvmc.Host.StorageStatus
import Qrvmc.Semantics.Run

/-! The mocked host: accounts with storage, and records of what was asked. Each
method returns the host after the call with the result. The thirteen methods
together form a machine whose requests are the calls of the host interface. -/
namespace Qrvmc
open Containers

structure StorageValue where
  current : Bytes32 := 0
  original : Bytes32 := 0
  accessStatus : AccessStatus := .cold

instance : Inhabited StorageValue := ⟨{}⟩

structure MockedAccount where
  nonce : Int32 := 0
  code : List UInt8 := []
  codehash : Bytes32 := 0
  balance : Bytes32 := 0
  storage : UnorderedMap Bytes32 StorageValue := default

instance : Inhabited MockedAccount := ⟨{}⟩

/-- `set_balance`. The bytes are filled from the end of the array. -/
def MockedAccount.setBalance (account : MockedAccount) (x : UInt64) : MockedAccount :=
  { account with
    balance := (List.range 8).foldl
      (fun balance i =>
        ⟨balance.bytes.setIfInBounds (32 - 1 - i) (x >>> UInt64.ofNat (8 * i)).toUInt8⟩) 0 }

structure LogRecord where
  creator : Address
  data : List UInt8
  topics : List Bytes32

structure MockedHost where
  accounts : UnorderedMap Address MockedAccount := default
  txContext : TxContext := {}
  blockHash : Bytes32 := 0
  callResult : RawResult := {}
  recordedBlockhashes : List Int64 := []
  recordedAccountAccesses : Sequence Address := {}
  recordedCalls : Sequence Message := {}
  recordedLogs : List LogRecord := []
  recordedCallsInputs : Sequence (List UInt8) := {}

/-- A literal is decoded while compiling, and an invalid one does not compile. -/
def isLiteral {Value : Type} : Exec (Option Value) → Bool
  | .ok (some _) => true
  | _ => false

def literalValue {Value : Type} : (outcome : Exec (Option Value)) → isLiteral outcome → Value
  | .ok (some value), _ => value

/-- `operator""_address`. -/
def addressLiteral (s : String)
    (h : isLiteral (fromPrefixedHex 20 (lit s) (lit "Q")) := by decide) : Address :=
  ⟨literalValue (fromPrefixedHex 20 (lit s) (lit "Q")) h⟩

namespace MockedHost

def maxRecordedAccountAccesses : Nat := 200

def maxRecordedCalls : Nat := 100

def recordAccountAccess (host : MockedHost) (addr : Address) : MockedHost :=
  let recorded :=
    if host.recordedAccountAccesses.items.isEmpty then
      host.recordedAccountAccesses.reserve maxRecordedAccountAccesses
    else host.recordedAccountAccesses
  let recorded :=
    if recorded.items.length < maxRecordedAccountAccesses then recorded.emplaceBack addr
    else recorded
  { host with recordedAccountAccesses := recorded }

def accountExists (host : MockedHost) (addr : Address) : MockedHost × Bool :=
  let host := host.recordAccountAccess addr
  (host, host.accounts.count addr != 0)

def getStorage (host : MockedHost) (addr : Address) (key : Bytes32) : MockedHost × Bytes32 :=
  let host := host.recordAccountAccess addr
  match host.accounts.find addr with
  | none => (host, 0)
  | some account =>
      match account.storage.find key with
      | some value => (host, value.current)
      | none => (host, 0)

/-- The storage value behind the reference `accounts[addr].storage[key]`. -/
def storageEntry (host : MockedHost) (addr : Address) (key : Bytes32) : StorageValue :=
  (host.accounts.entry addr).storage.entry key

/-- The host after an assignment through that reference. It creates the account
and the slot where they are missing. -/
def assignStorage (host : MockedHost) (addr : Address) (key : Bytes32) (value : StorageValue) :
    MockedHost :=
  let account := host.accounts.entry addr
  { host with
    accounts := host.accounts.assign addr
      { account with storage := account.storage.assign key value } }

def setStorage (host : MockedHost) (addr : Address) (key value : Bytes32) :
    MockedHost × StorageStatus :=
  let host := host.recordAccountAccess addr
  let s := host.storageEntry addr key
  let run := storageStatus s.original s.current value
  (host.assignStorage addr key { s with current := value }, run.status)

def getBalance (host : MockedHost) (addr : Address) : MockedHost × Bytes32 :=
  let host := host.recordAccountAccess addr
  match host.accounts.find addr with
  | none => (host, 0)
  | some account => (host, account.balance)

def getCodeSize (host : MockedHost) (addr : Address) : MockedHost × Nat :=
  let host := host.recordAccountAccess addr
  match host.accounts.find addr with
  | none => (host, 0)
  | some account => (host, account.code.length)

def getCodeHash (host : MockedHost) (addr : Address) : MockedHost × Bytes32 :=
  let host := host.recordAccountAccess addr
  match host.accounts.find addr with
  | none => (host, 0)
  | some account => (host, account.codehash)

/-- The buffer is given by its contents and returned as the call leaves it. -/
def copyCode (host : MockedHost) (addr : Address) (codeOffset : Nat) (buffer : List UInt8) :
    MockedHost × Nat × List UInt8 :=
  let host := host.recordAccountAccess addr
  match host.accounts.find addr with
  | none => (host, 0, buffer)
  | some account =>
      let code := account.code
      if codeOffset ≥ code.length then (host, 0, buffer)
      else
        let n := min buffer.length (code.length - codeOffset)
        if n > 0 then (host, n, (code.drop codeOffset).take n ++ buffer.drop n)
        else (host, n, buffer)

/-- `input` is what the message's input pointer refers to during the call. -/
def call (host : MockedHost) (msg : Message) (input : List UInt8) : MockedHost × RawResult :=
  let host := host.recordAccountAccess msg.recipient
  let host :=
    if host.recordedCalls.items.isEmpty then
      { host with
        recordedCalls := host.recordedCalls.reserve maxRecordedCalls
        recordedCallsInputs := host.recordedCallsInputs.reserve maxRecordedCalls }
    else host
  let host :=
    if host.recordedCalls.items.length < maxRecordedCalls then
      if msg.inputSize > 0 then
        let inputs := host.recordedCallsInputs.emplaceBack (input.take msg.inputSize)
        let inputCopy := .copy host.recordedCallsInputs.items.length inputs.moves
        { host with
          recordedCalls := host.recordedCalls.emplaceBack { msg with inputData := inputCopy }
          recordedCallsInputs := inputs }
      else { host with recordedCalls := host.recordedCalls.emplaceBack msg }
    else host
  (host, host.callResult)

def getTxContext (host : MockedHost) : MockedHost × TxContext := (host, host.txContext)

def getBlockHash (host : MockedHost) (blockNumber : Int64) : MockedHost × Bytes32 :=
  ({ host with recordedBlockhashes := host.recordedBlockhashes ++ [blockNumber] }, host.blockHash)

def emitLog (host : MockedHost) (addr : Address) (data : List UInt8) (topics : List Bytes32) :
    MockedHost :=
  { host with recordedLogs := host.recordedLogs ++ [⟨addr, data, topics⟩] }

def accessAccount (host : MockedHost) (addr : Address) : MockedHost × AccessStatus :=
  let alreadyAccessed := host.recordedAccountAccesses.items.any fun accessed => accessed.beq addr
  let host := host.recordAccountAccess addr
  if addr.ge (addressLiteral "Q0000000000000000000000000000000000000001") &&
      addr.le (addressLiteral "Q0000000000000000000000000000000000000009") then (host, .warm)
  else (host, if alreadyAccessed then .warm else .cold)

def accessStorage (host : MockedHost) (addr : Address) (key : Bytes32) :
    MockedHost × AccessStatus :=
  let value := host.storageEntry addr key
  (host.assignStorage addr key { value with accessStatus := .warm }, value.accessStatus)

end MockedHost

/-- A call of one of the thirteen methods, with its arguments. -/
inductive HostCall where
  | accountExists (addr : Address)
  | getStorage (addr : Address) (key : Bytes32)
  | setStorage (addr : Address) (key value : Bytes32)
  | getBalance (addr : Address)
  | getCodeSize (addr : Address)
  | getCodeHash (addr : Address)
  | copyCode (addr : Address) (codeOffset : Nat) (buffer : List UInt8)
  | call (msg : Message) (input : List UInt8)
  | getTxContext
  | getBlockHash (blockNumber : Int64)
  | emitLog (addr : Address) (data : List UInt8) (topics : List Bytes32)
  | accessAccount (addr : Address)
  | accessStorage (addr : Address) (key : Bytes32)

inductive HostAnswer where
  | accountExists (found : Bool)
  | getStorage (value : Bytes32)
  | setStorage (status : StorageStatus)
  | getBalance (balance : Bytes32)
  | getCodeSize (size : Nat)
  | getCodeHash (hash : Bytes32)
  | copyCode (copied : Nat) (buffer : List UInt8)
  | call (result : RawResult)
  | getTxContext (context : TxContext)
  | getBlockHash (hash : Bytes32)
  | emitLog
  | accessAccount (status : AccessStatus)
  | accessStorage (status : AccessStatus)

/-- One call of the host interface. -/
def MockedHost.step : Semantics.Step MockedHost HostCall HostAnswer
  | host, .accountExists addr => (host.accountExists addr).map id .accountExists
  | host, .getStorage addr key => (host.getStorage addr key).map id .getStorage
  | host, .setStorage addr key value => (host.setStorage addr key value).map id .setStorage
  | host, .getBalance addr => (host.getBalance addr).map id .getBalance
  | host, .getCodeSize addr => (host.getCodeSize addr).map id .getCodeSize
  | host, .getCodeHash addr => (host.getCodeHash addr).map id .getCodeHash
  | host, .copyCode addr codeOffset buffer =>
      (host.copyCode addr codeOffset buffer).map id fun copied => .copyCode copied.1 copied.2
  | host, .call msg input => (host.call msg input).map id .call
  | host, .getTxContext => host.getTxContext.map id .getTxContext
  | host, .getBlockHash blockNumber => (host.getBlockHash blockNumber).map id .getBlockHash
  | host, .emitLog addr data topics => (host.emitLog addr data topics, .emitLog)
  | host, .accessAccount addr => (host.accessAccount addr).map id .accessAccount
  | host, .accessStorage addr key => (host.accessStorage addr key).map id .accessStorage

end Qrvmc
