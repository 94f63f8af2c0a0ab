import Qrvmc.Containers.Standard
import Qrvmc.Host.MockedHost
import Qrvmc.Types.Messages
import Qrvmc.Wrapper.Interface
import Qrvmc.Wrapper.Result

/-! The example host: its accounts, and the methods that do not depend on them. The accounts
lie in ordered maps, which take two keys for one when neither is less. For addresses and
32-byte values that is equality, so keys are found as in the maps of the mocked host. -/
namespace Qrvmc
open Containers

structure ExampleAccount where
  balance : Bytes32 := 0
  code : List UInt8 := []
  storage : UnorderedMap Bytes32 Bytes32 := default

instance : Inhabited Bytes32 := ⟨0⟩

instance : Inhabited ExampleAccount := ⟨{}⟩

/-- `code_hash`. -/
def ExampleAccount.codeHash (account : ExampleAccount) : Bytes32 :=
  account.code.foldl
    (fun ret v =>
      let i : Fin 32 := ⟨v.toNat % 32, Nat.mod_lt _ (by decide)⟩
      ⟨ret.bytes.set i.val (ret.bytes.get i ^^^ v) i.isLt⟩) 0

structure ExampleHost where
  accounts : UnorderedMap Address ExampleAccount := default

namespace ExampleHost

variable (host : ExampleHost)

def accountExists (addr : Address) : Bool := (host.accounts.find addr).isSome

def getStorage (addr : Address) (key : Bytes32) : Bytes32 :=
  match host.accounts.find addr with
  | none => 0
  | some account =>
      match account.storage.find key with
      | some value => value
      | none => 0

/-- The two references create the account and the slot where they are missing. -/
def setStorage (addr : Address) (key value : Bytes32) : ExampleHost × StorageStatus :=
  let account := host.accounts.entry addr
  let prevValue := account.storage.entry key
  ({ host with
      accounts := host.accounts.assign addr
        { account with storage := account.storage.assign key value } },
    if prevValue.beq value then .assigned else .modified)

def getBalance (addr : Address) : Bytes32 :=
  match host.accounts.find addr with
  | some account => account.balance
  | none => 0

def getCodeSize (addr : Address) : Nat :=
  match host.accounts.find addr with
  | some account => account.code.length
  | none => 0

def getCodeHash (addr : Address) : Bytes32 :=
  match host.accounts.find addr with
  | some account => account.codeHash
  | none => 0

/-- The buffer is given by its contents and returned as the call leaves it. -/
def copyCode (addr : Address) (codeOffset : Nat) (buffer : List UInt8) : Nat × List UInt8 :=
  match host.accounts.find addr with
  | none => (0, buffer)
  | some account =>
      let code := account.code
      if codeOffset ≥ code.length then (0, buffer)
      else
        let n := min buffer.length (code.length - codeOffset)
        if n > 0 then (n, (code.drop codeOffset).take n ++ buffer.drop n)
        else (n, buffer)

end ExampleHost
/-- An object of the class `ExampleHost`. -/
structure ExampleContext extends ExampleHost where
  txContext : TxContext := {}

/-- `operator""_bytes32`. -/
def bytes32Literal (s : String)
    (h : isLiteral (fromHexTo 32 (lit s)) := by decide) : Bytes32 :=
  ⟨literalValue (fromHexTo 32 (lit s)) h⟩

namespace ExampleContext

/-- `buffer` is what `malloc` returns for the copy of the input. -/
def call (buffer : Option Nat) (msg : Message) : RawResult :=
  qrvmcMakeResult buffer .revert msg.gas 0 msg.inputSize

/-- The subtraction wraps here, where the code leaves it undefined. -/
def getBlockHash (host : ExampleContext) (number : Int64) : Bytes32 :=
  let currentBlockNumber := host.txContext.blockNumber
  if number < currentBlockNumber && number ≥ currentBlockNumber - 256 then
    bytes32Literal "0xb10c8a5fb10c8a5fb10c8a5fb10c8a5fb10c8a5fb10c8a5fb10c8a5fb10c8a5f"
  else bytes32Literal "0x0000000000000000000000000000000000000000000000000000000000000000"

def accessAccount (_host : ExampleContext) (_addr : Address) : AccessStatus := .cold

def accessStorage (_host : ExampleContext) (_addr : Address) (_key : Bytes32) : AccessStatus :=
  .cold

/-- The example host as a host class. Only a store to storage changes it. -/
def methods (malloc : Nat → Option Nat) : HostMethods ExampleContext where
  accountExists addr host := (host.accountExists addr, host)
  getStorage addr key host := (host.getStorage addr key, host)
  setStorage addr key value host :=
    let (stored, status) := host.setStorage addr key value
    (status, { host with toExampleHost := stored })
  getBalance addr host := (host.getBalance addr, host)
  getCodeSize addr host := (host.getCodeSize addr, host)
  getCodeHash addr host := (host.getCodeHash addr, host)
  copyCode addr codeOffset bufferData bufferSize host :=
    let (copied, buffer) := host.copyCode addr codeOffset (bufferData.take bufferSize)
    ((copied, buffer ++ bufferData.drop bufferSize), host)
  call msg _ host := (call (malloc msg.inputSize) msg, host)
  getTxContext host := (host.txContext, host)
  getBlockHash number host := (host.getBlockHash number, host)
  emitLog _ _ _ _ _ host := ((), host)
  accessAccount addr host := (host.accessAccount addr, host)
  accessStorage addr key host := (host.accessStorage addr key, host)

end ExampleContext

/-- `example_host_create_context`. -/
def exampleHostCreateContext (txContext : TxContext) : ExampleContext := { txContext }

end Qrvmc
