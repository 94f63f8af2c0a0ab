import Qrvmc.Host.MockedHost

/-! The host interface across the C boundary. A host object implements thirteen
methods. The C side sees them as a table of functions on an opaque pointer, and the
C++ side of a VM wraps table and pointer as methods again. -/
namespace Qrvmc

/-- The methods of a host class with objects of the given state, whatever they do.
Buffers are passed by contents and size, and results by their raw fields. -/
structure HostMethods (State : Type) where
  accountExists : Address → StateM State Bool
  getStorage : Address → Bytes32 → StateM State Bytes32
  setStorage : Address → Bytes32 → Bytes32 → StateM State StorageStatus
  getBalance : Address → StateM State Bytes32
  getCodeSize : Address → StateM State Nat
  getCodeHash : Address → StateM State Bytes32
  copyCode : Address → Nat → List UInt8 → Nat → StateM State (Nat × List UInt8)
  call : Message → List UInt8 → StateM State RawResult
  getTxContext : StateM State TxContext
  getBlockHash : Int64 → StateM State Bytes32
  emitLog : Address → List UInt8 → Nat → List Bytes32 → Nat → StateM State Unit
  accessAccount : Address → StateM State AccessStatus
  accessStorage : Address → Bytes32 → StateM State AccessStatus

/-- The host objects of a program by their addresses, and the results it released. -/
structure HostWorld (State : Type) where
  objects : Nat → State
  released : List RawResult := []

/-- `qrvmc_host_interface`, in the order of the header. -/
structure HostInterface (State : Type) where
  accountExists : Nat → Address → StateM (HostWorld State) Bool
  getStorage : Nat → Address → Bytes32 → StateM (HostWorld State) Bytes32
  setStorage : Nat → Address → Bytes32 → Bytes32 → StateM (HostWorld State) StorageStatus
  getBalance : Nat → Address → StateM (HostWorld State) Bytes32
  getCodeSize : Nat → Address → StateM (HostWorld State) Nat
  getCodeHash : Nat → Address → StateM (HostWorld State) Bytes32
  copyCode : Nat → Address → Nat → List UInt8 → Nat → StateM (HostWorld State) (Nat × List UInt8)
  call : Nat → Message → List UInt8 → StateM (HostWorld State) RawResult
  getTxContext : Nat → StateM (HostWorld State) TxContext
  getBlockHash : Nat → Int64 → StateM (HostWorld State) Bytes32
  emitLog : Nat → Address → List UInt8 → Nat → List Bytes32 → Nat →
    StateM (HostWorld State) Unit
  accessAccount : Nat → Address → StateM (HostWorld State) AccessStatus
  accessStorage : Nat → Address → Bytes32 → StateM (HostWorld State) AccessStatus

variable {State Value : Type}

/-- Run a method on the object that a host pointer names. -/
def onHost (host : Nat) (method : StateM State Value) : StateM (HostWorld State) Value :=
  fun world =>
    let (value, state) := method (world.objects host)
    (value, { world with objects := Function.update world.objects host state })

/-- `release_raw` on a result of these fields, with the fields it leaves. -/
def RawResult.releaseRaw (this : RawResult) : RawResult × RawResult :=
  (this, { this with release := none })

/-- `~Result()` on a result of these fields. -/
def RawResult.destructor (this : RawResult) : StateM (HostWorld State) Unit :=
  if this.release ≠ none then
    modify fun world => { world with released := world.released ++ [this] }
  else return

/-- `to_context`. The pointer is reinterpreted. -/
def toContext (host : Nat) : Nat := host

/-- `from_context`. -/
def fromContext (context : Nat) : Nat := context

namespace internal

variable (methods : HostMethods State) (h : Nat)

def accountExists (addr : Address) : StateM (HostWorld State) Bool :=
  onHost (fromContext h) (methods.accountExists addr)

def getStorage (addr : Address) (key : Bytes32) : StateM (HostWorld State) Bytes32 :=
  onHost (fromContext h) (methods.getStorage addr key)

def setStorage (addr : Address) (key value : Bytes32) : StateM (HostWorld State) StorageStatus :=
  onHost (fromContext h) (methods.setStorage addr key value)

def getBalance (addr : Address) : StateM (HostWorld State) Bytes32 :=
  onHost (fromContext h) (methods.getBalance addr)

def getCodeSize (addr : Address) : StateM (HostWorld State) Nat :=
  onHost (fromContext h) (methods.getCodeSize addr)

def getCodeHash (addr : Address) : StateM (HostWorld State) Bytes32 :=
  onHost (fromContext h) (methods.getCodeHash addr)

def copyCode (addr : Address) (codeOffset : Nat) (bufferData : List UInt8) (bufferSize : Nat) :
    StateM (HostWorld State) (Nat × List UInt8) :=
  onHost (fromContext h) (methods.copyCode addr codeOffset bufferData bufferSize)

/-- The result that the method returned is destroyed after its release. -/
def call (msg : Message) (input : List UInt8) : StateM (HostWorld State) RawResult := do
  let returned ← onHost (fromContext h) (methods.call msg input)
  let (out, rest) := returned.releaseRaw
  rest.destructor
  return out

def getTxContext : StateM (HostWorld State) TxContext :=
  onHost (fromContext h) methods.getTxContext

def getBlockHash (blockNumber : Int64) : StateM (HostWorld State) Bytes32 :=
  onHost (fromContext h) (methods.getBlockHash blockNumber)

def emitLog (addr : Address) (data : List UInt8) (dataSize : Nat) (topics : List Bytes32)
    (numTopics : Nat) : StateM (HostWorld State) Unit :=
  onHost (fromContext h) (methods.emitLog addr data dataSize topics numTopics)

def accessAccount (addr : Address) : StateM (HostWorld State) AccessStatus :=
  onHost (fromContext h) (methods.accessAccount addr)

def accessStorage (addr : Address) (key : Bytes32) : StateM (HostWorld State) AccessStatus :=
  onHost (fromContext h) (methods.accessStorage addr key)

end internal

/-- `Host::get_interface`. The table is filled by position. -/
def getInterface (methods : HostMethods State) : HostInterface State :=
  ⟨internal.accountExists methods, internal.getStorage methods,
    internal.setStorage methods, internal.getBalance methods,
    internal.getCodeSize methods, internal.getCodeHash methods,
    internal.copyCode methods, internal.call methods,
    internal.getTxContext methods, internal.getBlockHash methods,
    internal.emitLog methods, internal.accessAccount methods,
    internal.accessStorage methods⟩

structure HostContext (State : Type) where
  host : HostInterface State
  context : Nat

namespace HostContext

variable (this : HostContext State)

def accountExists (address : Address) : StateM (HostWorld State) Bool :=
  this.host.accountExists this.context address

def getStorage (address : Address) (key : Bytes32) : StateM (HostWorld State) Bytes32 :=
  this.host.getStorage this.context address key

def setStorage (address : Address) (key value : Bytes32) :
    StateM (HostWorld State) StorageStatus :=
  this.host.setStorage this.context address key value

def getBalance (address : Address) : StateM (HostWorld State) Bytes32 :=
  this.host.getBalance this.context address

def getCodeSize (address : Address) : StateM (HostWorld State) Nat :=
  this.host.getCodeSize this.context address

def getCodeHash (address : Address) : StateM (HostWorld State) Bytes32 :=
  this.host.getCodeHash this.context address

def copyCode (address : Address) (codeOffset : Nat) (bufferData : List UInt8) (bufferSize : Nat) :
    StateM (HostWorld State) (Nat × List UInt8) :=
  this.host.copyCode this.context address codeOffset bufferData bufferSize

/-- The raw result becomes a result object of the same fields. -/
def call (message : Message) (input : List UInt8) : StateM (HostWorld State) RawResult :=
  this.host.call this.context message input

def getTxContext : StateM (HostWorld State) TxContext := this.host.getTxContext this.context

def getBlockHash (number : Int64) : StateM (HostWorld State) Bytes32 :=
  this.host.getBlockHash this.context number

def emitLog (addr : Address) (data : List UInt8) (dataSize : Nat) (topics : List Bytes32)
    (topicsCount : Nat) : StateM (HostWorld State) Unit :=
  this.host.emitLog this.context addr data dataSize topics topicsCount

def accessAccount (address : Address) : StateM (HostWorld State) AccessStatus :=
  this.host.accessAccount this.context address

def accessStorage (address : Address) (key : Bytes32) : StateM (HostWorld State) AccessStatus :=
  this.host.accessStorage this.context address key

end HostContext

/-- A call of a method with all its arguments. -/
inductive HostOp where
  | accountExists (addr : Address)
  | getStorage (addr : Address) (key : Bytes32)
  | setStorage (addr : Address) (key value : Bytes32)
  | getBalance (addr : Address)
  | getCodeSize (addr : Address)
  | getCodeHash (addr : Address)
  | copyCode (addr : Address) (codeOffset : Nat) (bufferData : List UInt8) (bufferSize : Nat)
  | call (msg : Message) (input : List UInt8)
  | getTxContext
  | getBlockHash (blockNumber : Int64)
  | emitLog (addr : Address) (data : List UInt8) (dataSize : Nat) (topics : List Bytes32)
      (numTopics : Nat)
  | accessAccount (addr : Address)
  | accessStorage (addr : Address) (key : Bytes32)

/-- Call a method on a host object. -/
def HostMethods.perform (methods : HostMethods State) : HostOp → StateM State HostAnswer
  | .accountExists addr => return .accountExists (← methods.accountExists addr)
  | .getStorage addr key => return .getStorage (← methods.getStorage addr key)
  | .setStorage addr key value => return .setStorage (← methods.setStorage addr key value)
  | .getBalance addr => return .getBalance (← methods.getBalance addr)
  | .getCodeSize addr => return .getCodeSize (← methods.getCodeSize addr)
  | .getCodeHash addr => return .getCodeHash (← methods.getCodeHash addr)
  | .copyCode addr codeOffset bufferData bufferSize => do
      let (copied, buffer) ← methods.copyCode addr codeOffset bufferData bufferSize
      return .copyCode copied buffer
  | .call msg input => return .call (← methods.call msg input)
  | .getTxContext => return .getTxContext (← methods.getTxContext)
  | .getBlockHash blockNumber => return .getBlockHash (← methods.getBlockHash blockNumber)
  | .emitLog addr data dataSize topics numTopics => do
      methods.emitLog addr data dataSize topics numTopics
      return .emitLog
  | .accessAccount addr => return .accessAccount (← methods.accessAccount addr)
  | .accessStorage addr key => return .accessStorage (← methods.accessStorage addr key)

/-- Call a method of a host context. -/
def HostContext.perform (context : HostContext State) :
    HostOp → StateM (HostWorld State) HostAnswer
  | .accountExists addr => return .accountExists (← context.accountExists addr)
  | .getStorage addr key => return .getStorage (← context.getStorage addr key)
  | .setStorage addr key value => return .setStorage (← context.setStorage addr key value)
  | .getBalance addr => return .getBalance (← context.getBalance addr)
  | .getCodeSize addr => return .getCodeSize (← context.getCodeSize addr)
  | .getCodeHash addr => return .getCodeHash (← context.getCodeHash addr)
  | .copyCode addr codeOffset bufferData bufferSize => do
      let (copied, buffer) ← context.copyCode addr codeOffset bufferData bufferSize
      return .copyCode copied buffer
  | .call msg input => return .call (← context.call msg input)
  | .getTxContext => return .getTxContext (← context.getTxContext)
  | .getBlockHash blockNumber => return .getBlockHash (← context.getBlockHash blockNumber)
  | .emitLog addr data dataSize topics numTopics => do
      context.emitLog addr data dataSize topics numTopics
      return .emitLog
  | .accessAccount addr => return .accessAccount (← context.accessAccount addr)
  | .accessStorage addr key => return .accessStorage (← context.accessStorage addr key)

/-- The methods as a machine that answers one call at a time. -/
def HostMethods.step (methods : HostMethods State) : Semantics.Step State HostOp HostAnswer :=
  fun state op => (methods.perform op state).swap

/-- The world as a machine, seen through a host context. -/
def HostContext.step (context : HostContext State) :
    Semantics.Step (HostWorld State) HostOp HostAnswer :=
  fun world op => (context.perform op world).swap

end Qrvmc
