import Qrvmc.Types.Values

/-! The plain records that cross the interface between a VM and its host, with
the fields of `qrvmc.h`. Pointers are kept apart from what they point to. -/
namespace Qrvmc

/-- A number of the type `int` that the enumeration of status codes does not have. -/
abbrev UndocumentedStatus := { number : Int32 // number < -3 ∨ 17 < number }

/-- `qrvmc_status_code`. A VM may also return a code that is not in the enumeration. -/
inductive StatusCode where
  | success
  | failure
  | revert
  | outOfGas
  | invalidInstruction
  | undefinedInstruction
  | stackOverflow
  | stackUnderflow
  | badJumpDestination
  | invalidMemoryAccess
  | callDepthExceeded
  | staticModeViolation
  | precompileFailure
  | contractValidationFailure
  | argumentOutOfRange
  | wasmUnreachableInstruction
  | wasmTrap
  | insufficientBalance
  | internalError
  | rejected
  | outOfMemory
  | other (number : UndocumentedStatus)
  deriving DecidableEq

inductive CallKind where
  | call
  | delegatecall
  | create
  | create2
  deriving DecidableEq

/-- Where input data lies: nowhere, in a buffer of the caller, or in the copy at
an index of the host's own record, valid while that record has moved so often. -/
inductive DataPointer where
  | null
  | caller (buffer : Nat)
  | copy (index moves : Nat)
  deriving DecidableEq

structure Message where
  kind : CallKind
  flags : UInt32
  depth : Int32
  gas : Int64
  recipient : Address
  sender : Address
  inputData : DataPointer
  inputSize : Nat
  value : Bytes32
  create2Salt : Bytes32
  codeAddress : Address

/-- `qrvmc_result`. The output and the release function are pointers. -/
structure RawResult where
  statusCode : StatusCode := .success
  gasLeft : Int64 := 0
  gasRefund : Int64 := 0
  outputData : Option Nat := none
  outputSize : Nat := 0
  release : Option Nat := none
  createAddress : Address := 0

structure TxContext where
  txGasPrice : Bytes32 := 0
  txOrigin : Address := 0
  blockCoinbase : Address := 0
  blockNumber : Int64 := 0
  blockTimestamp : Int64 := 0
  blockGasLimit : Int64 := 0
  blockPrevRandao : Bytes32 := 0
  chainId : Bytes32 := 0
  blockBaseFee : Bytes32 := 0

inductive AccessStatus where
  | cold
  | warm
  deriving DecidableEq

inductive StorageStatus where
  | assigned
  | added
  | deleted
  | modified
  | deletedAdded
  | modifiedDeleted
  | deletedRestored
  | addedDeleted
  | modifiedRestored
  deriving DecidableEq

end Qrvmc
