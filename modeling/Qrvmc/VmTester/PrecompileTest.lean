import Qrvmc.Semantics.Run
import Qrvmc.Types.Messages

/-! The test of the VM tester that calls the precompiled contracts. What it does is kept
as a list of events. An expectation that is not met is one of them, and the test goes on.
The answers of a VM depend on the message only. -/
namespace Qrvmc.VmTester
open Semantics

/-- `QRVMC_CAPABILITY_PRECOMPILES`. -/
def capabilityPrecompiles : UInt32 := (1 : UInt32) <<< 2

/-- A VM instance. The test passes neither a host nor code. -/
structure TestedVm where
  capabilities : UInt32
  execute : Message → RawResult

/-- `qrvmc_vm_has_capability`. -/
def TestedVm.hasCapability (vm : TestedVm) (capability : UInt32) : Bool :=
  vm.capabilities &&& capability != 0

inductive Expectation where
  | statusCode
  | gasLeft
  | outputSize
  deriving DecidableEq

inductive TestEvent where
  | execute (msg : Message)
  | failure (expectation : Expectation)
  | readBuffer (ptr size : Nat)
  | release (function : Nat) (result : RawResult)

/-- An `EXPECT_` statement. -/
def expect (expectation : Expectation) (condition : Bool) : List TestEvent :=
  if condition then [] else [.failure expectation]

/-- The address that the loop composes of its index. -/
def precompileAddress (i : Nat) : Address :=
  ⟨((Vector.replicate 20 0).setIfInBounds 18 (UInt8.ofNat (i >>> 8))).setIfInBounds 19
    (UInt8.ofNat (i &&& 0xff))⟩

/-- An empty call of a code address. -/
def emptyCall (addr : Address) : Message where
  kind := .call
  flags := 0
  depth := 0
  gas := 65536
  recipient := 0
  sender := 0
  inputData := .null
  inputSize := 0
  value := 0
  create2Salt := 0
  codeAddress := addr

/-- The codes that precompiles may return. -/
def precompileCodes : List StatusCode := [.success, .outOfGas, .failure, .revert, .rejected]

def checkGasLeft (result : RawResult) : List TestEvent :=
  if result.statusCode ≠ .success ∧ result.statusCode ≠ .revert then
    expect .gasLeft (result.gasLeft == 0)
  else []

def checkOutput (result : RawResult) : List TestEvent :=
  match result.outputData with
  | none => expect .outputSize (result.outputSize == 0)
  | some ptr => if result.outputSize ≠ 0 then [.readBuffer ptr result.outputSize] else []

def releaseResult (result : RawResult) : List TestEvent :=
  match result.release with
  | none => []
  | some function => [.release function result]

/-- What an iteration does with the result. -/
def checkResult (result : RawResult) : List TestEvent :=
  expect .statusCode (result.statusCode ∈ precompileCodes) ++ checkGasLeft result ++
    checkOutput result ++ releaseResult result

/-- One iteration of the loop. -/
def precompileIteration (vm : TestedVm) (i : Nat) (log : List TestEvent) : List TestEvent :=
  let msg := emptyCall (precompileAddress i)
  let result := vm.execute msg
  log ++ (.execute msg :: checkResult result)

def precompileTest (vm : TestedVm) : List TestEvent :=
  if !vm.hasCapability capabilityPrecompiles then []
  else countLoop (precompileIteration vm) 0xffff 0 []

/-- A test passes when none of its expectations fails. -/
def passes (log : List TestEvent) : Prop := ∀ expectation, .failure expectation ∉ log

/-- The messages that the VM has executed, in order. -/
def executed (log : List TestEvent) : List Message :=
  log.filterMap fun event =>
    match event with
    | .execute msg => some msg
    | _ => none

end Qrvmc.VmTester
