import Qrvmc.Ownership.Heap
import Qrvmc.Types.Messages

/-! The result class of the C++ API. It is the raw structure, and its release pointer
alone tells whether it owns the output. Programs create, move, release, re-wrap and
destroy results, and results cross the C boundary of the host interface. -/
namespace Qrvmc
open Ownership

deriving instance DecidableEq for RawResult

/-- `qrvmc_free_result_memory`. -/
def freeResultMemory : Nat := 0

/-- `qrvmc_make_result`, where `buffer` is what `malloc` returns for the output size. -/
def qrvmcMakeResult (buffer : Option Nat) (statusCode : StatusCode) (gasLeft gasRefund : Int64)
    (outputSize : Nat) : RawResult :=
  if outputSize ≠ 0 then
    match buffer with
    | none => { statusCode := .outOfMemory }
    | some buffer =>
        { statusCode, gasLeft, gasRefund, outputData := some buffer, outputSize,
          release := some freeResultMemory }
  else { statusCode, gasLeft, gasRefund }

/-- A structure with the count of those adopted before the one it is a copy of. The
code does not see the count. -/
structure TrackedResult extends RawResult where
  origin : Nat
  deriving DecidableEq

abbrev ResultHeap := Heap TrackedResult TrackedResult

abbrev ResultCode := Code TrackedResult TrackedResult

namespace Result
open Code

/-- Give the next number to a raw result from outside. -/
def track (res : RawResult) : ResultCode TrackedResult := do
  let tracked := ⟨res, (← get).adopted.length⟩
  record tracked
  return tracked

/-- `Result(const qrvmc_result& res)`. -/
def ofRaw (res : TrackedResult) : ResultCode Unit := construct res

/-- `Result(_status_code, _gas_left, _gas_refund, _output_data, _output_size)`. -/
def ofOutput (buffer : Option Nat) (statusCode : StatusCode) (gasLeft gasRefund : Int64)
    (outputSize : Nat) : ResultCode Unit := do
  construct (← track (qrvmcMakeResult buffer statusCode gasLeft gasRefund outputSize))

/-- `Result(_status_code, _gas_left, _gas_refund)`. -/
def ofGas (statusCode : StatusCode) (gasLeft gasRefund : Int64) : ResultCode Unit := do
  construct (← track (qrvmcMakeResult none statusCode gasLeft gasRefund 0))

/-- `Result(_status_code, _gas_left, _gas_refund, _create_address)`. -/
def ofCreate (statusCode : StatusCode) (gasLeft gasRefund : Int64) (createAddress : Address) :
    ResultCode Unit := do
  construct (← track
    { qrvmcMakeResult none statusCode gasLeft gasRefund 0 with createAddress := createAddress })

/-- `~Result()`. The release function is called with the object itself. -/
def destructor (this : Nat) : ResultCode Unit := do
  let self ← load this
  if self.release ≠ none then dispose self

/-- `Result(Result&& other)`. -/
def moveConstruct (other : Nat) : ResultCode Unit := do
  construct (← load other)
  store other { ← load other with release := none }

/-- `operator=(Result&& other)`. -/
def moveAssign (this other : Nat) : ResultCode Unit := do
  destructor this
  store this (← load other)
  store other { ← load other with release := none }

/-- `release_raw`. -/
def releaseRaw (this : Nat) : ResultCode Unit := do
  let out ← load this
  store this { ← load this with release := none }
  handOut out

/-- The end of an object's lifetime. -/
def destroy (this : Nat) : ResultCode Unit := do
  destructor this
  retire this

/-- Wrap a structure that a caller got from `release_raw`. -/
def rewrap (raw : Nat) : ResultCode Unit := do
  ofRaw (← handIn raw)

end Result

/-- `internal::call`, from the object on that the method of the host returned. -/
def internalCall (returned : Nat) : ResultCode Nat := do
  let out := (← get).raws.length
  Result.releaseRaw returned
  Result.destroy returned
  return out

/-- `HostContext::call`. -/
def hostContextCall (returned : Nat) : ResultCode Unit := do
  Result.rewrap (← internalCall returned)

inductive ResultOp where
  | ofRaw (res : RawResult)
  | ofOutput (buffer : Option Nat) (statusCode : StatusCode) (gasLeft gasRefund : Int64)
      (outputSize : Nat)
  | ofGas (statusCode : StatusCode) (gasLeft gasRefund : Int64)
  | ofCreate (statusCode : StatusCode) (gasLeft gasRefund : Int64) (createAddress : Address)
  | moveConstruct (other : Nat)
  | moveAssign (this other : Nat)
  | releaseRaw (this : Nat)
  | rewrap (raw : Nat)
  | hostCall (returned : Nat)
  | destroy (this : Nat)

def ResultOp.exec : ResultOp → ResultCode Unit
  | .ofRaw res => do Result.ofRaw (← Result.track res)
  | .ofOutput buffer statusCode gasLeft gasRefund outputSize =>
      Result.ofOutput buffer statusCode gasLeft gasRefund outputSize
  | .ofGas statusCode gasLeft gasRefund => Result.ofGas statusCode gasLeft gasRefund
  | .ofCreate statusCode gasLeft gasRefund createAddress =>
      Result.ofCreate statusCode gasLeft gasRefund createAddress
  | .moveConstruct other => Result.moveConstruct other
  | .moveAssign this other => Result.moveAssign this other
  | .releaseRaw this => Result.releaseRaw this
  | .rewrap raw => Result.rewrap raw
  | .hostCall returned => hostContextCall returned
  | .destroy this => Result.destroy this

/-- A program over results, statement by statement. -/
def runResults : List ResultOp → ResultCode Unit
  | [] => return
  | op :: rest => do
      op.exec
      runResults rest

/-- A result owns its output while its release function is set. -/
def resultDiscipline : Discipline TrackedResult TrackedResult where
  owned cell := if cell.release ≠ none then some cell else none
  disown cell := { cell with release := none }
  owned_disown _ := rfl
  disown_disown _ := rfl

end Qrvmc
