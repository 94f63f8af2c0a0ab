import Qrvmc.ExampleVm.Dispatch
import Qrvmc.Types.Integers

/-! What bytecode means. The code is read as a list of instructions, which work on a stack
of integers and a memory of zeros where nothing was written. The instructions follow one
another, since none of them jumps, and each takes a unit of gas. -/
namespace Qrvmc.ExampleVm
open Bytes

inductive Instruction where
  | stop
  | add
  | address
  | calldataload
  | number
  | mstore
  | sload
  | sstore
  | msize
  | push (immediate : List UInt8)
  | cutOff
  | dup1
  | call
  | output (statusCode : StatusCode)
  | undefined
  deriving DecidableEq

/-- A push of the bytes that follow, as far as there are enough of them. -/
def pushInstruction (opcode : UInt8) (rest : List UInt8) : Instruction :=
  if pushSize opcode ≤ rest.length then .push (rest.take (pushSize opcode)) else .cutOff

/-- The instruction that an opcode and the bytes after it stand for. -/
def instruction (opcode : UInt8) (rest : List UInt8) : Instruction :=
  if opcode = 0x00 then .stop
  else if opcode = 0x01 then .add
  else if opcode = 0x30 then .address
  else if opcode = 0x35 then .calldataload
  else if opcode = 0x43 then .number
  else if opcode = 0x52 then .mstore
  else if opcode = 0x54 then .sload
  else if opcode = 0x55 then .sstore
  else if opcode = 0x59 then .msize
  else if IsPush opcode then pushInstruction opcode rest
  else if opcode = 0x80 then .dup1
  else if opcode = 0xf1 then .call
  else if opcode = 0xf3 then .output .success
  else if opcode = 0xfd then .output .revert
  else .undefined

/-- The instructions of a code, where a number of bytes at its start belong to one before. -/
def decodeFrom : Nat → List UInt8 → List Instruction
  | _, [] => []
  | 0, opcode :: rest => instruction opcode rest :: decodeFrom (pushSize opcode) rest
  | skip + 1, _ :: rest => decodeFrom skip rest

def decode (code : List UInt8) : List Instruction := decodeFrom 0 code

theorem decodeFrom_eq (skip : Nat) (code : List UInt8) :
    decodeFrom skip code = decode (code.drop skip) := by
  induction code generalizing skip with
  | nil => cases skip <;> rfl
  | cons byte rest ih =>
      cases skip with
      | zero => rfl
      | succ skip => exact ih skip

@[simp] theorem decode_nil : decode [] = [] := rfl

theorem decode_cons (opcode : UInt8) (rest : List UInt8) :
    decode (opcode :: rest) = instruction opcode rest :: decode (rest.drop (pushSize opcode)) := by
  rw [← decodeFrom_eq]
  rfl

/-- The state that instructions work on. The size of the memory is the end of the regions
that were asked for. -/
structure View (State : Type) where
  stack : List Nat := []
  size : Nat := 0
  memory : Nat → UInt8 := fun _ => 0
  world : HostWorld State

/-- A region is refused if its end, in 32 bits, is beyond the memory. -/
def View.claim {State : Type} (view : View State) (offset length : Nat) : Bool × View State :=
  let stop := (offset + length) % 4294967296
  if 1024 < stop then (false, view) else (true, { view with size := max view.size stop })

/-- How a run ends. The gas that is left is no part of it. -/
structure Ending where
  statusCode : StatusCode
  output : List UInt8 := []

/-- Only a success and a revert keep the gas that is left. -/
def Ending.report {State : Type} (env : Environment State) (gasLeft : Int64) (ending : Ending) :
    ExecutionResult :=
  if ending.output = [] then
    makeResult ending.statusCode
      (if ending.statusCode = .success ∨ ending.statusCode = .revert then gasLeft else 0) 0
  else
    { statusCode := ending.statusCode, gasLeft
      outputData := env.malloc ending.output.length, outputSize := ending.output.length
      release := some freeResultMemory, output := ending.output }

abbrev Meaning (State : Type) := StateT (View State) (Except Fault)

/-- The memory with bytes written from an index on. -/
def overwrite (memory : Nat → UInt8) (offset : Nat) (bytes : List UInt8) : Nat → UInt8 :=
  fun i => if offset ≤ i then bytes.getD (i - offset) (memory i) else memory i

/-- The 32 bytes of the input from an index on. Behind its end there are zeros. -/
def inputWord {State : Type} (env : Environment State) (offset : Nat) : List UInt8 :=
  (List.range' offset 32).map fun i => (env.input.take env.msg.inputSize).getD i 0

/-- The message of a nested call. -/
def nestedMessage (gas recipient value inputOffset inputLength : Nat) : Message where
  kind := .call
  flags := 0
  depth := 0
  gas := Int64.ofNat (gas % 4294967296)
  recipient := Address.ofNat recipient
  sender := 0
  inputData := .caller inputOffset
  inputSize := inputLength
  value := Bytes32.ofNat value
  create2Salt := 0
  codeAddress := 0

namespace Meaning

variable {State Value : Type}

def pop : Meaning State Nat := fun view =>
  match view.stack with
  | [] => .error .stackBounds
  | top :: rest => .ok (top, { view with stack := rest })

def push (n : Nat) : Meaning State Unit := fun view =>
  if view.stack.length < 1024 then .ok ((), { view with stack := n :: view.stack })
  else .error .stackBounds

/-- What the host does. -/
def host (action : StateM (HostWorld State) Value) : Meaning State Value := fun view =>
  .ok ((action view.world).1, { view with world := (action view.world).2 })

/-- Ask for a region. -/
def claim (offset length : Nat) : Meaning State Bool := fun view => .ok (view.claim offset length)

def load (offset length : Nat) : Meaning State (List UInt8) := fun view =>
  if offset + length ≤ 1024 then .ok ((List.range' offset length).map view.memory, view)
  else .error .memoryBounds

/-- Write bytes to the region that they need, unless it is refused. -/
def store (offset : Nat) (bytes : List UInt8) : Meaning State Bool := fun view =>
  match view.claim offset bytes.length with
  | (false, view) => .ok (false, view)
  | (true, view) =>
      if offset + bytes.length ≤ 1024 then
        .ok (true, { view with memory := overwrite view.memory offset bytes })
      else .error .memoryBounds

/-- End with a region of the memory as the output, where there is memory for the copy. -/
def finish (env : Environment State) (statusCode : StatusCode) (offset length : Nat) :
    Meaning State Ending := do
  if length = 0 then return { statusCode }
  else if env.malloc length = none then return { statusCode := .outOfMemory }
  else return { statusCode, output := ← load offset length }

def call (env : Environment State) : Meaning State (Option Ending) := do
  let gas ← pop
  let recipient ← pop
  let value ← pop
  let inputOffset ← pop
  let inputLength ← pop
  let inputGranted ← claim (inputOffset % 4294967296) (inputLength % 4294967296)
  let outputOffset ← pop
  let outputLength ← pop
  let outputGranted ← claim (outputOffset % 4294967296) (outputLength % 4294967296)
  if inputGranted && outputGranted then
    let input ← load (inputOffset % 4294967296) (inputLength % 4294967296)
    let result ← host (env.host.call env.context
      (nestedMessage gas recipient value (inputOffset % 4294967296) (inputLength % 4294967296))
      input)
    push (if result.statusCode = .success then 1 else 0)
    let view ← get
    let answer := env.outputData view.world result
    let _ ← store (outputOffset % 4294967296)
      (answer.take (min (outputLength % 4294967296) result.outputSize))
    host result.destructor
    return none
  else return some { statusCode := .failure }

/-- What an instruction does, and how it ends the run if it does. -/
def perform (env : Environment State) : Instruction → Meaning State (Option Ending)
  | .stop => return some { statusCode := .success }
  | .add => do
      let a ← pop
      let b ← pop
      push ((a + b) % 4294967296)
      return none
  | .address => do
      push env.msg.recipient.toNat
      return none
  | .calldataload => do
      let offset ← pop
      push (beNat (inputWord env (offset % 4294967296)))
      return none
  | .number => do
      let txContext ← host (env.host.getTxContext env.context)
      push (txContext.blockNumber.toInt % 4294967296).toNat
      return none
  | .mstore => do
      let offset ← pop
      let value ← pop
      if ← store (offset % 4294967296) (spell 32 value) then return none
      else return some { statusCode := .failure }
  | .sload => do
      let key ← pop
      let value ← host (env.host.getStorage env.context env.msg.recipient (Bytes32.ofNat key))
      push value.toNat
      return none
  | .sstore => do
      let key ← pop
      let value ← pop
      let _ ← host (env.host.setStorage env.context env.msg.recipient (Bytes32.ofNat key)
        (Bytes32.ofNat value))
      return none
  | .msize => do
      let view ← get
      push view.size
      return none
  | .push immediate => do
      push (beNat immediate)
      return none
  | .cutOff => throw .codeBounds
  | .dup1 => do
      let top ← pop
      push top
      push top
      return none
  | .call => call env
  | .output statusCode => do
      let offset ← pop
      let length ← pop
      if ← claim (offset % 4294967296) (length % 4294967296) then
        return some (← finish env statusCode (offset % 4294967296) (length % 4294967296))
      else return some { statusCode := .failure }
  | .undefined => return some { statusCode := .undefinedInstruction }

/-- Perform instructions in order, as long as there is gas for them. -/
def run (env : Environment State) :
    List Instruction → Nat → View State → Except Fault (ExecutionResult × HostWorld State)
  | [], gas, view =>
      .ok (Ending.report env (Int64.ofNat gas) { statusCode := .success }, view.world)
  | _ :: _, 0, view => .ok (Ending.report env 0 { statusCode := .outOfGas }, view.world)
  | instruction :: rest, gas + 1, view =>
      match perform env instruction view with
      | .error fault => .error fault
      | .ok (some ending, view) => .ok (ending.report env (Int64.ofNat gas), view.world)
      | .ok (none, view) => run env rest gas view

end Meaning
end Qrvmc.ExampleVm
