import Qrvmc.ExampleVm.Machine
import Qrvmc.Wrapper.Interface
import Qrvmc.Wrapper.Result

/-! The interpreter of the example VM. It reads one opcode at a time, charges one
unit of gas for it and performs it against a host. Each case of the switch is a
program of its own, and the loop runs until one of them gives a result. -/
namespace Qrvmc.ExampleVm

/-- The arguments of `execute`, with the bytes behind its pointers: the input of the
message, the code, and the output of a call as far as it may be read. -/
structure Environment (State : Type) where
  host : HostInterface State
  context : Nat
  msg : Message
  input : List UInt8
  code : List UInt8
  malloc : Nat → Option Nat
  outputData : HostWorld State → RawResult → List UInt8

/-- The variables of `execute`, and the world of the host. -/
structure Machine (State : Type) where
  gasLeft : Int64
  pc : Nat := 0
  stack : Stack := {}
  memory : Memory := {}
  world : HostWorld State

/-- A result with the bytes that its output data points to. -/
structure ExecutionResult extends RawResult where
  output : List UInt8

abbrev Interp (State : Type) := StateT (Machine State) (Except Fault)

variable {State Value : Type}

def onStack (action : Stack → Except Fault (Value × Stack)) : Interp State Value :=
  fun machine => (action machine.stack).map fun outcome =>
    (outcome.1, { machine with stack := outcome.2 })

def onMemory (action : Memory → Except Fault (Value × Memory)) : Interp State Value :=
  fun machine => (action machine.memory).map fun outcome =>
    (outcome.1, { machine with memory := outcome.2 })

def onWorld (action : StateM (HostWorld State) Value) : Interp State Value :=
  fun machine =>
    let outcome := action machine.world
    .ok (outcome.1, { machine with world := outcome.2 })

def pop : Interp State Bytes32 := onStack Stack.pop

def push (value : Bytes32) : Interp State Unit := onStack fun stack => stack.push value

def expand (offset regionSize : UInt32) : Interp State (Option Nat) :=
  onMemory fun memory => .ok (memory.expand offset regionSize)

def memoryStore (offset : UInt32) (valueData : List UInt8) (valueSize : UInt32) :
    Interp State Bool :=
  onMemory fun memory => memory.store offset valueData valueSize

/-- The bytes of a region of the memory. -/
def region (pointer size : Nat) : Interp State (List UInt8) :=
  onMemory fun memory =>
    (readFrom .memoryBounds memory.data.toList pointer size).map fun bytes => (bytes, memory)

/-- `qrvmc_make_result` without output. -/
def makeResult (statusCode : StatusCode) (gasLeft gasRefund : Int64) : ExecutionResult :=
  { qrvmcMakeResult none statusCode gasLeft gasRefund 0 with output := [] }

/-- `qrvmc_make_result` on a region of the memory, which is copied once there is a buffer. -/
def makeOutput (env : Environment State) (statusCode : StatusCode) (gasLeft gasRefund : Int64)
    (outputPtr outputSize : Nat) : Interp State ExecutionResult := do
  let raw := qrvmcMakeResult (env.malloc outputSize) statusCode gasLeft gasRefund outputSize
  if raw.outputData = none then return { raw with output := [] }
  else return { raw with output := ← region outputPtr outputSize }

/-- `size_t` arithmetic. -/
def sizeT (n : Nat) : Nat := n % 2 ^ 64

def opAdd : Interp State Unit := do
  let a := toUint32 (← pop)
  let b := toUint32 (← pop)
  let sum := a + b
  push (toUint256 sum)

def opAddress (env : Environment State) : Interp State Unit :=
  push (uint256OfAddress env.msg.recipient)

def opCalldataload (env : Environment State) : Interp State Unit := do
  let offset := toUint32 (← pop)
  if offset.toNat < env.msg.inputSize then
    let copySize := min (env.msg.inputSize - offset.toNat) 32
    let bytes ← readFrom .foreignBounds env.input offset.toNat copySize
    push ⟨copyInto (Vector.replicate 32 0) 0 bytes⟩
  else push 0

def opNumber (env : Environment State) : Interp State Unit := do
  let txContext ← onWorld (env.host.getTxContext env.context)
  push (toUint256 txContext.blockNumber.toUInt64.toUInt32)

def opMstore : Interp State (Option ExecutionResult) := do
  let index := toUint32 (← pop)
  let value ← pop
  if !(← memoryStore index value.bytes.toList 32) then return some (makeResult .failure 0 0)
  else return none

def opSload (env : Environment State) : Interp State Unit := do
  let index ← pop
  let value ← onWorld (env.host.getStorage env.context env.msg.recipient index)
  push value

def opSstore (env : Environment State) : Interp State Unit := do
  let index ← pop
  let value ← pop
  let _ ← onWorld (env.host.setStorage env.context env.msg.recipient index value)

def opMsize : Interp State Unit := do
  let machine ← get
  push (toUint256 machine.memory.size)

/-- The immediate bytes of the instruction are read before the program counter moves. -/
def opPush (env : Environment State) (opcode : UInt8) : Interp State Unit := do
  let numPushBytes := opcode.toNat - 0x60 + 1
  let offset := 32 - numPushBytes
  let machine ← get
  let bytes ← readFrom .codeBounds env.code (machine.pc + 1) numPushBytes
  modify fun machine => { machine with pc := sizeT (machine.pc + numPushBytes) }
  push ⟨copyInto (Vector.replicate 32 0) offset bytes⟩

def opDup1 : Interp State Unit := do
  let value ← pop
  push value
  push value

def opCall (env : Environment State) : Interp State (Option ExecutionResult) := do
  let gas := toUint32 (← pop)
  let recipient := toAddress (← pop)
  let value ← pop
  let callInputOffset := toUint32 (← pop)
  let callInputSize := toUint32 (← pop)
  let inputData ← expand callInputOffset callInputSize
  let callOutputOffset := toUint32 (← pop)
  let callOutputSize := toUint32 (← pop)
  let callOutputPtr ← expand callOutputOffset callOutputSize
  match inputData, callOutputPtr with
  | some inputPtr, some _ =>
      let callMsg : Message :=
        { kind := .call, flags := 0, depth := 0, gas := Int64.ofNat gas.toNat, recipient,
          sender := 0, inputData := .caller inputPtr, inputSize := callInputSize.toNat, value,
          create2Salt := 0, codeAddress := 0 }
      let input ← region inputPtr callInputSize.toNat
      let callResult ← onWorld (env.host.call env.context callMsg input)
      push (toUint256 (if callResult.statusCode = .success then 1 else 0))
      let callOutputSize :=
        if callOutputSize.toNat > callResult.outputSize then callResult.outputSize.toUInt32
        else callOutputSize
      let outputData := env.outputData (← get).world callResult
      let _ ← memoryStore callOutputOffset outputData callOutputSize
      onWorld callResult.destructor
      return none
  | _, _ => return some (makeResult .failure 0 0)

/-- `OP_RETURN` and `OP_REVERT` differ in the status code. -/
def opOutput (env : Environment State) (statusCode : StatusCode) :
    Interp State (Option ExecutionResult) := do
  let outputOffset := toUint32 (← pop)
  let outputSize := toUint32 (← pop)
  match ← expand outputOffset outputSize with
  | none => return some (makeResult .failure 0 0)
  | some outputPtr =>
      let machine ← get
      return some (← makeOutput env statusCode machine.gasLeft 0 outputPtr outputSize.toNat)

def opReturn (env : Environment State) : Interp State (Option ExecutionResult) :=
  opOutput env .success

def opRevert (env : Environment State) : Interp State (Option ExecutionResult) :=
  opOutput env .revert

/-- A case of the switch that ends with `break`. -/
def proceed (instruction : Interp State Unit) : Interp State (Option ExecutionResult) := do
  instruction
  return none

/-- The switch, with the result of the cases that return. -/
def dispatch (env : Environment State) (opcode : UInt8) : Interp State (Option ExecutionResult) :=
  if opcode = 0x00 then do return some (makeResult .success (← get).gasLeft 0)
  else if opcode = 0x01 then proceed opAdd
  else if opcode = 0x30 then proceed (opAddress env)
  else if opcode = 0x35 then proceed (opCalldataload env)
  else if opcode = 0x43 then proceed (opNumber env)
  else if opcode = 0x52 then opMstore
  else if opcode = 0x54 then proceed (opSload env)
  else if opcode = 0x55 then proceed (opSstore env)
  else if opcode = 0x59 then proceed opMsize
  else if 0x60 ≤ opcode ∧ opcode ≤ 0x7f then proceed (opPush env opcode)
  else if opcode = 0x80 then proceed opDup1
  else if opcode = 0xf1 then opCall env
  else if opcode = 0xf3 then opReturn env
  else if opcode = 0xfd then opRevert env
  else return some (makeResult .undefinedInstruction 0 0)

/-- The body of the loop. -/
def iteration (env : Environment State) : Interp State (Option ExecutionResult) := do
  let machine ← get
  if machine.gasLeft = Int64.minValue then throw .signedOverflow
  else do
    set { machine with gasLeft := machine.gasLeft - 1 }
    if machine.gasLeft - 1 < 0 then return some (makeResult .outOfGas 0 0)
    else
      match env.code[machine.pc]? with
      | none => throw .codeBounds
      | some opcode =>
          match ← dispatch env opcode with
          | some result => return some result
          | none =>
              modify fun machine => { machine with pc := sizeT (machine.pc + 1) }
              return none

/-- The loop of `execute`, as often as the fuel allows. -/
def loop (env : Environment State) : Nat → Interp State ExecutionResult
  | 0 => throw .outOfFuel
  | fuel + 1 => do
      if (← get).pc < env.code.length then
        match ← iteration env with
        | some result => return result
        | none => loop env fuel
      else return makeResult .success (← get).gasLeft 0

/-- The machine at the start of `execute`. -/
def initial (env : Environment State) (world : HostWorld State) : Machine State :=
  { gasLeft := env.msg.gas, world }

def execute (env : Environment State) (world : HostWorld State) :
    Except Fault (ExecutionResult × Machine State) :=
  loop env (env.code.length + 1) (initial env world)

end Qrvmc.ExampleVm
