import Qrvmc.Hex.Encode
import Qrvmc.Semantics.Run
import Qrvmc.Types.Messages

/-! The benchmark of the tooling library. Times are signed 64-bit counts of nanoseconds.
A signed operation without a value in its type and a division by zero end the run. -/
namespace Qrvmc.Tooling
open Semantics

inductive BenchFault where
  | signedOverflow
  | divisionByZero
  deriving DecidableEq

/-- The value of an expression of type `int64_t`. -/
def int64 (value : Int) : Except BenchFault Int64 :=
  if -2 ^ 63 ≤ value ∧ value < 2 ^ 63 then .ok (Int64.ofInt value) else .error .signedOverflow

def subtract (a b : Int64) : Except BenchFault Int64 := int64 (a.toInt - b.toInt)

def divide (a b : Int64) : Except BenchFault Int64 :=
  if b = 0 then .error .divisionByZero else int64 (a.toInt.tdiv b.toInt)

/-- The parts of a result that are looked at. The output is what its view shows. What the VM
itself writes to the stream meanwhile, if it is the standard output, is `written`. -/
structure ExecuteResult where
  gasLeft : Int64
  output : List UInt8
  written : List CChar := []

/-- A VM with a host under one revision. The state is all that executions may change. -/
abbrev Executor (State : Type) := Message → List UInt8 → State → ExecuteResult × State

/-- The readings of the steady clock, in order. -/
abbrev Clock := Nat → Int64

/-- The state of VM and host, how often the VM was executed, the number of clock readings
and the output. -/
structure BenchWorld (State : Type) where
  state : State
  executions : Nat := 0
  readings : Nat := 0
  out : List CChar := []

variable {State : Type}

namespace BenchWorld

def execute (vm : Executor State) (msg : Message) (code : List UInt8) (world : BenchWorld State) :
    ExecuteResult × BenchWorld State :=
  let (result, state) := vm msg code world.state
  (result, { world with
    state
    executions := world.executions + 1
    out := world.out ++ result.written })

def now (clock : Clock) (world : BenchWorld State) : Int64 × BenchWorld State :=
  (clock world.readings, { world with readings := world.readings + 1 })

def print (text : List CChar) (world : BenchWorld State) : BenchWorld State :=
  { world with out := world.out ++ text }

end BenchWorld

def unitName : List CChar := lit " ns"

/-- `std::chrono::seconds{1}` as a count of nanoseconds. -/
def targetBenchTime : Int64 := 1000000000

def warning : List CChar :=
  lit "WARNING! Inconsistent execution result likely due to the use of storage "

/-- The warning about the gas that was left. -/
def warnGas (msg : Message) (result expectedResult : ExecuteResult) (world : BenchWorld State) :
    Except BenchFault (BenchWorld State) :=
  if result.gasLeft ≠ expectedResult.gasLeft then do
    let gasUsed ← subtract msg.gas result.gasLeft
    return world.print (warning ++ lit "(gas used: " ++ printed gasUsed.toInt ++ lit ")\n")
  else return world

/-- The warning about the output. -/
def warnOutput (result expectedResult : ExecuteResult) (world : BenchWorld State) :
    BenchWorld State :=
  if result.output ≠ expectedResult.output then
    world.print (warning ++ lit "(output: " ++ hex result.output ++ lit ")\n")
  else world

/-- The target time in probes, narrowed to `int` and at least one. -/
def numIterations (probeTime : Int64) : Except BenchFault Int32 := do
  let quotient ← divide targetBenchTime probeTime
  return if quotient.toInt32 < 1 then 1 else quotient.toInt32

/-- The line that reports the average time. -/
def report (benchTime : Int64) (iterations : Int32) : List CChar :=
  lit "Time:     " ++ printed benchTime.toInt ++ unitName ++ lit " (avg of " ++
    printed iterations.toInt ++ lit " iterations)\n"

/-- The benchmark loop. -/
def benchLoop (vm : Executor State) (msg : Message) (code : List UInt8) (iterations : Int32) :
    BenchWorld State → BenchWorld State :=
  countLoop (fun _ world => (world.execute vm msg code).2) iterations.toInt.toNat 0

def bench (vm : Executor State) (clock : Clock) (msg : Message) (code : List UInt8)
    (expectedResult : ExecuteResult) (world : BenchWorld State) :
    Except BenchFault (BenchWorld State) := do
  let (probeStart, world) := world.now clock
  let (result, world) := world.execute vm msg code
  let (benchStart, world) := world.now clock
  let probeTime ← subtract benchStart probeStart
  let world ← warnGas msg result expectedResult world
  let world := warnOutput result expectedResult world
  let iterations ← numIterations probeTime
  let world := benchLoop vm msg code iterations world
  let (stop, world) := world.now clock
  let elapsed ← subtract stop benchStart
  let benchTime ← divide elapsed iterations.toInt64
  return world.print (report benchTime iterations)

/-- The message of `run` without input, as far as no contract is created. -/
def runMessage (gas : Int64) : Message where
  kind := .call
  flags := 0
  depth := 0
  gas := gas
  recipient := 0
  sender := 0
  inputData := .null
  inputSize := 0
  value := 0
  create2Salt := 0
  codeAddress := 0

end Qrvmc.Tooling
