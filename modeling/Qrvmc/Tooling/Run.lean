import Qrvmc.Host.MockedHost
import Qrvmc.Tooling.Bench
import Qrvmc.Types.Names

/-! The run command of the tooling library. The code is executed in a fresh mocked host.
With `create`, it is first executed to give the code of a new account, which is then
executed in its place. -/
namespace Qrvmc.Tooling
open Containers

variable {State : Type}

/-- The parts of a result that the command looks at. -/
structure RunResult extends ExecuteResult where
  statusCode : StatusCode

/-- A VM, which is given a revision, a message with its input, code and a host. The state
is its own. -/
abbrev RunVm (State : Type) :=
  Int32 → Message → List UInt8 → List UInt8 → MockedHost × State → RunResult × MockedHost × State

namespace RunVm

def execute (vm : RunVm State) (rev : Int32) (msg : Message) (input code : List UInt8)
    (world : BenchWorld (MockedHost × State)) : RunResult × BenchWorld (MockedHost × State) :=
  let (result, state) := vm rev msg input code world.state
  (result, { world with
    state
    executions := world.executions + 1
    out := world.out ++ result.written })

/-- The VM as the benchmark sees it. -/
def executor (vm : RunVm State) (rev : Int32) (input : List UInt8) :
    Executor (MockedHost × State) :=
  fun msg code state =>
    ((vm rev msg input code state).1.toExecuteResult, (vm rev msg input code state).2)

end RunVm

def createAddress : Address := addressLiteral "Qc9ea7ed000000000000000000000000000000001"

def createGas : Int64 := 10000000

/-- The message of the command. -/
def callMessage (gas : Int64) (input : List UInt8) : Message where
  kind := .call
  flags := 0
  depth := 0
  gas
  recipient := 0
  sender := 0
  inputData := .caller 0
  inputSize := input.length
  value := 0
  create2Salt := 0
  codeAddress := 0

def createMessage : Message where
  kind := .create
  flags := 0
  depth := 0
  gas := createGas
  recipient := createAddress
  sender := 0
  inputData := .null
  inputSize := 0
  value := 0
  create2Salt := 0
  codeAddress := 0

/-- The new account is given its code. -/
def deploy (code : List UInt8) (host : MockedHost) : MockedHost :=
  { host with
    accounts := host.accounts.assign createAddress { host.accounts.entry createAddress with code } }

/-- The first line of the output. -/
def header (rev : Int32) (gas : Int64) (create : Bool) : List CChar :=
  (if create then lit "Creating and executing on " else lit "Executing on ") ++
    qrvmcRevisionToString rev ++ lit " with " ++ printed gas.toInt ++ lit " gas limit\n"

/-- The lines about a result. Only a success and a revert have an output. -/
def resultLines (statusCode : StatusCode) (gasUsed : Int) (output : List UInt8) : List CChar :=
  lit "Result:   " ++ qrvmcStatusCodeToString statusCode ++ lit "\nGas used: " ++
    printed gasUsed ++ lit "\n" ++
    (if statusCode = .success ∨ statusCode = .revert then lit "Output:   " ++ hex output ++ lit "\n"
    else [])

/-- The benchmark, where it is asked for. -/
def benchIf (benchmark : Bool) (vm : Executor State) (clock : Clock) (msg : Message)
    (code : List UInt8) (expectedResult : ExecuteResult) (world : BenchWorld State) :
    Except BenchFault (BenchWorld State) :=
  if benchmark then bench vm clock msg code expectedResult world else .ok world

/-- The part of the command that executes the code itself. -/
def runCode (vm : RunVm State) (clock : Clock) (rev : Int32) (msg : Message)
    (input execCode : List UInt8) (benchmark : Bool) (world : BenchWorld (MockedHost × State)) :
    Except BenchFault (Int × BenchWorld (MockedHost × State)) := do
  let world := world.print (lit "\n")
  let (result, world) := vm.execute rev msg input execCode world
  let world ← benchIf benchmark (vm.executor rev input) clock msg execCode
    result.toExecuteResult world
  let gasUsed ← subtract msg.gas result.gasLeft
  return (0, world.print (resultLines result.statusCode gasUsed.toInt result.output))

/-- The returned code of a failed creation is the number of its status. -/
def run (vm : RunVm State) (clock : Clock) (rev : Int32) (gas : Int64) (code input : List UInt8)
    (create benchmark : Bool) (state : State) :
    Except BenchFault (Int × BenchWorld (MockedHost × State)) :=
  let world : BenchWorld (MockedHost × State) := { state := ({}, state) }
  let world := world.print (header rev gas create)
  let msg := callMessage gas input
  if create then
    let (createResult, world) := vm.execute rev createMessage [] code world
    if createResult.statusCode ≠ .success then
      .ok (createResult.statusCode.toInt, world.print (lit "Contract creation failed: " ++
        qrvmcStatusCodeToString createResult.statusCode ++ lit "\n"))
    else
      let (host, state) := world.state
      runCode vm clock rev { msg with recipient := createAddress } input createResult.output
        benchmark { world with state := (deploy createResult.output host, state) }
  else runCode vm clock rev msg input code benchmark world

end Qrvmc.Tooling
