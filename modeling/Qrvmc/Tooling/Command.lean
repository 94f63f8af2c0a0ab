import Qrvmc.Loader.Loader
import Qrvmc.Tooling.Arguments
import Qrvmc.Tooling.Run

/-! The main function of the tool, behind the parser of the command line. It loads the VM of
the configuration that it is given, executes code on it, and destroys it on the way out. -/
namespace Qrvmc.Tooling
open Memory Loader

/-- The number of the enumerator. -/
def loaderErrorNumber : LoaderErrorCode → Int
  | .success => 0
  | .cannotOpen => 1
  | .symbolNotFound => 2
  | .invalidArgument => 3
  | .vmCreationFailure => 4
  | .abiVersionMismatch => 5
  | .invalidOptionName => 6
  | .invalidOptionValue => 7
  | .unspecifiedError => -1

/-- The content of a variable behind an error code argument. -/
def errorCodeOf : ErrorCodePtr → LoaderErrorCode
  | .null => .unspecifiedError
  | .variable content => content

/-- A program that uses the loader, with what it has written so far. -/
structure Console where
  world : World
  out : List CChar := []
  err : List CChar := []

inductive ProgramFault where
  | undefined (fault : Undefined)
  | bench (fault : BenchFault)

abbrev Program := StateT Console (Except ProgramFault)

namespace Program

/-- A call of the loader library. -/
def loader {Value : Type} (program : Loader Value) : Program Value := fun console =>
  match program console.world with
  | .ok (value, world) => .ok (value, { console with world })
  | .error fault => .error (.undefined fault)

def exec {Value : Type} (outcome : Exec Value) : Program Value :=
  match outcome with
  | .ok value => pure value
  | .error fault => throw (.undefined fault)

def cout (text : List CChar) : Program Unit :=
  modify fun console => { console with out := console.out ++ text }

def cerr (text : List CChar) : Program Unit :=
  modify fun console => { console with err := console.err ++ text }

/-- `VM::~VM`. -/
def destroyVm : Option Vm → Program Unit
  | some vm => loader (destroy vm)
  | none => pure ()

end Program

/-- The line about a VM that is not loaded. -/
def loadingError (error : Option CText) (ec : LoaderErrorCode) : List CChar :=
  match error with
  | some error => error.chars ++ lit "\n"
  | none => lit "Loading error " ++ printed (loaderErrorNumber ec) ++ lit "\n"

/-- The part of a main function that reports why there is no VM. -/
def reportLoading (ec : LoaderErrorCode) : Program Unit := do
  let error ← Program.loader qrvmcLastErrorMsg
  Program.cerr (loadingError error ec)

def qrvmcLatestStableRevision : Int32 := qrvmcShanghai

/-- What the parser of the command line leaves in the variables of the main function. -/
structure Options where
  vmConfig : Option CText := none
  versionFlag : Bool := false
  runCmd : Bool := false
  codeArg : List CChar := []
  gas : Int64 := 1000000
  rev : Int32 := qrvmcLatestStableRevision
  inputArg : List CChar := []
  create : Bool := false
  bench : Bool := false

/-- What the tool finds when it is started. The parser answers with an exit code and a text
where it is told that an option is required. -/
structure Machine (State : Type) where
  env : Env
  files : Files
  version : Vm → List CChar
  execute : Vm → RunVm State
  start : State
  clock : Clock
  projectVersion : List CChar
  appExit : List CChar → Int × List CChar

inductive ToolException where
  | required (name : List CChar)
  | load (exception : LoadException)

/-- The text of the exception. -/
def LoadException.what : LoadException → List CChar
  | .badOptionalAccess => lit "bad optional access"
  | .invalidArgument what => what

variable {State : Type} (machine : Machine State) (options : Options)

/-- The branch of the version flag. -/
def printVersion (argv : List (List CChar)) (vm : Option Vm) : Program Unit := do
  match vm with
  | some vm =>
      let name ← Program.loader (readVm vm Vm.name)
      let version ← Program.loader (readVm vm machine.version)
      let vmConfig := (options.vmConfig.map Text.chars).getD []
      Program.cout (name.chars ++ lit " " ++ version ++ lit " (" ++ vmConfig ++ lit ")\n")
  | none => pure ()
  Program.cout (lit "QRVMC " ++ machine.projectVersion)
  match argv with
  | program :: _ => Program.cout (lit " (" ++ program ++ lit ")")
  | [] => pure ()
  Program.cout (lit "\n")

/-- The call of `tooling::run`. Each execution reads the same method of the instance. -/
def runVm (vm : Option Vm) (code input : List UInt8) : Program Int := do
  match vm with
  | none => throw (.undefined .nullDereference)
  | some vm =>
      let execute ← Program.loader (readVm vm machine.execute)
      match run execute machine.clock options.rev options.gas code input options.create
          options.bench machine.start with
      | .error fault => throw (.bench fault)
      | .ok (exitCode, final) =>
          Program.cout final.out
          return exitCode

/-- The branch of the run command. -/
def runCommand (vm : Option Vm) : Program (Except ToolException Int) := do
  match options.vmConfig with
  | none => return .error (.required (lit "--vm"))
  | some vmConfig =>
      Program.cout (lit "Config: " ++ vmConfig.chars ++ lit "\n")
      match ← Program.exec (loadFromHex machine.files options.codeArg) with
      | .error exception => return .error (.load exception)
      | .ok code =>
          match ← Program.exec (loadFromHex machine.files options.inputArg) with
          | .error exception => return .error (.load exception)
          | .ok input => return .ok (← runVm machine options vm code input)

/-- What is done with the VM. -/
def useVm (argv : List (List CChar)) (vm : Option Vm) : Program (Except ToolException Int) := do
  if options.versionFlag then
    printVersion machine options argv vm
    return .ok 0
  else if options.runCmd then runCommand machine options vm
  else return .ok 0

/-- The block that owns the VM. Leaving it destroys the VM. -/
def withVm (argv : List (List CChar)) : Program (Except ToolException Int) := do
  match options.vmConfig with
  | none => useVm machine options argv none
  | some vmConfig =>
      let (vm, errorCode) ← Program.loader
        (qrvmcLoadAndConfigure machine.env vmConfig (.variable .unspecifiedError))
      let ec := errorCodeOf errorCode
      if ec ≠ .success then
        reportLoading ec
        Program.destroyVm vm
        return .ok (loaderErrorNumber ec)
      else
        let outcome ← useVm machine options argv vm
        Program.destroyVm vm
        return outcome

/-- `main` of the tool, with the handlers of its exceptions. -/
def toolMain (argv : List (List CChar)) : Program Int := do
  match ← withVm machine options argv with
  | .ok exitCode => return exitCode
  | .error (.required name) =>
      let (exitCode, text) := machine.appExit name
      Program.cerr text
      return exitCode
  | .error (.load exception) =>
      Program.cerr (lit "Error: " ++ exception.what ++ lit "\n")
      return -1

end Qrvmc.Tooling
