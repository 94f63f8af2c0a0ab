import Qrvmc.Types.Basic

/-! The command line of the VM tester. Arguments are texts. A stream is what has been
written to it, and the arguments stored so far stay stored when parsing fails. -/
namespace Qrvmc.VmTester

/-- `std::string::npos`. -/
def npos : Nat := 0xffffffffffffffff

/-- `find_first_not_of` a character. -/
def findFirstNotOf (s : List CChar) (c : CChar) : Nat := (s.findIdx? fun h => h != c).getD npos

structure CliParser where
  applicationName : List CChar
  applicationVersion : List CChar
  argumentsNames : List (List CChar)
  arguments : List (List CChar) := []

/-- The constructor. -/
def cliParser (appName appVersion : List CChar) (argsNames : List (List CChar)) : CliParser where
  applicationName := appName
  applicationVersion := appVersion
  argumentsNames := argsNames

/-- The local variables of `parse`, with the arguments that it stores. -/
structure ParseState where
  help : Bool := false
  version : Bool := false
  numArgs : Nat := 0
  arguments : List (List CChar)

def unexpectedArgument (arg : List CChar) : List CChar :=
  lit "Unexpected argument \"" ++ arg ++ lit "\"\n"

def unknownOption (arg : List CChar) : List CChar :=
  lit "Unknown option \"" ++ arg ++ lit "\"\n"

/-- The loop over `argv[1]` and the arguments after it, with the text of the error that
makes `parse` return from inside it. -/
def parseLoop (namesCount : Nat) :
    List (List CChar) → ParseState → ParseState × Option (List CChar)
  | [], state => (state, none)
  | argv :: rest, state =>
      let x := findFirstNotOf argv (chr '-')
      if x = 0 then
        let state := { state with numArgs := state.numArgs + 1 }
        if state.numArgs > namesCount then (state, some (unexpectedArgument argv))
        else parseLoop namesCount rest { state with arguments := state.arguments ++ [argv] }
      else if x ≤ 2 then
        let arg := argv.drop x
        if arg = lit "version" then parseLoop namesCount rest { state with version := true }
        else if arg = lit "help" then parseLoop namesCount rest { state with help := true }
        else (state, some (unknownOption argv))
      else (state, some (unknownOption argv))

/-- What `parse` leaves behind and returns. -/
structure Parsed where
  cli : CliParser
  out : List CChar
  err : List CChar
  code : Int32

/-- The first line of the output. -/
def CliParser.banner (this : CliParser) : List CChar :=
  this.applicationName ++ lit " " ++ this.applicationVersion ++ lit "\n"

def CliParser.usage (this : CliParser) (program : List CChar) : List CChar :=
  lit "Usage: " ++ program ++ (this.argumentsNames.flatMap fun name => lit " " ++ name) ++ lit "\n"

def CliParser.required (this : CliParser) (numArgs : Nat) : List CChar :=
  ((this.argumentsNames.drop numArgs).flatMap fun name =>
    lit "The " ++ name ++ lit " argument is required.\n") ++
  lit "Run with --help for more information.\n"

def CliParser.parse (this : CliParser) (argv : List (List CChar)) : Exec Parsed :=
  let (state, failure) :=
    parseLoop this.argumentsNames.length argv.tail { arguments := this.arguments }
  let cli := { this with arguments := state.arguments }
  match failure with
  | some err => .ok { cli, out := [], err, code := -1 }
  | none =>
      let out := this.banner
      if state.help then
        match argv with
        | [] => .error .nullDereference
        | program :: _ => .ok { cli, out := out ++ this.usage program, err := [], code := 0 }
      else if state.version then .ok { cli, out, err := [], code := 0 }
      else if state.numArgs < this.argumentsNames.length then
        .ok { cli, out, err := this.required state.numArgs, code := -1 }
      else .ok { cli, out, err := [], code := 1 }

/-- `main` up to the module: what it returns early, or the module that it tests. -/
def mainModule (projectVersion : List CChar) (argv : List (List CChar)) :
    Exec (Int32 ⊕ List CChar) := do
  let cli := cliParser (lit "QRVMC VM Tester") projectVersion [lit "MODULE"]
  let parsed ← cli.parse argv
  if parsed.code ≤ 0 then return .inl parsed.code
  else
    match parsed.cli.arguments[0]? with
    | some qrvmcModule => return .inr qrvmcModule
    | none => throw .outOfBounds

end Qrvmc.VmTester
