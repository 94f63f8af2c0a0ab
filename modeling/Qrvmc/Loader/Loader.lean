import Qrvmc.Loader.World

/-! The functions of `loader.c` for a POSIX build. Buffers are blocks of memory and
pointers into them are positions. Output parameters are passed in and returned. -/
namespace Qrvmc
open Memory Loader

variable {n : Nat}

/-- `strcpy_sx(dest + pos, destsz, src)`, with the buffer it leaves. -/
def strcpySx (dest : Vector CChar n) (pos destsz : Nat) (src : CText) :
    Exec (Vector CChar n × Int32) := do
  let len := src.length
  if len ≥ destsz then
    let dest ← inBounds (store dest pos 0)
    return (dest, 1)
  else
    let dest ← inBounds (memcpy dest pos src.chars)
    let dest ← inBounds (store dest (pos + len) 0)
    return (dest, 0)

/-- `vsnprintf`: what fits is written and terminated, the full length is returned. -/
def vsnprintf (dest : Vector CChar n) (size : Nat) (output : CText) :
    Exec (Vector CChar n × Nat) := do
  if size = 0 then return (dest, output.length)
  else
    let written := output.take (size - 1)
    let dest ← inBounds (memcpy dest 0 written.chars)
    let dest ← inBounds (store dest (0 + written.length) 0)
    return (dest, output.length)

/-- `set_error`, with its format and arguments as the message they compose. -/
def setError (errorCode : LoaderErrorCode) (output : CText) : Loader LoaderErrorCode := do
  emit (.failure errorCode output)
  let (buffer, length) ← vsnprintf (← get).lastErrorMsgBuffer lastErrorMsgBufferSize output
  modify fun world => { world with lastErrorMsgBuffer := buffer }
  if length < lastErrorMsgBufferSize then setLastErrorMsg .buffer
  return errorCode

/-- The loop that replaces each dash by an underscore. -/
def replaceDashes : Nat → Vector CChar n → Nat → Exec (Vector CChar n)
  | 0, _, _ => .error .outOfFuel
  | fuel + 1, block, dashPos => do
      match ← inBounds (strchr block dashPos (chr '-')) with
      | none => return block
      | some dashPos =>
          let block ← inBounds (store block dashPos (chr '_'))
          replaceDashes fuel block (dashPos + 1)

/-- The text that a pointer into another text refers to. -/
def textFrom (t : CText) (pos : Nat) : Exec CText :=
  if pos ≤ t.length then .ok (t.drop pos) else .error .outOfBounds

/-- The part of `qrvmc_load` that finds the name in the path, as a position in it. -/
def findName (filename : CText) : Exec Nat := do
  let namePos := match strrchr filename (chr '/') with
    | some sepPos => sepPos + 1
    | none => 0
  let libPrefixLength := libPrefix.length
  if strncmp (← textFrom filename namePos) libPrefix libPrefixLength then
    return namePos + libPrefixLength
  else return namePos

/-- The part of `qrvmc_load` that trims all file extensions. -/
def cutExtension (prefixedName : Vector CChar n) : Exec (Vector CChar n) := do
  match ← inBounds (strchr prefixedName 0 (chr '.')) with
  | some extPos => inBounds (store prefixedName extPos 0)
  | none => return prefixedName

/-- The part of `qrvmc_load` that builds the name of the create function. -/
def buildName (prefixedName : Vector CChar (prefixSize + pathMaxLength)) (filename : CText) :
    Exec (Vector CChar (prefixSize + pathMaxLength)) := do
  let prefixLength := createFnPrefix.length
  let (prefixedName, _) ←
    strcpySx prefixedName 0 (prefixSize + pathMaxLength) createFnPrefix
  let namePos ← findName filename
  let baseName := prefixLength
  let (prefixedName, _) ←
    strcpySx prefixedName baseName pathMaxLength (← textFrom filename namePos)
  let prefixedName ← cutExtension prefixedName
  replaceDashes pathMaxLength prefixedName baseName

/-- `qrvmc_load` up to its exit label. -/
def loadCreateFn (env : Env) : Option CText → Loader (Option CreateFn × LoaderErrorCode)
  | none => do
      let ec ← setError .invalidArgument (message "invalid argument: file name cannot be null" [])
      return (none, ec)
  | some filename => do
      let length := filename.length
      if length = 0 then
        let ec ← setError .invalidArgument
          (message "invalid argument: file name cannot be empty" [])
        return (none, ec)
      else if length > pathMaxLength then
        let ec ← setError .invalidArgument
          (message
            "invalid argument: file name is too long (%d, maximum allowed length is %d)"
            [.int (Int32.ofNat length), .int (Int32.ofNat pathMaxLength)])
        return (none, ec)
      else
        match ← dllOpen env filename with
        | none =>
            match ← dllGetErrorMsg env with
            | some output =>
                setLastErrorMsg (.linker output)
                emit (.failure .cannotOpen output)
                return (none, .cannotOpen)
            | none =>
                setLastErrorMsg .null
                let ec ← setError .cannotOpen (message "cannot open %s" [.str filename])
                return (none, ec)
        | some handle =>
            let prefixedName ← buildName (env.uninitializedName (← get).trace) filename
            match ← dllGetCreateFn env handle (← inBounds (textAt prefixedName 0)) with
            | some createFn => return (some createFn, .success)
            | none =>
                match ← dllGetCreateFn env handle (text "qrvmc_create") with
                | some createFn => return (some createFn, .success)
                | none =>
                    dllClose handle
                    let ec ← setError .symbolNotFound
                      (message "QRVMC create function not found in %s" [.str filename])
                    return (none, ec)

def qrvmcLoad (env : Env) (filename : Option CText) (errorCode : ErrorCodePtr) :
    Loader (Option CreateFn × ErrorCodePtr) := do
  setLastErrorMsg .null
  let (createFn, ec) ← loadCreateFn env filename
  return (createFn, errorCode.write ec)

/-- `qrvmc_last_error_msg`, with the text that the returned pointer refers to. -/
def qrvmcLastErrorMsg : Loader (Option CText) := do
  let m := (← get).lastErrorMsg
  setLastErrorMsg .null
  match m with
  | .null => return none
  | .linker output => return some output
  | .buffer => return some (← inBounds (textAt (← get).lastErrorMsgBuffer 0))

/-- `qrvmc_load_and_create` from the call of the create function to the exit label. -/
def createVm (env : Env) (filename : CText) (createFn : CreateFn) :
    Loader (Option Vm × LoaderErrorCode) := do
  match ← create env createFn with
  | none =>
      let ec ← setError .vmCreationFailure
        (message "creating QRVMC VM of %s has failed" [.str filename])
      return (none, ec)
  | some vm =>
      if (← readVm vm Vm.abiVersion) = qrvmcAbiVersion then return (some vm, .success)
      else
        let abiVersion ← readVm vm Vm.abiVersion
        let ec ← setError .abiVersionMismatch
          (message "QRVMC ABI version %d of %s mismatches the expected version %d"
            [.int abiVersion, .str filename, .int qrvmcAbiVersion])
        destroy vm
        return (none, ec)

def qrvmcLoadAndCreate (env : Env) (filename : Option CText) (errorCode : ErrorCodePtr) :
    Loader (Option Vm × ErrorCodePtr) := do
  let (createFn, errorCode) ← qrvmcLoad env filename errorCode
  match createFn with
  | none => return (none, errorCode)
  | some createFn =>
      let (vm, ec) ← createVm env (← inBounds filename) createFn
      return (vm, errorCode.write ec)

/-- `get_token`, with the block it leaves, the slid pointer and the token. -/
def getToken (block : Vector CChar n) (strPtr : Nat) (delim : CChar) :
    Exec (Vector CChar n × Nat × Nat) := do
  let str := strPtr
  match ← inBounds (strchr block str delim) with
  | some delimPos =>
      let block ← inBounds (store block delimPos 0)
      return (block, delimPos + 1, str)
  | none =>
      let rest ← inBounds (textAt block str)
      return (block, strPtr + rest.length, str)

/-- The loop of `qrvmc_load_and_configure`, with the error code it ends with. -/
def setOptions (env : Env) (vm : Vm) (path : Nat) :
    Nat → Vector CChar n → Nat → Loader LoaderErrorCode
  | 0, _, _ => throw .outOfFuel
  | fuel + 1, block, options => do
      if (← inBounds (textAt block options)).length = 0 then return .success
      else if !(← readVm vm Vm.hasSetOption) then
        setError .invalidOptionName
          (message "%s (%s) does not support any options"
            [.str (← readVm vm Vm.name), .str (← inBounds (textAt block path))])
      else
        let (block, options, option) ← getToken block options (chr ',')
        let (block, option, name) ← getToken block option (chr '=')
        let nameText ← inBounds (textAt block name)
        let optionText ← inBounds (textAt block option)
        let pathText ← inBounds (textAt block path)
        let r ← setOption env vm nameText optionText
        if r = 0 then setOptions env vm path fuel block options
        else if r = 1 then
          setError .invalidOptionName
            (message "%s (%s): unknown option '%s'"
              [.str (← readVm vm Vm.name), .str pathText, .str nameText])
        else if r = 2 then
          setError .invalidOptionValue
            (message "%s (%s): unsupported value '%s' for option '%s'"
              [.str (← readVm vm Vm.name), .str pathText, .str optionText, .str nameText])
        else
          setError .invalidOptionValue
            (message "%s (%s): unknown error when setting value '%s' for option '%s'"
              [.str (← readVm vm Vm.name), .str pathText, .str optionText, .str nameText])

/-- `qrvmc_load_and_configure` from its exit label on. -/
def configureExit (vm : Option Vm) (ec : LoaderErrorCode) (errorCode : ErrorCodePtr) :
    Loader (Option Vm × ErrorCodePtr) := do
  let errorCode := errorCode.write ec
  if ec = .success then return (vm, errorCode)
  else
    match vm with
    | some vm =>
        destroy vm
        return (none, errorCode)
    | none => return (none, errorCode)

def qrvmcLoadAndConfigure (env : Env) (config : CText) (errorCode : ErrorCodePtr) :
    Loader (Option Vm × ErrorCodePtr) := do
  let (configCopy, failed) ←
    strcpySx (env.uninitializedConfig (← get).trace) 0 pathMaxLength config
  if failed ≠ 0 then
    let ec ← setError .invalidArgument
      (message "invalid argument: configuration is too long (maximum allowed length is %d)"
        [.int (Int32.ofNat pathMaxLength)])
    configureExit none ec errorCode
  else
    let (configCopy, options, path) ← getToken configCopy 0 (chr ',')
    let pathText ← inBounds (textAt configCopy path)
    let (vm, errorCode) ← qrvmcLoadAndCreate env (some pathText) errorCode
    match vm with
    | none => return (none, errorCode)
    | some vm =>
        let ec ← setOptions env vm path pathMaxLength configCopy options
        configureExit (some vm) ec errorCode

end Qrvmc
