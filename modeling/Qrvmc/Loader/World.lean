import Qrvmc.Loader.Format

/-! What the loader works on. The dynamic linker, the modules and the VMs are an
environment that may answer each request as it likes, also depending on all that
happened before. The trace lists what happened, and each message of a failure. -/
namespace Qrvmc
open Memory

inductive LoaderErrorCode where
  | success
  | cannotOpen
  | symbolNotFound
  | invalidArgument
  | vmCreationFailure
  | abiVersionMismatch
  | invalidOptionName
  | invalidOptionValue
  | unspecifiedError
  deriving DecidableEq

/-- An error code argument: null, or a variable of the caller with its contents. -/
inductive ErrorCodePtr where
  | null
  | variable (content : LoaderErrorCode)

/-- `if (error_code) *error_code = ec;` -/
def ErrorCodePtr.write : ErrorCodePtr → LoaderErrorCode → ErrorCodePtr
  | .null, _ => .null
  | .variable _, ec => .variable ec

@[simp] theorem ErrorCodePtr.write_write (errorCode : ErrorCodePtr) (first second : LoaderErrorCode) :
    (errorCode.write first).write second = errorCode.write second := by
  cases errorCode <;> rfl

/-- The fields of a VM instance that the loader reads. -/
structure Vm where
  instanceId : Nat
  abiVersion : Int32
  name : CText
  hasSetOption : Bool

abbrev DllHandle := Nat

abbrev CreateFn := Nat

inductive Event where
  | dllOpen (filename : CText) (handle : Option DllHandle)
  | dllGetErrorMsg (message : Option CText)
  | dllGetCreateFn (handle : DllHandle) (name : CText) (createFn : Option CreateFn)
  | dllClose (handle : DllHandle)
  | create (createFn : CreateFn) (vm : Option Vm)
  | readVm (vm : Vm)
  | setOption (vm : Vm) (name value : CText) (answer : Int32)
  | destroy (vm : Vm)
  | failure (errorCode : LoaderErrorCode) (message : CText)

def qrvmcAbiVersion : Int32 := 1

def pathMaxLength : Nat := 4096

def lastErrorMsgBufferSize : Nat := 511

/-- `prefix` in `qrvmc_load`. -/
def createFnPrefix : CText := text "qrvmc_create_"

def libPrefix : CText := text "lib"

/-- `sizeof(prefix)` in `qrvmc_load`, with the terminator. -/
def prefixSize : Nat := 14

structure Env where
  dllOpen : List Event → CText → Option DllHandle
  dllGetErrorMsg : List Event → Option CText
  dllGetCreateFn : List Event → DllHandle → CText → Option CreateFn
  create : List Event → CreateFn → Option Vm
  setOption : List Event → Vm → CText → CText → Int32
  uninitializedName : List Event → Vector CChar (prefixSize + pathMaxLength)
  uninitializedConfig : List Event → Vector CChar pathMaxLength

/-- Where `last_error_msg` points: nowhere, to the message buffer, or to a text of
the dynamic linker. -/
inductive ErrorMsgPtr where
  | null
  | buffer
  | linker (message : CText)

/-- The static variables of the loader, and the trace. -/
structure World where
  lastErrorMsg : ErrorMsgPtr := .null
  lastErrorMsgBuffer : Vector CChar (lastErrorMsgBufferSize + 1) := Vector.replicate _ 0
  trace : List Event := []

abbrev Loader := StateT World Exec

/-- A memory operation that fails when it would leave its block. -/
def inBounds {Value : Type} : Option Value → Exec Value
  | some value => .ok value
  | none => .error .outOfBounds

@[simp] theorem inBounds_some {Value : Type} (value : Value) :
    inBounds (some value) = .ok value := rfl

@[simp] theorem Exec.ok_bind {Value Result : Type} (value : Value) (next : Value → Exec Result) :
    (Except.ok value >>= next : Exec Result) = next value := rfl

namespace Loader

def setLastErrorMsg (pointer : ErrorMsgPtr) : Loader Unit :=
  modify fun world => { world with lastErrorMsg := pointer }

def emit (event : Event) : Loader Unit :=
  modify fun world => { world with trace := world.trace ++ [event] }

/-- Ask the environment, and add the request with its answer to the trace. -/
def ask {Answer : Type} (oracle : List Event → Answer) (event : Answer → Event) :
    Loader Answer := do
  let answer := oracle (← get).trace
  emit (event answer)
  return answer

def dllOpen (env : Env) (filename : CText) : Loader (Option DllHandle) :=
  ask (fun trace => env.dllOpen trace filename) (.dllOpen filename)

def dllGetErrorMsg (env : Env) : Loader (Option CText) := ask env.dllGetErrorMsg .dllGetErrorMsg

def dllGetCreateFn (env : Env) (handle : DllHandle) (name : CText) : Loader (Option CreateFn) :=
  ask (fun trace => env.dllGetCreateFn trace handle name) (.dllGetCreateFn handle name)

def dllClose (handle : DllHandle) : Loader Unit := emit (.dllClose handle)

def create (env : Env) (createFn : CreateFn) : Loader (Option Vm) :=
  ask (fun trace => env.create trace createFn) (.create createFn)

/-- Read a field of a VM instance. -/
def readVm {Field : Type} (vm : Vm) (field : Vm → Field) : Loader Field := do
  emit (.readVm vm)
  return field vm

def setOption (env : Env) (vm : Vm) (name value : CText) : Loader Int32 :=
  ask (fun trace => env.setOption trace vm name value) (.setOption vm name value)

/-- `qrvmc_destroy`. -/
def destroy (vm : Vm) : Loader Unit := emit (.destroy vm)

end Loader
end Qrvmc
