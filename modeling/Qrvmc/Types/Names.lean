import Qrvmc.Types.Basic
import Qrvmc.Types.Messages

/-! The numbers and the names of status codes and revisions. -/
namespace Qrvmc

/-- The number of the enumerator. -/
def StatusCode.toInt : StatusCode → Int
  | .success => 0
  | .failure => 1
  | .revert => 2
  | .outOfGas => 3
  | .invalidInstruction => 4
  | .undefinedInstruction => 5
  | .stackOverflow => 6
  | .stackUnderflow => 7
  | .badJumpDestination => 8
  | .invalidMemoryAccess => 9
  | .callDepthExceeded => 10
  | .staticModeViolation => 11
  | .precompileFailure => 12
  | .contractValidationFailure => 13
  | .argumentOutOfRange => 14
  | .wasmUnreachableInstruction => 15
  | .wasmTrap => 16
  | .insufficientBalance => 17
  | .internalError => -1
  | .rejected => -2
  | .outOfMemory => -3
  | .other number => number.val.toInt

/-- `qrvmc_status_code_to_string`. -/
def qrvmcStatusCodeToString : StatusCode → List CChar
  | .success => lit "success"
  | .failure => lit "failure"
  | .revert => lit "revert"
  | .outOfGas => lit "out of gas"
  | .invalidInstruction => lit "invalid instruction"
  | .undefinedInstruction => lit "undefined instruction"
  | .stackOverflow => lit "stack overflow"
  | .stackUnderflow => lit "stack underflow"
  | .badJumpDestination => lit "bad jump destination"
  | .invalidMemoryAccess => lit "invalid memory access"
  | .callDepthExceeded => lit "call depth exceeded"
  | .staticModeViolation => lit "static mode violation"
  | .precompileFailure => lit "precompile failure"
  | .contractValidationFailure => lit "contract validation failure"
  | .argumentOutOfRange => lit "argument out of range"
  | .wasmUnreachableInstruction => lit "wasm unreachable instruction"
  | .wasmTrap => lit "wasm trap"
  | .insufficientBalance => lit "insufficient balance"
  | .internalError => lit "internal error"
  | .rejected => lit "rejected"
  | .outOfMemory => lit "out of memory"
  | .other _ => lit "<unknown>"

/-- The code, if it has a name of its own. -/
def StatusCode.named : StatusCode → Option StatusCode
  | .other _ => none
  | statusCode => some statusCode

/-- The code that a name stands for. -/
def statusCodeOfName (name : List CChar) : Option StatusCode :=
  [StatusCode.success, .failure, .revert, .outOfGas, .invalidInstruction, .undefinedInstruction,
    .stackOverflow, .stackUnderflow, .badJumpDestination, .invalidMemoryAccess, .callDepthExceeded,
    .staticModeViolation, .precompileFailure, .contractValidationFailure, .argumentOutOfRange,
    .wasmUnreachableInstruction, .wasmTrap, .insufficientBalance, .internalError, .rejected,
    .outOfMemory].find? fun statusCode => qrvmcStatusCodeToString statusCode = name

theorem statusCodeOfName_name (statusCode : StatusCode) :
    statusCodeOfName (qrvmcStatusCodeToString statusCode) = statusCode.named := by
  cases statusCode with
  | other number =>
      change statusCodeOfName (lit "<unknown>") = none
      decide +kernel
  | _ => decide +kernel

theorem eq_of_named {statusCode code : StatusCode} (h : statusCode.named = some code) :
    statusCode = code := by
  cases statusCode with
  | other number => cases h
  | _ => exact Option.some.inj h

theorem eq_of_same_name {first second : StatusCode} (hName : first.named = second.named)
    (hNamed : first.named.isSome) : first = second := by
  obtain ⟨code, hCode⟩ := Option.isSome_iff_exists.mp hNamed
  rw [eq_of_named hCode, eq_of_named (hName.symm.trans hCode)]

/-- Codes outside the enumeration share a name, and no others do. -/
theorem qrvmcStatusCodeToString_eq_iff (first second : StatusCode) :
    qrvmcStatusCodeToString first = qrvmcStatusCodeToString second ↔
      first.named = second.named := by
  constructor
  · intro h
    rw [← statusCodeOfName_name first, h, statusCodeOfName_name second]
  · intro h
    cases hFirst : first.named with
    | some code => rw [eq_of_same_name h (Option.isSome_iff_exists.mpr ⟨code, hFirst⟩)]
    | none =>
        have hSecond : second.named = none := h.symm.trans hFirst
        have hUnknown {statusCode : StatusCode} (hNone : statusCode.named = none) :
            qrvmcStatusCodeToString statusCode = lit "<unknown>" := by
          cases statusCode with
          | other number => rfl
          | _ => cases hNone
        rw [hUnknown hFirst, hUnknown hSecond]

/-- No name has a line break in it. -/
theorem newline_not_mem_name (statusCode : StatusCode) :
    chr '\n' ∉ qrvmcStatusCodeToString statusCode := by
  cases statusCode with
  | other number =>
      change chr '\n' ∉ lit "<unknown>"
      decide +kernel
  | _ => decide +kernel

def qrvmcShanghai : Int32 := 1

/-- `qrvmc_revision_to_string`. An argument outside the enumeration is possible. -/
def qrvmcRevisionToString (rev : Int32) : List CChar :=
  if rev = qrvmcShanghai then lit "Shanghai" else lit "<unknown>"

end Qrvmc
