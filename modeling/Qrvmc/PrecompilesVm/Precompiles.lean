import Qrvmc.ExampleVm.Execute
import Qrvmc.Types.Integers

/-! The example VM of precompiled contracts. The code address names the contract, and
of those with a name only one is implemented. Arithmetic on gas is checked, as its
type is signed. The specification says by the number of the address what the VM should
answer. It does for all numbers but the first two, whose cases fall through to the
identity. -/
namespace Qrvmc.PrecompilesVm
open Bytes
open ExampleVm (Fault ExecutionResult readFrom)

/-- A value of `int64_t` that an operation computes. -/
def checkedInt64 (value : Int) : Except Fault Int64 :=
  if -2 ^ 63 ≤ value ∧ value < 2 ^ 63 then .ok (Int64.ofInt value) else .error .signedOverflow

/-- The release function of a result of `execute_identity`. -/
def deleteOutputData : Nat := 1

/-- `buffer` is what `new` returns, and `input` is what the input pointer of the message
refers to. -/
def executeIdentity (msg : Message) (input : List UInt8) (buffer : Nat) :
    Except Fault ExecutionResult := do
  let inputSize := Int64.ofNat msg.inputSize
  let sum ← checkedInt64 (inputSize.toInt + 31)
  let words ← checkedInt64 (sum.toInt.tdiv 32)
  let wordCost ← checkedInt64 (3 * words.toInt)
  let gasCost ← checkedInt64 (15 + wordCost.toInt)
  let gasLeft ← checkedInt64 (msg.gas.toInt - gasCost.toInt)
  if gasLeft < 0 then return { statusCode := .outOfGas, output := [] }
  else
    let data ← readFrom .foreignBounds input 0 msg.inputSize
    return { statusCode := .success, outputData := some buffer, outputSize := msg.inputSize,
             release := some deleteOutputData, gasLeft, output := data }

def executeEmpty (msg : Message) : ExecutionResult :=
  { statusCode := .success, gasLeft := msg.gas, output := [] }

def notImplemented : ExecutionResult := { statusCode := .rejected, output := [] }

/-- The cases 1 and 2 of the switch have no statement of their own and fall through. -/
def execute (msg : Message) (input : List UInt8) (buffer : Nat) : Except Fault ExecutionResult :=
  let addr := msg.codeAddress
  if (addr.bytes.toList.take 18).any fun x => x != 0 then
    .ok { statusCode := .rejected, output := [] }
  else
    let id := addr.bytes[18].toNat <<< 8 ||| addr.bytes[19].toNat
    if id = 1 ∨ id = 2 ∨ id = 4 then executeIdentity msg input buffer
    else if id = 5 ∨ id = 6 ∨ id = 7 ∨ id = 8 then .ok notImplemented
    else .ok (executeEmpty msg)

/-- What a caller sees of a result. -/
structure Outcome where
  statusCode : StatusCode
  gasLeft : Int
  outputSize : Nat
  output : List UInt8
  deriving DecidableEq

def outcome (result : ExecutionResult) : Outcome :=
  ⟨result.statusCode, result.gasLeft.toInt, result.outputSize, result.output⟩

/-- The outcome with no gas left and no output. -/
def Outcome.failed (statusCode : StatusCode) : Outcome := ⟨statusCode, 0, 0, []⟩

def identityCost (inputSize : Nat) : Int := 15 + 3 * ((inputSize + 31) / 32 : Nat)

def identityOutcome (msg : Message) (input : List UInt8) : Outcome :=
  if msg.gas.toInt < identityCost msg.inputSize then .failed .outOfGas
  else ⟨.success, msg.gas.toInt - identityCost msg.inputSize, msg.inputSize, input⟩

/-- The outcome for the number of the code address. -/
def specification (msg : Message) (input : List UInt8) : Outcome :=
  let n := msg.codeAddress.toNat
  if 0xffff < n then .failed .rejected
  else if n = 1 ∨ n = 2 ∨ n = 5 ∨ n = 6 ∨ n = 7 ∨ n = 8 then .failed .rejected
  else if n = 4 then identityOutcome msg input
  else ⟨.success, msg.gas.toInt, 0, []⟩

theorem checkedInt64_ok {value : Int} (hLow : -2 ^ 63 ≤ value) (hHigh : value < 2 ^ 63) :
    ∃ result, checkedInt64 value = .ok result ∧ result.toInt = value :=
  ⟨Int64.ofInt value, if_pos ⟨hLow, hHigh⟩, Int64.toInt_ofInt_of_le hLow hHigh⟩

/-- No operation on gas overflows. -/
theorem executeIdentity_outcome {msg : Message} {input : List UInt8} (buffer : Nat)
    (hGas : 0 ≤ msg.gas) (hSize : msg.inputSize < 2 ^ 62) (hInput : input.length = msg.inputSize) :
    ∃ result, executeIdentity msg input buffer = .ok result ∧
      outcome result = identityOutcome msg input := by
  have hPositive : 0 ≤ msg.gas.toInt := Int64.le_iff_toInt_le.mp hGas
  have hBound := msg.gas.toInt_lt
  have hInputSize : (Int64.ofNat msg.inputSize).toInt = msg.inputSize :=
    Int64.toInt_ofNat_of_lt (by omega)
  obtain ⟨sum, hSum, hSumInt⟩ := @checkedInt64_ok ((msg.inputSize : Int) + 31) (by omega) (by omega)
  have hDiv : sum.toInt.tdiv 32 = sum.toInt / 32 := Int.tdiv_eq_ediv_of_nonneg (by omega)
  obtain ⟨words, hWords, hWordsInt⟩ := @checkedInt64_ok (sum.toInt.tdiv 32) (by omega) (by omega)
  obtain ⟨wordCost, hWordCost, hWordCostInt⟩ :=
    @checkedInt64_ok (3 * words.toInt) (by omega) (by omega)
  obtain ⟨gasCost, hGasCost, hGasCostInt⟩ :=
    @checkedInt64_ok (15 + wordCost.toInt) (by omega) (by omega)
  obtain ⟨gasLeft, hGasLeft, hGasLeftInt⟩ :=
    @checkedInt64_ok (msg.gas.toInt - gasCost.toInt) (by omega) (by omega)
  have hCost : gasCost.toInt = identityCost msg.inputSize := by
    rw [identityCost]
    omega
  have hRead : readFrom .foreignBounds input 0 msg.inputSize = .ok input := by
    rw [readFrom, if_pos (by omega), ← hInput]
    simp
  simp only [executeIdentity, hInputSize, hSum, hWords, hWordCost, hGasCost, hGasLeft, hRead, bind,
    Except.bind]
  by_cases hNegative : gasLeft < 0
  · have hLess : msg.gas.toInt < identityCost msg.inputSize := by
      have hZero : gasLeft.toInt < 0 := Int64.lt_iff_toInt_lt.mp hNegative
      omega
    refine ⟨_, if_pos hNegative, ?_⟩
    rw [identityOutcome, if_pos hLess]
    rfl
  · have hEnough : ¬msg.gas.toInt < identityCost msg.inputSize := by
      have hZero : ¬gasLeft.toInt < 0 := fun hLess => hNegative (Int64.lt_iff_toInt_lt.mpr hLess)
      omega
    refine ⟨_, if_neg hNegative, ?_⟩
    rw [identityOutcome, if_neg hEnough, ← hCost, ← hGasLeftInt]
    rfl

theorem identityOutcome_ne_rejected (msg : Message) (input : List UInt8) :
    identityOutcome msg input ≠ .failed .rejected := by
  unfold identityOutcome
  split <;> exact fun h => by cases congrArg Outcome.statusCode h

/-- The prefix of the address is zero exactly for the reserved numbers, and then the
last two bytes are the number. -/
theorem address_number {addr : Address} {high low : UInt8}
    (hDrop : addr.bytes.toList.drop 18 = [high, low]) :
    ((addr.bytes.toList.take 18).any (fun x => x != 0) = true ↔ 0xffff < addr.toNat) ∧
    (addr.toNat ≤ 0xffff → high.toNat <<< 8 ||| low.toNat = addr.toNat) := by
  have hNumber : addr.toNat = beNat (addr.bytes.toList.take 18) * 65536 +
      (high.toNat * 256 + low.toNat) := by
    rw [Address.toNat, ← List.take_append_drop 18 addr.bytes.toList, beNat_append, hDrop]
    simp
  have hHigh := high.toNat_lt
  have hLow := low.toNat_lt
  have hPrefix : (addr.bytes.toList.take 18).any (fun x => x != 0) = true ↔
      beNat (addr.bytes.toList.take 18) ≠ 0 := by
    rw [Ne, beNat_eq_zero_iff, List.any_eq_true]
    simp
  refine ⟨hPrefix.trans (by omega), fun hReserved => ?_⟩
  rw [← Nat.shiftLeft_add_eq_or_of_lt hLow, Nat.shiftLeft_eq]
  omega

/-- No run of the VM overflows, and it does what the specification says for exactly the
numbers other than 1 and 2. -/
theorem precompiles_specification {msg : Message} {input : List UInt8} (buffer : Nat)
    (hGas : 0 ≤ msg.gas) (hSize : msg.inputSize < 2 ^ 62) (hInput : input.length = msg.inputSize) :
    ∃ result, execute msg input buffer = .ok result ∧
      (outcome result = specification msg input ↔
        msg.codeAddress.toNat ≠ 1 ∧ msg.codeAddress.toNat ≠ 2) := by
  have hLast : window msg.codeAddress.bytes 18 2 =
      [msg.codeAddress.bytes[18], msg.codeAddress.bytes[19]] := by
    rw [window_succ _ _ _ (by decide), window_succ _ _ _ (by decide), window_zero]
  rw [window, List.take_of_length_le (by simp)] at hLast
  obtain ⟨hPrefix, hId⟩ := address_number hLast
  unfold execute
  by_cases hReserved : 0xffff < msg.codeAddress.toNat
  · refine ⟨_, if_pos (hPrefix.mpr hReserved), ?_⟩
    rw [specification, if_pos hReserved]
    exact iff_of_true rfl (by omega)
  · rw [if_neg (mt hPrefix.mp hReserved), hId (Nat.not_lt.mp hReserved), specification,
      if_neg hReserved]
    by_cases hIdentity : msg.codeAddress.toNat = 1 ∨ msg.codeAddress.toNat = 2 ∨
        msg.codeAddress.toNat = 4
    · obtain ⟨result, hRun, hOutcome⟩ := executeIdentity_outcome buffer hGas hSize hInput
      refine ⟨result, (if_pos hIdentity).trans hRun, ?_⟩
      rw [hOutcome]
      by_cases hFour : msg.codeAddress.toNat = 4
      · rw [if_neg (by omega), if_pos hFour]
        exact iff_of_true rfl (by omega)
      · rw [if_pos (by omega)]
        exact iff_of_false (identityOutcome_ne_rejected msg input) (by omega)
    · rw [if_neg hIdentity]
      by_cases hNamed : msg.codeAddress.toNat = 5 ∨ msg.codeAddress.toNat = 6 ∨
          msg.codeAddress.toNat = 7 ∨ msg.codeAddress.toNat = 8
      · refine ⟨notImplemented, if_pos hNamed, ?_⟩
        rw [if_pos (by omega)]
        exact iff_of_true rfl (by omega)
      · refine ⟨executeEmpty msg, if_neg hNamed, ?_⟩
        rw [if_neg (by omega), if_neg (by omega)]
        exact iff_of_true rfl (by omega)

/-- A message to the contract of a number. -/
def callOf (number : UInt64) (gas : Int64) (inputSize : Nat) : Message :=
  { kind := .call, flags := 0, depth := 0, gas, recipient := 0, sender := 0,
    inputData := .caller 0, inputSize, value := 0, create2Salt := 0,
    codeAddress := .ofUInt64 number }

theorem precompiles_specification_identity :
    ∃ result, execute (callOf 4 20 3) [1, 2, 3] 7 = .ok result ∧
      (outcome result = specification (callOf 4 20 3) [1, 2, 3] ↔
        (callOf 4 20 3).codeAddress.toNat ≠ 1 ∧ (callOf 4 20 3).codeAddress.toNat ≠ 2) :=
  precompiles_specification 7 (by decide) (by decide) rfl

/-- The first contract is not rejected. With gas for it, it echoes its empty input. -/
theorem depositRoot_not_rejected :
    (execute (callOf 1 15 0) [] 7).map outcome = .ok ⟨.success, 0, 0, []⟩ ∧
      (execute (callOf 1 15 0) [] 7).map outcome ≠ .ok (specification (callOf 1 15 0) []) := by
  have hRun : (execute (callOf 1 15 0) [] 7).map outcome = .ok ⟨.success, 0, 0, []⟩ := by
    rfl
  refine ⟨hRun, fun hEqual => ?_⟩
  have hStatus := congrArg Outcome.statusCode (Except.ok.inj (hRun.symm.trans hEqual))
  cases hStatus

end Qrvmc.PrecompilesVm
