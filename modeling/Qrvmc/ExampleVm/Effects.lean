import Qrvmc.ExampleVm.Execute
import Qrvmc.Semantics.Triple

/-! What the instructions of the example VM keep. A property is stable if it outlasts the
changes of the stack, the memory and the host that instructions are made of, and a
result that an instruction gives follows the contract of results. Here are the
instructions that take no region of the memory. -/
namespace Qrvmc.ExampleVm
open Semantics

variable {State Value Next : Type}

/-- The buffers of others are as long as their sizes tell: the input of the message,
and the output of a result that the host returns. -/
structure Supplied (env : Environment State) : Prop where
  input : env.msg.inputSize ≤ env.input.length
  output : ∀ msg input world,
    (env.host.call env.context msg input world).1.outputSize ≤
      (env.outputData (env.host.call env.context msg input world).2
        (env.host.call env.context msg input world).1).length

/-- A fault that is not about the stack, the memory, or buffers that are too short. -/
def Unexpected (env : Environment State) (fault : Fault) : Prop :=
  fault ≠ .stackBounds ∧ fault ≠ .memoryBounds ∧ (fault = .foreignBounds → Supplied env)

/-- The contract of a result, where `gasLeft` is the gas left when it is made. -/
structure Contract (env : Environment State) (gasLeft : Int64) (result : ExecutionResult) :
    Prop where
  gas : result.statusCode = .success ∨ result.statusCode = .revert → result.gasLeft = gasLeft
  noGas : result.statusCode ≠ .success → result.statusCode ≠ .revert → result.gasLeft = 0
  refund : result.gasRefund = 0
  createAddress : result.createAddress = 0
  output : result.outputData = none ↔ result.outputSize = 0
  length : result.output.length = result.outputSize
  buffer : result.outputSize ≠ 0 → env.malloc result.outputSize = result.outputData
  noMemory : result.statusCode = .outOfMemory →
    result = { statusCode := .outOfMemory, output := [] } ∧
      ∃ size, size ≠ 0 ∧ env.malloc size = none

/-- The property outlasts every operation that instructions other than pushes and
stores to storage are made of. -/
structure Stable (env : Environment State) (holds : Machine State → Prop) : Prop where
  stack : ∀ machine stack, holds machine → holds { machine with stack }
  expand : ∀ machine offset regionSize, holds machine →
    holds { machine with memory := (machine.memory.expand offset regionSize).2 }
  data : ∀ machine data, holds machine →
    holds { machine with memory := { machine.memory with data } }
  getTxContext : ∀ machine, holds machine →
    holds { machine with world := (env.host.getTxContext env.context machine.world).2 }
  getStorage : ∀ machine key, holds machine →
    holds { machine with
      world := (env.host.getStorage env.context env.msg.recipient key machine.world).2 }
  call : ∀ machine msg input, holds machine →
    holds { machine with world := (env.host.call env.context msg input machine.world).2 }
  release : ∀ machine (result : RawResult), holds machine →
    holds { machine with world := (result.destructor machine.world).2 }

/-- A property of neither the stack, the memory nor the host. -/
theorem Stable.of_frame {env : Environment State} {holds : Machine State → Prop}
    (h : ∀ machine stack memory world, holds machine →
      holds { machine with stack, memory, world }) : Stable env holds where
  stack machine stack := h machine stack machine.memory machine.world
  expand machine offset regionSize :=
    h machine machine.stack (machine.memory.expand offset regionSize).2 machine.world
  data machine data := h machine machine.stack { machine.memory with data } machine.world
  getTxContext machine := h machine machine.stack machine.memory _
  getStorage machine _ := h machine machine.stack machine.memory _
  call machine _ _ := h machine machine.stack machine.memory _
  release machine _ := h machine machine.stack machine.memory _

/-- The program keeps the property and has none of the bad faults. -/
def Keeps (bad : Fault → Prop) (holds : Machine State → Prop) (program : Interp State Value) :
    Prop :=
  Triple bad holds program fun _ => holds

/-- The property is kept, and a result follows the contract if there is one. -/
def Follows (env : Environment State) (holds : Machine State → Prop)
    (outcome : Option ExecutionResult) (machine : Machine State) : Prop :=
  holds machine ∧ ∀ result, outcome = some result → Contract env machine.gasLeft result

/-- The same of an instruction, whose result follows the contract if there is one. -/
def Performs (env : Environment State) (bad : Fault → Prop) (holds : Machine State → Prop)
    (program : Interp State (Option ExecutionResult)) : Prop :=
  Triple bad holds program (Follows env holds)

/-- Faults that are not to be excluded for instructions without access to the memory. -/
structure Tolerates (env : Environment State) (bad : Fault → Prop) : Prop where
  stack : ¬bad .stackBounds
  foreign : bad .foreignBounds → Supplied env

variable {env : Environment State} {bad : Fault → Prop} {holds : Machine State → Prop}

theorem tolerates_unexpected : Tolerates env (Unexpected env) where
  stack h := h.1 rfl
  foreign h := h.2.2 rfl

theorem Keeps.bind {program : Interp State Value} {next : Value → Interp State Next}
    (hFirst : Keeps bad holds program) (hNext : ∀ value, Keeps bad holds (next value)) :
    Keeps bad holds (program >>= next) :=
  Triple.bind hFirst hNext

theorem Performs.bind {program : Interp State Value}
    {next : Value → Interp State (Option ExecutionResult)} (hFirst : Keeps bad holds program)
    (hNext : ∀ value, Performs env bad holds (next value)) :
    Performs env bad holds (program >>= next) :=
  Triple.bind hFirst hNext

theorem performs_break : Performs env bad holds (pure none) := by
  apply Triple.pure
  intro machine hMachine
  refine ⟨hMachine, ?_⟩
  intro result hResult
  cases hResult

theorem performs_proceed {program : Interp State Unit} (h : Keeps bad holds program) :
    Performs env bad holds (proceed program) :=
  Performs.bind h fun _ => performs_break

/-- A result without output and without gas. -/
theorem contract_failure (gasLeft : Int64) {statusCode : StatusCode}
    (hSuccess : statusCode ≠ .success) (hRevert : statusCode ≠ .revert)
    (hMemory : statusCode ≠ .outOfMemory) :
    Contract env gasLeft (makeResult statusCode 0 0) where
  gas h := (h.elim hSuccess hRevert).elim
  noGas _ _ := rfl
  refund := rfl
  createAddress := rfl
  output := iff_of_true rfl rfl
  length := rfl
  buffer h := absurd rfl h
  noMemory h := absurd h hMemory

/-- A result without output that keeps the gas. -/
theorem contract_silent (gasLeft : Int64) {statusCode : StatusCode}
    (hStatus : statusCode = .success ∨ statusCode = .revert) :
    Contract env gasLeft (makeResult statusCode gasLeft 0) where
  gas _ := rfl
  noGas hSuccess hRevert := absurd hStatus (not_or.mpr ⟨hSuccess, hRevert⟩)
  refund := rfl
  createAddress := rfl
  output := iff_of_true rfl rfl
  length := rfl
  buffer h := absurd rfl h
  noMemory h := by
    rcases hStatus with rfl | rfl
    · cases h
    · cases h

theorem contract_noMemory (gasLeft : Int64) {size : Nat} (hSize : size ≠ 0)
    (hMalloc : env.malloc size = none) :
    Contract env gasLeft { statusCode := .outOfMemory, output := [] } where
  gas h := by
    rcases h with h | h
    · cases h
    · cases h
  noGas _ _ := rfl
  refund := rfl
  createAddress := rfl
  output := iff_of_true rfl rfl
  length := rfl
  buffer h := absurd rfl h
  noMemory _ := ⟨rfl, size, hSize, hMalloc⟩

theorem contract_output (gasLeft : Int64) {statusCode : StatusCode} {buffer : Nat}
    {output : List UInt8} (hStatus : statusCode = .success ∨ statusCode = .revert)
    (hSize : output.length ≠ 0) (hMalloc : env.malloc output.length = some buffer) :
    Contract env gasLeft
      { statusCode, gasLeft, outputData := some buffer, outputSize := output.length,
        release := some freeResultMemory, output } where
  gas _ := rfl
  noGas hSuccess hRevert := absurd hStatus (not_or.mpr ⟨hSuccess, hRevert⟩)
  refund := rfl
  createAddress := rfl
  output := iff_of_false (fun h => by cases h) hSize
  length := rfl
  buffer _ := hMalloc
  noMemory h := by
    rcases hStatus with rfl | rfl
    · cases h
    · cases h

theorem performs_failure {statusCode : StatusCode} (hSuccess : statusCode ≠ .success)
    (hRevert : statusCode ≠ .revert) (hMemory : statusCode ≠ .outOfMemory) :
    Performs env bad holds (pure (some (makeResult statusCode 0 0))) := by
  apply Triple.pure
  intro machine hMachine
  refine ⟨hMachine, ?_⟩
  intro result hResult
  obtain rfl := Option.some.inj hResult
  exact contract_failure machine.gasLeft hSuccess hRevert hMemory

theorem performs_makeFailure :
    Performs env bad holds (pure (some (makeResult .failure 0 0))) :=
  performs_failure (by decide) (by decide) (by decide)

/-- The stack may become any other. -/
def Unstacked (holds : Machine State → Prop) : Prop :=
  ∀ machine stack, holds machine → holds { machine with stack }

theorem keeps_onStack (hStack : Unstacked holds) (hFault : ¬bad .stackBounds)
    {action : Stack → Except Fault (Value × Stack)}
    (h : ∀ stack fault, action stack = .error fault → fault = .stackBounds) :
    Keeps bad holds (onStack action) := by
  intro machine hMachine
  unfold onStack
  cases hAction : action machine.stack with
  | error fault =>
      rw [h machine.stack fault hAction]
      exact hFault
  | ok outcome => exact hStack machine outcome.2 hMachine

theorem keeps_pop (hStack : Unstacked holds) (hFault : ¬bad .stackBounds) :
    Keeps bad holds pop := by
  apply keeps_onStack hStack hFault
  intro stack fault hPop
  unfold Stack.pop at hPop
  split at hPop
  · cases hPop
  · exact (Except.error.inj hPop).symm

theorem keeps_push (hStack : Unstacked holds) (hFault : ¬bad .stackBounds) (value : Bytes32) :
    Keeps bad holds (push value) := by
  apply keeps_onStack hStack hFault
  intro stack fault hPush
  unfold Stack.push at hPush
  split at hPush
  · cases hPush
  · exact (Except.error.inj hPush).symm

/-- A region has as many bytes as its size tells. -/
theorem reads_region (pointer size : Nat)
    (h : bad .memoryBounds → pointer + size ≤ 1024) :
    Triple bad holds (region pointer size)
      (fun bytes machine => holds machine ∧ bytes.length = size) := by
  intro machine hMachine
  by_cases hBounds : pointer + size ≤ machine.memory.data.toList.length
  · simp only [region, onMemory, readFrom, if_pos hBounds]
    refine ⟨hMachine, ?_⟩
    rw [List.length_take, List.length_drop]
    omega
  · simp only [region, onMemory, readFrom, if_neg hBounds]
    intro hFault
    apply hBounds
    rw [Vector.length_toList]
    exact h hFault

/-- Reading a buffer of others fails only if it is too short. -/
theorem keeps_foreign {bytes : List UInt8} {start count : Nat}
    (h : bad .foreignBounds → start + count ≤ bytes.length) :
    Keeps bad holds (liftM (readFrom .foreignBounds bytes start count)) := by
  intro machine hMachine
  by_cases hBounds : start + count ≤ bytes.length
  · rw [readFrom, if_pos hBounds]
    exact hMachine
  · rw [readFrom, if_neg hBounds]
    exact fun hFault => hBounds (h hFault)

section Instructions

variable (hStable : Stable env holds)
include hStable

/-- The two steps of storing are those of expanding and of writing the bytes. -/
theorem keeps_memoryStore (offset : UInt32) (valueData : List UInt8) (valueSize : UInt32)
    (hForeign : bad .foreignBounds → valueSize.toNat ≤ valueData.length)
    (hMemory : bad .memoryBounds → ∀ memory pointer,
      (Memory.expand memory offset valueSize).1 = some pointer →
        pointer + valueSize.toNat ≤ 1024) :
    Keeps bad holds (memoryStore offset valueData valueSize) := by
  intro machine hMachine
  have hExpand := hStable.expand machine offset valueSize hMachine
  have hRegion : bad .memoryBounds → ∀ pointer,
      (machine.memory.expand offset valueSize).1 = some pointer →
        pointer + valueSize.toNat ≤ 1024 := fun hFault => hMemory hFault machine.memory
  simp only [memoryStore, onMemory, Memory.store]
  generalize machine.memory.expand offset valueSize = expanded at hExpand hRegion ⊢
  obtain ⟨pointer, memory⟩ := expanded
  cases pointer with
  | none => exact hExpand
  | some pointer =>
      by_cases hBounds : 0 + valueSize.toNat ≤ valueData.length
      · simp only [readFrom, if_pos hBounds, bind, Except.bind]
        by_cases hInside : pointer + ((valueData.drop 0).take valueSize.toNat).length ≤ 1024
        · rw [if_pos hInside]
          exact hStable.data _ _ hExpand
        · rw [if_neg hInside]
          intro hFault
          apply hInside
          have hSize := hRegion hFault pointer rfl
          rw [List.drop_zero, List.length_take]
          omega
      · simp only [readFrom, if_neg hBounds, bind, Except.bind]
        exact fun hFault => hBounds (by rw [Nat.zero_add]; exact hForeign hFault)

variable (hTolerates : Tolerates env bad)
include hTolerates

theorem keeps_opAdd : Keeps bad holds opAdd := by
  unfold opAdd
  apply (keeps_pop hStable.stack hTolerates.stack).bind
  intro a
  apply (keeps_pop hStable.stack hTolerates.stack).bind
  intro b
  exact keeps_push hStable.stack hTolerates.stack _

theorem keeps_opAddress : Keeps bad holds (opAddress env) :=
  keeps_push hStable.stack hTolerates.stack _

theorem keeps_opCalldataload : Keeps bad holds (opCalldataload env) := by
  unfold opCalldataload
  apply (keeps_pop hStable.stack hTolerates.stack).bind
  intro offset
  apply Triple.ite
  · intro hOffset
    refine (keeps_foreign fun hFault => ?_).bind fun bytes =>
      keeps_push hStable.stack hTolerates.stack _
    have hInput := (hTolerates.foreign hFault).input
    omega
  · intro _
    exact keeps_push hStable.stack hTolerates.stack 0

theorem keeps_opNumber : Keeps bad holds (opNumber env) := by
  unfold opNumber
  apply Keeps.bind (fun machine hMachine => hStable.getTxContext machine hMachine)
  intro txContext
  exact keeps_push hStable.stack hTolerates.stack _

theorem keeps_opSload : Keeps bad holds (opSload env) := by
  unfold opSload
  apply (keeps_pop hStable.stack hTolerates.stack).bind
  intro index
  apply Keeps.bind (fun machine hMachine => hStable.getStorage machine index hMachine)
  intro value
  exact keeps_push hStable.stack hTolerates.stack value

theorem keeps_opMsize : Keeps bad holds opMsize := by
  unfold opMsize
  apply Triple.get_bind
  intro machine hMachine
  refine Triple.strengthen (keeps_push hStable.stack hTolerates.stack _) ?_
  rintro current rfl
  exact hMachine

theorem keeps_opDup1 : Keeps bad holds opDup1 := by
  unfold opDup1
  apply (keeps_pop hStable.stack hTolerates.stack).bind
  intro value
  apply (keeps_push hStable.stack hTolerates.stack value).bind
  intro _
  exact keeps_push hStable.stack hTolerates.stack value

end Instructions

end Qrvmc.ExampleVm
