import Qrvmc.ExampleVm.Runs
import Qrvmc.ExampleVm.Words
import Qrvmc.Semantics.Simulation

/-! The interpreter computes what the bytecode means. A machine shows a view: the stack up
to the pointer, as integers, and the bytes of the memory. The operations of both sides
are related one by one, and then the instructions and whole runs. -/
namespace Qrvmc.ExampleVm
open Bytes Semantics

variable {State Value : Type} {env : Environment State} {gasLeft : Int64}

/-- The view of a machine whose pointer is inside its stack, and the gas that it has. -/
structure Shows (gasLeft : Int64) (machine : Machine State) (view : View State) : Prop where
  gas : machine.gasLeft = gasLeft
  height : machine.stack.pointer ≤ 1024
  stack : view.stack =
    ((machine.stack.items.toList.take machine.stack.pointer).map Bytes32.toNat).reverse
  size : view.size = machine.memory.size.toNat
  memory : ∀ i (h : i < 1024), view.memory i = machine.memory.data[i]
  world : view.world = machine.world

theorem Shows.length_stack {machine : Machine State} {view : View State}
    (h : Shows gasLeft machine view) : view.stack.length = machine.stack.pointer := by
  have hHeight := h.height
  rw [h.stack, List.length_reverse, List.length_map, List.length_take, Vector.length_toList]
  omega

theorem simulates_pop :
    Simulates (Shows gasLeft) (pop : Interp State Bytes32) Meaning.pop
      (Keeping (Shows gasLeft) fun value n => n = value.toNat) := by
  intro machine view h
  have hHeight := h.height
  have hStack := h.stack
  by_cases hEmpty : machine.stack.pointer = 0
  · rw [hEmpty, List.take_zero] at hStack
    have hOutside : ¬(0 < machine.stack.pointer ∧ machine.stack.pointer - 1 < 1024) := by omega
    simp only [pop, onStack, Stack.pop, dif_neg hOutside, Meaning.pop, hStack, List.map_nil,
      List.reverse_nil]
    rfl
  · have hInside : 0 < machine.stack.pointer ∧ machine.stack.pointer - 1 < 1024 := by omega
    obtain ⟨height, hPointer⟩ := Nat.exists_eq_succ_of_ne_zero hEmpty
    have hTop : height < machine.stack.items.toList.length := by
      rw [Vector.length_toList]
      omega
    rw [hPointer, List.take_succ_eq_append_getElem hTop, List.map_append, List.reverse_append,
      List.map_singleton, List.reverse_singleton, List.singleton_append] at hStack
    simp only [pop, onStack, Stack.pop, dif_pos hInside, Meaning.pop, hStack]
    refine ⟨?_, h.gas, ?_, ?_, h.size, h.memory, h.world⟩
    · simp [hPointer]
    · simp only
      omega
    · simp [hPointer]

/-- A push leaves the world as it is, whatever is known of it. -/
theorem simulates_push_world (known : HostWorld State → Prop) (value : Bytes32) {n : Nat}
    (hValue : n = value.toNat) :
    Simulates (fun machine view => Shows gasLeft machine view ∧ known machine.world)
      (push value : Interp State Unit) (Meaning.push n)
      (Keeping (fun machine view => Shows gasLeft machine view ∧ known machine.world)
        fun _ _ => True) := by
  rintro machine view ⟨h, hKnown⟩
  have hLength := h.length_stack
  by_cases hRoom : machine.stack.pointer < 1024
  · have hStack := h.stack
    simp only [push, onStack, Stack.push, dif_pos hRoom, Meaning.push, hLength, if_pos hRoom]
    refine ⟨trivial, ⟨h.gas, hRoom, ?_, h.size, h.memory, h.world⟩, hKnown⟩
    have hTop : machine.stack.pointer <
        (machine.stack.items.set machine.stack.pointer value).toList.length := by
      rw [Vector.length_toList]
      exact hRoom
    simp only [hStack, hValue]
    rw [List.take_succ_eq_append_getElem hTop, List.map_append, List.reverse_append,
      List.map_singleton, List.reverse_singleton, List.singleton_append, Vector.getElem_toList,
      Vector.getElem_set_self, Vector.toList_set, List.take_set_of_le (Nat.le_refl _)]
  · simp only [push, onStack, Stack.push, dif_neg hRoom, Meaning.push, hLength, if_neg hRoom]
    rfl

theorem simulates_push (value : Bytes32) {n : Nat} (hValue : n = value.toNat) :
    Simulates (Shows gasLeft) (push value : Interp State Unit) (Meaning.push n)
      (Keeping (Shows gasLeft) fun _ _ => True) :=
  ((simulates_push_world (fun _ => True) value hValue).strengthen fun _ _ h => ⟨h, trivial⟩).mono
    fun _ _ _ _ h => ⟨trivial, h.2.1⟩

theorem simulates_onWorld (action : StateM (HostWorld State) Value) :
    Simulates (Shows gasLeft) (onWorld action : Interp State Value) (Meaning.host action)
      (Keeping (Shows gasLeft) Eq) := by
  intro machine view h
  have hWorld := h.world
  simp only [onWorld, Meaning.host, hWorld]
  exact ⟨rfl, h.gas, h.height, h.stack, h.size, h.memory, rfl⟩

theorem stop_toNat (offset regionSize : UInt32) :
    (offset.toNat + regionSize.toNat) % 4294967296 = (offset + regionSize).toNat :=
  (UInt32.toNat_add offset regionSize).symm

/-- A claim in the view is refused as the memory refuses it, and grows the size alike. -/
theorem simulates_expand (offset regionSize : UInt32) :
    Simulates (Shows gasLeft) (expand offset regionSize : Interp State (Option Nat))
      (Meaning.claim offset.toNat regionSize.toNat)
      (Keeping (Shows gasLeft) fun pointer granted =>
        pointer = if granted then some offset.toNat else none) := by
  intro machine view h
  have hRefused : offset + regionSize > 1024 ↔ 1024 < (offset + regionSize).toNat :=
    UInt32.lt_iff_toNat_lt
  have hGrows : offset + regionSize > machine.memory.size ↔
      machine.memory.size.toNat < (offset + regionSize).toNat := UInt32.lt_iff_toNat_lt
  simp only [expand, onMemory, Except.map, Memory.expand_eq, Meaning.claim, View.claim, stop_toNat]
  by_cases hTest : offset + regionSize > 1024
  · simp only [if_pos hTest, if_pos (hRefused.mp hTest)]
    exact ⟨rfl, h⟩
  · simp only [if_neg hTest, if_neg fun hBeyond => hTest (hRefused.mpr hBeyond)]
    refine ⟨rfl, h.gas, h.height, h.stack, ?_, ?_, h.world⟩
    · by_cases hLarger : offset + regionSize > machine.memory.size
      · have hLess := hGrows.mp hLarger
        simp only [if_pos hLarger, h.size]
        omega
      · have hLess : ¬machine.memory.size.toNat < (offset + regionSize).toNat :=
          fun hLess => hLarger (hGrows.mpr hLess)
        simp only [if_neg hLarger, h.size]
        omega
    · by_cases hLarger : offset + regionSize > machine.memory.size
      · simp only [if_pos hLarger]
        exact h.memory
      · simp only [if_neg hLarger]
        exact h.memory

/-- The bytes of a region inside the memory are those of the view. -/
theorem Shows.window {machine : Machine State} {view : View State}
    (h : Shows gasLeft machine view) {offset length : Nat} (hInside : offset + length ≤ 1024) :
    (machine.memory.data.toList.drop offset).take length =
      (List.range' offset length).map view.memory := by
  apply List.ext_getElem
  · rw [List.length_take, List.length_drop, Vector.length_toList, List.length_map,
      List.length_range']
    omega
  · intro i hLeft hRight
    rw [List.length_map, List.length_range'] at hRight
    rw [List.getElem_take, List.getElem_drop, List.getElem_map, List.getElem_range', Nat.one_mul,
      h.memory _ (by omega), Vector.getElem_toList]

theorem simulates_region (offset length : Nat) :
    Simulates (Shows gasLeft) (region offset length : Interp State (List UInt8))
      (Meaning.load offset length)
      (Keeping (Shows gasLeft) fun bytes read => bytes = read ∧ bytes.length = length) := by
  intro machine view h
  simp only [region, onMemory, readFrom, Meaning.load, Vector.length_toList]
  by_cases hInside : offset + length ≤ 1024
  · rw [if_pos hInside, if_pos hInside]
    refine ⟨⟨h.window hInside, ?_⟩, h⟩
    rw [List.length_take, List.length_drop, Vector.length_toList]
    omega
  · rw [if_neg hInside, if_neg hInside]
    rfl

theorem simulates_memoryStore (offset : UInt32) {valueData : List UInt8} {valueSize : UInt32}
    (hSupplied : valueSize.toNat ≤ valueData.length) :
    Simulates (Shows gasLeft) (memoryStore offset valueData valueSize : Interp State Bool)
      (Meaning.store offset.toNat (valueData.take valueSize.toNat))
      (Keeping (Shows gasLeft) Eq) := by
  intro machine view h
  have hLength : (valueData.take valueSize.toNat).length = valueSize.toNat :=
    List.length_take_of_le hSupplied
  have hClaim := simulates_expand offset valueSize machine view h
  simp only [memoryStore, onMemory, machine.memory.store_eq offset valueSize hSupplied,
    Meaning.store, hLength]
  simp only [expand, onMemory, Except.map, Meaning.claim] at hClaim
  generalize view.claim offset.toNat valueSize.toNat = claimed at hClaim ⊢
  obtain ⟨granted, claimed⟩ := claimed
  obtain ⟨hPointer, hShows⟩ := hClaim
  cases granted with
  | false =>
      simp only [hPointer]
      exact ⟨rfl, hShows⟩
  | true =>
      simp only [hPointer, if_true]
      by_cases hInside : offset.toNat + valueSize.toNat ≤ 1024
      · simp only [if_pos hInside]
        refine ⟨rfl, hShows.gas, hShows.height, hShows.stack, hShows.size, ?_, hShows.world⟩
        intro i hIndex
        have hSame := hShows.memory i hIndex
        simp only [Memory.expand_data] at hSame
        simp only [copyInto_getElem, overwrite, hSame]
      · simp only [if_neg hInside]
        rfl

/-- An instruction goes on from states that still correspond, or it ends the run with the
result that its ending makes of the gas, and with the world of the view. -/
def Agrees (env : Environment State) (gasLeft : Int64) (outcome : Option ExecutionResult)
    (ending : Option Ending) (machine : Machine State) (view : View State) : Prop :=
  match outcome, ending with
  | none, none => Shows gasLeft machine view
  | some result, some ending => result = ending.report env gasLeft ∧ machine.world = view.world
  | _, _ => False

theorem simulates_break :
    Simulates (Shows gasLeft) (pure none : Interp State (Option ExecutionResult)) (pure none)
      (Agrees env gasLeft) :=
  Simulates.pure fun _ _ h => h

theorem simulates_failure {statusCode : StatusCode} (hSuccess : statusCode ≠ .success)
    (hRevert : statusCode ≠ .revert) :
    Simulates (Shows gasLeft)
      (pure (some (makeResult statusCode 0 0)) : Interp State (Option ExecutionResult))
      (pure (some { statusCode })) (Agrees env gasLeft) := by
  apply Simulates.pure
  intro machine view h
  refine ⟨?_, h.world.symm⟩
  simp [Ending.report, hSuccess, hRevert]

/-- The last push of an instruction. -/
theorem simulates_push_break (value : Bytes32) {n : Nat} (hValue : n = value.toNat) :
    Simulates (Shows gasLeft) (push value >>= fun _ => pure none)
      (Meaning.push n >>= fun _ => pure none) (Agrees env gasLeft) :=
  (simulates_push value hValue).keeping_bind fun _ _ _ => simulates_break

theorem simulates_opAdd :
    Simulates (Shows gasLeft) (proceed opAdd) (Meaning.perform env .add) (Agrees env gasLeft) := by
  simp only [proceed, opAdd, bind_assoc]
  apply simulates_pop.keeping_bind
  rintro a _ rfl
  apply simulates_pop.keeping_bind
  rintro b _ rfl
  apply simulates_push_break
  rw [toUint256_toNat, UInt32.toNat_add, toUint32_toNat, toUint32_toNat, ← Nat.add_mod]

theorem simulates_opAddress :
    Simulates (Shows gasLeft) (proceed (opAddress env)) (Meaning.perform env .address)
      (Agrees env gasLeft) :=
  simulates_push_break _ (uint256OfAddress_toNat env.msg.recipient).symm

theorem simulates_opCalldataload (hSupplied : Supplied env) :
    Simulates (Shows gasLeft) (proceed (opCalldataload env)) (Meaning.perform env .calldataload)
      (Agrees env gasLeft) := by
  simp only [proceed, opCalldataload, bind_assoc]
  apply simulates_pop.keeping_bind
  rintro offset _ rfl
  rw [← toUint32_toNat offset]
  by_cases hOffset : (toUint32 offset).toNat < env.msg.inputSize
  · have hInput := hSupplied.input
    have hInside : (toUint32 offset).toNat +
        min (env.msg.inputSize - (toUint32 offset).toNat) 32 ≤ env.input.length := by omega
    rw [if_pos hOffset, readFrom, if_pos hInside]
    exact simulates_push_break _ (toNat_copyInto_start hInput hOffset).symm
  · rw [if_neg hOffset, inputWord_outside (Nat.not_lt.mp hOffset)]
    exact simulates_push_break 0 rfl

/-- The low 32 bits of a block number are its remainder. -/
theorem blockNumber_toNat (blockNumber : Int64) :
    blockNumber.toUInt64.toUInt32.toNat = (blockNumber.toInt % 4294967296).toNat := by
  have hLow : blockNumber.toUInt64.toUInt32.toNat = blockNumber.toUInt64.toNat % 4294967296 := rfl
  have hWide : blockNumber.toUInt64.toNat = blockNumber.toBitVec.toNat := rfl
  have hInt := blockNumber.toBitVec.toInt_eq_toNat_cond
  have hBound := blockNumber.toBitVec.isLt
  rw [Int64.toInt_toBitVec] at hInt
  rw [hLow, hWide, hInt]
  split
  · omega
  · omega

theorem simulates_opNumber :
    Simulates (Shows gasLeft) (proceed (opNumber env)) (Meaning.perform env .number)
      (Agrees env gasLeft) := by
  simp only [proceed, opNumber, bind_assoc]
  apply (simulates_onWorld _).keeping_bind
  rintro txContext _ rfl
  apply simulates_push_break
  rw [toUint256_toNat, blockNumber_toNat]

theorem simulates_opMstore :
    Simulates (Shows gasLeft) opMstore (Meaning.perform env .mstore) (Agrees env gasLeft) := by
  unfold opMstore
  apply simulates_pop.keeping_bind
  rintro offset _ rfl
  apply simulates_pop.keeping_bind
  rintro value _ rfl
  have hLength : (32 : UInt32).toNat ≤ value.bytes.toList.length := by
    rw [Vector.length_toList]
    decide
  have hStore := @simulates_memoryStore State gasLeft (toUint32 offset) _ _ hLength
  have hBytes : value.bytes.toList.take (32 : UInt32).toNat = spell 32 value.toNat := by
    rw [List.take_of_length_le (by simp), Bytes32.toList_eq_spell]
  rw [hBytes, toUint32_toNat] at hStore
  apply hStore.keeping_bind
  rintro stored _ rfl
  cases stored with
  | true => exact simulates_break
  | false => exact simulates_failure (by decide) (by decide)

theorem simulates_opSload :
    Simulates (Shows gasLeft) (proceed (opSload env)) (Meaning.perform env .sload)
      (Agrees env gasLeft) := by
  simp only [proceed, opSload, bind_assoc]
  apply simulates_pop.keeping_bind
  rintro key _ rfl
  rw [Bytes32.ofNat_toNat]
  apply (simulates_onWorld _).keeping_bind
  rintro value _ rfl
  exact simulates_push_break value rfl

theorem simulates_opSstore :
    Simulates (Shows gasLeft) (proceed (opSstore env)) (Meaning.perform env .sstore)
      (Agrees env gasLeft) := by
  simp only [proceed, opSstore, bind_assoc]
  apply simulates_pop.keeping_bind
  rintro key _ rfl
  apply simulates_pop.keeping_bind
  rintro value _ rfl
  rw [Bytes32.ofNat_toNat, Bytes32.ofNat_toNat]
  apply (simulates_onWorld _).keeping_bind
  rintro status _ rfl
  exact simulates_break

theorem simulates_opMsize :
    Simulates (Shows gasLeft) (proceed opMsize) (Meaning.perform env .msize)
      (Agrees env gasLeft) := by
  simp only [proceed, opMsize, bind_assoc]
  apply Simulates.get_bind
  intro machine view h
  apply (simulates_push_break (toUint256 machine.memory.size) ?_).strengthen
  · rintro current other ⟨rfl, rfl⟩
    exact h
  · rw [toUint256_toNat, h.size]

theorem simulates_opDup1 :
    Simulates (Shows gasLeft) (proceed opDup1) (Meaning.perform env .dup1)
      (Agrees env gasLeft) := by
  simp only [proceed, opDup1, bind_assoc]
  apply simulates_pop.keeping_bind
  rintro top _ rfl
  apply (simulates_push top rfl).keeping_bind
  intro _ _ _
  exact simulates_push_break top rfl

/-- The output is a region of the memory, or nothing where there is no memory for it. -/
theorem simulates_makeOutput {statusCode : StatusCode}
    (hOutput : statusCode = .success ∨ statusCode = .revert) (offset length : Nat) :
    Simulates (Shows gasLeft) (makeOutput env statusCode gasLeft 0 offset length)
      (Meaning.finish env statusCode offset length)
      (Keeping (Shows gasLeft) fun result ending => result = ending.report env gasLeft) := by
  by_cases hLength : length = 0
  · subst hLength
    simp only [makeOutput, qrvmcMakeResult, Meaning.finish, if_true, ne_eq, not_true_eq_false,
      if_false]
    apply Simulates.pure
    intro machine view h
    exact ⟨by simp [Ending.report, hOutput, makeResult, qrvmcMakeResult], h⟩
  · cases hMalloc : env.malloc length with
    | none =>
        simp only [makeOutput, qrvmcMakeResult, Meaning.finish, hMalloc, ne_eq,
          hLength, not_false_eq_true, if_true]
        apply Simulates.pure
        intro machine view h
        exact ⟨by simp [Ending.report, makeResult, qrvmcMakeResult], h⟩
    | some buffer =>
        simp only [makeOutput, qrvmcMakeResult, Meaning.finish, hMalloc, ne_eq,
          hLength, not_false_eq_true, if_true, reduceCtorEq, if_false]
        apply (simulates_region offset length).keeping_bind
        rintro output _ ⟨rfl, rfl⟩
        apply Simulates.pure
        intro machine view h
        have hOutput : output ≠ [] := fun hEmpty => hLength (congrArg List.length hEmpty)
        exact ⟨by simp [Ending.report, hOutput, hMalloc], h⟩

/-- `RETURN` and `REVERT` end with the region, or with a failure where it is refused. -/
theorem simulates_opOutput {statusCode : StatusCode}
    (hOutput : statusCode = .success ∨ statusCode = .revert) :
    Simulates (Shows gasLeft) (opOutput env statusCode) (Meaning.perform env (.output statusCode))
      (Agrees env gasLeft) := by
  unfold opOutput
  apply simulates_pop.keeping_bind
  rintro offset _ rfl
  apply simulates_pop.keeping_bind
  rintro size _ rfl
  rw [← toUint32_toNat offset, ← toUint32_toNat size]
  apply (simulates_expand _ _).keeping_bind
  rintro pointer granted rfl
  cases granted with
  | false => exact simulates_failure (by decide) (by decide)
  | true =>
      apply Simulates.get_bind_left
      intro machine view h
      have hGas := h.gas
      rw [hGas]
      apply ((simulates_makeOutput hOutput _ _).keeping_bind ?_).strengthen
      · rintro current other ⟨rfl, rfl⟩
        exact h
      · rintro result ending rfl
        exact Simulates.pure fun machine view h => ⟨rfl, h.world.symm⟩

/-- The number of bytes of the answer that are stored is the smaller of both sizes. -/
theorem answerSize_toNat (requested : UInt32) (outputSize : Nat) :
    (if requested.toNat > outputSize then outputSize.toUInt32 else requested).toNat =
      min requested.toNat outputSize := by
  have hWord := requested.toNat_lt
  by_cases hLess : requested.toNat > outputSize
  · rw [if_pos hLess, Nat.toUInt32, UInt32.toNat_ofNat_of_lt' (by simp only [UInt32.size]; omega)]
    omega
  · rw [if_neg hLess]
    omega

/-- The result of a nested call comes with as many bytes as its size tells. -/
theorem simulates_hostCall (hSupplied : Supplied env) (msg : Message) (input : List UInt8) :
    Simulates (Shows gasLeft) (onWorld (env.host.call env.context msg input))
      (Meaning.host (env.host.call env.context msg input))
      (fun callResult result machine view => callResult = result ∧ Shows gasLeft machine view ∧
        callResult.outputSize ≤ (env.outputData machine.world callResult).length) := by
  intro machine view h
  have hWorld := h.world
  simp only [onWorld, Meaning.host, hWorld]
  exact ⟨trivial, ⟨h.gas, h.height, h.stack, h.size, h.memory, rfl⟩, hSupplied.output _ _ _⟩

/-- The answer of the nested call is stored as far as it was asked for. -/
theorem simulates_opCall (hSupplied : Supplied env) :
    Simulates (Shows gasLeft) (opCall env) (Meaning.perform env .call) (Agrees env gasLeft) := by
  unfold opCall
  apply simulates_pop.keeping_bind
  rintro gas _ rfl
  apply simulates_pop.keeping_bind
  rintro recipient _ rfl
  apply simulates_pop.keeping_bind
  rintro value _ rfl
  apply simulates_pop.keeping_bind
  rintro inputOffset _ rfl
  apply simulates_pop.keeping_bind
  rintro inputSize _ rfl
  rw [← toUint32_toNat inputOffset, ← toUint32_toNat inputSize]
  apply (simulates_expand _ _).keeping_bind
  rintro inputData inputGranted rfl
  apply simulates_pop.keeping_bind
  rintro outputOffset _ rfl
  apply simulates_pop.keeping_bind
  rintro outputSize _ rfl
  rw [← toUint32_toNat outputOffset, ← toUint32_toNat outputSize]
  apply (simulates_expand _ _).keeping_bind
  rintro outputPtr outputGranted rfl
  cases inputGranted with
  | false => exact simulates_failure (by decide) (by decide)
  | true =>
      cases outputGranted with
      | false => exact simulates_failure (by decide) (by decide)
      | true =>
          apply (simulates_region _ _).keeping_bind
          rintro input _ ⟨rfl, _⟩
          simp only [nestedMessage, ← toUint32_toNat gas, ← toAddress_eq, Bytes32.ofNat_toNat]
          apply (simulates_hostCall hSupplied _ input).bind
          intro callResult result
          apply Simulates.of_and
          rintro rfl
          have hStatus : (if callResult.statusCode = .success then 1 else 0) =
              (toUint256 (if callResult.statusCode = .success then 1 else 0)).toNat := by
            split
            · rfl
            · rfl
          apply (simulates_push_world (fun world => callResult.outputSize ≤
            (env.outputData world callResult).length) _ hStatus).keeping_bind
          intro _ _ _
          apply Simulates.get_bind
          rintro machine view ⟨h, hAnswer⟩
          have hSize := answerSize_toNat (toUint32 outputSize) callResult.outputSize
          rw [h.world, ← hSize]
          have hStored := hSize.trans_le ((Nat.min_le_right _ _).trans hAnswer)
          apply ((simulates_memoryStore (toUint32 outputOffset) hStored).keeping_bind ?_).strengthen
          · rintro current other ⟨rfl, rfl⟩
            exact h
          · intro _ _ _
            apply (simulates_onWorld _).keeping_bind
            intro _ _ _
            exact simulates_break

theorem pushSize_pos {opcode : UInt8} (h : IsPush opcode) :
    0 < pushSize opcode ∧ pushSize opcode ≤ 32 := by
  have hLow : 0x60 ≤ opcode.toNat := UInt8.le_iff_toNat_le.mp h.1
  have hHigh : opcode.toNat ≤ 0x7f := UInt8.le_iff_toNat_le.mp h.2
  rw [pushSize, if_pos h]
  omega

/-- A push in the code is the push of the bytes that follow it. -/
theorem simulates_opPush {opcode : UInt8} (hPush : IsPush opcode) (pc : Nat) :
    Simulates (fun machine view => Shows gasLeft machine view ∧ machine.pc = pc)
      (proceed (opPush env opcode))
      (Meaning.perform env (pushInstruction opcode (env.code.drop (pc + 1))))
      (Agrees env gasLeft) := by
  rintro machine view ⟨h, rfl⟩
  obtain ⟨hPositive, hSize⟩ := pushSize_pos hPush
  rw [proceed_eq, opPush_eq env hPush, pushInstruction, List.length_drop]
  by_cases hInside : machine.pc + pushSize opcode < env.code.length
  · rw [if_pos hInside, if_pos (by omega)]
    have hLength : ((env.code.drop (machine.pc + 1)).take (pushSize opcode)).length =
        pushSize opcode := by
      rw [List.length_take, List.length_drop]
      omega
    have hValue := toNat_copyInto_end (hLength.trans_le hSize)
    rw [hLength] at hValue
    have hMoved : Shows gasLeft { machine with pc := sizeT (machine.pc + pushSize opcode) } view :=
      ⟨h.gas, h.height, h.stack, h.size, h.memory, h.world⟩
    have hBoth : Simulates (Shows gasLeft) (proceed (push (pushValue env opcode machine.pc)))
        (Meaning.perform env (.push ((env.code.drop (machine.pc + 1)).take (pushSize opcode))))
        (Agrees env gasLeft) := simulates_push_break _ hValue.symm
    have hResult := hBoth _ _ hMoved
    rw [proceed_eq] at hResult
    exact hResult
  · rw [if_neg hInside, if_neg (by omega)]
    rfl

/-- The case of the switch for an opcode does what the instruction means. -/
theorem simulates_dispatch (hSupplied : Supplied env) (opcode : UInt8) (pc : Nat) :
    Simulates (fun machine view => Shows gasLeft machine view ∧ machine.pc = pc)
      (dispatch env opcode)
      (Meaning.perform env (instruction opcode (env.code.drop (pc + 1))))
      (Agrees env gasLeft) := by
  have hShown : ∀ {program : Interp State (Option ExecutionResult)}
      {meaning : Meaning State (Option Ending)},
      Simulates (Shows gasLeft) program meaning (Agrees env gasLeft) →
      Simulates (fun machine view => Shows gasLeft machine view ∧ machine.pc = pc) program meaning
        (Agrees env gasLeft) :=
    fun h => h.strengthen fun _ _ hBoth => hBoth.1
  simp only [dispatch, instruction, apply_ite (Meaning.perform env)]
  refine Simulates.ite Iff.rfl (fun _ => hShown ?_) fun _ => ?_
  · apply Simulates.get_bind_left
    intro machine view h
    apply Simulates.pure
    rintro current other ⟨rfl, rfl⟩
    refine ⟨?_, h.world.symm⟩
    simp [Ending.report, h.gas]
  refine Simulates.ite Iff.rfl (fun _ => hShown simulates_opAdd) fun _ => ?_
  refine Simulates.ite Iff.rfl (fun _ => hShown simulates_opAddress) fun _ => ?_
  refine Simulates.ite Iff.rfl (fun _ => hShown (simulates_opCalldataload hSupplied)) fun _ => ?_
  refine Simulates.ite Iff.rfl (fun _ => hShown simulates_opNumber) fun _ => ?_
  refine Simulates.ite Iff.rfl (fun _ => hShown simulates_opMstore) fun _ => ?_
  refine Simulates.ite Iff.rfl (fun _ => hShown simulates_opSload) fun _ => ?_
  refine Simulates.ite Iff.rfl (fun _ => hShown simulates_opSstore) fun _ => ?_
  refine Simulates.ite Iff.rfl (fun _ => hShown simulates_opMsize) fun _ => ?_
  refine Simulates.ite Iff.rfl (fun hPush => simulates_opPush hPush pc) fun _ => ?_
  refine Simulates.ite Iff.rfl (fun _ => hShown simulates_opDup1) fun _ => ?_
  refine Simulates.ite Iff.rfl (fun _ => hShown (simulates_opCall hSupplied)) fun _ => ?_
  refine Simulates.ite Iff.rfl (fun _ => hShown (simulates_opOutput (Or.inl rfl))) fun _ => ?_
  refine Simulates.ite Iff.rfl (fun _ => hShown (simulates_opOutput (Or.inr rfl))) fun _ => ?_
  exact hShown (simulates_failure (by decide) (by decide))

end Qrvmc.ExampleVm
