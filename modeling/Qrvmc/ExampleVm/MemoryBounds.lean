import Qrvmc.ExampleVm.ResultContract

/-! The bounds of the memory of the example VM. A sequence of calls stays in bounds
exactly if none of their regions wraps around, and a run of the interpreter accesses no
byte outside the memory if no instruction asks for such a region. -/
namespace Qrvmc.ExampleVm
open Semantics

variable {State : Type} {env : Environment State}

/-- The size of the memory is bounded, also where regions wrap around. -/
theorem stable_memorySize : Stable env fun machine => machine.memory.size ≤ 1024 where
  stack _ _ h := h
  expand _ offset regionSize h := (Memory.expand_size h offset regionSize).2
  data _ _ h := h
  getTxContext _ h := h
  getStorage _ _ h := h
  call _ _ _ h := h
  release _ _ h := h

/-- The regions that the instruction at the program counter asks the memory for. -/
def requests (env : Environment State) (machine : Machine State) : List (UInt32 × UInt32) :=
  match env.code[machine.pc]? with
  | none => []
  | some opcode => memoryRequests opcode machine.stack

/-- An instruction that accesses bytes outside the memory asks for a region whose end
wraps around. -/
theorem wraps_of_memoryBounds {machine : Machine State} {opcode : UInt8}
    (h : dispatch env opcode machine = .error .memoryBounds) :
    ∃ request ∈ memoryRequests opcode machine.stack, Wraps request.1 request.2 := by
  by_contra hNone
  have hTolerates : Tolerates env (· = Fault.memoryBounds) :=
    { stack := fun hBad => by cases hBad
      foreign := fun hBad => by cases hBad }
  have hNot := not_bad_of_dispatch_error hTolerates (fun hBad => by cases hBad)
    (fun _ request hRequest hWraps => hNone ⟨request, hRequest, hWraps⟩) h
  exact hNot rfl

theorem instructions_memorySize (hLength : env.code.length < 2 ^ 64) (world : HostWorld State) :
    ∀ machine ∈ instructions env world, machine.memory.size ≤ 1024 := by
  apply (runs_execute hLength world).invariant fun machine => machine.memory.size ≤ 1024
  · exact UInt32.zero_le
  · intro machine next opcode hSize _ _ hDispatch
    have hCharged : machine.charged.memory.size ≤ 1024 := hSize
    have hNext : next.memory.size ≤ 1024 := holds_of_dispatch stable_memorySize
      (fun _ _ hSame => hSame) (fun _ _ _ _ hSame => hSame) hCharged hDispatch
    exact hNext

theorem execute_ne_memoryBounds {world : HostWorld State} (hLength : env.code.length < 2 ^ 64)
    (h : ∀ machine ∈ instructions env world, ∀ request ∈ requests env machine,
      ¬Wraps request.1 request.2) : execute env world ≠ .error .memoryBounds := by
  intro hFault
  obtain ⟨machine, hMachine, opcode, hOpcode, hDispatch⟩ :=
    (runs_execute hLength world).failure (by decide) hFault
  obtain ⟨request, hRequest, hWraps⟩ := wraps_of_memoryBounds hDispatch
  apply h machine hMachine request _ hWraps
  rw [requests, hOpcode]
  exact hRequest

/-- A sequence of calls stays within bounds exactly where no region wraps around. In a
run of the interpreter every region that an instruction asks for is told right exactly
then, and if none of them wraps around, no access is outside the memory. -/
theorem memory_bounds (ops : List MemoryOp) (hSupplied : ∀ op ∈ ops, op.Supplied)
    (env : Environment State) (hLength : env.code.length < 2 ^ 64) (world : HostWorld State) :
    (BoundedRun {} ops ↔ ∀ op ∈ ops, ¬Wraps op.offset op.regionSize) ∧
    (∀ machine ∈ instructions env world, machine.memory.size ≤ 1024 ∧
      ∀ request ∈ requests env machine,
        (machine.memory.ExpandsWell request.1 request.2 ↔ ¬Wraps request.1 request.2)) ∧
    ((∀ machine ∈ instructions env world, ∀ request ∈ requests env machine,
      ¬Wraps request.1 request.2) → execute env world ≠ .error .memoryBounds) := by
  refine ⟨boundedRun_iff UInt32.zero_le hSupplied, ?_, execute_ne_memoryBounds hLength⟩
  intro machine hMachine
  have hSize := instructions_memorySize hLength world machine hMachine
  exact ⟨hSize, fun request _ => Memory.expandsWell_iff hSize request.1 request.2⟩

/-- `RETURN` of the byte behind the memory is refused. -/
theorem memory_bounds_return :
    BoundedRun {} [.expand 1000 24, .store 0 (List.replicate 32 0) 32] ∧
      execute (testEnvironment 10 [0x60, 0x01, 0x61, 0x04, 0x00, 0xf3] []) testWorld ≠
        .error .memoryBounds := by
  have hSupplied : ∀ op ∈ [MemoryOp.expand 1000 24, .store 0 (List.replicate 32 0) 32],
      op.Supplied := by
    intro op hOp
    simp only [List.mem_cons, List.not_mem_nil, or_false] at hOp
    rcases hOp with rfl | rfl
    · exact trivial
    · exact Nat.le_refl 32
  obtain ⟨hOps, _, hExecute⟩ := memory_bounds _ hSupplied
    (testEnvironment 10 [0x60, 0x01, 0x61, 0x04, 0x00, 0xf3] []) (by decide) testWorld
  have hRequests : (instructions (testEnvironment 10 [0x60, 0x01, 0x61, 0x04, 0x00, 0xf3] [])
      testWorld).flatMap (requests (testEnvironment 10 [0x60, 0x01, 0x61, 0x04, 0x00, 0xf3] [])) =
        [(1024, 1)] := by decide +kernel
  refine ⟨hOps.mpr (by decide), hExecute ?_⟩
  intro machine hMachine request hRequest
  have hMem := List.mem_flatMap.mpr ⟨machine, hMachine, hRequest⟩
  rw [hRequests, List.mem_singleton] at hMem
  rw [hMem]
  decide

/-- A region at the highest offset is returned, and a store of a word there by `MSTORE`
writes outside the buffer. -/
theorem memory_bounds_wrapped :
    ¬BoundedRun {} [.expand 0xffffffff 1] ∧
      ({} : Memory).expand 0xffffffff 1 = (some 0xffffffff, {}) ∧
      execute (testEnvironment 10 [0x60, 0x00, 0x63, 0xff, 0xff, 0xff, 0xe0, 0x52] []) testWorld =
        .error .memoryBounds := by
  refine ⟨?_, rfl, rfl⟩
  intro hRun
  have hEnd := hRun.1.1.inside 0xffffffff rfl
  exact absurd hEnd (by decide)

end Qrvmc.ExampleVm
