import Qrvmc.ExampleVm.ResultContract

/-! The bytes of the code that the example VM reads. Opcodes are read inside the code,
since the loop checks the program counter, but nothing checks the immediate bytes of a
push. A run reads outside its code exactly if it reaches a push that is cut off. -/
namespace Qrvmc.ExampleVm

variable {State : Type} {env : Environment State}

/-- The indices of the bytes that the instruction at the program counter reads: its
opcode, and the immediate bytes of a push. -/
def codeReads (env : Environment State) (machine : Machine State) : List Nat :=
  match env.code[machine.pc]? with
  | none => [machine.pc]
  | some opcode => List.range' machine.pc (pushSize opcode + 1)

/-- Every byte of the code that the run reads is inside the code, and moving the program
counter past an instruction does not wrap around. -/
def ReadsOnlyCode (env : Environment State) (world : HostWorld State) : Prop :=
  execute env world ≠ .error .codeBounds ∧
    ∀ machine ∈ instructions env world, ∀ index ∈ codeReads env machine,
      index < env.code.length ∧ index + 1 < 2 ^ 64

/-- The instruction at the program counter is a push, and its immediate bytes do not fit
in the rest of the code. -/
def CutOff (env : Environment State) (machine : Machine State) : Prop :=
  ∃ opcode, env.code[machine.pc]? = some opcode ∧ IsPush opcode ∧
    env.code.length ≤ machine.pc + pushSize opcode

/-- The opcodes of a run are in the code. -/
theorem Runs.opcode {machine : Machine State} {machines : List (Machine State)}
    {outcome : Except Fault (ExecutionResult × Machine State)}
    (h : Runs env machine machines outcome) :
    ∀ reached ∈ machines, ∃ opcode, env.code[reached.pc]? = some opcode := by
  induction h with
  | finished => exact fun _ hNone => by cases hNone
  | overflow => exact fun _ hNone => by cases hNone
  | refused => exact fun _ hNone => by cases hNone
  | failed hOpcode => exact fun _ hReached => List.mem_singleton.mp hReached ▸ ⟨_, hOpcode⟩
  | ended hOpcode => exact fun _ hReached => List.mem_singleton.mp hReached ▸ ⟨_, hOpcode⟩
  | step hOpcode _ _ rest ih => exact List.forall_mem_cons.mpr ⟨⟨_, hOpcode⟩, ih⟩

/-- A push that is cut off fails. -/
theorem dispatch_cutOff {machine : Machine State} {opcode : UInt8} (hPush : IsPush opcode)
    (hCut : env.code.length ≤ machine.pc + pushSize opcode) :
    dispatch env opcode machine.charged = .error .codeBounds := by
  rcases dispatch_push_cases env hPush machine.charged with ⟨_, hFault⟩ | ⟨hInside, _⟩
  · exact hFault
  · exact absurd hInside (Nat.not_lt.mpr hCut)

/-- A run that reaches a push that is cut off fails there. -/
theorem Runs.cutOff {machine : Machine State} {machines : List (Machine State)}
    {outcome : Except Fault (ExecutionResult × Machine State)}
    (h : Runs env machine machines outcome) {reached : Machine State}
    (hReached : reached ∈ machines) (hCut : CutOff env reached) : outcome = .error .codeBounds := by
  obtain ⟨opcode, hAt, hPush, hLength⟩ := hCut
  have hFault := dispatch_cutOff hPush hLength
  induction h with
  | finished => cases hReached
  | overflow => cases hReached
  | refused => cases hReached
  | failed hOpcode _ hDispatch =>
      obtain rfl := List.mem_singleton.mp hReached
      obtain rfl := Option.some.inj (hOpcode.symm.trans hAt)
      cases hFault.symm.trans hDispatch
      rfl
  | ended hOpcode _ hDispatch =>
      obtain rfl := List.mem_singleton.mp hReached
      obtain rfl := Option.some.inj (hOpcode.symm.trans hAt)
      cases hFault.symm.trans hDispatch
  | step hOpcode _ hDispatch rest ih =>
      rcases List.mem_cons.mp hReached with rfl | hRest
      · obtain rfl := Option.some.inj (hOpcode.symm.trans hAt)
        cases hFault.symm.trans hDispatch
      · exact ih hRest

/-- A run reads outside its code exactly where it performs a push that is cut off. -/
theorem codeBounds_iff (hLength : env.code.length < 2 ^ 64) (world : HostWorld State) :
    execute env world = .error .codeBounds ↔
      ∃ machine ∈ instructions env world, CutOff env machine := by
  constructor
  · intro hFault
    obtain ⟨machine, hMachine, opcode, hOpcode, hDispatch⟩ :=
      (runs_execute hLength world).failure (by decide) hFault
    rcases dispatch_error hDispatch with ⟨_, hPush, hCut⟩ | hExpected
    · exact ⟨machine, hMachine, opcode, hOpcode, hPush, hCut⟩
    · refine absurd ⟨?_, ?_, ?_⟩ hExpected
      · decide
      · decide
      · intro hForeign
        cases hForeign
  · intro hReached
    obtain ⟨machine, hMachine, hCut⟩ := hReached
    exact (runs_execute hLength world).cutOff hMachine hCut

/-- An instruction that is not cut off reads bytes of the code only. -/
theorem codeReads_of_not_cutOff (hLength : env.code.length < 2 ^ 64) {machine : Machine State}
    (hOpcode : ∃ opcode, env.code[machine.pc]? = some opcode) (hWhole : ¬CutOff env machine) :
    ∀ index ∈ codeReads env machine, index < env.code.length ∧ index + 1 < 2 ^ 64 := by
  obtain ⟨opcode, hAt⟩ := hOpcode
  have hPc := (List.getElem?_eq_some_iff.mp hAt).1
  have hInside : machine.pc + pushSize opcode < env.code.length := by
    by_cases hPush : IsPush opcode
    · by_contra hCut
      exact hWhole ⟨opcode, hAt, hPush, Nat.not_lt.mp hCut⟩
    · rw [pushSize_of_not hPush]
      exact hPc
  intro index hIndex
  simp only [codeReads, hAt, List.mem_range'_1] at hIndex
  omega

/-- A code whose last instruction has all its immediate bytes. The number of bytes of the
instruction before that are still to come is given first. -/
def Whole : Nat → List UInt8 → Prop
  | skip, [] => skip = 0
  | 0, opcode :: rest => Whole (pushSize opcode) rest
  | skip + 1, _ :: rest => Whole skip rest

theorem whole_iff (skip : Nat) (code : List UInt8) :
    Whole skip code ↔ skip ≤ code.length ∧ Whole 0 (code.drop skip) := by
  induction code generalizing skip with
  | nil => cases skip <;> simp [Whole]
  | cons opcode rest ih =>
      cases skip with
      | zero => simp
      | succ skip =>
          rw [Whole, ih, List.length_cons, List.drop_succ_cons]
          simp

/-- No run gets to a push that is cut off if the code has none. -/
theorem not_cutOff_of_whole (hLength : env.code.length < 2 ^ 64) (world : HostWorld State)
    (hWhole : Whole 0 env.code) : ∀ machine ∈ instructions env world, ¬CutOff env machine := by
  have hRest : ∀ machine ∈ instructions env world, Whole 0 (env.code.drop machine.pc) := by
    apply (runs_execute hLength world).invariant fun machine => Whole 0 (env.code.drop machine.pc)
    · exact hWhole
    · intro machine next opcode hHere hOpcode hGas hDispatch
      obtain ⟨_, hNext, _⟩ := step_control hLength hOpcode hGas hDispatch
      obtain ⟨hPc, rfl⟩ := List.getElem?_eq_some_iff.mp hOpcode
      rw [List.drop_eq_getElem_cons hPc, Whole, whole_iff, List.drop_drop] at hHere
      rw [hNext, Nat.add_right_comm]
      exact hHere.2
  intro machine hMachine hCut
  obtain ⟨opcode, hOpcode, _, hLess⟩ := hCut
  obtain ⟨hPc, rfl⟩ := List.getElem?_eq_some_iff.mp hOpcode
  have hHere := hRest machine hMachine
  rw [List.drop_eq_getElem_cons hPc, Whole, whole_iff, List.length_drop] at hHere
  omega

/-- A run reads bytes of its code only, and its program counter does not wrap around,
exactly if it performs no push that is cut off by the end of the code. So it does in
every run if the last instruction of the code is whole. -/
theorem reads_only_code_iff (hLength : env.code.length < 2 ^ 64) (world : HostWorld State) :
    (ReadsOnlyCode env world ↔ ∀ machine ∈ instructions env world, ¬CutOff env machine) ∧
    (Whole 0 env.code → ReadsOnlyCode env world) := by
  have hFault := codeBounds_iff hLength world
  have hIff : ReadsOnlyCode env world ↔
      ∀ machine ∈ instructions env world, ¬CutOff env machine := by
    constructor
    · intro hReads machine hMachine hCut
      exact hReads.1 (hFault.mpr ⟨machine, hMachine, hCut⟩)
    · intro hWhole
      constructor
      · intro hOutside
        obtain ⟨machine, hMachine, hCut⟩ := hFault.mp hOutside
        exact hWhole machine hMachine hCut
      · intro machine hMachine
        exact codeReads_of_not_cutOff hLength
          ((runs_execute hLength world).opcode machine hMachine) (hWhole machine hMachine)
  exact ⟨hIff, fun hWhole => hIff.mpr (not_cutOff_of_whole hLength world hWhole)⟩

/-- A push of two bytes that the code has. -/
theorem reads_only_code_push :
    ReadsOnlyCode (testEnvironment 10 [0x61, 0x01, 0x02] []) testWorld :=
  (reads_only_code_iff (by decide) testWorld).2 rfl

/-- The immediate byte of the last instruction is read behind the end of the code. -/
theorem push_reads_outside :
    execute (testEnvironment 1 [0x60] []) testWorld = .error .codeBounds ∧
      codeReads (testEnvironment 1 [0x60] []) (initial (testEnvironment 1 [0x60] []) testWorld) =
        [0, 1] ∧
      ¬ReadsOnlyCode (testEnvironment 1 [0x60] []) testWorld :=
  ⟨rfl, rfl, fun hReads => hReads.1 rfl⟩

end Qrvmc.ExampleVm
