import Qrvmc.ExampleVm.CodeBlocks
import Qrvmc.ExampleVm.ProgramLogic
import Qrvmc.Host.HostComparison
import Mathlib.Tactic.IntervalCases

/-! The counter of the unit tests, for any number of rounds and any amount of gas. Each
round adds one to a slot of the storage in 32 bits. Where the gas ends, the rounds that
were completed stay counted: the interpreter undoes nothing. -/
namespace Qrvmc.ExampleVm
open Bytes Semantics

variable {State : Type} {env : Environment State}

/-- `sstore(0, add(sload(0), 1))`. -/
def counterRound : List UInt8 := [0x60, 0x01, 0x60, 0x00, 0x54, 0x01, 0x60, 0x00, 0x55]

def counterInstructions : List Instruction :=
  [.push [0x01], .push [0x00], .sload, .add, .push [0x00], .sstore]

theorem decode_counterRounds (rounds : Nat) :
    decode (List.replicate rounds counterRound).flatten =
      (List.replicate rounds counterInstructions).flatten := by
  induction rounds with
  | zero => rfl
  | succ rounds ih =>
      have hWhole : Whole 0 counterRound := rfl
      have hRound : decode counterRound = counterInstructions := by decide
      rw [List.replicate_succ, List.flatten_cons, decode_append hWhole, ih, hRound,
        List.replicate_succ, List.flatten_cons]

/-- A host whose storage of the recipient returns what was stored last. Reading it does not
change it. -/
structure Remembers (env : Environment State) (slot : HostWorld State → Bytes32 → Bytes32) :
    Prop where
  get : ∀ world key,
    (env.host.getStorage env.context env.msg.recipient key world).1 = slot world key
  kept : ∀ world key,
    slot (env.host.getStorage env.context env.msg.recipient key world).2 key = slot world key
  set : ∀ world key value,
    slot (env.host.setStorage env.context env.msg.recipient key value world).2 key = value

theorem onHost_objects {Host Value : Type} (host : Nat) (method : StateM Host Value)
    (world : HostWorld Host) :
    (onHost host method world).2.objects host = (method (world.objects host)).2 :=
  Function.update_self ..

/-- The mocked host remembers, by the current values of its slots. -/
theorem mocked_remembers {env : Environment MockedHost}
    (hHost : env.host = getInterface MockedHost.methods) :
    Remembers env fun world key =>
      ((world.objects env.context).storageEntry env.msg.recipient key).current where
  get world key := by
    rw [hHost]
    exact MockedHost.getStorage_snd (world.objects env.context) env.msg.recipient key
  kept world key := by
    have hObjects := onHost_objects env.context
      (MockedHost.methods.getStorage env.msg.recipient key) world
    have hKept := MockedHost.getStorage_fst (world.objects env.context) env.msg.recipient key
    rw [hHost]
    change (((onHost env.context (MockedHost.methods.getStorage env.msg.recipient key)
      world).2.objects env.context).storageEntry env.msg.recipient key).current = _
    rw [hObjects]
    change (((world.objects env.context).getStorage env.msg.recipient key).1.storageEntry
      env.msg.recipient key).current = _
    rw [hKept, MockedHost.recordAccountAccess_storageEntry]
  set world key value := by
    have hObjects := onHost_objects env.context
      (MockedHost.methods.setStorage env.msg.recipient key value) world
    rw [hHost]
    change (((onHost env.context (MockedHost.methods.setStorage env.msg.recipient key value)
      world).2.objects env.context).storageEntry env.msg.recipient key).current = _
    rw [hObjects]
    change (((world.objects env.context).setStorage env.msg.recipient key value).1.storageEntry
      env.msg.recipient key).current = _
    rw [MockedHost.setStorage, MockedHost.storageEntry_assignStorage_self]

/-- The example host remembers as it is. -/
theorem example_remembers {env : Environment ExampleContext} {malloc : Nat → Option Nat}
    (hHost : env.host = getInterface (ExampleContext.methods malloc)) :
    Remembers env fun world key =>
      (world.objects env.context).getStorage env.msg.recipient key where
  get world key := by
    rw [hHost]
    rfl
  kept world key := by
    have hObjects := onHost_objects env.context
      ((ExampleContext.methods malloc).getStorage env.msg.recipient key) world
    rw [hHost]
    exact congrArg (ExampleHost.getStorage · env.msg.recipient key)
      (congrArg ExampleContext.toExampleHost hObjects)
  set world key value := by
    have hObjects := onHost_objects env.context
      ((ExampleContext.methods malloc).setStorage env.msg.recipient key value) world
    rw [hHost]
    refine (congrArg (ExampleHost.getStorage · env.msg.recipient key)
      (congrArg ExampleContext.toExampleHost hObjects)).trans ?_
    rw [ExampleHost.getStorage_eq]
    change ((((world.objects env.context).toExampleHost.setStorage env.msg.recipient key
      value).1).accounts.entry env.msg.recipient).storage.entry key = value
    simp [ExampleHost.setStorage]

/-- The counter after a number of rounds. A round keeps the low 32 bits of its sum. -/
def counted (start rounds : Nat) : Nat :=
  if rounds = 0 then start else (start + rounds) % 4294967296

theorem counted_succ (start rounds : Nat) :
    counted start (rounds + 1) = (counted start rounds + 1) % 4294967296 := by
  unfold counted
  rw [if_neg (Nat.succ_ne_zero rounds)]
  by_cases hFirst : rounds = 0
  · rw [if_pos hFirst, hFirst]
  · rw [if_neg hFirst, Nat.mod_add_mod, Nat.add_assoc]

/-- The stack before each instruction of a round on a counter of this value. -/
def counterStack (value : Nat) : Nat → List Nat
  | 1 => [1]
  | 2 => [0, 1]
  | 3 => [value, 1]
  | 4 => [(value + 1) % 4294967296]
  | 5 => [0, (value + 1) % 4294967296]
  | _ => []

/-- Only the last instruction of a round changes the slot. -/
def Counting (slot : HostWorld State → Bytes32 → Bytes32) (value index : Nat)
    (view : View State) : Prop :=
  view.stack = counterStack value index ∧
    (slot view.world 0).toNat = if index < 6 then value else (value + 1) % 4294967296

theorem counting_push {slot : HostWorld State → Bytes32 → Bytes32} {value index n : Nat}
    {view : View State} (h : Counting slot value index view) (hIndex : index < 5)
    (hNext : counterStack value (index + 1) = n :: counterStack value index)
    (hHeight : (counterStack value index).length < 1024) :
    pushing n (Counting slot value (index + 1)) view := by
  obtain ⟨hStack, hSlot⟩ := h
  refine ⟨hStack ▸ hHeight, ?_, ?_⟩
  · rw [hNext, hStack]
  · rw [if_pos (by omega)] at hSlot ⊢
    exact hSlot

/-- A round on a counter of any value, from an empty stack to an empty stack. -/
theorem counter_outline {slot : HostWorld State → Bytes32 → Bytes32} (h : Remembers env slot)
    (value : Nat) :
    Outline (rules env) (Counting slot value) counterInstructions fun _ _ _ => False := by
  intro index instruction hIndex view hView
  obtain ⟨hLess, rfl⟩ := List.getElem?_eq_some_iff.mp hIndex
  have hSix : index < 6 := hLess
  obtain ⟨hStack, hSlot⟩ := id hView
  rw [if_pos hSix] at hSlot
  have hKey : Bytes32.ofNat 0 = 0 := by decide
  interval_cases index
  · exact counting_push hView (by decide) rfl (by simp [counterStack])
  · exact counting_push hView (by decide) rfl (by simp [counterStack])
  · -- the host is asked for the slot
    refine ⟨0, [1], hStack, by simp, ?_, ?_⟩
    · change (env.host.getStorage env.context env.msg.recipient (Bytes32.ofNat 0)
        view.world).1.toNat :: [1] = [value, 1]
      rw [h.get, hKey, hSlot]
    · change (slot (env.host.getStorage env.context env.msg.recipient (Bytes32.ofNat 0)
        view.world).2 0).toNat = value
      rw [hKey, h.kept, hSlot]
  · exact ⟨value, [1], hStack, 1, [], rfl, by simp, rfl, hSlot⟩
  · exact counting_push hView (by decide) rfl (by simp [counterStack])
  · -- the host stores the sum
    refine ⟨0, [(value + 1) % 4294967296], hStack, (value + 1) % 4294967296, [], rfl, rfl, ?_⟩
    change (slot (env.host.setStorage env.context env.msg.recipient (Bytes32.ofNat 0)
      (Bytes32.ofNat ((value + 1) % 4294967296)) view.world).2 0).toNat = (value + 1) % 4294967296
    rw [hKey, h.set, Bytes32.toNat_ofNat]
    omega

/-- The slot in the midst of the rounds. -/
theorem counting_slot {slot : HostWorld State → Bytes32 → Bytes32} {start index : Nat}
    {view : View State} (h : Counting slot (counted start (index / 6)) (index % 6) view) :
    (slot view.world 0).toNat = counted start (index / 6) := by
  rw [h.2, if_pos (Nat.mod_lt index (by decide))]

/-- The rounds that the gas pays for are counted, also where it does not pay for all. -/
theorem counter_rounds {slot : HostWorld State → Bytes32 → Bytes32} {rounds : Nat}
    (hCode : env.code = (List.replicate rounds counterRound).flatten)
    (hLength : env.code.length < 2 ^ 64) (hGas : 0 ≤ env.msg.gas) (hSupplied : Supplied env)
    (hRemembers : Remembers env slot) (world : HostWorld State) :
    ∃ result machine, execute env world = .ok (result, machine) ∧
      (slot machine.world 0).toNat =
        counted (slot world 0).toNat (min rounds (env.msg.gas.toInt.toNat / 6)) ∧
      result = if 6 * rounds ≤ env.msg.gas.toInt.toNat then
          makeResult .success (Int64.ofNat (env.msg.gas.toInt.toNat - 6 * rounds)) 0
        else makeResult .outOfGas 0 0 := by
  have hRounds : ∀ round, Outline (rules env)
      (Counting slot (counted (slot world 0).toNat round)) counterInstructions fun _ _ _ => False :=
    fun round => counter_outline hRemembers _
  have hNext : ∀ round (view : View State),
      Counting slot (counted (slot world 0).toNat round) 6 view →
        Counting slot (counted (slot world 0).toNat (round + 1)) 0 view := by
    intro round view hView
    refine ⟨hView.1, ?_⟩
    rw [hView.2, counted_succ]
    rfl
  have hOutline := Outline.repeated hRounds hNext rounds
  have hDecode : decode env.code = (List.replicate rounds counterInstructions).flatten := by
    rw [hCode, decode_counterRounds]
  have hCount : (decode env.code).length = 6 * rounds := by
    rw [hDecode]
    simp [counterInstructions, Nat.mul_comm]
  rw [← hDecode] at hOutline
  have hStart : Counting slot (counted (slot world 0).toNat 0) 0 { world } := ⟨rfl, rfl⟩
  obtain ⟨result, machine, view, hExecute, hWorld, hEnds⟩ :=
    execute_outline hLength hGas hSupplied hOutline hStart
  refine ⟨result, machine, hExecute, ?_⟩
  rw [hWorld]
  rw [hCount] at hEnds
  cases hEnds with
  | behind hEnough hView =>
      have hAll : 6 * rounds / 6 = min rounds (env.msg.gas.toInt.toNat / 6) := by omega
      rw [if_pos hEnough, ← hAll]
      exact ⟨counting_slot hView, by simp [Ending.report]⟩
  | inside _ hFalse => exact hFalse.elim
  | outOfGas hLess hView =>
      have hSome : env.msg.gas.toInt.toNat / 6 =
          min rounds (env.msg.gas.toInt.toNat / 6) := by omega
      rw [if_neg (Nat.not_le_of_lt hLess), ← hSome]
      exact ⟨counting_slot hView, by simp [Ending.report]⟩

/-- Two rounds and the gas for one and a half. -/
theorem counter_rounds_mocked :
    ∃ result machine,
      execute (testEnvironment 9 (List.replicate 2 counterRound).flatten []) testWorld =
        .ok (result, machine) ∧
      (((machine.world.objects 0).storageEntry
        (addressLiteral "Qd00000000000000000000000000000000000000d") 0).current).toNat = 1 ∧
      result = makeResult .outOfGas 0 0 := by
  obtain ⟨result, machine, hExecute, hSlot, hResult⟩ :=
    @counter_rounds _ (testEnvironment 9 (List.replicate 2 counterRound).flatten []) _ 2 rfl
      (by decide) (by decide) (testEnvironment_supplied ..) (mocked_remembers rfl) testWorld
  exact ⟨result, machine, hExecute, hSlot.trans (by decide), hResult⟩

end Qrvmc.ExampleVm
