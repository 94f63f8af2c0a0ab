import Qrvmc.ExampleVm.RunMeaning

/-! Runs of one code against two hosts. Where the hosts answer alike what the instructions
of the code ask for, the runs have the same result, whatever else the hosts are. Related
worlds stay related in every step. -/
namespace Qrvmc.ExampleVm
open Semantics

variable {First Second : Type} {env : Environment First} {other : Environment Second}
  {worlds : HostWorld First → HostWorld Second → Prop} {instructions : List Instruction}

/-- The results of nested calls that look alike to the caller. -/
structure SameAnswer (result answer : RawResult) : Prop where
  success : result.statusCode = .success ↔ answer.statusCode = .success
  outputSize : result.outputSize = answer.outputSize

/-- The worlds behind two calls: the outputs can be read alike, and to release the results
leaves related worlds. -/
def Answered (env : Environment First) (other : Environment Second)
    (worlds : HostWorld First → HostWorld Second → Prop) (result answer : RawResult)
    (first : HostWorld First) (second : HostWorld Second) : Prop :=
  env.outputData first result = other.outputData second answer ∧
    worlds (result.destructor first).2 (answer.destructor second).2

/-- The environments differ in nothing that these instructions look at. -/
structure HostsAgree (env : Environment First) (other : Environment Second)
    (worlds : HostWorld First → HostWorld Second → Prop) (instructions : List Instruction) :
    Prop where
  recipient : env.msg.recipient = other.msg.recipient
  input : ∀ offset, inputWord env offset = inputWord other offset
  malloc : env.malloc = other.malloc
  getTxContext : ∀ first second, worlds first second →
    (env.host.getTxContext env.context first).1.blockNumber =
        (other.host.getTxContext other.context second).1.blockNumber ∧
      worlds (env.host.getTxContext env.context first).2
        (other.host.getTxContext other.context second).2
  getStorage : ∀ key first second, worlds first second →
    (env.host.getStorage env.context env.msg.recipient key first).1 =
        (other.host.getStorage other.context other.msg.recipient key second).1 ∧
      worlds (env.host.getStorage env.context env.msg.recipient key first).2
        (other.host.getStorage other.context other.msg.recipient key second).2
  setStorage : ∀ key value first second, worlds first second →
    worlds (env.host.setStorage env.context env.msg.recipient key value first).2
      (other.host.setStorage other.context other.msg.recipient key value second).2
  call : Instruction.call ∈ instructions → ∀ msg input first second, worlds first second →
    SameAnswer (env.host.call env.context msg input first).1
        (other.host.call other.context msg input second).1 ∧
      Answered env other worlds (env.host.call env.context msg input first).1
        (other.host.call other.context msg input second).1
        (env.host.call env.context msg input first).2
        (other.host.call other.context msg input second).2

/-- Views with one stack and one memory over related worlds. -/
structure Same (worlds : HostWorld First → HostWorld Second → Prop) (view : View First)
    (seen : View Second) : Prop where
  stack : view.stack = seen.stack
  size : view.size = seen.size
  memory : view.memory = seen.memory
  world : worlds view.world seen.world

theorem same_pop :
    Simulates (Same worlds) Meaning.pop Meaning.pop (Keeping (Same worlds) Eq) := by
  intro view seen h
  have hStack := h.stack
  unfold Meaning.pop
  rw [hStack]
  cases seen.stack with
  | nil => rfl
  | cons top rest => exact ⟨rfl, rfl, h.size, h.memory, h.world⟩

theorem same_push (n : Nat) :
    Simulates (Same worlds) (Meaning.push n) (Meaning.push n) (Keeping (Same worlds) Eq) := by
  intro view seen h
  unfold Meaning.push
  rw [h.stack]
  by_cases hRoom : seen.stack.length < 1024
  · rw [if_pos hRoom, if_pos hRoom]
    exact ⟨rfl, rfl, h.size, h.memory, h.world⟩
  · rw [if_neg hRoom, if_neg hRoom]

/-- Claims are granted alike. -/
theorem Same.claim {view : View First} {seen : View Second} (h : Same worlds view seen)
    (offset length : Nat) :
    (view.claim offset length).1 = (seen.claim offset length).1 ∧
      Same worlds (view.claim offset length).2 (seen.claim offset length).2 := by
  unfold View.claim
  by_cases hRefused : 1024 < (offset + length) % 4294967296
  · simp only [if_pos hRefused]
    exact ⟨trivial, h⟩
  · simp only [if_neg hRefused]
    exact ⟨trivial, h.stack, by rw [h.size], h.memory, h.world⟩

theorem same_claim (offset length : Nat) :
    Simulates (Same worlds) (Meaning.claim offset length) (Meaning.claim offset length)
      (Keeping (Same worlds) Eq) :=
  fun _ _ h => h.claim offset length

theorem same_load (offset length : Nat) :
    Simulates (Same worlds) (Meaning.load offset length) (Meaning.load offset length)
      (Keeping (Same worlds) Eq) := by
  intro view seen h
  unfold Meaning.load
  rw [h.memory]
  by_cases hInside : offset + length ≤ 1024
  · rw [if_pos hInside, if_pos hInside]
    exact ⟨rfl, h⟩
  · rw [if_neg hInside, if_neg hInside]

theorem same_store (offset : Nat) (bytes : List UInt8) :
    Simulates (Same worlds) (Meaning.store offset bytes) (Meaning.store offset bytes)
      (Keeping (Same worlds) Eq) := by
  intro view seen h
  obtain ⟨hGranted, hClaimed⟩ := h.claim offset bytes.length
  unfold Meaning.store
  generalize view.claim offset bytes.length = claimed at hGranted hClaimed ⊢
  generalize seen.claim offset bytes.length = asked at hGranted hClaimed ⊢
  obtain ⟨granted, claimed⟩ := claimed
  obtain ⟨_, asked⟩ := asked
  obtain rfl := hGranted
  cases granted with
  | false => exact ⟨rfl, hClaimed⟩
  | true =>
      by_cases hInside : offset + bytes.length ≤ 1024
      · simp only [if_pos hInside]
        exact ⟨rfl, hClaimed.stack, hClaimed.size, by rw [hClaimed.memory], hClaimed.world⟩
      · simp only [if_neg hInside]

/-- Actions of the hosts from related worlds. -/
theorem same_host {Value Answer : Type} {action : StateM (HostWorld First) Value}
    {acting : StateM (HostWorld Second) Answer} {agree : Value → Answer → Prop}
    (h : ∀ first second, worlds first second →
      agree (action first).1 (acting second).1 ∧ worlds (action first).2 (acting second).2) :
    Simulates (Same worlds) (Meaning.host action) (Meaning.host acting)
      (Keeping (Same worlds) agree) := by
  intro view seen hSame
  obtain ⟨hAgree, hWorlds⟩ := h _ _ hSame.world
  exact ⟨hAgree, hSame.stack, hSame.size, hSame.memory, hWorlds⟩

theorem same_return (ending : Option Ending) :
    Simulates (Same worlds) (pure ending : Meaning First (Option Ending))
      (pure ending : Meaning Second (Option Ending)) (Keeping (Same worlds) Eq) :=
  Simulates.pure fun _ _ h => ⟨rfl, h⟩

theorem same_push_return (n : Nat) :
    Simulates (Same worlds) (Meaning.push n >>= fun _ => pure none)
      (Meaning.push n >>= fun _ => pure (none : Option Ending)) (Keeping (Same worlds) Eq) :=
  (same_push n).keeping_bind fun _ _ _ => same_return none

theorem same_finish (h : HostsAgree env other worlds instructions) (statusCode : StatusCode)
    (offset length : Nat) :
    Simulates (Same worlds) (Meaning.finish env statusCode offset length)
      (Meaning.finish other statusCode offset length) (Keeping (Same worlds) Eq) := by
  unfold Meaning.finish
  rw [h.malloc]
  apply Simulates.ite Iff.rfl
  · intro _
    exact Simulates.pure fun _ _ hSame => ⟨rfl, hSame⟩
  · intro _
    apply Simulates.ite Iff.rfl
    · intro _
      exact Simulates.pure fun _ _ hSame => ⟨rfl, hSame⟩
    · intro _
      apply (same_load offset length).keeping_bind
      rintro output _ rfl
      exact Simulates.pure fun _ _ hSame => ⟨rfl, hSame⟩

theorem same_release (result answer : RawResult) :
    Simulates (Same (Answered env other worlds result answer)) (Meaning.host result.destructor)
      (Meaning.host answer.destructor) (Keeping (Same worlds) fun _ _ => True) := by
  intro view seen h
  exact ⟨trivial, h.stack, h.size, h.memory, h.world.2⟩

theorem same_answer (h : HostsAgree env other worlds instructions) (hCall : .call ∈ instructions)
    (msg : Message) (input : List UInt8) :
    Simulates (Same worlds) (Meaning.host (env.host.call env.context msg input))
      (Meaning.host (other.host.call other.context msg input))
      (fun result answer view seen =>
        SameAnswer result answer ∧ Same (Answered env other worlds result answer) view seen) := by
  intro view seen hSame
  obtain ⟨hAnswer, hAnswered⟩ := h.call hCall msg input _ _ hSame.world
  exact ⟨hAnswer, hSame.stack, hSame.size, hSame.memory, hAnswered⟩

/-- The part of a call behind the answer of the host. -/
theorem same_answered {result answer : RawResult} (hAnswer : SameAnswer result answer)
    (offset length : Nat) :
    Simulates (Same (Answered env other worlds result answer))
      (do
        Meaning.push (if result.statusCode = .success then 1 else 0)
        let view ← get
        let _ ← Meaning.store offset ((env.outputData view.world result).take
          (min length result.outputSize))
        Meaning.host result.destructor
        return (none : Option Ending))
      (do
        Meaning.push (if answer.statusCode = .success then 1 else 0)
        let view ← get
        let _ ← Meaning.store offset ((other.outputData view.world answer).take
          (min length answer.outputSize))
        Meaning.host answer.destructor
        return none)
      (Keeping (Same worlds) Eq) := by
  have hFlag : (if result.statusCode = .success then 1 else 0) =
      (if answer.statusCode = .success then 1 else 0) :=
    if_congr hAnswer.success rfl rfl
  have hStore (bytes : List UInt8) :
      Simulates (Same (Answered env other worlds result answer))
        (do
          let _ ← Meaning.store offset bytes
          Meaning.host result.destructor
          return (none : Option Ending))
        (do
          let _ ← Meaning.store offset bytes
          Meaning.host answer.destructor
          return none)
        (Keeping (Same worlds) Eq) := by
    apply (same_store offset bytes).keeping_bind
    intro _ _ _
    apply (same_release result answer).bind
    intro _ _
    exact Simulates.pure fun _ _ hKept => ⟨rfl, hKept.2⟩
  rw [hFlag, hAnswer.outputSize]
  apply (same_push _).keeping_bind
  intro _ _ _
  apply Simulates.get_bind
  intro view seen hSame
  rw [hSame.world.1]
  apply (hStore _).strengthen
  rintro current now ⟨rfl, rfl⟩
  exact hSame

theorem same_call (h : HostsAgree env other worlds instructions) (hCall : .call ∈ instructions) :
    Simulates (Same worlds) (Meaning.call env) (Meaning.call other) (Keeping (Same worlds) Eq) := by
  unfold Meaning.call
  apply same_pop.keeping_bind
  rintro gas _ rfl
  apply same_pop.keeping_bind
  rintro recipient _ rfl
  apply same_pop.keeping_bind
  rintro value _ rfl
  apply same_pop.keeping_bind
  rintro inputOffset _ rfl
  apply same_pop.keeping_bind
  rintro inputLength _ rfl
  apply (same_claim _ _).keeping_bind
  rintro inputGranted _ rfl
  apply same_pop.keeping_bind
  rintro outputOffset _ rfl
  apply same_pop.keeping_bind
  rintro outputLength _ rfl
  apply (same_claim _ _).keeping_bind
  rintro outputGranted _ rfl
  apply Simulates.ite Iff.rfl
  · intro _
    apply (same_load _ _).keeping_bind
    rintro input _ rfl
    apply (same_answer h hCall _ input).bind
    intro result answer
    exact Simulates.of_and fun hAnswer => same_answered hAnswer _ _
  · intro _
    exact same_return _

theorem same_txContext (h : HostsAgree env other worlds instructions) :
    Simulates (Same worlds) (Meaning.host (env.host.getTxContext env.context))
      (Meaning.host (other.host.getTxContext other.context))
      (Keeping (Same worlds) fun txContext given => txContext.blockNumber = given.blockNumber) :=
  same_host h.getTxContext

theorem same_setStorage (h : HostsAgree env other worlds instructions) (key value : Bytes32) :
    Simulates (Same worlds)
      (Meaning.host (env.host.setStorage env.context env.msg.recipient key value))
      (Meaning.host (other.host.setStorage other.context other.msg.recipient key value))
      (Keeping (Same worlds) fun _ _ => True) :=
  same_host fun first second hWorlds => ⟨trivial, h.setStorage key value first second hWorlds⟩

/-- The step of the simulation. -/
theorem simulates_perform (h : HostsAgree env other worlds instructions)
    {instruction : Instruction} (hMem : instruction ∈ instructions) :
    Simulates (Same worlds) (Meaning.perform env instruction) (Meaning.perform other instruction)
      (Keeping (Same worlds) Eq) := by
  cases instruction with
  | stop => exact same_return _
  | add =>
      apply same_pop.keeping_bind
      rintro a _ rfl
      apply same_pop.keeping_bind
      rintro b _ rfl
      exact same_push_return _
  | address =>
      unfold Meaning.perform
      rw [h.recipient]
      exact same_push_return _
  | calldataload =>
      apply same_pop.keeping_bind
      rintro offset _ rfl
      rw [h.input]
      exact same_push_return _
  | number =>
      apply (same_txContext h).keeping_bind
      intro txContext given hNumber
      rw [hNumber]
      exact same_push_return _
  | mstore =>
      apply same_pop.keeping_bind
      rintro offset _ rfl
      apply same_pop.keeping_bind
      rintro value _ rfl
      apply (same_store _ _).keeping_bind
      rintro granted _ rfl
      apply Simulates.ite Iff.rfl
      · intro _
        exact same_return _
      · intro _
        exact same_return _
  | sload =>
      apply same_pop.keeping_bind
      rintro key _ rfl
      apply (same_host (h.getStorage _)).keeping_bind
      rintro value _ rfl
      exact same_push_return _
  | sstore =>
      apply same_pop.keeping_bind
      rintro key _ rfl
      apply same_pop.keeping_bind
      rintro value _ rfl
      apply (same_setStorage h _ _).keeping_bind
      intro _ _ _
      exact same_return _
  | msize =>
      apply Simulates.get_bind
      intro view seen hSame
      rw [hSame.size]
      apply (same_push_return _).strengthen
      rintro _ _ ⟨rfl, rfl⟩
      exact hSame
  | push immediate => exact same_push_return _
  | cutOff => exact Simulates.throw
  | dup1 =>
      apply same_pop.keeping_bind
      rintro top _ rfl
      apply (same_push _).keeping_bind
      intro _ _ _
      exact same_push_return _
  | call => exact same_call h hMem
  | output statusCode =>
      apply same_pop.keeping_bind
      rintro offset _ rfl
      apply same_pop.keeping_bind
      rintro length _ rfl
      apply (same_claim _ _).keeping_bind
      rintro granted _ rfl
      apply Simulates.ite Iff.rfl
      · intro _
        apply (same_finish h statusCode _ _).keeping_bind
        rintro ending _ rfl
        exact same_return _
      · intro _
        exact same_return _
  | undefined => exact same_return _

/-- Runs that fail alike, or give one result and leave related worlds. -/
inductive Alike {Value : Type} (worlds : HostWorld First → HostWorld Second → Prop) :
    Except Fault (Value × HostWorld First) → Except Fault (Value × HostWorld Second) → Prop where
  | failed (fault : Fault) : Alike worlds (.error fault) (.error fault)
  | returned (value : Value) {first : HostWorld First} {second : HostWorld Second}
      (h : worlds first second) : Alike worlds (.ok (value, first)) (.ok (value, second))

theorem alike_run (h : HostsAgree env other worlds instructions) {rest : List Instruction}
    (hRest : rest ⊆ instructions) (gas : Nat) {view : View First} {seen : View Second}
    (hSame : Same worlds view seen) :
    Alike worlds (Meaning.run env rest gas view) (Meaning.run other rest gas seen) := by
  have hEnd (gasLeft : Int64) (ending : Ending) {first : HostWorld First}
      {second : HostWorld Second} (hWorlds : worlds first second) :
      Alike worlds (.ok (ending.report env gasLeft, first))
        (.ok (ending.report other gasLeft, second)) := by
    rw [Ending.report, Ending.report, h.malloc]
    exact Alike.returned _ hWorlds
  induction rest generalizing gas view seen with
  | nil => exact hEnd _ _ hSame.world
  | cons instruction rest ih =>
      cases gas with
      | zero => exact hEnd _ _ hSame.world
      | succ gas =>
          have hStep := simulates_perform h (hRest (List.mem_cons_self ..)) view seen hSame
          rw [Meaning.run, Meaning.run]
          cases hFirst : Meaning.perform env instruction view with
          | error fault =>
              cases hSecond : Meaning.perform other instruction seen with
              | error error =>
                  rw [hFirst, hSecond] at hStep
                  obtain rfl : fault = error := hStep
                  exact Alike.failed fault
              | ok answer =>
                  rw [hFirst, hSecond] at hStep
                  exact hStep.elim
          | ok outcome =>
              cases hSecond : Meaning.perform other instruction seen with
              | error error =>
                  rw [hFirst, hSecond] at hStep
                  exact hStep.elim
              | ok answer =>
                  obtain ⟨ending, next⟩ := outcome
                  obtain ⟨_, following⟩ := answer
                  rw [hFirst, hSecond] at hStep
                  obtain ⟨rfl, hNext⟩ := hStep
                  cases ending with
                  | some ending => exact hEnd _ ending hNext.world
                  | none => exact ih (fun _ hMem => hRest (List.mem_cons_of_mem _ hMem)) gas hNext

/-- The interpreter against two hosts. -/
theorem execute_alike (hLength : env.code.length < 2 ^ 64) (hGas : 0 ≤ env.msg.gas)
    (hSupplied : Supplied env) (hOther : Supplied other) (hCode : other.code = env.code)
    (hGasSame : other.msg.gas = env.msg.gas) (h : HostsAgree env other worlds (decode env.code))
    {first : HostWorld First} {second : HostWorld Second} (hWorlds : worlds first second) :
    Alike worlds ((execute env first).map observed) ((execute other second).map observed) := by
  rw [execute_meaning hLength hGas hSupplied,
    execute_meaning (hCode ▸ hLength) (hGasSame ▸ hGas) hOther, hCode, hGasSame]
  exact alike_run h (fun _ hMem => hMem) _ ⟨rfl, rfl, rfl, hWorlds⟩

end Qrvmc.ExampleVm
