import Qrvmc.ExampleVm.RunMeaning
import Qrvmc.Semantics.Returns
import Qrvmc.Semantics.StraightLine

/-! Rules for reasoning about bytecode. Each instruction has a rule, and a triple of a code
that follows from the rules holds of what the interpreter does with the code. All triples
that hold can be derived. -/
namespace Qrvmc.ExampleVm
open Bytes Semantics

variable {State Value : Type}

/-! ### What the parts of an instruction need -/

def popping (next : Nat → View State → Prop) (view : View State) : Prop :=
  ∃ top rest, view.stack = top :: rest ∧ next top { view with stack := rest }

def pushing (n : Nat) (after : View State → Prop) (view : View State) : Prop :=
  view.stack.length < 1024 ∧ after { view with stack := n :: view.stack }

def hosting (action : StateM (HostWorld State) Value) (next : Value → View State → Prop)
    (view : View State) : Prop :=
  next (action view.world).1 { view with world := (action view.world).2 }

def claiming (offset length : Nat) (next : Bool → View State → Prop) (view : View State) : Prop :=
  if 1024 < (offset + length) % 4294967296 then next false view
  else next true { view with size := max view.size ((offset + length) % 4294967296) }

def loading (offset length : Nat) (next : List UInt8 → View State → Prop) (view : View State) :
    Prop :=
  offset + length ≤ 1024 ∧ next ((List.range' offset length).map view.memory) view

/-- A region is refused by its end in 32 bits. One that is granted must not wrap. -/
def storing (offset : Nat) (bytes : List UInt8) (next : Bool → View State → Prop) :
    View State → Prop :=
  claiming offset bytes.length fun granted view =>
    if granted then
      offset + bytes.length ≤ 1024 ∧
        next true { view with memory := overwrite view.memory offset bytes }
    else next false view

def finishing (env : Environment State) (statusCode : StatusCode) (offset length : Nat)
    (ended : Ending → View State → Prop) : View State → Prop :=
  if length = 0 then ended { statusCode }
  else if env.malloc length = none then ended { statusCode := .outOfMemory }
  else loading offset length fun output => ended { statusCode, output }

/-- The answer is copied as far as it fits, and the result is released in any case. -/
def answering (env : Environment State) (result : RawResult) (outputOffset outputLength : Nat)
    (after : View State → Prop) (view : View State) : Prop :=
  storing outputOffset
    ((env.outputData view.world result).take (min outputLength result.outputSize))
    (fun _ => hosting result.destructor fun _ => after) view

/-- The rule of each instruction: from where it goes on to `after` or ends as `ended` says. -/
def before (env : Environment State) (after : View State → Prop)
    (ended : Ending → View State → Prop) : Instruction → View State → Prop
  | .stop => ended { statusCode := .success }
  | .add => popping fun a => popping fun b => pushing ((a + b) % 4294967296) after
  | .address => pushing env.msg.recipient.toNat after
  | .calldataload => popping fun offset =>
      pushing (beNat (inputWord env (offset % 4294967296))) after
  | .number => hosting (env.host.getTxContext env.context) fun txContext =>
      pushing (txContext.blockNumber.toInt % 4294967296).toNat after
  | .mstore => popping fun offset => popping fun value =>
      storing (offset % 4294967296) (spell 32 value) fun granted =>
        if granted then after else ended { statusCode := .failure }
  | .sload => popping fun key =>
      hosting (env.host.getStorage env.context env.msg.recipient (Bytes32.ofNat key)) fun value =>
        pushing value.toNat after
  | .sstore => popping fun key => popping fun value =>
      hosting (env.host.setStorage env.context env.msg.recipient (Bytes32.ofNat key)
        (Bytes32.ofNat value)) fun _ => after
  | .msize => fun view => pushing view.size after view
  | .push immediate => pushing (beNat immediate) after
  | .cutOff => fun _ => False
  | .dup1 => popping fun top => pushing top (pushing top after)
  | .call =>
      popping fun gas => popping fun recipient => popping fun value =>
      popping fun inputOffset => popping fun inputLength =>
      claiming (inputOffset % 4294967296) (inputLength % 4294967296) fun inputGranted =>
      popping fun outputOffset => popping fun outputLength =>
      claiming (outputOffset % 4294967296) (outputLength % 4294967296) fun outputGranted =>
      if inputGranted && outputGranted then
        loading (inputOffset % 4294967296) (inputLength % 4294967296) fun input =>
        hosting (env.host.call env.context (nestedMessage gas recipient value
          (inputOffset % 4294967296) (inputLength % 4294967296)) input) fun result =>
        pushing (if result.statusCode = .success then 1 else 0)
          (answering env result (outputOffset % 4294967296) (outputLength % 4294967296) after)
      else ended { statusCode := .failure }
  | .output statusCode => popping fun offset => popping fun length =>
      claiming (offset % 4294967296) (length % 4294967296) fun granted =>
        if granted then
          finishing env statusCode (offset % 4294967296) (length % 4294967296) ended
        else ended { statusCode := .failure }
  | .undefined => ended { statusCode := .undefinedInstruction }

/-! ### The rules are exact -/

/-- From this view the program does not fail and ends as wanted. -/
def Ensures (program : Meaning State Value) (post : Value → View State → Prop)
    (view : View State) : Prop :=
  Triple (fun _ => True) (· = view) program post

section Equations

variable {post : Value → View State → Prop}

theorem ensures_iff {program : Meaning State Value} {view : View State} :
    Ensures program post view ↔
      match program view with
      | .ok (value, final) => post value final
      | .error _ => False := by
  rw [Ensures, Triple.at_iff]
  cases program view with
  | error fault => exact not_true
  | ok outcome => exact Iff.rfl

theorem ensures_bind {Result : Type} {program : Meaning State Value}
    {next : Value → Meaning State Result} {post : Result → View State → Prop} :
    Ensures (program >>= next) post = Ensures program fun value => Ensures (next value) post := by
  funext view
  apply propext
  constructor
  · exact fun h => Triple.of_bind h
  · exact fun h => Triple.bind h fun value => Triple.iff_at.mpr fun _ hEnsures => hEnsures

theorem ensures_pure {value : Value} :
    Ensures (pure value : Meaning State Value) post = post value := by
  funext view
  exact propext ensures_iff

theorem ensures_throw {fault : Fault} :
    Ensures (throw fault : Meaning State Value) post = fun _ => False := by
  funext view
  exact propext ensures_iff

theorem ensures_get {post : View State → View State → Prop} :
    Ensures (get : Meaning State (View State)) post = fun view => post view view := by
  funext view
  exact propext ensures_iff

theorem ensures_ite {test : Prop} [Decidable test] {first second : Meaning State Value} :
    Ensures (if test then first else second) post =
      if test then Ensures first post else Ensures second post :=
  apply_ite (Ensures · post) test first second

theorem ensures_pop {post : Nat → View State → Prop} :
    Ensures Meaning.pop post = popping post := by
  funext view
  rw [ensures_iff, Meaning.pop, popping]
  cases view.stack with
  | nil => simp
  | cons top rest => simp

theorem ensures_push {n : Nat} {post : Unit → View State → Prop} :
    Ensures (Meaning.push n) post = pushing n (post ()) := by
  funext view
  rw [ensures_iff, Meaning.push, pushing]
  by_cases hHeight : view.stack.length < 1024
  · simp [hHeight]
  · simp [hHeight]

theorem ensures_host {action : StateM (HostWorld State) Value} :
    Ensures (Meaning.host action) post = hosting action post := by
  funext view
  exact propext ensures_iff

theorem ensures_claim {offset length : Nat} {post : Bool → View State → Prop} :
    Ensures (Meaning.claim offset length) post = claiming offset length post := by
  funext view
  rw [ensures_iff, Meaning.claim, View.claim, claiming]
  by_cases hRefused : 1024 < (offset + length) % 4294967296
  · simp [hRefused]
  · simp [hRefused]

theorem ensures_load {offset length : Nat} {post : List UInt8 → View State → Prop} :
    Ensures (Meaning.load offset length) post = loading offset length post := by
  funext view
  rw [ensures_iff, Meaning.load, loading]
  by_cases hBound : offset + length ≤ 1024
  · simp [hBound]
  · simp [hBound]

theorem ensures_store {offset : Nat} {bytes : List UInt8} {post : Bool → View State → Prop} :
    Ensures (Meaning.store offset bytes) post = storing offset bytes post := by
  funext view
  rw [ensures_iff, Meaning.store, View.claim, storing, claiming]
  by_cases hRefused : 1024 < (offset + bytes.length) % 4294967296
  · simp [hRefused]
  · by_cases hBound : offset + bytes.length ≤ 1024
    · simp [hRefused, hBound]
    · simp [hRefused, hBound]

theorem ensures_finish {env : Environment State} {statusCode : StatusCode} {offset length : Nat}
    {post : Ending → View State → Prop} :
    Ensures (Meaning.finish env statusCode offset length) post =
      finishing env statusCode offset length post := by
  unfold Meaning.finish finishing
  simp only [ensures_ite, ensures_bind, ensures_load, ensures_pure]

theorem ensures_call {env : Environment State} {after : View State → Prop}
    {ended : Ending → View State → Prop} :
    Ensures (Meaning.call env) (reaching after ended) = before env after ended .call := by
  unfold Meaning.call before answering
  simp only [ensures_bind, ensures_pop, ensures_claim, ensures_ite, ensures_load, ensures_host,
    ensures_push, ensures_get, ensures_store, ensures_pure]
  rfl

end Equations

theorem before_eq (env : Environment State) (instruction : Instruction)
    (after : View State → Prop) (ended : Ending → View State → Prop) :
    before env after ended instruction =
      Ensures (Meaning.perform env instruction) (reaching after ended) := by
  cases instruction with
  | call => exact ensures_call.symm
  | stop => exact ensures_pure.symm
  | undefined => exact ensures_pure.symm
  | cutOff => exact ensures_throw.symm
  | output statusCode =>
      unfold Meaning.perform before
      simp only [ensures_bind, ensures_pop, ensures_claim, ensures_ite, ensures_finish,
        ensures_pure]
      rfl
  | _ =>
      unfold Meaning.perform before
      simp only [ensures_bind, ensures_pop, ensures_push, ensures_host, ensures_get, ensures_store,
        ensures_ite, ensures_pure]
      rfl

/-- The rules of bytecode. -/
def rules (env : Environment State) : Rules (Meaning.perform env) where
  before instruction after ended := before env after ended instruction
  correct instruction after ended state := by rw [before_eq]; exact Iff.rfl

/-- Each instruction takes a unit of gas. -/
def gasRules (env : Environment State) :
    Rules (metered ({ statusCode := .outOfGas } : Ending) (Meaning.perform env)) :=
  (rules env).metered { statusCode := .outOfGas }

/-! ### Triples and runs -/

/-- What a run gives for what its instructions leave. -/
def outcome (env : Environment State) (left : Option Ending × (Nat × View State)) :
    ExecutionResult × HostWorld State :=
  ((left.1.getD { statusCode := .success }).report env (Int64.ofNat left.2.1), left.2.2.world)

/-- The meaning of a code is that of its instructions, where each takes a unit of gas. -/
theorem Meaning.run_eq (env : Environment State) (instructions : List Instruction) (gas : Nat)
    (view : View State) :
    Meaning.run env instructions gas view =
      (performAll (metered { statusCode := .outOfGas } (Meaning.perform env)) instructions
        (gas, view)).map (outcome env) := by
  induction instructions generalizing gas view with
  | nil => rfl
  | cons instruction rest ih =>
      cases gas with
      | zero => rfl
      | succ gas =>
          rw [run, performAll]
          cases hPerform : perform env instruction view with
          | error fault =>
              have hMetered : metered { statusCode := .outOfGas } (perform env) instruction
                  (gas + 1, view) = .error fault := by rw [metered, hPerform]
              rw [Returns.run_bind_error hMetered]
              rfl
          | ok answer =>
              obtain ⟨ending, next⟩ := answer
              have hMetered : metered { statusCode := .outOfGas } (perform env) instruction
                  (gas + 1, view) = .ok (ending, (gas, next)) := by rw [metered, hPerform]
              rw [Returns.run_bind hMetered]
              cases ending with
              | none => exact ih gas next
              | some ending => rfl

/-- The gas and the view at the start of a run. -/
def Starts (gas : Nat) (pre : HostWorld State → Prop) (state : Nat × View State) : Prop :=
  state.1 = gas ∧ ∃ world, pre world ∧ state.2 = { world }

/-- What is wanted of a run, for what its instructions leave. -/
def Wanted (env : Environment State) (post : ExecutionResult → HostWorld State → Prop)
    (ending : Ending) (state : Nat × View State) : Prop :=
  post (ending.report env (Int64.ofNat state.1)) state.2.world

theorem reaching_wanted {env : Environment State}
    {post : ExecutionResult → HostWorld State → Prop} (ending : Option Ending)
    (state : Nat × View State) :
    reaching (Wanted env post { statusCode := .success }) (Wanted env post) ending state ↔
      post (outcome env (ending, state)).1 (outcome env (ending, state)).2 := by
  cases ending with
  | none => exact Iff.rfl
  | some ending => exact Iff.rfl

/-- The instructions from one world, and the run from it. -/
theorem achieves_iff_execute {env : Environment State} (hLength : env.code.length < 2 ^ 64)
    (hGas : 0 ≤ env.msg.gas) (hSupplied : Supplied env) (world : HostWorld State)
    (post : ExecutionResult → HostWorld State → Prop) :
    Achieves (metered { statusCode := .outOfGas } (Meaning.perform env))
        (· = (env.msg.gas.toInt.toNat, { world })) (decode env.code)
        (Wanted env post { statusCode := .success }) (Wanted env post) ↔
      ∃ result machine, execute env world = .ok (result, machine) ∧ post result machine.world := by
  have hMeaning := execute_meaning hLength hGas hSupplied world
  rw [Meaning.run_eq] at hMeaning
  rw [Achieves, Triple.at_iff]
  cases hRun : performAll (metered { statusCode := .outOfGas } (Meaning.perform env))
      (decode env.code) (env.msg.gas.toInt.toNat, { world }) with
  | error fault =>
      rw [hRun] at hMeaning
      constructor
      · exact fun h => absurd trivial h
      · rintro ⟨result, machine, hExecute, -⟩
        rw [hExecute] at hMeaning
        cases hMeaning
  | ok left =>
      obtain ⟨ending, state⟩ := left
      rw [hRun] at hMeaning
      cases hExecute : execute env world with
      | error fault =>
          rw [hExecute] at hMeaning
          cases hMeaning
      | ok value =>
          obtain ⟨result, machine⟩ := value
          rw [hExecute] at hMeaning
          have hSame : (result, machine.world) = outcome env (ending, state) :=
            Except.ok.inj hMeaning
          have hPost : reaching (Wanted env post { statusCode := .success }) (Wanted env post)
              ending state ↔ post result machine.world := by
            rw [reaching_wanted, ← hSame]
          refine hPost.trans ⟨fun h => ⟨result, machine, rfl, h⟩, ?_⟩
          rintro ⟨_, _, hOk, h⟩
          cases hOk
          exact h

/-- What can be derived of a code is what holds of all its runs. -/
theorem derives_iff_execute {env : Environment State} (hLength : env.code.length < 2 ^ 64)
    (hGas : 0 ≤ env.msg.gas) (hSupplied : Supplied env) (pre : HostWorld State → Prop)
    (post : ExecutionResult → HostWorld State → Prop) :
    Derives (gasRules env) (Starts env.msg.gas.toInt.toNat pre) (decode env.code)
        (Wanted env post { statusCode := .success }) (Wanted env post) ↔
      ∀ world, pre world → ∃ result machine, execute env world = .ok (result, machine) ∧
        post result machine.world := by
  rw [derives_iff]
  constructor
  · intro h world hPre
    rw [← achieves_iff_execute hLength hGas hSupplied]
    exact h.strengthen fun state hState => hState ▸ ⟨rfl, world, hPre, rfl⟩
  · rintro h ⟨gas, view⟩ ⟨rfl, world, hPre, rfl⟩
    exact (achieves_iff_execute hLength hGas hSupplied world post).mpr (h world hPre) _ rfl

/-- A push and a stop, with the gas for both. -/
theorem derives_iff_execute_stop :
    Derives (gasRules (testEnvironment 2 [0x60, 0x07, 0x00] []))
        (Starts (testEnvironment 2 [0x60, 0x07, 0x00] []).msg.gas.toInt.toNat fun _ => True)
        (decode [0x60, 0x07, 0x00])
        (Wanted (testEnvironment 2 [0x60, 0x07, 0x00] [])
          (fun result _ => result.statusCode = .success) { statusCode := .success })
        (Wanted (testEnvironment 2 [0x60, 0x07, 0x00] [])
          fun result _ => result.statusCode = .success) ↔
      ∀ world, True → ∃ result machine,
        execute (testEnvironment 2 [0x60, 0x07, 0x00] []) world = .ok (result, machine) ∧
          result.statusCode = .success :=
  derives_iff_execute (by decide) (by decide) (testEnvironment_supplied ..) (fun _ => True)
    fun result _ => result.statusCode = .success

/-- How a run ends: behind the code, at one of its instructions, or where the gas ends. -/
inductive EndsBy (env : Environment State) (asserts : Nat → View State → Prop)
    (ended : Nat → Ending → View State → Prop) (length gas : Nat) (view : View State) :
    ExecutionResult → Prop where
  | behind (hGas : length ≤ gas) (hView : asserts length view) :
      EndsBy env asserts ended length gas view
        (Ending.report env (Int64.ofNat (gas - length)) { statusCode := .success })
  | inside {index : Nat} {ending : Ending} (hGas : index < gas) (hEnded : ended index ending view) :
      EndsBy env asserts ended length gas view
        (ending.report env (Int64.ofNat (gas - index - 1)))
  | outOfGas (hGas : gas < length) (hView : asserts gas view) :
      EndsBy env asserts ended length gas view (Ending.report env 0 { statusCode := .outOfGas })

/-- Runs end as an outline of their code says. -/
theorem execute_outline {env : Environment State} {asserts : Nat → View State → Prop}
    {ended : Nat → Ending → View State → Prop} (hLength : env.code.length < 2 ^ 64)
    (hGas : 0 ≤ env.msg.gas) (hSupplied : Supplied env)
    (hOutline : Outline (rules env) asserts (decode env.code) ended) {world : HostWorld State}
    (hStart : asserts 0 { world }) :
    ∃ result machine view, execute env world = .ok (result, machine) ∧
      machine.world = view.world ∧
      EndsBy env asserts ended (decode env.code).length env.msg.gas.toInt.toNat view result := by
  let gas := env.msg.gas.toInt.toNat
  let post : ExecutionResult → HostWorld State → Prop := fun result final =>
    ∃ view : View State, final = view.world ∧
      EndsBy env asserts ended (decode env.code).length gas view result
  have hDerives : Derives (gasRules env) (Starts gas (· = world)) (decode env.code)
      (Wanted env post { statusCode := .success }) (Wanted env post) := by
    refine (hOutline.metered { statusCode := .outOfGas } gas).weaken ?_ ?_ ?_
    · rintro ⟨_, _⟩ ⟨rfl, _, rfl, rfl⟩
      exact ⟨rfl, hStart⟩
    · rintro ⟨left, view⟩ ⟨hLeft, hView⟩
      have hGasLeft : left = gas - (decode env.code).length := by omega
      subst hGasLeft
      exact ⟨view, rfl, .behind (by omega) hView⟩
    · rintro ending ⟨left, view⟩ (⟨index, hIndex, hEnded⟩ | ⟨rfl, rfl, hLess, hView⟩)
      · have hGasLeft : left = gas - index - 1 := by omega
        subst hGasLeft
        exact ⟨view, rfl, .inside (by omega) hEnded⟩
      · exact ⟨view, rfl, .outOfGas hLess hView⟩
  obtain ⟨result, machine, hExecute, view, hWorld, hEnds⟩ :=
    (derives_iff_execute hLength hGas hSupplied _ post).mp hDerives world rfl
  exact ⟨result, machine, view, hExecute, hWorld, hEnds⟩

end Qrvmc.ExampleVm
