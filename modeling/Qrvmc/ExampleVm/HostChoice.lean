import Qrvmc.ExampleVm.HostAgreement
import Qrvmc.Host.HostComparison
import Mathlib.Data.List.GetD

/-! What a run does not depend on. Against the mocked host, it depends on the storage of
its own account, the block number and the answer to nested calls. Code without nested
calls runs alike against the example host. Zeros at the end of the input change nothing. -/
namespace Qrvmc.ExampleVm
open Containers Semantics

section Methods

variable {First Second : Type} {methods : HostMethods First} {others : HostMethods Second}
  {env : Environment First} {other : Environment Second} {related : First → Second → Prop}
  {instructions : List Instruction}

/-- The two objects that the environments name are related. -/
def RelatedObjects (env : Environment First) (other : Environment Second)
    (related : First → Second → Prop) (first : HostWorld First) (second : HostWorld Second) : Prop :=
  related (first.objects env.context) (second.objects other.context)

/-- Related hosts answer alike what instructions ask for an account, and stay related. -/
structure MethodsAgree (methods : HostMethods First) (others : HostMethods Second)
    (recipient : Address) (related : First → Second → Prop) : Prop where
  getTxContext : ∀ first second, related first second →
    (methods.getTxContext first).1.blockNumber = (others.getTxContext second).1.blockNumber ∧
      related (methods.getTxContext first).2 (others.getTxContext second).2
  getStorage : ∀ key first second, related first second →
    (methods.getStorage recipient key first).1 = (others.getStorage recipient key second).1 ∧
      related (methods.getStorage recipient key first).2 (others.getStorage recipient key second).2
  setStorage : ∀ key value first second, related first second →
    related (methods.setStorage recipient key value first).2
      (others.setStorage recipient key value second).2

theorem relatedObjects_onHost {Value Answer : Type} {method : StateM First Value}
    {acting : StateM Second Answer} {first : HostWorld First} {second : HostWorld Second}
    (h : related (method (first.objects env.context)).2 (acting (second.objects other.context)).2) :
    RelatedObjects env other related (onHost env.context method first).2
      (onHost other.context acting second).2 := by
  change related (Function.update first.objects env.context _ env.context)
    (Function.update second.objects other.context _ other.context)
  rw [Function.update_self, Function.update_self]
  exact h

theorem hostsAgree_of_methods (hHost : env.host = getInterface methods)
    (hOther : other.host = getInterface others) (hRecipient : other.msg.recipient = env.msg.recipient)
    (hInput : ∀ offset, inputWord env offset = inputWord other offset)
    (hMalloc : env.malloc = other.malloc)
    (h : MethodsAgree methods others env.msg.recipient related)
    (hCall : Instruction.call ∈ instructions → ∀ msg input first second,
      RelatedObjects env other related first second →
      SameAnswer (env.host.call env.context msg input first).1
          (other.host.call other.context msg input second).1 ∧
        Answered env other (RelatedObjects env other related)
          (env.host.call env.context msg input first).1
          (other.host.call other.context msg input second).1
          (env.host.call env.context msg input first).2
          (other.host.call other.context msg input second).2) :
    HostsAgree env other (RelatedObjects env other related) instructions where
  recipient := hRecipient.symm
  input := hInput
  malloc := hMalloc
  getTxContext first second hRelated := by
    rw [hHost, hOther]
    obtain ⟨hNumber, hKept⟩ := h.getTxContext _ _ hRelated
    exact ⟨hNumber, relatedObjects_onHost hKept⟩
  getStorage key first second hRelated := by
    rw [hHost, hOther, hRecipient]
    obtain ⟨hValue, hKept⟩ := h.getStorage key _ _ hRelated
    exact ⟨hValue, relatedObjects_onHost hKept⟩
  setStorage key value first second hRelated := by
    rw [hHost, hOther, hRecipient]
    exact relatedObjects_onHost (h.setStorage key value _ _ hRelated)
  call := hCall

theorem destructor_objects (result : RawResult) (world : HostWorld First) :
    (result.destructor world).2.objects = world.objects := by
  unfold RawResult.destructor
  split <;> rfl

end Methods

section Mocked

variable {env : Environment MockedHost}

/-- What a run can see of the mocked host. -/
structure SameSlots (recipient : Address) (first second : MockedHost) : Prop where
  blockNumber : first.txContext.blockNumber = second.txContext.blockNumber
  callResult : first.callResult = second.callResult
  storage : ∀ key, (first.storageEntry recipient key).current =
    (second.storageEntry recipient key).current

theorem sameSlots_set {recipient : Address} {first second : MockedHost}
    (h : SameSlots recipient first second) (key value : Bytes32) :
    SameSlots recipient (first.setStorage recipient key value).1
      (second.setStorage recipient key value).1 where
  blockNumber := h.blockNumber
  callResult := h.callResult
  storage slot := by
    by_cases hSlot : slot = key
    · subst hSlot
      simp [MockedHost.setStorage]
    · have hOther : ¬(recipient = recipient ∧ slot = key) := fun hSame => hSlot hSame.2
      simp only [MockedHost.setStorage, MockedHost.storageEntry_assignStorage_of_ne _ _ hOther,
        MockedHost.recordAccountAccess_storageEntry]
      exact h.storage slot

theorem mocked_methodsAgree (recipient : Address) :
    MethodsAgree MockedHost.methods MockedHost.methods recipient (SameSlots recipient) where
  getTxContext _ _ h := ⟨h.blockNumber, h⟩
  getStorage key first second h := by
    have hValue : (first.getStorage recipient key).2 = (second.getStorage recipient key).2 := by
      rw [MockedHost.getStorage_snd, MockedHost.getStorage_snd]
      exact h.storage key
    have hKept : SameSlots recipient (first.getStorage recipient key).1
        (second.getStorage recipient key).1 := by
      rw [MockedHost.getStorage_fst, MockedHost.getStorage_fst]
      exact ⟨h.blockNumber, h.callResult, h.storage⟩
    exact ⟨hValue, hKept⟩
  setStorage key value _ _ h := sameSlots_set h key value

theorem sameSlots_call {recipient : Address} {first second : MockedHost}
    (h : SameSlots recipient first second) (msg : Message) (input : List UInt8) :
    SameSlots recipient (first.call msg input).1 (second.call msg input).1 := by
  obtain ⟨calls, inputs, hFirst⟩ := first.call_fst msg input
  obtain ⟨others, answers, hSecond⟩ := second.call_fst msg input
  rw [hFirst, hSecond]
  exact ⟨h.blockNumber, h.callResult, h.storage⟩

/-- Two mocked hosts that agree in what a run can see agree in the run. The accounts, the
original values and access statuses, and what was recorded may differ. -/
theorem execute_noninterference (hHost : env.host = getInterface MockedHost.methods)
    (hOutput : ∀ first second, env.outputData first = env.outputData second)
    (hLength : env.code.length < 2 ^ 64) (hGas : 0 ≤ env.msg.gas) (hSupplied : Supplied env)
    {first second : HostWorld MockedHost}
    (h : SameSlots env.msg.recipient (first.objects env.context) (second.objects env.context)) :
    Alike (fun first second => SameSlots env.msg.recipient (first.objects env.context)
        (second.objects env.context))
      ((execute env first).map observed) ((execute env second).map observed) := by
  apply execute_alike hLength hGas hSupplied hSupplied rfl rfl _ h
  apply hostsAgree_of_methods hHost hHost rfl (fun _ => rfl) rfl (mocked_methodsAgree _)
  intro _ msg input world following hSame
  have hCall (host : Nat) : (getInterface MockedHost.methods).call host msg input =
      onHost host (MockedHost.methods.call msg input) :=
    internal.call_eq MockedHost.methods host msg input
  rw [hHost, hCall]
  have hResult : (onHost env.context (MockedHost.methods.call msg input) world).1 =
      (onHost env.context (MockedHost.methods.call msg input) following).1 := by
    change ((world.objects env.context).call msg input).2 =
      ((following.objects env.context).call msg input).2
    rw [MockedHost.call_snd, MockedHost.call_snd]
    exact SameSlots.callResult hSame
  rw [hResult]
  refine ⟨⟨Iff.rfl, rfl⟩, congrFun (hOutput _ _) _, ?_⟩
  unfold RelatedObjects
  rw [destructor_objects, destructor_objects]
  exact relatedObjects_onHost (sameSlots_call hSame msg input)

/-- A host that differs from a new one in the nonce of an account. -/
def noncedHost (addr : Address) : MockedHost :=
  { accounts := UnorderedMap.assign default addr { nonce := 1 } }

theorem sameSlots_nonced (addr : Address) : SameSlots addr {} (noncedHost addr) where
  blockNumber := rfl
  callResult := rfl
  storage key := by
    simp only [MockedHost.storageEntry, noncedHost, UnorderedMap.entry_assign_self]
    rfl

/-- Code that loads a slot does not see the nonce of the account. -/
theorem execute_noninterference_sload :
    Alike (fun first second => SameSlots (testMessage 9 []).recipient (first.objects 0)
        (second.objects 0))
      ((execute (testEnvironment 9 [0x60, 0x01, 0x54] []) testWorld).map observed)
      ((execute (testEnvironment 9 [0x60, 0x01, 0x54] [])
        { objects := fun _ => noncedHost (testMessage 9 []).recipient }).map observed) :=
  execute_noninterference rfl (fun _ _ => rfl) (by decide) (by decide)
    (testEnvironment_supplied ..) (sameSlots_nonced _)

end Mocked

section Example

variable {env : Environment MockedHost} {other : Environment ExampleContext}
  {malloc : Nat → Option Nat}

theorem example_methodsAgree (exactly : Prop) (recipient : Address) :
    MethodsAgree MockedHost.methods (ExampleContext.methods malloc) recipient (SameHost exactly) where
  getTxContext _ _ h := ⟨congrArg TxContext.blockNumber h.txContext, h⟩
  getStorage key first second h := by
    have hValue : HostAnswer.Corresponds exactly _ _ :=
      h.answer malloc (HostOp.getStorage recipient key)
    exact ⟨hValue, h.step malloc (HostOp.getStorage recipient key) trivial⟩
  setStorage key value first second h :=
    h.step malloc (HostOp.setStorage recipient key value) trivial

/-- Code without nested calls runs against the example host as it does against the mocked
one, and leaves the same accounts. -/
theorem execute_exampleHost (hHost : env.host = getInterface MockedHost.methods)
    (hOther : other.host = getInterface (ExampleContext.methods malloc))
    (hMsg : other.msg = env.msg) (hInput : other.input = env.input) (hCode : other.code = env.code)
    (hMalloc : other.malloc = env.malloc) (hLength : env.code.length < 2 ^ 64)
    (hGas : 0 ≤ env.msg.gas) (hSupplied : Supplied env) (hOtherSupplied : Supplied other)
    (hCalls : .call ∉ decode env.code) {exactly : Prop} {first : HostWorld MockedHost}
    {second : HostWorld ExampleContext}
    (h : SameHost exactly (first.objects env.context) (second.objects other.context)) :
    Alike (fun first second =>
        SameHost exactly (first.objects env.context) (second.objects other.context))
      ((execute env first).map observed) ((execute other second).map observed) := by
  have hWord (offset : Nat) : inputWord env offset = inputWord other offset := by
    rw [inputWord, inputWord, hMsg, hInput]
  apply execute_alike hLength hGas hSupplied hOtherSupplied hCode (congrArg Message.gas hMsg) _ h
  exact hostsAgree_of_methods hHost hOther (congrArg Message.recipient hMsg) hWord hMalloc.symm
    (example_methodsAgree exactly _) fun hCall => absurd hCall hCalls

/-- The environment of the unit tests with the example host in the place of the mocked one. -/
def exampleEnvironment (gas : Int64) (code input : List UInt8) : Environment ExampleContext where
  host := getInterface (ExampleContext.methods some)
  context := 0
  msg := testMessage gas input
  input
  code
  malloc _ := some 0
  outputData _ result := List.replicate result.outputSize 0

theorem exampleEnvironment_supplied (gas : Int64) (code input : List UInt8) :
    Supplied (exampleEnvironment gas code input) where
  input := Nat.le_refl _
  output _ _ _ := (List.length_replicate ..).ge

/-- A new example host. -/
def exampleWorld : HostWorld ExampleContext where
  objects _ := exampleHostCreateContext {}

theorem execute_exampleHost_sstore :
    Alike (fun first second => SameHost True (first.objects 0) (second.objects 0))
      ((execute (testEnvironment 9 [0x60, 0x01, 0x60, 0x02, 0x55] []) testWorld).map observed)
      ((execute (exampleEnvironment 9 [0x60, 0x01, 0x60, 0x02, 0x55] []) exampleWorld).map
        observed) :=
  execute_exampleHost rfl rfl rfl rfl rfl rfl (by decide) (by decide) (testEnvironment_supplied ..)
    (exampleEnvironment_supplied ..) (by decide) (sameHost_new {})

end Example

section Padding

variable {State : Type} {env : Environment State}

/-- The message with zeros behind its input. -/
def padded (env : Environment State) (count : Nat) : Environment State :=
  { env with
    msg := { env.msg with inputSize := env.msg.inputSize + count }
    input := env.input.take env.msg.inputSize ++ List.replicate count 0 }

theorem inputWord_padded (hSupplied : Supplied env) (count offset : Nat) :
    inputWord (padded env count) offset = inputWord env offset := by
  have hLength : (env.input.take env.msg.inputSize).length = env.msg.inputSize := by
    rw [List.length_take]
    exact Nat.min_eq_left hSupplied.input
  have hAll : (padded env count).input.take (padded env count).msg.inputSize =
      env.input.take env.msg.inputSize ++ List.replicate count 0 := by
    apply List.take_of_length_le
    simp only [padded, List.length_append, List.length_replicate, hLength]
    exact Nat.le_refl _
  unfold inputWord
  rw [hAll]
  apply List.map_congr_left
  intro i _
  by_cases hInside : i < (env.input.take env.msg.inputSize).length
  · rw [List.getD_append _ _ _ _ hInside]
  · rw [List.getD_append_right _ _ _ _ (Nat.le_of_not_lt hInside),
      List.getD_eq_default _ _ (Nat.le_of_not_lt hInside)]
    by_cases hCount : i - (env.input.take env.msg.inputSize).length < count
    · rw [List.getD_replicate _ hCount]
    · exact List.getD_eq_default _ _ (by rw [List.length_replicate]; exact Nat.le_of_not_lt hCount)

theorem Alike.eq {Value : Type} {outcome answer : Except Fault (Value × HostWorld State)}
    (h : Alike Eq outcome answer) : outcome = answer := by
  cases h with
  | failed fault => rfl
  | returned value hWorld => rw [hWorld]

theorem padded_supplied (hSupplied : Supplied env) (count : Nat) : Supplied (padded env count) where
  input := by
    have hInput := hSupplied.input
    simp only [padded, List.length_append, List.length_take, List.length_replicate]
    omega
  output := hSupplied.output

theorem padded_agrees (hSupplied : Supplied env) (count : Nat) (instructions : List Instruction) :
    HostsAgree (padded env count) env Eq instructions where
  recipient := rfl
  input := inputWord_padded hSupplied count
  malloc := rfl
  getTxContext := by
    rintro world _ rfl
    exact ⟨rfl, rfl⟩
  getStorage := by
    rintro key world _ rfl
    exact ⟨rfl, rfl⟩
  setStorage := by
    rintro key value world _ rfl
    rfl
  call := by
    rintro _ msg input world _ rfl
    exact ⟨⟨Iff.rfl, rfl⟩, rfl, rfl⟩

/-- Zeros at the end of the input make no difference to a run. -/
theorem execute_padded (hLength : env.code.length < 2 ^ 64) (hGas : 0 ≤ env.msg.gas)
    (hSupplied : Supplied env) (count : Nat) (world : HostWorld State) :
    (execute (padded env count) world).map observed = (execute env world).map observed := by
  have hPadded : (padded env count).code.length < 2 ^ 64 := hLength
  have hPaddedGas : 0 ≤ (padded env count).msg.gas := hGas
  have hAlike := execute_alike hPadded hPaddedGas (padded_supplied hSupplied count) hSupplied rfl rfl
    (padded_agrees hSupplied count _) (Eq.refl world)
  exact hAlike.eq

/-- The second word of the input, which is cut off. -/
theorem execute_padded_calldataload :
    (execute (padded (testEnvironment 9 [0x60, 0x20, 0x35] (List.replicate 33 1)) 31)
        testWorld).map observed =
      (execute (testEnvironment 9 [0x60, 0x20, 0x35] (List.replicate 33 1)) testWorld).map observed :=
  execute_padded (by decide) (by decide) (testEnvironment_supplied ..) 31 testWorld

end Padding
end Qrvmc.ExampleVm
