import Qrvmc.Host.Steps
import Qrvmc.Semantics.Component

/-! Warmth of accounts. Nine methods record the account they are called with, and
`access_account` looks its answer up in that record. The record takes a bounded
number of entries, so an account first named later stays cold. -/
namespace Qrvmc
open Semantics

/-- The account a call names, for the methods that record one. -/
def HostCall.named : HostCall → Option Address
  | .accountExists addr => some addr
  | .getStorage addr _ => some addr
  | .setStorage addr _ _ => some addr
  | .getBalance addr => some addr
  | .getCodeSize addr => some addr
  | .getCodeHash addr => some addr
  | .copyCode addr _ _ => some addr
  | .call msg _ => some msg.recipient
  | .accessAccount addr => some addr
  | .getTxContext => none
  | .getBlockHash _ => none
  | .emitLog _ _ _ => none
  | .accessStorage _ _ => none

/-- The accounts named by the calls of a run, in order and with repetitions. -/
def namedAccounts (calls : List HostCall) : List Address := calls.filterMap HostCall.named

/-- The record of account accesses, as the list of its entries. -/
def recordStep : Step (List Address) Address Unit
  | record, addr =>
      (if record.length < MockedHost.maxRecordedAccountAccesses then record ++ [addr] else record,
        ())

theorem recordAccountAccess_items (host : MockedHost) (addr : Address) :
    (host.recordAccountAccess addr).recordedAccountAccesses.items =
      (recordStep host.recordedAccountAccesses.items addr).1 := by
  have hReserved : (if host.recordedAccountAccesses.items.isEmpty then
      host.recordedAccountAccesses.reserve MockedHost.maxRecordedAccountAccesses
      else host.recordedAccountAccesses).items = host.recordedAccountAccesses.items := by
    split <;> simp
  simp only [MockedHost.recordAccountAccess, recordStep, hReserved]
  split
  · rw [Containers.Sequence.emplaceBack_items, hReserved]
  · exact hReserved

/-- The record of accesses, as a projection of the host. -/
def recordProjection : Projection MockedHost.step recordStep where
  view host := host.recordedAccountAccesses.items
  select := HostCall.named
  frame host call hSelect := by
    cases call with
    | getTxContext => rfl
    | getBlockHash blockNumber => rfl
    | emitLog addr data topics => rfl
    | accessStorage addr key => rfl
    | _ => cases hSelect
  tracks host call addr hSelect := by
    cases call with
    | getTxContext => cases hSelect
    | getBlockHash blockNumber => cases hSelect
    | emitLog creator data topics => cases hSelect
    | accessStorage accessed key => cases hSelect
    | call msg input =>
        cases hSelect
        obtain ⟨calls, inputs, hCall⟩ := host.call_fst msg input
        simp only [MockedHost.step, Prod.map_fst, id, hCall]
        exact recordAccountAccess_items host msg.recipient
    | setStorage accessed key value =>
        cases hSelect
        exact recordAccountAccess_items host _
    | _ =>
        cases hSelect
        simp [MockedHost.step, recordAccountAccess_items]

/-- The record keeps the first entries up to its capacity. -/
theorem finish_recordStep (record addrs : List Address) :
    finish recordStep record addrs =
      record ++ addrs.take (MockedHost.maxRecordedAccountAccesses - record.length) := by
  induction addrs generalizing record with
  | nil => simp
  | cons addr rest ih =>
      rw [finish_cons, ih]
      by_cases hRoom : record.length < MockedHost.maxRecordedAccountAccesses
      · have hLeft : MockedHost.maxRecordedAccountAccesses - record.length =
            MockedHost.maxRecordedAccountAccesses - (record.length + 1) + 1 := by omega
        rw [recordStep, if_pos hRoom, hLeft, List.take_succ_cons]
        simp
      · rw [recordStep, if_neg hRoom, Nat.sub_eq_zero_of_le (Nat.not_lt.mp hRoom)]
        simp

theorem record_finish (host : MockedHost) (calls : List HostCall)
    (hEmpty : host.recordedAccountAccesses.items = []) :
    (finish MockedHost.step host calls).recordedAccountAccesses.items =
      (namedAccounts calls).take MockedHost.maxRecordedAccountAccesses := by
  have hView := recordProjection.view_finish host calls
  rw [finish_recordStep] at hView
  simp only [recordProjection, hEmpty, List.nil_append, List.length_nil, Nat.sub_zero] at hView
  exact hView

/-- The addresses between `0x…01` and `0x…09`. -/
def Address.isPrecompile (addr : Address) : Prop := 1 ≤ addr.toNat ∧ addr.toNat ≤ 9

theorem accessAccount_warm_iff (host : MockedHost) (addr : Address) :
    (host.accessAccount addr).2 = .warm ↔
      addr.isPrecompile ∨ addr ∈ host.recordedAccountAccesses.items := by
  have hFirst : (addressLiteral "Q0000000000000000000000000000000000000001").toNat = 1 := by decide
  have hLast : (addressLiteral "Q0000000000000000000000000000000000000009").toNat = 9 := by decide
  have hRange : (addr.ge (addressLiteral "Q0000000000000000000000000000000000000001") &&
      addr.le (addressLiteral "Q0000000000000000000000000000000000000009")) = true ↔
        addr.isPrecompile := by
    rw [Bool.and_eq_true, Address.ge_iff, Address.le_iff, hFirst, hLast, Address.isPrecompile]
  have hAccessed : (host.recordedAccountAccesses.items.any fun accessed => accessed.beq addr) =
      true ↔ addr ∈ host.recordedAccountAccesses.items := by
    simp [Address.beq_iff]
  cases hPrecompile : (addr.ge (addressLiteral "Q0000000000000000000000000000000000000001") &&
      addr.le (addressLiteral "Q0000000000000000000000000000000000000009")) with
  | true => simp [MockedHost.accessAccount, hPrecompile, hRange.mp hPrecompile]
  | false =>
      have hOther : ¬addr.isPrecompile := fun h => by simp [hRange.mpr h] at hPrecompile
      rw [← hAccessed]
      simp only [MockedHost.accessAccount, hPrecompile, hOther, false_or]
      cases host.recordedAccountAccesses.items.any fun accessed => accessed.beq addr <;> simp

/-- Each `access_account` of a run tells whether its account was named before. -/
def WarmthExact (host : MockedHost) (calls : List HostCall) : Prop :=
  ∀ before addr after, calls = before ++ .accessAccount addr :: after →
    (((finish MockedHost.step host before).accessAccount addr).2 = .warm ↔
      addr.isPrecompile ∨ ∃ call ∈ before, call.named = some addr)

/-- Each account that a run accesses is among the first accounts it has named, as
many as the record takes, unless it is a precompile or is named for the first time. -/
def NamedWithinRecord (calls : List HostCall) : Prop :=
  ∀ before addr after, calls = before ++ .accessAccount addr :: after →
    addr.isPrecompile ∨ addr ∉ namedAccounts before ∨
      addr ∈ (namedAccounts before).take MockedHost.maxRecordedAccountAccesses

theorem accessAccount_finish (host : MockedHost) (before : List HostCall) (addr : Address)
    (hEmpty : host.recordedAccountAccesses.items = []) :
    ((finish MockedHost.step host before).accessAccount addr).2 = .warm ↔
      addr.isPrecompile ∨
        addr ∈ (namedAccounts before).take MockedHost.maxRecordedAccountAccesses := by
  rw [accessAccount_warm_iff, record_finish host before hEmpty]

theorem mem_namedAccounts (calls : List HostCall) (addr : Address) :
    addr ∈ namedAccounts calls ↔ ∃ call ∈ calls, call.named = some addr := List.mem_filterMap

/-- The answers of a run are exact if and only if the record never lacks an
account that it is asked for. -/
theorem warmthExact_iff (host : MockedHost) (calls : List HostCall)
    (hEmpty : host.recordedAccountAccesses.items = []) :
    WarmthExact host calls ↔ NamedWithinRecord calls := by
  have hStep (before : List HostCall) (addr : Address) :
      (((finish MockedHost.step host before).accessAccount addr).2 = .warm ↔
        addr.isPrecompile ∨ ∃ call ∈ before, call.named = some addr) ↔
      addr.isPrecompile ∨ addr ∉ namedAccounts before ∨
        addr ∈ (namedAccounts before).take MockedHost.maxRecordedAccountAccesses := by
    have hTake := List.mem_of_mem_take (a := addr) (l := namedAccounts before)
      (i := MockedHost.maxRecordedAccountAccesses)
    rw [accessAccount_finish host before addr hEmpty, ← mem_namedAccounts]
    tauto
  constructor
  · intro hExact before addr after hCalls
    exact (hStep before addr).mp (hExact before addr after hCalls)
  · intro hNamed before addr after hCalls
    exact (hStep before addr).mpr (hNamed before addr after hCalls)

/-- A run with fewer calls than the record takes is exact. -/
theorem NamedWithinRecord.of_short {calls : List HostCall}
    (hShort : calls.length ≤ MockedHost.maxRecordedAccountAccesses) : NamedWithinRecord calls := by
  intro before addr after hCalls
  have hNamed : (namedAccounts before).length ≤ before.length := List.length_filterMap_le ..
  have hBefore := congrArg List.length hCalls
  rw [List.length_append, List.length_cons] at hBefore
  rw [List.take_of_length_le (by omega)]
  exact Or.inr (Classical.em _).symm

theorem warmthExact_twice : WarmthExact {} [.accessAccount 0, .accessAccount 0] :=
  (warmthExact_iff {} _ rfl).mpr (NamedWithinRecord.of_short (by decide))

theorem namedAccounts_append (first second : List HostCall) :
    namedAccounts (first ++ second) = namedAccounts first ++ namedAccounts second :=
  List.filterMap_append

/-- Once the record is full, an account it lacks is cold however often it is accessed. -/
theorem not_warmthExact_of_full (host : MockedHost) {before : List HostCall} {addr : Address}
    (hEmpty : host.recordedAccountAccesses.items = [])
    (hFull : MockedHost.maxRecordedAccountAccesses ≤ (namedAccounts before).length)
    (hLacks : addr ∉ (namedAccounts before).take MockedHost.maxRecordedAccountAccesses)
    (hOther : ¬addr.isPrecompile) :
    ¬WarmthExact host (before ++ [.accessAccount addr, .accessAccount addr]) := by
  intro hExact
  have hSecond := hExact (before ++ [.accessAccount addr]) addr [] (by simp)
  rw [accessAccount_finish host _ _ hEmpty, namedAccounts_append,
    List.take_append_of_le_length hFull] at hSecond
  have hWarm := hSecond.mpr (Or.inr ⟨.accessAccount addr, by simp, rfl⟩)
  exact hWarm.elim hOther hLacks

theorem namedAccounts_replicate (count : Nat) (call : HostCall) (addr : Address)
    (hNamed : call.named = some addr) :
    namedAccounts (List.replicate count call) = List.replicate count addr :=
  List.filterMap_replicate_of_some hNamed

/-- An account that is first named once the record is full is cold on its second
access. -/
theorem full_record_forgets :
    ¬WarmthExact {} (List.replicate 200 (.getBalance 0) ++
      [.accessAccount ⟨Vector.replicate 20 1⟩, .accessAccount ⟨Vector.replicate 20 1⟩]) := by
  have hNamed := namedAccounts_replicate 200 (.getBalance 0) 0 rfl
  apply not_warmthExact_of_full {} rfl
  · rw [hNamed, List.length_replicate]
    rfl
  · intro hRecorded
    rw [hNamed] at hRecorded
    exact absurd (List.eq_of_mem_replicate (List.mem_of_mem_take hRecorded)) (by decide)
  · exact fun hPrecompile => absurd hPrecompile.2 (by decide)

end Qrvmc
