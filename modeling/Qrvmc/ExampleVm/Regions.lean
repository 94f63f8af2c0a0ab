import Qrvmc.ExampleVm.Machine

/-! Regions of the memory of the example VM. The end of a region is a sum of 32 bits.
Where that sum wraps to one that the memory has room for, the region is taken for one
inside the memory, although it begins beyond it. All other regions are told right. -/
namespace Qrvmc.ExampleVm

/-- The end of the region, computed without wrap-around. -/
def regionEnd (offset regionSize : UInt32) : Nat := offset.toNat + regionSize.toNat

/-- The end of the region wraps around to one inside the memory. -/
def Wraps (offset regionSize : UInt32) : Prop :=
  2 ^ 32 ≤ regionEnd offset regionSize ∧ regionEnd offset regionSize ≤ 2 ^ 32 + 1024

instance (offset regionSize : UInt32) : Decidable (Wraps offset regionSize) :=
  inferInstanceAs (Decidable (_ ∧ _))

/-- The code refuses the regions whose wrapped end is beyond the memory. -/
theorem newSize_gt_iff (offset regionSize : UInt32) :
    offset + regionSize > 1024 ↔
      1024 < regionEnd offset regionSize ∧ ¬Wraps offset regionSize := by
  have hOffset := offset.toNat_lt
  have hSize := regionSize.toNat_lt
  rw [gt_iff_lt, UInt32.lt_iff_toNat_lt, UInt32.toNat_add, Wraps, regionEnd]
  change 1024 < _ ↔ _
  omega

theorem Memory.expand_eq (memory : Memory) (offset regionSize : UInt32) :
    memory.expand offset regionSize =
      if offset + regionSize > 1024 then (none, memory)
      else (some offset.toNat,
        if offset + regionSize > memory.size then { memory with size := offset + regionSize }
        else memory) := rfl

/-- The region that is returned does not depend on what the memory holds. -/
theorem Memory.expand_fst (memory : Memory) (offset regionSize : UInt32) :
    (memory.expand offset regionSize).1 =
      if offset + regionSize > 1024 then none else some offset.toNat := by
  rw [Memory.expand_eq]
  split <;> rfl

/-- A region that does not wrap around is inside the memory if it is returned. -/
theorem inside_of_not_wraps {offset regionSize : UInt32} (hWraps : ¬Wraps offset regionSize)
    (hReturned : ¬offset + regionSize > 1024) : regionEnd offset regionSize ≤ 1024 := by
  rw [newSize_gt_iff] at hReturned
  by_contra hBeyond
  exact hReturned ⟨Nat.not_le.mp hBeyond, hWraps⟩

/-- What a call of `expand` should do: it returns the region exactly if the memory has
room for it, and else changes nothing. The size does not decrease and stays bounded. -/
structure Memory.ExpandsWell (memory : Memory) (offset regionSize : UInt32) : Prop where
  returned : (memory.expand offset regionSize).1.isSome ↔ regionEnd offset regionSize ≤ 1024
  refused : (memory.expand offset regionSize).1 = none →
    (memory.expand offset regionSize).2 = memory
  grows : memory.size ≤ (memory.expand offset regionSize).2.size
  bounded : (memory.expand offset regionSize).2.size ≤ 1024
  inside : ∀ pointer, (memory.expand offset regionSize).1 = some pointer →
    pointer + regionSize.toNat ≤ 1024

/-- The size is bounded and does not decrease, also where the end wraps around. -/
theorem Memory.expand_size {memory : Memory} (hSize : memory.size ≤ 1024)
    (offset regionSize : UInt32) :
    memory.size ≤ (memory.expand offset regionSize).2.size ∧
      (memory.expand offset regionSize).2.size ≤ 1024 := by
  rw [Memory.expand_eq]
  by_cases hRefused : offset + regionSize > 1024
  · rw [if_pos hRefused]
    exact ⟨UInt32.le_refl _, hSize⟩
  · rw [if_neg hRefused]
    by_cases hGrows : offset + regionSize > memory.size
    · simp only [if_pos hGrows]
      exact ⟨UInt32.le_of_lt hGrows, UInt32.not_lt.mp hRefused⟩
    · simp only [if_neg hGrows]
      exact ⟨UInt32.le_refl _, hSize⟩

/-- It does so exactly where the end of the region does not wrap around into the
memory. -/
theorem Memory.expandsWell_iff {memory : Memory} (hSize : memory.size ≤ 1024)
    (offset regionSize : UInt32) :
    memory.ExpandsWell offset regionSize ↔ ¬Wraps offset regionSize := by
  have hNewSize := newSize_gt_iff offset regionSize
  constructor
  · intro hWell hWraps
    have hReturned : ¬offset + regionSize > 1024 := fun h => (hNewSize.mp h).2 hWraps
    have hSome : (memory.expand offset regionSize).1.isSome := by
      rw [Memory.expand_fst, if_neg hReturned]
      rfl
    have hEnd := hWell.returned.mp hSome
    have hBeyond := hWraps.1
    omega
  · intro hWraps
    by_cases hRefused : offset + regionSize > 1024
    · have hExpand : memory.expand offset regionSize = (none, memory) := if_pos hRefused
      have hEnd := (hNewSize.mp hRefused).1
      constructor
      · rw [hExpand]
        simp only [Option.isSome_none, Bool.false_eq_true, false_iff]
        omega
      · intro _
        rw [hExpand]
      · exact (Memory.expand_size hSize offset regionSize).1
      · exact (Memory.expand_size hSize offset regionSize).2
      · intro pointer hPointer
        rw [hExpand] at hPointer
        cases hPointer
    · have hEnd := inside_of_not_wraps hWraps hRefused
      have hFst : (memory.expand offset regionSize).1 = some offset.toNat := by
        rw [Memory.expand_fst, if_neg hRefused]
      constructor
      · rw [hFst]
        simp [hEnd]
      · intro hNone
        cases hFst.symm.trans hNone
      · exact (Memory.expand_size hSize offset regionSize).1
      · exact (Memory.expand_size hSize offset regionSize).2
      · intro pointer hPointer
        obtain rfl := Option.some.inj (hFst.symm.trans hPointer)
        exact hEnd

/-- A call of one of the two methods. -/
inductive MemoryOp where
  | expand (offset regionSize : UInt32)
  | store (offset : UInt32) (valueData : List UInt8) (valueSize : UInt32)

inductive MemoryAnswer where
  | region (pointer : Option Nat)
  | stored (success : Bool)

namespace MemoryOp

def perform : MemoryOp → StateT Memory (Except Fault) MemoryAnswer
  | .expand offset regionSize => fun memory =>
      .ok (.region (memory.expand offset regionSize).1, (memory.expand offset regionSize).2)
  | .store offset valueData valueSize => fun memory =>
      (memory.store offset valueData valueSize).map fun outcome => (.stored outcome.1, outcome.2)

def offset : MemoryOp → UInt32
  | .expand offset _ => offset
  | .store offset _ _ => offset

def regionSize : MemoryOp → UInt32
  | .expand _ regionSize => regionSize
  | .store _ _ valueSize => valueSize

/-- A value that is stored has as many bytes as its size tells. -/
def Supplied : MemoryOp → Prop
  | .expand _ _ => True
  | .store _ valueData valueSize => valueSize.toNat ≤ valueData.length

end MemoryOp

theorem Memory.expand_data (memory : Memory) (offset regionSize : UInt32) :
    (memory.expand offset regionSize).2.data = memory.data := by
  rw [Memory.expand_eq]
  by_cases hRefused : offset + regionSize > 1024
  · rw [if_pos hRefused]
  · rw [if_neg hRefused]
    by_cases hGrows : offset + regionSize > memory.size
    · simp only [if_pos hGrows]
    · simp only [if_neg hGrows]

/-- A store expands the memory and writes the value from the start of the region on. -/
theorem Memory.store_eq (memory : Memory) (offset valueSize : UInt32) {valueData : List UInt8}
    (hSupplied : valueSize.toNat ≤ valueData.length) :
    memory.store offset valueData valueSize =
      match (memory.expand offset valueSize).1 with
      | none => .ok (false, (memory.expand offset valueSize).2)
      | some p =>
          if p + valueSize.toNat ≤ 1024 then
            .ok (true, { (memory.expand offset valueSize).2 with
              data := copyInto memory.data p (valueData.take valueSize.toNat) })
          else .error .memoryBounds := by
  have hData := memory.expand_data offset valueSize
  have hLength : ((valueData.drop 0).take valueSize.toNat).length = valueSize.toNat := by
    rw [List.drop_zero, List.length_take]
    omega
  unfold Memory.store
  generalize memory.expand offset valueSize = expanded at hData ⊢
  obtain ⟨pointer, expanded⟩ := expanded
  cases pointer with
  | none => rfl
  | some p =>
      simp only [readFrom, Nat.zero_add, if_pos hSupplied, bind, Except.bind, hLength]
      simp only at hData
      rw [hData, List.drop_zero]

theorem MemoryOp.perform_size {op : MemoryOp} {memory next : Memory} {answer : MemoryAnswer}
    (hSize : memory.size ≤ 1024) (hSupplied : op.Supplied)
    (h : op.perform memory = .ok (answer, next)) : memory.size ≤ next.size ∧ next.size ≤ 1024 := by
  cases op with
  | expand offset regionSize =>
      cases h
      exact Memory.expand_size hSize offset regionSize
  | store offset valueData valueSize =>
      have hExpand := Memory.expand_size hSize offset valueSize
      simp only [MemoryOp.perform, memory.store_eq offset valueSize hSupplied] at h
      cases hFst : (memory.expand offset valueSize).1 with
      | none =>
          rw [hFst] at h
          cases h
          exact hExpand
      | some p =>
          rw [hFst] at h
          by_cases hInside : p + valueSize.toNat ≤ 1024
          · simp only [if_pos hInside] at h
            cases h
            exact hExpand
          · simp only [if_neg hInside] at h
            cases h

/-- A call that does what it should in a memory: it expands well, and it writes no byte
outside the buffer. -/
def MemoryOp.Bounded (op : MemoryOp) (memory : Memory) : Prop :=
  memory.ExpandsWell op.offset op.regionSize ∧ op.perform memory ≠ .error .memoryBounds

/-- A call whose region does not wrap around comes back. -/
theorem MemoryOp.perform_ok {op : MemoryOp} {memory : Memory} (hSize : memory.size ≤ 1024)
    (hSupplied : op.Supplied) (hWraps : ¬Wraps op.offset op.regionSize) :
    ∃ answer next, op.perform memory = .ok (answer, next) := by
  have hWell := (Memory.expandsWell_iff hSize op.offset op.regionSize).mpr hWraps
  cases op with
  | expand offset regionSize => exact ⟨_, _, rfl⟩
  | store offset valueData valueSize =>
      simp only [MemoryOp.perform, memory.store_eq offset valueSize hSupplied]
      cases hFst : (memory.expand offset valueSize).1 with
      | none => exact ⟨_, _, rfl⟩
      | some p =>
          have hInside : p + valueSize.toNat ≤ 1024 := hWell.inside p hFst
          simp only [if_pos hInside]
          exact ⟨_, _, rfl⟩

theorem MemoryOp.bounded_iff {op : MemoryOp} {memory : Memory} (hSize : memory.size ≤ 1024)
    (hSupplied : op.Supplied) : op.Bounded memory ↔ ¬Wraps op.offset op.regionSize := by
  have hExpands := Memory.expandsWell_iff hSize op.offset op.regionSize
  constructor
  · intro hBounded
    exact hExpands.mp hBounded.1
  · intro hWraps
    obtain ⟨answer, next, hPerform⟩ := MemoryOp.perform_ok hSize hSupplied hWraps
    refine ⟨hExpands.mpr hWraps, ?_⟩
    intro hFault
    cases hFault.symm.trans hPerform

/-- All calls of a run do what they should, each in the memory that the calls before it
leave. -/
def BoundedRun : Memory → List MemoryOp → Prop
  | _, [] => True
  | memory, op :: rest =>
      op.Bounded memory ∧ ∃ answer next, op.perform memory = .ok (answer, next) ∧
        memory.size ≤ next.size ∧ next.size ≤ 1024 ∧ BoundedRun next rest

theorem boundedRun_iff {ops : List MemoryOp} {memory : Memory} (hSize : memory.size ≤ 1024)
    (hSupplied : ∀ op ∈ ops, op.Supplied) :
    BoundedRun memory ops ↔ ∀ op ∈ ops, ¬Wraps op.offset op.regionSize := by
  induction ops generalizing memory with
  | nil => simp [BoundedRun]
  | cons op rest ih =>
      rw [List.forall_mem_cons] at hSupplied ⊢
      obtain ⟨hFirst, hRest⟩ := hSupplied
      have hBounded := MemoryOp.bounded_iff hSize hFirst
      constructor
      · intro hRun
        obtain ⟨hOp, answer, next, hPerform, _, hNext, hLater⟩ := hRun
        exact ⟨hBounded.mp hOp, (ih hNext hRest).mp hLater⟩
      · intro hWraps
        obtain ⟨hOp, hLater⟩ := hWraps
        obtain ⟨answer, next, hPerform⟩ := MemoryOp.perform_ok hSize hFirst hOp
        obtain ⟨hGrows, hNext⟩ := MemoryOp.perform_size hSize hFirst hPerform
        exact ⟨hBounded.mpr hOp, answer, next, hPerform, hGrows, hNext, (ih hNext hRest).mpr hLater⟩

end Qrvmc.ExampleVm
