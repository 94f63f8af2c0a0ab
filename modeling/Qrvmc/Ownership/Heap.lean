import Mathlib.Data.List.Basic
import Mathlib.Data.List.Count

/-! Objects that own a resource each, or none, and hand it on by moves. Moving copies
the contents and disowns the source. What was adopted is at any time owned by one
object or by one structure of a caller, or it was disposed of, once. -/
namespace Ownership
universe u
variable {Cell Resource : Type u}

/-- What the contents of an object own, and what is left of them after a move. -/
structure Discipline (Cell Resource : Type u) where
  owned : Cell → Option Resource
  disown : Cell → Cell
  owned_disown : ∀ cell, owned (disown cell) = none
  disown_disown : ∀ cell, disown (disown cell) = disown cell

/-- The objects and the structures of callers in the order of their creation, with
nothing where the lifetime is over, and the records of adoptions and disposals. -/
structure Heap (Cell Resource : Type u) where
  objects : List (Option Cell) := []
  raws : List (Option Cell) := []
  adopted : List Cell := []
  disposed : List Resource := []

inductive Op (Cell : Type u) where
  | adopt (cell : Cell)
  | moveConstruct (other : Nat)
  | moveAssign (this other : Nat)
  | release (this : Nat)
  | rewrap (raw : Nat)
  | destroy (this : Nat)

/-- The contents at an index, unless nothing lives there. -/
def cellAt (cells : List (Option Cell)) (index : Nat) : Option Cell := cells[index]?.join

theorem cellAt_eq_some {cells : List (Option Cell)} {index : Nat} {cell : Cell} :
    cellAt cells index = some cell ↔ cells[index]? = some (some cell) := by
  rw [cellAt, Option.join_eq_some_iff]

/-- The slot that was assigned last holds what was assigned, and so does a slot that
held the same before. -/
theorem cellAt_set_same {cells : List (Option Cell)} {this other : Nat} {old cell : Cell}
    (hThis : cellAt cells this = some old) (hOther : cellAt cells other = some cell) :
    cellAt (cells.set this (some cell)) other = some cell := by
  rw [cellAt_eq_some] at hThis hOther ⊢
  rcases eq_or_ne this other with rfl | hNe
  · obtain ⟨hIndex, _⟩ := List.getElem?_eq_some_iff.mp hThis
    exact List.getElem?_set_self hIndex
  · rw [List.getElem?_set_ne hNe, hOther]

theorem cellAt_append_left {cells : List (Option Cell)} {index : Nat} {cell : Cell}
    (h : cellAt cells index = some cell) (added : List (Option Cell)) :
    cellAt (cells ++ added) index = some cell := by
  rw [cellAt_eq_some] at h ⊢
  obtain ⟨hIndex, _⟩ := List.getElem?_eq_some_iff.mp h
  rw [List.getElem?_append_left hIndex, h]

theorem mem_of_cellAt {cells : List (Option Cell)} {index : Nat} {cell : Cell}
    (h : cellAt cells index = some cell) : some cell ∈ cells :=
  List.mem_of_getElem? (cellAt_eq_some.mp h)

section Operations

variable (d : Discipline Cell Resource)

/-- One operation. It needs a living object wherever it names one. Assignment first
disposes of what its target owns, also where the target is the source. -/
def step (heap : Heap Cell Resource) : Op Cell → Option (Heap Cell Resource)
  | .adopt cell =>
      some { heap with
        objects := heap.objects ++ [some cell]
        adopted := heap.adopted ++ [cell] }
  | .moveConstruct other => do
      let cell ← cellAt heap.objects other
      some { heap with
        objects := (heap.objects ++ [some cell]).set other (some (d.disown cell)) }
  | .moveAssign this other => do
      let old ← cellAt heap.objects this
      let cell ← cellAt heap.objects other
      some { heap with
        objects := (heap.objects.set this (some cell)).set other (some (d.disown cell))
        disposed := heap.disposed ++ (d.owned old).toList }
  | .release this => do
      let cell ← cellAt heap.objects this
      some { heap with
        objects := heap.objects.set this (some (d.disown cell))
        raws := heap.raws ++ [some cell] }
  | .rewrap raw => do
      let cell ← cellAt heap.raws raw
      some { heap with
        objects := heap.objects ++ [some cell]
        raws := heap.raws.set raw none }
  | .destroy this => do
      let cell ← cellAt heap.objects this
      some { heap with
        objects := heap.objects.set this none
        disposed := heap.disposed ++ (d.owned cell).toList }

/-- A program of operations, from the given heap. -/
def run : Heap Cell Resource → List (Op Cell) → Option (Heap Cell Resource)
  | heap, [] => some heap
  | heap, op :: rest => (step d heap op).bind fun next => run next rest

@[simp] theorem run_nil (heap : Heap Cell Resource) : run d heap [] = some heap := rfl

@[simp] theorem run_cons (heap : Heap Cell Resource) (op : Op Cell) (rest : List (Op Cell)) :
    run d heap (op :: rest) = (step d heap op).bind fun next => run d next rest := rfl

theorem run_singleton (heap : Heap Cell Resource) (op : Op Cell) :
    run d heap [op] = step d heap op := by
  rw [run_cons]
  cases step d heap op <;> rfl

theorem run_append (heap : Heap Cell Resource) (first second : List (Op Cell)) :
    run d heap (first ++ second) = (run d heap first).bind fun next => run d next second := by
  induction first generalizing heap with
  | nil => rfl
  | cons op rest ih =>
      rw [List.cons_append, run_cons, run_cons, Option.bind_assoc]
      congr 1
      funext next
      exact ih next

/-- What one operation preserves, a program preserves. -/
theorem run_invariant {invariant : Heap Cell Resource → Prop}
    (hStep : ∀ heap op next, invariant heap → step d heap op = some next → invariant next)
    {heap final : Heap Cell Resource} {ops : List (Op Cell)} (hStart : invariant heap)
    (hRun : run d heap ops = some final) : invariant final := by
  induction ops generalizing heap with
  | nil =>
      obtain rfl := Option.some.inj hRun
      exact hStart
  | cons op rest ih =>
      obtain ⟨next, hNext, hRest⟩ := Option.bind_eq_some_iff.mp hRun
      exact ih (hStep heap op next hStart hNext) hRest

/-- What an operation adopts. -/
def Op.adopts : Op Cell → List Cell
  | .adopt cell => [cell]
  | _ => []

theorem step_adopted {heap next : Heap Cell Resource} {op : Op Cell}
    (h : step d heap op = some next) : next.adopted = heap.adopted ++ op.adopts := by
  cases op with
  | adopt cell =>
      obtain rfl := Option.some.inj h
      rfl
  | moveConstruct other =>
      obtain ⟨cell, _, hNext⟩ := Option.bind_eq_some_iff.mp h
      obtain rfl := Option.some.inj hNext
      exact (List.append_nil _).symm
  | moveAssign this other =>
      obtain ⟨old, _, hRest⟩ := Option.bind_eq_some_iff.mp h
      obtain ⟨cell, _, hNext⟩ := Option.bind_eq_some_iff.mp hRest
      obtain rfl := Option.some.inj hNext
      exact (List.append_nil _).symm
  | release this | rewrap this | destroy this =>
      obtain ⟨cell, _, hNext⟩ := Option.bind_eq_some_iff.mp h
      obtain rfl := Option.some.inj hNext
      exact (List.append_nil _).symm

theorem run_adopted {heap final : Heap Cell Resource} {ops : List (Op Cell)}
    (h : run d heap ops = some final) : final.adopted = heap.adopted ++ ops.flatMap Op.adopts := by
  induction ops generalizing heap with
  | nil =>
      obtain rfl := Option.some.inj h
      exact (List.append_nil _).symm
  | cons op rest ih =>
      obtain ⟨next, hNext, hRest⟩ := Option.bind_eq_some_iff.mp h
      rw [ih hRest, step_adopted d hNext, List.flatMap_cons, List.append_assoc]

theorem step_disposed {heap next : Heap Cell Resource} {op : Op Cell}
    (h : step d heap op = some next) : heap.disposed <+: next.disposed := by
  cases op with
  | adopt cell =>
      obtain rfl := Option.some.inj h
      exact List.prefix_rfl
  | moveConstruct other | release other | rewrap other =>
      obtain ⟨cell, _, hNext⟩ := Option.bind_eq_some_iff.mp h
      obtain rfl := Option.some.inj hNext
      exact List.prefix_rfl
  | moveAssign this other =>
      obtain ⟨old, _, hRest⟩ := Option.bind_eq_some_iff.mp h
      obtain ⟨cell, _, hNext⟩ := Option.bind_eq_some_iff.mp hRest
      obtain rfl := Option.some.inj hNext
      exact List.prefix_append _ _
  | destroy this =>
      obtain ⟨cell, _, hNext⟩ := Option.bind_eq_some_iff.mp h
      obtain rfl := Option.some.inj hNext
      exact List.prefix_append _ _

end Operations

section Tally

variable [DecidableEq Resource] (d : Discipline Cell Resource)

/-- Whether a slot owns the resource, as a number. -/
def share (cell : Option Cell) (x : Resource) : Nat := if cell.bind d.owned = some x then 1 else 0

/-- How many slots own the resource. -/
def tally : List (Option Cell) → Resource → Nat
  | [], _ => 0
  | cell :: rest, x => share d cell x + tally rest x

@[simp] theorem tally_nil (x : Resource) : tally d [] x = 0 := rfl

@[simp] theorem tally_cons (cell : Option Cell) (rest : List (Option Cell)) (x : Resource) :
    tally d (cell :: rest) x = share d cell x + tally d rest x := rfl

@[simp] theorem tally_append (first second : List (Option Cell)) (x : Resource) :
    tally d (first ++ second) x = tally d first x + tally d second x := by
  induction first with
  | nil => rw [List.nil_append, tally_nil, Nat.zero_add]
  | cons cell rest ih => rw [List.cons_append, tally_cons, tally_cons, ih, Nat.add_assoc]

@[simp] theorem share_none (x : Resource) : share d none x = 0 := rfl

@[simp] theorem share_disown (cell : Cell) (x : Resource) : share d (some (d.disown cell)) x = 0 := by
  simp [share, d.owned_disown]

theorem count_owned (cell : Cell) (x : Resource) :
    (d.owned cell).toList.count x = share d (some cell) x := by
  unfold share
  cases hOwned : d.owned cell with
  | none => simp [hOwned]
  | some y => simp [hOwned, List.count_singleton]

/-- Replacing a slot moves its share. -/
theorem tally_set {cells : List (Option Cell)} {index : Nat} {old : Cell} (new : Option Cell)
    (x : Resource) (h : cellAt cells index = some old) :
    tally d (cells.set index new) x + share d (some old) x = tally d cells x + share d new x := by
  rw [cellAt_eq_some] at h
  induction cells generalizing index with
  | nil => simp at h
  | cons cell rest ih =>
      cases index with
      | zero =>
          rw [List.getElem?_cons_zero, Option.some.injEq] at h
          rw [h, List.set_cons_zero, tally_cons, tally_cons]
          omega
      | succ index =>
          rw [List.getElem?_cons_succ] at h
          have hRest := ih h
          rw [List.set_cons_succ, tally_cons, tally_cons]
          omega

/-- Where one content alone owns the resource, the slots that own it are those that
hold that content. -/
theorem tally_eq_count [BEq Cell] [LawfulBEq Cell] {x : Resource} {owner : Cell}
    (h : ∀ cell : Option Cell, cell.bind d.owned = some x ↔ cell = some owner)
    (cells : List (Option Cell)) : tally d cells x = cells.count (some owner) := by
  induction cells with
  | nil => rfl
  | cons cell rest ih =>
      have hShare : share d cell x = if (cell == some owner) = true then 1 else 0 :=
        if_congr ((h cell).trans beq_iff_eq.symm) rfl rfl
      rw [tally_cons, List.count_cons, ih, hShare, Nat.add_comm]

theorem tally_eq_zero {cells : List (Option Cell)} {x : Resource}
    (h : ∀ cell, some cell ∈ cells → d.owned cell ≠ some x) : tally d cells x = 0 := by
  induction cells with
  | nil => rfl
  | cons first rest ih =>
      have hRest := ih fun cell hMem => h cell (List.mem_cons_of_mem first hMem)
      have hFirst : share d first x = 0 := by
        cases first with
        | none => rfl
        | some cell => exact if_neg (h cell List.mem_cons_self)
      rw [tally_cons, hFirst, hRest]

end Tally

section Invariant

variable [DecidableEq Resource] (d : Discipline Cell Resource)

/-- Every adopted resource is somewhere exactly once, and everything in the heap was
adopted or is the disowned rest of something adopted. -/
structure Balanced (heap : Heap Cell Resource) : Prop where
  conserved : ∀ x, tally d heap.objects x + tally d heap.raws x + heap.disposed.count x =
    tally d (heap.adopted.map some) x
  objects : ∀ cell, some cell ∈ heap.objects →
    ∃ origin ∈ heap.adopted, cell = origin ∨ cell = d.disown origin
  raws : ∀ cell, some cell ∈ heap.raws →
    ∃ origin ∈ heap.adopted, cell = origin ∨ cell = d.disown origin

theorem balanced_empty : Balanced d {} where
  conserved _ := rfl
  objects _ h := by cases h
  raws _ h := by cases h

/-- The cells with the provenance that a balanced heap demands. -/
def Derived (adopted : List Cell) (cells : List (Option Cell)) : Prop :=
  ∀ cell, some cell ∈ cells → ∃ origin ∈ adopted, cell = origin ∨ cell = d.disown origin

variable {d}

omit [DecidableEq Resource] in
theorem Derived.at {adopted : List Cell} {cells : List (Option Cell)} (h : Derived d adopted cells)
    {index : Nat} {cell : Cell} (hCell : cellAt cells index = some cell) :
    Derived d adopted [some cell] := by
  intro c hMem
  obtain rfl : c = cell := by simpa using hMem
  exact h c (mem_of_cellAt hCell)

omit [DecidableEq Resource] in
theorem Derived.disown {adopted : List Cell} {cell : Cell} (h : Derived d adopted [some cell]) :
    Derived d adopted [some (d.disown cell)] := by
  intro c hMem
  obtain rfl : c = d.disown cell := by simpa using hMem
  obtain ⟨origin, hOrigin, rfl | rfl⟩ := h cell List.mem_cons_self
  · exact ⟨_, hOrigin, Or.inr rfl⟩
  · exact ⟨_, hOrigin, Or.inr (d.disown_disown origin)⟩

omit [DecidableEq Resource] in
theorem Derived.append {adopted : List Cell} {first second : List (Option Cell)}
    (hFirst : Derived d adopted first) (hSecond : Derived d adopted second) :
    Derived d adopted (first ++ second) := by
  intro cell hMem
  rcases List.mem_append.mp hMem with hMem | hMem
  · exact hFirst cell hMem
  · exact hSecond cell hMem

omit [DecidableEq Resource] in
theorem Derived.set {adopted : List Cell} {cells : List (Option Cell)} {new : Option Cell}
    (h : Derived d adopted cells) (hNew : Derived d adopted [new]) (index : Nat) :
    Derived d adopted (cells.set index new) := by
  intro cell hMem
  rcases List.mem_or_eq_of_mem_set hMem with hMem | rfl
  · exact h cell hMem
  · exact hNew cell List.mem_cons_self

omit [DecidableEq Resource] in
theorem Derived.nothing (adopted : List Cell) : Derived d adopted [none] := by
  intro cell hMem
  simp at hMem

omit [DecidableEq Resource] in
theorem Derived.mono {adopted : List Cell} {cells : List (Option Cell)}
    (h : Derived d adopted cells) (added : List Cell) : Derived d (adopted ++ added) cells := by
  intro cell hMem
  obtain ⟨origin, hOrigin, hCell⟩ := h cell hMem
  exact ⟨origin, List.mem_append_left added hOrigin, hCell⟩

/-- Each operation moves what it touches from one place to another. -/
theorem Balanced.step {heap next : Heap Cell Resource} {op : Op Cell} (h : Balanced d heap)
    (hStep : step d heap op = some next) : Balanced d next := by
  have hObjects : Derived d heap.adopted heap.objects := h.objects
  have hRaws : Derived d heap.adopted heap.raws := h.raws
  cases op with
  | adopt cell =>
      obtain rfl := Option.some.inj hStep
      refine ⟨fun x => ?_, (hObjects.mono _).append ?_, hRaws.mono _⟩
      · have hBefore := h.conserved x
        simp only [tally_append, tally_cons, tally_nil, List.map_append, List.map_cons, List.map_nil]
        omega
      · intro c hMem
        obtain rfl : c = cell := by simpa using hMem
        exact ⟨c, List.mem_append_right _ List.mem_cons_self, Or.inl rfl⟩
  | moveConstruct other =>
      obtain ⟨cell, hCell, hNext⟩ := Option.bind_eq_some_iff.mp hStep
      obtain rfl := Option.some.inj hNext
      have hSource := hObjects.at hCell
      refine ⟨fun x => ?_, (hObjects.append hSource).set hSource.disown other, hRaws⟩
      have hBefore := h.conserved x
      have hMoved := tally_set d (some (d.disown cell)) x (cellAt_append_left hCell [some cell])
      simp only [tally_append, tally_cons, tally_nil, share_disown] at hMoved
      simp only
      omega
  | moveAssign this other =>
      obtain ⟨old, hOld, hNext⟩ := Option.bind_eq_some_iff.mp hStep
      obtain ⟨cell, hCell, hNext⟩ := Option.bind_eq_some_iff.mp hNext
      obtain rfl := Option.some.inj hNext
      have hSource := hObjects.at hCell
      refine ⟨fun x => ?_, (hObjects.set hSource this).set hSource.disown other, hRaws⟩
      have hBefore := h.conserved x
      have hCopied := tally_set d (some cell) x hOld
      have hMoved := tally_set d (some (d.disown cell)) x (cellAt_set_same hOld hCell)
      simp only [share_disown] at hMoved
      simp only [List.count_append, count_owned]
      omega
  | release this =>
      obtain ⟨cell, hCell, hNext⟩ := Option.bind_eq_some_iff.mp hStep
      obtain rfl := Option.some.inj hNext
      have hSource := hObjects.at hCell
      refine ⟨fun x => ?_, hObjects.set hSource.disown this, hRaws.append hSource⟩
      have hBefore := h.conserved x
      have hMoved := tally_set d (some (d.disown cell)) x hCell
      simp only [share_disown] at hMoved
      simp only [tally_append, tally_cons, tally_nil]
      omega
  | rewrap raw =>
      obtain ⟨cell, hCell, hNext⟩ := Option.bind_eq_some_iff.mp hStep
      obtain rfl := Option.some.inj hNext
      refine ⟨fun x => ?_, hObjects.append (hRaws.at hCell),
        hRaws.set (Derived.nothing heap.adopted) raw⟩
      have hBefore := h.conserved x
      have hMoved := tally_set d none x hCell
      simp only [share_none] at hMoved
      simp only [tally_append, tally_cons, tally_nil]
      omega
  | destroy this =>
      obtain ⟨cell, hCell, hNext⟩ := Option.bind_eq_some_iff.mp hStep
      obtain rfl := Option.some.inj hNext
      refine ⟨fun x => ?_, hObjects.set (Derived.nothing heap.adopted) this, hRaws⟩
      have hBefore := h.conserved x
      have hMoved := tally_set d none x hCell
      simp only [share_none] at hMoved
      simp only [List.count_append, count_owned]
      omega

theorem Balanced.run {heap final : Heap Cell Resource} {ops : List (Op Cell)}
    (h : Balanced d heap) (hRun : run d heap ops = some final) : Balanced d final :=
  run_invariant d (fun _ _ _ hBalanced hStep => hBalanced.step hStep) h hRun

/-- The objects and structures of a balanced heap gain only what is adopted. -/
theorem Balanced.tally_step {heap next : Heap Cell Resource} {op : Op Cell} (h : Balanced d heap)
    (hStep : Ownership.step d heap op = some next) (x : Resource) :
    tally d next.objects x + tally d next.raws x ≤
      tally d heap.objects x + tally d heap.raws x + tally d (op.adopts.map some) x := by
  have hBefore := h.conserved x
  have hAfter := (h.step hStep).conserved x
  obtain ⟨added, hDisposed⟩ := step_disposed d hStep
  rw [step_adopted d hStep, List.map_append, tally_append, ← hDisposed, List.count_append] at hAfter
  omega

omit [DecidableEq Resource] in
/-- Contents that own something are contents as they were adopted. -/
theorem Derived.adopted_of_owned {adopted : List Cell} {cells : List (Option Cell)}
    (h : Derived d adopted cells) {cell : Cell} (hCell : some cell ∈ cells)
    (hOwned : d.owned cell ≠ none) : cell ∈ adopted := by
  obtain ⟨origin, hOrigin, rfl | rfl⟩ := h cell hCell
  · exact hOrigin
  · exact (hOwned (d.owned_disown origin)).elim

end Invariant
end Ownership

/-! Straight-line code over objects: reading, overwriting, creating and ending them,
each at an index that must be alive when it is read. Running a sequence runs its
first statement and, where that is possible, the rest. -/
namespace Ownership
variable {Cell Resource Value Next : Type}

abbrev Code (Cell Resource : Type) := StateT (Heap Cell Resource) Option

namespace Code

def load (this : Nat) : Code Cell Resource Cell :=
  fun heap => (cellAt heap.objects this).map fun cell => (cell, heap)

/-- Overwrite an object. -/
def store (this : Nat) (cell : Cell) : Code Cell Resource Unit :=
  modify fun heap => { heap with objects := heap.objects.set this (some cell) }

/-- Create an object at the next index. -/
def construct (cell : Cell) : Code Cell Resource Unit :=
  modify fun heap => { heap with objects := heap.objects ++ [some cell] }

/-- End the lifetime of an object. -/
def retire (this : Nat) : Code Cell Resource Unit :=
  modify fun heap => { heap with objects := heap.objects.set this none }

/-- Hand a structure to the caller, who keeps it at the next index. -/
def handOut (cell : Cell) : Code Cell Resource Unit :=
  modify fun heap => { heap with raws := heap.raws ++ [some cell] }

/-- Take a structure from the caller, who keeps no copy. -/
def handIn (raw : Nat) : Code Cell Resource Cell :=
  fun heap => (cellAt heap.raws raw).map fun cell =>
    (cell, { heap with raws := heap.raws.set raw none })

/-- Take note of what is adopted. -/
def record (cell : Cell) : Code Cell Resource Unit :=
  modify fun heap => { heap with adopted := heap.adopted ++ [cell] }

def dispose (x : Resource) : Code Cell Resource Unit :=
  modify fun heap => { heap with disposed := heap.disposed ++ [x] }

variable {heap : Heap Cell Resource}

theorem run_bind (code : Code Cell Resource Value) (next : Value → Code Cell Resource Next) :
    (code >>= next) heap = (code heap).bind fun outcome => next outcome.1 outcome.2 := rfl

/-- Running a sequence after a statement that succeeds. -/
theorem run_bind_of {code : Code Cell Resource Value} {value : Value}
    {reached : Heap Cell Resource} (next : Value → Code Cell Resource Next)
    (h : code heap = some (value, reached)) : (code >>= next) heap = next value reached := by
  rw [run_bind, h, Option.bind_some]

theorem load_bind (this : Nat) (next : Cell → Code Cell Resource Next) :
    (load this >>= next) heap = (cellAt heap.objects this).bind fun cell => next cell heap := by
  rw [run_bind, load]
  cases cellAt heap.objects this <;> rfl

theorem handIn_bind (raw : Nat) (next : Cell → Code Cell Resource Next) :
    (handIn raw >>= next) heap = (cellAt heap.raws raw).bind fun cell =>
      next cell { heap with raws := heap.raws.set raw none } := by
  rw [run_bind, handIn]
  cases cellAt heap.raws raw <;> rfl

theorem store_bind (this : Nat) (cell : Cell) (next : Unit → Code Cell Resource Next) :
    (store this cell >>= next) heap =
      next () { heap with objects := heap.objects.set this (some cell) } := rfl

theorem construct_bind (cell : Cell) (next : Unit → Code Cell Resource Next) :
    (construct cell >>= next) heap =
      next () { heap with objects := heap.objects ++ [some cell] } := rfl

end Code
end Ownership
