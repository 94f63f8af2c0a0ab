import Mathlib.Data.List.Basic

/-! Input iterators. What an iterator gives is decided by a stream that its copies
share, so an element may be read only once. A range yields a list when comparing,
reading and stepping in turn gives the elements of the list and then the end. -/
namespace Containers
universe u v w x
variable {Iter : Type u} {Stream : Type v} {Item : Type w} {Error : Type x}

/-- The operations `*it`, `++it` and `it != other`. -/
structure IteratorOps (Iter : Type u) (Stream : Type v) (Item : Type w) (Error : Type x) where
  deref : Iter → Stream → Except Error (Item × Stream)
  increment : Iter → Stream → Except Error (Iter × Stream)
  ne : Iter → Iter → Stream → Bool

/-- The range from an iterator to `stop` yields the items. Reading an item does not
move the iterator. -/
inductive Yields (ops : IteratorOps Iter Stream Item Error) (stop : Iter) :
    Iter → Stream → List Item → Prop where
  | done {it : Iter} {stream : Stream} (hStop : ops.ne it stop stream = false) :
      Yields ops stop it stream []
  | item {it next : Iter} {stream read after : Stream} {head : Item} {rest : List Item}
      (hMore : ops.ne it stop stream = true) (hRead : ops.deref it stream = .ok (head, read))
      (hStill : ops.ne it stop read = true) (hNext : ops.increment it read = .ok (next, after))
      (hRest : Yields ops stop next after rest) : Yields ops stop it stream (head :: rest)

/-- Indices into an array. The one past the last element is the end. It is not read
or stepped over. -/
def arrayOps (items : List Item) (misuse : Error) : IteratorOps Nat Unit Item Error where
  deref it stream :=
    match items[it]? with
    | some item => .ok (item, stream)
    | none => .error misuse
  increment it stream := if it < items.length then .ok (it + 1, stream) else .error misuse
  ne it other _ := it != other

theorem yields_arrayOps (before items : List Item) (misuse : Error) :
    Yields (arrayOps (before ++ items) misuse) (before ++ items).length before.length () items := by
  induction items generalizing before with
  | nil =>
      apply Yields.done
      simp [arrayOps]
  | cons head rest ih =>
      have hIndex : (before ++ [head]).length = before.length + 1 := by simp
      have hRest := ih (before ++ [head])
      rw [hIndex, List.append_assoc, List.singleton_append] at hRest
      have hMore : (arrayOps (before ++ head :: rest) misuse).ne before.length
          (before ++ head :: rest).length () = true := by
        simp [arrayOps]
      have hRead : (arrayOps (before ++ head :: rest) misuse).deref before.length () =
          .ok (head, ()) := by
        simp [arrayOps]
      have hNext : (arrayOps (before ++ head :: rest) misuse).increment before.length () =
          .ok (before.length + 1, ()) := by
        simp [arrayOps]
      exact Yields.item hMore hRead hMore hNext hRest

/-- A source that gives each element once. It is read and then stepped over. -/
structure SinglePass (Item : Type w) where
  rest : List Item
  taken : Bool := false

/-- The iterators are the end and those that follow the source. Reading an element for
a second time is misuse, and so is any use of the end. -/
def singlePassOps (misuse : Error) : IteratorOps Bool (SinglePass Item) Item Error where
  deref isEnd source :=
    match isEnd, source with
    | false, ⟨head :: rest, false⟩ => .ok (head, ⟨head :: rest, true⟩)
    | _, _ => .error misuse
  increment isEnd source :=
    match isEnd, source with
    | false, ⟨_ :: rest, _⟩ => .ok (false, ⟨rest, false⟩)
    | _, _ => .error misuse
  ne isEnd other source := (isEnd || source.rest.isEmpty) != (other || source.rest.isEmpty)

theorem yields_singlePassOps (items : List Item) (misuse : Error) :
    Yields (singlePassOps misuse) true false ⟨items, false⟩ items := by
  induction items with
  | nil => exact Yields.done rfl
  | cons head rest ih => exact Yields.item rfl rfl rfl rfl ih

end Containers

/-! Whole traversals of ranges, with the stream that they leave. A recorder around the
operations of an iterator lists its uses, each with the number of steps made before. -/
namespace Containers
universe u v
variable {Iter Stream Item : Type u} {Error : Type v}

/-- `for (; it != stop; ++it) items.push_back(*it);`, as often as the fuel allows. -/
def traverse (ops : IteratorOps Iter Stream Item Error) (outOfFuel : Error) (stop : Iter) :
    Nat → Iter → Stream → Except Error (List Item × Stream)
  | 0, _, _ => .error outOfFuel
  | fuel + 1, it, stream =>
      if ops.ne it stop stream then do
        let (item, stream) ← ops.deref it stream
        let (it, stream) ← ops.increment it stream
        let (items, stream) ← traverse ops outOfFuel stop fuel it stream
        return (item :: items, stream)
      else .ok ([], stream)

/-- The range yields the items and leaves the last stream behind. -/
inductive Exhausts (ops : IteratorOps Iter Stream Item Error) (stop : Iter) :
    Iter → Stream → List Item → Stream → Prop where
  | done {it : Iter} {stream : Stream} (hStop : ops.ne it stop stream = false) :
      Exhausts ops stop it stream [] stream
  | item {it next : Iter} {stream read after final : Stream} {head : Item} {rest : List Item}
      (hMore : ops.ne it stop stream = true) (hRead : ops.deref it stream = .ok (head, read))
      (hStill : ops.ne it stop read = true) (hNext : ops.increment it read = .ok (next, after))
      (hRest : Exhausts ops stop next after rest final) :
      Exhausts ops stop it stream (head :: rest) final

variable {ops : IteratorOps Iter Stream Item Error} {stop it : Iter} {stream final : Stream}
  {items : List Item}

theorem Exhausts.yields (h : Exhausts ops stop it stream items final) :
    Yields ops stop it stream items := by
  induction h with
  | done hStop => exact Yields.done hStop
  | item hMore hRead hStill hNext _ ih => exact Yields.item hMore hRead hStill hNext ih

theorem Yields.exhausts (h : Yields ops stop it stream items) :
    ∃ final, Exhausts ops stop it stream items final := by
  induction h with
  | @done it stream hStop => exact ⟨stream, Exhausts.done hStop⟩
  | item hMore hRead hStill hNext _ ih =>
      obtain ⟨final, hRest⟩ := ih
      exact ⟨final, Exhausts.item hMore hRead hStill hNext hRest⟩

/-- The loop ends with the items and the last stream. -/
theorem Exhausts.traverse (h : Exhausts ops stop it stream items final) (outOfFuel : Error)
    {fuel : Nat} (hFuel : items.length < fuel) :
    traverse ops outOfFuel stop fuel it stream = .ok (items, final) := by
  induction h generalizing fuel with
  | done hStop =>
      cases fuel with
      | zero => omega
      | succ fuel => rw [Containers.traverse, if_neg (by simp [hStop])]
  | item hMore hRead hStill hNext _ ih =>
      rw [List.length_cons] at hFuel
      cases fuel with
      | zero => omega
      | succ fuel =>
          rw [Containers.traverse, if_pos hMore]
          simp only [hRead, hNext, ih (Nat.lt_of_succ_lt_succ hFuel), bind, Except.bind]
          rfl

/-- A use of an iterator at a position. -/
inductive Access where
  | read (position : Nat)
  | step (position : Nat)
  deriving DecidableEq

structure Recorded (Stream : Type u) where
  stream : Stream
  position : Nat := 0
  accesses : List Access := []

/-- The operations with a record of each use. -/
def recordingOps (ops : IteratorOps Iter Stream Item Error) :
    IteratorOps Iter (Recorded Stream) Item Error where
  deref it recorded := do
    let (item, stream) ← ops.deref it recorded.stream
    return (item, { recorded with
      stream, accesses := recorded.accesses ++ [.read recorded.position] })
  increment it recorded := do
    let (it, stream) ← ops.increment it recorded.stream
    return (it, { stream, position := recorded.position + 1,
                  accesses := recorded.accesses ++ [.step recorded.position] })
  ne it other recorded := ops.ne it other recorded.stream

/-- Each position of a range is read once and then stepped over. -/
def eachOnce (first count : Nat) : List Access :=
  (List.range' first count).flatMap fun position => [.read position, .step position]

theorem eachOnce_succ (first count : Nat) :
    eachOnce first (count + 1) = .read first :: .step first :: eachOnce (first + 1) count := by
  rw [eachOnce, List.range'_succ, List.flatMap_cons]
  rfl

/-- A range that yields its items is read without repetition and not past its end. -/
theorem Yields.recorded (h : Yields ops stop it stream items) (position : Nat)
    (accesses : List Access) :
    ∃ final, Exhausts (recordingOps ops) stop it ⟨stream, position, accesses⟩ items
      ⟨final, position + items.length, accesses ++ eachOnce position items.length⟩ := by
  induction h generalizing position accesses with
  | @done it stream hStop =>
      refine ⟨stream, ?_⟩
      rw [List.length_nil, eachOnce, List.range'_zero, List.flatMap_nil, List.append_nil]
      exact Exhausts.done hStop
  | @item it next stream read after head rest hMore hRead hStill hNext _ ih =>
      obtain ⟨final, hRest⟩ := ih (position + 1)
        (accesses ++ [.read position] ++ [.step position])
      have hPosition : position + 1 + rest.length = position + (head :: rest).length := by
        rw [List.length_cons]
        omega
      have hAccesses : accesses ++ [.read position] ++ [.step position] ++
          eachOnce (position + 1) rest.length =
            accesses ++ eachOnce position (head :: rest).length := by
        rw [List.length_cons, eachOnce_succ, List.append_assoc, List.append_assoc]
        rfl
      rw [hPosition, hAccesses] at hRest
      have hReadRecorded : (recordingOps ops).deref it ⟨stream, position, accesses⟩ =
          .ok (head, ⟨read, position, accesses ++ [.read position]⟩) := by
        simp only [recordingOps, hRead]
        rfl
      have hNextRecorded : (recordingOps ops).increment it
          ⟨read, position, accesses ++ [.read position]⟩ =
            .ok (next,
              ⟨after, position + 1, accesses ++ [.read position] ++ [.step position]⟩) := by
        simp only [recordingOps, hNext]
        rfl
      exact ⟨final, Exhausts.item hMore hReadRecorded hStill hNextRecorded hRest⟩

end Containers
