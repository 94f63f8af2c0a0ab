import Qrvmc.Hex.FixedSize
import Qrvmc.Semantics.Path

/-! How far the decoders write. The loop is taken apart into its iterations, so that the
bound holds after each of them, also on the way to a rejection. -/
namespace Qrvmc
open Semantics

/-- The variables of the loop of `from_hex` at the head of an iteration. -/
structure LoopState (Out : Type) where
  rest : List CChar
  hiNibble : Int32
  i : Nat
  out : Out

/-- An iteration returns, or it goes on and may have written a byte. -/
inductive Iteration (Out : Type) where
  | done (valid : Bool)
  | next (written : Option UInt8) (state : LoopState Out)

variable {Out : Type} [OutputIterator Out]

/-- One test of the loop condition and the body behind it. -/
def LoopState.iterate (state : LoopState Out) : Exec (Iteration Out) :=
  match state.rest with
  | [] => .ok (.done (state.i % 2 == 0))
  | h :: rest =>
      let v := fromHexDigit h
      if v < 0 then
        if state.i = 1 ∧ state.hiNibble = 0 ∧ h = chr 'x' then
          .ok (.next none { state with rest, i := state.i + 1 })
        else .ok (.done false)
      else if state.i % 2 = 0 then
        .ok (.next none { state with rest, hiNibble := v <<< 4, i := state.i + 1 })
      else do
        let byte := (state.hiNibble ||| v).toUInt32.toUInt8
        let out ← OutputIterator.put state.out byte
        return .next (some byte) { state with rest, i := state.i + 1, out }

/-- An iteration that goes on, with what it has written. -/
def LoopStep (state : LoopState Out) (written : Option UInt8) (next : LoopState Out) : Prop :=
  state.iterate = .ok (.next written next)

/-- The loop from an iteration on. -/
def LoopState.run (state : LoopState Out) : Exec (Bool × Out) :=
  fromHexLoop state.rest state.hiNibble state.i state.out

/-- Where `from_hex` enters the loop. -/
def LoopState.start (input : List CChar) (out : Out) : LoopState Out := ⟨input, -1, 0, out⟩

/-- The bytes written on a path. -/
def bytesOf (writes : List (Option UInt8)) : List UInt8 := writes.filterMap id

theorem LoopState.run_eq (state : LoopState Out) :
    state.run = state.iterate >>= fun iteration =>
      match iteration with
      | .done valid => .ok (valid, state.out)
      | .next _ next => next.run := by
  obtain ⟨rest, hiNibble, i, out⟩ := state
  cases rest with
  | nil => rfl
  | cons h rest =>
      simp only [LoopState.run, LoopState.iterate, fromHexLoop]
      split
      · split <;> rfl
      · split
        · rfl
        · cases OutputIterator.put out (hiNibble ||| fromHexDigit h).toUInt32.toUInt8 <;> rfl

/-- An iteration that goes on reads one character. It writes in odd places only. -/
theorem LoopStep.cases {state next : LoopState Out} {written : Option UInt8}
    (h : LoopStep state written next) :
    ∃ c, state.rest = c :: next.rest ∧ next.i = state.i + 1 ∧
      ((written = none ∧ next.out = state.out) ∨
        ∃ byte, written = some byte ∧ state.i % 2 = 1 ∧
          OutputIterator.put state.out byte = .ok next.out) := by
  obtain ⟨rest, hiNibble, i, out⟩ := state
  cases rest with
  | nil => cases h
  | cons c rest =>
      simp only [LoopStep, LoopState.iterate] at h
      split at h
      · split at h
        · cases h
          exact ⟨c, rfl, rfl, Or.inl ⟨rfl, rfl⟩⟩
        · cases h
      · split at h
        · cases h
          exact ⟨c, rfl, rfl, Or.inl ⟨rfl, rfl⟩⟩
        · cases hPut : OutputIterator.put out (hiNibble ||| fromHexDigit c).toUInt32.toUInt8 with
          | error fault =>
              rw [hPut] at h
              cases h
          | ok next =>
              rw [hPut] at h
              cases h
              exact ⟨c, rfl, rfl, Or.inr ⟨_, rfl, Nat.mod_two_ne_zero.mp ‹_›, hPut⟩⟩

/-- The loop returns what the last state on its path returns. -/
theorem LoopState.run_eq_ok_iff (state : LoopState Out) (valid : Bool) (out : Out) :
    state.run = .ok (valid, out) ↔ ∃ writes last, Path LoopStep state writes last ∧
      last.iterate = .ok (.done valid) ∧ last.out = out := by
  constructor
  · intro hRun
    generalize hLength : state.rest.length = length
    induction length generalizing state with
    | zero =>
        have hRest : state.rest = [] := List.length_eq_zero_iff.mp hLength
        have hDone : state.iterate = .ok (.done (state.i % 2 == 0)) := by
          rw [LoopState.iterate, hRest]
        rw [state.run_eq, hDone] at hRun
        cases hRun
        exact ⟨[], state, Path.nil state, hDone, rfl⟩
    | succ length ih =>
        rw [state.run_eq] at hRun
        cases hIterate : state.iterate with
        | error fault =>
            rw [hIterate] at hRun
            cases hRun
        | ok iteration =>
            rw [hIterate] at hRun
            cases iteration with
            | done valid =>
                cases hRun
                exact ⟨[], state, Path.nil state, hIterate, rfl⟩
            | next written next =>
                have hStep : LoopStep state written next := hIterate
                obtain ⟨c, hRest, _⟩ := hStep.cases
                obtain ⟨writes, last, hPath, hLast⟩ := ih next hRun (by
                  rw [hRest, List.length_cons] at hLength
                  omega)
                exact ⟨written :: writes, last, Path.cons hStep hPath, hLast⟩
  · rintro ⟨writes, last, hPath, hDone, hOut⟩
    induction hPath with
    | nil state =>
        rw [state.run_eq, hDone, ← hOut]
        rfl
    | @cons state next last written writes first rest ih =>
        have hStep : state.iterate = .ok (.next written next) := first
        rw [state.run_eq, hStep]
        exact ih hDone hOut

/-- On every path the characters read are gone from the input, and each byte written
stands for two of them. -/
theorem path_counts {state reached : LoopState Out} {writes : List (Option UInt8)}
    (h : Path LoopStep state writes reached) :
    reached.i = state.i + writes.length ∧ reached.rest = state.rest.drop writes.length ∧
      writes.length ≤ state.rest.length ∧
      (bytesOf writes).length + state.i / 2 ≤ (state.i + writes.length) / 2 := by
  induction h with
  | nil state => simp [bytesOf]
  | @cons state next reached written writes first rest ih =>
      obtain ⟨c, hRest, hIndex, hWritten⟩ := first.cases
      obtain ⟨hReached, hDrop, hLength, hBytes⟩ := ih
      rw [hIndex] at hReached hBytes
      refine ⟨by rw [hReached, List.length_cons]; omega, ?_, ?_, ?_⟩
      · rw [hDrop, hRest, List.length_cons, List.drop_succ_cons]
      · rw [hRest, List.length_cons, List.length_cons]
        omega
      · rcases hWritten with ⟨rfl, _⟩ | ⟨byte, rfl, hOdd, _⟩
        · simp only [bytesOf, List.filterMap_cons, id_eq, List.length_cons] at hBytes ⊢
          omega
        · simp only [bytesOf, List.filterMap_cons, id_eq, List.length_cons] at hBytes ⊢
          omega

/-- From the start, at most half of the characters read have been written as bytes. -/
theorem start_counts {input : List CChar} {out : Out} {state : LoopState Out}
    {writes : List (Option UInt8)} (h : Path LoopStep (.start input out) writes state) :
    state.i = writes.length ∧ state.rest = input.drop writes.length ∧
      writes.length ≤ input.length ∧ (bytesOf writes).length ≤ writes.length / 2 := by
  obtain ⟨hIndex, hRest, hLength, hBytes⟩ := path_counts h
  have hZero : (LoopState.start input out).i = 0 := rfl
  rw [hZero, Nat.zero_add] at hIndex hBytes
  exact ⟨hIndex, hRest, hLength, hBytes⟩

section Pointer

omit Out [OutputIterator Out]

variable {n : Nat}

theorem put_pointer_iff (pointer next : BytePointer n) (byte : UInt8) :
    OutputIterator.put pointer byte = .ok next ↔ ∃ h : pointer.index < n,
      next = ⟨pointer.bytes.set pointer.index byte, pointer.index + 1⟩ := by
  by_cases hIndex : pointer.index < n
  · have hPut : OutputIterator.put pointer byte =
        .ok ⟨pointer.bytes.set pointer.index byte, pointer.index + 1⟩ := dif_pos hIndex
    rw [hPut, Except.ok.injEq, eq_comm]
    exact ⟨fun h => ⟨hIndex, h⟩, fun ⟨_, h⟩ => h⟩
  · simp [OutputIterator.put, hIndex]

/-- The pointer moves by one for each byte written. -/
theorem path_index {state reached : LoopState (BytePointer n)} {writes : List (Option UInt8)}
    (h : Path LoopStep state writes reached) :
    reached.out.index = state.out.index + (bytesOf writes).length := by
  induction h with
  | nil state => rfl
  | @cons state next reached written writes first rest ih =>
      obtain ⟨c, _, _, hWritten⟩ := first.cases
      rcases hWritten with ⟨rfl, hOut⟩ | ⟨byte, rfl, _, hPut⟩
      · rw [ih, hOut]
        rfl
      · obtain ⟨_, hOut⟩ := (put_pointer_iff _ _ _).mp hPut
        rw [ih, hOut]
        simp only [bytesOf, List.filterMap_cons, id_eq, List.length_cons]
        omega

/-- Where the fixed-size decoders enter the loop, unless the text is too long. -/
def alignedStart (n : Nat) (s : List CChar) : Option (LoopState (BytePointer n)) :=
  if s.length / 2 > n then none
  else some (.start s ⟨Vector.replicate n 0, n - s.length / 2⟩)

/-- The text that is left behind the optional prefix of `from_hex<T>`. -/
def withoutPrefix (s : List CChar) : List CChar :=
  if s.length ≥ 2 ∧ s[0]? = some (chr '0') ∧ s[1]? = some (chr 'x') then s.drop 2 else s

/-- The text that is left behind the prefix of `from_prefixed_hex<T>`, if it is there. -/
def withoutCustomPrefix (s pre : List CChar) : Option (List CChar) :=
  if s ≠ [] then
    if rfind s pre 0 ≠ some 0 then none else some (s.drop pre.length)
  else some s

/-- What the decoders make of the run of the loop. -/
def decodeFrom : Option (LoopState (BytePointer n)) → Exec (Option (Vector UInt8 n))
  | none => .ok none
  | some start => do
      let (valid, r) ← start.run
      return if valid then some r.bytes else none

theorem fromHexAligned_start (s : List CChar) :
    fromHexAligned n s = decodeFrom (alignedStart n s) := by
  by_cases hLong : s.length / 2 > n
  · simp only [fromHexAligned, alignedStart, hLong, ↓reduceIte]
    rfl
  · simp only [fromHexAligned, alignedStart, hLong, ↓reduceIte]
    rfl

theorem fromHexTo_start (s : List CChar) :
    fromHexTo n s = decodeFrom (alignedStart n (withoutPrefix s)) := by
  unfold fromHexTo withoutPrefix
  split <;> exact fromHexAligned_start _

theorem fromPrefixedHex_start (s pre : List CChar) :
    fromPrefixedHex n s pre =
      decodeFrom ((withoutCustomPrefix s pre).bind fun rest => alignedStart n rest) := by
  unfold fromPrefixedHex withoutCustomPrefix
  split
  · split
    · rfl
    · exact fromHexAligned_start _
  · exact fromHexAligned_start _

/-- All writes on the paths from a state stay between an index and the end of the array,
and no iteration fails. -/
def WritesWithin (low : Nat) (start : LoopState (BytePointer n)) : Prop :=
  ∀ writes state, Path LoopStep start writes state →
    (∃ iteration, state.iterate = .ok iteration) ∧
    ∀ byte next, LoopStep state (some byte) next →
      low ≤ state.out.index ∧ state.out.index < n ∧
        next.out.bytes.toList = state.out.bytes.toList.set state.out.index byte

/-- An iteration fails only where it would write behind the array. -/
theorem iterate_ok {state : LoopState (BytePointer n)}
    (hRoom : ∀ c rest, state.rest = c :: rest → state.i % 2 = 1 → state.out.index < n) :
    ∃ iteration, state.iterate = .ok iteration := by
  obtain ⟨rest, hiNibble, i, out⟩ := state
  cases rest with
  | nil => exact ⟨_, rfl⟩
  | cons c rest =>
      simp only [LoopState.iterate]
      split
      · split <;> exact ⟨_, rfl⟩
      · split
        · exact ⟨_, rfl⟩
        · rename_i hOdd
          have hIndex := hRoom c rest rfl (Nat.mod_two_ne_zero.mp hOdd)
          rw [(put_pointer_iff out _ _).mpr ⟨hIndex, rfl⟩]
          exact ⟨_, rfl⟩

/-- The offset leaves room for half of the text, which is as much as the loop writes. -/
theorem alignedStart_writes {s : List CChar} {start : LoopState (BytePointer n)}
    (h : alignedStart n s = some start) :
    start.rest = s ∧ start.out.index + s.length / 2 = n ∧
      WritesWithin (n - s.length / 2) start := by
  unfold alignedStart at h
  split at h
  · cases h
  · rename_i hFits
    obtain rfl := (Option.some.inj h).symm
    refine ⟨rfl, Nat.sub_add_cancel (Nat.not_lt.mp hFits), ?_⟩
    intro writes state hPath
    obtain ⟨hIndex, hRest, hLength, hBytes⟩ := start_counts hPath
    have hPointer : state.out.index = n - s.length / 2 + (bytesOf writes).length :=
      path_index hPath
    have hRoom : ∀ c rest, state.rest = c :: rest → state.i % 2 = 1 → state.out.index < n := by
      intro c rest hMore hOdd
      have hLeft := congrArg List.length (hRest.symm.trans hMore)
      rw [List.length_drop, List.length_cons] at hLeft
      omega
    refine ⟨iterate_ok hRoom, ?_⟩
    intro byte next hStep
    obtain ⟨c, hMore, _, hWritten⟩ := hStep.cases
    rcases hWritten with ⟨hNone, _⟩ | ⟨_, hSome, hOdd, hPut⟩
    · cases hNone
    · cases hSome
      obtain ⟨hInside, hOut⟩ := (put_pointer_iff _ _ _).mp hPut
      refine ⟨by omega, hInside, ?_⟩
      rw [hOut, Vector.toList_set]

/-- The offset does not underflow, and every write is at the offset or behind it. -/
def PlacedWithin (n : Nat) (s : List CChar) : Prop :=
  ∀ start, alignedStart n s = some start →
    start.out.index + s.length / 2 = n ∧ WritesWithin (n - s.length / 2) start

end Pointer

/-- The loop returns at the end of a path of iterations. After every iteration on any
input, at most half as many bytes are written as characters read. So each decoder into an
array of `n` bytes writes behind an offset that is no underflow, and inside the array. -/
theorem decoder_writes :
    (∀ (Out : Type) [OutputIterator Out] (input : List CChar) (out : Out),
      (∀ valid final, fromHexIter input out = .ok (valid, final) ↔
        ∃ writes last, Path LoopStep (.start input out) writes last ∧
          last.iterate = .ok (.done valid) ∧ last.out = final) ∧
      ∀ writes state, Path LoopStep (.start input out) writes state →
        state.rest = input.drop writes.length ∧ writes.length ≤ input.length ∧
          (bytesOf writes).length ≤ writes.length / 2) ∧
    ∀ (n : Nat) (s pre : List CChar),
      (fromHexTo n s = decodeFrom (alignedStart n (withoutPrefix s)) ∧
        PlacedWithin n (withoutPrefix s)) ∧
      fromPrefixedHex n s pre =
        decodeFrom ((withoutCustomPrefix s pre).bind fun rest => alignedStart n rest) ∧
      ∀ rest, withoutCustomPrefix s pre = some rest → PlacedWithin n rest := by
  have hPlaced (n : Nat) (s : List CChar) : PlacedWithin n s :=
    fun _ hStart => (alignedStart_writes hStart).2
  constructor
  · intro Out _ input out
    constructor
    · intro valid final
      exact (LoopState.start input out).run_eq_ok_iff valid final
    · intro writes state hPath
      exact (start_counts hPath).2
  · intro n s pre
    exact ⟨⟨fromHexTo_start s, hPlaced n _⟩, fromPrefixedHex_start s pre,
      fun rest _ => hPlaced n rest⟩

end Qrvmc
