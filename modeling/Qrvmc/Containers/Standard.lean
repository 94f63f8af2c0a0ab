import Mathlib.Data.List.Basic
import Mathlib.Logic.Function.Basic
import Mathlib.Tactic.SplitIfs

/-! A map from keys to values as an associative container presents it: lookups
that find an entry or nothing, and access by `map[key]`, which creates a default
entry first. Buckets and hashes are not represented; keys are told apart by the
equality that the container is given. -/
namespace Containers
universe u v
variable {Key : Type u} {Value : Type v}

def UnorderedMap (Key : Type u) (Value : Type v) := Key → Option Value

namespace UnorderedMap

instance : Inhabited (UnorderedMap Key Value) := ⟨fun _ => none⟩

def find (map : UnorderedMap Key Value) (key : Key) : Option Value := map key

def count (map : UnorderedMap Key Value) (key : Key) : Nat := if (map.find key).isSome then 1 else 0

variable [DecidableEq Key] [Inhabited Value]

/-- The value behind the reference `map[key]`. -/
def entry (map : UnorderedMap Key Value) (key : Key) : Value := (map.find key).getD default

/-- The map after an assignment through the reference `map[key]`. -/
def assign (map : UnorderedMap Key Value) (key : Key) (value : Value) : UnorderedMap Key Value :=
  Function.update map key (some value)

omit [DecidableEq Key] [Inhabited Value] in
@[simp] theorem find_default (key : Key) :
    (default : UnorderedMap Key Value).find key = none := rfl

omit [Inhabited Value] in
@[simp] theorem find_assign_self (map : UnorderedMap Key Value) (key : Key) (value : Value) :
    (map.assign key value).find key = some value := Function.update_self ..

omit [Inhabited Value] in
theorem find_assign_of_ne (map : UnorderedMap Key Value) {key other : Key} (value : Value)
    (h : other ≠ key) : (map.assign key value).find other = map.find other :=
  Function.update_of_ne h ..

@[simp] theorem entry_assign_self (map : UnorderedMap Key Value) (key : Key) (value : Value) :
    (map.assign key value).entry key = value := by
  rw [entry, find_assign_self, Option.getD_some]

theorem entry_assign_of_ne (map : UnorderedMap Key Value) {key other : Key} (value : Value)
    (h : other ≠ key) : (map.assign key value).entry other = map.entry other := by
  rw [entry, find_assign_of_ne map value h, entry]

/-- Lookups by key agree where an entry that is missing counts as a default one. -/
theorem entry_assign (map : UnorderedMap Key Value) (key other : Key) (value : Value) :
    (map.assign key value).entry other = if other = key then value else map.entry other := by
  split_ifs with h
  · rw [h, entry_assign_self]
  · exact entry_assign_of_ne map value h

end UnorderedMap
end Containers

/-! A growing array with its capacity. Appending beyond the capacity moves all
elements to new storage, so a pointer to an element is good only for the storage
it was taken from. The count of moves tells the storages apart. -/
namespace Containers
universe u
variable {Element : Type u}

structure Sequence (Element : Type u) where
  items : List Element := []
  capacity : Nat := 0
  moves : Nat := 0

namespace Sequence

/-- Make room for `count` elements. Less room than there is changes nothing. -/
def reserve (s : Sequence Element) (count : Nat) : Sequence Element :=
  if s.capacity < count then { s with capacity := count, moves := s.moves + 1 } else s

/-- Append an element. Full storage is replaced by storage of twice its capacity. -/
def emplaceBack (s : Sequence Element) (element : Element) : Sequence Element :=
  if s.items.length < s.capacity then { s with items := s.items ++ [element] }
  else
    { items := s.items ++ [element]
      capacity := max (2 * s.capacity) (s.items.length + 1)
      moves := s.moves + 1 }

@[simp] theorem reserve_items (s : Sequence Element) (count : Nat) :
    (s.reserve count).items = s.items := by
  unfold reserve
  split <;> rfl

@[simp] theorem emplaceBack_items (s : Sequence Element) (element : Element) :
    (s.emplaceBack element).items = s.items ++ [element] := by
  unfold emplaceBack
  split <;> rfl

theorem le_reserve_capacity (s : Sequence Element) (count : Nat) :
    count ≤ (s.reserve count).capacity := by
  unfold reserve
  split
  · exact Nat.le_refl _
  · exact Nat.not_lt.mp ‹_›

/-- Appending moves nothing while there is room. -/
theorem emplaceBack_of_lt {s : Sequence Element} (h : s.items.length < s.capacity)
    (element : Element) : s.emplaceBack element = { s with items := s.items ++ [element] } :=
  if_pos h

/-- The element behind a pointer that was taken from the storage after so many moves. -/
def deref (s : Sequence Element) (index moves : Nat) : Option Element :=
  if s.moves = moves then s.items[index]? else none

/-- A pointer to an element stays good while there is room. -/
theorem deref_emplaceBack {s : Sequence Element} (h : s.items.length < s.capacity)
    {index moves : Nat} {element : Element} (hDeref : s.deref index moves = some element)
    (added : Element) : (s.emplaceBack added).deref index moves = some element := by
  rw [emplaceBack_of_lt h]
  unfold deref at hDeref ⊢
  split at hDeref
  · rename_i hMoves
    obtain ⟨hIndex, _⟩ := List.getElem?_eq_some_iff.mp hDeref
    rw [if_pos hMoves, List.getElem?_append_left hIndex, hDeref]
  · cases hDeref

theorem deref_back (s : Sequence Element) (added : Element) :
    (s.emplaceBack added).deref s.items.length (s.emplaceBack added).moves = some added := by
  rw [deref, if_pos rfl, emplaceBack_items, List.getElem?_concat_length]

end Sequence
end Containers
