import Qrvmc.Containers.Iteration
import Qrvmc.Hex.Decode

/-! The filter iterator adaptor, and the decoder that skips white space. The adaptor
reads ahead to the next element that its predicate keeps and holds on to it, so that
the base range is read once. -/
namespace Qrvmc
open Containers

/-- `isspace`. The character is extended to `unsigned` with its sign. -/
def isspace (ch : CChar) : Bool :=
  ch == chr ' ' || ch.toInt32.toUInt32 - (chr '\t').toInt32.toUInt32 < 5

def isNotSpace (ch : CChar) : Bool := !isspace ch

/-- The value is not initialised before the first element is read. -/
structure FilterIterator (Base Item : Type) where
  base : Base
  baseEnd : Base
  value : Option Item

namespace FilterIterator

variable {Base Stream Item : Type} (ops : IteratorOps Base Stream Item Undefined)
  (predicate : Item → Bool)

/-- `forward_to_next_value`, as often as the fuel allows. -/
def forwardToNextValue : Nat → FilterIterator Base Item → Stream →
    Exec (FilterIterator Base Item × Stream)
  | 0, _, _ => .error .outOfFuel
  | fuel + 1, it, stream =>
      if ops.ne it.base it.baseEnd stream then do
        let (value, stream) ← ops.deref it.base stream
        let it := { it with value := some value }
        if predicate value then return (it, stream)
        else do
          let (base, stream) ← ops.increment it.base stream
          forwardToNextValue fuel { it with base } stream
      else .ok (it, stream)

/-- `filter_iterator(BaseIterator it, BaseIterator end)`. -/
def construct (fuel : Nat) (it last : Base) (stream : Stream) :
    Exec (FilterIterator Base Item × Stream) :=
  forwardToNextValue ops predicate fuel { base := it, baseEnd := last, value := none } stream

/-- `operator*`. -/
def deref (it : FilterIterator Base Item) (stream : Stream) : Exec (Item × Stream) :=
  match it.value with
  | some value => .ok (value, stream)
  | none => .error .outOfBounds

/-- `operator++`. -/
def increment (fuel : Nat) (it : FilterIterator Base Item) (stream : Stream) :
    Exec (FilterIterator Base Item × Stream) := do
  let (base, stream) ← ops.increment it.base stream
  forwardToNextValue ops predicate fuel { it with base } stream

/-- `operator!=`. -/
def ne (it o : FilterIterator Base Item) (stream : Stream) : Bool := ops.ne it.base o.base stream

/-- The adaptor as an iterator. -/
def iteratorOps (fuel : Nat) : IteratorOps (FilterIterator Base Item) Stream Item Undefined where
  deref := deref
  increment := increment ops predicate fuel
  ne := ne ops

end FilterIterator

variable {Iter Stream Out : Type} [OutputIterator Out]

/-- The loop of `from_hex`, over an input range. -/
def fromHexRange (ops : IteratorOps Iter Stream CChar Undefined) (last : Iter) :
    Nat → Iter → Int32 → Nat → Out → Stream → Exec ((Bool × Out) × Stream)
  | 0, _, _, _, _, _ => .error .outOfFuel
  | fuel + 1, it, hiNibble, i, out, stream =>
      if ops.ne it last stream then do
        let (h, stream) ← ops.deref it stream
        let v := fromHexDigit h
        if v < 0 then
          if i = 1 ∧ hiNibble = 0 ∧ h = chr 'x' then do
            let (it, stream) ← ops.increment it stream
            fromHexRange ops last fuel it hiNibble (i + 1) out stream
          else return ((false, out), stream)
        else if i % 2 = 0 then do
          let (it, stream) ← ops.increment it stream
          fromHexRange ops last fuel it (v <<< 4) (i + 1) out stream
        else do
          let out ← OutputIterator.put out (hiNibble ||| v).toUInt32.toUInt8
          let (it, stream) ← ops.increment it stream
          fromHexRange ops last fuel it hiNibble (i + 1) out stream
      else .ok ((i % 2 == 0, out), stream)

/-- `from_spaced_hex(begin, end)`. -/
def fromSpacedHexRange (ops : IteratorOps Iter Stream CChar Undefined) (fuel : Nat)
    (first last : Iter) (stream : Stream) : Exec (Option (List UInt8) × Stream) := do
  let (first, stream) ← FilterIterator.construct ops isNotSpace fuel first last stream
  let (last, stream) ← FilterIterator.construct ops isNotSpace fuel last last stream
  let ((valid, bs), stream) ← fromHexRange (FilterIterator.iteratorOps ops isNotSpace fuel) last fuel
    first (-1) 0 (⟨[]⟩ : BackInserter) stream
  return (if valid then some bs.bytes else none, stream)

/-- `from_spaced_hex(std::string_view)`. -/
def fromSpacedHex (hex : List CChar) : Exec (Option (List UInt8)) := do
  let (decoded, _) ← fromSpacedHexRange (arrayOps hex .outOfBounds) (hex.length + 1) 0 hex.length ()
  return decoded

end Qrvmc
