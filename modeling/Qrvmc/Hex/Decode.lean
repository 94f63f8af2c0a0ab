import Qrvmc.Types.Basic

/-! The hexadecimal decoders of `hex.hpp`. One loop serves them all; they differ
in the output iterator they hand to it and in how they treat a prefix. -/
namespace Qrvmc

/-- `internal::from_hex_digit`. -/
def fromHexDigit (h : CChar) : Int32 :=
  if chr '0' ≤ h ∧ h ≤ chr '9' then h.toInt32 - (chr '0').toInt32
  else if chr 'a' ≤ h ∧ h ≤ chr 'f' then h.toInt32 - (chr 'a').toInt32 + 10
  else if chr 'A' ≤ h ∧ h ≤ chr 'F' then h.toInt32 - (chr 'A').toInt32 + 10
  else -1

/-- An output iterator is characterised by the effect of `*out++ = byte`. -/
class OutputIterator (Out : Type) where
  put : Out → UInt8 → Exec Out

/-- The loop of `from_hex`, over the characters between `it` and `end`. -/
def fromHexLoop {Out : Type} [OutputIterator Out] :
    List CChar → Int32 → Nat → Out → Exec (Bool × Out)
  | [], _, i, out => .ok (i % 2 == 0, out)
  | h :: rest, hiNibble, i, out =>
      let v := fromHexDigit h
      if v < 0 then
        if i = 1 ∧ hiNibble = 0 ∧ h = chr 'x' then fromHexLoop rest hiNibble (i + 1) out
        else .ok (false, out)
      else if i % 2 = 0 then fromHexLoop rest (v <<< 4) (i + 1) out
      else do
        let out ← OutputIterator.put out (hiNibble ||| v).toUInt32.toUInt8
        fromHexLoop rest hiNibble (i + 1) out

/-- `from_hex(begin, end, out)`, with the output iterator it ends at. -/
def fromHexIter {Out : Type} [OutputIterator Out] (input : List CChar) (out : Out) :
    Exec (Bool × Out) :=
  fromHexLoop input (-1) 0 out

/-- The output iterator of `validate_hex`: every write goes to one sink. -/
structure NoopOutputIterator where
  sink : UInt8 := 0

instance : OutputIterator NoopOutputIterator := ⟨fun out _ => .ok out⟩

/-- `std::back_inserter` on a byte string. -/
structure BackInserter where
  bytes : List UInt8

instance : OutputIterator BackInserter := ⟨fun out byte => .ok ⟨out.bytes ++ [byte]⟩⟩

/-- A raw pointer into an array of `n` bytes. Only the elements may be written. -/
structure BytePointer (n : Nat) where
  bytes : Vector UInt8 n
  index : Nat

instance {n : Nat} : OutputIterator (BytePointer n) where
  put out byte :=
    if h : out.index < n then .ok ⟨out.bytes.set out.index byte, out.index + 1⟩
    else .error .outOfBounds

/-- `validate_hex`. -/
def validateHex (hex : List CChar) : Exec Bool := do
  let (valid, _) ← fromHexIter hex ({} : NoopOutputIterator)
  return valid

/-- `from_hex(std::string_view)`. -/
def fromHex (hex : List CChar) : Exec (Option (List UInt8)) := do
  let (valid, bs) ← fromHexIter hex (⟨[]⟩ : BackInserter)
  return if valid then some bs.bytes else none

/-- The part shared by the fixed-size decoders once their prefix is gone: decode
into the last `s.length / 2` elements of a zeroed array. -/
def fromHexAligned (numOutBytes : Nat) (s : List CChar) : Exec (Option (Vector UInt8 numOutBytes)) :=
  let numInBytes := s.length / 2
  if numInBytes > numOutBytes then .ok none
  else do
    let (valid, r) ← fromHexIter s
      (⟨Vector.replicate numOutBytes 0, numOutBytes - numInBytes⟩ : BytePointer numOutBytes)
    return if valid then some r.bytes else none

/-- `std::string_view::rfind`: the last occurrence that starts at `pos` or before. -/
def rfind (s pattern : List CChar) (pos : Nat) : Option Nat :=
  (List.range (min pos s.length + 1)).reverse.find? fun i => pattern.isPrefixOf (s.drop i)

/-- `from_prefixed_hex<T>` for a type with an array of `numOutBytes` bytes. -/
def fromPrefixedHex (numOutBytes : Nat) (s pre : List CChar) :
    Exec (Option (Vector UInt8 numOutBytes)) :=
  if s ≠ [] then
    if rfind s pre 0 ≠ some 0 then .ok none
    else fromHexAligned numOutBytes (s.drop pre.length)
  else fromHexAligned numOutBytes s

/-- `from_hex<T>` for a type with an array of `numOutBytes` bytes. -/
def fromHexTo (numOutBytes : Nat) (s : List CChar) : Exec (Option (Vector UInt8 numOutBytes)) :=
  if s.length ≥ 2 ∧ s[0]? = some (chr '0') ∧ s[1]? = some (chr 'x') then
    fromHexAligned numOutBytes (s.drop 2)
  else fromHexAligned numOutBytes s

end Qrvmc
