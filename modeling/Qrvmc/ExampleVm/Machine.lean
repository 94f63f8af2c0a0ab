import Qrvmc.Types.Values

/-! What the example VM works on: a stack and a memory of fixed sizes, and the
conversions between words. The code checks no bounds of the stack, so an access
outside the array is a fault here, and so is one outside the memory. -/
namespace Qrvmc.ExampleVm

/-- What ends a run without a result. -/
inductive Fault where
  | stackBounds
  | memoryBounds
  | codeBounds
  | foreignBounds
  | signedOverflow
  | outOfFuel
  deriving DecidableEq

/-- `memcpy` into an array from an index on. Bytes that do not fit are not written. -/
def copyInto {n : Nat} (block : Vector UInt8 n) (start : Nat) (bytes : List UInt8) :
    Vector UInt8 n :=
  Vector.ofFn fun i => if start ≤ i.val then bytes.getD (i.val - start) (block.get i) else block.get i

/-- The source of a `memcpy`, `count` bytes from an index on. -/
def readFrom (fault : Fault) (bytes : List UInt8) (start count : Nat) : Except Fault (List UInt8) :=
  if start + count ≤ bytes.length then .ok ((bytes.drop start).take count) else .error fault

/-- The pointer is the index of the first empty slot. -/
structure Stack where
  items : Vector Bytes32 1024 := Vector.replicate 1024 0
  pointer : Nat := 0

def Stack.pop (stack : Stack) : Except Fault (Bytes32 × Stack) :=
  if h : 0 < stack.pointer ∧ stack.pointer - 1 < 1024 then
    .ok (stack.items[stack.pointer - 1], { stack with pointer := stack.pointer - 1 })
  else .error .stackBounds

def Stack.push (stack : Stack) (value : Bytes32) : Except Fault (Unit × Stack) :=
  if h : stack.pointer < 1024 then
    .ok ((), { items := stack.items.set stack.pointer value, pointer := stack.pointer + 1 })
  else .error .stackBounds

structure Memory where
  size : UInt32 := 0
  data : Vector UInt8 1024 := Vector.replicate 1024 0

/-- Where the region begins in the data, unless it is refused. The sum wraps. -/
def Memory.expand (memory : Memory) (offset regionSize : UInt32) : Option Nat × Memory :=
  let newSize := offset + regionSize
  if newSize > 1024 then (none, memory)
  else
    let memory := if newSize > memory.size then { memory with size := newSize } else memory
    (some offset.toNat, memory)

def Memory.store (memory : Memory) (offset : UInt32) (valueData : List UInt8) (valueSize : UInt32) :
    Except Fault (Bool × Memory) :=
  match memory.expand offset valueSize with
  | (none, memory) => .ok (false, memory)
  | (some p, memory) => do
      let bytes ← readFrom .foreignBounds valueData 0 valueSize.toNat
      if p + bytes.length ≤ 1024 then
        .ok (true, { memory with data := copyInto memory.data p bytes })
      else .error .memoryBounds

/-- `to_uint256` of a number. -/
def toUint256 (x : UInt32) : Bytes32 :=
  ⟨((((Vector.replicate 32 0).set 31 x.toUInt8).set 30 (x >>> 8).toUInt8).set 29
    (x >>> 16).toUInt8).set 28 (x >>> 24).toUInt8⟩

/-- `to_uint256` of an address. -/
def uint256OfAddress (address : Address) : Bytes32 :=
  ⟨copyInto (Vector.replicate 32 0) 12 address.bytes.toList⟩

def toUint32 (value : Bytes32) : UInt32 :=
  value.bytes[28].toUInt32 <<< 24 ||| value.bytes[29].toUInt32 <<< 16 |||
  value.bytes[30].toUInt32 <<< 8 ||| value.bytes[31].toUInt32

def toAddress (value : Bytes32) : Address :=
  ⟨copyInto (Vector.replicate 20 0) 0 (value.bytes.toList.drop 12)⟩

end Qrvmc.ExampleVm
