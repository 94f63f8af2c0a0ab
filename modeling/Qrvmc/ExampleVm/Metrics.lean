import Mathlib.Data.List.Basic

/-! The metrics of the instructions of the Shanghai revision: the cost of gas, the
items that must be on the stack, and by how many their number changes. The table
has one entry for each opcode, in order, also for those without an instruction. -/
namespace Qrvmc

/-- `qrvmc_instruction_metrics`. -/
structure InstructionMetrics where
  gasCost : Int16
  stackHeightRequired : Int8
  stackHeightChange : Int8
  deriving DecidableEq

namespace Metrics

def zero : Int16 := 0

def base : Int16 := 2

def veryLow : Int16 := 3

def low : Int16 := 5

def mid : Int16 := 8

def high : Int16 := 10

def undefined : Int16 := zero

def warmStorageReadCost : Int16 := 100

/-- `shanghai_metrics`, four opcodes in a row. -/
def shanghaiMetrics : List InstructionMetrics := [
  ⟨zero, 0, 0⟩, ⟨veryLow, 2, -1⟩, ⟨low, 2, -1⟩, ⟨veryLow, 2, -1⟩,
  ⟨low, 2, -1⟩, ⟨low, 2, -1⟩, ⟨low, 2, -1⟩, ⟨low, 2, -1⟩,
  ⟨mid, 3, -2⟩, ⟨mid, 3, -2⟩, ⟨high, 2, -1⟩, ⟨low, 2, -1⟩,
  ⟨undefined, 0, 0⟩, ⟨undefined, 0, 0⟩, ⟨undefined, 0, 0⟩, ⟨undefined, 0, 0⟩,
  ⟨veryLow, 2, -1⟩, ⟨veryLow, 2, -1⟩, ⟨veryLow, 2, -1⟩, ⟨veryLow, 2, -1⟩,
  ⟨veryLow, 2, -1⟩, ⟨veryLow, 1, 0⟩, ⟨veryLow, 2, -1⟩, ⟨veryLow, 2, -1⟩,
  ⟨veryLow, 2, -1⟩, ⟨veryLow, 1, 0⟩, ⟨veryLow, 2, -1⟩, ⟨veryLow, 2, -1⟩,
  ⟨veryLow, 2, -1⟩, ⟨veryLow, 2, -1⟩, ⟨undefined, 0, 0⟩, ⟨undefined, 0, 0⟩,
  ⟨30, 2, -1⟩, ⟨undefined, 0, 0⟩, ⟨undefined, 0, 0⟩, ⟨undefined, 0, 0⟩,
  ⟨undefined, 0, 0⟩, ⟨undefined, 0, 0⟩, ⟨undefined, 0, 0⟩, ⟨undefined, 0, 0⟩,
  ⟨undefined, 0, 0⟩, ⟨undefined, 0, 0⟩, ⟨undefined, 0, 0⟩, ⟨undefined, 0, 0⟩,
  ⟨undefined, 0, 0⟩, ⟨undefined, 0, 0⟩, ⟨undefined, 0, 0⟩, ⟨undefined, 0, 0⟩,
  ⟨base, 0, 1⟩, ⟨warmStorageReadCost, 1, 0⟩, ⟨base, 0, 1⟩, ⟨base, 0, 1⟩,
  ⟨base, 0, 1⟩, ⟨veryLow, 1, 0⟩, ⟨base, 0, 1⟩, ⟨veryLow, 3, -3⟩,
  ⟨base, 0, 1⟩, ⟨veryLow, 3, -3⟩, ⟨base, 0, 1⟩, ⟨warmStorageReadCost, 1, 0⟩,
  ⟨warmStorageReadCost, 4, -4⟩, ⟨base, 0, 1⟩, ⟨veryLow, 3, -3⟩, ⟨warmStorageReadCost, 1, 0⟩,
  ⟨20, 1, 0⟩, ⟨base, 0, 1⟩, ⟨base, 0, 1⟩, ⟨base, 0, 1⟩,
  ⟨base, 0, 1⟩, ⟨base, 0, 1⟩, ⟨base, 0, 1⟩, ⟨low, 0, 1⟩,
  ⟨base, 0, 1⟩, ⟨undefined, 0, 0⟩, ⟨undefined, 0, 0⟩, ⟨undefined, 0, 0⟩,
  ⟨undefined, 0, 0⟩, ⟨undefined, 0, 0⟩, ⟨undefined, 0, 0⟩, ⟨undefined, 0, 0⟩,
  ⟨base, 1, -1⟩, ⟨veryLow, 1, 0⟩, ⟨veryLow, 2, -2⟩, ⟨veryLow, 2, -2⟩,
  ⟨warmStorageReadCost, 1, 0⟩, ⟨0, 2, -2⟩, ⟨mid, 1, -1⟩, ⟨high, 2, -2⟩,
  ⟨base, 0, 1⟩, ⟨base, 0, 1⟩, ⟨base, 0, 1⟩, ⟨1, 0, 0⟩,
  ⟨undefined, 0, 0⟩, ⟨undefined, 0, 0⟩, ⟨undefined, 0, 0⟩, ⟨base, 0, 1⟩,
  ⟨veryLow, 0, 1⟩, ⟨veryLow, 0, 1⟩, ⟨veryLow, 0, 1⟩, ⟨veryLow, 0, 1⟩,
  ⟨veryLow, 0, 1⟩, ⟨veryLow, 0, 1⟩, ⟨veryLow, 0, 1⟩, ⟨veryLow, 0, 1⟩,
  ⟨veryLow, 0, 1⟩, ⟨veryLow, 0, 1⟩, ⟨veryLow, 0, 1⟩, ⟨veryLow, 0, 1⟩,
  ⟨veryLow, 0, 1⟩, ⟨veryLow, 0, 1⟩, ⟨veryLow, 0, 1⟩, ⟨veryLow, 0, 1⟩,
  ⟨veryLow, 0, 1⟩, ⟨veryLow, 0, 1⟩, ⟨veryLow, 0, 1⟩, ⟨veryLow, 0, 1⟩,
  ⟨veryLow, 0, 1⟩, ⟨veryLow, 0, 1⟩, ⟨veryLow, 0, 1⟩, ⟨veryLow, 0, 1⟩,
  ⟨veryLow, 0, 1⟩, ⟨veryLow, 0, 1⟩, ⟨veryLow, 0, 1⟩, ⟨veryLow, 0, 1⟩,
  ⟨veryLow, 0, 1⟩, ⟨veryLow, 0, 1⟩, ⟨veryLow, 0, 1⟩, ⟨veryLow, 0, 1⟩,
  ⟨veryLow, 1, 1⟩, ⟨veryLow, 2, 1⟩, ⟨veryLow, 3, 1⟩, ⟨veryLow, 4, 1⟩,
  ⟨veryLow, 5, 1⟩, ⟨veryLow, 6, 1⟩, ⟨veryLow, 7, 1⟩, ⟨veryLow, 8, 1⟩,
  ⟨veryLow, 9, 1⟩, ⟨veryLow, 10, 1⟩, ⟨veryLow, 11, 1⟩, ⟨veryLow, 12, 1⟩,
  ⟨veryLow, 13, 1⟩, ⟨veryLow, 14, 1⟩, ⟨veryLow, 15, 1⟩, ⟨veryLow, 16, 1⟩,
  ⟨veryLow, 2, 0⟩, ⟨veryLow, 3, 0⟩, ⟨veryLow, 4, 0⟩, ⟨veryLow, 5, 0⟩,
  ⟨veryLow, 6, 0⟩, ⟨veryLow, 7, 0⟩, ⟨veryLow, 8, 0⟩, ⟨veryLow, 9, 0⟩,
  ⟨veryLow, 10, 0⟩, ⟨veryLow, 11, 0⟩, ⟨veryLow, 12, 0⟩, ⟨veryLow, 13, 0⟩,
  ⟨veryLow, 14, 0⟩, ⟨veryLow, 15, 0⟩, ⟨veryLow, 16, 0⟩, ⟨veryLow, 17, 0⟩,
  ⟨1 * 375, 2, -2⟩, ⟨2 * 375, 3, -3⟩, ⟨3 * 375, 4, -4⟩, ⟨4 * 375, 5, -5⟩,
  ⟨5 * 375, 6, -6⟩, ⟨undefined, 0, 0⟩, ⟨undefined, 0, 0⟩, ⟨undefined, 0, 0⟩,
  ⟨undefined, 0, 0⟩, ⟨undefined, 0, 0⟩, ⟨undefined, 0, 0⟩, ⟨undefined, 0, 0⟩,
  ⟨undefined, 0, 0⟩, ⟨undefined, 0, 0⟩, ⟨undefined, 0, 0⟩, ⟨undefined, 0, 0⟩,
  ⟨undefined, 0, 0⟩, ⟨undefined, 0, 0⟩, ⟨undefined, 0, 0⟩, ⟨undefined, 0, 0⟩,
  ⟨undefined, 0, 0⟩, ⟨undefined, 0, 0⟩, ⟨undefined, 0, 0⟩, ⟨undefined, 0, 0⟩,
  ⟨undefined, 0, 0⟩, ⟨undefined, 0, 0⟩, ⟨undefined, 0, 0⟩, ⟨undefined, 0, 0⟩,
  ⟨undefined, 0, 0⟩, ⟨undefined, 0, 0⟩, ⟨undefined, 0, 0⟩, ⟨undefined, 0, 0⟩,
  ⟨undefined, 0, 0⟩, ⟨undefined, 0, 0⟩, ⟨undefined, 0, 0⟩, ⟨undefined, 0, 0⟩,
  ⟨undefined, 0, 0⟩, ⟨undefined, 0, 0⟩, ⟨undefined, 0, 0⟩, ⟨undefined, 0, 0⟩,
  ⟨undefined, 0, 0⟩, ⟨undefined, 0, 0⟩, ⟨undefined, 0, 0⟩, ⟨undefined, 0, 0⟩,
  ⟨undefined, 0, 0⟩, ⟨undefined, 0, 0⟩, ⟨undefined, 0, 0⟩, ⟨undefined, 0, 0⟩,
  ⟨undefined, 0, 0⟩, ⟨undefined, 0, 0⟩, ⟨undefined, 0, 0⟩, ⟨undefined, 0, 0⟩,
  ⟨undefined, 0, 0⟩, ⟨undefined, 0, 0⟩, ⟨undefined, 0, 0⟩, ⟨undefined, 0, 0⟩,
  ⟨undefined, 0, 0⟩, ⟨undefined, 0, 0⟩, ⟨undefined, 0, 0⟩, ⟨undefined, 0, 0⟩,
  ⟨undefined, 0, 0⟩, ⟨undefined, 0, 0⟩, ⟨undefined, 0, 0⟩, ⟨undefined, 0, 0⟩,
  ⟨undefined, 0, 0⟩, ⟨undefined, 0, 0⟩, ⟨undefined, 0, 0⟩, ⟨undefined, 0, 0⟩,
  ⟨undefined, 0, 0⟩, ⟨undefined, 0, 0⟩, ⟨undefined, 0, 0⟩, ⟨undefined, 0, 0⟩,
  ⟨undefined, 0, 0⟩, ⟨undefined, 0, 0⟩, ⟨undefined, 0, 0⟩, ⟨undefined, 0, 0⟩,
  ⟨undefined, 0, 0⟩, ⟨undefined, 0, 0⟩, ⟨undefined, 0, 0⟩, ⟨undefined, 0, 0⟩,
  ⟨32000, 3, -2⟩, ⟨warmStorageReadCost, 7, -6⟩, ⟨undefined, 0, 0⟩, ⟨zero, 2, -2⟩,
  ⟨warmStorageReadCost, 6, -5⟩, ⟨32000, 4, -3⟩, ⟨undefined, 0, 0⟩, ⟨undefined, 0, 0⟩,
  ⟨undefined, 0, 0⟩, ⟨undefined, 0, 0⟩, ⟨warmStorageReadCost, 6, -5⟩, ⟨undefined, 0, 0⟩,
  ⟨undefined, 0, 0⟩, ⟨zero, 2, -2⟩, ⟨zero, 0, 0⟩, ⟨undefined, 0, 0⟩]

end Metrics

theorem shanghaiMetrics_length : Metrics.shanghaiMetrics.length = 256 := by decide +kernel

/-- The entry of an opcode. -/
def metrics (opcode : UInt8) : InstructionMetrics :=
  have hIndex : opcode.toNat < Metrics.shanghaiMetrics.length := by
    rw [shanghaiMetrics_length]
    exact opcode.toNat_lt
  Metrics.shanghaiMetrics[opcode.toNat]

end Qrvmc
