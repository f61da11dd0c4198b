import ByteByteJump.Keypad.Basic
import ByteByteJump.Memory.Basic

/-!
# The machine without masks

The machine in its plainest form: an array of bytes that are named by their index, and no rule for
what happens past the end. Where an index does not lie in the array there is no result at all.
Addresses are natural numbers here, and no sum of them is ever cut.

The array is used through `number?` and `store?` alone.
-/

namespace ByteByteJump.Unmasked

/-- All bytes of a machine. -/
abbrev Cells : Type := Vector UInt8 Memory.capacity

def cells (m : Memory) : Cells := Vector.ofFn fun i => m.byteAt i

def cellsOfImage (image : ByteArray) : Cells := Vector.ofFn fun i => Bytes.get image i

/-- The bytes of a machine, and the index of its next instruction. -/
structure State where
  cells : Cells
  pc : Nat

/-- The number whose three bytes start at an index, the most significant first. -/
def number? (cells : Cells) (i : Nat) : Option Nat := do
  let high ← cells[i]?
  let mid ← cells[i + 1]?
  let low ← cells[i + 2]?
  return 65536 * high.toNat + 256 * mid.toNat + low.toNat

/-- The array with another byte at an index. -/
def store? (cells : Cells) (i : Nat) (v : UInt8) : Option Cells :=
  if h : i < Memory.capacity then some (cells.set i v) else none

/-- Executes an instruction: its three numbers are read before its byte is copied. -/
def step? (s : State) : Option State := do
  let source ← number? s.cells s.pc
  let dest ← number? s.cells (s.pc + 3)
  let next ← number? s.cells (s.pc + 6)
  let cells ← store? s.cells dest (← s.cells[source]?)
  return ⟨cells, next⟩

def run? : Nat → State → Option State
  | 0, s => some s
  | n + 1, s => (step? s).bind (run? n)

/-- Runs a frame: stores the two bytes of the key state, goes to the address at index 2 and executes
65536 instructions. -/
def frame? (s : State) (keys : Keys) : Option State := do
  let cells ← store? s.cells 0 (UInt8.ofNat (keys.bits.toNat / 256))
  let cells ← store? cells 1 (UInt8.ofNat (keys.bits.toNat % 256))
  let pc ← number? cells 2
  run? 65536 ⟨cells, pc⟩

def play? : State → List Keys → Option State
  | s, [] => some s
  | s, keys :: rest => (frame? s keys).bind fun s => play? s rest

/-! ## The array and memory -/

/-- **Memory is the array**: they have the same bytes. -/
theorem getElem?_cells (m : Memory) {i : Nat} (h : i < Memory.capacity) :
    (cells m)[i]? = some (m.byteAt i) := by
  rw [Vector.getElem?_eq_getElem h, cells, Vector.getElem_ofFn]

theorem cells_ofImage (image : ByteArray) (fits : image.size ≤ Memory.capacity) :
    cells (Memory.ofImage image fits) = cellsOfImage image := by
  apply Vector.ext
  intro i h
  rw [cells, cellsOfImage, Vector.getElem_ofFn, Vector.getElem_ofFn, Memory.byteAt_ofImage]

end ByteByteJump.Unmasked
