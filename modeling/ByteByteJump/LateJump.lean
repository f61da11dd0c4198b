import ByteByteJump.Processor

/-!
# Jumping late

The instruction cycle with one difference: the address of the next instruction is fetched after the
byte has been copied. A program can tell the two cycles apart only by an instruction that copies
into its own last field, as `Executed.RetargetsSelf` says.
-/

namespace ByteByteJump

/-- An executed instruction stores a byte into its own last field that differs from the one that is
there. -/
def Executed.RetargetsSelf (e : Executed) (m : Memory) : Prop :=
  e.pc.toNat + 6 ≤ e.instruction.dest.toNat ∧ e.instruction.dest.toNat ≤ e.pc.toNat + 8 ∧
    m.readByte e.instruction.source ≠ m.byteAt e.instruction.dest.toNat

namespace Core

/-- Fetches two fields, copies the byte, fetches the third field, goes there and counts one. -/
def stepLate (c : Core) : Except Overflow Core := do
  let source := c.memory.readField c.pc
  let dest := c.memory.readField (← addAddress .fieldAddress c.pc 3)
  let memory := (Copy.mk source dest).apply c.memory
  let next := memory.readField (← addAddress .fieldAddress c.pc 6)
  let cycles ← nextCount .cycleCount c.cycles
  return ⟨⟨next, cycles⟩, memory⟩

def runLate : Nat → Core → Except Overflow Core
  | 0, c => .ok c
  | n + 1, c => c.stepLate.bind (runLate n)

def runFrameLate (c : Core) : Except Overflow Core :=
  runLate instructionsPerFrame c.atEntryPoint

/-- The core after one instruction in this way, where no sum is refused. -/
def nextLate (c : Core) : Core where
  processor := ⟨c.next.memory.readField (c.pc + 6), c.cycles + 1⟩
  memory := c.next.memory

def afterLate : Nat → Core → Core
  | 0, c => c
  | n + 1, c => afterLate n c.nextLate

theorem stepLate_of_lt {c : Core} (pc : c.pc.toNat + 6 < 0x100000000)
    (cycles : c.cycles.toNat + 1 < 0x10000000000000000) : c.stepLate = .ok c.nextLate := by
  have second : c.pc.toNat + 3 < 0x100000000 := by omega
  rw [stepLate, addAddress_of_lt second, addAddress_of_lt pc, nextCount_of_lt cycles]
  rfl

end Core

end ByteByteJump
