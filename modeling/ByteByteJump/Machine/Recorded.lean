import ByteByteJump.Journal
import ByteByteJump.Machine.Basic

/-!
# A machine that keeps a journal

The operations of a machine once more, each with a journal that it adds a record to when it is
done: for every instruction, for every frame, and for every load that succeeds. An operation that is
refused leaves no journal behind, so nothing is said about what it had recorded by then.
-/

namespace ByteByteJump

namespace Core

def stepRecorded (c : Core) (j : Journal) : Except Overflow (Instruction × Core × Journal) :=
  let pc := c.pc
  c.step.bind fun (inst, c) => .ok (inst, c, j.add (.executed ⟨pc, inst⟩))

/-- Executes `n` instructions and records each of them. -/
def runRecorded : Nat → Core → Journal → Except Overflow (Core × Journal)
  | 0, c, j => .ok (c, j)
  | n + 1, c, j => (c.stepRecorded j).bind fun (_, c, j) => runRecorded n c j

def runFrameRecorded (c : Core) (j : Journal) : Except Overflow (Core × Journal) :=
  runRecorded instructionsPerFrame c.atEntryPoint j

end Core

namespace Machine

def frameRecord (m : Machine) : Record :=
  .frameDone m.frameCount m.core.pc m.memory.videoPage m.memory.audioPage

/-- The record of a machine that an image of `length` bytes was loaded into. -/
def loadRecord (m : Machine) (length : Nat) : Record := .loaded length m.core.pc

def loadRecorded (m : Machine) (image : ByteArray) (j : Journal) :
    Except LoadError (Machine × Journal) := do
  let m ← m.load image
  return (m, j.add (m.loadRecord image.size))

/-- Loads the program image in a file, given what came of reading it, and records it. -/
def loadFileRecorded (m : Machine) (path : String) (content : Except ReadFailure ByteArray)
    (j : Journal) : Except LoadError (Machine × Journal) :=
  match content with
  | .ok image => m.loadRecorded image j
  | .error failure => .error (.unreadable path failure)

/-- Runs one frame and records its instructions and its end. -/
def tickRecorded (m : Machine) (keys : Keys) (j : Journal) :
    Except Overflow (Machine × Journal) :=
  let ⟨core, _, _, frameCount⟩ := m
  ((core.latch keys).runFrameRecorded j).bind fun (core, j) =>
    (finish core frameCount).bind fun m => .ok (m, j.add m.frameRecord)

/-- Runs `n` frames with the same keys held, and records them. -/
def runFramesRecorded (m : Machine) (n : Nat) (keys : Keys) (j : Journal) :
    Except Overflow (Machine × Journal) :=
  match n with
  | 0 => .ok (m, j)
  | n + 1 => (m.tickRecorded keys j).bind fun (m, j) => m.runFramesRecorded n keys j

end Machine

/-! ## What is recorded -/

namespace Core

theorem stepRecorded_eq (c : Core) (j : Journal) :
    c.stepRecorded j
      = c.step.map fun (inst, c') => (inst, c', j.add (.executed ⟨c.pc, inst⟩)) := by
  rw [stepRecorded]
  cases c.step <;> rfl

end Core

namespace Machine

/-- **A recorded load** does what the load does and records it if it succeeds. -/
theorem loadRecorded_eq (m : Machine) (image : ByteArray) (j : Journal) :
    m.loadRecorded image j
      = (m.load image).map fun m => (m, j.add (m.loadRecord image.size)) := by
  rw [loadRecorded]
  cases m.load image <;> rfl

end Machine

end ByteByteJump
