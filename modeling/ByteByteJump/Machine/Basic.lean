import ByteByteJump.Frame
import ByteByteJump.Processor
import ByteByteJump.Samples

/-!
# The machine

A machine is a core with its two outputs, the picture and the sound of the last frame, and a count
of the frames. A host loads a program image once and then calls `tick` sixty times a second with
the keys that are held; what it shows and plays between two ticks is in the machine.

## Main statements

* `load_of_le`, `load_of_lt` — an image is loaded exactly if it fits, and what ran before is gone
* `tick_of_lt` — only the counters can refuse a tick
* `runFrames_eq_play` — frames with the same keys are ticks one after the other
-/

namespace ByteByteJump

/-- A core, the outputs of the last frame, and the number of frames since the image was loaded. -/
structure Machine where
  core : Core
  frame : Frame
  samples : Samples
  frameCount : UInt64

namespace Machine

structure Stats where
  totalCycles : UInt64
  frameCount : UInt64
  pc : UInt32
  deriving DecidableEq, Repr

def stats (m : Machine) : Stats := ⟨m.core.cycles, m.frameCount, m.core.pc⟩

@[inline] def memory (m : Machine) : Memory := m.core.memory

def initial : Machine := ⟨⟨Processor.initial, Memory.blank⟩, Frame.blank, Samples.silence, 0⟩

/-! ## Loading -/

/-- A machine at the entry point of a memory, with black picture, no sound and no frames. -/
def ofMemory (memory : Memory) : Machine :=
  ⟨⟨Processor.reset memory, memory⟩, Frame.blank, Samples.silence, 0⟩

/-- Loads a program image. Memory is replaced as a whole, the processor starts anew, the outputs
are blanked, and no frame has run. An image that does not fit is refused. -/
def load (m : Machine) (image : ByteArray) : Except LoadError Machine := do
  let memory ← Memory.load image
  return { m with
    core := ⟨Processor.reset memory, memory⟩
    frame := Frame.blank
    samples := Samples.silence
    frameCount := 0 }

/-- **A machine forgets what ran before** when an image is loaded. -/
theorem load_of_le (m : Machine) {image : ByteArray} (fits : image.size ≤ Memory.capacity) :
    m.load image = .ok (ofMemory (Memory.ofImage image fits)) := by
  rw [load, Memory.load_of_le fits]; rfl

theorem load_of_lt (m : Machine) {image : ByteArray} (large : Memory.capacity < image.size) :
    m.load image = .error (.tooLarge image.size Memory.capacity) := by
  rw [load, Memory.load_of_lt large]; rfl

def loadFile (m : Machine) (path : String) (content : Except ReadFailure ByteArray) :
    Except LoadError Machine :=
  match content with
  | .ok image => m.load image
  | .error failure => .error (.unreadable path failure)

@[simp] theorem loadFile_ok (m : Machine) (path : String) (image : ByteArray) :
    m.loadFile path (.ok image) = m.load image := rfl

@[simp] theorem loadFile_error (m : Machine) (path : String) (failure : ReadFailure) :
    m.loadFile path (.error failure) = .error (.unreadable path failure) := rfl

/-! ## One frame -/

/-- The machine with the outputs that a core's memory names, and one more frame. -/
def finish (core : Core) (frameCount : UInt64) : Except Overflow Machine := do
  let frame := Frame.ofMemory core.memory
  let samples := Samples.ofMemory core.memory
  let frameCount ← nextCount .frameCount frameCount
  return { core, frame, samples, frameCount }

theorem finish_of_lt (core : Core) {frameCount : UInt64}
    (h : frameCount.toNat + 1 < 0x10000000000000000) :
    finish core frameCount
      = .ok ⟨core, Frame.ofMemory core.memory, Samples.ofMemory core.memory, frameCount + 1⟩ := by
  rw [finish, nextCount_of_lt h]
  rfl

/-- Runs one frame: writes the key state to the header, executes the instructions of a frame, and
takes picture and sound from memory. -/
def tick (m : Machine) (keys : Keys) : Except Overflow Machine :=
  -- taken apart first: nothing else then holds the memory, and it is changed in place
  let ⟨core, _, _, frameCount⟩ := m
  (core.latch keys).runFrame.bind fun core => finish core frameCount

/-- The core from which a frame runs: the key state is written, and the next instruction is the one
at the entry point. -/
def started (m : Machine) (keys : Keys) : Core := (m.core.latch keys).atEntryPoint

/-- The instructions that a frame executes, in order. -/
def executed (m : Machine) (keys : Keys) : List Executed :=
  Core.executed Core.instructionsPerFrame (m.started keys)

/-- The machine after a frame, where no sum is refused. -/
def next (m : Machine) (keys : Keys) : Machine :=
  let core := Core.after Core.instructionsPerFrame (m.started keys)
  ⟨core, Frame.ofMemory core.memory, Samples.ofMemory core.memory, m.frameCount + 1⟩

/-- **Only the counters can refuse a tick.** -/
theorem tick_of_lt {m : Machine} (keys : Keys)
    (cycles : m.core.cycles.toNat + Core.instructionsPerFrame < 0x10000000000000000)
    (frames : m.frameCount.toNat + 1 < 0x10000000000000000) : m.tick keys = .ok (m.next keys) := by
  have latched :
      (m.core.latch keys).cycles.toNat + Core.instructionsPerFrame < 0x10000000000000000 := by
    rw [Core.cycles_latch]
    exact cycles
  rw [tick, Core.runFrame_of_lt latched, next, started]
  generalize Core.after Core.instructionsPerFrame (m.core.latch keys).atEntryPoint = core
  exact finish_of_lt core frames

/-! ## Many frames -/

def play : Machine → List Keys → Except Overflow Machine
  | m, [] => .ok m
  | m, keys :: rest => (m.tick keys).bind fun m => m.play rest

@[simp] theorem play_nil (m : Machine) : m.play [] = .ok m := rfl

theorem play_cons (m : Machine) (keys : Keys) (rest : List Keys) :
    m.play (keys :: rest) = (m.tick keys).bind fun m => m.play rest := rfl

/-- The machine after a frame for each key state, where no sum is refused. -/
def after (m : Machine) (keys : List Keys) : Machine := keys.foldl next m

def runFrames (m : Machine) (n : Nat) (keys : Keys) : Except Overflow Machine :=
  match n with
  | 0 => .ok m
  | n + 1 => (m.tick keys).bind fun m => m.runFrames n keys

theorem runFrames_succ (m : Machine) (n : Nat) (keys : Keys) :
    m.runFrames (n + 1) keys = (m.tick keys).bind fun m => m.runFrames n keys := rfl

/-- Frames with the same keys held are ticks one after the other. -/
theorem runFrames_eq_play (m : Machine) (n : Nat) (keys : Keys) :
    m.runFrames n keys = m.play (List.replicate n keys) := by
  induction n generalizing m with
  | zero => rfl
  | succ n ih =>
    rw [runFrames_succ, List.replicate_succ, play_cons]
    cases m.tick keys with
    | error cause => rfl
    | ok m => exact ih m

end Machine

end ByteByteJump
