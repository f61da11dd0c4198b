import ByteByteJump.Header
import ByteByteJump.Keypad.Basic
import ByteByteJump.Instruction

/-!
# The processor

A processor has a program counter and counts the instructions it has executed. It never halts: a
frame is exactly 65536 instructions, and every frame starts at the entry point that the header of
memory names.

A *core* is a processor together with its memory. `Core.step` is the whole instruction cycle.

## Main statements

* `Core.step_of_lt`, `Core.step_of_pc_le`, `Core.step_of_cycles_le` — a step is refused exactly
  where the instruction cannot be fetched or the counter is at its limit
* `Core.next_pc_lt` — after a step the program counter is a 24-bit address
* `Core.memory_after` — a run makes the copies of the instructions it executes
* `Core.run_of_lt`, `Core.runFrame_of_lt` — from a 24-bit address, and for a frame from anywhere,
  only the counter can refuse
-/

namespace ByteByteJump

/-- A program counter and the number of instructions executed since it was reset. -/
structure Processor where
  pc : UInt32
  cycles : UInt64
  deriving DecidableEq, Repr

namespace Processor

def initial : Processor := ⟨0, 0⟩

def reset (m : Memory) : Processor := ⟨m.entryPoint, 0⟩

end Processor

/-- An instruction together with the address at which it was executed. -/
structure Executed where
  pc : UInt32
  instruction : Instruction
  deriving DecidableEq, Repr

/-- It reads its own nine bytes and the byte that it copies. -/
def Executed.Reads (e : Executed) (i : Nat) : Prop :=
  (e.pc.toNat ≤ i ∧ i < e.pc.toNat + 9) ∨ i = Memory.offset e.instruction.source

def Executed.Writes (e : Executed) (i : Nat) : Prop := i = Memory.offset e.instruction.dest

structure Core where
  processor : Processor
  memory : Memory

namespace Core

def instructionsPerFrame : Nat := 65536

theorem instructionsPerFrame_eq : instructionsPerFrame = 65536 := rfl

@[inline] def pc (c : Core) : UInt32 := c.processor.pc

@[inline] def cycles (c : Core) : UInt64 := c.processor.cycles

/-! ## One instruction -/

/-- Fetches the instruction at the program counter, copies its byte, goes to its third address and
counts one. -/
def step (c : Core) : Except Overflow (Instruction × Core) :=
  -- taken apart first: nothing else then holds the memory, and it is changed in place
  let ⟨⟨pc, cycles⟩, memory⟩ := c
  do
    let inst ← Instruction.fetch memory pc
    let memory := inst.apply memory
    let cycles ← nextCount .cycleCount cycles
    return (inst, ⟨⟨inst.next, cycles⟩, memory⟩)

/-- The instruction that a core executes next. -/
def instruction (c : Core) : Instruction := Instruction.fetched c.memory c.pc

/-- The core after that instruction, where no sum is refused. -/
def next (c : Core) : Core where
  processor := ⟨c.instruction.next, c.cycles + 1⟩
  memory := c.instruction.apply c.memory

theorem step_of_lt {c : Core} (pc : c.pc.toNat + 6 < 0x100000000)
    (cycles : c.cycles.toNat + 1 < 0x10000000000000000) : c.step = .ok (c.instruction, c.next) := by
  rw [step, Instruction.fetch_of_lt (show c.processor.pc.toNat + 6 < 0x100000000 from pc),
    nextCount_of_lt (show c.processor.cycles.toNat + 1 < 0x10000000000000000 from cycles)]
  rfl

theorem step_of_pc_le {c : Core} (pc : 0x100000000 ≤ c.pc.toNat + 6) :
    c.step = .error .fieldAddress := by
  rw [step, Instruction.fetch_of_le (show 0x100000000 ≤ c.processor.pc.toNat + 6 from pc)]
  rfl

theorem step_of_cycles_le {c : Core} (pc : c.pc.toNat + 6 < 0x100000000)
    (cycles : 0x10000000000000000 ≤ c.cycles.toNat + 1) : c.step = .error .cycleCount := by
  rw [step, Instruction.fetch_of_lt (show c.processor.pc.toNat + 6 < 0x100000000 from pc),
    nextCount_of_le (show 0x10000000000000000 ≤ c.processor.cycles.toNat + 1 from cycles)]
  rfl

/-- After a step the program counter is a 24-bit address, wherever it was before. -/
theorem next_pc_lt (c : Core) : c.next.pc.toNat < Memory.addressSpace :=
  (Instruction.fetched_lt _ _).2.2

theorem toNat_next_cycles {c : Core} (h : c.cycles.toNat + 1 < 0x10000000000000000) :
    c.next.cycles.toNat = c.cycles.toNat + 1 := by
  show (c.cycles + 1).toNat = _
  rw [UInt64.toNat_add]
  exact Nat.mod_eq_of_lt h

/-! ## Many instructions -/

def run : Nat → Core → Except Overflow Core
  | 0, c => .ok c
  | n + 1, c => c.step.bind fun (_, c) => run n c

theorem run_succ (n : Nat) (c : Core) : run (n + 1) c = c.step.bind fun (_, c) => run n c := rfl

/-- The core after `n` instructions, where no sum is refused. -/
def after : Nat → Core → Core
  | 0, c => c
  | n + 1, c => after n c.next

/-- The next `n` instructions in order, each with its address. -/
def executed : Nat → Core → List Executed
  | 0, _ => []
  | n + 1, c => ⟨c.pc, c.instruction⟩ :: executed n c.next

@[simp] theorem length_executed (n : Nat) (c : Core) : (executed n c).length = n := by
  induction n generalizing c with
  | zero => rfl
  | succ n ih => rw [executed, List.length_cons, ih]

/-- **What a run does to memory is to make the copies of its instructions.** -/
theorem memory_after (n : Nat) (c : Core) :
    (after n c).memory = Copy.applyAll ((executed n c).map (·.instruction.copy)) c.memory := by
  induction n generalizing c with
  | zero => rfl
  | succ n ih => exact ih c.next

/-- **From a 24-bit address only the counter can refuse a run.** -/
theorem run_of_lt {n : Nat} {c : Core} (pc : c.pc.toNat < Memory.addressSpace)
    (cycles : c.cycles.toNat + n < 0x10000000000000000) : run n c = .ok (after n c) := by
  induction n generalizing c with
  | zero => rfl
  | succ n ih =>
    rw [Memory.addressSpace_eq] at pc
    rw [run_succ, step_of_lt (by omega) (by omega)]
    exact ih c.next_pc_lt (by rw [toNat_next_cycles (by omega)]; omega)

/-! ## A frame -/

/-- The core at the entry point that its memory names. -/
def atEntryPoint (c : Core) : Core :=
  { c with processor := { c.processor with pc := c.memory.entryPoint } }

@[simp] theorem pc_atEntryPoint (c : Core) : c.atEntryPoint.pc = c.memory.entryPoint := rfl

@[simp] theorem cycles_atEntryPoint (c : Core) : c.atEntryPoint.cycles = c.cycles := rfl

theorem atEntryPoint_pc_lt (c : Core) : c.atEntryPoint.pc.toNat < Memory.addressSpace := by
  rw [pc_atEntryPoint]
  exact c.memory.entryPoint_lt

/-- The core with the key state written to the header. -/
def latch (c : Core) (keys : Keys) : Core :=
  { c with memory := c.memory.writeWord Header.keys keys.bits }

@[simp] theorem cycles_latch (c : Core) (keys : Keys) : (c.latch keys).cycles = c.cycles := rfl

/-- One frame: goes to the entry point and executes 65536 instructions. -/
def runFrame (c : Core) : Except Overflow Core :=
  run instructionsPerFrame c.atEntryPoint

/-- **Only the counter can refuse a frame**, wherever the program counter was before. -/
theorem runFrame_of_lt {c : Core}
    (cycles : c.cycles.toNat + instructionsPerFrame < 0x10000000000000000) :
    c.runFrame = .ok (after instructionsPerFrame c.atEntryPoint) := by
  rw [runFrame, run_of_lt c.atEntryPoint_pc_lt (by rw [cycles_atEntryPoint]; exact cycles)]

end Core

end ByteByteJump
