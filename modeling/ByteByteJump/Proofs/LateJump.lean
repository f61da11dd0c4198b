import ByteByteJump.LateJump
import ByteByteJump.Proofs.Chain.Loop
import ByteByteJump.Proofs.Origin

/-!
# When a late jump shows

The instruction cycle fetches an instruction as a whole and then copies its byte. A cycle that
fetches the last field after the copy does the same to memory, and goes elsewhere only where the
instruction has changed its own last field. A write to a byte that the field already holds is no
change, and the part of a field that lies in the margin cannot be written at all.

So two runs, one in each cycle, are the same run until an instruction changes its own last field, and
part there: nothing that a program does later can make a late jump show any earlier.

## Main statements

* `Memory.readField_writeByte_eq_iff` — which writes a field does not show
* `Core.nextLate_eq_next_iff` — one instruction in both cycles
* `Core.afterLate_eq_after` — runs in both cycles, up to the first instruction that tells them apart
* `Core.lateJump_shows_iff` — instructions, runs and frames
-/

namespace ByteByteJump

/-! ## Fields -/

namespace Memory

theorem byteAt_writeByte_eq_iff {m : Memory} {a : UInt32} {v : UInt8} {i : Nat} :
    (m.writeByte a v).byteAt i = m.byteAt i ↔ ¬(i = offset a ∧ v ≠ m.byteAt i) := by
  rw [byteAt_writeByte]
  by_cases here : i = offset a
  · rw [if_pos here]
    exact ⟨fun same differs => differs.2 same,
      fun no => Decidable.byContradiction fun ne => no ⟨here, ne⟩⟩
  · rw [if_neg here]
    exact ⟨fun _ inside => here inside.1, fun _ => rfl⟩

/-- **A field shows a write exactly if it differs from the byte of the field that it goes to.** -/
theorem readField_writeByte_eq_iff {m : Memory} {a b : UInt32} {v : UInt8}
    (room : a.toNat + 3 ≤ capacity) :
    (m.writeByte b v).readField a = m.readField a ↔
      ¬(a.toNat ≤ offset b ∧ offset b < a.toNat + 3 ∧ v ≠ m.byteAt (offset b)) := by
  rw [readField_eq_iff room]
  constructor
  · rintro same ⟨low, high, differs⟩
    exact byteAt_writeByte_eq_iff.mp (same _ low high) ⟨rfl, differs⟩
  · intro no i low high
    refine byteAt_writeByte_eq_iff.mpr ?_
    rintro ⟨rfl, differs⟩
    exact no ⟨low, high, differs⟩

end Memory

namespace Core

variable {c : Core} {n : Nat}

/-! ## One instruction -/

theorem cycles_nextLate (c : Core) : c.nextLate.cycles = c.cycles + 1 := rfl

/-- The instruction that a core executes next stores a byte into its own last field that differs
from the one that is there. -/
def RetargetsNext (c : Core) : Prop := (Executed.mk c.pc c.instruction).RetargetsSelf c.memory

/-- **One instruction in both cycles.** Only the address that it goes on at can differ, and does so
exactly if the instruction changes its own last field. -/
theorem pc_next_eq_iff (low : c.pc.toNat < Memory.addressSpace) :
    c.next.pc = c.nextLate.pc ↔ ¬c.RetargetsNext := by
  rw [Memory.addressSpace_eq] at low
  obtain ⟨_, third⟩ := Instruction.toNat_fieldAddress (show c.pc.toNat + 6 < 0x100000000 by omega)
  have written := Memory.readField_writeByte_eq_iff (m := c.memory) (a := c.pc + 6)
    (b := c.instruction.dest) (v := c.memory.readByte c.instruction.source)
    (by rw [third, Memory.capacity_eq]; omega)
  rw [third, (offset_instruction c).2] at written
  show c.memory.readField (c.pc + 6) = c.next.memory.readField (c.pc + 6) ↔ _
  rw [eq_comm]
  refine written.trans (not_congr (and_congr Iff.rfl (and_congr ?_ Iff.rfl)))
  exact Nat.lt_succ_iff

theorem nextLate_eq_next_iff (low : c.pc.toNat < Memory.addressSpace) :
    c.nextLate = c.next ↔ ¬c.RetargetsNext := by
  rw [← pc_next_eq_iff low]
  constructor
  · intro same
    rw [same]
  · intro same
    show (⟨⟨c.nextLate.pc, c.next.cycles⟩, c.next.memory⟩ : Core) = c.next
    rw [← same]
    rfl

/-- From six bytes below the end of the address space on, the last field lies in the margin. -/
theorem not_retargetsNext_of_le (high : 0xFFFFFA ≤ c.pc.toNat) : ¬c.RetargetsNext := by
  rintro ⟨inside, _, _⟩
  have dest := (Instruction.fetched_lt c.memory c.pc).2.1
  rw [Memory.addressSpace_eq] at dest
  have inside : c.pc.toNat + 6 ≤ (Instruction.fetched c.memory c.pc).dest.toNat := inside
  omega

/-! ## Runs -/

theorem afterLate_succ (n : Nat) (c : Core) : afterLate (n + 1) c = afterLate n c.nextLate := rfl

theorem afterLate_succ_last (n : Nat) (c : Core) :
    afterLate (n + 1) c = (afterLate n c).nextLate := by
  induction n generalizing c with
  | zero => rfl
  | succ n ih => exact ih c.nextLate

/-- The other cycle is refused where the first one is. -/
theorem runLate_of_lt (low : c.pc.toNat < Memory.addressSpace)
    (room : c.cycles.toNat + n < 0x10000000000000000) : runLate n c = .ok (afterLate n c) := by
  induction n generalizing c with
  | zero => rfl
  | succ n ih =>
    rw [Memory.addressSpace_eq] at low
    have count : (c.cycles + 1).toNat = c.cycles.toNat + 1 := toNat_next_cycles (by omega)
    rw [runLate, stepLate_of_lt (by omega) (by omega)]
    refine ih (c.next.memory.readField_lt _) ?_
    rw [cycles_nextLate]
    omega

/-- **Runs in both cycles are the same** for as long as no instruction changes its own last field. -/
theorem afterLate_eq_after (low : c.pc.toNat < Memory.addressSpace)
    (keeps : ∀ i < n, ¬(after i c).RetargetsNext) : afterLate n c = after n c := by
  induction n generalizing c with
  | zero => rfl
  | succ n ih =>
    have first : c.nextLate = c.next := (nextLate_eq_next_iff low).mpr (keeps 0 (Nat.succ_pos n))
    rw [afterLate_succ, after_succ, first]
    exact ih c.next_pc_lt fun i hi => keeps (i + 1) (Nat.succ_lt_succ hi)

/-- They part with the first instruction that does. -/
theorem afterLate_parts (low : c.pc.toNat < Memory.addressSpace)
    (keeps : ∀ i < n, ¬(after i c).RetargetsNext) (retargets : (after n c).RetargetsNext) :
    (after (n + 1) c).memory = (afterLate (n + 1) c).memory ∧
      (after (n + 1) c).pc ≠ (afterLate (n + 1) c).pc := by
  rw [after_succ_last, afterLate_succ_last, afterLate_eq_after low keeps]
  exact ⟨rfl, fun same => (pc_next_eq_iff (after_pc_lt n low)).mp same retargets⟩

/-! ## Runs that keep their targets -/

/-- None of the next `n` instructions stores a byte into its own last field that differs from the
one that it finds there. -/
def KeepsTargets (n : Nat) (c : Core) : Prop :=
  ∀ i < n, ∀ d inst d', run i c = .ok d → d.step = .ok (inst, d') →
    ¬(Executed.mk d.pc inst).RetargetsSelf d.memory

theorem keepsTargets_iff (low : c.pc.toNat < Memory.addressSpace)
    (room : c.cycles.toNat + n < 0x10000000000000000) :
    KeepsTargets n c ↔ ∀ i < n, ¬(after i c).RetargetsNext := by
  refine ⟨fun keeps i hi => ?_, fun keeps i hi d inst d' run step => ?_⟩
  · obtain ⟨run, step⟩ := step_after low room (i := i) (by rw [length_executed]; exact hi)
    rw [getElem_executed] at step
    exact keeps i hi _ _ _ run step
  · obtain rfl := run_eq_ok run
    obtain ⟨_, _, same⟩ := step_eq_ok step
    obtain rfl : inst = _ := congrArg Prod.fst same
    exact keeps i hi

/-- The first instruction that changes its own last field is the one behind those that do not. -/
theorem retargetsNext_of_not_keepsTargets (low : c.pc.toNat < Memory.addressSpace)
    (room : c.cycles.toNat + (n + 1) < 0x10000000000000000)
    (keeps : ∀ i < n, ¬(after i c).RetargetsNext) (stops : ¬KeepsTargets (n + 1) c) :
    (after n c).RetargetsNext := by
  refine Classical.byContradiction fun none => stops ((keepsTargets_iff low room).mpr fun i hi => ?_)
  rcases Nat.lt_succ_iff_lt_or_eq.mp hi with before | rfl
  · exact keeps i before
  · exact none

end Core

/-- A chain that loops goes round in both cycles: no copy of it goes to its instructions. -/
theorem LoopsAt.keepsTargets {copies : List Copy} {a : UInt32} (h : LoopsAt copies a) {c : Core}
    (holds : HoldsLoop c.memory a copies) (pc : c.pc = a) {n : Nat}
    (room : c.cycles.toNat + n < 0x10000000000000000) : c.KeepsTargets n := by
  have low : c.pc.toNat < Memory.addressSpace := by
    rw [pc]
    exact h.start_lt
  rw [Core.keepsTargets_iff low room]
  rintro i _ ⟨first, last, _⟩
  obtain ⟨_, phase, still⟩ := h.after_eq holds pc i
  have inside : i % copies.length < copies.length := Nat.mod_lt _ h.length_pos
  have clear := h.clear _ (List.getElem_mem inside)
  simp only [h.instruction_eq still inside phase, phase] at first last
  exact clear (.inr ⟨by omega, by omega⟩)

namespace Core

/-! ## Where it shows -/

/--
**A late jump shows exactly where an instruction changes its own last field.**

One instruction does the same to memory in both cycles. It goes on at the same address unless it
stores a byte into its own last field, other than the one that is there; within six bytes of the end
of the address space it cannot. Runs in both cycles are one run for as long as this does not happen,
and part where it happens first. So a frame in which it never happens is the same frame in both.
-/
theorem lateJump_shows_iff :
    (∀ c : Core, c.pc.toNat < 0x1000000 → c.cycles.toNat + 1 < 0x10000000000000000 →
      ∃ inst d l, c.step = .ok (inst, d) ∧ c.stepLate = .ok l ∧ d.memory = l.memory ∧
        d.cycles = l.cycles ∧
        (d.pc = l.pc ↔ ¬(Executed.mk c.pc inst).RetargetsSelf c.memory) ∧
        (0xFFFFFA ≤ c.pc.toNat → d = l)) ∧
    (∀ (c : Core) (n : Nat), c.pc.toNat < 0x1000000 →
      c.cycles.toNat + n < 0x10000000000000000 →
        (KeepsTargets n c → ∃ d, run n c = .ok d ∧ runLate n c = .ok d) ∧
        ∀ i < n, KeepsTargets i c → ¬KeepsTargets (i + 1) c →
          ∃ d l, run (i + 1) c = .ok d ∧ runLate (i + 1) c = .ok l ∧ d.memory = l.memory ∧
            d.pc ≠ l.pc) ∧
    ∀ (c : Core) (keys : Keys), c.cycles.toNat + 65536 < 0x10000000000000000 →
      KeepsTargets 65536 (c.latch keys).atEntryPoint →
        ∃ d, (c.latch keys).runFrame = .ok d ∧ (c.latch keys).runFrameLate = .ok d := by
  have runs : ∀ (c : Core) (n : Nat), c.pc.toNat < 0x1000000 →
      c.cycles.toNat + n < 0x10000000000000000 → KeepsTargets n c →
        ∃ d, run n c = .ok d ∧ runLate n c = .ok d := by
    intro c n low room keeps
    have same := afterLate_eq_after low ((keepsTargets_iff low room).mp keeps)
    exact ⟨after n c, run_of_lt low room, same ▸ runLate_of_lt low room⟩
  refine ⟨fun c low room => ?_, fun c n low room => ⟨runs c n low room, ?_⟩, ?_⟩
  · refine ⟨_, _, _, step_of_lt (by omega) room, stepLate_of_lt (by omega) room, rfl,
      (cycles_nextLate c).symm, pc_next_eq_iff low, fun high => ?_⟩
    exact ((nextLate_eq_next_iff low).mpr (not_retargetsNext_of_le high)).symm
  · intro i hi keeps stops
    have shorter : c.cycles.toNat + i < 0x10000000000000000 := by omega
    have before := (keepsTargets_iff low shorter).mp keeps
    have here := retargetsNext_of_not_keepsTargets low (by omega) before stops
    exact ⟨_, _, run_of_lt low (by omega), runLate_of_lt low (by omega),
      afterLate_parts low before here⟩
  · intro c keys room keeps
    exact runs _ instructionsPerFrame (atEntryPoint_pc_lt _) room keeps

/-- The last field of the first instruction is the last byte of the address space and two bytes of
the margin, and the instruction copies its own first byte there. The frame is that of a loop at the
last address of all. -/
theorem lateJump_shows_iff_last :
    (∃ c d l : Core, c.pc = 0xFFFFF9 ∧ c.step = .ok (⟨0xFFFFF9, 0xFFFFFF, 0⟩, d) ∧
      c.stepLate = .ok l ∧ d.memory = l.memory ∧ d.pc ≠ l.pc) ∧
    ∃ c d : Core, c.memory.entryPoint = 0xFFFFFF ∧ (c.latch Keys.all).runFrame = .ok d ∧
      (c.latch Keys.all).runFrameLate = .ok d := by
  obtain ⟨steps, _, frames⟩ := lateJump_shows_iff
  have core : ∀ (pc : UInt32) (m : Memory), ∃ c : Core, c.pc = pc ∧ c.cycles = 0 ∧ c.memory = m :=
    fun pc m => ⟨⟨⟨pc, 0⟩, m⟩, rfl, rfl, rfl⟩
  constructor
  · have stored := Image.empty.storedAt_instruction 0xFFFFF9 ⟨0xFFFFF9, 0xFFFFFF, 0⟩
    have fits : (Image.empty.instruction 0xFFFFF9 ⟨0xFFFFF9, 0xFFFFFF, 0⟩).bytes.size
        ≤ Memory.capacity := Nat.le_trans (Nat.le_of_eq (Image.size_poke ..)) (by decide)
    generalize Image.empty.instruction 0xFFFFF9 ⟨0xFFFFF9, 0xFFFFFF, 0⟩ = img at stored fits
    replace stored := stored.congr fun i _ _ => Memory.byteAt_ofImage img.bytes fits i
    obtain ⟨c, here, cycles, memory⟩ := core 0xFFFFF9 (Memory.ofImage img.bytes fits)
    rw [← memory] at stored
    have fetched : c.instruction = ⟨0xFFFFF9, 0xFFFFFF, 0⟩ := by
      rw [instruction, here]
      exact Instruction.fetched_of_storedAt stored (by decide) (by decide) (by decide) (by decide)
    obtain ⟨inst, d, l, step, late, same, _, pc, _⟩ :=
      steps c (by rw [here]; decide) (by rw [cycles]; decide)
    obtain rfl : inst = ⟨0xFFFFF9, 0xFFFFFF, 0⟩ :=
      (congrArg Prod.fst (step_eq_ok step).2.2).trans fetched
    refine ⟨c, d, l, here, step, late, same, fun equal => pc.mp equal ?_⟩
    rw [here]
    have copied : c.memory.byteAt 0xFFFFF9 = 0xFF := stored 0 (by decide)
    have there : c.memory.byteAt 0xFFFFFF = 0 := stored 6 (by decide)
    refine ⟨by decide, by decide, ?_⟩
    show c.memory.byteAt 0xFFFFF9 ≠ c.memory.byteAt 0xFFFFFF
    rw [copied, there]
    decide
  · have loops : LoopsAt [⟨0x10, 0x11⟩] 0xFFFFFF :=
      ⟨by decide, by decide, by decide, by decide, by decide⟩
    obtain ⟨_, _, memory, _, _, holds⟩ := loops.exists_load_empty Machine.initial
    obtain ⟨c, _, cycles, rfl⟩ := core 0 memory
    have latched := loops.holdsLoop_writeWord holds Keys.all.bits
    have room : c.cycles.toNat + 65536 < 0x10000000000000000 := by
      rw [cycles]
      decide
    have keeps := loops.keepsTargets (c := (c.latch Keys.all).atEntryPoint) latched
      latched.entryPoint room
    obtain ⟨d, run, late⟩ := frames c Keys.all room keeps
    exact ⟨c, d, holds.entryPoint, run, late⟩

end Core

end ByteByteJump
