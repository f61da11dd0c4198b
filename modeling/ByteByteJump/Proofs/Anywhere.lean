import ByteByteJump.Proofs.Guarded
import ByteByteJump.Proofs.Origin

/-!
# Cores that start anywhere

A machine keeps the program counter of its core below `2 ^ 24` and ties its counters together. A core
on its own need not: a host may put its program counter at any address of 32 bits and its counter at
any number of 64.

A program counter that high matters once at most, because every instruction leads back to an address
of 24 bits. An instruction from the last six addresses of all is refused; one that lies wholly behind
the margin is read as zeros, and copies the first byte of memory to itself. A frame does not look at
the program counter at all, so only its instructions count.

## Main statements

* `exists_step_error_iff`, `exists_run_error_iff`, `exists_runFrame_error_iff` — what refuses one
  instruction, several of them, and a frame
* `step_done`, `step_high` — what an instruction does, and what one behind the margin does
* `runFrame_of_pc` — a frame does not see the program counter
* `refused_iff_from_anywhere` — one instruction and one frame, from every core
-/

namespace ByteByteJump

namespace Guarded

/-- One frame of a core with every access guarded. -/
def runFrame (c : Core) : Except Fault Core :=
  run ByteByteJump.Core.instructionsPerFrame { c with pc := field c.bytes Header.entryPoint }

/-- **A frame of a core does the same on both machines**, wherever its program counter is. -/
theorem runFrame_ofCore (c : ByteByteJump.Core) :
    runFrame (ofCore c) = allow ofCore c.runFrame := by
  have entry : ({ ofCore c with pc := field (ofCore c).bytes Header.entryPoint } : Core)
      = ofCore c.atEntryPoint := by
    show (⟨c.memory.bytes, field c.memory.bytes Header.entryPoint, c.cycles⟩ : Core) = _
    rw [field_memory]
    rfl
  rw [runFrame, entry, run_ofCore, Core.runFrame]

end Guarded

namespace Core

variable {c c' : Core} {n : Nat} {inst : Instruction}

/-! ## What is refused -/

/-- **Instructions are refused where the first one has no address for its last field, and where the
counter has no room for all of them.** After the first one the program counter has 24 bits. -/
theorem exists_run_error_iff (pos : 0 < n) :
    (∃ cause, run n c = .error cause) ↔
      0xFFFFFFF9 < c.pc.toNat ∨ 0x10000000000000000 ≤ c.cycles.toNat + n := by
  obtain ⟨n, rfl⟩ := Nat.exists_eq_add_one_of_ne_zero (Nat.ne_of_gt pos)
  rw [run_succ]
  -- only the first instruction can be out of reach: the others start where it leads to
  by_cases high : 0xFFFFFFF9 < c.pc.toNat
  · rw [step_of_pc_le (by omega)]
    exact ⟨fun _ => .inl high, fun _ => ⟨_, rfl⟩⟩
  · have pc : c.pc.toNat + 6 < 0x100000000 := by omega
    by_cases room : c.cycles.toNat + (n + 1) < 0x10000000000000000
    · have count := toNat_next_cycles (c := c) (by omega)
      have others : run n c.next = .ok (after n c.next) := run_of_lt c.next_pc_lt (by omega)
      rw [step_of_lt pc (by omega)]
      show (∃ cause, run n c.next = .error cause) ↔ _
      rw [others]
      refine ⟨?_, fun full => absurd full (by omega)⟩
      rintro ⟨_, refused⟩
      cases refused
    · refine ⟨fun _ => .inr (Nat.not_lt.mp room), fun _ => ⟨.cycleCount, ?_⟩⟩
      by_cases first : c.cycles.toNat + 1 < 0x10000000000000000
      · have count := toNat_next_cycles first
        rw [step_of_lt pc first]
        exact run_of_le c.next_pc_lt (by omega)
      · rw [step_of_cycles_le pc (Nat.not_lt.mp first)]
        rfl

/-- **One instruction is refused from the last six addresses and at the last count**, and nowhere
else. -/
theorem exists_step_error_iff (c : Core) :
    (∃ cause, c.step = .error cause) ↔
      0xFFFFFFF9 < c.pc.toNat ∨ c.cycles.toNat = 0xFFFFFFFFFFFFFFFF := by
  have bound := c.cycles.toNat_lt
  have once : (∃ cause, c.step = .error cause) ↔ ∃ cause, run 1 c = .error cause := by
    rw [run_succ]
    cases c.step with
    | error cause => exact ⟨fun _ => ⟨cause, rfl⟩, fun _ => ⟨cause, rfl⟩⟩
    | ok r => exact ⟨nofun, nofun⟩
  rw [once, exists_run_error_iff Nat.one_pos]
  omega

/-- A frame starts at an address of 24 bits, so only its counter can be in the way. -/
theorem exists_runFrame_error_iff (c : Core) :
    (∃ cause, c.runFrame = .error cause) ↔ 0x10000000000000000 ≤ c.cycles.toNat + 65536 := by
  have low := c.atEntryPoint_pc_lt
  rw [Memory.addressSpace_eq] at low
  rw [runFrame, exists_run_error_iff (by decide), cycles_atEntryPoint, instructionsPerFrame_eq]
  omega

/-! ## What is done -/

/-- **An instruction behind the margin is read as zeros**, and changes nothing. -/
theorem step_high (high : 0x1000005 < c.pc.toNat) (done : c.step = .ok (inst, c')) :
    inst = ⟨0, 0, 0⟩ ∧ c'.memory = c.memory := by
  obtain ⟨pc, _, same⟩ := step_eq_ok done
  obtain ⟨rfl, rfl⟩ := Prod.mk.inj same
  obtain ⟨second, third⟩ := Instruction.toNat_fieldAddress pc
  have zero : ∀ a : UInt32, c.pc.toNat ≤ a.toNat → c.memory.readField a = 0 := by
    intro a behind
    exact c.memory.readField_of_lt (by rw [Memory.capacity_eq]; omega)
  have inst : c.instruction = ⟨0, 0, 0⟩ := by
    rw [instruction, Instruction.fetched, zero _ (Nat.le_refl _), zero _ (by omega),
      zero _ (by omega)]
  refine ⟨inst, ?_⟩
  show c.instruction.apply c.memory = c.memory
  rw [inst]
  exact c.memory.writeByte_readByte 0

/-- **Where an instruction leads and what it changes**, from wherever it is fetched. -/
theorem step_done (done : c.step = .ok (inst, c')) :
    c'.pc.toNat < 0x1000000 ∧ inst.dest.toNat < 0x1000000 ∧
      ∀ i, c'.memory.byteAt i
        = if i = inst.dest.toNat then c.memory.readByte inst.source else c.memory.byteAt i := by
  obtain ⟨_, _, same⟩ := step_eq_ok done
  obtain ⟨rfl, rfl⟩ := Prod.mk.inj same
  refine ⟨c.next_pc_lt, (Instruction.fetched_lt _ _).2.1, fun i => ?_⟩
  rw [← (offset_instruction c).2]
  exact c.instruction.byteAt_apply c.memory i

/-- A frame overwrites the program counter before it reads it. -/
theorem runFrame_of_pc (c : Core) (pc : UInt32) :
    runFrame ⟨⟨pc, c.cycles⟩, c.memory⟩ = c.runFrame := by
  have start : atEntryPoint ⟨⟨pc, c.cycles⟩, c.memory⟩ = c.atEntryPoint := rfl
  rw [runFrame, runFrame, start]

theorem runFrame_done (done : c.runFrame = .ok c') :
    c'.cycles.toNat = c.cycles.toNat + 65536 := by
  have room : ¬0x10000000000000000 ≤ c.cycles.toNat + 65536 := by
    intro full
    obtain ⟨_, refused⟩ := (exists_runFrame_error_iff c).mpr full
    rw [done] at refused
    cases refused
  rw [runFrame] at done
  rw [run_eq_ok done, toNat_after_cycles, cycles_atEntryPoint, instructionsPerFrame_eq]
  rw [cycles_atEntryPoint, instructionsPerFrame_eq]
  exact Nat.not_le.mp room

/-! ## Every core -/

/--
**What one instruction and one frame do, from every core.**

With every access guarded, an instruction is refused where its last field would lie behind the last
address of 32 bits, or the counter is full; a frame is refused where the counter has no room for all
its instructions, whatever the program counter is. No access is ever outside memory.

An instruction that is not refused leads to an address of 24 bits and changes one byte at most, and
that below the margin. One from wholly behind the margin changes nothing. A frame that is not refused
counts its instructions, and everything that it leaves is the same for every program counter.
-/
theorem refused_iff_from_anywhere (c : Core) :
    (Guarded.step (Guarded.ofCore c) = Guarded.allow (fun r => Guarded.ofCore r.2) c.step ∧
      ((∃ cause, c.step = .error cause) ↔
        0xFFFFFFF9 < c.pc.toNat ∨ c.cycles.toNat = 0xFFFFFFFFFFFFFFFF) ∧
      ∀ inst c', c.step = .ok (inst, c') →
        c'.pc.toNat < 0x1000000 ∧ inst.dest.toNat < 0x1000000 ∧
          (∀ i, c'.memory.byteAt i
            = if i = inst.dest.toNat then c.memory.readByte inst.source else c.memory.byteAt i) ∧
          (0x1000005 < c.pc.toNat → inst = ⟨0, 0, 0⟩ ∧ c'.memory = c.memory)) ∧
    Guarded.runFrame (Guarded.ofCore c) = Guarded.allow Guarded.ofCore c.runFrame ∧
      ((∃ cause, c.runFrame = .error cause) ↔
        0x10000000000000000 ≤ c.cycles.toNat + 65536) ∧
      ∀ c', c.runFrame = .ok c' → c'.cycles.toNat = c.cycles.toNat + 65536 ∧
        ∀ pc, Core.runFrame ⟨⟨pc, c.cycles⟩, c.memory⟩ = .ok c' := by
  refine ⟨⟨Guarded.step_ofCore c, exists_step_error_iff c, ?_⟩,
    Guarded.runFrame_ofCore c, exists_runFrame_error_iff c, ?_⟩
  · intro inst c' done
    obtain ⟨pc, dest, bytes⟩ := step_done done
    exact ⟨pc, dest, bytes, fun high => step_high high done⟩
  · intro c' done
    refine ⟨runFrame_done done, fun pc => ?_⟩
    rw [runFrame_of_pc, done]

/-- The last address that an instruction can be fetched from, and a counter with room for one frame:
both are done, and the frame as well from the last address of all, where no instruction is. -/
theorem refused_iff_from_anywhere_last :
    ((∃ c', Core.step ⟨⟨0xFFFFFFF9, 0xFFFFFFFFFFFEFFFF⟩, Memory.blank⟩ = .ok (⟨0, 0, 0⟩, c') ∧
      c'.memory = Memory.blank) ∧
    ∃ cause, Core.step ⟨⟨0xFFFFFFFF, 0xFFFFFFFFFFFEFFFF⟩, Memory.blank⟩ = .error cause) ∧
    ∃ c', Core.runFrame ⟨⟨0xFFFFFFF9, 0xFFFFFFFFFFFEFFFF⟩, Memory.blank⟩ = .ok c' ∧
      c'.cycles.toNat = 0xFFFFFFFFFFFFFFFF ∧
      Core.runFrame ⟨⟨0xFFFFFFFF, 0xFFFFFFFFFFFEFFFF⟩, Memory.blank⟩ = .ok c' := by
  obtain ⟨⟨_, refuses, does⟩, _, frameRefuses, frameDoes⟩ :=
    refused_iff_from_anywhere ⟨⟨0xFFFFFFF9, 0xFFFFFFFFFFFEFFFF⟩, Memory.blank⟩
  refine ⟨⟨?_, ?_⟩, ?_⟩
  · cases done : Core.step ⟨⟨0xFFFFFFF9, 0xFFFFFFFFFFFEFFFF⟩, Memory.blank⟩ with
    | error cause => exact absurd (refuses.mp ⟨cause, done⟩) (by decide)
    | ok r =>
      obtain ⟨_, _, _, high⟩ := does r.1 r.2 done
      obtain ⟨zero, same⟩ := high (by decide)
      exact ⟨r.2, congrArg Except.ok (Prod.ext zero rfl), same⟩
  · exact (refused_iff_from_anywhere _).1.2.1.mpr (.inl (by decide))
  · cases done : Core.runFrame ⟨⟨0xFFFFFFF9, 0xFFFFFFFFFFFEFFFF⟩, Memory.blank⟩ with
    | error cause => exact absurd (frameRefuses.mp ⟨cause, done⟩) (by decide)
    | ok c' =>
      obtain ⟨count, everywhere⟩ := frameDoes c' done
      exact ⟨c', rfl, count, everywhere 0xFFFFFFFF⟩

end Core

end ByteByteJump
