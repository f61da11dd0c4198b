import ByteByteJump.Proofs.Guarded
import ByteByteJump.Proofs.Reachable

/-!
# How long a host can go on

No program can stop a machine, however broken: every index and every range lies in its array, and
every address is a sum that fits. What stops a machine in the end is a counter, and because a frame
is `2 ^ 16` instructions, the instruction counter is full first, in the last instruction of frame
`2 ^ 48`. The frame counter never gets near its own end.

## Main statements

* `Coherent.tick_of_lt`, `Coherent.tick_of_eq` — the two cases, for coherent machines
* `Reachable.tick_isOk_iff` — the bound, for everything that a host can bring about
-/

namespace ByteByteJump.Machine

/-! ## Coherent machines -/

theorem Coherent.tick_of_lt {m : Machine} (h : m.Coherent) (keys : Keys)
    (few : m.frameCount.toNat < 0xFFFFFFFFFFFF) : m.tick keys = .ok (m.next keys) :=
  (h.hasRoom (Nat.succ_lt_succ few)).tick_eq keys

/-- The frame that is refused executes all its instructions but the last. -/
theorem Coherent.tick_of_eq {m : Machine} (h : m.Coherent) (keys : Keys)
    (full : m.frameCount.toNat = 0xFFFFFFFFFFFF) :
    m.tick keys = .error .cycleCount ∧
      ∃ c, Core.run 65535 (m.started keys) = .ok c ∧ c.step = .error .cycleCount := by
  have cycles := h.cycles_eq
  rw [Core.instructionsPerFrame_eq, full] at cycles
  have started : (m.started keys).cycles.toNat = 0xFFFFFFFFFFFF0000 := by
    rw [cycles_started, cycles]
  refine ⟨tick_of_le keys ?_, Core.after 65535 (m.started keys), ?_, ?_⟩
  · rw [Core.instructionsPerFrame_eq]
    omega
  · exact Core.run_of_lt (m.started_pc_lt keys) (by rw [started]; decide)
  · have last : (Core.after 65535 (m.started keys)).cycles.toNat = 0xFFFFFFFFFFFFFFFF := by
      rw [Core.toNat_after_cycles 65535 (by rw [started]; decide), started]
    have low := Core.after_pc_lt 65535 (m.started_pc_lt keys)
    rw [Memory.addressSpace_eq] at low
    exact Core.step_of_cycles_le (by omega) (by omega)

/-- The frame after fewer than `2 ^ 48 - 1` frames of a machine that was just loaded. -/
theorem tick_after_ofMemory (memory : Memory) {keys : List Keys}
    (few : keys.length + 1 < 0x1000000000000) (k : Keys) :
    ((ofMemory memory).after keys).tick k = .ok (((ofMemory memory).after keys).next k) := by
  have room : (ofMemory memory).HasRoom (keys.length + 1) := hasRoom_ofMemory memory few
  exact room.after.tick_eq k

/-! ## What a host can bring about -/

/-- The state in which the bound shows is one that a host can bring about. -/
theorem reachable_full : (initial.after (List.replicate 0xFFFFFFFFFFFF Keys.empty)).Reachable ∧
    (initial.after (List.replicate 0xFFFFFFFFFFFF Keys.empty)).frameCount.toNat
      = 0xFFFFFFFFFFFF := by
  have length : (List.replicate 0xFFFFFFFFFFFF Keys.empty).length = 0xFFFFFFFFFFFF :=
    List.length_replicate
  refine ⟨reachable_initial.play (play_of_lt ?_ ?_), ?_⟩
  · rw [length]
    decide
  · rw [length]
    decide
  · rw [toNat_after_frameCount _ (by rw [length]; decide), length]
    rfl

/--
**No program can stop a machine before its counter does.**

The sizes, the program counter and the tie between the counters hold after any loads and frames. A
tick of the machine with every access guarded is a tick of this machine, so neither an index nor a
range stops it. A sum does, from `2 ^ 48 - 1` frames on and not before: that of the instruction
counter, in the last instruction of the frame.
-/
theorem Reachable.tick_isOk_iff {m : Machine} (h : m.Reachable) (keys : Keys) :
    (m.memory.bytes.size = 0x1000008 ∧ m.frame.bytes.size = 196608 ∧
      m.stats.pc.toNat < 0x1000000 ∧
      m.stats.totalCycles.toNat = 65536 * m.stats.frameCount.toNat ∧
      m.stats.frameCount.toNat ≤ 0xFFFFFFFFFFFF) ∧
    Guarded.tick (Guarded.ofMachine m) keys = Guarded.allow Guarded.ofMachine (m.tick keys) ∧
    ((∃ m', m.tick keys = .ok m') ↔ m.frameCount.toNat < 0xFFFFFFFFFFFF) ∧
    (m.frameCount.toNat = 0xFFFFFFFFFFFF → m.tick keys = .error .cycleCount ∧
      ∃ c, Core.run 65535 (m.started keys) = .ok c ∧ c.step = .error .cycleCount) := by
  have coherent := h.coherent
  have bound := coherent.frameCount_lt
  refine ⟨⟨m.memory.size_bytes, m.frame.size_bytes, coherent.pc_lt, coherent.cycles_eq, ?_⟩,
    Guarded.tick_ofMachine m keys, ⟨?_, ?_⟩, coherent.tick_of_eq keys⟩
  · show m.frameCount.toNat ≤ _
    omega
  · rintro ⟨m', run⟩
    refine Nat.lt_of_le_of_ne (Nat.le_of_lt_succ bound) fun full => ?_
    rw [(coherent.tick_of_eq keys full).1] at run
    exact nomatch run
  · intro few
    exact ⟨_, coherent.tick_of_lt keys few⟩

/-- The host that never rests: it is refused only frame `2 ^ 48`. -/
theorem tick_isOk_iff_full :
    (initial.after (List.replicate 0xFFFFFFFFFFFF Keys.empty)).Reachable ∧
      (initial.after (List.replicate 0xFFFFFFFFFFFF Keys.empty)).frameCount.toNat
        = 0xFFFFFFFFFFFF ∧
      (initial.after (List.replicate 0xFFFFFFFFFFFF Keys.empty)).tick Keys.all
        = .error .cycleCount :=
  ⟨reachable_full.1, reachable_full.2,
    ((Reachable.tick_isOk_iff reachable_full.1 Keys.all).2.2.2 reachable_full.2).1⟩

end ByteByteJump.Machine
