import ByteByteJump.Proofs.Agreement
import ByteByteJump.Proofs.Chain.Loop

/-!
# Bytes that no instruction looks at

What a run looks at is settled by the run itself, instruction by instruction, so it can be said
without knowing the program: bytes that it did not look at could have been others. In particular
the keys do not matter to a frame that neither executes an instruction over the first two bytes nor
copies from them. An instruction across the end of the address space has its last bytes in the
margin; it does not go on at address 0, where the keys are.

## Main statements

* `Instruction.fetch_writeWord_keys` — the keys are not in sight from any other address
* `Machine.executed_congr_keys` — two frames with different keys
* `Core.run_congr` — runs in memories that differ where the first of them does not look
-/

namespace ByteByteJump

/-- **No fetch behind the keys sees them**, also where it reaches the last byte of all. -/
theorem Instruction.fetch_writeWord_keys (m : Memory) {pc : UInt32} (w : UInt16)
    (behind : 2 ≤ pc.toNat) (low : pc.toNat < 0x1000000) :
    fetch (m.writeWord Header.keys w) pc = fetch m pc := by
  have fits : pc.toNat + 6 < 0x100000000 := by omega
  rw [fetch_of_lt fits, fetch_of_lt fits]
  refine congrArg Except.ok (fetched_congr fits fun i first _ => ?_)
  rw [Memory.byteAt_writeWord_keys, if_neg (by omega), if_neg (by omega)]

theorem Executed.two_le_of_reads {e : Executed} (blind : ¬e.Reads 0 ∧ ¬e.Reads 1) {i : Nat}
    (reads : e.Reads i) : 2 ≤ i := by
  rcases i with _ | _ | i
  · exact absurd reads blind.1
  · exact absurd reads blind.2
  · omega

namespace Machine

variable {m : Machine} {k : Keys}

theorem byteAt_started_congr (m : Machine) (k k' : Keys) {i : Nat} (behind : 2 ≤ i) :
    (m.started k).memory.byteAt i = (m.started k').memory.byteAt i := by
  rw [byteAt_started, byteAt_started, if_neg (by omega), if_neg (by omega), if_neg (by omega),
    if_neg (by omega)]

/-- A frame that does not look at the keys executes the same with others. -/
theorem executed_congr_keys (blind : ∀ e ∈ m.executed k, ¬e.Reads 0 ∧ ¬e.Reads 1) (k' : Keys) :
    m.executed k = m.executed k' ∧ (m.next k).stats.pc = (m.next k').stats.pc ∧
      (m.next k).memory.SameBehindKeys (m.next k').memory := by
  have entry : (m.started k).pc = (m.started k').pc := by rw [pc_started, pc_started]
  obtain ⟨same, pc, last⟩ := Core.after_congr (n := Core.instructionsPerFrame)
    (m.started_pc_lt k) entry fun e he i reads =>
      byteAt_started_congr m k k' (Executed.two_le_of_reads (blind e he) reads)
  rw [← core_next, ← core_next, ← stats_pc, ← stats_pc] at pc
  refine ⟨same, pc, ?_⟩
  intro i behind
  rw [memory_next, memory_next]
  exact last i (.inl (byteAt_started_congr m k k' behind))

end Machine

namespace Core

/--
**Bytes that a run does not look at do not matter to it.**

Two cores are at the same address, in memories that agree on every byte that the run of the first
one fetches or copies, as these bytes are before the run. Then both runs execute the same and end at
the same address. A byte that agreed before agrees after the run, and so does every written one.

So the keys do not matter to a frame that looks at neither of their bytes: with other keys it
executes the same, and memory is the same behind them. An instruction that starts behind the keys
looks at neither, however far up it is.
-/
theorem run_congr {c c' : Core} {n : Nat} (low : c.pc.toNat < 0x1000000) (pc : c.pc = c'.pc)
    (room : c.cycles.toNat + n < 0x10000000000000000)
    (room' : c'.cycles.toNat + n < 0x10000000000000000)
    (same : ∀ e ∈ executed n c, ∀ i, e.Reads i → c.memory.byteAt i = c'.memory.byteAt i) :
    (executed n c = executed n c' ∧
      ∃ d d', run n c = .ok d ∧ run n c' = .ok d' ∧ d.pc = d'.pc ∧
        ∀ i, (c.memory.byteAt i = c'.memory.byteAt i ∨ ∃ e ∈ executed n c, e.Writes i) →
          d.memory.byteAt i = d'.memory.byteAt i) ∧
    (∀ (m : Machine) (k k' : Keys), m.HasRoom 1 →
      (∀ e ∈ m.executed k, ¬e.Reads 0 ∧ ¬e.Reads 1) →
        m.executed k = m.executed k' ∧
          ∃ l l', m.tick k = .ok l ∧ m.tick k' = .ok l' ∧ l.stats.pc = l'.stats.pc ∧
            l.memory.SameBehindKeys l'.memory) ∧
    (∀ (m : Memory) (pc : UInt32) (w : UInt16), 2 ≤ pc.toNat → pc.toNat < 0x1000000 →
      Instruction.fetch (m.writeWord Header.keys w) pc = Instruction.fetch m pc) := by
  refine ⟨?_, ?_, ?_⟩
  · obtain ⟨instructions, lastPc, last⟩ := after_congr low pc same
    exact ⟨instructions, _, _, run_of_lt low room, run_of_lt (pc ▸ low) room', lastPc, last⟩
  · intro m k k' one blind
    obtain ⟨instructions, lastPc, last⟩ := Machine.executed_congr_keys blind k'
    exact ⟨instructions, _, _, one.tick_eq k, one.tick_eq k', lastPc, last⟩
  · intro m pc w behind low
    exact Instruction.fetch_writeWord_keys m w behind low

/-- A frame that executes the instruction at the last address of all over and over, with all keys
held and with none. -/
theorem run_congr_margin :
    ∃ img behind m,
      Image.empty.copyChain 0xFFFFFF [⟨0x10, 0x11⟩] 0xFFFFFF = .ok (img, behind) ∧
      Machine.initial.load (img.entryPoint 0xFFFFFF).bytes = .ok m ∧
      (m.started Keys.all).pc = 0xFFFFFF ∧
      (m.started Keys.all).memory.byteAt 0 ≠ (m.started Keys.empty).memory.byteAt 0 ∧
      (∀ e ∈ m.executed Keys.all, ¬e.Reads 0 ∧ ¬e.Reads 1) ∧
      (∃ d d', run instructionsPerFrame (m.started Keys.all) = .ok d ∧
        run instructionsPerFrame (m.started Keys.empty) = .ok d' ∧ d.pc = d'.pc) ∧
      m.executed Keys.all = m.executed Keys.empty ∧
        ∃ l l', m.tick Keys.all = .ok l ∧ m.tick Keys.empty = .ok l' ∧
          l.memory.SameBehindKeys l'.memory := by
  have loops : LoopsAt [⟨0x10, 0x11⟩] 0xFFFFFF :=
    ⟨by decide, by decide, by decide, by decide, by decide⟩
  obtain ⟨img, behind, memory, eq, load, holds⟩ := loops.exists_load_empty Machine.initial
  have one : (Machine.ofMemory memory).HasRoom 1 := Machine.hasRoom_ofMemory memory (by decide)
  generalize loaded : Machine.ofMemory memory = m at load one
  have holds : HoldsLoop (m.started Keys.all).memory 0xFFFFFF [⟨0x10, 0x11⟩] := by
    rw [Machine.memory_started, ← loaded]
    exact loops.holdsLoop_writeWord holds _
  have entry : (m.started Keys.all).pc = 0xFFFFFF := holds.entryPoint
  have blind : ∀ e ∈ m.executed Keys.all, ¬e.Reads 0 ∧ ¬e.Reads 1 := by
    intro e he
    obtain ⟨i, hi, pc, inst⟩ := loops.exists_of_mem_executed holds entry he
    have start : (0xFFFFFF : UInt32).toNat = 0xFFFFFF := rfl
    have source : Memory.offset e.instruction.source = 0x10 := by
      obtain rfl : i = 0 := Nat.lt_one_iff.mp hi
      rw [inst]
      rfl
    rw [start] at pc
    refine ⟨?_, ?_⟩ <;> rintro (⟨first, _⟩ | copied) <;> omega
  have same : ∀ e ∈ executed instructionsPerFrame (m.started Keys.all), ∀ i, e.Reads i →
      (m.started Keys.all).memory.byteAt i = (m.started Keys.empty).memory.byteAt i := by
    intro e he i reads
    exact Machine.byteAt_started_congr m _ _ (Executed.two_le_of_reads (blind e he) reads)
  have differ : (m.started Keys.all).memory.byteAt 0 ≠ (m.started Keys.empty).memory.byteAt 0 := by
    rw [Machine.byteAt_started, Machine.byteAt_started, if_pos rfl, if_pos rfl]
    decide
  obtain ⟨⟨_, d, d', run, run', pc, _⟩, keys, _⟩ :=
    run_congr (n := instructionsPerFrame) (m.started_pc_lt Keys.all)
      (by rw [Machine.pc_started, Machine.pc_started])
      (by rw [Machine.cycles_started]; exact one.cycles)
      (by rw [Machine.cycles_started]; exact one.cycles) same
  obtain ⟨instructions, l, l', tick, tick', _, last⟩ := keys m Keys.all Keys.empty one blind
  exact ⟨img, behind, m, eq, load, entry, differ, blind, ⟨d, d', run, run', pc⟩, instructions,
    l, l', tick, tick', last⟩

end Core

end ByteByteJump
