import ByteByteJump.Proofs.Run

/-!
# Memories that agree where a run looks

A run looks at the nine bytes of each instruction that it executes and at the byte that each of
them copies. Two memories may differ anywhere else. The run then goes the same way in both of them,
though its instructions are bytes that it may itself have written: what was written is the same
byte on both sides, and what was not written is as it was.

So bytes that agree at the start still agree at the end, and written bytes agree from then on.
Both facts are carried by one instruction (`next_congr`) and by an induction over the run
(`after_congr`), with the memories of the two runs growing more alike at each instruction.

## Main statements

* `Instruction.fetched_congr` — a fetch looks at nine bytes, those in the margin among them
* `Core.after_congr` — runs in memories that agree where the first run looks
* `Machine.next_congr` — a frame forgets everything but the program's bytes
-/

namespace ByteByteJump

/-! ## Fields -/

namespace Memory

variable {m m' : Memory}

theorem readField_congr {a : UInt32}
    (same : ∀ i, a.toNat ≤ i → i < a.toNat + 3 → m.byteAt i = m'.byteAt i) :
    m.readField a = m'.readField a := by
  unfold readField
  rw [same a.toNat (by omega) (by omega), same (a.toNat + 1) (by omega) (by omega),
    same (a.toNat + 2) (by omega) (by omega)]

/-- **Fields that lie in memory are equal exactly if their bytes are.** -/
theorem readField_eq_iff {a : UInt32} (room : a.toNat + 3 ≤ capacity) :
    m.readField a = m'.readField a ↔
      ∀ i, a.toNat ≤ i → i < a.toNat + 3 → m.byteAt i = m'.byteAt i := by
  rw [readField, readField, if_pos room, if_pos room, BigEndian.field_eq_iff, forall_field_iff]

theorem entryPoint_congr (same : ∀ i, 2 ≤ i → i < 5 → m.byteAt i = m'.byteAt i) :
    m.entryPoint = m'.entryPoint :=
  readField_congr (a := Header.entryPoint) fun i low high => same i low high

end Memory

/-- **A fetch looks at nine bytes**, and from the end of the address space on these are bytes of
the margin. -/
theorem Instruction.fetched_congr {m m' : Memory} {pc : UInt32} (h : pc.toNat + 6 < 0x100000000)
    (same : ∀ i, pc.toNat ≤ i → i < pc.toNat + 9 → m.byteAt i = m'.byteAt i) :
    fetched m pc = fetched m' pc := by
  obtain ⟨second, third⟩ := toNat_fieldAddress h
  have source : m.readField pc = m'.readField pc :=
    Memory.readField_congr fun i low high => same i low (by omega)
  have dest : m.readField (pc + 3) = m'.readField (pc + 3) :=
    Memory.readField_congr fun i low high => same i (by omega) (by omega)
  have next : m.readField (pc + 6) = m'.readField (pc + 6) :=
    Memory.readField_congr fun i low high => same i (by omega) (by omega)
  rw [fetched, fetched, source, dest, next]

/-! ## Instructions -/

namespace Core

variable {c c' : Core}

/-- **One instruction in two memories** that agree on what it looks at. What it writes is the same
byte in both, and every other byte stays what it was. -/
theorem next_congr (low : c.pc.toNat < Memory.addressSpace) (pc : c.pc = c'.pc)
    (same : ∀ i, Executed.Reads ⟨c.pc, c.instruction⟩ i →
      c.memory.byteAt i = c'.memory.byteAt i) :
    c.instruction = c'.instruction ∧ c.next.pc = c'.next.pc ∧
      ∀ i, c.memory.byteAt i = c'.memory.byteAt i ∨ Executed.Writes ⟨c.pc, c.instruction⟩ i →
        c.next.memory.byteAt i = c'.next.memory.byteAt i := by
  rw [Memory.addressSpace_eq] at low
  have inst : c.instruction = c'.instruction := by
    unfold instruction
    rw [← pc]
    exact Instruction.fetched_congr (by omega) fun i first last => same i (.inl ⟨first, last⟩)
  have copied : c.memory.readByte c.instruction.source
      = c'.memory.readByte c.instruction.source := same _ (.inr rfl)
  refine ⟨inst, congrArg Instruction.next inst, ?_⟩
  intro i equal
  show (c.instruction.apply c.memory).byteAt i = (c'.instruction.apply c'.memory).byteAt i
  rw [← inst, Instruction.byteAt_apply, Instruction.byteAt_apply, copied]
  by_cases written : i = Memory.offset c.instruction.dest
  · rw [if_pos written, if_pos written]
  · rw [if_neg written, if_neg written]
    exact equal.resolve_right written

/-- **A run in two memories** that agree on what it looks at. The hypothesis is on the bytes from
before the run; it is the first run that says which ones. -/
theorem after_congr {n : Nat} (low : c.pc.toNat < Memory.addressSpace) (pc : c.pc = c'.pc)
    (same : ∀ e ∈ executed n c, ∀ i, e.Reads i → c.memory.byteAt i = c'.memory.byteAt i) :
    executed n c = executed n c' ∧ (after n c).pc = (after n c').pc ∧
      ∀ i, (c.memory.byteAt i = c'.memory.byteAt i ∨ ∃ e ∈ executed n c, e.Writes i) →
        (after n c).memory.byteAt i = (after n c').memory.byteAt i := by
  induction n generalizing c c' with
  | zero =>
    refine ⟨rfl, pc, ?_⟩
    rintro i (equal | ⟨e, none, _⟩)
    · exact equal
    · cases none
  | succ n ih =>
    rw [executed_succ] at same
    obtain ⟨inst, nextPc, first⟩ := next_congr low pc fun i => same _ List.mem_cons_self i
    -- bytes that the rest of the run looks at agreed before, so they agree after one instruction
    obtain ⟨others, lastPc, last⟩ := ih c.next_pc_lt nextPc
      fun e he i reads => first i (.inl (same e (List.mem_cons_of_mem _ he) i reads))
    refine ⟨?_, lastPc, ?_⟩
    · rw [executed_succ, executed_succ, ← inst, ← pc, others]
    · rintro i (equal | ⟨e, he, writes⟩)
      · exact last i (.inl (first i (.inl equal)))
      · rw [executed_succ] at he
        rcases List.mem_cons.mp he with rfl | he
        · exact last i (.inl (first i (.inr writes)))
        · exact last i (.inr ⟨e, he, writes⟩)

theorem after_congr_cycles (n : Nat) (low : c.pc.toNat < Memory.addressSpace) (pc : c.pc = c'.pc)
    (memory : c.memory = c'.memory) :
    (after n c).pc = (after n c').pc ∧ (after n c).memory = (after n c').memory := by
  obtain ⟨_, lastPc, last⟩ := after_congr (n := n) low pc fun e _ i _ => by rw [memory]
  exact ⟨lastPc, Memory.ext fun i _ => last i (.inl (by rw [memory]))⟩

end Core

/-! ## Frames -/

/-- The same bytes but for those of the key state. -/
def Memory.SameBehindKeys (m m' : Memory) : Prop := ∀ i, 2 ≤ i → m.byteAt i = m'.byteAt i

theorem Memory.entryPoint_writeWord_keys (m : Memory) (w : UInt16) :
    (m.writeWord Header.keys w).entryPoint = m.entryPoint := by
  refine entryPoint_congr fun i low _ => ?_
  rw [byteAt_writeWord_keys, if_neg (by omega), if_neg (by omega)]

namespace Machine

variable {m n : Machine}

theorem pc_started (m : Machine) (keys : Keys) : (m.started keys).pc = m.memory.entryPoint :=
  m.memory.entryPoint_writeWord_keys keys.bits

theorem memory_started_congr (same : m.memory.SameBehindKeys n.memory) (keys : Keys) :
    (m.started keys).memory = (n.started keys).memory := by
  apply Memory.ext
  intro i _
  -- the key state covers the only bytes in which the memories may differ
  rw [byteAt_started, byteAt_started]
  by_cases first : i = 0
  · rw [if_pos first, if_pos first]
  · by_cases second : i = 1
    · rw [if_neg first, if_neg first, if_pos second, if_pos second]
    · rw [if_neg first, if_neg first, if_neg second, if_neg second]
      exact same i (by omega)

/-- **A frame is a function of the program's bytes and of the keys.** -/
theorem next_congr (same : m.memory.SameBehindKeys n.memory) (keys : Keys) :
    (m.next keys).memory = (n.next keys).memory ∧
      (m.next keys).stats.pc = (n.next keys).stats.pc ∧
      (m.next keys).frame = (n.next keys).frame ∧
      (m.next keys).samples = (n.next keys).samples := by
  have entry : (m.started keys).pc = (n.started keys).pc := by
    rw [pc_started, pc_started]
    exact Memory.entryPoint_congr fun i low _ => same i low
  obtain ⟨pc, memory⟩ := Core.after_congr_cycles Core.instructionsPerFrame
    (m.started_pc_lt keys) entry (memory_started_congr same keys)
  rw [← memory_next, ← memory_next] at memory
  rw [← core_next, ← core_next, ← stats_pc, ← stats_pc] at pc
  refine ⟨memory, pc, ?_, ?_⟩
  · rw [frame_next, frame_next, memory]
  · rw [samples_next, samples_next, memory]

theorem after_sameBehindKeys (same : m.memory.SameBehindKeys n.memory) (keys : List Keys) :
    (m.after keys).memory.SameBehindKeys (n.after keys).memory := by
  induction keys generalizing m n with
  | nil =>
    rw [after_nil, after_nil]
    exact same
  | cons k rest ih =>
    rw [after_cons, after_cons]
    refine ih fun i _ => ?_
    rw [(next_congr same k).1]

end Machine

end ByteByteJump
