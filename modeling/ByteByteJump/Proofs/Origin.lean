import ByteByteJump.Proofs.Run

/-!
# Where the bytes of memory come from

A program can move bytes and nothing else. What it moves where is up to the bytes themselves, and a
frame may rewrite its own instructions as it goes; but seen from its end, every byte of memory is
one that was there when the frame started, at the address that `Executed.origin` names. So the bytes
in memory at any time are bytes of the image, bytes of key states, and zeros.

## Main statements

* `Core.exists_last_write` — a byte that a run wrote is what the last write to it read
* `Core.byteAt_after` — a byte after a run is the one at its origin
* `Machine.forall_byteAt_play` — what is true of all bytes and of the keys stays true of all bytes
* `Machine.tick_relabels` — all that frames do to memory
-/

namespace ByteByteJump

/-! ## Origins -/

namespace Executed

/-- Where the byte now at `a` was before the first `i` of some instructions. -/
def origin (es : List Executed) (i a : Nat) : Nat :=
  Copy.origin ((es.take i).map fun e => e.instruction.copy) a

theorem origin_zero (es : List Executed) (a : Nat) : origin es 0 a = a := rfl

/-- One more instruction: what lies at its destination comes from where its source did. -/
theorem origin_succ {es : List Executed} {i : Nat} (hi : i < es.length) (a : Nat) :
    origin es (i + 1) a
      = if a = Memory.offset es[i].instruction.dest
        then origin es i (Memory.offset es[i].instruction.source) else origin es i a := by
  rw [origin, List.take_succ_eq_append_getElem hi, List.map_append, List.map_cons, List.map_nil,
    Copy.origin_append_singleton]
  rfl

end Executed

/-! ## Runs -/

namespace Core

theorem step_after {c : Core} {n i : Nat} (low : c.pc.toNat < Memory.addressSpace)
    (room : c.cycles.toNat + n < 0x10000000000000000) (hi : i < (executed n c).length) :
    run i c = .ok (after i c) ∧
      (after i c).step = .ok ((executed n c)[i].instruction, (after i c).next) := by
  have inside : i < n := by
    rw [length_executed] at hi
    exact hi
  have here := after_pc_lt i low
  have count := toNat_after_cycles i (c := c) (by omega)
  rw [Memory.addressSpace_eq] at here
  refine ⟨run_of_lt low (by omega), ?_⟩
  rw [getElem_executed hi]
  exact step_of_lt (by omega) (by omega)

/-- What is executed has addresses of 24 bits, whatever bytes it was fetched from. -/
theorem offset_instruction (c : Core) :
    Memory.offset c.instruction.source = c.instruction.source.toNat ∧
      Memory.offset c.instruction.dest = c.instruction.dest.toNat := by
  obtain ⟨source, dest, _⟩ := Instruction.fetched_lt c.memory c.pc
  exact ⟨Memory.offset_of_lt source, Memory.offset_of_lt dest⟩

theorem writes_iff {c : Core} {n : Nat} {e : Executed} (he : e ∈ executed n c) (a : Nat) :
    e.Writes a ↔ e.instruction.dest.toNat = a := by
  obtain ⟨i, _, rfl⟩ := exists_of_mem_executed he
  rw [Executed.Writes, (offset_instruction _).2]
  exact eq_comm

/-- **A byte after a run is the one at its origin** before the first instruction. -/
theorem byteAt_after (n : Nat) (c : Core) (a : Nat) :
    (after n c).memory.byteAt a = c.memory.byteAt (Executed.origin (executed n c) n a) := by
  have all : (executed n c).take n = executed n c :=
    List.take_of_length_le (Nat.le_of_eq (length_executed n c))
  rw [memory_after, Copy.byteAt_applyAll, Executed.origin, all]

theorem byteAt_after_of_unwritten {n a : Nat} {c : Core}
    (unwritten : ∀ e ∈ executed n c, ¬e.Writes a) :
    (after n c).memory.byteAt a = c.memory.byteAt a := by
  rw [memory_after]
  refine Copy.byteAt_applyAll_of_forall_ne ?_ c.memory
  intro copy hcopy
  obtain ⟨e, he, rfl⟩ := List.mem_map.mp hcopy
  exact unwritten e he

theorem byteAt_after_succ (n a : Nat) (c : Core) :
    (after (n + 1) c).memory.byteAt a
      = if a = Memory.offset (after n c).instruction.dest
        then (after n c).memory.readByte (after n c).instruction.source
        else (after n c).memory.byteAt a := by
  rw [after_succ_last]
  exact Instruction.byteAt_apply _ _ a

/-- **What a run wrote is what the last write read.** -/
theorem exists_last_write {n a : Nat} {c : Core}
    (written : ∃ i < n, Memory.offset (after i c).instruction.dest = a) :
    ∃ i < n, Memory.offset (after i c).instruction.dest = a ∧
      (∀ j, i < j → j < n → Memory.offset (after j c).instruction.dest ≠ a) ∧
      (after n c).memory.byteAt a
        = (after i c).memory.readByte (after i c).instruction.source := by
  -- by the last instruction: either it is the write, or the run without it has the same last write
  induction n with
  | zero =>
    obtain ⟨_, none, _⟩ := written
    exact absurd none (Nat.not_lt_zero _)
  | succ n ih =>
    by_cases writes : Memory.offset (after n c).instruction.dest = a
    · refine ⟨n, Nat.lt_succ_self n, writes, ?_, ?_⟩
      · intro j later inside
        omega
      · rw [byteAt_after_succ, if_pos writes.symm]
    · obtain ⟨k, hk, there⟩ := written
      have before : k < n := by
        rcases Nat.lt_succ_iff_lt_or_eq.mp hk with hk | rfl
        · exact hk
        · exact absurd there writes
      obtain ⟨i, hi, this, none, byte⟩ := ih ⟨k, before, there⟩
      refine ⟨i, Nat.lt_succ_of_lt hi, this, ?_, ?_⟩
      · intro j later inside
        rcases Nat.lt_succ_iff_lt_or_eq.mp inside with inside | rfl
        · exact none j later inside
        · exact writes
      · rw [byteAt_after_succ, if_neg (Ne.symm writes)]
        exact byte

/-- What a run from `c` does to memory, byte by byte, where `memory` is what it leaves. -/
structure Relabels (c : Core) (n : Nat) (memory : Memory) : Prop where
  length_executed : (executed n c).length = n
  origin_zero : ∀ a, Executed.origin (executed n c) 0 a = a
  origin_succ : ∀ i, (hi : i < (executed n c).length) → ∀ a,
    Executed.origin (executed n c) (i + 1) a
      = if a = (executed n c)[i].instruction.dest.toNat
        then Executed.origin (executed n c) i (executed n c)[i].instruction.source.toNat
        else Executed.origin (executed n c) i a
  byteAt_eq : ∀ a, memory.byteAt a = c.memory.byteAt (Executed.origin (executed n c) n a)
  /-- A byte that is no destination is as it was before the run. -/
  unwritten : ∀ a, (∀ e ∈ executed n c, e.instruction.dest.toNat ≠ a) →
    memory.byteAt a = c.memory.byteAt a
  /-- A byte that is one is what the last instruction with this destination read. -/
  written : ∀ a, (∃ e ∈ executed n c, e.instruction.dest.toNat = a) →
    ∃ i, ∃ hi : i < (executed n c).length, (executed n c)[i].instruction.dest.toNat = a ∧
      (∀ j, (hj : j < (executed n c).length) → i < j →
        (executed n c)[j].instruction.dest.toNat ≠ a) ∧
      ∃ d d', run i c = .ok d ∧ d.step = .ok ((executed n c)[i].instruction, d') ∧
        memory.byteAt a = d.memory.readByte (executed n c)[i].instruction.source

theorem relabels_after {n : Nat} {c : Core} (low : c.pc.toNat < Memory.addressSpace)
    (room : c.cycles.toNat + n < 0x10000000000000000) : c.Relabels n (after n c).memory where
  length_executed := length_executed n c
  origin_zero := Executed.origin_zero _
  origin_succ := by
    intro i hi a
    obtain ⟨source, dest⟩ := offset_instruction (after i c)
    rw [Executed.origin_succ hi]
    simp only [getElem_executed, source, dest]
  byteAt_eq := byteAt_after n c
  unwritten := by
    intro a none
    exact byteAt_after_of_unwritten fun e he writes => none e he ((writes_iff he a).mp writes)
  written := by
    rintro a ⟨e, he, there⟩
    obtain ⟨k, hk, rfl⟩ := exists_of_mem_executed he
    have dest : ∀ j, Memory.offset (after j c).instruction.dest
        = (after j c).instruction.dest.toNat := fun j => (offset_instruction _).2
    obtain ⟨i, hi, writes, later, byte⟩ := exists_last_write ⟨k, hk, (dest k).trans there⟩
    rw [← length_executed n c] at hi
    obtain ⟨run, step⟩ := step_after low room hi
    refine ⟨i, hi, ?_, ?_, _, _, run, step, ?_⟩
    · rw [getElem_executed, ← dest]
      exact writes
    · intro j hj after
      rw [getElem_executed, ← dest]
      rw [length_executed] at hj
      exact later j after hj
    · rw [getElem_executed]
      exact byte

end Core

/-! ## Values -/

namespace Machine

variable {m : Machine} {k : Keys}

section Values

variable {P : UInt8 → Prop}

theorem forall_byteAt_next (start : ∀ a, P (m.memory.byteAt a))
    (high : P (BigEndian.wordHigh k.bits)) (low : P (BigEndian.wordLow k.bits)) (a : Nat) :
    P ((m.next k).memory.byteAt a) := by
  rw [memory_next, Core.byteAt_after, byteAt_started]
  split
  · exact high
  · split
    · exact low
    · exact start _

theorem forall_byteAt_play {last : Machine} {keys : List Keys} (run : m.play keys = .ok last)
    (start : ∀ a, P (m.memory.byteAt a))
    (held : ∀ k ∈ keys, P (BigEndian.wordHigh k.bits) ∧ P (BigEndian.wordLow k.bits)) (a : Nat) :
    P (last.memory.byteAt a) := by
  induction keys generalizing m with
  | nil =>
    rw [play_nil] at run
    obtain rfl := Except.ok.inj run
    exact start a
  | cons k rest ih =>
    rw [play_cons] at run
    obtain ⟨next, once, others⟩ := exists_of_bind_eq_ok run
    obtain ⟨_, _, rfl⟩ := tick_eq_ok once
    obtain ⟨high, low⟩ := held k List.mem_cons_self
    exact ih others (forall_byteAt_next start high low)
      fun k hk => held k (List.mem_cons_of_mem _ hk)

end Values

/-- The bytes that a load and frames bring into memory: zeros, those of the image, and those of the
key states. -/
def Supplied (image : ByteArray) (keys : List Keys) (v : UInt8) : Prop :=
  v = 0 ∨ (∃ j < image.size, v = Bytes.get image j) ∨
    ∃ k ∈ keys, v.toNat = k.bits.toNat / 256 ∨ v.toNat = k.bits.toNat % 256

theorem supplied_ofImage {image : ByteArray} (fits : image.size ≤ Memory.capacity)
    (keys : List Keys) (a : Nat) :
    Supplied image keys ((ofMemory (Memory.ofImage image fits)).memory.byteAt a) := by
  have loaded : (ofMemory (Memory.ofImage image fits)).memory.byteAt a = Bytes.get image a :=
    Memory.byteAt_ofImage image fits a
  rw [loaded]
  by_cases inside : a < image.size
  · exact .inr (.inl ⟨a, inside, rfl⟩)
  · exact .inl (Bytes.get_of_le (Nat.not_lt.mp inside))

theorem supplied_keys {image : ByteArray} {keys : List Keys} (hk : k ∈ keys) :
    Supplied image keys (BigEndian.wordHigh k.bits) ∧
      Supplied image keys (BigEndian.wordLow k.bits) :=
  ⟨.inr (.inr ⟨k, hk, .inl (BigEndian.toNat_wordHigh _)⟩),
    .inr (.inr ⟨k, hk, .inr (BigEndian.toNat_wordLow _)⟩)⟩

/-! ## All that frames do to memory -/

/--
**Frames only move bytes.**

A frame that the counters have room for writes the keys to the first two bytes and leaves at every
address the byte that was then at its origin. The origins follow the instructions one by one,
although these are themselves bytes that the frame may have moved. So after a load and any number of
frames there is no byte in memory that was not in the image or in a key state, but zero.
-/
theorem tick_relabels (m : Machine) (k : Keys) (room : m.HasRoom 1) :
    ((∀ a, (m.started k).memory.byteAt a
        = if a = 0 then UInt8.ofNat (k.bits.toNat / 256)
          else if a = 1 then UInt8.ofNat (k.bits.toNat % 256) else m.memory.byteAt a) ∧
      ∃ m', m.tick k = .ok m' ∧
        (m.started k).Relabels Core.instructionsPerFrame m'.memory ∧
        ((∀ e ∈ m.executed k, e.instruction.dest.toNat ≠ 0 ∧ e.instruction.dest.toNat ≠ 1) →
          m'.memory.readWord Header.keys = k.bits)) ∧
    ∀ (start : Machine) (image : ByteArray), image.size ≤ Memory.capacity →
      ∃ loaded, start.load image = .ok loaded ∧
        (∀ keys : List Keys, keys.length < 0x1000000000000 →
          ∃ last, loaded.play keys = .ok last) ∧
        ∀ (keys : List Keys) (last : Machine), loaded.play keys = .ok last →
          ∀ a, Supplied image keys (last.memory.byteAt a) := by
  have relabels : (m.started k).Relabels Core.instructionsPerFrame (m.next k).memory := by
    rw [memory_next]
    exact Core.relabels_after (m.started_pc_lt k) (by rw [cycles_started]; exact room.cycles)
  refine ⟨⟨?_, _, room.tick_eq k, relabels, ?_⟩, ?_⟩
  · intro a
    rw [byteAt_started, BigEndian.wordHigh_eq_ofNat, BigEndian.wordLow_eq_ofNat]
  · intro kept
    have high := relabels.unwritten 0 fun e he => (kept e he).1
    have low := relabels.unwritten 1 fun e he => (kept e he).2
    show BigEndian.word ((m.next k).memory.byteAt 0) ((m.next k).memory.byteAt 1) = k.bits
    rw [high, low, byteAt_started, byteAt_started, if_pos rfl, if_neg (by decide), if_pos rfl,
      BigEndian.word_bytes]
  · intro start image fits
    refine ⟨_, start.load_of_le fits, ?_, ?_⟩
    · intro keys few
      exact ⟨_, play_ofMemory _ few⟩
    · intro keys last run a
      exact forall_byteAt_play run (supplied_ofImage fits keys) (fun k hk => supplied_keys hk) a

/-- A blank memory and all keys held: the instructions that these bytes make move them about, and
every byte is still one of the two that there were. -/
theorem tick_relabels_blank :
    initial.HasRoom 1 ∧ ∃ m', initial.tick Keys.all = .ok m' ∧
      ∀ a, m'.memory.byteAt a = 0 ∨ m'.memory.byteAt a = 0xFF := by
  have room : initial.HasRoom 1 := ⟨by decide, by decide⟩
  obtain ⟨⟨started, m', tick, relabels, _⟩, _⟩ := tick_relabels initial Keys.all room
  refine ⟨room, m', tick, fun a => ?_⟩
  have blank : ∀ b, initial.memory.byteAt b = 0 := Memory.byteAt_blank
  rw [relabels.byteAt_eq, started, blank]
  split
  · exact .inr (by decide)
  · split
    · exact .inr (by decide)
    · exact .inl rfl

end Machine

end ByteByteJump
