import ByteByteJump.Proofs.Agreement
import ByteByteJump.Proofs.Chain.Layout
import ByteByteJump.Proofs.TickBound

/-!
# Chains that loop

A chain whose last instruction goes on at its first makes its copies over and over. It does so in
every frame, if no copy goes to the chain itself or to the entry point: then the bytes that make it
loop are the same at all times, and only the program counter and the other bytes move.

Frames have `2 ^ 16` instructions whatever the number of copies, so a frame ends wherever the chain
has got to, and the next one starts it anew.

## Main statements

* `LoopsAt.next_eq` — one instruction: copy `i`, then copy `i + 1` or the first one
* `LoopsAt.after_eq` — any number of instructions
* `LoopsAt.tick_copyChain` — frames of an image with a looping chain
-/

namespace ByteByteJump

/-- The bytes of a loop of `n` instructions: its entry point and its instructions. -/
def LoopByte (a : UInt32) (n i : Nat) : Prop :=
  (2 ≤ i ∧ i < 5) ∨ (a.toNat ≤ i ∧ i < a.toNat + 9 * n)

instance (a : UInt32) (n i : Nat) : Decidable (LoopByte a n i) :=
  inferInstanceAs (Decidable (_ ∨ _))

/-- Copies that can loop at an address: there is room for them behind the header, and they go
nowhere where they would disturb the loop. -/
structure LoopsAt (copies : List Copy) (a : UInt32) : Prop where
  nonempty : copies ≠ []
  small : ∀ c ∈ copies, c.source.toNat < 0x1000000 ∧ c.dest.toNat < 0x1000000
  low : 5 ≤ a.toNat
  room : a.toNat + 9 * copies.length ≤ Memory.capacity
  clear : ∀ c ∈ copies, ¬LoopByte a copies.length c.dest.toNat

instance (copies : List Copy) (a : UInt32) : Decidable (LoopsAt copies a) :=
  decidable_of_iff (copies ≠ [] ∧
      (∀ c ∈ copies, c.source.toNat < 0x1000000 ∧ c.dest.toNat < 0x1000000) ∧ 5 ≤ a.toNat ∧
      a.toNat + 9 * copies.length ≤ Memory.capacity ∧
      ∀ c ∈ copies, ¬LoopByte a copies.length c.dest.toNat)
    ⟨fun ⟨nonempty, small, low, room, clear⟩ => ⟨nonempty, small, low, room, clear⟩,
      fun h => ⟨h.nonempty, h.small, h.low, h.room, h.clear⟩⟩

/-- A memory with the loop in it, which every frame enters at its first instruction. -/
structure HoldsLoop (m : Memory) (a : UInt32) (copies : List Copy) : Prop where
  chain : ChainAt m.byteAt a a copies
  entryPoint : m.entryPoint = a

theorem HoldsLoop.congr {m m' : Memory} {a : UInt32} {copies : List Copy}
    (h : HoldsLoop m a copies) (same : ∀ i, LoopByte a copies.length i → m'.byteAt i = m.byteAt i) :
    HoldsLoop m' a copies where
  chain := h.chain.congr fun i low high => same i (.inr ⟨low, high⟩)
  entryPoint := by
    rw [Memory.entryPoint_congr fun i low high => same i (.inl ⟨low, high⟩), h.entryPoint]

namespace LoopsAt

variable {copies : List Copy} {a : UInt32}

theorem length_pos (h : LoopsAt copies a) : 0 < copies.length :=
  List.length_pos_iff.mpr h.nonempty

/-- Every instruction of the loop is followed by the next one, and the last by the first. -/
theorem toNat_chainNext (h : LoopsAt copies a) {i : Nat} (hi : i < copies.length) :
    (chainNext a a copies.length i).toNat = a.toNat + 9 * ((i + 1) % copies.length) := by
  have room := h.room
  rw [Memory.capacity_eq] at room
  by_cases inside : i + 1 < copies.length
  · rw [toNat_chainNext_of_lt (by omega) inside, Nat.mod_eq_of_lt inside]
  · rw [chainNext, if_neg inside, show i + 1 = copies.length by omega, Nat.mod_self]
    rfl

theorem start_lt (h : LoopsAt copies a) : a.toNat < 0x1000000 := by
  have room := h.room
  have some := h.length_pos
  rw [Memory.capacity_eq] at room
  omega

theorem instruction_eq (h : LoopsAt copies a) {c : Core} (holds : HoldsLoop c.memory a copies)
    {i : Nat} (hi : i < copies.length) (pc : c.pc.toNat = a.toNat + 9 * i) :
    c.instruction = ⟨copies[i].source, copies[i].dest, chainNext a a copies.length i⟩ := by
  obtain ⟨source, dest⟩ := h.small _ (List.getElem_mem hi)
  exact holds.chain.fetched_eq h.room h.start_lt hi source dest pc

/-- A copy of the list leaves the loop as it is. -/
theorem holdsLoop_apply (h : LoopsAt copies a) {m : Memory} (holds : HoldsLoop m a copies)
    {c : Copy} (mem : c ∈ copies) : HoldsLoop (c.apply m) a copies := by
  refine holds.congr fun i loop => ?_
  rw [Copy.byteAt_apply, Memory.offset_of_lt (h.small c mem).2, if_neg]
  rintro rfl
  exact h.clear c mem loop

/-- Neither does the key state touch it: that lies before the entry point. -/
theorem holdsLoop_writeWord (h : LoopsAt copies a) {m : Memory} (holds : HoldsLoop m a copies)
    (w : UInt16) : HoldsLoop (m.writeWord Header.keys w) a copies := by
  refine holds.congr fun i loop => ?_
  have behind : 2 ≤ i := by
    have low := h.low
    rcases loop with ⟨entry, _⟩ | ⟨chain, _⟩ <;> omega
  rw [Memory.byteAt_writeWord_keys, if_neg (by omega), if_neg (by omega)]

/-! ## Instructions -/

/-- **One instruction of the loop** makes its copy and goes on at the next one. -/
theorem next_eq (h : LoopsAt copies a) {c : Core} (holds : HoldsLoop c.memory a copies)
    {i : Nat} (hi : i < copies.length) (pc : c.pc.toNat = a.toNat + 9 * i) :
    c.next.memory = copies[i].apply c.memory ∧
      c.next.pc.toNat = a.toNat + 9 * ((i + 1) % copies.length) ∧
      HoldsLoop c.next.memory a copies := by
  have inst := h.instruction_eq holds hi pc
  have memory : c.next.memory = copies[i].apply c.memory := by
    rw [Core.next, inst]
    rfl
  refine ⟨memory, ?_, ?_⟩
  · show c.instruction.next.toNat = _
    rw [inst, h.toNat_chainNext hi]
  · rw [memory]
    exact h.holdsLoop_apply holds (List.getElem_mem hi)

/-- **Any number of instructions of the loop**, from its first one on. -/
theorem after_eq (h : LoopsAt copies a) {c : Core} (holds : HoldsLoop c.memory a copies)
    (pc : c.pc = a) (k : Nat) :
    (Core.after k c).memory = Copy.applyAll (Copy.repeated copies k) c.memory ∧
      (Core.after k c).pc.toNat = a.toNat + 9 * (k % copies.length) ∧
      HoldsLoop (Core.after k c).memory a copies := by
  induction k with
  | zero =>
    refine ⟨rfl, ?_, holds⟩
    rw [Nat.zero_mod]
    exact congrArg UInt32.toNat pc
  | succ k ih =>
    obtain ⟨memory, phase, still⟩ := ih
    -- the loop is whole so far, so the instruction that was reached is one of its own
    have hk : k % copies.length < copies.length := Nat.mod_lt _ h.length_pos
    obtain ⟨nextMemory, nextPhase, nextStill⟩ := h.next_eq still hk phase
    rw [Core.after_succ_last]
    refine ⟨?_, ?_, nextStill⟩
    · rw [nextMemory, memory, Copy.repeated_succ hk, Copy.applyAll_append]
      rfl
    · rw [nextPhase, Nat.mod_add_mod]

/-- What a loop executes are its own instructions. -/
theorem exists_of_mem_executed (h : LoopsAt copies a) {c : Core}
    (holds : HoldsLoop c.memory a copies) (pc : c.pc = a) {n : Nat} {e : Executed}
    (he : e ∈ Core.executed n c) :
    ∃ i, ∃ hi : i < copies.length, e.pc.toNat = a.toNat + 9 * i ∧
      e.instruction = ⟨copies[i].source, copies[i].dest, chainNext a a copies.length i⟩ := by
  obtain ⟨k, _, rfl⟩ := Core.exists_of_mem_executed he
  obtain ⟨_, phase, still⟩ := h.after_eq holds pc k
  have hi : k % copies.length < copies.length := Nat.mod_lt _ h.length_pos
  exact ⟨_, hi, phase, h.instruction_eq still hi phase⟩

/-! ## Frames -/

/-- One frame of the loop: the copies that fit into it, made in the memory with the key state. -/
theorem machine_next_eq (h : LoopsAt copies a) {m : Machine} (holds : HoldsLoop m.memory a copies)
    (keys : Keys) :
    (m.next keys).memory = Copy.applyAll (Copy.repeated copies 65536)
        (m.memory.writeWord Header.keys keys.bits) ∧
      (m.next keys).core.pc.toNat = a.toNat + 9 * (65536 % copies.length) ∧
      HoldsLoop (m.next keys).memory a copies := by
  have latched : HoldsLoop (m.started keys).memory a copies := by
    rw [Machine.memory_started]
    exact h.holdsLoop_writeWord holds keys.bits
  have run := h.after_eq latched latched.entryPoint Core.instructionsPerFrame
  rw [Machine.memory_started] at run
  rw [Machine.memory_next, Machine.core_next]
  exact run

/-- The same byte by byte. -/
theorem byteAt_machine_next (h : LoopsAt copies a) {m : Machine}
    (holds : HoldsLoop m.memory a copies) (keys : Keys) (i : Nat) :
    (m.next keys).memory.byteAt i
      = Copy.moveAll (Copy.repeated copies 65536) (m.latchedByte keys) i := by
  rw [(h.machine_next_eq holds keys).1, ← Machine.memory_started, Copy.byteAt_applyAll_eq_moveAll,
    Machine.byteAt_started_eq_latchedByte]

theorem holdsLoop_after (h : LoopsAt copies a) {m : Machine} (holds : HoldsLoop m.memory a copies)
    (keys : List Keys) : HoldsLoop (m.after keys).memory a copies := by
  induction keys generalizing m with
  | nil =>
    rw [Machine.after_nil]
    exact holds
  | cons k rest ih =>
    rw [Machine.after_cons]
    exact ih (h.machine_next_eq holds k).2.2

/-! ## Images -/

/-- An image with the chain, to which the entry point is added last, is loaded as a loop. -/
theorem holdsLoop_ofImage (h : LoopsAt copies a) {img : Image}
    (chain : ChainAt img.byteAt a a copies)
    (fits : (img.entryPoint a).bytes.size ≤ Memory.capacity) :
    HoldsLoop (Memory.ofImage (img.entryPoint a).bytes fits) a copies := by
  have loaded : ∀ i, (Memory.ofImage (img.entryPoint a).bytes fits).byteAt i
      = if 2 ≤ i ∧ i < 5 then Bytes.get (BigEndian.fieldBytes a) (i - 2) else img.byteAt i := by
    intro i
    rw [Memory.byteAt_ofImage]
    exact img.byteAt_entryPoint a i
  refine ⟨chain.congr fun i low _ => ?_, UInt32.toNat_inj.mp ?_⟩
  · have := h.low
    rw [loaded, if_neg (by omega)]
  · rw [← Nat.mod_eq_of_lt h.start_lt]
    exact Memory.toNat_readField_of_bytes (by decide) (loaded 2) (loaded 3) (loaded 4)

/-- An image with nothing in it but the loop is loaded as one. -/
theorem exists_load_empty (h : LoopsAt copies a) (start : Machine) :
    ∃ img behind memory, Image.empty.copyChain a copies a = .ok (img, behind) ∧
      start.load (img.entryPoint a).bytes = .ok (.ofMemory memory) ∧
      HoldsLoop memory a copies := by
  have room := h.room
  rw [Memory.capacity_eq] at room
  obtain ⟨img, behind, eq, _, stored⟩ := Image.empty.exists_copyChain a a copies (by omega)
  have size : (img.entryPoint a).size = max (max 0 (a.toNat + 9 * copies.length)) (2 + 3) := by
    rw [Image.entryPoint, Image.size_poke, stored.size_eq h.nonempty]
    rfl
  have fits : (img.entryPoint a).size ≤ Memory.capacity := by
    rw [size, Memory.capacity_eq]
    omega
  exact ⟨img, behind, _, eq, start.load_of_le fits, h.holdsLoop_ofImage stored.chain fits⟩

/--
**A looping chain over whole frames.**

The chain can be stored in every image. If the image with it fits, then in every frame that the
instruction counter has room for, the keys are written and the copies are made in turn, `2 ^ 16` of
them, wherever that ends: each moves one byte. Nothing else happens to memory.
-/
theorem tick_copyChain (h : LoopsAt copies a) (start : Machine) (img : Image) :
    ∃ img' behind, img.copyChain a copies a = .ok (img', behind) ∧
      ((img'.entryPoint a).size ≤ Memory.capacity →
        ∃ loaded, start.load (img'.entryPoint a).bytes = .ok loaded ∧
          ∀ (keys : List Keys) (k : Keys), keys.length + 1 < 0x1000000000000 →
            ∃ m m', loaded.play keys = .ok m ∧ m.tick k = .ok m' ∧
              m'.memory = Copy.applyAll (Copy.repeated copies 65536)
                ((m.memory.writeByte 0 (UInt8.ofNat (k.bits.toNat / 256))).writeByte 1
                  (UInt8.ofNat (k.bits.toNat % 256))) ∧
              (∀ i, m'.memory.byteAt i
                = Copy.moveAll (Copy.repeated copies 65536) (m.latchedByte k) i) ∧
              m'.core.pc.toNat = a.toNat + 9 * (65536 % copies.length)) := by
  have room := h.room
  rw [Memory.capacity_eq] at room
  obtain ⟨img', behind, eq, _, stored⟩ := img.exists_copyChain a a copies (by omega)
  refine ⟨img', behind, eq, fun fits => ⟨_, start.load_of_le fits, fun keys k few => ?_⟩⟩
  have holds : HoldsLoop (Machine.ofMemory (Memory.ofImage (img'.entryPoint a).bytes fits)).memory
      a copies := h.holdsLoop_ofImage stored.chain fits
  generalize Memory.ofImage (img'.entryPoint a).bytes fits = memory at holds
  have whole := h.holdsLoop_after holds keys
  have moved := h.byteAt_machine_next whole k
  have last := h.machine_next_eq whole k
  have keysAt : Header.keys + 1 = 1 := rfl
  rw [Memory.writeWord, keysAt, BigEndian.wordHigh_eq_ofNat, BigEndian.wordLow_eq_ofNat] at last
  exact ⟨_, _, Machine.play_ofMemory memory (by omega), Machine.tick_after_ofMemory memory few k,
    last.1, moved, last.2.1⟩

/-- Three copies as far up as they fit: the last one ends with the last byte of the margin. The first
one, which is also made last, brings the low key byte to address 5. -/
theorem tick_copyChain_margin :
    LoopsAt [⟨1, 5⟩, ⟨0x1234, 6⟩, ⟨0, 0x10000⟩] 0xFFFFED ∧
      ∃ img' behind loaded m m',
        Image.empty.copyChain 0xFFFFED [⟨1, 5⟩, ⟨0x1234, 6⟩, ⟨0, 0x10000⟩] 0xFFFFED
          = .ok (img', behind) ∧
        Machine.initial.load (img'.entryPoint 0xFFFFED).bytes = .ok loaded ∧
        loaded.play [Keys.empty] = .ok m ∧ m.tick Keys.all = .ok m' ∧
        m'.memory.byteAt 5 = 0xFF ∧ m'.core.pc.toNat = 0xFFFFF6 := by
  have loops : LoopsAt [⟨1, 5⟩, ⟨0x1234, 6⟩, ⟨0, 0x10000⟩] 0xFFFFED :=
    ⟨by decide, by decide, by decide, by decide, by decide⟩
  obtain ⟨img, _, eq, _, stored⟩ := Image.empty.exists_copyChain 0xFFFFED 0xFFFFED
    [⟨1, 5⟩, ⟨0x1234, 6⟩, ⟨0, 0x10000⟩] (by decide)
  obtain ⟨img', behind, eq', frames⟩ := tick_copyChain loops Machine.initial Image.empty
  have same : img = img' := congrArg Prod.fst (Except.ok.inj (eq.symm.trans eq'))
  have size : img'.size = 0x1000008 := by
    rw [← same]
    exact stored.size_eq (by decide)
  have fits : (img'.entryPoint 0xFFFFED).size ≤ Memory.capacity := by
    rw [Image.entryPoint, Image.size_poke, size]
    decide
  obtain ⟨loaded, load, ticks⟩ := frames fits
  obtain ⟨m, m', play, tick, _, moved, pc⟩ := ticks [Keys.empty] Keys.all (by decide)
  refine ⟨loops, img', behind, loaded, m, m', eq', load, play, tick, ?_, pc⟩
  have last : [(⟨1, 5⟩ : Copy), ⟨0x1234, 6⟩, ⟨0, 0x10000⟩][65535 % 3]? = some ⟨1, 5⟩ := by decide
  have low : Copy.moveAll (Copy.repeated [⟨1, 5⟩, ⟨0x1234, 6⟩, ⟨0, 0x10000⟩] 65536)
      (m.latchedByte Keys.all) 5 = m.latchedByte Keys.all 1 :=
    Copy.moveAll_repeated_last (by decide) last (by decide) (by decide) (by decide) _
  exact (moved 5).trans low

end LoopsAt

end ByteByteJump
