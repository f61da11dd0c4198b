import ByteByteJump.Proofs.Run
import ByteByteJump.Proofs.Stores

/-!
# A chain in one pass

A chain of copies, stored in an image and loaded, makes its copies from left to right. The copies
may read the chain itself, and they may write it where it has been executed already, the instruction
that is just being executed included. Only what is still ahead must be left alone; then the part of
the chain that is ahead is a chain at every step, a shorter one each time, and the induction is on
the list of copies.

An image with a chain in it that can be loaded has room for the last instruction's nine bytes, so
every other instruction, and the address of every instruction but the first, lies far enough below
the margin to be a 24-bit number. No link is cut when it is stored.

## Main statements

* `PassesAt.after_eq`, `PassesAt.exists_run` — the chain executed from its first instruction
* `Image.link_lt_of_load` — what can be loaded has no chain with a link that was cut
* `Image.copyChain_means_copies` — a chain in an image, loaded and executed
-/

namespace ByteByteJump

/-- Copies that a chain at `a` makes in one pass: none goes to an instruction that is still ahead. -/
structure PassesAt (copies : List Copy) (a : UInt32) : Prop where
  small : ∀ c ∈ copies, c.source.toNat < 0x1000000 ∧ c.dest.toNat < 0x1000000
  ahead : ∀ i, (hi : i < copies.length) →
    ¬(a.toNat + 9 * (i + 1) ≤ copies[i].dest.toNat ∧
      copies[i].dest.toNat < a.toNat + 9 * copies.length)

namespace PassesAt

variable {copies rest : List Copy} {a last : UInt32} {copy : Copy}

theorem tail (h : PassesAt (copy :: rest) a) (room : a.toNat + 9 < 0x100000000) :
    PassesAt rest (a + 9) where
  small := fun c hc => h.small c (List.mem_cons_of_mem _ hc)
  ahead := by
    intro i hi
    have here := h.ahead (i + 1) (Nat.succ_lt_succ hi)
    rw [List.length_cons, List.getElem_cons_succ] at here
    rw [toNat_add_nine room]
    omega

/-- The first copy leaves the others ahead of it as they are. -/
theorem chainAt_apply (h : PassesAt (copy :: rest) a) (room : a.toNat + 9 < 0x100000000)
    {m : Memory} (chain : ChainAt m.byteAt a last (copy :: rest)) :
    ChainAt (copy.apply m).byteAt (a + 9) last rest := by
  refine (chain.tail room).congr fun i low high => ?_
  have clear := h.ahead 0 (Nat.succ_pos _)
  rw [toNat_add_nine room] at low high
  rw [List.length_cons, List.getElem_cons_zero] at clear
  rw [Copy.byteAt_apply, Memory.offset_of_lt (h.small copy List.mem_cons_self).2, if_neg]
  rintro rfl
  omega

theorem instruction_eq (h : PassesAt (copy :: rest) a) (small : last.toNat < 0x1000000) {c : Core}
    (chain : ChainAt c.memory.byteAt a last (copy :: rest))
    (room : a.toNat + 9 * (copy :: rest).length ≤ Memory.capacity) (pc : c.pc = a) :
    c.instruction
      = ⟨copy.source, copy.dest, if rest = [] then last else a + 9⟩ := by
  obtain ⟨source, dest⟩ := h.small copy List.mem_cons_self
  have first := chain.fetched_eq room small (Nat.succ_pos _) source dest (congrArg UInt32.toNat pc)
  rw [List.length_cons, Memory.capacity_eq] at room
  rw [List.length_cons, chainNext_zero (by omega)] at first
  exact first

/-- **A chain makes its copies and goes on at its end**, from its first instruction on. -/
theorem after_eq (h : PassesAt copies a) (small : last.toNat < 0x1000000) {c : Core}
    (chain : ChainAt c.memory.byteAt a last copies)
    (room : a.toNat + 9 * copies.length ≤ Memory.capacity)
    (pc : c.pc = if copies = [] then last else a) :
    (Core.after copies.length c).memory = Copy.applyAll copies c.memory ∧
      (Core.after copies.length c).pc = last := by
  -- on the list, with the address: what is ahead after the first copy is a chain at `a + 9`
  induction copies generalizing c a with
  | nil => exact ⟨rfl, pc⟩
  | cons copy rest ih =>
    rw [if_neg (List.cons_ne_nil _ _)] at pc
    have inst := h.instruction_eq small chain room pc
    rw [List.length_cons, Memory.capacity_eq] at room
    have here : a.toNat + 9 < 0x100000000 := by omega
    have memory : c.next.memory = copy.apply c.memory := by
      rw [Core.next, inst]
      rfl
    have nextPc : c.next.pc = if rest = [] then last else a + 9 := by
      show c.instruction.next = _
      rw [inst]
    obtain ⟨copied, lastPc⟩ := ih (h.tail here) (c := c.next)
      (by rw [memory]; exact h.chainAt_apply here chain)
      (by rw [toNat_add_nine here, Memory.capacity_eq]; omega) nextPc
    refine ⟨?_, lastPc⟩
    rw [List.length_cons, Core.after_succ, copied, memory, Copy.applyAll_cons]

theorem exists_run (h : PassesAt copies a) (small : last.toNat < 0x1000000) (nonempty : copies ≠ [])
    {m : Memory} (chain : ChainAt m.byteAt a last copies)
    (room : a.toNat + 9 * copies.length ≤ Memory.capacity) :
    ∃ c, Core.run copies.length ⟨⟨a, 0⟩, m⟩ = .ok c ∧ c.pc = last ∧
      c.cycles.toNat = copies.length ∧ c.memory = Copy.applyAll copies m := by
  obtain ⟨copied, pc⟩ := h.after_eq (c := ⟨⟨a, 0⟩, m⟩) small chain room (if_neg nonempty).symm
  have some := List.length_pos_iff.mpr nonempty
  rw [Memory.capacity_eq] at room
  have low : a.toNat < Memory.addressSpace := by
    rw [Memory.addressSpace_eq]
    omega
  have zero : (0 : UInt64).toNat = 0 := rfl
  have count : (0 : UInt64).toNat + copies.length < 0x10000000000000000 := by omega
  refine ⟨_, Core.run_of_lt low count, pc, ?_, copied⟩
  rw [Core.toNat_after_cycles _ count]
  exact Nat.zero_add _

end PassesAt

namespace Image

variable {img img' : Image} {a last behind : UInt32} {copies : List Copy}

/-! ## Chains in images -/

/-- An image with a chain in it fits exactly if both of them do. -/
theorem exists_copyChain_iff (nonempty : copies ≠ []) :
    (∃ img' behind, img.copyChain a copies last = .ok (img', behind) ∧
        img'.size ≤ Memory.capacity) ↔
      img.size ≤ Memory.capacity ∧ a.toNat + 9 * copies.length ≤ Memory.capacity := by
  constructor
  · rintro ⟨img', behind, laid, fits⟩
    obtain ⟨_, _, stored⟩ := copyChain_eq_ok laid
    rw [stored.size_eq nonempty] at fits
    exact Nat.max_le.mp fits
  · rintro ⟨fits, room⟩
    have short := room
    rw [Memory.capacity_eq] at short
    obtain ⟨img', behind, laid, _, stored⟩ := img.exists_copyChain a last copies (by omega)
    refine ⟨img', behind, laid, ?_⟩
    rw [stored.size_eq nonempty]
    exact Nat.max_le.mpr ⟨fits, room⟩

theorem end_le_size (nonempty : copies ≠ [])
    (laid : img.copyChain a copies last = .ok (img', behind)) :
    a.toNat + 9 * copies.length ≤ img'.size := by
  obtain ⟨_, _, stored⟩ := copyChain_eq_ok laid
  rw [stored.size_eq nonempty]
  exact Nat.le_max_right ..

theorem chainAt_ofImage (h : ChainAt img.byteAt a last copies)
    (fits : img.bytes.size ≤ Memory.capacity) :
    ChainAt (Memory.ofImage img.bytes fits).byteAt a last copies :=
  h.congr fun i _ _ => Memory.byteAt_ofImage img.bytes fits i

/-- A link of a chain that fits is fetched as it is: nothing is cut off. -/
theorem fetch_link {m : Memory} (chain : ChainAt m.byteAt a last copies)
    (room : a.toNat + 9 * copies.length ≤ Memory.capacity) {i : Nat}
    (hi : i + 1 < copies.length) :
    ∃ inst, Instruction.fetch m (UInt32.ofNat (a.toNat + 9 * i)) = .ok inst ∧
      inst.next.toNat = a.toNat + 9 * (i + 1) := by
  have short := room
  rw [Memory.capacity_eq] at short
  have here : (UInt32.ofNat (a.toNat + 9 * i)).toNat = a.toNat + 9 * i :=
    UInt32.toNat_ofNat_of_lt' (by show _ < 4294967296; omega)
  have stored := chain i (Nat.lt_of_succ_lt hi)
  rw [← here] at stored
  obtain ⟨_, _, next⟩ := Instruction.fetched_toNat_of_storedAt stored (by omega)
  have link := toNat_chainNext_of_lt (show a.toNat + 9 * copies.length < _ by omega) hi last
  refine ⟨_, Instruction.fetch_of_lt (by omega), ?_⟩
  rw [next]
  show (chainNext a last copies.length i).toNat % 0x1000000 = _
  rw [link]
  omega

/-- **No image that can be loaded has a chain in it of which a link is cut**: it reaches as far as the
chain does, and later edits leave it as long. -/
theorem link_lt_of_load (laid : img.copyChain a copies last = .ok (img', behind))
    {edits : List Edit} {img'' : Image} {m : Memory} (edited : img'.editAll edits = .ok img'')
    (load : Memory.load img''.bytes = .ok m) {i : Nat} (hi : i + 1 < copies.length) :
    a.toNat + 9 * (i + 1) < 0x1000000 := by
  have some := List.length_pos_iff.mp (Nat.zero_lt_of_lt hi)
  have reach := Nat.le_trans (end_le_size some laid) (size_le_of_editAll edited)
  by_cases fits : img''.bytes.size ≤ Memory.capacity
  · have room := Nat.le_trans reach fits
    rw [Memory.capacity_eq] at room
    omega
  · rw [Memory.load_of_lt (Nat.not_le.mp fits)] at load
    cases load

/--
**A chain of copies means its copies.**

A chain is stored over an image that may hold anything. If the image with it fits, it is loaded, and
every link but the last is fetched as the number it was given as. If moreover no copy goes to an
instruction that is still ahead, the chain, executed once from its first instruction, makes its
copies from left to right, each of which moves one byte, and arrives at the address it was told to
end at. This includes chains that end with the last byte of the margin. A chain of which a link
would be cut is in no image that can be loaded, whatever is done to the image later.
-/
theorem copyChain_means_copies (img : Image) {a last : UInt32} {copies : List Copy}
    (nonempty : copies ≠ []) :
    ((∃ img' behind, img.copyChain a copies last = .ok (img', behind) ∧
        img'.size ≤ Memory.capacity) ↔
      img.size ≤ Memory.capacity ∧ a.toNat + 9 * copies.length ≤ Memory.capacity) ∧
    ∀ img' behind, img.copyChain a copies last = .ok (img', behind) →
      (img'.size ≤ Memory.capacity →
        ∃ m, Memory.load img'.bytes = .ok m ∧
          (∀ i, i + 1 < copies.length →
            ∃ inst, Instruction.fetch m (UInt32.ofNat (a.toNat + 9 * i)) = .ok inst ∧
              inst.next.toNat = a.toNat + 9 * (i + 1)) ∧
          (PassesAt copies a → last.toNat < 0x1000000 →
            ∃ c, Core.run copies.length ⟨⟨a, 0⟩, m⟩ = .ok c ∧ c.pc = last ∧
              c.cycles.toNat = copies.length ∧ c.memory = Copy.applyAll copies m ∧
              ∀ i, c.memory.byteAt i = Copy.moveAll copies m.byteAt i)) ∧
      ∀ edits img'' m, img'.editAll edits = .ok img'' → Memory.load img''.bytes = .ok m →
        ∀ i, i + 1 < copies.length → a.toNat + 9 * (i + 1) < 0x1000000 := by
  refine ⟨exists_copyChain_iff nonempty, fun img' behind laid => ⟨fun fits => ?_, ?_⟩⟩
  · have chain := chainAt_ofImage (copyChain_eq_ok laid).2.2.chain fits
    have room := Nat.le_trans (end_le_size nonempty laid) fits
    refine ⟨_, Memory.load_of_le fits, fun i hi => fetch_link chain room hi, ?_⟩
    intro passes small
    obtain ⟨c, run, pc, cycles, copied⟩ := passes.exists_run small nonempty chain room
    refine ⟨c, run, pc, cycles, copied, fun i => ?_⟩
    rw [copied, Copy.byteAt_applyAll_eq_moveAll]
  · intro edits img'' m edited load i hi
    exact link_lt_of_load laid edited load hi

/-- Three copies as far up as they fit, all of which write code: the first one moves the low byte of
its own destination to its first byte, the second one moves it on within the first instruction, and
the third one to its own first byte. -/
theorem copyChain_means_copies_margin :
    PassesAt [⟨0xFFFFF2, 0xFFFFED⟩, ⟨0xFFFFED, 0xFFFFEE⟩, ⟨0xFFFFEE, 0xFFFFFF⟩] 0xFFFFED ∧
      ∃ img' behind m c,
        Image.empty.copyChain 0xFFFFED
          [⟨0xFFFFF2, 0xFFFFED⟩, ⟨0xFFFFED, 0xFFFFEE⟩, ⟨0xFFFFEE, 0xFFFFFF⟩] 0x123456
            = .ok (img', behind) ∧
        Memory.load img'.bytes = .ok m ∧ Core.run 3 ⟨⟨0xFFFFED, 0⟩, m⟩ = .ok c ∧
        c.pc = 0x123456 ∧ c.cycles.toNat = 3 ∧
        c.memory = Copy.applyAll
          [⟨0xFFFFF2, 0xFFFFED⟩, ⟨0xFFFFED, 0xFFFFEE⟩, ⟨0xFFFFEE, 0xFFFFFF⟩] m ∧
        c.memory.byteAt 0xFFFFED = 0xED ∧ c.memory.byteAt 0xFFFFEE = 0xED ∧
        c.memory.byteAt 0xFFFFFF = 0xED := by
  have passes : PassesAt [⟨0xFFFFF2, 0xFFFFED⟩, ⟨0xFFFFED, 0xFFFFEE⟩, ⟨0xFFFFEE, 0xFFFFFF⟩]
      0xFFFFED := ⟨by decide, by decide⟩
  obtain ⟨stored, chains⟩ := @copyChain_means_copies Image.empty 0xFFFFED 0x123456
    [⟨0xFFFFF2, 0xFFFFED⟩, ⟨0xFFFFED, 0xFFFFEE⟩, ⟨0xFFFFEE, 0xFFFFFF⟩] (List.cons_ne_nil _ _)
  obtain ⟨img', behind, laid, fits⟩ := stored.mpr ⟨by decide, by decide⟩
  obtain ⟨m, load, _, runs⟩ := (chains img' behind laid).1 fits
  obtain ⟨c, run, pc, cycles, copied, moved⟩ := runs passes (by decide)
  have low : m.byteAt 0xFFFFF2 = 0xED := by
    rw [Memory.load_of_le fits] at load
    obtain rfl := Except.ok.inj load
    exact chainAt_ofImage (copyChain_eq_ok laid).2.2.chain fits 0 (by decide) 5 (by decide)
  refine ⟨passes, img', behind, m, c, laid, load, run, pc, cycles, copied, ?_, ?_, ?_⟩
  all_goals exact (moved _).trans low

end Image

end ByteByteJump
