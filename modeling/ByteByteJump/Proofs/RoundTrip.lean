import ByteByteJump.Proofs.Agreement
import ByteByteJump.Proofs.Stores

/-!
# Instructions stored and fetched

An instruction has nine bytes in memory, and the last instruction that an address can name has eight
of them in the margin. An image is refused if it is longer than memory with its margin, that is, if it
has an instruction at an address of more than 24 bits. So whatever instruction an image that can be
loaded has is fetched from where it was stored, with the three bytes of each field that are stored.

In the other direction a fetch loses nothing: the instruction has the nine bytes for its stored form.

## Main statements

* `Instruction.fetched_of_storedAt_cut`, `Instruction.storedAt_fetched` — fetching what is stored, and
  storing what is fetched
* `Instruction.fetched_eq_iff` — an instruction determines the bytes that it is fetched from
* `Instruction.fetch_inverts_encode` — both directions, and the addresses from which on there is
  nothing to fetch
-/

namespace ByteByteJump

namespace Instruction

variable {inst : Instruction} {m m' : Memory} {pc : UInt32}

/-- **An instruction is fetched as it was stored**, with the low 24 bits of each field. -/
theorem fetched_of_storedAt_cut (h : inst.StoredAt m.byteAt pc.toNat)
    (room : pc.toNat + 9 ≤ Memory.capacity) :
    fetched m pc = ⟨inst.source % 0x1000000, inst.dest % 0x1000000, inst.next % 0x1000000⟩ := by
  obtain ⟨source, dest, next⟩ := fetched_toNat_of_storedAt h room
  have cut : ∀ a : UInt32, (a % 0x1000000).toNat = a.toNat % 0x1000000 := fun _ => UInt32.toNat_mod ..
  rw [← cut] at source dest next
  rw [← UInt32.toNat_inj.mp source, ← UInt32.toNat_inj.mp dest, ← UInt32.toNat_inj.mp next]

/-- **An instruction is stored as it was fetched.** -/
theorem storedAt_fetched (m : Memory) (room : pc.toNat + 9 ≤ Memory.capacity) :
    (fetched m pc).StoredAt m.byteAt pc.toNat := by
  intro k hk
  obtain ⟨second, third⟩ := toNat_fieldAddress (add_six_lt_of_room room)
  rw [get_encode]
  by_cases first : k < 3
  · rw [if_pos first]
    exact (m.get_fieldBytes_readField (by omega) first).symm
  · by_cases middle : k < 6
    · rw [if_neg first, if_pos middle, fetched, m.get_fieldBytes_readField (by omega) (by omega),
        second]
      congr 1
      omega
    · rw [if_neg first, if_neg middle, fetched, m.get_fieldBytes_readField (by omega) (by omega),
        third]
      congr 1
      omega

theorem encode_fetched (m : Memory) (room : pc.toNat + 9 ≤ Memory.capacity) :
    (fetched m pc).encode = m.bytes.extract pc.toNat (pc.toNat + 9) := by
  have size : (m.bytes.extract pc.toNat (pc.toNat + 9)).size = 9 := by
    rw [ByteArray.size_extract, m.size_bytes, Nat.min_eq_left room, Nat.add_sub_cancel_left]
  refine Bytes.ext size.symm fun k hk => ?_
  rw [size_encode] at hk
  rw [Bytes.get_extract, if_pos (by omega), ← storedAt_fetched m room k hk]
  rfl

/-- **An instruction determines the bytes that it is fetched from**, those in the margin among
them. -/
theorem fetched_eq_iff (room : pc.toNat + 9 ≤ Memory.capacity) :
    fetched m pc = fetched m' pc ↔
      ∀ i, pc.toNat ≤ i → i < pc.toNat + 9 → m.byteAt i = m'.byteAt i := by
  refine ⟨fun same i low high => ?_, fetched_congr (add_six_lt_of_room room)⟩
  have byte := storedAt_fetched m room (i - pc.toNat) (by omega)
  have byte' := storedAt_fetched m' room (i - pc.toNat) (by omega)
  rw [Nat.add_sub_cancel' low] at byte byte'
  rw [byte, byte', same]

end Instruction

namespace Image

variable {img img' : Image} {pc : UInt32} {inst : Instruction} {edits : List Edit}

theorem Edit.Avoids.not_covers {e : Edit} {first last i : Nat} (clear : e.Avoids first last)
    (low : first ≤ i) (high : i < last) : ¬e.Covers i := by
  rintro ⟨s, hs, covers⟩
  rw [clear s hs i low high] at covers
  cases covers

/-- Edits that leave an instruction alone leave it where it is. -/
theorem storedAt_editAll (made : (img.instruction pc inst).editAll edits = .ok img')
    (clear : ∀ e ∈ edits, e.Avoids pc.toNat (pc.toNat + 9)) :
    inst.StoredAt img'.byteAt pc.toNat :=
  (img.storedAt_instruction pc inst).congr fun _ low high =>
    byteAt_editAll_of_bare made fun e he => (clear e he).not_covers low high

/-- An image reaches to the end of each of its instructions. -/
theorem room_le_editAll (made : (img.instruction pc inst).editAll edits = .ok img') :
    pc.toNat + 9 ≤ img'.size := by
  refine Nat.le_trans ?_ (size_le_of_editAll made)
  rw [instruction, size_poke, Instruction.size_encode]
  exact Nat.le_max_right ..

end Image

/--
**Storing and fetching an instruction are inverse.**

At an address of 24 bits, an instruction stored over an image that may hold anything is fetched with
the low 24 bits of each of its fields, if the image fits into memory and later edits leave the nine
bytes alone. Whatever memory holds, the instruction that is fetched there has these nine bytes for its
stored form; so two memories have the same instruction there exactly if the bytes are equal. At any
other address there is no room: an image with an instruction there is not loaded, whatever is done to
it later.
-/
theorem Instruction.fetch_inverts_encode (pc : UInt32) :
    (pc.toNat < Memory.addressSpace →
      (∀ (img : Image) (inst : Instruction) edits img',
        (img.instruction pc inst).editAll edits = .ok img' →
        (∀ e ∈ edits, e.Avoids pc.toNat (pc.toNat + 9)) → img'.size ≤ Memory.capacity →
        ∃ m, Memory.load img'.bytes = .ok m ∧
          fetch m pc
            = .ok ⟨inst.source % 0x1000000, inst.dest % 0x1000000, inst.next % 0x1000000⟩) ∧
      (∀ m, ∃ inst, fetch m pc = .ok inst ∧
        inst.encode = m.bytes.extract pc.toNat (pc.toNat + 9)) ∧
      ∀ m m', fetch m pc = fetch m' pc ↔
        ∀ i, pc.toNat ≤ i → i < pc.toNat + 9 → m.byteAt i = m'.byteAt i) ∧
    (Memory.addressSpace ≤ pc.toNat → ∀ (img : Image) (inst : Instruction) edits img',
      (img.instruction pc inst).editAll edits = .ok img' →
      Memory.load img'.bytes = .error (.tooLarge img'.size Memory.capacity)) := by
  rw [Memory.addressSpace_eq]
  refine ⟨fun low => ?_, fun high img inst edits img' made => ?_⟩
  · have room : pc.toNat + 9 ≤ Memory.capacity := by
      rw [Memory.capacity_eq]
      omega
    have fetches := fun m : Memory => fetch_of_lt (m := m) (add_six_lt_of_room room)
    refine ⟨fun img inst edits img' made clear fits => ?_, fun m => ?_, fun m m' => ?_⟩
    · have stored : inst.StoredAt (Memory.ofImage img'.bytes fits).byteAt pc.toNat :=
        (Image.storedAt_editAll made clear).congr fun i _ _ => Memory.byteAt_ofImage img'.bytes fits i
      refine ⟨_, Memory.load_of_le fits, ?_⟩
      rw [fetches, fetched_of_storedAt_cut stored room]
    · exact ⟨_, fetches m, encode_fetched m room⟩
    · rw [fetches, fetches, Except.ok.injEq]
      exact fetched_eq_iff room
  · refine Memory.load_of_lt (Nat.lt_of_lt_of_le ?_ (Image.room_le_editAll made))
    rw [Memory.capacity_eq]
    omega

/-- Fields of more than 24 bits at the last address, eight bytes of them in the margin, and an
instruction at the address behind it. -/
theorem Instruction.fetch_inverts_encode_last :
    (∃ img m, (Image.empty.instruction 0xFFFFFF ⟨0x12345678, 0x1000000, 0xFFFFFFFF⟩).editAll
          [.entryPoint 0xFFFFFF] = .ok img ∧
        Memory.load img.bytes = .ok m ∧ fetch m 0xFFFFFF = .ok ⟨0x345678, 0, 0xFFFFFF⟩ ∧
        encode ⟨0x345678, 0, 0xFFFFFF⟩ = m.bytes.extract 0xFFFFFF 0x1000008 ∧
        fetch (m.writeByte 0xFFFFFE 7) 0xFFFFFF = .ok ⟨0x345678, 0, 0xFFFFFF⟩) ∧
      Memory.load (Image.empty.instruction 0x1000000 ⟨1, 2, 3⟩).bytes
        = .error (.tooLarge 0x1000009 0x1000008) := by
  obtain ⟨stored, written, same⟩ := (fetch_inverts_encode 0xFFFFFF).1 (by decide)
  have refused := (fetch_inverts_encode 0x1000000).2 (by decide) Image.empty ⟨1, 2, 3⟩ [] _ rfl
  rw [show (Image.empty.instruction 0x1000000 ⟨1, 2, 3⟩).size = 0x1000009 from Image.size_poke ..,
    Memory.capacity_eq] at refused
  refine ⟨?_, refused⟩
  have clear : ∀ e ∈ [Image.Edit.entryPoint 0xFFFFFF], e.Avoids 0xFFFFFF 0x1000008 := by
    intro e he s hs i low _
    obtain rfl := List.mem_singleton.mp he
    obtain rfl := List.mem_singleton.mp hs
    refine eq_false_of_ne_true fun covers => ?_
    exact absurd (Nat.lt_of_le_of_lt low (Image.Store.covers_iff.mp covers).2) (by decide)
  obtain ⟨m, load, fetched⟩ := stored Image.empty ⟨0x12345678, 0x1000000, 0xFFFFFFFF⟩
    [.entryPoint 0xFFFFFF] _ rfl clear (by rw [Image.entryPoint, Image.size_poke,
      Image.instruction, Image.size_poke]; decide)
  obtain ⟨inst, again, bytes⟩ := written m
  rw [fetched] at again
  obtain rfl := Except.ok.inj again
  refine ⟨_, m, rfl, load, fetched, bytes, ?_⟩
  rw [(same _ m).mpr fun i low _ => ?_, fetched]
  · rfl
  · rw [Memory.byteAt_writeByte, if_neg]
    rintro rfl
    exact absurd low (by decide)

end ByteByteJump
