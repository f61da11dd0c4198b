import ByteByteJump.Proofs.Chain.Loop
import ByteByteJump.Proofs.Independence

/-!
# Chains in another order

Two looping chains have the same copies, listed in different orders. Their code differs, and after
`2 ^ 16` instructions each of them has stopped somewhere else in its last pass. If the copies do not
disturb one another and read nothing of the code, that does not show: every frame that is long
enough for one pass makes all of them at once.

## Main statements

* `LoopsApart.madeAtOnce_next` — one frame, in either order
* `LoopsApart.agreeOutside_after` — any number of frames in both orders
* `LoopsApart.tick_copyChain_perm` — images with the two chains
-/

namespace ByteByteJump

/-- The same bytes but for those of a chain of `n` instructions. -/
def Memory.AgreeOutside (a : UInt32) (n : Nat) (m m' : Memory) : Prop :=
  ∀ i, i < a.toNat ∨ a.toNat + 9 * n ≤ i → m.byteAt i = m'.byteAt i

/-- Copies that can loop at an address in any order: they do not disturb one another, they do not
read their own code, and a frame has room for each of them. -/
structure LoopsApart (copies : List Copy) (a : UInt32) : Prop extends LoopsAt copies a where
  independent : Copy.Independent copies
  length_le : copies.length ≤ 65536
  sources : ∀ c ∈ copies,
    c.source.toNat < a.toNat ∨ a.toNat + 9 * copies.length ≤ c.source.toNat

instance (copies : List Copy) (a : UInt32) : Decidable (LoopsApart copies a) :=
  have : Decidable (Copy.Independent copies) := inferInstanceAs (Decidable (List.Pairwise _ copies))
  decidable_of_iff (LoopsAt copies a ∧ Copy.Independent copies ∧ copies.length ≤ 65536 ∧
      ∀ c ∈ copies, c.source.toNat < a.toNat ∨ a.toNat + 9 * copies.length ≤ c.source.toNat)
    ⟨fun ⟨loops, independent, length_le, sources⟩ => ⟨loops, independent, length_le, sources⟩,
      fun h => ⟨h.toLoopsAt, h.independent, h.length_le, h.sources⟩⟩

theorem LoopsAt.perm {xs ys : List Copy} {a : UInt32} (h : LoopsAt xs a) (perm : xs.Perm ys) :
    LoopsAt ys a where
  nonempty := fun nil => h.nonempty (nil ▸ perm).eq_nil
  small := fun c hc => h.small c (perm.mem_iff.mpr hc)
  low := h.low
  room := by rw [← perm.length_eq]; exact h.room
  clear := by
    intro c hc
    rw [← perm.length_eq]
    exact h.clear c (perm.mem_iff.mpr hc)

/-- Chains of one length over the same image differ in their own bytes only. -/
theorem Image.ChainStored.byteAt_eq {img x y : Image} {a last : UInt32} {xs ys : List Copy}
    (hx : ChainStored img x a last xs) (hy : ChainStored img y a last ys)
    (length : xs.length = ys.length) {i : Nat} (hi : i < a.toNat ∨ a.toNat + 9 * xs.length ≤ i) :
    x.byteAt i = y.byteAt i := by
  rw [hx.outside i hi, hy.outside i (length ▸ hi)]

theorem Machine.memory_started_eq_writes (m : Machine) (k : Keys) :
    (m.started k).memory = (m.memory.writeByte 0 (UInt8.ofNat (k.bits.toNat / 256))).writeByte 1
      (UInt8.ofNat (k.bits.toNat % 256)) := by
  have low : Header.keys + 1 = 1 := rfl
  rw [memory_started, Memory.writeWord, low, BigEndian.wordHigh_eq_ofNat,
    BigEndian.wordLow_eq_ofNat]
  rfl

namespace LoopsApart

variable {xs ys : List Copy} {a : UInt32} {m n : Machine}

/-! ## Frames -/

/-- **A frame of the loop makes its copies at once**, in whatever order they are laid out. -/
theorem madeAtOnce_next (h : LoopsApart xs a) (perm : xs.Perm ys)
    (holds : HoldsLoop m.memory a ys) (k : Keys) :
    Copy.MadeAtOnce xs (m.started k).memory (m.next k).memory := by
  have frame := ((h.toLoopsAt.perm perm).machine_next_eq holds k).1
  have pass : ys.length ≤ 65536 := perm.length_eq ▸ h.length_le
  rw [frame, ← Machine.memory_started]
  exact h.independent.madeAtOnce_repeated h.small (fun c => perm.mem_iff.symm) pass _

/-- The keys are the same in both memories, so what agreed before them agrees with them. -/
theorem agreeOutside_started (same : Memory.AgreeOutside a xs.length m.memory n.memory) (k : Keys) :
    Memory.AgreeOutside a xs.length (m.started k).memory (n.started k).memory := by
  intro i hi
  rw [Machine.byteAt_started, Machine.byteAt_started, same i hi]

theorem agreeOutside_next (h : LoopsApart xs a) (perm : xs.Perm ys)
    (holds : HoldsLoop m.memory a xs) (holds' : HoldsLoop n.memory a ys)
    (same : Memory.AgreeOutside a xs.length m.memory n.memory) (k : Keys) :
    Memory.AgreeOutside a xs.length (m.next k).memory (n.next k).memory := by
  have outside : ∀ c ∈ xs, Memory.offset c.source < a.toNat ∨
      a.toNat + 9 * xs.length ≤ Memory.offset c.source := by
    intro c hc
    rw [Memory.offset_of_lt (h.small c hc).1]
    exact h.sources c hc
  intro i hi
  exact (h.madeAtOnce_next (.refl xs) holds k).agree (h.madeAtOnce_next perm holds' k)
    (agreeOutside_started same k) outside hi

/-- **Frames in both orders.** The code that differs is left alone by the copies and not read by
them, so it goes on to differ and nothing else comes to do so. -/
theorem agreeOutside_after (h : LoopsApart xs a) (perm : xs.Perm ys)
    (holds : HoldsLoop m.memory a xs) (holds' : HoldsLoop n.memory a ys)
    (same : Memory.AgreeOutside a xs.length m.memory n.memory) (keys : List Keys) :
    Memory.AgreeOutside a xs.length (m.after keys).memory (n.after keys).memory := by
  induction keys generalizing m n with
  | nil => simpa using same
  | cons k rest ih =>
    rw [Machine.after_cons, Machine.after_cons]
    exact ih (h.machine_next_eq holds k).2.2
      ((h.toLoopsAt.perm perm).machine_next_eq holds' k).2.2
      (h.agreeOutside_next perm holds holds' same k)

/-! ## Images -/

theorem agreeOutside_ofImage {img x y : Image} (length : xs.length = ys.length)
    (hx : Image.ChainStored img x a a xs) (hy : Image.ChainStored img y a a ys)
    (fits : (x.entryPoint a).bytes.size ≤ Memory.capacity)
    (fits' : (y.entryPoint a).bytes.size ≤ Memory.capacity) :
    Memory.AgreeOutside a xs.length (Memory.ofImage (x.entryPoint a).bytes fits)
      (Memory.ofImage (y.entryPoint a).bytes fits') := by
  intro i hi
  rw [Memory.byteAt_ofImage, Memory.byteAt_ofImage]
  show (x.entryPoint a).byteAt i = (y.entryPoint a).byteAt i
  rw [Image.byteAt_entryPoint, Image.byteAt_entryPoint, hx.byteAt_eq hy length hi]

/-- The two chains in an image, with the entry point set before them or after them. -/
theorem exists_copyChain_perm (h : LoopsApart xs a) (perm : xs.Perm ys) (img : Image) :
    ∃ x y behind, img.copyChain a xs a = .ok (x, behind) ∧ img.copyChain a ys a = .ok (y, behind) ∧
      (img.entryPoint a).copyChain a xs a = .ok (x.entryPoint a, behind) ∧
      (img.entryPoint a).copyChain a ys a = .ok (y.entryPoint a, behind) ∧
      Image.ChainStored img x a a xs ∧ Image.ChainStored img y a a ys ∧
      (x.entryPoint a).size = (y.entryPoint a).size := by
  have room := h.room
  rw [Memory.capacity_eq] at room
  have length := perm.length_eq
  obtain ⟨x, behind, eq, stop, stored⟩ := img.exists_copyChain a a xs (by omega)
  obtain ⟨y, behind', eq', stop', stored'⟩ := img.exists_copyChain a a ys (by omega)
  obtain rfl : behind = behind' := UInt32.toNat_inj.mp (by omega)
  refine ⟨x, y, behind, eq, eq', ?_, ?_, stored, stored', ?_⟩
  · rw [img.copyChain_entryPoint h.low, eq]
    rfl
  · rw [img.copyChain_entryPoint h.low, eq']
    rfl
  · rw [Image.entryPoint, Image.entryPoint, Image.size_poke, Image.size_poke,
      stored.size_eq h.nonempty, stored'.size_eq (h.toLoopsAt.perm perm).nonempty, length]

/--
**Independent copies do the same in any order.**

A list of copies and the same copies in another order are stored over one image, which may hold
anything. If the image with either of them fits, both are loaded, and given the same keys, frame by
frame, the two machines have the same memory but for the chains themselves. In each frame of either
of them every destination gets what its source held when the keys had been written, and every other
byte is as it was then, however many passes of the chain a frame has room for.
-/
theorem tick_copyChain_perm (h : LoopsApart xs a) (perm : xs.Perm ys) (start start' : Machine)
    (img : Image) :
    ∃ x y behind, img.copyChain a xs a = .ok (x, behind) ∧ img.copyChain a ys a = .ok (y, behind) ∧
      (img.entryPoint a).copyChain a xs a = .ok (x.entryPoint a, behind) ∧
      (img.entryPoint a).copyChain a ys a = .ok (y.entryPoint a, behind) ∧
      (x.entryPoint a).size = (y.entryPoint a).size ∧
      ((x.entryPoint a).size ≤ Memory.capacity →
        ∃ l l', start.load (x.entryPoint a).bytes = .ok l ∧
          start'.load (y.entryPoint a).bytes = .ok l' ∧
          ∀ (keys : List Keys) (k : Keys), keys.length + 1 < 0x1000000000000 →
            ∃ m m' n n', l.play keys = .ok m ∧ m.tick k = .ok m' ∧
              l'.play keys = .ok n ∧ n.tick k = .ok n' ∧
              (∀ i, i < a.toNat ∨ a.toNat + 9 * xs.length ≤ i →
                m'.memory.byteAt i = n'.memory.byteAt i) ∧
              Copy.MadeAtOnce xs
                ((m.memory.writeByte 0 (UInt8.ofNat (k.bits.toNat / 256))).writeByte 1
                  (UInt8.ofNat (k.bits.toNat % 256))) m'.memory ∧
              Copy.MadeAtOnce xs
                ((n.memory.writeByte 0 (UInt8.ofNat (k.bits.toNat / 256))).writeByte 1
                  (UInt8.ofNat (k.bits.toNat % 256))) n'.memory) := by
  obtain ⟨x, y, behind, eq, eq', before, before', stored, stored', size⟩ :=
    h.exists_copyChain_perm perm img
  refine ⟨x, y, behind, eq, eq', before, before', size, fun fits => ?_⟩
  have fits' : (y.entryPoint a).size ≤ Memory.capacity := size ▸ fits
  refine ⟨_, _, start.load_of_le fits, start'.load_of_le fits', fun keys k few => ?_⟩
  have holds := h.holdsLoop_ofImage stored.chain fits
  have holds' := (h.toLoopsAt.perm perm).holdsLoop_ofImage stored'.chain fits'
  have same := agreeOutside_ofImage perm.length_eq stored stored' fits fits'
  generalize Memory.ofImage (x.entryPoint a).bytes fits = memory at holds same
  generalize Memory.ofImage (y.entryPoint a).bytes fits' = memory' at holds' same
  -- the frames before the last one leave both loops whole and everything else alike
  have loop := h.holdsLoop_after (m := .ofMemory memory) holds keys
  have loop' := (h.toLoopsAt.perm perm).holdsLoop_after (m := .ofMemory memory') holds' keys
  have alike := h.agreeOutside_after (m := .ofMemory memory) (n := .ofMemory memory') perm holds
    holds' same keys
  simp only [← Machine.memory_started_eq_writes]
  exact ⟨_, _, _, _, Machine.play_ofMemory memory (by omega),
    Machine.tick_after_ofMemory memory few k, Machine.play_ofMemory memory' (by omega),
    Machine.tick_after_ofMemory memory' few k, h.agreeOutside_next perm loop loop' alike k,
    h.madeAtOnce_next (.refl xs) loop k, h.madeAtOnce_next perm loop' k⟩

/-- Two copies as far up as they fit, both of key bytes and one of them to the name of the video
page, in both orders. -/
theorem tick_copyChain_perm_margin :
    LoopsApart [⟨1, 5⟩, ⟨0, 0x10000⟩] 0xFFFFF6 ∧
      List.Perm [(⟨1, 5⟩ : Copy), ⟨0, 0x10000⟩] [⟨0, 0x10000⟩, ⟨1, 5⟩] ∧
      ∃ x y behind l l' m m' n n',
        Image.empty.copyChain 0xFFFFF6 [⟨1, 5⟩, ⟨0, 0x10000⟩] 0xFFFFF6 = .ok (x, behind) ∧
        Image.empty.copyChain 0xFFFFF6 [⟨0, 0x10000⟩, ⟨1, 5⟩] 0xFFFFF6 = .ok (y, behind) ∧
        Machine.initial.load (x.entryPoint 0xFFFFF6).bytes = .ok l ∧
        Machine.initial.load (y.entryPoint 0xFFFFF6).bytes = .ok l' ∧
        l.play [Keys.all] = .ok m ∧ m.tick ⟨0x1234⟩ = .ok m' ∧
        l'.play [Keys.all] = .ok n ∧ n.tick ⟨0x1234⟩ = .ok n' ∧
        m'.memory.byteAt 5 = 0x34 ∧ n'.memory.byteAt 5 = 0x34 ∧
        m'.memory.byteAt 6 = n'.memory.byteAt 6 := by
  have apart : LoopsApart [⟨1, 5⟩, ⟨0, 0x10000⟩] 0xFFFFF6 := by decide
  have perm : List.Perm [(⟨1, 5⟩ : Copy), ⟨0, 0x10000⟩] [⟨0, 0x10000⟩, ⟨1, 5⟩] := .swap ..
  obtain ⟨x, y, behind, eq, eq', _, _, _, frames⟩ :=
    tick_copyChain_perm apart perm Machine.initial Machine.initial Image.empty
  have size : x.size = 0x1000008 :=
    (Image.copyChain_eq_ok eq).2.2.size_eq (by decide)
  have fits : (x.entryPoint 0xFFFFF6).size ≤ Memory.capacity := by
    rw [Image.entryPoint, Image.size_poke, size]
    decide
  obtain ⟨l, l', load, load', ticks⟩ := frames fits
  obtain ⟨m, m', n, n', play, tick, play', tick', alike, made, made'⟩ :=
    ticks [Keys.all] ⟨0x1234⟩ (by decide)
  refine ⟨apart, perm, x, y, behind, l, l', m, m', n, n', eq, eq', load, load', play, tick, play',
    tick', ?_, ?_, alike 6 (by decide)⟩
  · exact (made.copied ⟨1, 5⟩ (by decide)).trans (Memory.readByte_writeByte_same _ 1 _)
  · exact (made'.copied ⟨1, 5⟩ (by decide)).trans (Memory.readByte_writeByte_same _ 1 _)

end LoopsApart

end ByteByteJump
