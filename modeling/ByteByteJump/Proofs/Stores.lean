import ByteByteJump.Image.Edits
import ByteByteJump.Proofs.Chain.Layout

/-!
# Images and their stores

An image is put together by edits of seven kinds, and all that any of them does is to store bytes. So
an image is determined by the list of its stores: it is as long as the store that ends last needs it
to be, each of its bytes is from the last edit that covers it, and bytes that no edit covers are zero.

Within one edit it does not matter which store is the last. Only a chain of copies makes more than
one, and these lie side by side.

## Main statements

* `edit_eq_ok_iff`, `editAll_eq_ok_iff` — edits are their stores, where their sums fit
* `Edit.disjoint_stores` — the stores of one edit do not overlap
* `storeAll_comm` — stores that have no byte in common commute
* `editAll_last_edit_decides` — images built by edits, and what is loaded of them
-/

namespace ByteByteJump

/-! ## Stored numbers -/

namespace BigEndian

/-- Dropping low bits is division. -/
theorem shiftRight_eq_div (a : UInt32) {k d : UInt32} (h : d.toNat = 1 <<< (k.toNat % 32)) :
    a >>> k = a / d := by
  refine UInt32.toNat_inj.mp ?_
  rw [UInt32.toNat_shiftRight, UInt32.toNat_div, Nat.shiftRight_eq_div_pow, h, Nat.one_shiftLeft]

/-- The stored form of an address holds its bits from 16 on, from 8 on and from 0 on. -/
theorem fieldBytes_eq (a : UInt32) :
    fieldBytes a = ⟨#[(a >>> 16).toUInt8, (a >>> 8).toUInt8, a.toUInt8]⟩ := by
  rw [@shiftRight_eq_div a 16 65536 (by decide), @shiftRight_eq_div a 8 256 (by decide)]
  rfl

theorem wordBytes_eq (w : UInt16) : wordBytes w = ⟨#[(w >>> 8).toUInt8, w.toUInt8]⟩ := by
  have high : w >>> 8 = w / 256 := by
    refine UInt16.toNat_inj.mp ?_
    rw [UInt16.toNat_shiftRight, UInt16.toNat_div, Nat.shiftRight_eq_div_pow]
    rfl
  rw [high]
  rfl

end BigEndian

theorem Instruction.encode_eq (inst : Instruction) :
    inst.encode = Image.instructionBytes inst.source inst.dest inst.next := by
  rw [encode, BigEndian.fieldBytes_eq, BigEndian.fieldBytes_eq, BigEndian.fieldBytes_eq]
  rfl

namespace Image

variable {img img' : Image}

/-! ## Edits -/

theorem instruction_eq_poke (img : Image) (a : UInt32) (inst : Instruction) :
    img.instruction a inst = img.poke a (instructionBytes inst.source inst.dest inst.next) := by
  rw [instruction, inst.encode_eq]

theorem chainStores_cons (a last : UInt32) (c : Copy) (rest : List Copy) :
    chainStores a last (c :: rest)
      = ⟨a, instructionBytes c.source c.dest (if rest = [] then last else a + 9)⟩
        :: chainStores (a + 9) last rest := by
  cases rest with
  | nil => rfl
  | cons d rest => rw [if_neg (List.cons_ne_nil d rest)]; rfl

/-- **A chain is its stores**, one for each copy. -/
theorem copyChain_eq_storeAll (img : Image) {a : UInt32} (last : UInt32) {copies : List Copy}
    (room : a.toNat + 9 * copies.length < 0x100000000) :
    (img.copyChain a copies last).map Prod.fst = .ok (img.storeAll (chainStores a last copies)) := by
  induction copies generalizing img a with
  | nil => rfl
  | cons c rest ih =>
    rw [List.length_cons] at room
    have here : a.toNat + 9 < 0x100000000 := by omega
    rw [copyChain_cons c rest last here, ih _ (by rw [toNat_add_nine here]; omega), chainNext_zero here,
      instruction_eq_poke, chainStores_cons, storeAll_cons]

/-- Every sum that an edit makes fits. -/
def Edit.HasRoom : Edit → Prop
  | fill a length _ => a.toNat + length < 0x10000000000000000
  | copyChain a copies _ => a.toNat + 9 * copies.length < 0x100000000
  | poke .. | entryPoint .. | videoPage .. | audioPage .. | instruction .. => True

instance : DecidablePred Edit.HasRoom
  | .fill .. => inferInstanceAs (Decidable (_ < _))
  | .copyChain .. => inferInstanceAs (Decidable (_ < _))
  | .poke .. | .entryPoint .. | .videoPage .. | .audioPage .. | .instruction .. => .isTrue trivial

/-- **An edit is its stores**, where its sums fit. -/
theorem edit_of_hasRoom {e : Edit} (room : e.HasRoom) (img : Image) :
    img.edit e = .ok (img.storeAll e.stores) := by
  cases e with
  | poke a data => rfl
  | fill a length v =>
    rw [edit, fill_of_lt room, Bytes.replicate_eq]
    rfl
  | entryPoint pc =>
    rw [edit, Image.entryPoint, BigEndian.fieldBytes_eq]
    rfl
  | videoPage page => rfl
  | audioPage page =>
    rw [edit, Image.audioPage, BigEndian.wordBytes_eq]
    rfl
  | instruction a inst =>
    rw [edit, instruction_eq_poke]
    rfl
  | copyChain a copies last => exact img.copyChain_eq_storeAll last room

theorem edit_of_not_hasRoom {e : Edit} (full : ¬e.HasRoom) (img : Image) :
    ∃ cause, img.edit e = .error cause := by
  cases e with
  | fill a length v =>
    rw [edit, fill, rangeEnd_of_le (Nat.le_of_not_lt full)]
    exact ⟨_, rfl⟩
  | copyChain a copies last =>
    rw [edit, copyChain_of_le img (Nat.le_of_not_lt full)]
    exact ⟨_, rfl⟩
  | poke | entryPoint | videoPage | audioPage | instruction => exact absurd trivial full

theorem edit_eq_ok_iff {e : Edit} :
    img.edit e = .ok img' ↔ e.HasRoom ∧ img' = img.storeAll e.stores := by
  by_cases room : e.HasRoom
  · rw [edit_of_hasRoom room, Except.ok.injEq]
    exact ⟨fun same => ⟨room, same.symm⟩, fun both => both.2.symm⟩
  · obtain ⟨cause, refused⟩ := edit_of_not_hasRoom room img
    rw [refused]
    exact ⟨nofun, fun both => absurd both.1 room⟩

theorem editAll_append (img : Image) (before after : List Edit) :
    img.editAll (before ++ after) = (img.editAll before).bind fun img => img.editAll after := by
  induction before generalizing img with
  | nil => rfl
  | cons e rest ih =>
    rw [List.cons_append, editAll, editAll]
    cases img.edit e with
    | error cause => rfl
    | ok next => exact ih next

/-- **Edits are their stores**, and they are made exactly if the sums of all of them fit. -/
theorem editAll_eq_ok_iff {edits : List Edit} :
    img.editAll edits = .ok img' ↔
      (∀ e ∈ edits, e.HasRoom) ∧ img' = img.storeAll (edits.flatMap Edit.stores) := by
  induction edits generalizing img with
  | nil => exact ⟨fun same => ⟨nofun, (Except.ok.inj same).symm⟩, fun both => both.2 ▸ rfl⟩
  | cons e rest ih =>
    rw [List.forall_mem_cons, List.flatMap_cons, storeAll_append]
    constructor
    · intro made
      obtain ⟨next, first, others⟩ := exists_of_bind_eq_ok made
      obtain ⟨room, rfl⟩ := edit_eq_ok_iff.mp first
      obtain ⟨rooms, same⟩ := ih.mp others
      exact ⟨⟨room, rooms⟩, same⟩
    · rintro ⟨⟨room, rooms⟩, same⟩
      rw [editAll, edit_of_hasRoom room]
      exact ih.mpr ⟨rooms, same⟩

/-! ## The last store -/

variable {stores xs ys : List Store} {i : Nat}

theorem lastStored?_eq_none (bare : ∀ s ∈ stores, ¬s.covers i = true) :
    lastStored? stores i = none := by
  rw [lastStored?, List.find?_eq_none.mpr fun s hs => bare s (List.mem_reverse.mp hs)]
  rfl

theorem lastStored?_append :
    lastStored? (xs ++ ys) i = (lastStored? ys i).or (lastStored? xs i) := by
  rw [lastStored?, List.reverse_append, List.find?_append, Option.map_or]
  rfl

/-- No byte is covered by two stores of a list. -/
def Disjoint (stores : List Store) : Prop :=
  stores.Pairwise fun s t => ∀ i, ¬(s.covers i = true ∧ t.covers i = true)

theorem lastStored?_of_disjoint (apart : Disjoint stores) {s : Store} (mem : s ∈ stores)
    (covers : s.covers i = true) : lastStored? stores i = some (s.byteAt i) := by
  induction stores with
  | nil => cases mem
  | cons t rest ih =>
    obtain ⟨others, apart⟩ := List.pairwise_cons.mp apart
    rw [← List.singleton_append, lastStored?_append]
    rcases List.mem_cons.mp mem with rfl | mem
    · rw [lastStored?_eq_none fun t ht also => others t ht i ⟨covers, also⟩, Option.none_or,
        lastStored?, List.reverse_singleton, List.find?_singleton, if_pos covers]
      rfl
    · rw [ih apart mem, Option.some_or]

theorem start_of_mem_chainStores {a last : UInt32} {copies : List Copy}
    (room : a.toNat + 9 * copies.length < 0x100000000) {s : Store}
    (mem : s ∈ chainStores a last copies) : a.toNat ≤ s.start.toNat := by
  induction copies generalizing a with
  | nil => cases mem
  | cons c rest ih =>
    rw [List.length_cons] at room
    have here := toNat_add_nine (a := a) (by omega)
    rw [chainStores_cons] at mem
    rcases List.mem_cons.mp mem with rfl | mem
    · exact Nat.le_refl _
    · have behind := ih (by omega) mem
      omega

/-- The instructions of a chain lie side by side. -/
theorem disjoint_chainStores {a last : UInt32} {copies : List Copy}
    (room : a.toNat + 9 * copies.length < 0x100000000) : Disjoint (chainStores a last copies) := by
  induction copies generalizing a with
  | nil => exact List.Pairwise.nil
  | cons c rest ih =>
    rw [List.length_cons] at room
    have here := toNat_add_nine (a := a) (by omega)
    rw [chainStores_cons]
    refine List.pairwise_cons.mpr ⟨fun s mem i both => ?_, ih (by omega)⟩
    have behind := start_of_mem_chainStores (by omega) mem
    have first := (Store.covers_iff.mp both.1).2
    have other := (Store.covers_iff.mp both.2).1
    have size : (instructionBytes c.source c.dest (if rest = [] then last else a + 9)).size = 9 := rfl
    simp only [size] at first
    omega

theorem Edit.disjoint_stores {e : Edit} (room : e.HasRoom) : Disjoint e.stores := by
  cases e with
  | copyChain a copies last => exact disjoint_chainStores room
  | poke | fill | entryPoint | videoPage | audioPage | instruction =>
    exact List.pairwise_singleton ..

/-! ## Stores that lie apart -/

theorem size_le_storeAll (img : Image) (stores : List Store) :
    img.size ≤ (img.storeAll stores).size := by
  rw [size_storeAll]
  exact Nat.le_max_left ..

/-- **No edit makes an image shorter.** -/
theorem size_le_of_editAll {edits : List Edit} (made : img.editAll edits = .ok img') :
    img.size ≤ img'.size := by
  obtain ⟨_, rfl⟩ := editAll_eq_ok_iff.mp made
  exact size_le_storeAll _ _

/-- An image reaches to the end of each of its stores. -/
theorem stop_le_storeAll (img : Image) {s : Store} (mem : s ∈ stores) :
    s.stop ≤ (img.storeAll stores).size := by
  induction stores generalizing img with
  | nil => cases mem
  | cons t rest ih =>
    rcases List.mem_cons.mp mem with rfl | mem
    · have first : s.stop ≤ (img.poke s.start s.data).size := by
        rw [size_poke]
        exact Nat.le_max_right ..
      exact Nat.le_trans first (size_le_storeAll _ rest)
    · exact ih _ mem

/-- **Stores that have no byte in common commute.** Some of them may be empty, and lie anywhere. -/
theorem storeAll_comm (img : Image)
    (apart : ∀ i, (∀ s ∈ xs, ¬s.covers i = true) ∨ ∀ t ∈ ys, ¬t.covers i = true) :
    (img.storeAll xs).storeAll ys = (img.storeAll ys).storeAll xs := by
  apply ext
  · rw [size_storeAll, size_storeAll, size_storeAll, size_storeAll]
    omega
  · intro i _
    rw [byteAt_storeAll, byteAt_storeAll, byteAt_storeAll, byteAt_storeAll]
    rcases apart i with bare | bare
    · rw [lastStored?_eq_none bare]
      rfl
    · rw [lastStored?_eq_none bare]
      rfl

/-- An edit stores a byte at index `i`. -/
def Edit.Covers (e : Edit) (i : Nat) : Prop := ∃ s ∈ e.stores, s.covers i = true

instance (e : Edit) (i : Nat) : Decidable (e.Covers i) :=
  inferInstanceAs (Decidable (∃ s ∈ e.stores, s.covers i = true))

theorem lastStored?_eq_none_of_edits {edits : List Edit} (bare : ∀ e ∈ edits, ¬e.Covers i) :
    lastStored? (edits.flatMap Edit.stores) i = none := by
  refine lastStored?_eq_none fun s hs covers => ?_
  obtain ⟨e, he, mem⟩ := List.mem_flatMap.mp hs
  exact bare e he ⟨s, mem, covers⟩

/-- What edits leave alone stays what it was. -/
theorem byteAt_editAll_of_bare {edits : List Edit} (made : img.editAll edits = .ok img')
    (bare : ∀ e ∈ edits, ¬e.Covers i) : img'.byteAt i = img.byteAt i := by
  obtain ⟨_, rfl⟩ := editAll_eq_ok_iff.mp made
  rw [byteAt_storeAll, lastStored?_eq_none_of_edits bare]
  rfl

/-- **The last edit that covers a byte decides.** -/
theorem byteAt_editAll_of_last {before after : List Edit} {e : Edit}
    (made : img.editAll (before ++ e :: after) = .ok img') {s : Store} (mem : s ∈ e.stores)
    (covers : s.covers i = true) (last : ∀ f ∈ after, ¬f.Covers i) :
    img'.byteAt i = s.byteAt i := by
  obtain ⟨rooms, rfl⟩ := editAll_eq_ok_iff.mp made
  have room := rooms e (List.mem_append_right _ List.mem_cons_self)
  rw [List.flatMap_append, List.flatMap_cons, byteAt_storeAll, lastStored?_append, lastStored?_append,
    lastStored?_eq_none_of_edits last, lastStored?_of_disjoint (Edit.disjoint_stores room) mem covers]
  rfl

/-- Neighbouring edits that have no byte in common can change places. -/
theorem editAll_swap {before after : List Edit} {e f : Edit}
    (apart : ∀ i, ¬(e.Covers i ∧ f.Covers i)) (made : img.editAll (before ++ e :: f :: after) = .ok img') :
    img.editAll (before ++ f :: e :: after) = .ok img' := by
  obtain ⟨rooms, rfl⟩ := editAll_eq_ok_iff.mp made
  have swap : (before ++ f :: e :: after).Perm (before ++ e :: f :: after) :=
    (List.Perm.swap e f after).append_left before
  have comm : ∀ img : Image,
      (img.storeAll e.stores).storeAll f.stores = (img.storeAll f.stores).storeAll e.stores := by
    refine fun img => img.storeAll_comm fun i => ?_
    by_cases first : e.Covers i
    · exact .inr fun t ht covers => apart i ⟨first, t, ht, covers⟩
    · exact .inl fun s hs covers => first ⟨s, hs, covers⟩
  refine editAll_eq_ok_iff.mpr ⟨fun g hg => rooms g (swap.mem_iff.mp hg), ?_⟩
  simp only [List.flatMap_append, List.flatMap_cons, storeAll_append, comm]

/-! ## Images built by edits -/

/--
**The last edit that covers a byte decides.**

Edits of an image that starts empty are made exactly if their sums fit. The image is then as long as
the store that ends last needs it to be. A byte is zero if no edit covers it, and otherwise what the
last edit that does so stores there; an edit has one store for it only. So the image never gets
shorter on the way, and neighbouring edits that have no byte in common can change places. If the
image fits, memory is loaded with its bytes and with zeros behind them.
-/
theorem editAll_last_edit_decides (edits : List Edit) :
    ((∃ img, empty.editAll edits = .ok img) ↔ ∀ e ∈ edits, e.HasRoom) ∧
    ∀ img, empty.editAll edits = .ok img →
      img.size = extent (edits.flatMap Edit.stores) ∧
      (∀ i, (∀ e ∈ edits, ¬e.Covers i) → img.byteAt i = 0) ∧
      (∀ before e after s i, edits = before ++ e :: after → s ∈ e.stores → s.covers i = true →
        (∀ f ∈ after, ¬f.Covers i) → i < img.size ∧ img.byteAt i = s.byteAt i) ∧
      (∀ before after mid, edits = before ++ after → empty.editAll before = .ok mid →
        mid.size ≤ img.size) ∧
      (∀ before e f after, edits = before ++ e :: f :: after → (∀ i, ¬(e.Covers i ∧ f.Covers i)) →
        empty.editAll (before ++ f :: e :: after) = .ok img) ∧
      (img.size ≤ Memory.capacity → ∃ m, Memory.load img.bytes = .ok m ∧
        ∀ i < 0x1000008, m.byteAt i = if i < img.size then img.byteAt i else 0) := by
  refine ⟨⟨fun ⟨img, made⟩ => (editAll_eq_ok_iff.mp made).1, fun rooms =>
    ⟨_, editAll_eq_ok_iff.mpr ⟨rooms, rfl⟩⟩⟩, fun img made => ⟨?_, ?_, ?_, ?_, ?_, ?_⟩⟩
  · obtain ⟨_, rfl⟩ := editAll_eq_ok_iff.mp made
    rw [size_storeAll, size_empty, Nat.zero_max]
  · intro i bare
    rw [byteAt_editAll_of_bare made bare, byteAt_empty]
  · rintro before e after s i rfl mem covers last
    refine ⟨?_, byteAt_editAll_of_last made mem covers last⟩
    have stored : s ∈ (before ++ e :: after).flatMap Edit.stores :=
      List.mem_flatMap.mpr ⟨e, List.mem_append_right _ List.mem_cons_self, mem⟩
    obtain ⟨_, rfl⟩ := editAll_eq_ok_iff.mp made
    exact Nat.lt_of_lt_of_le (Store.covers_iff.mp covers).2 (stop_le_storeAll empty stored)
  · rintro before after mid rfl first
    rw [editAll_append] at made
    obtain ⟨_, again, others⟩ := exists_of_bind_eq_ok made
    obtain rfl := Except.ok.inj (again.symm.trans first)
    exact size_le_of_editAll others
  · rintro before e f after rfl apart
    exact editAll_swap apart made
  · intro fits
    refine ⟨_, Memory.load_of_le fits, fun i _ => (Memory.byteAt_ofImage img.bytes fits i).trans ?_⟩
    by_cases inside : i < img.size
    · rw [if_pos inside]
      rfl
    · rw [if_neg inside, Bytes.get_of_le (Nat.le_of_not_lt inside)]

/-- Two bytes across the first link of a chain and the instruction behind it, two equal ones in its
last link, and no bytes at all behind a gap. -/
theorem editAll_last_edit_decides_gap :
    ∃ img m,
      empty.editAll [.copyChain 0x10 [⟨1, 2⟩, ⟨3, 4⟩] 0x10, .poke 0x18 ⟨#[0xAA, 0xBB]⟩,
        .fill 0x1F 2 0xCC, .poke 0x40 ByteArray.empty, .entryPoint 0x10] = .ok img ∧
      empty.editAll [.copyChain 0x10 [⟨1, 2⟩, ⟨3, 4⟩] 0x10, .poke 0x18 ⟨#[0xAA, 0xBB]⟩,
        .fill 0x1F 2 0xCC, .entryPoint 0x10, .poke 0x40 ByteArray.empty] = .ok img ∧
      img.size = 0x40 ∧ img.byteAt 0x18 = 0xAA ∧ img.byteAt 0x1F = 0xCC ∧ img.byteAt 0x20 = 0xCC ∧
      img.byteAt 0x21 = 0x10 ∧ img.byteAt 0x30 = 0 ∧
      Memory.load img.bytes = .ok m ∧ m.byteAt 0x19 = 0xBB ∧ m.byteAt 0x1000007 = 0 := by
  obtain ⟨made, images⟩ := editAll_last_edit_decides
    [.copyChain 0x10 [⟨1, 2⟩, ⟨3, 4⟩] 0x10, .poke 0x18 ⟨#[0xAA, 0xBB]⟩, .fill 0x1F 2 0xCC,
      .poke 0x40 ByteArray.empty, .entryPoint 0x10]
  obtain ⟨img, edited⟩ := made.mpr (by decide)
  obtain ⟨size, bare, last, _, swap, load⟩ := images img edited
  have size : img.size = 0x40 := size.trans (by decide)
  obtain ⟨m, loaded, bytes⟩ := load (by rw [size]; decide)
  have poked := fun i => last [.copyChain 0x10 [⟨1, 2⟩, ⟨3, 4⟩] 0x10] (.poke 0x18 ⟨#[0xAA, 0xBB]⟩)
    [.fill 0x1F 2 0xCC, .poke 0x40 ByteArray.empty, .entryPoint 0x10] ⟨0x18, ⟨#[0xAA, 0xBB]⟩⟩ i rfl
    List.mem_cons_self
  have filled := fun i => last [.copyChain 0x10 [⟨1, 2⟩, ⟨3, 4⟩] 0x10, .poke 0x18 ⟨#[0xAA, 0xBB]⟩]
    (.fill 0x1F 2 0xCC) [.poke 0x40 ByteArray.empty, .entryPoint 0x10]
    ⟨0x1F, ⟨Array.replicate 2 0xCC⟩⟩ i rfl List.mem_cons_self
  have linked := last [] (.copyChain 0x10 [⟨1, 2⟩, ⟨3, 4⟩] 0x10)
    [.poke 0x18 ⟨#[0xAA, 0xBB]⟩, .fill 0x1F 2 0xCC, .poke 0x40 ByteArray.empty, .entryPoint 0x10]
    ⟨0x19, instructionBytes 3 4 0x10⟩ 0x21 rfl (List.mem_cons_of_mem _ List.mem_cons_self)
  refine ⟨img, m, edited, ?_, size, (poked 0x18 (by decide) (by decide)).2,
    (filled 0x1F (by decide) (by decide)).2, (filled 0x20 (by decide) (by decide)).2,
    (linked (by decide) (by decide)).2, bare 0x30 (by decide), loaded, ?_, ?_⟩
  · refine swap [.copyChain 0x10 [⟨1, 2⟩, ⟨3, 4⟩] 0x10, .poke 0x18 ⟨#[0xAA, 0xBB]⟩,
      .fill 0x1F 2 0xCC] _ _ [] rfl ?_
    rintro i ⟨⟨s, mem, covers⟩, _⟩
    obtain rfl := List.mem_singleton.mp mem
    have covers := Store.covers_iff.mp covers
    exact absurd (Nat.lt_of_le_of_lt covers.1 covers.2) (by decide)
  · rw [bytes 0x19 (by decide), if_pos (by rw [size]; decide)]
    exact (poked 0x19 (by decide) (by decide)).2
  · rw [bytes 0x1000007 (by decide), if_neg (by rw [size]; decide)]

end Image

end ByteByteJump
