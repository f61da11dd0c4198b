import ByteByteJump.Image.Basic

/-!
# Where a chain of copies lies

A chain is laid out with nine bytes for each copy. What is said here of its bytes holds of an image
and of a memory alike, so it is said of a view: a function from indices to bytes.

## Main statements

* `Instruction.fetched_of_storedAt`, `ChainAt.fetched_eq` — an instruction is fetched as it was
  stored, also where its last fields are in the margin
* `Image.exists_copyChain`, `Image.copyChain_eq_ok` — a chain can be stored exactly if its end has an
  address, and `ChainStored` says what that does to the image
* `Image.copyChain_entryPoint` — it does not matter whether the entry point is set before or after
-/

namespace ByteByteJump

/-! ## One instruction -/

/-- A field is read as it was written, without its top byte. -/
theorem Memory.toNat_readField_of_bytes {m : Memory} {pc a : UInt32}
    (room : pc.toNat + 3 ≤ Memory.capacity)
    (high : m.byteAt pc.toNat = BigEndian.fieldHigh a)
    (mid : m.byteAt (pc.toNat + 1) = BigEndian.fieldMid a)
    (low : m.byteAt (pc.toNat + 2) = BigEndian.fieldLow a) :
    (m.readField pc).toNat = a.toNat % 0x1000000 := by
  rw [Memory.readField, if_pos room, high, mid, low, BigEndian.toNat_field_bytes]

namespace Instruction

/-- The bytes from index `i` on are those of an instruction. -/
def StoredAt (inst : Instruction) (view : Nat → UInt8) (i : Nat) : Prop :=
  ∀ k < 9, view (i + k) = Bytes.get inst.encode k

theorem StoredAt.congr {inst : Instruction} {view view' : Nat → UInt8} {i : Nat}
    (h : inst.StoredAt view i) (same : ∀ k, i ≤ k → k < i + 9 → view' k = view k) :
    inst.StoredAt view' i := by
  intro k hk
  rw [same (i + k) (by omega) (by omega)]
  exact h k hk

/-- An instruction that lies in memory and its margin has an address for each field. -/
theorem add_six_lt_of_room {pc : UInt32} (room : pc.toNat + 9 ≤ Memory.capacity) :
    pc.toNat + 6 < 0x100000000 := by
  rw [Memory.capacity_eq] at room
  omega

theorem fetched_toNat_of_storedAt {inst : Instruction} {m : Memory} {pc : UInt32}
    (h : inst.StoredAt m.byteAt pc.toNat) (room : pc.toNat + 9 ≤ Memory.capacity) :
    (fetched m pc).source.toNat = inst.source.toNat % 0x1000000 ∧
      (fetched m pc).dest.toNat = inst.dest.toNat % 0x1000000 ∧
      (fetched m pc).next.toNat = inst.next.toNat % 0x1000000 := by
  obtain ⟨second, third⟩ := toNat_fieldAddress (add_six_lt_of_room room)
  refine ⟨?_, ?_, ?_⟩
  · exact Memory.toNat_readField_of_bytes (by omega) (h 0 (by decide)) (h 1 (by decide))
      (h 2 (by decide))
  · refine Memory.toNat_readField_of_bytes (by omega) ?_ ?_ ?_ <;> rw [second]
    · exact h 3 (by decide)
    · exact h 4 (by decide)
    · exact h 5 (by decide)
  · refine Memory.toNat_readField_of_bytes (by omega) ?_ ?_ ?_ <;> rw [third]
    · exact h 6 (by decide)
    · exact h 7 (by decide)
    · exact h 8 (by decide)

/-- **An instruction is fetched as it was stored**, also where it ends in the margin. -/
theorem fetched_of_storedAt {inst : Instruction} {m : Memory} {pc : UInt32}
    (h : inst.StoredAt m.byteAt pc.toNat) (room : pc.toNat + 9 ≤ Memory.capacity)
    (source : inst.source.toNat < 0x1000000) (dest : inst.dest.toNat < 0x1000000)
    (next : inst.next.toNat < 0x1000000) : fetched m pc = inst := by
  obtain ⟨hs, hd, hn⟩ := fetched_toNat_of_storedAt h room
  rw [Nat.mod_eq_of_lt source] at hs
  rw [Nat.mod_eq_of_lt dest] at hd
  rw [Nat.mod_eq_of_lt next] at hn
  show (⟨(fetched m pc).source, (fetched m pc).dest, (fetched m pc).next⟩ : Instruction) = inst
  rw [UInt32.toNat_inj.mp hs, UInt32.toNat_inj.mp hd, UInt32.toNat_inj.mp hn]

end Instruction

/-! ## A chain -/

/-- Where instruction `i` of a chain of `n` instructions at `a` goes on. -/
def chainNext (a last : UInt32) (n i : Nat) : UInt32 :=
  if i + 1 < n then UInt32.ofNat (a.toNat + 9 * (i + 1)) else last

/-- The bytes from an address on are those of a chain of copies that ends at `last`. -/
def ChainAt (view : Nat → UInt8) (a last : UInt32) (copies : List Copy) : Prop :=
  ∀ i, (hi : i < copies.length) →
    Instruction.StoredAt ⟨copies[i].source, copies[i].dest, chainNext a last copies.length i⟩ view
      (a.toNat + 9 * i)

theorem toNat_add_nine {a : UInt32} (h : a.toNat + 9 < 0x100000000) :
    (a + 9).toNat = a.toNat + 9 := toNat_add_of_lt h

/-- The tail of a chain is a chain. -/
theorem chainNext_add_nine {a : UInt32} (h : a.toNat + 9 < 0x100000000) (last : UInt32)
    (n i : Nat) : chainNext (a + 9) last n i = chainNext a last (n + 1) (i + 1) := by
  unfold chainNext
  rw [toNat_add_nine h]
  by_cases inside : i + 1 < n
  · rw [if_pos inside, if_pos (by omega)]
    congr 1
    omega
  · rw [if_neg inside, if_neg (by omega)]

theorem toNat_chainNext_of_lt {a : UInt32} {n i : Nat} (room : a.toNat + 9 * n < 0x100000000)
    (hi : i + 1 < n) (last : UInt32) :
    (chainNext a last n i).toNat = a.toNat + 9 * (i + 1) := by
  rw [chainNext, if_pos hi]
  exact UInt32.toNat_ofNat_of_lt' (by show _ < 4294967296; omega)

/-- Only the last instruction may reach the margin, so all of them have 24-bit addresses. -/
theorem chainNext_lt {a last : UInt32} {n i : Nat} (room : a.toNat + 9 * n ≤ Memory.capacity)
    (small : last.toNat < 0x1000000) : (chainNext a last n i).toNat < 0x1000000 := by
  rw [Memory.capacity_eq] at room
  by_cases inside : i + 1 < n
  · rw [toNat_chainNext_of_lt (by omega) inside]
    omega
  · rw [chainNext, if_neg inside]
    exact small

theorem chainNext_zero {a : UInt32} (h : a.toNat + 9 < 0x100000000) (last : UInt32)
    (rest : List Copy) :
    chainNext a last (rest.length + 1) 0 = if rest = [] then last else a + 9 := by
  cases rest with
  | nil => rfl
  | cons d rest =>
    rw [chainNext, if_pos (by simp), if_neg (List.cons_ne_nil d rest)]
    refine UInt32.toNat_inj.mp ?_
    rw [toNat_add_nine h]
    exact UInt32.toNat_ofNat_of_lt' h

theorem ChainAt.congr {view view' : Nat → UInt8} {a last : UInt32} {copies : List Copy}
    (h : ChainAt view a last copies)
    (same : ∀ i, a.toNat ≤ i → i < a.toNat + 9 * copies.length → view' i = view i) :
    ChainAt view' a last copies := by
  intro i hi
  refine (h i hi).congr fun k low high => same k (by omega) ?_
  omega

/-- **An instruction of a chain is fetched as its copy and its link.** -/
theorem ChainAt.fetched_eq {m : Memory} {a last pc : UInt32} {copies : List Copy}
    (h : ChainAt m.byteAt a last copies) (room : a.toNat + 9 * copies.length ≤ Memory.capacity)
    (small : last.toNat < 0x1000000) {i : Nat} (hi : i < copies.length)
    (source : copies[i].source.toNat < 0x1000000) (dest : copies[i].dest.toNat < 0x1000000)
    (here : pc.toNat = a.toNat + 9 * i) :
    Instruction.fetched m pc
      = ⟨copies[i].source, copies[i].dest, chainNext a last copies.length i⟩ := by
  refine Instruction.fetched_of_storedAt ?_ (by omega) source dest (chainNext_lt room small)
  rw [here]
  exact h i hi

/-- The first instruction of a chain and the others. -/
theorem chainAt_cons {view : Nat → UInt8} {a last : UInt32} {c : Copy} {rest : List Copy}
    (room : a.toNat + 9 < 0x100000000)
    (first : Instruction.StoredAt ⟨c.source, c.dest, chainNext a last (rest.length + 1) 0⟩ view
      a.toNat)
    (others : ChainAt view (a + 9) last rest) : ChainAt view a last (c :: rest) := by
  rintro (_ | i) hi
  · exact first
  · have here := others i (Nat.lt_of_succ_lt_succ hi)
    rw [chainNext_add_nine room, toNat_add_nine room] at here
    rw [show a.toNat + 9 * (i + 1) = a.toNat + 9 + 9 * i by omega]
    exact here

theorem ChainAt.tail {view : Nat → UInt8} {a last : UInt32} {c : Copy} {rest : List Copy}
    (room : a.toNat + 9 < 0x100000000) (h : ChainAt view a last (c :: rest)) :
    ChainAt view (a + 9) last rest := by
  intro i hi
  have here := h (i + 1) (Nat.succ_lt_succ hi)
  rw [chainNext_add_nine room, toNat_add_nine room,
    show a.toNat + 9 + 9 * i = a.toNat + 9 * (i + 1) by omega]
  exact here

namespace Image

theorem storedAt_instruction (img : Image) (a : UInt32) (inst : Instruction) :
    inst.StoredAt (img.instruction a inst).byteAt a.toNat := by
  intro k hk
  rw [instruction, byteAt_poke, Instruction.size_encode, if_pos (by omega)]
  congr 1
  omega

theorem byteAt_instruction_of_outside (img : Image) {a : UInt32} (inst : Instruction) {i : Nat}
    (h : i < a.toNat ∨ a.toNat + 9 ≤ i) : (img.instruction a inst).byteAt i = img.byteAt i := by
  rw [instruction, byteAt_poke, Instruction.size_encode, if_neg (by omega)]

/-- The first copy of a chain is stored, then the others are. -/
theorem copyChain_cons {img : Image} {a : UInt32} (c : Copy) (rest : List Copy) (last : UInt32)
    (h : a.toNat + 9 < 0x100000000) :
    img.copyChain a (c :: rest) last
      = (img.instruction a ⟨c.source, c.dest, chainNext a last (rest.length + 1) 0⟩).copyChain
          (a + 9) rest last := by
  rw [chainNext_zero h]
  cases rest with
  | nil => exact copyChain_singleton c last h
  | cons d rest =>
    rw [if_neg (List.cons_ne_nil d rest)]
    exact copyChain_cons_cons c d rest last h

/-- What storing a chain does to an image. -/
structure ChainStored (img img' : Image) (a last : UInt32) (copies : List Copy) : Prop where
  eq_of_nil : copies = [] → img' = img
  size_eq : copies ≠ [] → img'.size = max img.size (a.toNat + 9 * copies.length)
  outside : ∀ i, i < a.toNat ∨ a.toNat + 9 * copies.length ≤ i → img'.byteAt i = img.byteAt i
  chain : ChainAt img'.byteAt a last copies

/-- One more instruction in front of a stored chain. -/
theorem ChainStored.cons {img img' : Image} {a last : UInt32} {c : Copy} {rest : List Copy}
    (room : a.toNat + 9 < 0x100000000)
    (h : ChainStored (img.instruction a ⟨c.source, c.dest, chainNext a last (rest.length + 1) 0⟩)
      img' (a + 9) last rest) : ChainStored img img' a last (c :: rest) where
  eq_of_nil := fun nil => nomatch nil
  size_eq := by
    intro _
    rw [List.length_cons]
    by_cases nil : rest = []
    · rw [h.eq_of_nil nil, nil, instruction, size_poke, Instruction.size_encode, List.length_nil]
    · rw [h.size_eq nil, toNat_add_nine room, instruction, size_poke, Instruction.size_encode]
      omega
  outside := by
    intro i hi
    rw [List.length_cons] at hi
    rw [h.outside i (by rw [toNat_add_nine room]; omega),
      byteAt_instruction_of_outside _ _ (by omega)]
  chain := by
    refine chainAt_cons room ?_ h.chain
    refine (storedAt_instruction img a _).congr fun k low high => ?_
    exact h.outside k (by rw [toNat_add_nine room]; omega)

/-- **A chain whose end has an address can be stored.** -/
theorem exists_copyChain (img : Image) (a last : UInt32) (copies : List Copy)
    (room : a.toNat + 9 * copies.length < 0x100000000) :
    ∃ img' behind, img.copyChain a copies last = .ok (img', behind) ∧
      behind.toNat = a.toNat + 9 * copies.length ∧ ChainStored img img' a last copies := by
  induction copies generalizing img a with
  | nil =>
    refine ⟨img, a, rfl, rfl, fun _ => rfl, fun some => absurd rfl some, fun i _ => rfl, ?_⟩
    intro i hi
    exact absurd hi (Nat.not_lt_zero i)
  | cons c rest ih =>
    rw [List.length_cons] at room
    have here : a.toNat + 9 < 0x100000000 := by omega
    have step := toNat_add_nine here
    -- the others are stored over an image that has the first one already
    obtain ⟨img', behind, eq, length, stored⟩ :=
      ih (img.instruction a ⟨c.source, c.dest, chainNext a last (rest.length + 1) 0⟩) (a + 9)
        (by omega)
    refine ⟨img', behind, ?_, ?_, stored.cons here⟩
    · rw [copyChain_cons c rest last here, eq]
    · rw [length, List.length_cons]
      omega

/-- A chain whose end has no address is refused, with the first sum that does not fit. -/
theorem copyChain_of_le (img : Image) {a last : UInt32} {copies : List Copy}
    (full : 0x100000000 ≤ a.toNat + 9 * copies.length) :
    img.copyChain a copies last = .error .chainAddress := by
  induction copies generalizing img a with
  | nil =>
    have := a.toNat_lt
    rw [List.length_nil] at full
    omega
  | cons c rest ih =>
    rw [List.length_cons] at full
    by_cases here : a.toNat + 9 < 0x100000000
    · rw [copyChain_cons c rest last here]
      refine ih _ ?_
      rw [toNat_add_nine here]
      omega
    · rw [copyChain, Instruction.size, addAddress_of_le (Nat.not_lt.mp here)]
      rfl

/-- **Everything that storing a chain can do** if it is not refused. -/
theorem copyChain_eq_ok {img img' : Image} {a last behind : UInt32} {copies : List Copy}
    (h : img.copyChain a copies last = .ok (img', behind)) :
    a.toNat + 9 * copies.length < 0x100000000 ∧ behind.toNat = a.toNat + 9 * copies.length ∧
      ChainStored img img' a last copies := by
  by_cases room : a.toNat + 9 * copies.length < 0x100000000
  · obtain ⟨img₁, behind₁, eq, length, stored⟩ := img.exists_copyChain a last copies room
    rw [eq] at h
    cases h
    exact ⟨room, length, stored⟩
  · rw [img.copyChain_of_le (Nat.not_lt.mp room)] at h
    cases h

/-- A chain behind the entry point and the entry point can be stored in either order. -/
theorem copyChain_entryPoint (img : Image) {a : UInt32} (behind : 5 ≤ a.toNat) (pc last : UInt32)
    (copies : List Copy) :
    (img.entryPoint pc).copyChain a copies last
      = (img.copyChain a copies last).map fun r => (r.1.entryPoint pc, r.2) := by
  induction copies generalizing img a with
  | nil => rfl
  | cons c rest ih =>
    by_cases here : a.toNat + 9 < 0x100000000
    · have comm : ∀ inst, (img.entryPoint pc).instruction a inst
          = (img.instruction a inst).entryPoint pc := by
        intro inst
        exact img.poke_comm (.inl behind)
      rw [copyChain_cons c rest last here, copyChain_cons c rest last here, comm]
      exact ih _ (by rw [toNat_add_nine here]; omega)
    · have full : 0x100000000 ≤ a.toNat + 9 * (c :: rest).length := by
        rw [List.length_cons]
        omega
      rw [copyChain_of_le _ full, copyChain_of_le _ full]
      rfl

end Image

end ByteByteJump
