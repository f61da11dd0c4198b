import ByteByteJump.Proofs.Chain.Layout

/-!
# A chain byte by byte, and in two parts

The copies of a chain may have any operands of 32 bits, and the image may hold anything. Each
instruction keeps the low 24 bits of its source, its destination and its link. The link of the last
one is given, every other one links to the instruction behind it.

So a chain can be laid out in two parts, the first of which ends at the second. The second must not be
empty: the last instruction of the first part would go on behind the chain, and not where the chain
does.

## Main statements

* `fieldAt_of_storedAt`, `extract_of_storedAt` — the bytes of a stored instruction, as numbers and as
  a whole
* `copyChain_append` — a chain in two parts, also where one of them is refused
* `copyChain_layout` — a chain byte by byte, for all operands
-/

namespace ByteByteJump.Image

variable {img : Image} {inst : Instruction} {i : Nat}

/-! ## The bytes of one instruction -/

/-- The number that is stored in the three bytes from index `i` on. -/
def fieldAt (img : Image) (i : Nat) : Nat :=
  (img.byteAt i).toNat * 65536 + (img.byteAt (i + 1)).toNat * 256 + (img.byteAt (i + 2)).toNat

theorem fieldAt_of_bytes {a : UInt32} (high : img.byteAt i = BigEndian.fieldHigh a)
    (mid : img.byteAt (i + 1) = BigEndian.fieldMid a)
    (low : img.byteAt (i + 2) = BigEndian.fieldLow a) : img.fieldAt i = a.toNat % 0x1000000 := by
  rw [fieldAt, high, mid, low, ← BigEndian.toNat_field, BigEndian.toNat_field_bytes]

/-- **A stored instruction keeps the low 24 bits of its fields.** -/
theorem fieldAt_of_storedAt (h : inst.StoredAt img.byteAt i) :
    img.fieldAt i = inst.source.toNat % 0x1000000 ∧
      img.fieldAt (i + 3) = inst.dest.toNat % 0x1000000 ∧
      img.fieldAt (i + 6) = inst.next.toNat % 0x1000000 :=
  ⟨fieldAt_of_bytes (h 0 (by decide)) (h 1 (by decide)) (h 2 (by decide)),
    fieldAt_of_bytes (h 3 (by decide)) (h 4 (by decide)) (h 5 (by decide)),
    fieldAt_of_bytes (h 6 (by decide)) (h 7 (by decide)) (h 8 (by decide))⟩

theorem extract_of_storedAt (h : inst.StoredAt img.byteAt i) (inside : i + 9 ≤ img.size) :
    img.bytes.extract i (i + 9) = inst.encode := by
  have inside : i + 9 ≤ img.bytes.size := inside
  have size : (img.bytes.extract i (i + 9)).size = 9 := by
    rw [ByteArray.size_extract, Nat.min_eq_left inside, Nat.add_sub_cancel_left]
  refine Bytes.ext size fun k hk => ?_
  rw [size] at hk
  rw [Bytes.get_extract, if_pos (by omega)]
  exact h k hk

/-! ## Two parts -/

/--
**Laying out a chain in two parts is laying it out once**, if the first part goes on where it ends.

Where the end of the first part has no address, that part is refused, and so is the whole.
-/
theorem copyChain_append (img : Image) (a last : UInt32) (xs : List Copy) {ys : List Copy}
    (nonempty : ys ≠ []) :
    img.copyChain a (xs ++ ys) last
      = (img.copyChain a xs (UInt32.ofNat (a.toNat + 9 * xs.length))).bind fun r =>
          r.1.copyChain r.2 ys last := by
  induction xs generalizing img a with
  | nil => rfl
  | cons c rest ih =>
    by_cases here : a.toNat + 9 < 0x100000000
    · -- the first instruction links to the one behind it, also if it is all of the first part
      have whole : chainNext a last ((rest ++ ys).length + 1) 0 = a + 9 := by
        rw [chainNext_zero here, if_neg (List.append_ne_nil_of_right_ne_nil rest nonempty)]
      have stop : UInt32.ofNat ((a + 9).toNat + 9 * rest.length)
          = UInt32.ofNat (a.toNat + 9 * (c :: rest).length) := by
        rw [toNat_add_nine here, List.length_cons]
        congr 1
        omega
      have part : chainNext a (UInt32.ofNat (a.toNat + 9 * (c :: rest).length)) (rest.length + 1) 0
          = a + 9 := by
        rw [chainNext_zero here, ← stop]
        by_cases one : rest = []
        · rw [if_pos one, one, List.length_nil, Nat.mul_zero, Nat.add_zero, UInt32.ofNat_toNat]
        · rw [if_neg one]
      rw [List.cons_append, copyChain_cons _ _ _ here, copyChain_cons _ _ _ here, whole, part, ih,
        stop]
    · rw [copyChain_of_le, copyChain_of_le]
      · rfl
      · rw [List.length_cons]
        omega
      · rw [List.length_append, List.length_cons]
        omega

/-! ## All of a chain -/

/--
**A chain lies where it should, byte by byte**, whatever its operands are and whatever was there.

If the end of the chain has an address, this address is returned. A chain without copies changes
nothing. Any other one makes the image as long as its end needs it to be; it changes its own bytes
only, with zeros in a gap before it. Instruction `i` has nine bytes, and these are the low 24 bits of
its source, of its destination and of its link.

A chain may be laid out in two parts, if there is anything in the second one.
-/
theorem copyChain_layout (img : Image) (a last : UInt32) (copies : List Copy) :
    (a.toNat + 9 * copies.length < 0x100000000 →
      ∃ img' behind, img.copyChain a copies last = .ok (img', behind) ∧
        behind.toNat = a.toNat + 9 * copies.length ∧
        (copies = [] → img' = img) ∧
        (copies ≠ [] → img'.size = max img.size (a.toNat + 9 * copies.length)) ∧
        (∀ i, i < a.toNat ∨ a.toNat + 9 * copies.length ≤ i →
          img'.byteAt i = if i < img.size then img.byteAt i else 0) ∧
        ∀ i, (hi : i < copies.length) → ∃ link : UInt32,
          link.toNat
            = (if i + 1 < copies.length then a.toNat + 9 * (i + 1) else last.toNat) ∧
          img'.bytes.extract (a.toNat + 9 * i) (a.toNat + 9 * i + 9)
            = Instruction.encode ⟨copies[i].source, copies[i].dest, link⟩ ∧
          img'.fieldAt (a.toNat + 9 * i) = copies[i].source.toNat % 0x1000000 ∧
          img'.fieldAt (a.toNat + 9 * i + 3) = copies[i].dest.toNat % 0x1000000 ∧
          img'.fieldAt (a.toNat + 9 * i + 6) = link.toNat % 0x1000000) ∧
    ∀ xs ys, copies = xs ++ ys → ys ≠ [] →
      img.copyChain a copies last
        = (img.copyChain a xs (UInt32.ofNat (a.toNat + 9 * xs.length))).bind fun r =>
            r.1.copyChain r.2 ys last := by
  refine ⟨fun room => ?_, ?_⟩
  · obtain ⟨img', behind, eq, stop, stored⟩ := img.exists_copyChain a last copies room
    refine ⟨img', behind, eq, stop, stored.eq_of_nil, stored.size_eq, ?_, ?_⟩
    · intro i hi
      rw [stored.outside i hi]
      by_cases old : i < img.size
      · rw [if_pos old]
      · rw [if_neg old]
        exact Bytes.get_of_le (Nat.not_lt.mp old)
    · intro i hi
      have here := stored.chain i hi
      have inside : a.toNat + 9 * i + 9 ≤ img'.size := by
        rw [stored.size_eq (List.ne_nil_of_length_pos (by omega))]
        omega
      refine ⟨chainNext a last copies.length i, ?_, extract_of_storedAt here inside,
        fieldAt_of_storedAt here⟩
      by_cases inner : i + 1 < copies.length
      · rw [if_pos inner, toNat_chainNext_of_lt room inner]
      · rw [if_neg inner, chainNext, if_neg inner]
  · rintro xs ys rfl nonempty
    exact img.copyChain_append a last xs nonempty

/-- Operands of more than 24 bits, over the end of the addresses of 24 bits and with a gap before
them: the links are cut like the operands. -/
theorem copyChain_layout_cut :
    ∃ img' behind, (empty.poke 2 ⟨#[0xAA]⟩).copyChain 0xFFFFF7
        [⟨0x12345678, 1⟩, ⟨3, 0xFFFFFFFF⟩, ⟨5, 6⟩] 0xAB000010 = .ok (img', behind) ∧
      behind.toNat = 0x1000012 ∧ img'.size = 0x1000012 ∧
      img'.byteAt 2 = 0xAA ∧ img'.byteAt 3 = 0 ∧
      (img'.fieldAt 0xFFFFF7 = 0x345678 ∧ img'.fieldAt 0xFFFFFD = 0) ∧
      (img'.fieldAt 0x1000003 = 0xFFFFFF ∧ img'.fieldAt 0x1000006 = 9) ∧
      img'.fieldAt 0x100000F = 0x10 ∧
      ((empty.poke 2 ⟨#[0xAA]⟩).copyChain 0xFFFFF7 [⟨0x12345678, 1⟩] 0x1000000).bind (fun r =>
        r.1.copyChain r.2 [⟨3, 0xFFFFFFFF⟩, ⟨5, 6⟩] 0xAB000010) = .ok (img', behind) := by
  obtain ⟨layout, split⟩ := copyChain_layout (empty.poke 2 ⟨#[0xAA]⟩) 0xFFFFF7 0xAB000010
    [⟨0x12345678, 1⟩, ⟨3, 0xFFFFFFFF⟩, ⟨5, 6⟩]
  obtain ⟨img', behind, eq, stop, _, size, outside, chain⟩ := layout (by decide)
  obtain ⟨first, hfirst, _, source, _, link⟩ := chain 0 (by decide)
  obtain ⟨second, hsecond, _, _, dest, link'⟩ := chain 1 (by decide)
  obtain ⟨third, hthird, _, _, _, link''⟩ := chain 2 (by decide)
  rw [hfirst] at link
  rw [hsecond] at link'
  rw [hthird] at link''
  refine ⟨img', behind, eq, stop, ?_, ?_, ?_, ⟨source, link⟩, ⟨dest, link'⟩, link'', ?_⟩
  · rw [size (by decide), size_poke]
    decide
  · rw [outside 2 (by decide), byteAt_poke, size_poke]
    decide
  · rw [outside 3 (by decide), size_poke]
    decide
  · exact (split [⟨0x12345678, 1⟩] _ rfl (by decide)).symm.trans eq

end ByteByteJump.Image
