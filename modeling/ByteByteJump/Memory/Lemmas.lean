import ByteByteJump.Memory.Basic

/-!
# Reading after writing

The laws that connect the readers with the writers. They follow from the one law
`byteAt_writeByte` of the view.

## Main statements

* `byteAt_writeByte_mod`, `byteAt_writeWord_mod` — what a write leaves, with all addresses as numbers
* `readWord_writeWord` — a word reads back, also where its second byte wraps round to address 0
* `get_fieldBytes_readField` — a field read and stored again gives the bytes that it was read from
-/

namespace ByteByteJump.Memory

/-! ## Bytes -/

/-- A read sees a write exactly if both addresses stand for the same byte. -/
theorem readByte_writeByte (m : Memory) (a b : UInt32) (v : UInt8) :
    (m.writeByte a v).readByte b = if offset b = offset a then v else m.readByte b :=
  byteAt_writeByte ..

theorem readByte_writeByte_same (m : Memory) (a : UInt32) (v : UInt8) :
    (m.writeByte a v).readByte a = v := by rw [readByte_writeByte, if_pos rfl]

theorem byteAt_writeByte_mod (m : Memory) (a : UInt32) (v : UInt8) (i : Nat) :
    (m.writeByte a v).byteAt i = if i = a.toNat % 0x1000000 then v else m.byteAt i :=
  byteAt_writeByte ..

/-- No write reaches the margin. -/
theorem byteAt_writeByte_margin (m : Memory) (a : UInt32) (v : UInt8) {i : Nat}
    (h : addressSpace ≤ i) : (m.writeByte a v).byteAt i = m.byteAt i := by
  rw [byteAt_writeByte, if_neg]
  have := offset_lt a
  omega

/-- Writing what is there changes nothing. -/
theorem writeByte_readByte (m : Memory) (a : UInt32) : m.writeByte a (m.readByte a) = m := by
  apply ext
  intro i _
  rw [byteAt_writeByte]
  split
  · next h => rw [h]; rfl
  · rfl

/-! ## Words -/

/-- The address behind an address stands for the next byte, or for the first one. -/
theorem offset_add_one (a : UInt32) : offset (a + 1) = (offset a + 1) % addressSpace := by
  have := a.toNat_lt
  simp only [offset, UInt32.toNat_add, UInt32.reduceToNat, addressSpace_eq]
  omega

theorem offset_add_one_eq_mod (a : UInt32) : offset (a + 1) = (a.toNat + 1) % addressSpace := by
  rw [offset_add_one, offset, Nat.mod_add_mod]

theorem offset_add_one_ne (a : UInt32) : offset (a + 1) ≠ offset a := by
  have := offset_lt a
  rw [offset_add_one]
  rw [addressSpace_eq] at *
  omega

theorem byteAt_writeWord (m : Memory) (a : UInt32) (w : UInt16) (i : Nat) :
    (m.writeWord a w).byteAt i
      = if i = offset (a + 1) then BigEndian.wordLow w
        else if i = offset a then BigEndian.wordHigh w else m.byteAt i := by
  rw [writeWord, byteAt_writeByte, byteAt_writeByte]

theorem byteAt_writeWord_mod (m : Memory) (a : UInt32) (w : UInt16) (i : Nat) :
    (m.writeWord a w).byteAt i
      = if i = (a.toNat + 1) % 0x1000000 then UInt8.ofNat (w.toNat % 256)
        else if i = a.toNat % 0x1000000 then UInt8.ofNat (w.toNat / 256) else m.byteAt i := by
  rw [byteAt_writeWord, offset_add_one_eq_mod, BigEndian.wordLow_eq_ofNat,
    BigEndian.wordHigh_eq_ofNat]
  rfl

theorem byteAt_writeWord_margin (m : Memory) (a : UInt32) (w : UInt16) {i : Nat}
    (h : addressSpace ≤ i) : (m.writeWord a w).byteAt i = m.byteAt i := by
  rw [writeWord, byteAt_writeByte_margin _ _ _ h, byteAt_writeByte_margin _ _ _ h]

/-- **A word reads back**, at every address. -/
theorem readWord_writeWord (m : Memory) (a : UInt32) (w : UInt16) :
    (m.writeWord a w).readWord a = w := by
  rw [readWord, readByte, readByte, byteAt_writeWord, byteAt_writeWord, if_pos rfl,
    if_neg (fun h => offset_add_one_ne a h.symm), if_pos rfl, BigEndian.word_bytes]

/-! ## Fields -/

theorem toNat_readField (m : Memory) {a : UInt32} (h : a.toNat + 3 ≤ capacity) :
    (m.readField a).toNat
      = (m.byteAt a.toNat).toNat * 65536 + (m.byteAt (a.toNat + 1)).toNat * 256
        + (m.byteAt (a.toNat + 2)).toNat := by
  rw [readField, if_pos h, BigEndian.toNat_field]

/-- What holds at every index of a field holds at three. -/
theorem forall_field_iff {P : Nat → Prop} {start : Nat} :
    (∀ i, start ≤ i → i < start + 3 → P i) ↔ P start ∧ P (start + 1) ∧ P (start + 2) := by
  constructor
  · intro all
    exact ⟨all _ (by omega) (by omega), all _ (by omega) (by omega), all _ (by omega) (by omega)⟩
  · rintro ⟨first, second, third⟩ i low high
    have cases : i = start ∨ i = start + 1 ∨ i = start + 2 := by omega
    rcases cases with rfl | rfl | rfl
    · exact first
    · exact second
    · exact third

/-- **A field of memory is stored in the bytes that it was read from.** -/
theorem get_fieldBytes_readField (m : Memory) {a : UInt32} (room : a.toNat + 3 ≤ capacity)
    {k : Nat} (hk : k < 3) :
    Bytes.get (BigEndian.fieldBytes (m.readField a)) k = m.byteAt (a.toNat + k) := by
  obtain ⟨high, mid, low⟩ := BigEndian.bytes_field (m.byteAt a.toNat) (m.byteAt (a.toNat + 1))
    (m.byteAt (a.toNat + 2))
  rw [readField, if_pos room, BigEndian.fieldBytes, high, mid, low]
  have cases : k = 0 ∨ k = 1 ∨ k = 2 := by omega
  rcases cases with rfl | rfl | rfl <;> rfl

/-- A field that would leave the margin is zero. -/
theorem readField_of_lt (m : Memory) {a : UInt32} (h : capacity < a.toNat + 3) :
    m.readField a = 0 := if_neg (by omega)

end ByteByteJump.Memory
