import ByteByteJump.Memory.Writes
import ByteByteJump.Proofs.Guarded

/-!
# The last store decides

Addresses have 32 bits, of which memory looks at 24, so each of its bytes has 256 addresses. A word is
two stores, and its second address wraps round at `2 ^ 32` where its index does at `2 ^ 24`. None of this
is seen in what a sequence of writes leaves: each byte is what the last store to its index stored,
whatever addresses were used and whether it was stored alone or in a word.

Writes that have no index in common can therefore change places, and each index that is not stored to
keeps its byte. Those of the margin are never stored to.

## Main statements

* `byteAt_storeAll_of_bare`, `byteAt_storeAll_of_last` — a byte after a list of stores
* `storeAll_comm`, `writeAll_swap` — stores and writes that lie apart commute
* `Guarded.writeAll_memory` — no write of a sequence leaves the array
* `writeAll_last_store_decides` — sequences of writes, and what is read after them
-/

namespace ByteByteJump

/-! ## Stores -/

namespace Memory

variable {stores before after xs ys : List Store} {s : Store} {i : Nat}

/-- A byte that is not stored to stays as it is. -/
theorem byteAt_storeAll_of_bare (m : Memory) (bare : ∀ s ∈ stores, offset s.address ≠ i) :
    (m.storeAll stores).byteAt i = m.byteAt i := by
  have unstored : lastStored? stores i = none := by
    rw [lastStored?, List.find?_eq_none.mpr]
    · rfl
    · intro s hs hits
      exact bare s (List.mem_reverse.mp hs) (beq_iff_eq.mp hits)
  rw [byteAt_storeAll, unstored]
  rfl

/-- **The last store to a byte decides**, whatever was stored before. -/
theorem byteAt_storeAll_of_last (m : Memory) (here : offset s.address = i)
    (last : ∀ t ∈ after, offset t.address ≠ i) :
    (m.storeAll (before ++ s :: after)).byteAt i = s.value := by
  rw [storeAll_append, storeAll_cons, byteAt_storeAll_of_bare _ last, byteAt_writeByte,
    if_pos here.symm]

/-- Where only one of two lists stores, it does not matter which of them is first. -/
theorem byteAt_storeAll_comm (m : Memory) (bare : ∀ t ∈ ys, offset t.address ≠ i) :
    ((m.storeAll xs).storeAll ys).byteAt i = ((m.storeAll ys).storeAll xs).byteAt i :=
  calc ((m.storeAll xs).storeAll ys).byteAt i
      = (m.storeAll xs).byteAt i := byteAt_storeAll_of_bare _ bare
    _ = (lastStored? xs i).getD (m.byteAt i) := byteAt_storeAll m xs i
    _ = (lastStored? xs i).getD ((m.storeAll ys).byteAt i) := by
      rw [byteAt_storeAll_of_bare m bare]
    _ = ((m.storeAll ys).storeAll xs).byteAt i := (byteAt_storeAll _ xs i).symm

/-- **Stores that have no byte in common commute.** -/
theorem storeAll_comm (m : Memory)
    (apart : ∀ s ∈ xs, ∀ t ∈ ys, offset s.address ≠ offset t.address) :
    (m.storeAll xs).storeAll ys = (m.storeAll ys).storeAll xs := by
  apply ext
  intro i _
  by_cases stored : ∃ s ∈ xs, offset s.address = i
  · obtain ⟨s, hs, rfl⟩ := stored
    exact m.byteAt_storeAll_comm fun t ht => (apart s hs t ht).symm
  · exact (m.byteAt_storeAll_comm fun s hs here => stored ⟨s, hs, here⟩).symm

/-! ## Writes -/

variable {v w : Write}

/-- **Writes that have no byte in common can change places**, wherever they stand in a sequence. -/
theorem writeAll_swap (m : Memory) (before after : List Write)
    (apart : ∀ s ∈ v.stores, ∀ t ∈ w.stores, offset s.address ≠ offset t.address) :
    m.writeAll (before ++ v :: w :: after) = m.writeAll (before ++ w :: v :: after) := by
  simp only [writeAll_eq_storeAll, List.flatMap_append, List.flatMap_cons, storeAll_append]
  rw [storeAll_comm _ apart]

/-- The second byte of a word that starts at the last index is the first byte of memory. -/
theorem byteAt_zero_writeWord (m : Memory) {a : UInt32} (top : a.toNat % 0x1000000 = 0xFFFFFF)
    (w : UInt16) : (m.writeWord a w).byteAt 0 = UInt8.ofNat (w.toNat % 256) := by
  rw [byteAt_writeWord_mod, if_pos (by omega)]

end Memory

/-! ## Guarded writes -/

namespace Guarded

/-- Makes a write. -/
def write (b : ByteArray) : Memory.Write → Except Fault ByteArray
  | .byte a v => setByte b a v
  | .word a w => setWord b a w

/-- Makes writes from left to right. -/
def writeAll : ByteArray → List Memory.Write → Except Fault ByteArray
  | b, [] => .ok b
  | b, w :: rest => write b w >>= fun b => writeAll b rest

theorem write_memory (m : Memory) (w : Memory.Write) : write m.bytes w = .ok (w.apply m).bytes := by
  cases w with
  | byte a v => exact setByte_memory m a v
  | word a w => exact setWord_memory m a w

/-- **No write of a sequence leaves the array**, at whatever addresses. -/
theorem writeAll_memory (m : Memory) (writes : List Memory.Write) :
    writeAll m.bytes writes = .ok (m.writeAll writes).bytes := by
  induction writes generalizing m with
  | nil => rfl
  | cons w rest ih =>
    rw [writeAll, write_memory, ok_bind, ih]
    rfl

end Guarded

/-! ## Sequences -/

/--
**The last store decides.**

No write leaves the array, at whatever addresses of 32 bits. After a sequence of writes, each of them
taken as its stores, a byte that is read at an address is what the last store to an address equal to it
modulo `2 ^ 24` stored. If there is none it is what it was, and so is every byte of the margin. Two
neighbours of the sequence can change places if no store of the one has an address equal to one of the
other modulo `2 ^ 24`.

A word that is then written reads back at every address. At an address whose next one is 0 modulo
`2 ^ 24` its second byte is at address 0.
-/
theorem Memory.writeAll_last_store_decides (m : Memory) (writes : List Write) :
    Guarded.writeAll m.bytes writes = .ok (m.writeAll writes).bytes ∧
    (∀ (b : UInt32) before s after, writes.flatMap Write.stores = before ++ s :: after →
      s.address.toNat % 0x1000000 = b.toNat % 0x1000000 →
      (∀ t ∈ after, t.address.toNat % 0x1000000 ≠ b.toNat % 0x1000000) →
      (m.writeAll writes).readByte b = s.value) ∧
    (∀ b : UInt32, (∀ s ∈ writes.flatMap Write.stores,
        s.address.toNat % 0x1000000 ≠ b.toNat % 0x1000000) →
      (m.writeAll writes).readByte b = m.readByte b) ∧
    (∀ i, 0x1000000 ≤ i → (m.writeAll writes).byteAt i = m.byteAt i) ∧
    (∀ before v w after, writes = before ++ v :: w :: after →
      (∀ s ∈ v.stores, ∀ t ∈ w.stores,
        s.address.toNat % 0x1000000 ≠ t.address.toNat % 0x1000000) →
      m.writeAll writes = m.writeAll (before ++ w :: v :: after)) ∧
    ∀ (a : UInt32) (w : UInt16), ((m.writeAll writes).writeWord a w).readWord a = w ∧
      (a.toNat % 0x1000000 = 0xFFFFFF →
        ((m.writeAll writes).writeWord a w).readByte 0 = UInt8.ofNat (w.toNat % 256)) := by
  refine ⟨Guarded.writeAll_memory m writes, ?_, ?_, ?_, ?_, fun a w => ⟨?_, fun top => ?_⟩⟩
  · intro b before s after stores here last
    rw [writeAll_eq_storeAll, stores]
    exact byteAt_storeAll_of_last m here last
  · intro b bare
    rw [writeAll_eq_storeAll]
    exact byteAt_storeAll_of_bare m bare
  · intro i margin
    rw [writeAll_eq_storeAll]
    refine byteAt_storeAll_of_bare m fun s _ here => ?_
    have inside := offset_lt s.address
    rw [here] at inside
    exact absurd inside (Nat.not_lt.mpr margin)
  · rintro before v w after rfl apart
    exact m.writeAll_swap before after apart
  · exact readWord_writeWord _ a w
  · exact byteAt_zero_writeWord _ top w

/-- Two words that start at the last index and a byte, none of them at an address below `2 ^ 24`, all
store to the first byte of memory. A byte elsewhere may be stored before the first of them or after it. -/
theorem Memory.writeAll_last_store_decides_aliased :
    ∃ m : Memory, m = blank.writeAll [.byte 0x2000007 9, .word 0xFFFFFFFF 0x1234,
        .byte 0x1000000 0x56, .word 0x11FFFFFF 0xABCD] ∧
      m.readByte 0 = 0xCD ∧ m.readByte 0x7FFFFFF = 0xAB ∧ m.readByte 8 = 0 ∧
      m.byteAt 0x1000000 = 0 ∧
      m = blank.writeAll [.word 0xFFFFFFFF 0x1234, .byte 0x2000007 9, .byte 0x1000000 0x56,
        .word 0x11FFFFFF 0xABCD] ∧
      (m.writeWord 0xFFFFFFFF 0x5678).readWord 0xFFFFFFFF = 0x5678 ∧
      (m.writeWord 0xFFFFFFFF 0x5678).readByte 0 = 0x78 := by
  obtain ⟨_, last, bare, margin, swap, word⟩ := blank.writeAll_last_store_decides
    [.byte 0x2000007 9, .word 0xFFFFFFFF 0x1234, .byte 0x1000000 0x56, .word 0x11FFFFFF 0xABCD]
  obtain ⟨back, first⟩ := word 0xFFFFFFFF 0x5678
  refine ⟨_, rfl, ?_, ?_, ?_, ?_, ?_, back, first (by decide)⟩
  · exact last 0 [⟨0x2000007, 9⟩, ⟨0xFFFFFFFF, 0x12⟩, ⟨0, 0x34⟩, ⟨0x1000000, 0x56⟩,
      ⟨0x11FFFFFF, 0xAB⟩] ⟨0x12000000, 0xCD⟩ [] (by decide) (by decide) (by decide)
  · exact last 0x7FFFFFF [⟨0x2000007, 9⟩, ⟨0xFFFFFFFF, 0x12⟩, ⟨0, 0x34⟩, ⟨0x1000000, 0x56⟩]
      ⟨0x11FFFFFF, 0xAB⟩ [⟨0x12000000, 0xCD⟩] (by decide) (by decide) (by decide)
  · exact (bare 8 (by decide)).trans (byteAt_blank _)
  · rw [margin _ (by decide), byteAt_blank]
  · exact swap [] (.byte 0x2000007 9) (.word 0xFFFFFFFF 0x1234) _ rfl (by decide)

end ByteByteJump
