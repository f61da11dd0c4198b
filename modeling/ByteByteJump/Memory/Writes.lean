import ByteByteJump.Memory.Lemmas

/-!
# Sequences of writes

A host or a program writes bytes and words in some order, at addresses of 32 bits. Each word is
two bytes stored one after the other, so a sequence of writes comes down to a list of single
stores, of which the last one to a byte decides.

## Main statements

* `byteAt_storeAll` — a byte is what the last store to it stored, else what it was
* `writeAll_eq_storeAll` — writes are their stores
-/

namespace ByteByteJump.Memory

structure Store where
  address : UInt32
  value : UInt8
  deriving DecidableEq, Repr

def Store.hits (s : Store) (i : Nat) : Bool := offset s.address == i

def storeAll (m : Memory) (stores : List Store) : Memory :=
  stores.foldl (fun m s => m.writeByte s.address s.value) m

/-- What the last store to the byte at index `i` stored there, if there is one. -/
def lastStored? (stores : List Store) (i : Nat) : Option UInt8 :=
  (stores.reverse.find? fun s => s.hits i).map Store.value

inductive Write where
  | byte (a : UInt32) (v : UInt8)
  | word (a : UInt32) (w : UInt16)
  deriving DecidableEq, Repr

namespace Write

def apply (m : Memory) : Write → Memory
  | byte a v => m.writeByte a v
  | word a w => m.writeWord a w

/-- The stores that a write is made of: a word is its quotient by 256, then its remainder at the
address behind. -/
def stores : Write → List Store
  | byte a v => [⟨a, v⟩]
  | word a w => [⟨a, UInt8.ofNat (w.toNat / 256)⟩, ⟨a + 1, UInt8.ofNat (w.toNat % 256)⟩]

end Write

def writeAll (m : Memory) (writes : List Write) : Memory := writes.foldl Write.apply m

/-! ## Laws -/

theorem storeAll_cons (m : Memory) (s : Store) (rest : List Store) :
    m.storeAll (s :: rest) = (m.writeByte s.address s.value).storeAll rest := rfl

theorem storeAll_append (m : Memory) (xs ys : List Store) :
    m.storeAll (xs ++ ys) = (m.storeAll xs).storeAll ys := List.foldl_append ..

/-- **The last store to a byte decides.** -/
theorem byteAt_storeAll (m : Memory) (stores : List Store) (i : Nat) :
    (m.storeAll stores).byteAt i = (lastStored? stores i).getD (m.byteAt i) := by
  refine Bytes.foldl_last (fun m => m.byteAt i) (fun s => s.hits i) Store.value ?_ stores m
  intro m s
  show (m.writeByte s.address s.value).byteAt i = _
  rw [byteAt_writeByte, Store.hits]
  by_cases h : i = offset s.address
  · rw [if_pos h, if_pos (beq_iff_eq.mpr h.symm)]
  · rw [if_neg h, if_neg fun same => h (beq_iff_eq.mp same).symm]

/-- **Writes are their stores.** -/
theorem writeAll_eq_storeAll (m : Memory) (writes : List Write) :
    m.writeAll writes = m.storeAll (writes.flatMap Write.stores) := by
  induction writes generalizing m with
  | nil => rfl
  | cons w rest ih =>
    have one : w.apply m = m.storeAll w.stores := by
      cases w with
      | byte a v => rfl
      | word a w =>
        rw [Write.apply, writeWord, BigEndian.wordHigh_eq_ofNat, BigEndian.wordLow_eq_ofNat]
        rfl
    rw [List.flatMap_cons, storeAll_append, ← one, ← ih]
    rfl

end ByteByteJump.Memory
