/-!
# Additions that may not fit

Addresses have 32 bits, counters and lengths 64. The machine never lets one wrap round silently:
an addition whose sum does not fit is refused, and the refusal says which sum it was.

Everything that can refuse has a result of the form `Except Overflow α`. The checked additions
below are the only source of refusals, and each has a law that gives the exact bound.
-/

namespace ByteByteJump

/-- The sum that did not fit. -/
inductive Overflow where
  | fieldAddress
  | cycleCount
  | frameCount
  | pageEnd
  | fillEnd
  | chainAddress
  deriving DecidableEq, Repr

namespace Overflow

def message : Overflow → String
  | _ => "attempt to add with overflow"

end Overflow

/-! ## Results that were not refused -/

theorem exists_of_bind_eq_ok {ε α β : Type} {x : Except ε α} {f : α → Except ε β} {b : β}
    (h : x.bind f = .ok b) : ∃ a, x = .ok a ∧ f a = .ok b := by
  cases x with
  | error e => cases h
  | ok a => exact ⟨a, rfl, h⟩

theorem exists_of_map_eq_ok {ε α β : Type} {x : Except ε α} {f : α → β} {b : β}
    (h : x.map f = .ok b) : ∃ a, x = .ok a ∧ f a = b := by
  cases x with
  | error e => cases h
  | ok a => exact ⟨a, rfl, Except.ok.inj h⟩

/-! ## Checked additions -/

/-- The sum of two addresses, refused from `2 ^ 32` on. -/
@[inline] def addAddress (cause : Overflow) (a b : UInt32) : Except Overflow UInt32 :=
  if a.toNat + b.toNat < 0x100000000 then .ok (a + b) else .error cause

theorem addAddress_of_lt {cause : Overflow} {a b : UInt32} (h : a.toNat + b.toNat < 0x100000000) :
    addAddress cause a b = .ok (a + b) := if_pos h

theorem addAddress_of_le {cause : Overflow} {a b : UInt32} (h : 0x100000000 ≤ a.toNat + b.toNat) :
    addAddress cause a b = .error cause := if_neg (Nat.not_lt.mpr h)

theorem toNat_add_of_lt {a b : UInt32} (h : a.toNat + b.toNat < 0x100000000) :
    (a + b).toNat = a.toNat + b.toNat := by
  rw [UInt32.toNat_add]
  exact Nat.mod_eq_of_lt h

/-- The next value of a counter, refused at `2 ^ 64 - 1`. -/
@[inline] def nextCount (cause : Overflow) (n : UInt64) : Except Overflow UInt64 :=
  if n.toNat + 1 < 0x10000000000000000 then .ok (n + 1) else .error cause

theorem nextCount_of_lt {cause : Overflow} {n : UInt64} (h : n.toNat + 1 < 0x10000000000000000) :
    nextCount cause n = .ok (n + 1) := if_pos h

theorem nextCount_of_le {cause : Overflow} {n : UInt64} (h : 0x10000000000000000 ≤ n.toNat + 1) :
    nextCount cause n = .error cause := if_neg (Nat.not_lt.mpr h)

/-- The end of a range of `length` bytes from `start` on, refused from `2 ^ 64` on. -/
@[inline] def rangeEnd (cause : Overflow) (start length : Nat) : Except Overflow Nat :=
  if start + length < 0x10000000000000000 then .ok (start + length) else .error cause

theorem rangeEnd_of_lt {cause : Overflow} {start length : Nat}
    (h : start + length < 0x10000000000000000) :
    rangeEnd cause start length = .ok (start + length) := if_pos h

theorem rangeEnd_of_le {cause : Overflow} {start length : Nat}
    (h : 0x10000000000000000 ≤ start + length) :
    rangeEnd cause start length = .error cause := if_neg (Nat.not_lt.mpr h)

end ByteByteJump
