import ByteByteJump.Numeral

/-!
# The keypad

Sixteen keys, labelled with the hexadecimal digits. A key state is a word of sixteen bits that says
which of them are held down, bit `i` for key `i`.
-/

namespace ByteByteJump

structure Keys where
  bits : UInt16
  deriving DecidableEq, Repr

namespace Keys

def count : Nat := 16

/-- Whether key `i` is held. -/
def holds (k : Keys) (i : Nat) : Bool := k.bits.toNat.testBit i

def empty : Keys := ⟨0⟩

def all : Keys := ⟨0xFFFF⟩

/-- The key at a position of the keypad, if there is one. -/
def ofIndex? (i : Nat) : Option Keys :=
  if i < count then some ⟨UInt16.ofNat (1 <<< i)⟩ else none

/-- The key with a label, which is a hexadecimal digit in either case. -/
def ofLabel? (label : Char) : Option Keys := (Numeral.hexValue label).bind ofIndex?

/-- The label of a key of a host keyboard: digits of the upper row and of the numeric pad, and the
letters A to F. The keys are numbered as USB keyboards number them. -/
def hostLabel? (position : Nat) : Option Char :=
  if 4 ≤ position ∧ position ≤ 9 then some (Char.ofNat (0x61 + (position - 4)))
  else if 30 ≤ position ∧ position ≤ 38 then some (Char.ofNat (0x31 + (position - 30)))
  else if position = 39 then some '0'
  else if 89 ≤ position ∧ position ≤ 97 then some (Char.ofNat (0x31 + (position - 89)))
  else if position = 98 then some '0'
  else none

def ofHost? (position : Nat) : Option Keys := (hostLabel? position).bind ofLabel?

end Keys

end ByteByteJump
