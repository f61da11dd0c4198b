import ByteByteJump.Copy

/-!
# The instruction

There is one kind of instruction. It has three addresses: copy the byte at `source` to `dest`, then
go on at `next`. It is stored as three fields, nine bytes in all, and the copy is all that it does
to memory.
-/

namespace ByteByteJump

structure Instruction where
  source : UInt32
  dest : UInt32
  next : UInt32
  deriving DecidableEq, Repr

namespace Instruction

def size : UInt32 := 9

/-! ## The stored form -/

/-- The nine bytes that store an instruction. The top byte of each address has no place. -/
def encode (inst : Instruction) : ByteArray :=
  BigEndian.fieldBytes inst.source ++ BigEndian.fieldBytes inst.dest
    ++ BigEndian.fieldBytes inst.next

@[simp] theorem size_encode (inst : Instruction) : inst.encode.size = 9 := rfl

theorem get_encode (inst : Instruction) (i : Nat) :
    Bytes.get inst.encode i
      = if i < 3 then Bytes.get (BigEndian.fieldBytes inst.source) i
        else if i < 6 then Bytes.get (BigEndian.fieldBytes inst.dest) (i - 3)
        else Bytes.get (BigEndian.fieldBytes inst.next) (i - 6) := by
  rw [encode, Bytes.get_append, Bytes.get_append, ByteArray.size_append,
    BigEndian.size_fieldBytes, BigEndian.size_fieldBytes]
  by_cases h3 : i < 3
  · rw [if_pos (by omega), if_pos h3, if_pos h3]
  · by_cases h6 : i < 6
    · rw [if_pos (by omega), if_neg h3, if_neg h3, if_pos h6]
    · rw [if_neg (by omega), if_neg h3, if_neg h6]

/-! ## Fetching -/

/-- The instruction whose fields are at `pc`, `pc + 3` and `pc + 6`. -/
def fetch (m : Memory) (pc : UInt32) : Except Overflow Instruction := do
  let source := m.readField pc
  let dest := m.readField (← addAddress .fieldAddress pc 3)
  let next := m.readField (← addAddress .fieldAddress pc 6)
  return { source, dest, next }

/-- The instruction at an address whose three fields have addresses of 32 bits. -/
def fetched (m : Memory) (pc : UInt32) : Instruction where
  source := m.readField pc
  dest := m.readField (pc + 3)
  next := m.readField (pc + 6)

/-- Where the second and the third field are. -/
theorem toNat_fieldAddress {pc : UInt32} (h : pc.toNat + 6 < 0x100000000) :
    (pc + 3).toNat = pc.toNat + 3 ∧ (pc + 6).toNat = pc.toNat + 6 :=
  ⟨toNat_add_of_lt (by show _ + 3 < _; omega), toNat_add_of_lt h⟩

theorem fetch_of_lt {m : Memory} {pc : UInt32} (h : pc.toNat + 6 < 0x100000000) :
    fetch m pc = .ok (fetched m pc) := by
  have h3 : pc.toNat + 3 < 0x100000000 := by omega
  rw [fetch, addAddress_of_lt h3, addAddress_of_lt h]
  rfl

theorem fetch_of_le {m : Memory} {pc : UInt32} (h : 0x100000000 ≤ pc.toNat + 6) :
    fetch m pc = .error .fieldAddress := by
  rw [fetch]
  by_cases h3 : pc.toNat + 3 < 0x100000000
  · rw [addAddress_of_lt h3, addAddress_of_le h]; rfl
  · rw [addAddress_of_le (Nat.not_lt.mp h3)]; rfl

/-- The fields of a fetched instruction are 24-bit numbers. -/
theorem fetched_lt (m : Memory) (pc : UInt32) :
    (fetched m pc).source.toNat < Memory.addressSpace
      ∧ (fetched m pc).dest.toNat < Memory.addressSpace
      ∧ (fetched m pc).next.toNat < Memory.addressSpace :=
  ⟨m.readField_lt _, m.readField_lt _, m.readField_lt _⟩

/-! ## The copy -/

@[inline] def copy (inst : Instruction) : Copy := ⟨inst.source, inst.dest⟩

@[inline] def apply (inst : Instruction) (m : Memory) : Memory := inst.copy.apply m

theorem byteAt_apply (inst : Instruction) (m : Memory) (i : Nat) :
    (inst.apply m).byteAt i
      = if i = Memory.offset inst.dest then m.readByte inst.source else m.byteAt i :=
  inst.copy.byteAt_apply m i

end Instruction

end ByteByteJump
