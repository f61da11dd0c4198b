import ByteByteJump.BigEndian
import ByteByteJump.LoadError
import ByteByteJump.Overflow

/-!
# Memory

The machine addresses 2 ^ 24 bytes. Behind them lie eight more, the *margin*: an instruction has
nine bytes, so one that starts just below the end of the address space has its last fields there.
The margin holds what the program image put into it; no program can write it.

There are three ways to meet the end. Bytes and words are read and written at the address modulo
2 ^ 24. A field of three bytes is read at the address itself, so it runs into the margin, and is
zero where it would leave the margin. A page starts at the address modulo 2 ^ 24 and is cut at the
end of the margin. All of them are said through one view, `byteAt`.
-/

namespace ByteByteJump

def Memory.addressSpace : Nat := 0x1000000

/-- The number of bytes behind the last address. -/
def Memory.margin : Nat := 8

/-- The number of bytes in all, which is also the length of the longest image that fits. -/
def Memory.capacity : Nat := Memory.addressSpace + Memory.margin

structure Memory where
  bytes : ByteArray
  size_bytes : bytes.size = Memory.capacity

namespace Memory

theorem addressSpace_eq : addressSpace = 16777216 := rfl

theorem capacity_eq : capacity = 16777224 := rfl

/-! ## The view -/

/-- The byte at index `i`, which may lie in the margin; zero behind it. -/
@[inline] def byteAt (m : Memory) (i : Nat) : UInt8 := Bytes.get m.bytes i

theorem byteAt_of_le {m : Memory} {i : Nat} (h : capacity ≤ i) : m.byteAt i = 0 :=
  Bytes.get_of_le (by rw [m.size_bytes]; exact h)

/-- **A memory is determined by its bytes.** -/
@[ext] theorem ext {m m' : Memory} (h : ∀ i, i < capacity → m.byteAt i = m'.byteAt i) : m = m' := by
  obtain ⟨bytes, size⟩ := m
  obtain ⟨bytes', size'⟩ := m'
  have : bytes = bytes' := Bytes.ext (size.trans size'.symm) (fun i hi => h i (size ▸ hi))
  subst this
  rfl

/-! ## Blank memory and program images -/

def blank : Memory where
  bytes := Bytes.replicate capacity 0
  size_bytes := Bytes.size_replicate ..

@[simp] theorem byteAt_blank (i : Nat) : blank.byteAt i = 0 := Bytes.get_replicate_zero ..

/-- The memory that holds `image` from address 0 on, and zeros behind it. -/
def ofImage (image : ByteArray) (fits : image.size ≤ capacity) : Memory where
  bytes := Bytes.overlay blank.bytes 0 image
  size_bytes := by rw [Bytes.size_overlay, blank.size_bytes]; omega

/-- **A loaded memory reads as its image**, which is zero past its end. -/
theorem byteAt_ofImage (image : ByteArray) (fits : image.size ≤ capacity) (i : Nat) :
    (ofImage image fits).byteAt i = Bytes.get image i := by
  unfold byteAt ofImage
  rw [Bytes.get_overlay]
  split
  · rfl
  · next h =>
    rw [show Bytes.get blank.bytes i = 0 from byteAt_blank i, Bytes.get_of_le (by omega)]

/-- Loads an image over whatever was there before; refused if it does not fit. -/
def load (image : ByteArray) : Except LoadError Memory :=
  if fits : image.size ≤ capacity then .ok (ofImage image fits)
  else .error (.tooLarge image.size capacity)

theorem load_of_le {image : ByteArray} (fits : image.size ≤ capacity) :
    load image = .ok (ofImage image fits) := dif_pos fits

theorem load_of_lt {image : ByteArray} (large : capacity < image.size) :
    load image = .error (.tooLarge image.size capacity) := dif_neg (Nat.not_le.mpr large)

/-! ## Bytes -/

/-- The index that an address stands for: the address modulo 2 ^ 24. -/
@[inline] def offset (a : UInt32) : Nat := a.toNat % addressSpace

theorem offset_lt (a : UInt32) : offset a < addressSpace := Nat.mod_lt _ (by decide)

theorem offset_lt_capacity (a : UInt32) : offset a < capacity :=
  Nat.lt_of_lt_of_le (offset_lt a) (Nat.le_add_right ..)

theorem offset_of_lt {a : UInt32} (h : a.toNat < addressSpace) : offset a = a.toNat :=
  Nat.mod_eq_of_lt h

@[inline] def readByte (m : Memory) (a : UInt32) : UInt8 := m.byteAt (offset a)

@[inline] def writeByte (m : Memory) (a : UInt32) (v : UInt8) : Memory where
  bytes := m.bytes.set (offset a) v (by rw [m.size_bytes]; exact offset_lt_capacity a)
  size_bytes := by rw [Bytes.size_set]; exact m.size_bytes

/-- **A write changes the byte it names and no other.** -/
theorem byteAt_writeByte (m : Memory) (a : UInt32) (v : UInt8) (i : Nat) :
    (m.writeByte a v).byteAt i = if i = offset a then v else m.byteAt i :=
  Bytes.get_set ..

/-! ## Words -/

/-- The word at an address. Its second byte may lie at address 0. -/
def readWord (m : Memory) (a : UInt32) : UInt16 :=
  BigEndian.word (m.readByte a) (m.readByte (a + 1))

def writeWord (m : Memory) (a : UInt32) (w : UInt16) : Memory :=
  (m.writeByte a (BigEndian.wordHigh w)).writeByte (a + 1) (BigEndian.wordLow w)

/-! ## Fields -/

/-- The field at an address, which is taken as it is: up to `addressSpace + 5` the field lies in
memory and its margin, from there on it reads as zero. -/
@[inline] def readField (m : Memory) (a : UInt32) : UInt32 :=
  if a.toNat + 3 ≤ capacity then
    BigEndian.field (m.byteAt a.toNat) (m.byteAt (a.toNat + 1)) (m.byteAt (a.toNat + 2))
  else 0

/-- Whatever the bytes, a field is a 24-bit number. -/
theorem readField_lt (m : Memory) (a : UInt32) : (m.readField a).toNat < addressSpace := by
  unfold readField
  split
  · exact BigEndian.field_lt ..
  · decide

/-! ## Pages -/

/-- The bytes from index `start` on, `length` of them or as many as there are. -/
def slice (m : Memory) (start length : Nat) : ByteArray :=
  m.bytes.extract start (min (start + length) capacity)

@[simp] theorem size_slice (m : Memory) (start length : Nat) :
    (m.slice start length).size = min (start + length) capacity - start := by
  rw [slice, ByteArray.size_extract, m.size_bytes, Nat.min_eq_left (Nat.min_le_right ..)]

theorem get_slice (m : Memory) {start length i : Nat} (h : i < length) :
    Bytes.get (m.slice start length) i = m.byteAt (start + i) := by
  rw [slice, Bytes.get_extract]
  split
  · rfl
  · rw [byteAt_of_le (by omega)]

/-- The page of `length` bytes at an address, cut at the end of the margin. The end of the page
must be a number of 64 bits, even where it is cut. -/
def page (m : Memory) (a : UInt32) (length : Nat) : Except Overflow ByteArray := do
  let _ ← rangeEnd .pageEnd (offset a) length
  return m.slice (offset a) length

theorem page_of_lt {m : Memory} {a : UInt32} {length : Nat}
    (h : offset a + length < 0x10000000000000000) :
    m.page a length = .ok (m.slice (offset a) length) := by
  rw [page, rangeEnd_of_lt h]; rfl

theorem page_of_le {m : Memory} {a : UInt32} {length : Nat}
    (h : 0x10000000000000000 ≤ offset a + length) :
    m.page a length = .error .pageEnd := by
  rw [page, rangeEnd_of_le h]; rfl

end Memory

end ByteByteJump
