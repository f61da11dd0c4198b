import ByteByteJump.Header
import ByteByteJump.Instruction

/-!
# Program images

A program image is what memory holds from address 0 on when a program starts. It is put together
store by store; each store extends the image with zeros as far as it needs.

Every store is a `poke`. The laws `size_poke` and `byteAt_poke` say what it does to the view, and
those of the other stores follow from them.
-/

namespace ByteByteJump

structure Image where
  bytes : ByteArray

namespace Image

def empty : Image := ⟨ByteArray.empty⟩

@[inline] def size (img : Image) : Nat := img.bytes.size

def isEmpty (img : Image) : Bool := img.size == 0

/-- The byte at index `i`; zero past the end. -/
def byteAt (img : Image) (i : Nat) : UInt8 := Bytes.get img.bytes i

@[simp] theorem size_empty : empty.size = 0 := rfl

@[simp] theorem byteAt_empty (i : Nat) : empty.byteAt i = 0 := Bytes.get_of_le (Nat.zero_le i)

/-- **Size and bytes determine the image.** -/
theorem ext {img img' : Image} (size : img.size = img'.size)
    (bytes : ∀ i, i < img.size → img.byteAt i = img'.byteAt i) : img = img' := by
  obtain ⟨b⟩ := img
  obtain ⟨b'⟩ := img'
  exact congrArg Image.mk (Bytes.ext size bytes)

/-! ## Stores -/

/-- Stores bytes at an address. The image then reaches to their end at least, also when there are
none of them. -/
def poke (img : Image) (a : UInt32) (data : ByteArray) : Image :=
  -- taken apart first: nothing else then holds the bytes, and they are changed in place
  let ⟨bytes⟩ := img
  ⟨Bytes.overlay bytes a.toNat data⟩

@[simp] theorem size_poke (img : Image) (a : UInt32) (data : ByteArray) :
    (img.poke a data).size = max img.size (a.toNat + data.size) := Bytes.size_overlay ..

/-- **A store covers its own range and nothing else.** -/
theorem byteAt_poke (img : Image) (a : UInt32) (data : ByteArray) (i : Nat) :
    (img.poke a data).byteAt i
      = if a.toNat ≤ i ∧ i < a.toNat + data.size then Bytes.get data (i - a.toNat)
        else img.byteAt i := Bytes.get_overlay ..

/-- **Stores to ranges that lie apart commute.** -/
theorem poke_comm (img : Image) {a b : UInt32} {x y : ByteArray}
    (apart : a.toNat + x.size ≤ b.toNat ∨ b.toNat + y.size ≤ a.toNat) :
    (img.poke a x).poke b y = (img.poke b y).poke a x := by
  apply ext
  · simp only [size_poke]
    omega
  · intro i _
    simp only [byteAt_poke]
    by_cases first : a.toNat ≤ i ∧ i < a.toNat + x.size
    · rw [if_pos first, if_pos first, if_neg (by omega)]
    · rw [if_neg first, if_neg first]

/-- Stores `length` copies of a byte at an address, if the end of the range is a number of 64
bits. -/
def fill (img : Image) (a : UInt32) (length : Nat) (v : UInt8) : Except Overflow Image := do
  let _ ← rangeEnd .fillEnd a.toNat length
  return img.poke a (Bytes.replicate length v)

theorem fill_of_lt {img : Image} {a : UInt32} {length : Nat} {v : UInt8}
    (h : a.toNat + length < 0x10000000000000000) :
    img.fill a length v = .ok (img.poke a (Bytes.replicate length v)) := by
  rw [fill, rangeEnd_of_lt h]; rfl

/-! ## The header -/

def entryPoint (img : Image) (pc : UInt32) : Image :=
  img.poke Header.entryPoint (BigEndian.fieldBytes pc)

/-- Sets the video page by the high byte of its address. -/
def videoPage (img : Image) (page : UInt8) : Image :=
  img.poke Header.videoPage ⟨#[page]⟩

/-- Sets the audio page by the two high bytes of its address. -/
def audioPage (img : Image) (page : UInt16) : Image :=
  img.poke Header.audioPage (BigEndian.wordBytes page)

theorem byteAt_entryPoint (img : Image) (pc : UInt32) (i : Nat) :
    (img.entryPoint pc).byteAt i
      = if 2 ≤ i ∧ i < 5 then Bytes.get (BigEndian.fieldBytes pc) (i - 2) else img.byteAt i :=
  byteAt_poke ..

theorem byteAt_videoPage (img : Image) (page : UInt8) (i : Nat) :
    (img.videoPage page).byteAt i = if i = 5 then page else img.byteAt i := by
  have size : (⟨#[page]⟩ : ByteArray).size = 1 := rfl
  have start : Header.videoPage.toNat = 5 := rfl
  rw [videoPage, byteAt_poke, size, start]
  by_cases here : i = 5
  · subst here
    rfl
  · rw [if_neg (by omega), if_neg here]

theorem byteAt_audioPage (img : Image) (page : UInt16) (i : Nat) :
    (img.audioPage page).byteAt i
      = if 6 ≤ i ∧ i < 8 then Bytes.get (BigEndian.wordBytes page) (i - 6) else img.byteAt i :=
  byteAt_poke ..

/-! ## Code -/

def instruction (img : Image) (a : UInt32) (inst : Instruction) : Image :=
  img.poke a inst.encode

/-- Stores copies one behind the other from an address on. Each goes on at the one behind it, the
last one at `last`. The address behind the chain is returned as well; it and those between the
instructions must be numbers of 32 bits. -/
def copyChain (img : Image) (a : UInt32) (copies : List Copy) (last : UInt32) :
    Except Overflow (Image × UInt32) :=
  match copies with
  | [] => .ok (img, a)
  | c :: rest => do
    let behind ← addAddress .chainAddress a Instruction.size
    let next := if rest.isEmpty then last else behind
    copyChain (img.instruction a ⟨c.source, c.dest, next⟩) behind rest last

/-- The last copy of a chain goes on at `last`. -/
theorem copyChain_singleton {img : Image} {a : UInt32} (c : Copy) (last : UInt32)
    (h : a.toNat + 9 < 0x100000000) :
    img.copyChain a [c] last
      = .ok (img.instruction a ⟨c.source, c.dest, last⟩, a + 9) := by
  rw [copyChain, Instruction.size, addAddress_of_lt h]
  rfl

/-- Every other copy goes on at the one behind it. -/
theorem copyChain_cons_cons {img : Image} {a : UInt32} (c d : Copy) (rest : List Copy)
    (last : UInt32) (h : a.toNat + 9 < 0x100000000) :
    img.copyChain a (c :: d :: rest) last
      = (img.instruction a ⟨c.source, c.dest, a + 9⟩).copyChain (a + 9) (d :: rest) last := by
  rw [copyChain, Instruction.size, addAddress_of_lt h]
  rfl

end Image

end ByteByteJump
