import ByteByteJump.Header

/-!
# The sound

A frame plays 256 samples. When it is done, they are taken from the audio page that the header
names. A sample is a byte in two's complement, so that silence is zero; devices that want silence in
the middle of an unsigned range get `unsigned`.
-/

namespace ByteByteJump

namespace Samples

def count : Nat := 256

end Samples

/-- The samples of a frame in the order of playing, in two's complement. -/
structure Samples where
  values : Vector Int8 Samples.count
  deriving DecidableEq

namespace Samples

def silence : Samples := ⟨Vector.replicate count 0⟩

theorem ext {s t : Samples} (h : ∀ i, (hi : i < count) → s.values[i] = t.values[i]) : s = t := by
  obtain ⟨v⟩ := s
  obtain ⟨w⟩ := t
  exact congrArg Samples.mk (Vector.ext h)

/-! ## From memory -/

def audioPage (m : Memory) : ByteArray := m.slice m.audioPage.toNat count

/-- **The audio page is whole**: it is never cut at the end of memory. -/
theorem size_audioPage (m : Memory) : (audioPage m).size = count := by
  have := m.audioPage_lt
  rw [audioPage, Memory.size_slice, Memory.capacity_eq]
  rw [Memory.addressSpace_eq] at this
  show min (_ + 256) _ - _ = 256
  omega

/-- The page is the one that `Memory.page` gives. -/
theorem page_audioPage (m : Memory) : m.page m.audioPage count = .ok (audioPage m) := by
  have := m.audioPage_lt
  rw [Memory.addressSpace_eq] at this
  have offset : Memory.offset m.audioPage = m.audioPage.toNat :=
    Memory.offset_of_lt (by rw [Memory.addressSpace_eq]; omega)
  rw [Memory.page_of_lt (by rw [offset]; show _ + 256 < _; omega), offset]
  rfl

/-- The sound of a memory: its audio page, each byte in two's complement. -/
def ofMemory (m : Memory) : Samples :=
  let page := audioPage m
  ⟨Vector.ofFn fun i => (Bytes.get page i).toInt8⟩

/-- **A sample is its byte in memory.** -/
theorem getElem_ofMemory (m : Memory) {i : Nat} (hi : i < count) :
    (ofMemory m).values[i] = (m.byteAt (m.audioPage.toNat + i)).toInt8 := by
  simp only [ofMemory, Vector.getElem_ofFn, audioPage]
  rw [Memory.get_slice _ hi]

/-! ## For devices -/

/-- The samples with silence at 0x80. -/
def unsigned (s : Samples) : Vector UInt8 count := s.values.map fun v => v.toUInt8 ^^^ 0x80

/-- **An unsigned sample is the signed one moved up by 128.** -/
theorem toNat_unsigned (s : Samples) {i : Nat} (hi : i < count) :
    (s.unsigned[i].toNat : Int) = s.values[i].toInt + 128 := by
  have flip : ∀ n : Fin 256, (((UInt8.ofFin n).toInt8.toUInt8 ^^^ 0x80).toNat : Int)
      = (UInt8.ofFin n).toInt8.toInt + 128 := by
    decide +kernel
  simp only [unsigned, Vector.getElem_map]
  exact flip (s.values[i]).toUInt8.toFin

end Samples

end ByteByteJump
