import ByteByteJump.Memory.Basic

/-!
# The header

The first eight bytes of memory say how a frame runs. The host writes the key state there, the
program everything else.

| bytes | meaning |
|-------|---------|
| 0, 1  | the keys held down, one bit each |
| 2..4  | the entry point, where every frame starts |
| 5     | the video page: bits 16..24 of its address |
| 6, 7  | the audio page: bits 8..24 of its address |
-/

namespace ByteByteJump

namespace Header

def keys : UInt32 := 0

def entryPoint : UInt32 := 2

def videoPage : UInt32 := 5

def audioPage : UInt32 := 6

end Header

namespace Memory

def entryPoint (m : Memory) : UInt32 := m.readField Header.entryPoint

theorem entryPoint_lt (m : Memory) : m.entryPoint.toNat < addressSpace := by
  rw [entryPoint]
  exact m.readField_lt _

def videoPage (m : Memory) : UInt32 := (m.readByte Header.videoPage).toUInt32 * 0x10000

def audioPage (m : Memory) : UInt32 := (m.readWord Header.audioPage).toUInt32 * 0x100

theorem toNat_videoPage (m : Memory) :
    m.videoPage.toNat = (m.byteAt 5).toNat * 65536 := by
  have byte : m.readByte Header.videoPage = m.byteAt 5 := rfl
  have := (m.byteAt 5).toNat_lt
  simp only [videoPage, byte, UInt32.toNat_mul, UInt8.toNat_toUInt32, UInt32.reduceToNat]
  omega

theorem toNat_audioPage (m : Memory) :
    m.audioPage.toNat = (m.byteAt 6).toNat * 65536 + (m.byteAt 7).toNat * 256 := by
  have word : m.readWord Header.audioPage = BigEndian.word (m.byteAt 6) (m.byteAt 7) := rfl
  have := (m.byteAt 6).toNat_lt
  have := (m.byteAt 7).toNat_lt
  simp only [audioPage, word, UInt32.toNat_mul, UInt16.toNat_toUInt32, UInt32.reduceToNat,
    BigEndian.toNat_word]
  omega

/-- **The pages lie inside the address space**, so they are never cut. -/
theorem videoPage_lt (m : Memory) : m.videoPage.toNat + 0x10000 ≤ addressSpace := by
  have := (m.byteAt 5).toNat_lt
  rw [toNat_videoPage, addressSpace_eq]
  omega

theorem audioPage_lt (m : Memory) : m.audioPage.toNat + 0x100 ≤ addressSpace := by
  have := (m.byteAt 6).toNat_lt
  have := (m.byteAt 7).toNat_lt
  rw [toNat_audioPage, addressSpace_eq]
  omega

end Memory

end ByteByteJump
