import ByteByteJump.Bytes

/-!
# Big-endian numbers

Every number of the machine that is wider than a byte is stored with its most significant byte
first. There are two widths: the *word* of two bytes (the key state, the audio page) and the
*field* of three bytes (an address inside an instruction, the entry point).

## Main statements

* `toNat_word`, `toNat_field` — the value of the stored bytes as a sum of powers of 256
* `word_bytes` — writing a word and reading it back gives the word
* `toNat_field_bytes` — writing a 32-bit address as a field and reading it back keeps its low
  24 bits, as the top byte has no place in a field
* `field_eq_iff` — two fields are equal exactly if their bytes are
-/

namespace ByteByteJump.BigEndian

/-! ## Words of two bytes -/

theorem word_bound (high low : UInt8) : high.toNat * 256 + low.toNat < UInt16.size := by
  have := high.toNat_lt
  have := low.toNat_lt
  show _ < 65536
  omega

@[inline] def word (high low : UInt8) : UInt16 :=
  .ofNatLT (high.toNat * 256 + low.toNat) (word_bound high low)

theorem toNat_word (high low : UInt8) :
    (word high low).toNat = high.toNat * 256 + low.toNat := UInt16.toNat_ofNatLT ..

/-- The first of the two bytes that store a word. -/
@[inline] def wordHigh (w : UInt16) : UInt8 := (w / 256).toUInt8

/-- The second of the two bytes that store a word. -/
@[inline] def wordLow (w : UInt16) : UInt8 := w.toUInt8

theorem toNat_wordHigh (w : UInt16) : (wordHigh w).toNat = w.toNat / 256 := by
  have := w.toNat_lt
  simp only [wordHigh, UInt16.toNat_toUInt8, UInt16.toNat_div, UInt16.reduceToNat]
  omega

theorem toNat_wordLow (w : UInt16) : (wordLow w).toNat = w.toNat % 256 := by
  simp only [wordLow, UInt16.toNat_toUInt8]

theorem wordHigh_eq_ofNat (w : UInt16) : wordHigh w = UInt8.ofNat (w.toNat / 256) := by
  have := w.toNat_lt
  refine UInt8.toNat_inj.mp ?_
  rw [toNat_wordHigh, UInt8.toNat_ofNat']
  omega

theorem wordLow_eq_ofNat (w : UInt16) : wordLow w = UInt8.ofNat (w.toNat % 256) := by
  refine UInt8.toNat_inj.mp ?_
  rw [toNat_wordLow, UInt8.toNat_ofNat']
  omega

/-- **A word written and read back is the same word.** -/
theorem word_bytes (w : UInt16) : word (wordHigh w) (wordLow w) = w := by
  apply UInt16.toNat_inj.mp
  rw [toNat_word, toNat_wordHigh, toNat_wordLow]
  omega

def wordBytes (w : UInt16) : ByteArray := ⟨#[wordHigh w, wordLow w]⟩

/-! ## Fields of three bytes -/

theorem field_bound (high mid low : UInt8) :
    high.toNat * 65536 + mid.toNat * 256 + low.toNat < UInt32.size := by
  have := high.toNat_lt
  have := mid.toNat_lt
  have := low.toNat_lt
  show _ < 4294967296
  omega

@[inline] def field (high mid low : UInt8) : UInt32 :=
  .ofNatLT (high.toNat * 65536 + mid.toNat * 256 + low.toNat) (field_bound high mid low)

theorem toNat_field (high mid low : UInt8) :
    (field high mid low).toNat = high.toNat * 65536 + mid.toNat * 256 + low.toNat :=
  UInt32.toNat_ofNatLT ..

theorem field_lt (high mid low : UInt8) : (field high mid low).toNat < 0x1000000 := by
  have := high.toNat_lt
  have := mid.toNat_lt
  have := low.toNat_lt
  rw [toNat_field]
  omega

/-- **Two fields are equal exactly if their bytes are.** -/
theorem field_eq_iff {h m l h' m' l' : UInt8} :
    field h m l = field h' m' l' ↔ h = h' ∧ m = m' ∧ l = l' := by
  constructor
  · intro eq
    have eq := congrArg UInt32.toNat eq
    rw [toNat_field, toNat_field] at eq
    have := m.toNat_lt
    have := m'.toNat_lt
    have := l.toNat_lt
    have := l'.toNat_lt
    refine ⟨UInt8.toNat_inj.mp ?_, UInt8.toNat_inj.mp ?_, UInt8.toNat_inj.mp ?_⟩ <;> omega
  · rintro ⟨rfl, rfl, rfl⟩
    rfl

/-- The first of the three bytes that store the low 24 bits of an address. -/
@[inline] def fieldHigh (a : UInt32) : UInt8 := (a / 65536).toUInt8

/-- The second of the three bytes that store the low 24 bits of an address. -/
@[inline] def fieldMid (a : UInt32) : UInt8 := (a / 256).toUInt8

/-- The third of the three bytes that store the low 24 bits of an address. -/
@[inline] def fieldLow (a : UInt32) : UInt8 := a.toUInt8

theorem toNat_fieldHigh (a : UInt32) : (fieldHigh a).toNat = a.toNat / 65536 % 256 := by
  simp only [fieldHigh, UInt32.toNat_toUInt8, UInt32.toNat_div, UInt32.reduceToNat]

theorem toNat_fieldMid (a : UInt32) : (fieldMid a).toNat = a.toNat / 256 % 256 := by
  simp only [fieldMid, UInt32.toNat_toUInt8, UInt32.toNat_div, UInt32.reduceToNat]

theorem toNat_fieldLow (a : UInt32) : (fieldLow a).toNat = a.toNat % 256 := by
  simp only [fieldLow, UInt32.toNat_toUInt8]

/-- **An address written as a field and read back keeps its low 24 bits.** -/
theorem toNat_field_bytes (a : UInt32) :
    (field (fieldHigh a) (fieldMid a) (fieldLow a)).toNat = a.toNat % 0x1000000 := by
  rw [toNat_field, toNat_fieldHigh, toNat_fieldMid, toNat_fieldLow]
  omega

/-- A field read and written again gives the same three bytes. -/
theorem bytes_field (h m l : UInt8) :
    fieldHigh (field h m l) = h ∧ fieldMid (field h m l) = m ∧ fieldLow (field h m l) = l := by
  apply field_eq_iff.mp
  apply UInt32.toNat_inj.mp
  rw [toNat_field_bytes]
  exact Nat.mod_eq_of_lt (field_lt h m l)

/-- The stored form of an address, without its top byte. -/
def fieldBytes (a : UInt32) : ByteArray := ⟨#[fieldHigh a, fieldMid a, fieldLow a]⟩

@[simp] theorem size_fieldBytes (a : UInt32) : (fieldBytes a).size = 3 := rfl

end ByteByteJump.BigEndian
