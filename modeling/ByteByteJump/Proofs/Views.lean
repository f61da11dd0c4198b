import ByteByteJump.Proofs.Guarded

/-!
# One array behind all readers

Memory is read in four ways, and each of them meets the end of the address space in its own: a byte
and a word wrap round to address 0, a field runs on into the margin and is zero behind it, a page is
cut. What they have in common is the array that they read.

So two readers of the same three bytes can only differ where these bytes lie across the end. A field
and a page of three bytes never do, because both run into the margin. A field and the same bytes read
as a byte and a word are equal exactly if every byte of the margin that the field has is the byte at
the bottom of memory that the other two find in its place.

## Main statements

* `toNat_readWord_mod` — a word as two bytes of the array
* `exists_page_error_iff`, `page_eq_ok` — where a page is refused, and what it is elsewhere
* `page_three` — a field and its page
* `readField_eq_parts_iff` — a field and the byte and the word that it is put together from
* `readers_see_one_array` — all readers at every address
-/

namespace ByteByteJump.Memory

variable {m : Memory} {a : UInt32} {length : Nat} {bytes : ByteArray}

/-! ## Words -/

/-- **A word is two bytes of the array.** The second one may be the first byte of all. -/
theorem toNat_readWord_mod (m : Memory) (a : UInt32) :
    (m.readWord a).toNat = 256 * (m.byteAt (a.toNat % 0x1000000)).toNat
      + (m.byteAt ((a.toNat + 1) % 0x1000000)).toNat := by
  have second : m.readByte (a + 1) = m.byteAt ((a.toNat + 1) % 0x1000000) :=
    congrArg m.byteAt (offset_add_one_eq_mod a)
  rw [readWord, BigEndian.toNat_word, second, Nat.mul_comm]
  rfl

/-! ## Pages -/

/-- **A page is refused where its end is no number of 64 bits**, and nowhere else. -/
theorem exists_page_error_iff :
    (∃ cause, m.page a length = .error cause) ↔
      0x10000000000000000 ≤ a.toNat % 0x1000000 + length := by
  show _ ↔ 0x10000000000000000 ≤ offset a + length
  by_cases fits : offset a + length < 0x10000000000000000
  · rw [page_of_lt fits]
    exact ⟨nofun, fun large => absurd fits (Nat.not_lt.mpr large)⟩
  · rw [page_of_le (Nat.not_lt.mp fits)]
    exact ⟨fun _ => Nat.not_lt.mp fits, fun _ => ⟨_, rfl⟩⟩

/-- A page that is not refused is as long as asked for, or as long as the array allows. -/
theorem page_eq_ok (page : m.page a length = .ok bytes) :
    bytes.size = min length (0x1000008 - a.toNat % 0x1000000) ∧
      ∀ i, i < bytes.size → Bytes.get bytes i = m.byteAt (a.toNat % 0x1000000 + i) := by
  have start := offset_lt_capacity a
  obtain ⟨_, _, same⟩ := exists_of_bind_eq_ok page
  obtain rfl : m.slice (offset a) length = bytes := Except.ok.inj same
  rw [size_slice]
  refine ⟨?_, fun i hi => m.get_slice (by omega)⟩
  show _ = min length (capacity - offset a)
  omega

/-- **A field is stored in the three bytes of its page**, those in the margin among them. -/
theorem page_three (m : Memory) (low : a.toNat < addressSpace) :
    m.page a 3 = .ok (BigEndian.fieldBytes (m.readField a)) := by
  have start := offset_of_lt low
  rw [addressSpace_eq] at low
  have room : a.toNat + 3 ≤ capacity := by
    rw [capacity_eq]
    omega
  rw [page_of_lt (by omega), start]
  refine congrArg Except.ok (Bytes.ext ?_ fun k hk => ?_)
  · rw [size_slice, BigEndian.size_fieldBytes]
    omega
  · rw [size_slice] at hk
    rw [get_slice m (by omega), m.get_fieldBytes_readField room (by omega)]

/-! ## Fields -/

/-- A field is its three bytes as long as they all lie in the array, and zero from there on. -/
theorem toNat_readField_ite (m : Memory) (a : UInt32) :
    (m.readField a).toNat = if a.toNat ≤ 0x1000005 then
        65536 * (m.byteAt a.toNat).toNat + 256 * (m.byteAt (a.toNat + 1)).toNat
          + (m.byteAt (a.toNat + 2)).toNat
      else 0 := by
  by_cases inside : a.toNat ≤ 0x1000005
  · rw [if_pos inside, m.toNat_readField (by rw [capacity_eq]; omega), Nat.mul_comm 65536,
      Nat.mul_comm 256]
  · rw [if_neg inside, m.readField_of_lt (by rw [capacity_eq]; omega)]
    rfl

/-- A byte and the word behind it, put together, are three bytes of the array, each at its own index
modulo 2 ^ 24. -/
theorem parts_eq_field (m : Memory) (a : UInt32) :
    65536 * (m.readByte a).toNat + (m.readWord (a + 1)).toNat
      = (BigEndian.field (m.byteAt (a.toNat % addressSpace)) (m.byteAt ((a.toNat + 1) % addressSpace))
          (m.byteAt ((a.toNat + 2) % addressSpace))).toNat := by
  have second := offset_add_one_eq_mod a
  have third : offset (a + 1 + 1) = (a.toNat + 2) % addressSpace := by
    rw [offset_add_one, second, Nat.mod_add_mod]
  rw [readWord, BigEndian.toNat_word, BigEndian.toNat_field, readByte, readByte, readByte, second,
    third, Nat.mul_comm, Nat.add_assoc]
  rfl

/-- **A field is its parts exactly if the margin repeats the bottom of memory**, as far as the field
lies in it. -/
theorem readField_eq_parts_iff (room : a.toNat + 3 ≤ capacity) :
    (m.readField a).toNat = 65536 * (m.readByte a).toNat + (m.readWord (a + 1)).toNat ↔
      ∀ i, addressSpace ≤ i → a.toNat ≤ i → i < a.toNat + 3 →
        m.byteAt i = m.byteAt (i % addressSpace) := by
  have each : (m.readField a).toNat = 65536 * (m.readByte a).toNat + (m.readWord (a + 1)).toNat ↔
      ∀ i, a.toNat ≤ i → i < a.toNat + 3 → m.byteAt i = m.byteAt (i % addressSpace) := by
    rw [parts_eq_field, readField, if_pos room, UInt32.toNat_inj, BigEndian.field_eq_iff,
      forall_field_iff]
  rw [each]
  constructor
  · intro same i _ low high
    exact same i low high
  · intro same i low high
    by_cases margin : addressSpace ≤ i
    · exact same i margin low high
    · rw [Nat.mod_eq_of_lt (Nat.not_le.mp margin)]

/-! ## All readers -/

/--
**All readers see one array.**

With every access guarded, all four readers give at every address what the array of `2 ^ 24 + 8`
bytes holds. Bytes and words are at their index modulo `2 ^ 24`; a field is at its address itself, and
zero from where on it has no three bytes; a page is at its address modulo `2 ^ 24`, as long as asked for
or up to the last byte of the margin, and only a length whose sum with the start is no number of 64
bits is refused.

So a field is stored in the page of three bytes at its address. It is put together from the byte and
the word there as long as it lies below the margin; from there on exactly if the bytes that it has in
the margin are those that they wrap round to.
-/
theorem readers_see_one_array (m : Memory) (a : UInt32) :
    (m.bytes.size = 0x1000008 ∧ ∀ i (h : i < m.bytes.size), m.byteAt i = m.bytes[i]) ∧
    (Guarded.byte m.bytes a = .ok (m.readByte a) ∧
      m.readByte a = m.byteAt (a.toNat % 0x1000000)) ∧
    (Guarded.word m.bytes a = .ok (m.readWord a) ∧
      (m.readWord a).toNat = 256 * (m.byteAt (a.toNat % 0x1000000)).toNat
        + (m.byteAt ((a.toNat + 1) % 0x1000000)).toNat) ∧
    (Guarded.field m.bytes a = m.readField a ∧
      (m.readField a).toNat = if a.toNat ≤ 0x1000005 then
          65536 * (m.byteAt a.toNat).toNat + 256 * (m.byteAt (a.toNat + 1)).toNat
            + (m.byteAt (a.toNat + 2)).toNat
        else 0) ∧
    (∀ length, Guarded.page m.bytes a length = Guarded.allow id (m.page a length) ∧
      ((∃ cause, m.page a length = .error cause) ↔
        0x10000000000000000 ≤ a.toNat % 0x1000000 + length) ∧
      ∀ bytes, m.page a length = .ok bytes →
        bytes.size = min length (0x1000008 - a.toNat % 0x1000000) ∧
          ∀ i, i < bytes.size → Bytes.get bytes i = m.byteAt (a.toNat % 0x1000000 + i)) ∧
    (a.toNat ≤ 0xFFFFFF → m.page a 3 = .ok (BigEndian.fieldBytes (m.readField a))) ∧
    (a.toNat ≤ 0xFFFFFD →
      (m.readField a).toNat = 65536 * (m.readByte a).toNat + (m.readWord (a + 1)).toNat) ∧
    (a.toNat ≤ 0x1000005 →
      ((m.readField a).toNat = 65536 * (m.readByte a).toNat + (m.readWord (a + 1)).toNat ↔
        ∀ i, 0x1000000 ≤ i → a.toNat ≤ i → i < a.toNat + 3 →
          m.byteAt i = m.byteAt (i % 0x1000000))) := by
  have room : a.toNat ≤ 0x1000005 → a.toNat + 3 ≤ capacity := by
    intro inside
    rw [capacity_eq]
    omega
  refine ⟨⟨m.size_bytes, fun i h => Bytes.get_of_lt h⟩, ⟨Guarded.byte_memory m a, rfl⟩,
    ⟨Guarded.word_memory m a, m.toNat_readWord_mod a⟩,
    ⟨Guarded.field_memory m a, m.toNat_readField_ite a⟩, ?_, ?_, ?_, ?_⟩
  · intro length
    exact ⟨Guarded.page_memory m a length, exists_page_error_iff, fun _ => page_eq_ok⟩
  · intro low
    exact m.page_three (Nat.lt_succ_of_le low)
  · intro low
    refine (readField_eq_parts_iff (room (by omega))).mpr fun i margin _ high => ?_
    rw [addressSpace_eq] at margin
    omega
  · intro inside
    exact readField_eq_parts_iff (room inside)

/-- A byte at the bottom of memory that the margin does not repeat. The field across the end is then
not the byte and the word there, though it is still its page; one address lower there is nothing to
repeat. A page at the same address is refused at one length and cut at the length before. -/
theorem readers_see_one_array_apart :
    ∃ m : Memory, m.byteAt 0 = 7 ∧ m.byteAt 0x1000000 = 0 ∧
      (m.readField 0xFFFFFE).toNat
        ≠ 65536 * (m.readByte 0xFFFFFE).toNat + (m.readWord 0xFFFFFF).toNat ∧
      m.page 0xFFFFFE 3 = .ok (BigEndian.fieldBytes (m.readField 0xFFFFFE)) ∧
      (m.readField 0xFFFFFD).toNat
        = 65536 * (m.readByte 0xFFFFFD).toNat + (m.readWord 0xFFFFFE).toNat ∧
      (∃ bytes, m.page 0xFFFFFE 0xFFFFFFFFFF000001 = .ok bytes ∧ bytes.size = 10) ∧
      ∃ cause, m.page 0xFFFFFE 0xFFFFFFFFFF000002 = .error cause := by
  have written : ∃ m : Memory, m.byteAt 0 = 7 ∧ m.byteAt 0x1000000 = 0 :=
    ⟨blank.writeByte 0 7, by rw [byteAt_writeByte, if_pos (by decide)],
      by rw [byteAt_writeByte, if_neg (by decide), byteAt_blank]⟩
  obtain ⟨m, low, margin⟩ := written
  obtain ⟨_, _, _, _, pages, stored, _, parts⟩ := readers_see_one_array m 0xFFFFFE
  obtain ⟨_, _, _, _, _, _, below, _⟩ := readers_see_one_array m 0xFFFFFD
  refine ⟨m, low, margin, fun same => ?_, stored (by decide), below (by decide), ?_, ?_⟩
  · have repeated := (parts (by decide)).mp same 0x1000000 (by decide) (by decide) (by decide)
    rw [margin] at repeated
    exact absurd (repeated.trans low) (by decide)
  · obtain ⟨_, refused, cut⟩ := pages 0xFFFFFFFFFF000001
    cases page : m.page 0xFFFFFE 0xFFFFFFFFFF000001 with
    | error cause => exact absurd (refused.mp ⟨cause, page⟩) (by decide)
    | ok bytes => exact ⟨bytes, rfl, (cut bytes page).1⟩
  · exact (pages 0xFFFFFFFFFF000002).2.1.mpr (by decide)

end ByteByteJump.Memory
