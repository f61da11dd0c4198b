import ByteByteJump.Image.Demo
import ByteByteJump.Proofs.Chain.Layout

/-!
# Where the parts of the demo lie

The program is below the test card, the test card below the pages of sound, and these lie one behind
the other. So no store covers what another one left, and each part can be read off the image as it
was made.

## Main statements

* `testBit_trailingZeros` — the zeros at the end of a number, and the one before them
* `size_withTones`, `byteAt_withTones` — any number of pages of sound
* `byteAt_image_program`, `byteAt_image_card`, `byteAt_image_tone` — the parts of the image
-/

namespace ByteByteJump.Demo

/-! ## The lowest key -/

theorem trailingZeros_of_odd {n : Nat} (odd : n % 2 = 1) : trailingZeros n = 0 := by
  rw [trailingZeros, if_pos (.inl odd)]

theorem trailingZeros_of_even {n : Nat} (even : n % 2 = 0) (some : n ≠ 0) :
    trailingZeros n = trailingZeros (n / 2) + 1 := by
  rw [trailingZeros, if_neg (by omega)]

/-- **The zeros at the end of a number reach down from its lowest one.** -/
theorem testBit_trailingZeros {n : Nat} (some : n ≠ 0) :
    n.testBit (trailingZeros n) = true ∧ ∀ j < trailingZeros n, n.testBit j = false := by
  induction n using Nat.strongRecOn with
  | _ n ih =>
    rcases Nat.mod_two_eq_zero_or_one n with even | odd
    · obtain ⟨one, zeros⟩ := ih (n / 2) (by omega) (by omega)
      rw [trailingZeros_of_even even some]
      constructor
      · rw [Nat.testBit_succ]
        exact one
      · rintro (_ | j) hj
        · simp [even]
        · rw [Nat.testBit_succ]
          exact zeros j (by omega)
    · rw [trailingZeros_of_odd odd]
      simp [odd]

/-! ## The program -/

theorem size_program : program.size = 0x109 := by
  simp only [program, Image.instruction, Image.audioPage, Image.videoPage, Image.entryPoint,
    Image.size_poke, Instruction.size_encode]
  rfl

theorem storedAt_program : loop.StoredAt program.byteAt 0x100 :=
  Image.storedAt_instruction _ entry loop

theorem byteAt_program_header {i : Nat} (header : i < 8) :
    program.byteAt i
      = (((Image.empty.entryPoint entry).videoPage videoPage).audioPage audioBank).byteAt i := by
  have start : entry.toNat = 0x100 := rfl
  exact Image.byteAt_instruction_of_outside _ _ (.inl (by omega))

theorem byteAt_program_entryPoint {k : Nat} (hk : k < 3) :
    program.byteAt (2 + k) = Bytes.get (BigEndian.fieldBytes entry) k := by
  rw [byteAt_program_header (by omega), Image.byteAt_audioPage, if_neg (by omega),
    Image.byteAt_videoPage, if_neg (by omega), Image.byteAt_entryPoint, if_pos (by omega),
    Nat.add_sub_cancel_left]

theorem byteAt_program_videoPage : program.byteAt 5 = 0x01 := by
  rw [byteAt_program_header (by decide), Image.byteAt_audioPage, if_neg (by decide),
    Image.byteAt_videoPage, if_pos rfl]
  rfl

theorem byteAt_program_audioPage : program.byteAt 6 = 0x02 := by
  rw [byteAt_program_header (by decide), Image.byteAt_audioPage, if_pos (by decide)]
  rfl

/-! ## The pages of sound -/

@[simp] theorem size_tone (held : Nat) : (tone held).size = 0x100 := by
  unfold tone
  split
  · exact Bytes.size_replicate ..
  · exact Bytes.size_ofFn ..

theorem get_tone_zero (n : Nat) : Bytes.get (tone 0) n = 0 := by
  rw [tone, if_pos rfl, Bytes.get_replicate_zero]

theorem get_tone {held n : Nat} (some : held ≠ 0) (hn : n < 256) :
    Bytes.get (tone held) n = wave held n := by
  rw [tone, if_neg some, Bytes.get_ofFn, if_pos hn]

theorem toNat_toneAddress {held : Nat} (h : held < 256) :
    (toneAddress held).toNat = 0x20000 + 256 * held := by
  have bank : (audioBank.toUInt32 * 0x100).toNat = 0x20000 := rfl
  rw [toneAddress, UInt32.toNat_add, bank, UInt32.toNat_mul, UInt32.toNat_ofNat']
  show (0x20000 + held % 4294967296 * 256 % 4294967296) % 4294967296 = _
  omega

/-- An image with the pages of sound for the low key bytes below `n`. -/
def withTones (img : Image) (n : Nat) : Image :=
  (List.range n).foldl (fun img held => img.poke (toneAddress held) (tone held)) img

theorem withTones_succ (img : Image) (n : Nat) :
    withTones img (n + 1) = (withTones img n).poke (toneAddress n) (tone n) := by
  rw [withTones, List.range_succ, List.foldl_append]
  rfl

theorem size_withTones {img : Image} (size : img.size = 0x20000) {n : Nat} (hn : n ≤ 256) :
    (withTones img n).size = 0x20000 + 256 * n := by
  induction n with
  | zero => exact size
  | succ n ih =>
    rw [withTones_succ, Image.size_poke, ih (by omega), toNat_toneAddress (by omega), size_tone]
    omega

/-- Each page is the one for its own low key byte, and everything below them is as it was. -/
theorem byteAt_withTones (img : Image) {n : Nat} (hn : n ≤ 256) :
    (∀ held < n, ∀ j < 256,
      (withTones img n).byteAt (0x20000 + 256 * held + j) = Bytes.get (tone held) j) ∧
    ∀ i < 0x20000, (withTones img n).byteAt i = img.byteAt i := by
  induction n with
  | zero => exact ⟨fun held none => absurd none (Nat.not_lt_zero held), fun i _ => rfl⟩
  | succ n ih =>
    obtain ⟨pages, below⟩ := ih (by omega)
    have start : (toneAddress n).toNat = 0x20000 + 256 * n := toNat_toneAddress (by omega)
    constructor
    · intro held hheld j hj
      rw [withTones_succ, Image.byteAt_poke, start, size_tone]
      rcases Nat.lt_succ_iff_lt_or_eq.mp hheld with earlier | rfl
      · rw [if_neg (by omega)]
        exact pages held earlier j hj
      · rw [if_pos (by omega), Nat.add_sub_cancel_left]
    · intro i hi
      rw [withTones_succ, Image.byteAt_poke, start, if_neg (by omega)]
      exact below i hi

/-! ## The image -/

theorem size_card : card.size = 0x10000 := Bytes.size_ofFn ..

/-- The image before the first page of sound. -/
def silent : Image := program.poke (videoPage.toUInt32 * 0x10000) card

theorem image_eq : image = withTones silent 256 := rfl

theorem toNat_cardAddress : (videoPage.toUInt32 * 0x10000).toNat = 0x10000 := rfl

theorem size_silent : silent.size = 0x20000 := by
  rw [silent, Image.size_poke, size_program, toNat_cardAddress, size_card]
  rfl

theorem size_image : image.size = 0x30000 := size_withTones size_silent (Nat.le_refl 256)

theorem byteAt_image_program {i : Nat} (hi : i < 0x10000) : image.byteAt i = program.byteAt i := by
  rw [image_eq, (byteAt_withTones silent (Nat.le_refl 256)).2 i (by omega), silent,
    Image.byteAt_poke, toNat_cardAddress, if_neg (by omega)]

theorem byteAt_image_card {x y : Nat} (hx : x < 256) (hy : y < 256) :
    image.byteAt (0x10000 + (y * 256 + x)) = cardIndex x y := by
  have column : (y * 256 + x) % 256 = x := by omega
  have row : (y * 256 + x) / 256 = y := by omega
  rw [image_eq, (byteAt_withTones silent (Nat.le_refl 256)).2 _ (by omega), silent,
    Image.byteAt_poke, toNat_cardAddress, size_card, if_pos (by omega), Nat.add_sub_cancel_left,
    card, Bytes.get_ofFn, if_pos (by omega), column, row]

theorem byteAt_image_tone {held n : Nat} (hheld : held < 256) (hn : n < 256) :
    image.byteAt (0x20000 + 256 * held + n) = Bytes.get (tone held) n :=
  (byteAt_withTones silent (Nat.le_refl 256)).1 held hheld n hn

end ByteByteJump.Demo
