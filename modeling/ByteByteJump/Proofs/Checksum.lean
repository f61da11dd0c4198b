import ByteByteJump.Checksum
import ByteByteJump.Frame

/-!
# What the checksum tells apart

A round mixes a byte into the low eight bits of the hash and multiplies by an odd factor, so a round
with a given byte can be undone. Streams that differ in a window therefore have the same checksum
only if the hashes behind the window are the same.

Behind a window of three bytes they are not. The factor is `2 ^ 24 + 403`. Two hashes that differ in
their low eight bits only are far apart after one round, and a second byte moves them too little to
bring them near enough to each other for the third one.

## Main statements

* `foldl_absorb_left_injective` — rounds with the same bytes keep different hashes different
* `eq_zero_of_two_rounds` — what two rounds do to a small difference, as a fact about numbers
* `foldl_absorb_injective` — up to three bytes are told apart, from every hash
* `ofBytes_ne_of_window` — streams that differ in a window of three bytes, and pictures that differ
  in one pixel
-/

namespace ByteByteJump

namespace Checksum

variable {g h : UInt32} {a b c a' b' c' : UInt8}

/-! ## Undoing rounds -/

/-- The factor is odd, so it has an inverse modulo `2 ^ 32`. -/
theorem prime_mul_inverse : prime * 0x359C449B = 1 := by decide

theorem mixed_eq_of_absorb_eq (same : absorb g a = absorb h b) :
    g ^^^ a.toUInt32 = h ^^^ b.toUInt32 := by
  have undone : ∀ x : UInt32, x * prime * 0x359C449B = x := by
    intro x
    rw [UInt32.mul_assoc, prime_mul_inverse, UInt32.mul_one]
  rw [← undone (g ^^^ a.toUInt32), ← undone (h ^^^ b.toUInt32)]
  exact congrArg (· * 0x359C449B) same

theorem absorb_left_injective (same : absorb g b = absorb h b) : g = h :=
  (UInt32.xor_left_inj _).mp (mixed_eq_of_absorb_eq same)

/-- **Rounds with the same bytes can be undone.** -/
theorem foldl_absorb_left_injective (bytes : List UInt8)
    (same : bytes.foldl absorb g = bytes.foldl absorb h) : g = h := by
  induction bytes generalizing g h with
  | nil => exact same
  | cons b rest ih => exact absorb_left_injective (ih same)

/-! ## Rounds as numbers -/

/-- A byte is mixed into the low eight bits. -/
theorem mixed_div (h : UInt32) (b : UInt8) :
    (h ^^^ b.toUInt32).toNat / 256 = h.toNat / 256 := by
  have byte : b.toNat / 2 ^ 8 = 0 := Nat.div_eq_of_lt b.toNat_lt
  rw [UInt32.toNat_xor, UInt8.toNat_toUInt32]
  show (h.toNat ^^^ b.toNat) / 2 ^ 8 = h.toNat / 2 ^ 8
  rw [Nat.xor_div_two_pow, byte, Nat.xor_zero]

theorem toNat_absorb (h : UInt32) (b : UInt8) :
    (absorb h b).toNat = (h ^^^ b.toUInt32).toNat * 16777619 % 4294967296 := by
  rw [absorb, UInt32.toNat_mul]
  rfl

theorem mixed_right_injective (same : (h ^^^ a.toUInt32).toNat = (h ^^^ b.toUInt32).toNat) :
    a = b :=
  UInt8.toUInt32_inj.mp ((UInt32.xor_right_inj h).mp (UInt32.toNat_inj.mp same))

/-- The carry `c` out of the low 24 bits decides: it is at most two, and unless it is zero it asks
for more than the second byte can move. -/
theorem eq_zero_of_carry {e n k c : Int} (few : -3 < c ∧ c < 3)
    (second : -511 < n - 403 * e ∧ n - 403 * e < 511)
    (low : -256 < 403 * n - 16777216 * c ∧ 403 * n - 16777216 * c < 256)
    (high : c + n + 16777619 * e = 256 * k) : e = 0 ∧ n = 0 := by
  have carries : c = -2 ∨ c = -1 ∨ c = 0 ∨ c = 1 ∨ c = 2 := by omega
  rcases carries with rfl | rfl | rfl | rfl | rfl
  · have two : n = -83262 ∨ n = -83261 := by omega
    rcases two with rfl | rfl <;> omega
  · omega
  · omega
  · omega
  · have two : n = 83261 ∨ n = 83262 := by omega
    rcases two with rfl | rfl <;> omega

/--
**Two rounds spread a small difference.**

`e` is the difference that the first byte makes, `f` what the second one adds and `d` the difference
that is left for the third. If all of them are as small as bytes make them, there was none.
-/
theorem eq_zero_of_two_rounds {e f d k : Int} (first : -256 < e ∧ e < 256)
    (second : -511 < f ∧ f < 511) (third : -256 < d ∧ d < 256)
    (rounds : (e * 16777619 + f) * 16777619 = d + 4294967296 * k) : e = 0 ∧ f = 0 := by
  -- 16777619 is 2 ^ 24 + 403, so the low 24 bits are those of 403 * (403 * e + f)
  have none := eq_zero_of_carry (e := e) (n := 403 * e + f) (k := k)
    (c := 256 * k - 16778022 * e - f) (by omega) (by omega) (by omega) (by omega)
  omega

/-- The same for the hashes themselves: `v` and `v'` are multiplied in the first round, `u` and `u'`
in the second one. Hashes with the same quotient by 256 differ in their low eight bits only. -/
theorem eq_of_two_rounds {v v' u u' : Nat} (first : v / 256 = v' / 256)
    (second : u / 256 = v * 16777619 % 4294967296 / 256)
    (second' : u' / 256 = v' * 16777619 % 4294967296 / 256)
    (third : u * 16777619 % 4294967296 / 256 = u' * 16777619 % 4294967296 / 256) :
    v = v' ∧ u = u' := by
  -- the sums that the two rounds drop, in multiples of 2 ^ 32
  let k : Int := (u * 16777619 / 4294967296 : Nat) - (u' * 16777619 / 4294967296 : Nat)
    + ((v * 16777619 / 4294967296 : Nat) - (v' * 16777619 / 4294967296 : Nat)) * 16777619
  have none := eq_zero_of_two_rounds (e := v - v')
    (f := (u - (v * 16777619 % 4294967296 : Nat)) - (u' - (v' * 16777619 % 4294967296 : Nat)))
    (d := (u * 16777619 % 4294967296 : Nat) - (u' * 16777619 % 4294967296 : Nat)) (k := k)
    (by omega) (by omega) (by omega) (by omega)
  omega

/-! ## Windows -/

/-- **From every hash three bytes are told apart from three others.** -/
theorem absorb_three_injective
    (same : absorb (absorb (absorb h a) b) c = absorb (absorb (absorb h a') b') c') :
    a = a' ∧ b = b' ∧ c = c' := by
  have last := mixed_eq_of_absorb_eq same
  have first : (h ^^^ a.toUInt32).toNat / 256 = (h ^^^ a'.toUInt32).toNat / 256 := by
    rw [mixed_div, mixed_div]
  have third : (absorb (absorb h a) b).toNat / 256 = (absorb (absorb h a') b').toNat / 256 := by
    rw [← mixed_div (absorb (absorb h a) b) c, last, mixed_div]
  have second := mixed_div (absorb h a) b
  have second' := mixed_div (absorb h a') b'
  rw [toNat_absorb h] at second second'
  rw [toNat_absorb, toNat_absorb] at third
  obtain ⟨va, ub⟩ := eq_of_two_rounds first second second' third
  obtain rfl : a = a' := mixed_right_injective va
  obtain rfl : b = b' := mixed_right_injective ub
  exact ⟨rfl, rfl, UInt8.toUInt32_inj.mp ((UInt32.xor_right_inj _).mp last)⟩

/-- **Up to three bytes are told apart**, from every hash. -/
theorem foldl_absorb_injective {xs ys : List UInt8} (length : xs.length = ys.length)
    (short : xs.length ≤ 3) (same : xs.foldl absorb h = ys.foldl absorb h) : xs = ys := by
  -- fewer than three are told apart as three of which the last are zeros
  have followed : ∀ zs : List UInt8, (xs ++ zs).foldl absorb h = (ys ++ zs).foldl absorb h := by
    intro zs
    rw [List.foldl_append, List.foldl_append, same]
  match xs, ys, length, short, followed with
  | [], [], _, _, _ => rfl
  | [x], [x'], _, _, followed =>
    obtain ⟨rfl, _⟩ := absorb_three_injective (followed [0, 0])
    rfl
  | [x, y], [x', y'], _, _, followed =>
    obtain ⟨rfl, rfl, _⟩ := absorb_three_injective (followed [0])
    rfl
  | [x, y, z], [x', y', z'], _, _, followed =>
    obtain ⟨rfl, rfl, rfl⟩ := absorb_three_injective (followed [])
    rfl

/-- Streams are cut into what is before a window, the window and what is behind it. -/
theorem eq_of_foldl_absorb_eq {xs ys : List UInt8} {w : Nat} (length : xs.length = ys.length)
    (outside : ∀ i, i < w ∨ w + 3 ≤ i → xs[i]? = ys[i]?)
    (same : xs.foldl absorb h = ys.foldl absorb h) : xs = ys := by
  have before : xs.take w = ys.take w := by
    refine List.ext_getElem? fun i => ?_
    rw [List.getElem?_take, List.getElem?_take]
    split
    · next inside => exact outside i (.inl inside)
    · rfl
  have behind : (xs.drop w).drop 3 = (ys.drop w).drop 3 := by
    refine List.ext_getElem? fun i => ?_
    rw [List.getElem?_drop, List.getElem?_drop, List.getElem?_drop, List.getElem?_drop]
    exact outside _ (.inr (by omega))
  have cut : ∀ zs : List UInt8, zs = zs.take w ++ ((zs.drop w).take 3 ++ (zs.drop w).drop 3) := by
    intro zs
    rw [List.take_append_drop, List.take_append_drop]
  rw [cut xs, cut ys, before, behind, List.foldl_append, List.foldl_append, List.foldl_append,
    List.foldl_append] at same
  have window := foldl_absorb_injective (by simp [length]) (List.length_take_le ..)
    (foldl_absorb_left_injective _ same)
  rw [cut xs, cut ys, before, window, behind]

theorem getElem?_toList (b : ByteArray) (i : Nat) :
    b.data.toList[i]? = if i < b.size then some (Bytes.get b i) else none := by
  rw [Array.getElem?_toList, Bytes.get_eq_getD_data]
  split
  · next inside => rw [Array.getElem?_eq_getElem inside, Option.getD_some]
  · next outside => rw [Array.getElem?_eq_none (Nat.not_lt.mp outside)]

end Checksum

/-! ## Pictures -/

namespace Frame

/-- Pictures with the same bytes have the same pixels. -/
theorem pixel_eq_of_bytes_eq {f f' : Frame} (same : f.bytes = f'.bytes) (x y : Nat) :
    f.pixel x y = f'.pixel x y := by
  by_cases inside : x < width ∧ y < height
  · obtain ⟨hx, hy⟩ := inside
    rw [pixel_eq_pixelAt f hx hy, pixel_eq_pixelAt f' hx hy]
    refine congrArg some (Rgb.ext_component fun k hk => ?_)
    rw [← get_bytes f hx hy hk, ← get_bytes f' hx hy hk, same]
  · rw [pixel_eq_none f (by omega), pixel_eq_none f' (by omega)]

/-- Pictures that differ in one pixel are streams that differ in a window of three bytes. -/
theorem get_bytes_eq_of_pixel_eq {f f' : Frame} {x y : Nat}
    (others : ∀ x' y', (x', y') ≠ (x, y) → f.pixel x' y' = f'.pixel x' y') {i : Nat}
    (outside : i < 3 * (256 * y + x) ∨ 3 * (256 * y + x) + 3 ≤ i) :
    Bytes.get f.bytes i = Bytes.get f'.bytes i := by
  by_cases inside : i < 196608
  · have column : i / 3 % 256 < width := Nat.mod_lt _ (by decide)
    have row : i / 3 / 256 < height := by
      show _ < 256
      omega
    have other : (i / 3 % 256, i / 3 / 256) ≠ (x, y) := by
      intro eq
      obtain ⟨hx, hy⟩ := Prod.mk.inj eq
      omega
    have same := others _ _ other
    rw [pixel_eq_pixelAt _ column row, pixel_eq_pixelAt _ column row] at same
    have position : 3 * (width * (i / 3 / 256) + i / 3 % 256) + i % 3 = i := by
      show 3 * (256 * (i / 3 / 256) + i / 3 % 256) + i % 3 = i
      omega
    have component : i % 3 < 3 := Nat.mod_lt _ (by decide)
    rw [← position, get_bytes _ column row component, get_bytes _ column row component,
      Option.some.inj same]
  · have behind : ∀ f : Frame, Bytes.get f.bytes i = 0 := fun f =>
      Bytes.get_of_le (f.size_bytes ▸ Nat.not_lt.mp inside)
    rw [behind, behind]

/-- The black picture, but for its last pixel. -/
def speck : Frame := ⟨blank.pixels.set 65535 ⟨0, 0, 1⟩ (by decide)⟩

theorem pixel_speck_last : speck.pixel 255 255 = some ⟨0, 0, 1⟩ := by
  rw [pixel, dif_pos (by decide)]
  exact congrArg some (Vector.getElem_set_self (by decide))

theorem pixel_speck {x y : Nat} (other : (x, y) ≠ (255, 255)) :
    speck.pixel x y = blank.pixel x y := by
  by_cases inside : x < width ∧ y < height
  · have position : y * width + x ≠ 65535 := by
      intro last
      have hx : x < 256 := inside.1
      have hy : y < 256 := inside.2
      have last : y * 256 + x = 65535 := last
      exact other (Prod.ext (show x = 255 by omega) (show y = 255 by omega))
    rw [pixel, pixel, dif_pos inside, dif_pos inside]
    exact congrArg some (Vector.getElem_set_ne (by decide) _ position.symm)
  · rw [pixel, pixel, dif_neg inside, dif_neg inside]

end Frame

/-! ## Checksums that differ -/

namespace Checksum

/--
**Streams that differ in a window of three bytes have different checksums**, wherever the window is
and whatever is around it. So have two pictures that differ in one pixel.
-/
theorem ofBytes_ne_of_window :
    (∀ (a b : ByteArray) (w : Nat), a.size = b.size → a ≠ b →
      (∀ i, i < w ∨ w + 3 ≤ i → Bytes.get a i = Bytes.get b i) → ofBytes a ≠ ofBytes b) ∧
    ∀ (f g : Frame) (x y : Nat), f.pixel x y ≠ g.pixel x y →
      (∀ x' y', (x', y') ≠ (x, y) → f.pixel x' y' = g.pixel x' y') →
        ofBytes f.bytes ≠ ofBytes g.bytes := by
  have window : ∀ (a b : ByteArray) (w : Nat), a.size = b.size → a ≠ b →
      (∀ i, i < w ∨ w + 3 ≤ i → Bytes.get a i = Bytes.get b i) → ofBytes a ≠ ofBytes b := by
    intro a b w size ne outside same
    rw [ofBytes_eq_foldl, ofBytes_eq_foldl] at same
    have bytes : a.data.toList = b.data.toList := by
      refine eq_of_foldl_absorb_eq (w := w) ?_ ?_ same
      · rw [Array.length_toList, Array.length_toList]
        exact size
      · intro i hi
        rw [getElem?_toList, getElem?_toList, size, outside i hi]
    exact ne (ByteArray.ext (Array.toList_inj.mp bytes))
  refine ⟨window, fun f g x y ne others => ?_⟩
  refine window f.bytes g.bytes (3 * (256 * y + x)) ?_ ?_ fun i => Frame.get_bytes_eq_of_pixel_eq others
  · rw [Frame.size_bytes, Frame.size_bytes]
  · exact fun same => ne (Frame.pixel_eq_of_bytes_eq same x y)

/-- A window that reaches past the end of two streams, and two pictures that differ in the last
component of their last pixel. -/
theorem ofBytes_ne_of_window_last :
    (⟨#[1, 2, 3]⟩ : ByteArray) ≠ ⟨#[1, 2, 4]⟩ ∧ ofBytes ⟨#[1, 2, 3]⟩ ≠ ofBytes ⟨#[1, 2, 4]⟩ ∧
      Frame.blank.pixel 255 255 ≠ Frame.speck.pixel 255 255 ∧
      ofBytes Frame.blank.bytes ≠ ofBytes Frame.speck.bytes := by
  have ne : (⟨#[1, 2, 3]⟩ : ByteArray) ≠ ⟨#[1, 2, 4]⟩ := by decide
  have pixel : Frame.blank.pixel 255 255 ≠ Frame.speck.pixel 255 255 := by
    rw [Frame.pixel_blank (by decide) (by decide), Frame.pixel_speck_last]
    decide
  refine ⟨ne, ofBytes_ne_of_window.1 _ _ 2 rfl ne ?_, pixel,
    ofBytes_ne_of_window.2 _ _ 255 255 pixel fun x y other => (Frame.pixel_speck other).symm⟩
  intro i outside
  rcases outside with low | high
  · match i, low with
    | 0, _ => rfl
    | 1, _ => rfl
  · rw [Bytes.get_of_le, Bytes.get_of_le]
    · show 3 ≤ i
      omega
    · show 3 ≤ i
      omega

end Checksum

end ByteByteJump
