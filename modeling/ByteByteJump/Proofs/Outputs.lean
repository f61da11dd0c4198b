import ByteByteJump.Proofs.Guarded
import ByteByteJump.Proofs.TickBound

/-!
# What is seen and heard

After a load the screen is black and nothing is heard. From the first frame on both outputs are
functions of the memory that is there now, wherever the program has moved its pages to: reloads and
failed loads do not show, and neither does an earlier frame.

Colours and samples are compared with plain numbers here, the digits of a byte in base six and its
value in two's complement.

## Main statements

* `Reachable.outputs_of_pos` — pixels and samples, byte by byte
* `Reachable.buffers_eq` — both pages are whole and inside the address space, so the buffers hold
  nothing else
* `Reachable.outputs_coherent` — all that is known of the outputs of a reachable machine
-/

namespace ByteByteJump

/-! ## Bytes as numbers -/

/-- The components of a colour as numbers. -/
def Rgb.levels (c : Rgb) : Nat × Nat × Nat := (c.red.toNat, c.green.toNat, c.blue.toNat)

/-- The components that a byte stands for. -/
def Palette.levels (i : Nat) : Nat × Nat × Nat :=
  if i < 216 then (i / 36 * 0x33, i / 6 % 6 * 0x33, i % 6 * 0x33) else (0, 0, 0)

theorem Palette.levels_cube (i : Nat) : (cube i).levels = levels i := by
  rw [Rgb.levels, levels]
  by_cases h : i < 216
  · obtain ⟨red, green, blue⟩ := cube_of_lt h
    rw [if_pos h, red, green, blue]
  · rw [if_neg h, cube_of_le (Nat.not_lt.mp h)]
    rfl

theorem Palette.levels_color (i : UInt8) : (color i).levels = levels i.toNat := by
  rw [color_eq, levels_cube]

/-- The value of a byte in two's complement. -/
def Samples.level (i : Nat) : Int := if i < 128 then i else i - 256

theorem Samples.toInt_toInt8 (v : UInt8) : v.toInt8.toInt = level v.toNat := by
  have all : ∀ n : Fin 256,
      (UInt8.ofFin n).toInt8.toInt = level (UInt8.ofFin n).toNat := by
    decide +kernel
  exact all v.toFin

/-! ## Pictures and samples -/

namespace Frame

/-- A pixel and the three bytes of the stream that it stands for. -/
theorem pixel_bytes_ofMemory (m : Memory) {x y : Nat} (hx : x < 256) (hy : y < 256) :
    ∃ c, (ofMemory m).pixel x y = some c ∧
      (∀ k < 3, Bytes.get (ofMemory m).bytes (3 * (256 * y + x) + k) = c.component k) ∧
      c.levels = Palette.levels
        (m.byteAt ((m.readByte Header.videoPage).toNat * 65536 + 256 * y + x)).toNat := by
  have position : m.videoPage.toNat + (y * width + x)
      = (m.readByte Header.videoPage).toNat * 65536 + 256 * y + x := by
    have byte : m.readByte Header.videoPage = m.byteAt 5 := rfl
    rw [m.toNat_videoPage, byte, show width = 256 from rfl]
    omega
  have here := pixel_eq_pixelAt (ofMemory m) (show x < width from hx) (show y < height from hy)
  refine ⟨(ofMemory m).pixelAt (y * width + x), here, fun k hk => get_bytes _ hx hy hk, ?_⟩
  rw [pixel_ofMemory m (show x < width from hx) (show y < height from hy)] at here
  rw [← Option.some.inj here, Palette.levels_color, position]

theorem get_bytes_blank (i : Nat) : Bytes.get blank.bytes i = 0 := by
  have black : ∀ j k, (blank.pixelAt j).component k = 0 := by
    intro j k
    have : blank.pixelAt j = Rgb.black := by
      unfold pixelAt
      split
      · simp only [blank, Vector.getElem_replicate]
      · rfl
    rw [this]
    rcases k with _ | _ | _ | k <;> rfl
  rw [bytes, Bytes.get_ofFn]
  split
  · exact black _ _
  · rfl

end Frame

namespace Samples

theorem toInt_ofMemory (m : Memory) {i : Nat} (hi : i < 256) :
    (ofMemory m).values[i].toInt = level
      (m.byteAt ((m.readByte Header.audioPage).toNat * 65536
        + (m.readByte (Header.audioPage + 1)).toNat * 256 + i)).toNat := by
  have high : m.readByte Header.audioPage = m.byteAt 6 := rfl
  have low : m.readByte (Header.audioPage + 1) = m.byteAt 7 := rfl
  rw [getElem_ofMemory m hi, toInt_toInt8, m.toNat_audioPage, high, low]

theorem getElem_silence {i : Nat} (hi : i < 256) : silence.values[i] = 0 := by
  simp only [silence, Vector.getElem_replicate]

end Samples

namespace Machine

/-! ## Reachable machines -/

/-- Once there has been a frame, the outputs are those of the memory that is there now. -/
theorem Reachable.outputs_of_pos {m : Machine} (h : m.Reachable) (ran : 0 < m.frameCount.toNat) :
    (∀ x < 256, ∀ y < 256, ∃ c, m.frame.pixel x y = some c ∧
      (∀ k < 3, Bytes.get m.frame.bytes (3 * (256 * y + x) + k) = c.component k) ∧
      c.levels = Palette.levels
        (m.memory.byteAt ((m.memory.readByte 5).toNat * 65536 + 256 * y + x)).toNat) ∧
    ∀ i, (hi : i < 256) → m.samples.values[i].toInt = Samples.level
      (m.memory.byteAt ((m.memory.readByte 6).toNat * 65536
        + (m.memory.readByte 7).toNat * 256 + i)).toNat := by
  obtain ⟨frame, samples⟩ := h.coherent.outputs ran
  rw [frame, samples]
  exact ⟨fun x hx y hy => Frame.pixel_bytes_ofMemory m.memory hx hy,
    fun i hi => Samples.toInt_ofMemory m.memory hi⟩

theorem Reachable.outputs_of_eq_zero {m : Machine} (h : m.Reachable)
    (fresh : m.frameCount.toNat = 0) :
    (∀ i < 196608, Bytes.get m.frame.bytes i = 0) ∧
      ∀ i, (hi : i < 256) → m.samples.values[i] = 0 := by
  obtain ⟨frame, samples⟩ := h.coherent.blank fresh
  rw [frame, samples]
  exact ⟨fun i _ => Frame.get_bytes_blank i, fun i hi => Samples.getElem_silence hi⟩

/-- Both pages are whole, below the margin, and cover whatever a buffer held. -/
theorem Reachable.buffers_eq {m : Machine} (h : m.Reachable) :
    ∃ video audio,
      (m.memory.page m.memory.videoPage 65536 = .ok video ∧ video.size = 65536 ∧
        m.memory.videoPage.toNat + 65536 ≤ 0x1000000) ∧
      (m.memory.page m.memory.audioPage 256 = .ok audio ∧ audio.size = 256 ∧
        m.memory.audioPage.toNat + 256 ≤ 0x1000000) ∧
      (0 < m.frameCount.toNat →
        (∀ picture, picture.size = 196608 → Guarded.paint picture video = m.frame.bytes) ∧
        ∀ sound, Guarded.sample sound audio = m.samples) := by
  refine ⟨Frame.videoPage m.memory, Samples.audioPage m.memory,
    ⟨Frame.page_videoPage m.memory, Frame.size_videoPage m.memory, m.memory.videoPage_lt⟩,
    ⟨Samples.page_audioPage m.memory, Samples.size_audioPage m.memory, m.memory.audioPage_lt⟩,
    fun ran => ?_⟩
  obtain ⟨frame, samples⟩ := h.coherent.outputs ran
  rw [frame, samples]
  exact ⟨fun picture size => Guarded.paint_videoPage m.memory size,
    fun sound => Guarded.sample_audioPage m.memory sound⟩

/--
**The outputs of every reachable machine.**

They are those of the memory that is there now, once a frame has been run since the last load, and
blank before that. The pages that they are taken from are never cut, never reach the margin, and
leave nothing behind of what a buffer held.
-/
theorem Reachable.outputs_coherent {m : Machine} (h : m.Reachable) :
    (0 < m.frameCount.toNat →
      (∀ x < 256, ∀ y < 256, ∃ c, m.frame.pixel x y = some c ∧
        (∀ k < 3, Bytes.get m.frame.bytes (3 * (256 * y + x) + k) = c.component k) ∧
        c.levels = Palette.levels
          (m.memory.byteAt ((m.memory.readByte 5).toNat * 65536 + 256 * y + x)).toNat) ∧
      ∀ i, (hi : i < 256) → m.samples.values[i].toInt = Samples.level
        (m.memory.byteAt ((m.memory.readByte 6).toNat * 65536
          + (m.memory.readByte 7).toNat * 256 + i)).toNat) ∧
    (m.frameCount.toNat = 0 →
      (∀ i < 196608, Bytes.get m.frame.bytes i = 0) ∧
        ∀ i, (hi : i < 256) → m.samples.values[i] = 0) ∧
    m.frame.bytes.size = 196608 ∧
    (∀ i, (hi : i < 256) → (m.samples.unsigned[i].toNat : Int) = m.samples.values[i].toInt + 128) ∧
    (∀ x y, 256 ≤ x ∨ 256 ≤ y → m.frame.pixel x y = none) ∧
    ∃ video audio,
      (m.memory.page m.memory.videoPage 65536 = .ok video ∧ video.size = 65536 ∧
        m.memory.videoPage.toNat + 65536 ≤ 0x1000000) ∧
      (m.memory.page m.memory.audioPage 256 = .ok audio ∧ audio.size = 256 ∧
        m.memory.audioPage.toNat + 256 ≤ 0x1000000) ∧
      (0 < m.frameCount.toNat →
        (∀ picture, picture.size = 196608 → Guarded.paint picture video = m.frame.bytes) ∧
        ∀ sound, Guarded.sample sound audio = m.samples) := by
  refine ⟨h.outputs_of_pos, h.outputs_of_eq_zero, m.frame.size_bytes, ?_, ?_, h.buffers_eq⟩
  · intro i hi
    exact m.samples.toNat_unsigned hi
  · rintro x y outside
    exact m.frame.pixel_eq_none outside

/-- The last pixel of the first frame. -/
theorem outputs_coherent_first :
    (initial.next Keys.all).Reachable ∧ 0 < (initial.next Keys.all).frameCount.toNat ∧
      ∃ c, (initial.next Keys.all).frame.pixel 255 255 = some c ∧
        c.levels = Palette.levels ((initial.next Keys.all).memory.byteAt
          (((initial.next Keys.all).memory.readByte 5).toNat * 65536 + 256 * 255 + 255)).toNat := by
  have reachable : (initial.next Keys.all).Reachable :=
    reachable_initial.tick (coherent_initial.tick_of_lt Keys.all (by decide))
  have ran : 0 < (initial.next Keys.all).frameCount.toNat := by
    rw [toNat_next_frameCount Keys.all (by decide)]
    exact Nat.succ_pos _
  obtain ⟨c, pixel, _, levels⟩ :=
    ((Reachable.outputs_coherent reachable).1 ran).1 255 (by decide) 255 (by decide)
  exact ⟨reachable, ran, c, pixel, levels⟩

end Machine

end ByteByteJump
