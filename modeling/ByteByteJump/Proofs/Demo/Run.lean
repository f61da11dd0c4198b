import ByteByteJump.Proofs.Chain.Order
import ByteByteJump.Proofs.Demo.Layout
import ByteByteJump.Proofs.Outputs

/-!
# What the demo shows and plays

The one instruction of the demo is a looping chain of one copy, from the low key byte to the middle
byte of the audio page address. A frame makes it `2 ^ 16` times, which comes to once. So memory
holds the image at all times, but for the keys and for that byte; the byte is the low key byte of
the last frame, whatever was held before.

## Main statements

* `Holds.next`, `Holds.after` — one frame and any number of frames
* `Holds.pixel_next`, `Holds.sample_next` — picture and sound
* `tick_answers` — the demo in every run
-/

namespace ByteByteJump.Demo

/-- The bytes of the image, but for the keys and for the one that selects the page of sound. -/
def Holds (m : Memory) : Prop := ∀ i, 2 ≤ i → i ≠ 7 → m.byteAt i = image.byteAt i

/-! ## The loop -/

theorem loopsApart : LoopsApart [⟨1, 7⟩] 0x100 := by decide

namespace Holds

variable {m : Machine} {memory : Memory}

theorem of_image (fits : image.size ≤ Memory.capacity) :
    Holds (Memory.ofImage image.bytes fits) := by
  intro i _ _
  exact Memory.byteAt_ofImage image.bytes fits i

theorem holdsLoop (h : Holds memory) : HoldsLoop memory 0x100 [⟨1, 7⟩] where
  chain := by
    intro i hi
    obtain rfl : i = 0 := Nat.lt_one_iff.mp hi
    refine storedAt_program.congr fun k low high => ?_
    have low : 0x100 ≤ k := low
    have high : k < 0x109 := high
    rw [h k (by omega) (by omega), byteAt_image_program (by omega)]
  entryPoint := by
    have header : ∀ k < 3, memory.byteAt (2 + k) = Bytes.get (BigEndian.fieldBytes entry) k := by
      intro k hk
      rw [h _ (by omega) (by omega), byteAt_image_program (by omega), byteAt_program_entryPoint hk]
    have room : Header.entryPoint.toNat + 3 ≤ Memory.capacity := by decide
    refine UInt32.toNat_inj.mp ?_
    exact Memory.toNat_readField_of_bytes room (header 0 (by decide)) (header 1 (by decide))
      (header 2 (by decide))

/-- **A frame of the demo** has one effect: the low key byte selects the page of sound. -/
theorem next (h : Holds m.memory) (k : Keys) :
    Holds (m.next k).memory ∧
      (m.next k).memory.byteAt 7 = UInt8.ofNat (k.bits.toNat % 256) := by
  have made := loopsApart.madeAtOnce_next (.refl _) h.holdsLoop k
  constructor
  · intro i behind other
    have kept : ∀ c ∈ [(⟨1, 7⟩ : Copy)], i ≠ Memory.offset c.dest := by
      intro c hc
      obtain rfl := List.mem_singleton.mp hc
      exact other
    rw [made.kept i kept, Machine.byteAt_started, if_neg (by omega), if_neg (by omega)]
    exact h i behind other
  · have low : (m.started k).memory.byteAt 1 = BigEndian.wordLow k.bits := by
      rw [Machine.byteAt_started, if_neg (by decide), if_pos rfl]
    rw [← BigEndian.wordLow_eq_ofNat, ← low]
    exact made.copied ⟨1, 7⟩ List.mem_cons_self

theorem pc_next (h : Holds m.memory) (k : Keys) : (m.next k).stats.pc = 0x100 := by
  have pc := (loopsApart.machine_next_eq h.holdsLoop k).2.1
  rw [Machine.stats_pc]
  refine UInt32.toNat_inj.mp ?_
  rw [pc, List.length_singleton, Nat.mod_one, Nat.mul_zero, Nat.add_zero]

/-- **Any number of frames** leave the demo whole. -/
theorem after (h : Holds m.memory) (keys : List Keys) : Holds (m.after keys).memory := by
  induction keys generalizing m with
  | nil => simpa using h
  | cons k rest ih =>
    rw [Machine.after_cons]
    exact ih (h.next k).1

/-! ## The outputs -/

/-- **The picture is the test card**, whatever keys are held. -/
theorem pixel_next (h : Holds m.memory) (k : Keys) {x y : Nat} (hx : x < 256) (hy : y < 256) :
    (m.next k).frame.pixel x y = some (Palette.cube (16 * (y / 16) + x / 16)) := by
  obtain ⟨still, _⟩ := h.next k
  have page : (m.next k).memory.videoPage.toNat = 0x10000 := by
    rw [Memory.toNat_videoPage, still 5 (by decide) (by decide),
      byteAt_image_program (by decide), byteAt_program_videoPage]
    rfl
  have index : (cardIndex x y).toNat = 16 * (y / 16) + x / 16 := by
    rw [cardIndex, Nat.toUInt8_eq, UInt8.toNat_ofNat']
    omega
  rw [Machine.frame_next, Frame.pixel_ofMemory _ hx hy, page,
    still _ (by omega) (by omega)]
  show some (Palette.color (image.byteAt (0x10000 + (y * 256 + x)))) = _
  rw [byteAt_image_card hx hy, Palette.color_eq, index]

/-- **The sound is the page for the low key byte.** -/
theorem sample_next (h : Holds m.memory) (k : Keys) {n : Nat} (hn : n < 256) :
    (m.next k).samples.values[n] = (Bytes.get (tone (k.bits.toNat % 256)) n).toInt8 := by
  obtain ⟨still, low⟩ := h.next k
  have page : (m.next k).memory.audioPage.toNat = 0x20000 + 256 * (k.bits.toNat % 256) := by
    rw [Memory.toNat_audioPage, still 6 (by decide) (by decide),
      byteAt_image_program (by decide), byteAt_program_audioPage, low, UInt8.toNat_ofNat']
    show 0x02 * 65536 + _ = _
    omega
  have samples : (m.next k).samples.values[n]
      = (Samples.ofMemory (m.next k).memory).values[n] := by rw [Machine.samples_next]
  rw [samples, Samples.getElem_ofMemory _ hn, page, still _ (by omega) (by omega),
    byteAt_image_tone (Nat.mod_lt k.bits.toNat (by decide)) hn]

end Holds

/-! ## The lowest held key -/

theorem testBit_low (k : Keys) (i : Nat) :
    (k.bits.toNat % 256).testBit i = (decide (i < 8) && k.holds i) :=
  Nat.testBit_mod_two_pow k.bits.toNat 8 i

/-- If any of the keys 0 to 7 is held, the zeros below them lead to the lowest. -/
theorem lowest_held {k : Keys} (some : k.bits.toNat % 256 ≠ 0) :
    trailingZeros (k.bits.toNat % 256) < 8 ∧
      k.holds (trailingZeros (k.bits.toNat % 256)) = true ∧
      ∀ j < trailingZeros (k.bits.toNat % 256), k.holds j = false := by
  obtain ⟨one, zeros⟩ := testBit_trailingZeros some
  rw [testBit_low, Bool.and_eq_true, decide_eq_true_eq] at one
  obtain ⟨small, held⟩ := one
  refine ⟨small, held, fun j hj => ?_⟩
  have zero := zeros j hj
  rw [testBit_low, decide_eq_true (show j < 8 by omega), Bool.true_and] at zero
  exact zero

theorem low_congr {k l : Keys} (same : ∀ i < 8, k.holds i = l.holds i) :
    k.bits.toNat % 256 = l.bits.toNat % 256 := by
  refine Nat.eq_of_testBit_eq fun i => ?_
  rw [testBit_low, testBit_low]
  by_cases hi : i < 8
  · rw [same i hi]
  · rw [decide_eq_false hi, Bool.false_and, Bool.false_and]

theorem toInt_wave (held n : Nat) :
    (wave held n).toInt8.toInt
      = if n / (128 >>> trailingZeros held) % 2 = 0 then 0x20 else -0x20 := by
  unfold wave halfPeriod
  split <;> rfl

/-! ## Every run -/

/-- What the demo shows and plays when some keys are held. -/
structure Answers (m : Machine) (k : Keys) : Prop where
  pc : m.stats.pc = 0x100
  card : ∀ x < 256, ∀ y < 256,
    (m.frame.pixel x y).map Rgb.levels = some (Palette.levels (16 * (y / 16) + x / 16))
  silence : k.bits.toNat % 256 = 0 → ∀ n, (hn : n < 256) → m.samples.values[n] = 0
  /-- The lowest of the keys 0 to 7 that are held gives the tone. -/
  tone : k.bits.toNat % 256 ≠ 0 →
    ∃ t < 8, k.holds t = true ∧ (∀ j < t, k.holds j = false) ∧
      ∀ n, (hn : n < 256) →
        m.samples.values[n].toInt = if n / (128 >>> t) % 2 = 0 then 0x20 else -0x20

namespace Holds

variable {m n : Machine} {k l : Keys}

theorem answers (h : Holds m.memory) (k : Keys) : Answers (m.next k) k where
  pc := h.pc_next k
  card := by
    intro x hx y hy
    rw [h.pixel_next k hx hy, Option.map_some, Palette.levels_cube]
  silence := by
    intro none n hn
    rw [h.sample_next k hn, none, get_tone_zero]
    rfl
  tone := by
    intro some
    obtain ⟨small, held, lowest⟩ := lowest_held some
    refine ⟨_, small, held, lowest, fun n hn => ?_⟩
    rw [h.sample_next k hn, get_tone some hn, toInt_wave]

theorem frame_congr (h : Holds m.memory) (h' : Holds n.memory) (k l : Keys) :
    (m.next k).frame = (n.next l).frame := by
  refine Frame.ext_pixel fun x hx y hy => ?_
  rw [h.pixel_next k hx hy, h'.pixel_next l hx hy]

/-- The keys 8 to F are not heard, and neither are those of earlier frames. -/
theorem samples_congr (h : Holds m.memory) (h' : Holds n.memory)
    (same : ∀ i < 8, k.holds i = l.holds i) : (m.next k).samples = (n.next l).samples := by
  refine Samples.ext fun i hi => ?_
  rw [h.sample_next k hi, h'.sample_next l hi, low_congr same]

end Holds

/--
**The demo in every run.**

From any machine it is loaded, and in every frame that follows it shows the test card and plays the
tone of the lowest held one of the keys 0 to 7, or nothing if none of them is held. Any two frames
of any two runs show the same, and they sound the same if they hold the same of these keys: the
other keys do not matter, and neither does what was held before.
-/
theorem tick_answers (start : Machine) :
    ∃ loaded, start.load image.bytes = .ok loaded ∧
      ∀ (keys : List Keys) (k : Keys), keys.length + 1 < 0x1000000000000 →
        ∃ m m', loaded.play keys = .ok m ∧ m.tick k = .ok m' ∧ Answers m' k ∧
          ∀ (others : List Keys) (l : Keys), others.length + 1 < 0x1000000000000 →
            ∃ n n', loaded.play others = .ok n ∧ n.tick l = .ok n' ∧
              m'.frame = n'.frame ∧
              ((∀ i < 8, k.holds i = l.holds i) → m'.samples = n'.samples) := by
  have fits : image.size ≤ Memory.capacity := by
    rw [size_image]
    decide
  have holds := Holds.of_image fits
  refine ⟨_, start.load_of_le fits, fun keys k few => ?_⟩
  generalize Memory.ofImage image.bytes fits = memory at holds
  have run := Holds.after (m := .ofMemory memory) holds
  refine ⟨_, _, Machine.play_ofMemory memory (by omega),
    Machine.tick_after_ofMemory memory few k, (run keys).answers k, fun others l few' => ?_⟩
  exact ⟨_, _, Machine.play_ofMemory memory (by omega),
    Machine.tick_after_ofMemory memory few' l, (run keys).frame_congr (run others) k l,
    (run keys).samples_congr (run others)⟩

/-- The keys 2, 3, D and F after a frame with all keys, and the first two of them alone. -/
theorem tick_answers_chord :
    ∃ loaded m m' n n', Machine.initial.load image.bytes = .ok loaded ∧
      loaded.play [Keys.all] = .ok m ∧ m.tick ⟨0xA00C⟩ = .ok m' ∧
      loaded.play [] = .ok n ∧ n.tick ⟨0x000C⟩ = .ok n' ∧
      m'.stats.pc = 0x100 ∧ (m'.frame.pixel 16 0).map Rgb.levels = some (0, 0, 0x33) ∧
      (m'.frame.pixel 240 192).map Rgb.levels = some (0xFF, 0xCC, 0x99) ∧
      (m'.samples.values.get ⟨31, by decide⟩).toInt = 0x20 ∧
      (m'.samples.values.get ⟨32, by decide⟩).toInt = -0x20 ∧
      m'.frame = n'.frame ∧ m'.samples = n'.samples := by
  obtain ⟨loaded, load, ticks⟩ := tick_answers Machine.initial
  obtain ⟨m, m', play, tick, answers, others⟩ := ticks [Keys.all] ⟨0xA00C⟩ (by decide)
  obtain ⟨n, n', play', tick', frame, samples⟩ := others [] ⟨0x000C⟩ (by decide)
  obtain ⟨t, _, held, lowest, tone⟩ := answers.tone (by decide)
  obtain rfl : t = 2 := by
    rcases t with _ | _ | _ | t
    · exact absurd held (by decide)
    · exact absurd held (by decide)
    · rfl
    · exact absurd (lowest 2 (by omega)) (by decide)
  refine ⟨loaded, m, m', n, n', load, play, tick, play', tick', answers.pc, ?_, ?_, ?_, ?_, frame,
    samples (by decide)⟩
  · exact answers.card 16 (by decide) 0 (by decide)
  · exact answers.card 240 (by decide) 192 (by decide)
  · exact tone 31 (by decide)
  · exact tone 32 (by decide)

end ByteByteJump.Demo
