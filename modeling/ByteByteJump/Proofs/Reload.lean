import ByteByteJump.Proofs.Forgetting
import ByteByteJump.Proofs.Guarded
import ByteByteJump.Proofs.Outputs
import ByteByteJump.Proofs.Reachable

/-!
# What a load forgets

A load leaves nothing of what was there: neither bytes behind the end of a short image, nor those of
the margin, which nothing else can change, nor an old picture or sound, nor a counter. So a machine
with a past goes on from a load as a machine without one.

On bare arrays a load clears what is there and lays the image over it. `Guarded.load` does so, and
an image that fits leaves in any arrays of the right lengths what it leaves in new ones.

## Main statements

* `Guarded.load_of_buffers` — a load into arrays with anything in them
* `Machine.load_append_zeros` — zeros at the end of an image do not matter
* `Machine.load_forgets` — all that a load leaves, and all that may follow it
-/

namespace ByteByteJump

/-! ## Bare arrays -/

namespace Guarded

/-- Zeros in the place of all bytes. -/
def clear (b : ByteArray) : ByteArray := Bytes.overlay b 0 (Bytes.replicate b.size 0)

/-- Other bytes in the place of the first ones. -/
def setPrefix (b data : ByteArray) : Except Fault ByteArray :=
  if data.size ≤ b.size then .ok (Bytes.overlay b 0 data) else .error (.range 0 data.size b.size)

/-- Loads a program image into the arrays that are there. One that does not fit is refused before
anything is touched. -/
def load (s : State) (image : ByteArray) : Except Fault (Except LoadError State) :=
  if Memory.capacity < image.size then .ok (.error (.tooLarge image.size Memory.capacity))
  else do
    let bytes ← setPrefix (clear s.core.bytes) image
    let pc := field bytes Header.entryPoint
    return .ok ⟨⟨bytes, pc, 0⟩, clear s.picture, Samples.silence, 0⟩

@[simp] theorem size_clear (b : ByteArray) : (clear b).size = b.size := by
  simp [clear]

theorem get_clear (b : ByteArray) (i : Nat) : Bytes.get (clear b) i = 0 := by
  rw [clear, Bytes.get_overlay, Bytes.size_replicate]
  by_cases inside : i < b.size
  · rw [if_pos (by omega), Bytes.get_replicate_zero]
  · rw [if_neg (by omega), Bytes.get_of_le (Nat.not_lt.mp inside)]

/-- The array becomes that of a memory with the image, whatever it held. -/
theorem setPrefix_clear {b image : ByteArray} (size : b.size = Memory.capacity)
    (fits : image.size ≤ Memory.capacity) :
    setPrefix (clear b) image = .ok (Memory.ofImage image fits).bytes := by
  have inside : image.size ≤ (clear b).size := by rw [size_clear, size]; exact fits
  rw [setPrefix, if_pos inside]
  refine congrArg Except.ok (Bytes.ext ?_ fun i _ => ?_)
  · rw [Bytes.size_overlay, size_clear, size, Memory.size_bytes]
    omega
  · have image_get : Bytes.get (Memory.ofImage image fits).bytes i = Bytes.get image i :=
      Memory.byteAt_ofImage image fits i
    rw [image_get, Bytes.get_overlay]
    by_cases here : 0 ≤ i ∧ i < 0 + image.size
    · rw [if_pos here, Nat.sub_zero]
    · rw [if_neg here, get_clear, Bytes.get_of_le (by omega)]

theorem clear_picture {picture : ByteArray} (size : picture.size = 196608) :
    clear picture = Frame.blank.bytes := by
  refine Bytes.ext ?_ fun i _ => ?_
  · rw [size_clear, size, Frame.size_bytes]
    rfl
  · rw [get_clear, Frame.get_bytes_blank]

/-- **A load into arrays with anything in them** is the load of the other machine, from any of its
states. -/
theorem load_of_buffers (s : State) (m : Machine) (image : ByteArray)
    (bytes : s.core.bytes.size = Memory.capacity) (picture : s.picture.size = 196608) :
    load s image = .ok ((m.load image).map ofMachine) := by
  unfold load
  by_cases fits : image.size ≤ Memory.capacity
  · rw [if_neg (Nat.not_lt.mpr fits), m.load_of_le fits, setPrefix_clear bytes fits, ok_bind,
      field_memory, clear_picture picture]
    rfl
  · rw [if_pos (Nat.not_le.mp fits), m.load_of_lt (Nat.not_le.mp fits)]
    rfl

end Guarded

/-! ## Zeros at the end -/

theorem Memory.ofImage_append_zeros {image : ByteArray} {n : Nat}
    (fits : image.size ≤ capacity) (fits' : (image ++ Bytes.replicate n 0).size ≤ capacity) :
    ofImage (image ++ Bytes.replicate n 0) fits' = ofImage image fits := by
  apply ext
  intro i _
  rw [byteAt_ofImage, byteAt_ofImage, Bytes.get_append, Bytes.get_replicate_zero]
  by_cases inside : i < image.size
  · rw [if_pos inside]
  · rw [if_neg inside, Bytes.get_of_le (Nat.not_lt.mp inside)]

namespace Machine

variable {image : ByteArray}

/-- **Zeros at the end of an image do not matter**, as long as it fits with them. -/
theorem load_append_zeros (m : Machine) {n : Nat} (fits : image.size + n ≤ Memory.capacity) :
    m.load (image ++ Bytes.replicate n 0) = m.load image := by
  have longer : (image ++ Bytes.replicate n 0).size ≤ Memory.capacity := by
    rw [ByteArray.size_append, Bytes.size_replicate]
    exact fits
  have shorter : image.size ≤ Memory.capacity := by omega
  rw [m.load_of_le longer, m.load_of_le shorter, Memory.ofImage_append_zeros shorter longer]

/-! ## What is left and what follows -/

/-- What an image leaves in a machine: nothing but itself, at its own entry point. -/
structure Fresh (m : Machine) (image : ByteArray) : Prop where
  memory : ∀ i < 0x1000008,
    m.memory.byteAt i = if i < image.size then Bytes.get image i else 0
  pc : m.stats.pc.toNat = (Bytes.get image 2).toNat * 65536 + (Bytes.get image 3).toNat * 256
    + (Bytes.get image 4).toNat
  totalCycles : m.stats.totalCycles = 0
  frameCount : m.stats.frameCount = 0
  picture : ∀ i < 196608, Bytes.get m.frame.bytes i = 0
  sound : ∀ i, (hi : i < 256) → m.samples.values[i] = 0

theorem fresh_ofMemory (fits : image.size ≤ Memory.capacity) :
    (ofMemory (Memory.ofImage image fits)).Fresh image where
  memory := by
    intro i _
    show (Memory.ofImage image fits).byteAt i = _
    rw [Memory.byteAt_ofImage]
    by_cases inside : i < image.size
    · rw [if_pos inside]
    · rw [if_neg inside, Bytes.get_of_le (Nat.not_lt.mp inside)]
  pc := by
    show ((Memory.ofImage image fits).readField Header.entryPoint).toNat = _
    rw [Memory.toNat_readField _ (by decide), Memory.byteAt_ofImage, Memory.byteAt_ofImage,
      Memory.byteAt_ofImage]
    rfl
  totalCycles := rfl
  frameCount := rfl
  picture := fun i _ => Frame.get_bytes_blank i
  sound := fun i hi => Samples.getElem_silence hi

/-- Frames as actions: none of them is answered with an error. -/
theorem performAll_map_tick {m last : Machine} {keys : List Keys} (run : m.play keys = .ok last) :
    m.performAll (keys.map .tick) = .ok (last, keys.map fun _ => none) := by
  induction keys generalizing m with
  | nil =>
    rw [play_nil] at run
    obtain rfl := Except.ok.inj run
    rfl
  | cons k rest ih =>
    rw [play_cons] at run
    obtain ⟨next, once, others⟩ := exists_of_bind_eq_ok run
    rw [List.map_cons, performAll_tick once, ih others]
    rfl

/--
**A load forgets the past.**

From any machine an image that fits is loaded, and what it leaves is what it leaves in a machine
that has done nothing: the image with zeros behind it, its entry point, and nothing else. So it is
with arrays of the right lengths that hold anything, and with an image that has more zeros at its
end. After any history, loading the image and doing whatever else comes to the same, answer by
answer, as in a machine without a history; and frames can follow, fewer than `2 ^ 48` of them.
-/
theorem load_forgets (m : Machine) (fits : image.size ≤ Memory.capacity) :
    ∃ loaded, m.load image = .ok loaded ∧ initial.load image = .ok loaded ∧
      loaded.Fresh image ∧
      (∀ n, image.size + n ≤ Memory.capacity →
        m.load (image ++ Bytes.replicate n 0) = .ok loaded) ∧
      (∀ s : Guarded.State, s.core.bytes.size = 0x1000008 → s.picture.size = 196608 →
        Guarded.load s image = .ok (.ok (Guarded.ofMachine loaded))) ∧
      ∀ actions last answers, m.performAll actions = .ok (last, answers) →
        (∀ rest, last.performAll (.load image :: rest)
          = initial.performAll (.load image :: rest)) ∧
        ∀ keys : List Keys, keys.length < 0x1000000000000 →
          ∃ played, loaded.play keys = .ok played ∧
            last.performAll (.load image :: keys.map .tick)
              = .ok (played, none :: keys.map fun _ => none) := by
  have load := fun l : Machine => l.load_of_le fits
  refine ⟨_, load m, load initial, fresh_ofMemory fits, ?_, ?_, ?_⟩
  · intro n more
    rw [m.load_append_zeros more, load m]
  · intro s bytes picture
    rw [Guarded.load_of_buffers s m image bytes picture, load m]
    rfl
  · intro actions last answers _
    generalize Memory.ofImage image fits = memory at load
    refine ⟨fun rest => ?_, fun keys few => ?_⟩
    · rw [performAll_load (load last), performAll_load (load initial)]
    · have run := play_ofMemory memory few
      refine ⟨_, run, ?_⟩
      rw [performAll_load (load last), performAll_map_tick run]
      rfl

/-- An image that ends with its entry point, in a machine with a past and in arrays full of it. -/
theorem load_forgets_disturbed :
    (⟨#[0, 0, 0x12, 0x34, 0x56]⟩ : ByteArray).size ≤ Memory.capacity ∧
      ∃ loaded, disturbed.load ⟨#[0, 0, 0x12, 0x34, 0x56]⟩ = .ok loaded ∧
        initial.load ⟨#[0, 0, 0x12, 0x34, 0x56]⟩ = .ok loaded ∧
        loaded.stats.pc.toNat = 0x123456 ∧ loaded.memory.byteAt 0x1000007 = 0 ∧
        Guarded.load ⟨⟨Bytes.replicate 0x1000008 0xFF, 0xABCDEF, 12⟩, Bytes.replicate 196608 0xFF,
          disturbed.samples, 7⟩ ⟨#[0, 0, 0x12, 0x34, 0x56]⟩
            = .ok (.ok (Guarded.ofMachine loaded)) := by
  have fits : (⟨#[0, 0, 0x12, 0x34, 0x56]⟩ : ByteArray).size ≤ Memory.capacity := by decide
  obtain ⟨loaded, load, load', fresh, _, arrays, _⟩ := load_forgets disturbed fits
  refine ⟨fits, loaded, load, load', fresh.pc, ?_, ?_⟩
  · rw [fresh.memory 0x1000007 (by decide)]
    rfl
  · exact arrays _ (Bytes.size_replicate ..) (Bytes.size_replicate ..)

end Machine

end ByteByteJump
