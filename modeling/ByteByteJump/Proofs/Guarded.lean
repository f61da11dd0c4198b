import ByteByteJump.Proofs.Run

/-!
# The machine with every access guarded

The machine once more, on bare arrays. Nothing says how long they are: an index or a range outside
an array stops the machine, and so does a sum that does not fit. The outputs are two buffers that
are never made anew. A frame is laid over what they hold, as far as its page reaches.

A tick of this machine is a tick of the other one. So no index and no range is ever outside its
array, and nothing of an earlier frame is left in a buffer; only sums can stop a machine.

## Main statements

* `step_ofCore`, `run_ofCore` — instructions, from every address and with every program
* `paint_videoPage`, `sample_audioPage` — a page covers its buffer, whatever was in it
* `tick_of_buffers`, `tick_ofMachine` — frames, whatever the buffers held
-/

namespace ByteByteJump.Guarded

/-- Why the machine stopped. -/
inductive Fault where
  /-- A sum did not fit. -/
  | sum (cause : Overflow)
  /-- An index was not in its array. -/
  | index (i size : Nat)
  /-- A range was not in its array. -/
  | range (start stop size : Nat)
  deriving DecidableEq, Repr

/-- A result that only sums can refuse. -/
def allow {α β : Type} (f : α → β) : Except Overflow α → Except Fault β
  | .ok a => .ok (f a)
  | .error cause => .error (.sum cause)

@[simp] theorem allow_ok {α β : Type} (f : α → β) (a : α) : allow f (.ok a) = .ok (f a) := rfl

@[simp] theorem ok_bind {α β : Type} (a : α) (f : α → Except Fault β) : (.ok a >>= f) = f a := rfl

/-! ## Accesses -/

/-- The byte at an address modulo 2 ^ 24. -/
def byte (b : ByteArray) (a : UInt32) : Except Fault UInt8 :=
  if h : Memory.offset a < b.size then .ok b[Memory.offset a]
  else .error (.index (Memory.offset a) b.size)

/-- Changes the byte at an address modulo 2 ^ 24. -/
def setByte (b : ByteArray) (a : UInt32) (v : UInt8) : Except Fault ByteArray :=
  if h : Memory.offset a < b.size then .ok (b.set (Memory.offset a) v h)
  else .error (.index (Memory.offset a) b.size)

/-- The word at an address. -/
def word (b : ByteArray) (a : UInt32) : Except Fault UInt16 := do
  return BigEndian.word (← byte b a) (← byte b (a + 1))

/-- Changes the word at an address. -/
def setWord (b : ByteArray) (a : UInt32) (w : UInt16) : Except Fault ByteArray := do
  setByte (← setByte b a (BigEndian.wordHigh w)) (a + 1) (BigEndian.wordLow w)

/-- The field at an address. That it may lie outside the array is foreseen: it is zero then. -/
def field (b : ByteArray) (a : UInt32) : UInt32 :=
  if h : a.toNat + 3 ≤ b.size then
    BigEndian.field b[a.toNat] b[a.toNat + 1] b[a.toNat + 2]
  else 0

/-- The page of `length` bytes at an address modulo 2 ^ 24, cut at the end of the array. -/
def page (b : ByteArray) (a : UInt32) (length : Nat) : Except Fault ByteArray := do
  let stop ← allow (min b.size) (rangeEnd .pageEnd (Memory.offset a) length)
  if Memory.offset a ≤ stop ∧ stop ≤ b.size then return b.extract (Memory.offset a) stop
  else throw (.range (Memory.offset a) stop b.size)

/-! ## Instructions -/

/-- A processor with the array it works on. -/
structure Core where
  bytes : ByteArray
  pc : UInt32
  cycles : UInt64

def step (c : Core) : Except Fault Core := do
  let source := field c.bytes c.pc
  let dest := field c.bytes (← allow id (addAddress .fieldAddress c.pc 3))
  let next := field c.bytes (← allow id (addAddress .fieldAddress c.pc 6))
  let bytes ← setByte c.bytes dest (← byte c.bytes source)
  let cycles ← allow id (nextCount .cycleCount c.cycles)
  return ⟨bytes, next, cycles⟩

def run : Nat → Core → Except Fault Core
  | 0, c => .ok c
  | n + 1, c => step c >>= run n

/-! ## Frames -/

/-- Lays the colours of a page over a stream of pixels, as far as both of them go. -/
def paint (picture page : ByteArray) : ByteArray :=
  Bytes.ofFn picture.size fun i =>
    if i / 3 < picture.size / 3 ∧ i / 3 < page.size then
      (Palette.color (Bytes.get page (i / 3))).component (i % 3)
    else Bytes.get picture i

/-- Lays a page over samples, as far as it goes. -/
def sample (sound : Samples) (page : ByteArray) : Samples :=
  ⟨Vector.ofFn fun i => if i < page.size then (Bytes.get page i).toInt8 else sound.values[i]⟩

/-- A core, two buffers, and the number of frames. -/
structure State where
  core : Core
  picture : ByteArray
  sound : Samples
  frameCount : UInt64

/-- Takes the outputs of a frame from memory. -/
def finish (s : State) (core : Core) : Except Fault State := do
  let video := (← byte core.bytes Header.videoPage).toUInt32 * 0x10000
  let picture := paint s.picture (← page core.bytes video Frame.area)
  let audio := (← word core.bytes Header.audioPage).toUInt32 * 0x100
  let sound := sample s.sound (← page core.bytes audio Samples.count)
  let frameCount ← allow id (nextCount .frameCount s.frameCount)
  return ⟨core, picture, sound, frameCount⟩

def tick (s : State) (keys : Keys) : Except Fault State := do
  let bytes ← setWord s.core.bytes Header.keys keys.bits
  let pc := field bytes Header.entryPoint
  finish s (← run ByteByteJump.Core.instructionsPerFrame ⟨bytes, pc, s.core.cycles⟩)

/-! ## The two machines -/

/-- The core of bare arrays that a core stands for. -/
def ofCore (c : ByteByteJump.Core) : Core := ⟨c.memory.bytes, c.pc, c.cycles⟩

/-- The machine of bare arrays that a machine stands for. -/
def ofMachine (m : Machine) : State := ⟨ofCore m.core, m.frame.bytes, m.samples, m.frameCount⟩

theorem byte_memory (m : Memory) (a : UInt32) : byte m.bytes a = .ok (m.readByte a) := by
  have inside : Memory.offset a < m.bytes.size := by
    rw [m.size_bytes]
    exact Memory.offset_lt_capacity a
  unfold byte
  rw [dif_pos inside, Memory.readByte, Memory.byteAt, Bytes.get_of_lt inside]

theorem setByte_memory (m : Memory) (a : UInt32) (v : UInt8) :
    setByte m.bytes a v = .ok (m.writeByte a v).bytes := by
  have inside : Memory.offset a < m.bytes.size := by
    rw [m.size_bytes]
    exact Memory.offset_lt_capacity a
  unfold setByte
  rw [dif_pos inside]
  rfl

theorem word_memory (m : Memory) (a : UInt32) : word m.bytes a = .ok (m.readWord a) := by
  unfold word
  rw [byte_memory, byte_memory]
  rfl

theorem setWord_memory (m : Memory) (a : UInt32) (w : UInt16) :
    setWord m.bytes a w = .ok (m.writeWord a w).bytes := by
  unfold setWord
  rw [setByte_memory]
  exact setByte_memory (m.writeByte a (BigEndian.wordHigh w)) (a + 1) (BigEndian.wordLow w)

theorem field_memory (m : Memory) (a : UInt32) : field m.bytes a = m.readField a := by
  unfold field Memory.readField
  rw [← m.size_bytes]
  by_cases inside : a.toNat + 3 ≤ m.bytes.size
  · rw [dif_pos inside, if_pos inside]
    simp only [Memory.byteAt]
    rw [Bytes.get_of_lt (by omega), Bytes.get_of_lt (by omega), Bytes.get_of_lt (by omega)]
  · rw [dif_neg inside, if_neg inside]

/-- A page never has its end before its start. -/
theorem page_memory (m : Memory) (a : UInt32) (length : Nat) :
    page m.bytes a length = allow id (m.page a length) := by
  have start := Memory.offset_lt_capacity a
  unfold page
  by_cases fits : Memory.offset a + length < 0x10000000000000000
  · rw [rangeEnd_of_lt fits, Memory.page_of_lt fits]
    have range : Memory.offset a ≤ min m.bytes.size (Memory.offset a + length) ∧
        min m.bytes.size (Memory.offset a + length) ≤ m.bytes.size := by
      rw [m.size_bytes]
      omega
    show (if _ then _ else _) = _
    rw [if_pos range, Nat.min_comm, m.size_bytes]
    rfl
  · rw [rangeEnd_of_le (Nat.not_lt.mp fits), Memory.page_of_le (Nat.not_lt.mp fits)]
    rfl

/-- **An instruction does the same on both machines**, from every address. -/
theorem step_ofCore (c : ByteByteJump.Core) :
    step (ofCore c) = allow (fun r => ofCore r.2) c.step := by
  unfold step
  by_cases pc : c.pc.toNat + 6 < 0x100000000
  · have second : addAddress .fieldAddress c.pc 3 = .ok (c.pc + 3) :=
      addAddress_of_lt (by show _ + 3 < _; omega)
    have third : addAddress .fieldAddress c.pc 6 = .ok (c.pc + 6) := addAddress_of_lt pc
    simp only [ofCore, second, third, allow_ok, field_memory, byte_memory, setByte_memory, ok_bind,
      id_eq]
    by_cases cycles : c.cycles.toNat + 1 < 0x10000000000000000
    · rw [nextCount_of_lt cycles, Core.step_of_lt pc cycles]
      rfl
    · rw [nextCount_of_le (Nat.not_lt.mp cycles), Core.step_of_cycles_le pc (Nat.not_lt.mp cycles)]
      rfl
  · rw [Core.step_of_pc_le (Nat.not_lt.mp pc)]
    by_cases second : c.pc.toNat + 3 < 0x100000000
    · rw [ofCore, addAddress_of_lt (by exact second), allow_ok, ok_bind,
        addAddress_of_le (Nat.not_lt.mp pc)]
      rfl
    · rw [ofCore, addAddress_of_le (Nat.not_lt.mp second)]
      rfl

theorem run_succ (n : Nat) (c : Core) : run (n + 1) c = (step c >>= run n) := rfl

theorem run_ofCore (n : Nat) (c : ByteByteJump.Core) :
    run n (ofCore c) = allow ofCore (c.run n) := by
  induction n generalizing c with
  | zero => rfl
  | succ n ih =>
    rw [run_succ, step_ofCore, Core.run_succ]
    cases c.step with
    | error cause => rfl
    | ok r => exact ih r.2

/-! ## Frames on both machines -/

/-- **A picture is painted over whole**, whatever was in its buffer. -/
theorem paint_videoPage (m : Memory) {picture : ByteArray} (size : picture.size = Frame.byteCount) :
    paint picture (Frame.videoPage m) = (Frame.ofMemory m).bytes := by
  have bytes : picture.size = 196608 := size
  have pixels : (Frame.videoPage m).size = 65536 := Frame.size_videoPage m
  refine Bytes.ext ?_ fun i hi => ?_
  · rw [paint, Bytes.size_ofFn, size, Frame.size_bytes]
  · rw [paint, Bytes.size_ofFn] at hi
    have position : i / 3 < Frame.area := by
      show _ < 65536
      omega
    rw [paint, Frame.bytes, Bytes.get_ofFn, Bytes.get_ofFn, if_pos hi, if_pos (by omega),
      if_pos (size ▸ hi), Frame.pixelAt, dif_pos position]
    simp only [Frame.ofMemory, Vector.getElem_ofFn]

/-- **Samples are replaced one and all**, whatever they were. -/
theorem sample_audioPage (m : Memory) (sound : Samples) :
    sample sound (Samples.audioPage m) = Samples.ofMemory m := by
  refine congrArg Samples.mk (Vector.ext fun i hi => ?_)
  simp only [Vector.getElem_ofFn]
  rw [if_pos (by rw [Samples.size_audioPage]; exact hi)]

theorem finish_eq (s : State) (core : Core) :
    finish s core = (byte core.bytes Header.videoPage >>= fun video =>
      page core.bytes (video.toUInt32 * 0x10000) Frame.area >>= fun video =>
        word core.bytes Header.audioPage >>= fun audio =>
          page core.bytes (audio.toUInt32 * 0x100) Samples.count >>= fun audio =>
            allow id (nextCount .frameCount s.frameCount) >>= fun frameCount =>
              .ok ⟨core, paint s.picture video, sample s.sound audio, frameCount⟩) := rfl

theorem finish_ofCore (s : State) (core : ByteByteJump.Core)
    (size : s.picture.size = Frame.byteCount) :
    finish s (ofCore core) = allow ofMachine (Machine.finish core s.frameCount) := by
  have video : page core.memory.bytes core.memory.videoPage Frame.area
      = .ok (Frame.videoPage core.memory) := by
    rw [page_memory, Frame.page_videoPage]
    rfl
  have audio : page core.memory.bytes core.memory.audioPage Samples.count
      = .ok (Samples.audioPage core.memory) := by
    rw [page_memory, Samples.page_audioPage]
    rfl
  rw [finish_eq, ofCore, byte_memory, ok_bind]
  show (page core.memory.bytes core.memory.videoPage Frame.area >>= _) = _
  rw [video, ok_bind, word_memory, ok_bind]
  show (page core.memory.bytes core.memory.audioPage Samples.count >>= _) = _
  rw [audio, ok_bind, paint_videoPage _ size, sample_audioPage]
  by_cases frames : s.frameCount.toNat + 1 < 0x10000000000000000
  · rw [nextCount_of_lt frames, Machine.finish_of_lt core frames]
    rfl
  · rw [nextCount_of_le (Nat.not_lt.mp frames), Machine.finish,
      nextCount_of_le (Nat.not_lt.mp frames)]
    rfl

theorem tick_eq (s : State) (keys : Keys) :
    tick s keys = (setWord s.core.bytes Header.keys keys.bits >>= fun bytes =>
      run ByteByteJump.Core.instructionsPerFrame
        ⟨bytes, field bytes Header.entryPoint, s.core.cycles⟩ >>= finish s) := rfl

/-- **A frame does the same on both machines**, from every state and with every program: nothing
but a sum can stop it. What the buffers held before does not matter. -/
theorem tick_of_buffers (m : Machine) (keys : Keys) {picture : ByteArray}
    (size : picture.size = Frame.byteCount) (sound : Samples) :
    tick ⟨ofCore m.core, picture, sound, m.frameCount⟩ keys = allow ofMachine (m.tick keys) := by
  have started : (⟨(m.memory.writeWord Header.keys keys.bits).bytes,
      field (m.memory.writeWord Header.keys keys.bits).bytes Header.entryPoint,
      m.core.cycles⟩ : Core) = ofCore (m.started keys) := by
    rw [field_memory]
    rfl
  have run := run_ofCore ByteByteJump.Core.instructionsPerFrame (m.started keys)
  have latched : setWord m.memory.bytes Header.keys keys.bits
      = .ok (m.memory.writeWord Header.keys keys.bits).bytes := setWord_memory ..
  rw [tick_eq, Machine.tick_eq]
  show (setWord m.memory.bytes Header.keys keys.bits >>= _) = _
  rw [latched, ok_bind]
  show (ByteByteJump.Guarded.run _ ⟨_, _, m.core.cycles⟩ >>= _) = _
  rw [started, run]
  cases Core.run Core.instructionsPerFrame (m.started keys) with
  | error cause => rfl
  | ok core => exact finish_ofCore ⟨ofCore m.core, picture, sound, m.frameCount⟩ core size

theorem tick_ofMachine (m : Machine) (keys : Keys) :
    tick (ofMachine m) keys = allow ofMachine (m.tick keys) :=
  tick_of_buffers m keys m.frame.size_bytes m.samples

end ByteByteJump.Guarded
