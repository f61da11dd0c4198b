import ByteByteJump.Machine.Basic

/-!
# Runs and their counters

Two counters grow while a machine runs, one by one for each instruction and one by one for each
frame. They are the only things that can refuse a run from a 24-bit address; what follows says
exactly when they do, for instructions, for a frame and for frames one after the other.

## Main statements

* `Core.run_of_le`, `Machine.tick_of_le` — a run that the counter cannot hold is refused by it
* `Core.step_eq_ok`, `Machine.tick_eq_ok` — everything that a step or a tick which is not refused can
  do
* `Machine.play_of_lt`, `Machine.play_ofMemory` — frames run for as long as both counters have room,
  which after a load they have for fewer than `2 ^ 48` frames; `HasRoom` is that room
-/

namespace ByteByteJump

namespace Core

/-! ## Instructions -/

theorem after_succ (n : Nat) (c : Core) : after (n + 1) c = after n c.next := rfl

theorem after_add (n k : Nat) (c : Core) : after (n + k) c = after k (after n c) := by
  induction n generalizing c with
  | zero => rw [Nat.zero_add]; rfl
  | succ n ih =>
    rw [show n + 1 + k = (n + k) + 1 by omega, after_succ, after_succ]
    exact ih c.next

/-- The last instruction of a run split off, where `after_succ` splits off the first. -/
theorem after_succ_last (n : Nat) (c : Core) : after (n + 1) c = (after n c).next :=
  after_add n 1 c

/-- Everything that a step can do if it is not refused. -/
theorem step_eq_ok {c : Core} {r : Instruction × Core} (h : c.step = .ok r) :
    c.pc.toNat + 6 < 0x100000000 ∧ c.cycles.toNat + 1 < 0x10000000000000000 ∧
      r = (c.instruction, c.next) := by
  by_cases pc : c.pc.toNat + 6 < 0x100000000
  · by_cases cycles : c.cycles.toNat + 1 < 0x10000000000000000
    · rw [step_of_lt pc cycles] at h
      exact ⟨pc, cycles, (Except.ok.inj h).symm⟩
    · rw [step_of_cycles_le pc (Nat.not_lt.mp cycles)] at h
      cases h
  · rw [step_of_pc_le (Nat.not_lt.mp pc)] at h
    cases h

theorem run_eq_ok {n : Nat} {c d : Core} (h : run n c = .ok d) : d = after n c := by
  induction n generalizing c with
  | zero => exact (Except.ok.inj h).symm
  | succ n ih =>
    rw [run_succ] at h
    obtain ⟨r, first, others⟩ := exists_of_bind_eq_ok h
    obtain ⟨_, _, rfl⟩ := step_eq_ok first
    exact ih others

theorem executed_succ (n : Nat) (c : Core) :
    executed (n + 1) c = ⟨c.pc, c.instruction⟩ :: executed n c.next := rfl

/-- Instruction `i` of a run is the one that the core after `i` instructions executes next. -/
theorem getElem_executed {n i : Nat} {c : Core} (hi : i < (executed n c).length) :
    (executed n c)[i] = ⟨(after i c).pc, (after i c).instruction⟩ := by
  induction n generalizing c i with
  | zero => exact absurd hi (Nat.not_lt_zero i)
  | succ n ih =>
    cases i with
    | zero => rfl
    | succ i =>
      simp only [executed_succ, List.getElem_cons_succ, after_succ]
      exact ih _

theorem exists_of_mem_executed {n : Nat} {c : Core} {e : Executed} (he : e ∈ executed n c) :
    ∃ i < n, e = ⟨(after i c).pc, (after i c).instruction⟩ := by
  obtain ⟨i, hi, rfl⟩ := List.getElem_of_mem he
  refine ⟨i, ?_, getElem_executed hi⟩
  rw [length_executed] at hi
  exact hi

theorem after_pc_lt (n : Nat) {c : Core} (pc : c.pc.toNat < Memory.addressSpace) :
    (after n c).pc.toNat < Memory.addressSpace := by
  cases n with
  | zero => exact pc
  | succ n => rw [after_succ_last]; exact next_pc_lt _

theorem toNat_after_cycles (n : Nat) {c : Core} (room : c.cycles.toNat + n < 0x10000000000000000) :
    (after n c).cycles.toNat = c.cycles.toNat + n := by
  induction n generalizing c with
  | zero => rfl
  | succ n ih =>
    have first := toNat_next_cycles (c := c) (by omega)
    rw [after_succ, ih (by omega), first]
    omega

/-- **A run that the counter cannot hold is refused by the counter**, and not before it is full. -/
theorem run_of_le {n : Nat} {c : Core} (pc : c.pc.toNat < Memory.addressSpace)
    (full : 0x10000000000000000 ≤ c.cycles.toNat + n) : run n c = .error .cycleCount := by
  have fetches : c.pc.toNat + 6 < 0x100000000 := by
    rw [Memory.addressSpace_eq] at pc
    omega
  induction n generalizing c with
  | zero =>
    have := c.cycles.toNat_lt
    omega
  | succ n ih =>
    rw [run_succ]
    by_cases last : c.cycles.toNat + 1 < 0x10000000000000000
    · have low := c.next_pc_lt
      rw [step_of_lt fetches last]
      refine ih low ?_ ?_
      · rw [toNat_next_cycles last]; omega
      · rw [Memory.addressSpace_eq] at low; omega
    · rw [step_of_cycles_le fetches (Nat.not_lt.mp last)]
      rfl

theorem runFrame_of_le {c : Core}
    (full : 0x10000000000000000 ≤ c.cycles.toNat + instructionsPerFrame) :
    c.runFrame = .error .cycleCount := by
  rw [runFrame, run_of_le c.atEntryPoint_pc_lt (by rw [cycles_atEntryPoint]; exact full)]

end Core

/-- The key state takes the first two bytes, and a program's own bytes begin behind it. -/
theorem Memory.byteAt_writeWord_keys (m : Memory) (w : UInt16) (i : Nat) :
    (m.writeWord Header.keys w).byteAt i
      = if i = 0 then BigEndian.wordHigh w else if i = 1 then BigEndian.wordLow w
        else m.byteAt i := by
  have high : offset Header.keys = 0 := rfl
  have low : offset (Header.keys + 1) = 1 := rfl
  rw [byteAt_writeWord, high, low]
  by_cases first : i = 0
  · rw [if_neg (by omega), if_pos first, if_pos first]
  · rw [if_neg first, if_neg first]

namespace Machine

/-! ## One frame -/

-- Each of these by a rewrite: left to unification, the frame would be run.

theorem stats_pc (m : Machine) : m.stats.pc = m.core.pc := rfl

theorem stats_totalCycles (m : Machine) : m.stats.totalCycles = m.core.cycles := rfl

theorem stats_frameCount (m : Machine) : m.stats.frameCount = m.frameCount := rfl

theorem core_next (m : Machine) (keys : Keys) :
    (m.next keys).core = Core.after Core.instructionsPerFrame (m.started keys) := by
  rw [next]

theorem memory_next (m : Machine) (keys : Keys) :
    (m.next keys).memory = (Core.after Core.instructionsPerFrame (m.started keys)).memory := by
  rw [memory, core_next]

theorem frame_next (m : Machine) (keys : Keys) :
    (m.next keys).frame = Frame.ofMemory (m.next keys).memory := by
  rw [memory_next, next]

theorem samples_next (m : Machine) (keys : Keys) :
    (m.next keys).samples = Samples.ofMemory (m.next keys).memory := by
  rw [memory_next, next]

theorem frameCount_next (m : Machine) (keys : Keys) :
    (m.next keys).frameCount = m.frameCount + 1 := by
  rw [next]

theorem memory_started (m : Machine) (keys : Keys) :
    (m.started keys).memory = m.memory.writeWord Header.keys keys.bits := rfl

theorem byteAt_started (m : Machine) (keys : Keys) (i : Nat) :
    (m.started keys).memory.byteAt i
      = if i = 0 then BigEndian.wordHigh keys.bits
        else if i = 1 then BigEndian.wordLow keys.bits else m.memory.byteAt i := by
  rw [memory_started, Memory.byteAt_writeWord_keys]

/-- The bytes from which a frame runs: the key state in the first two, the others as they are. -/
def latchedByte (m : Machine) (keys : Keys) (i : Nat) : UInt8 :=
  if i = 0 then UInt8.ofNat (keys.bits.toNat / 256)
  else if i = 1 then UInt8.ofNat (keys.bits.toNat % 256) else m.memory.byteAt i

theorem byteAt_started_eq_latchedByte (m : Machine) (keys : Keys) :
    (m.started keys).memory.byteAt = m.latchedByte keys := by
  funext i
  rw [byteAt_started, BigEndian.wordHigh_eq_ofNat, BigEndian.wordLow_eq_ofNat, latchedByte]

theorem cycles_started (m : Machine) (keys : Keys) :
    (m.started keys).cycles = m.core.cycles := rfl

theorem started_pc_lt (m : Machine) (keys : Keys) :
    (m.started keys).pc.toNat < Memory.addressSpace := Core.atEntryPoint_pc_lt _

theorem next_pc_lt (m : Machine) (keys : Keys) :
    (m.next keys).core.pc.toNat < Memory.addressSpace := by
  rw [core_next]
  exact Core.after_pc_lt _ (m.started_pc_lt keys)

theorem toNat_next_cycles {m : Machine} (keys : Keys)
    (room : m.core.cycles.toNat + Core.instructionsPerFrame < 0x10000000000000000) :
    (m.next keys).core.cycles.toNat = m.core.cycles.toNat + Core.instructionsPerFrame := by
  rw [← cycles_started m keys] at room ⊢
  rw [core_next, Core.toNat_after_cycles _ room]

theorem toNat_next_frameCount {m : Machine} (keys : Keys)
    (room : m.frameCount.toNat + 1 < 0x10000000000000000) :
    (m.next keys).frameCount.toNat = m.frameCount.toNat + 1 := by
  rw [frameCount_next, UInt64.toNat_add]
  exact Nat.mod_eq_of_lt room

/-- A tick is a run and the outputs of the memory that it leaves. -/
theorem tick_eq (m : Machine) (keys : Keys) :
    m.tick keys = (Core.run Core.instructionsPerFrame (m.started keys)).bind fun core =>
      finish core m.frameCount := by
  rw [tick, Core.runFrame, started]

/-- The instruction counter is looked at before the frame counter. -/
theorem tick_of_le {m : Machine} (keys : Keys)
    (full : 0x10000000000000000 ≤ m.core.cycles.toNat + Core.instructionsPerFrame) :
    m.tick keys = .error .cycleCount := by
  rw [tick, Core.runFrame_of_le (by rw [Core.cycles_latch]; exact full)]
  rfl

theorem tick_of_frames_le {m : Machine} (keys : Keys)
    (room : m.core.cycles.toNat + Core.instructionsPerFrame < 0x10000000000000000)
    (full : 0x10000000000000000 ≤ m.frameCount.toNat + 1) :
    m.tick keys = .error .frameCount := by
  rw [tick, Core.runFrame_of_lt (by rw [Core.cycles_latch]; exact room)]
  generalize Core.after Core.instructionsPerFrame (m.core.latch keys).atEntryPoint = core
  show finish core m.frameCount = _
  rw [finish, nextCount_of_le full]
  rfl

/-- **Everything that a tick can do** if it is not refused. -/
theorem tick_eq_ok {m m' : Machine} {keys : Keys} (h : m.tick keys = .ok m') :
    m.core.cycles.toNat + Core.instructionsPerFrame < 0x10000000000000000 ∧
      m.frameCount.toNat + 1 < 0x10000000000000000 ∧ m' = m.next keys := by
  by_cases cycles : m.core.cycles.toNat + Core.instructionsPerFrame < 0x10000000000000000
  · by_cases frames : m.frameCount.toNat + 1 < 0x10000000000000000
    · rw [tick_of_lt keys cycles frames] at h
      exact ⟨cycles, frames, (Except.ok.inj h).symm⟩
    · rw [tick_of_frames_le keys cycles (Nat.not_lt.mp frames)] at h
      cases h
  · rw [tick_of_le keys (Nat.not_lt.mp cycles)] at h
    cases h

/-! ## Many frames -/

@[simp] theorem after_nil (m : Machine) : m.after [] = m := by rw [after, List.foldl_nil]

theorem after_cons (m : Machine) (keys : Keys) (rest : List Keys) :
    m.after (keys :: rest) = (m.next keys).after rest := by
  rw [after, after, List.foldl_cons]

/-- **Frames run for as long as both counters have room.** -/
theorem play_of_lt {m : Machine} {keys : List Keys}
    (cycles : m.core.cycles.toNat + Core.instructionsPerFrame * keys.length < 0x10000000000000000)
    (frames : m.frameCount.toNat + keys.length < 0x10000000000000000) :
    m.play keys = .ok (m.after keys) := by
  induction keys generalizing m with
  | nil => rw [play_nil, after_nil]
  | cons k rest ih =>
    rw [List.length_cons, Nat.mul_succ] at cycles
    rw [List.length_cons] at frames
    have nextCycles := toNat_next_cycles (m := m) k (by omega)
    have nextFrames := toNat_next_frameCount (m := m) k (by omega)
    rw [play_cons, tick_of_lt k (by omega) (by omega), after_cons]
    exact ih (by omega) (by omega)

theorem toNat_after_frameCount {m : Machine} (keys : List Keys)
    (room : m.frameCount.toNat + keys.length < 0x10000000000000000) :
    (m.after keys).frameCount.toNat = m.frameCount.toNat + keys.length := by
  induction keys generalizing m with
  | nil => rw [after_nil]; rfl
  | cons k rest ih =>
    rw [List.length_cons] at room
    have first := toNat_next_frameCount (m := m) k (by omega)
    rw [after_cons, ih (by omega), first, List.length_cons]
    omega

/-- Both counters can take `n` more frames. -/
structure HasRoom (m : Machine) (n : Nat) : Prop where
  cycles : m.core.cycles.toNat + 65536 * n < 0x10000000000000000
  frames : m.frameCount.toNat + n < 0x10000000000000000

theorem HasRoom.mono {m : Machine} {n k : Nat} (h : m.HasRoom n) (le : k ≤ n) : m.HasRoom k where
  cycles := by have := h.cycles; omega
  frames := by have := h.frames; omega

theorem HasRoom.tick_eq {m : Machine} (h : m.HasRoom 1) (keys : Keys) :
    m.tick keys = .ok (m.next keys) := by
  refine tick_of_lt keys ?_ h.frames
  rw [Core.instructionsPerFrame_eq]
  exact h.cycles

theorem HasRoom.play_eq {m : Machine} {keys : List Keys} (h : m.HasRoom keys.length) :
    m.play keys = .ok (m.after keys) := by
  refine play_of_lt ?_ h.frames
  rw [Core.instructionsPerFrame_eq]
  exact h.cycles

theorem HasRoom.next {m : Machine} {n : Nat} (h : m.HasRoom (n + 1)) (keys : Keys) :
    (m.next keys).HasRoom n := by
  have cycles := h.cycles
  have frames := h.frames
  have one := h.mono (show 1 ≤ n + 1 by omega)
  refine ⟨?_, ?_⟩
  · rw [toNat_next_cycles keys one.cycles, Core.instructionsPerFrame_eq]
    omega
  · rw [toNat_next_frameCount keys one.frames]
    omega

theorem HasRoom.after {m : Machine} {keys : List Keys} {n : Nat}
    (h : m.HasRoom (keys.length + n)) : (m.after keys).HasRoom n := by
  induction keys generalizing m with
  | nil =>
    rw [after_nil]
    exact h.mono (by omega)
  | cons k rest ih =>
    rw [List.length_cons] at h
    rw [after_cons]
    exact ih (HasRoom.next (h.mono (by omega)) k)

/-- A machine that was just loaded has room for fewer than `2 ^ 48` frames. -/
theorem hasRoom_ofMemory (memory : Memory) {n : Nat} (few : n < 0x1000000000000) :
    (ofMemory memory).HasRoom n := by
  refine ⟨?_, ?_⟩
  · show 0 + _ < _
    omega
  · show 0 + _ < _
    omega

theorem play_ofMemory (memory : Memory) {keys : List Keys} (few : keys.length < 0x1000000000000) :
    (ofMemory memory).play keys = .ok ((ofMemory memory).after keys) :=
  (hasRoom_ofMemory memory few).play_eq

end Machine

end ByteByteJump
