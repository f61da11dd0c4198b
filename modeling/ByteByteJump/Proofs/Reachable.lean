import ByteByteJump.Machine.History
import ByteByteJump.Proofs.Run

/-!
# Machines that a host can bring about

A host loads images and runs frames, in any order, and some loads fail. Whatever it does comes down
to two things that change a machine: an image that fits replaces it as a whole, and a tick that is
not refused runs one frame. So a property of every reachable machine needs three proofs, for the
initial machine, for loaded ones, and from one tick to the next; `Reachable.induction` says so once.

What holds of all of them is `Coherent`: the instruction counter is tied to the frame counter, and
the outputs belong to the memory that is there.

## Main statements

* `Reachable.induction` — properties of reachable machines, by loads and ticks
* `Reachable.play` — frames lead from reachable machines to reachable ones
* `Reachable.coherent` — the invariant
-/

namespace ByteByteJump.Machine

/-! ## Loads and ticks -/

section Induction

variable {motive : Machine → Prop}

/-- A load leaves the machine alone or replaces it as a whole. -/
theorem orElse_load (m : Machine) (image : ByteArray) (same : motive m)
    (load : ∀ image fits, motive (ofMemory (Memory.ofImage image fits))) :
    motive (m.orElse (m.load image)).1 := by
  by_cases fits : image.size ≤ Memory.capacity
  · rw [m.load_of_le fits]
    exact load image fits
  · rw [m.load_of_lt (Nat.not_le.mp fits)]
    exact same

theorem play_induction {m m' : Machine} {keys : List Keys} (run : m.play keys = .ok m')
    (start : motive m) (tick : ∀ m m' keys, motive m → m.tick keys = .ok m' → motive m') :
    motive m' := by
  induction keys generalizing m with
  | nil =>
    rw [play_nil] at run
    exact Except.ok.inj run ▸ start
  | cons k rest ih =>
    rw [play_cons] at run
    obtain ⟨next, first, others⟩ := exists_of_bind_eq_ok run
    exact ih others (tick m next k start first)

theorem perform_induction {m m' : Machine} {action : Action} {answer : Option LoadError}
    (run : m.perform action = .ok (m', answer)) (start : motive m)
    (load : ∀ image fits, motive (ofMemory (Memory.ofImage image fits)))
    (tick : ∀ m m' keys, motive m → m.tick keys = .ok m' → motive m') : motive m' := by
  cases action with
  | load image =>
    have same : (m.orElse (m.load image)).1 = m' := congrArg Prod.fst (Except.ok.inj run)
    exact same ▸ orElse_load m image start load
  | loadFile path content =>
    have same : (m.orElse (m.loadFile path content)).1 = m' :=
      congrArg Prod.fst (Except.ok.inj run)
    cases content with
    | ok image => exact same ▸ orElse_load m image start load
    | error failure => exact same ▸ start
  | tick keys =>
    rw [perform] at run
    obtain ⟨next, once, same⟩ := exists_of_map_eq_ok run
    have same : next = m' := congrArg Prod.fst same
    exact same ▸ tick m next keys start once
  | runFrames n keys =>
    rw [perform, runFrames_eq_play] at run
    obtain ⟨last, all, same⟩ := exists_of_map_eq_ok run
    have same : last = m' := congrArg Prod.fst same
    exact same ▸ play_induction all start tick

/--
**What loads establish and ticks preserve holds of every reachable machine.**

Failed loads do not appear: they change nothing. Neither do frames with the same keys held: they are
ticks.
-/
theorem Reachable.induction {m : Machine} (h : m.Reachable) (initial : motive initial)
    (load : ∀ image fits, motive (ofMemory (Memory.ofImage image fits)))
    (tick : ∀ m m' keys, motive m → m.tick keys = .ok m' → motive m') : motive m := by
  obtain ⟨actions, answers, run⟩ := h
  generalize Machine.initial = start at initial run
  induction actions generalizing start answers with
  | nil =>
    rw [performAll_nil] at run
    have same : start = m := congrArg Prod.fst (Except.ok.inj run)
    exact same ▸ initial
  | cons action rest ih =>
    rw [performAll_cons] at run
    obtain ⟨⟨next, answer⟩, first, run⟩ := exists_of_bind_eq_ok run
    obtain ⟨⟨last, answers⟩, others, same⟩ := exists_of_map_eq_ok run
    have same : last = m := congrArg Prod.fst same
    rw [same] at others
    exact ih _ next (perform_induction first initial load tick) others

end Induction

theorem Reachable.tick {m m' : Machine} {keys : Keys} (h : m.Reachable)
    (run : m.tick keys = .ok m') : m'.Reachable := by
  have once : m.perform (.tick keys) = .ok (m', none) := by
    rw [Machine.perform, run]
    rfl
  exact h.perform once

theorem Reachable.play {m m' : Machine} {keys : List Keys} (h : m.Reachable)
    (run : m.play keys = .ok m') : m'.Reachable :=
  play_induction run h fun _ _ _ before once => before.tick once

/-! ## The invariant -/

/-- What holds of every machine that a host can bring about. -/
structure Coherent (m : Machine) : Prop where
  pc_lt : m.core.pc.toNat < Memory.addressSpace
  /-- A load sets both counters to zero, and only whole frames are counted. -/
  cycles_eq : m.core.cycles.toNat = Core.instructionsPerFrame * m.frameCount.toNat
  blank : m.frameCount.toNat = 0 → m.frame = Frame.blank ∧ m.samples = Samples.silence
  /-- The outputs are those of the memory that is there now. -/
  outputs : 0 < m.frameCount.toNat →
    m.frame = Frame.ofMemory m.memory ∧ m.samples = Samples.ofMemory m.memory

theorem coherent_initial : initial.Coherent where
  pc_lt := by decide
  cycles_eq := rfl
  blank := fun _ => ⟨rfl, rfl⟩
  outputs := fun some => absurd some (Nat.lt_irrefl 0)

theorem coherent_ofMemory (memory : Memory) : (ofMemory memory).Coherent where
  pc_lt := memory.entryPoint_lt
  cycles_eq := rfl
  blank := fun _ => ⟨rfl, rfl⟩
  outputs := fun some => absurd some (Nat.lt_irrefl 0)

/-- A tick that is not refused has room in both counters, so both of them grow. -/
theorem Coherent.tick {m m' : Machine} {keys : Keys} (h : m.Coherent)
    (run : m.tick keys = .ok m') : m'.Coherent := by
  obtain ⟨cycles, frames, rfl⟩ := tick_eq_ok run
  have count := toNat_next_frameCount keys frames
  exact {
    pc_lt := m.next_pc_lt keys
    cycles_eq := by rw [toNat_next_cycles keys cycles, h.cycles_eq, count, Nat.mul_succ]
    blank := fun none => absurd none (by omega)
    outputs := fun _ => ⟨m.frame_next keys, m.samples_next keys⟩ }

/-- **Every machine that a host can bring about is coherent.** -/
theorem Reachable.coherent {m : Machine} (h : m.Reachable) : m.Coherent :=
  h.induction coherent_initial (fun _ _ => coherent_ofMemory _)
    fun _ _ _ before once => before.tick once

/-- Because the counters are tied together, no frame counter ever reaches `2 ^ 48`. -/
theorem Coherent.frameCount_lt {m : Machine} (h : m.Coherent) :
    m.frameCount.toNat < 0x1000000000000 := by
  have cycles := h.cycles_eq
  have := m.core.cycles.toNat_lt
  rw [Core.instructionsPerFrame_eq] at cycles
  omega

/-- A machine with fewer than `2 ^ 48 - n` frames has room for `n` more. -/
theorem Coherent.hasRoom {m : Machine} {n : Nat} (h : m.Coherent)
    (few : m.frameCount.toNat + n < 0x1000000000000) : m.HasRoom n := by
  have cycles := h.cycles_eq
  rw [Core.instructionsPerFrame_eq] at cycles
  exact ⟨by omega, by omega⟩

end ByteByteJump.Machine
