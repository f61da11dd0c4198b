import ByteByteJump.Proofs.Agreement
import ByteByteJump.Proofs.Guarded

/-!
# What a frame forgets

A frame starts at the entry point that memory names, with the keys of this frame in the first two
bytes, and ends with outputs that cover both buffers. So of the machine as it was before, nothing
but the program's own bytes gets into it: neither the place where the last frame stopped, nor the
counters, nor the old picture and sound, nor the keys of the last frame.

The buffers are those of the machine with every access guarded, which lays a frame over what they
hold.

## Main statements

* `HasRoom.tick_buffers` — a tick that lays its outputs over any two buffers
* `play_congr` — frames of two machines with the same bytes behind the keys
-/

namespace ByteByteJump.Machine

variable {m n : Machine}

/-- Whatever two buffers hold, a frame leaves its own picture and sound in them. -/
theorem HasRoom.tick_buffers (h : m.HasRoom 1) (keys : Keys) {picture : ByteArray}
    (size : picture.size = 196608) (sound : Samples) :
    Guarded.tick ⟨Guarded.ofCore m.core, picture, sound, m.frameCount⟩ keys
      = .ok (Guarded.ofMachine (m.next keys)) := by
  rw [Guarded.tick_of_buffers m keys size sound, h.tick_eq keys, Guarded.allow_ok]

theorem HasRoom.stats_next (h : m.HasRoom 1) (keys : Keys) :
    (m.next keys).stats.totalCycles.toNat = m.stats.totalCycles.toNat + 65536 ∧
      (m.next keys).stats.frameCount.toNat = m.stats.frameCount.toNat + 1 := by
  rw [stats_totalCycles, stats_totalCycles, stats_frameCount, stats_frameCount]
  exact ⟨toNat_next_cycles keys h.cycles, toNat_next_frameCount keys h.frames⟩

theorem HasRoom.play_before {before rest : List Keys} {k : Keys}
    (h : m.HasRoom (before ++ k :: rest).length) :
    m.play before = .ok (m.after before) ∧ (m.after before).HasRoom 1 := by
  rw [List.length_append, List.length_cons] at h
  exact ⟨(h.mono (by omega)).play_eq, HasRoom.after (h.mono (by omega))⟩

/--
**A frame is a function of the program's bytes and of the keys.**

Two machines have the same bytes from address 2 on, margin included, and may differ in everything
else. They are given the same keys, frame by frame. After each frame they have the same memory, the
same program counter and the same outputs, and each has counted one frame and its instructions.
This does not depend on what was in the buffers of the outputs before the frame.
-/
theorem play_congr {keys : List Keys} (same : m.memory.SameBehindKeys n.memory)
    (room : m.HasRoom keys.length) (room' : n.HasRoom keys.length) :
    ∀ before k rest, keys = before ++ k :: rest →
      ∃ m₀ n₀ m' n', m.play before = .ok m₀ ∧ n.play before = .ok n₀ ∧
        m₀.tick k = .ok m' ∧ n₀.tick k = .ok n' ∧
        (m'.memory = n'.memory ∧ m'.stats.pc = n'.stats.pc ∧
          m'.frame = n'.frame ∧ m'.samples = n'.samples) ∧
        (m'.stats.totalCycles.toNat = m₀.stats.totalCycles.toNat + 65536 ∧
          m'.stats.frameCount.toNat = m₀.stats.frameCount.toNat + 1) ∧
        (n'.stats.totalCycles.toNat = n₀.stats.totalCycles.toNat + 65536 ∧
          n'.stats.frameCount.toNat = n₀.stats.frameCount.toNat + 1) ∧
        ∀ picture sound, picture.size = 196608 →
          Guarded.tick ⟨Guarded.ofCore m₀.core, picture, sound, m₀.frameCount⟩ k
              = .ok (Guarded.ofMachine m') ∧
            Guarded.tick ⟨Guarded.ofCore n₀.core, picture, sound, n₀.frameCount⟩ k
              = .ok (Guarded.ofMachine n') := by
  rintro before k rest rfl
  obtain ⟨play, one⟩ := room.play_before
  obtain ⟨play', one'⟩ := room'.play_before
  exact ⟨m.after before, n.after before, _, _, play, play', one.tick_eq k, one'.tick_eq k,
    next_congr (after_sameBehindKeys same before) k, one.stats_next k, one'.stats_next k,
    fun picture sound size => ⟨one.tick_buffers k size sound, one'.tick_buffers k size sound⟩⟩

/-- A machine in the middle of something else: other keys, another program counter, a white
picture, noise, and counters that are not tied together. -/
def disturbed : Machine :=
  ⟨⟨⟨0xABCDEF, 12⟩, Memory.blank.writeWord Header.keys 0x5A5A⟩,
    ⟨Vector.replicate Frame.area ⟨0xFF, 0xFF, 0xFF⟩⟩, ⟨Vector.replicate Samples.count (-1)⟩, 7⟩

/-- The second of two frames, of a machine that has not run and of one that has. -/
theorem play_congr_disturbed :
    initial.memory.SameBehindKeys disturbed.memory ∧
      initial.HasRoom [Keys.all, Keys.empty].length ∧
      disturbed.HasRoom [Keys.all, Keys.empty].length ∧
      ∃ m₀ n₀ m' n', initial.play [Keys.all] = .ok m₀ ∧ disturbed.play [Keys.all] = .ok n₀ ∧
        m₀.tick Keys.empty = .ok m' ∧ n₀.tick Keys.empty = .ok n' ∧ m'.memory = n'.memory ∧
        m'.frame = n'.frame ∧ m'.samples = n'.samples := by
  have same : initial.memory.SameBehindKeys disturbed.memory := by
    intro i behind
    show Memory.blank.byteAt i = (Memory.blank.writeWord Header.keys 0x5A5A).byteAt i
    rw [Memory.byteAt_writeWord_keys, if_neg (by omega), if_neg (by omega)]
  have room : initial.HasRoom [Keys.all, Keys.empty].length := ⟨by decide, by decide⟩
  have room' : disturbed.HasRoom [Keys.all, Keys.empty].length := ⟨by decide, by decide⟩
  obtain ⟨m₀, n₀, m', n', play, play', tick, tick', ⟨memory, _, frame, samples⟩, _⟩ :=
    play_congr same room room' [Keys.all] Keys.empty [] rfl
  exact ⟨same, room, room', m₀, n₀, m', n', play, play', tick, tick', memory, frame, samples⟩

end ByteByteJump.Machine
