import ByteByteJump.Journal.Reader
import ByteByteJump.Proofs.Account
import ByteByteJump.Proofs.Chain.Layout
import ByteByteJump.Proofs.Origin
import ByteByteJump.Proofs.TickBound

/-!
# The journal of a frame

A journal that keeps everything has a line for each of the `2 ^ 16` instructions of a frame and one
for the frame itself. The lines are text, but no two instructions have the same line, and reading
the lines back gives the frame: where it started, what it executed in which order, and where it
stopped. To make the copies that they name, in their order, is to run the frame.

## Main statements

* `Executed.text_injective`, `Executed.ofText?_frameDone` — lines of instructions, and the line of a
  frame, which is none of them
* `Machine.retraced_next` — what the instructions of a frame tell of it
* `Machine.Reachable.tick_retraced` — the journal of a frame, line by line
-/

namespace ByteByteJump

/-! ## Lines -/

/-- The line of an executed instruction: four addresses with at least six digits of base 16 each. -/
theorem Record.text_executed (e : Executed) :
    (executed e).text = "TRACE " ++ Numeral.hex 6 e.pc.toNat ++ ": ["
      ++ Numeral.hex 6 e.instruction.source.toNat ++ "] -> ["
      ++ Numeral.hex 6 e.instruction.dest.toNat ++ "], next "
      ++ Numeral.hex 6 e.instruction.next.toNat := by
  simp only [text, message, address, level, Level.name, String.append_assoc]
  rfl

/-- **Different instructions have different lines.** -/
theorem Executed.text_injective {e f : Executed}
    (same : (Record.executed e).text = (Record.executed f).text) : e = f := by
  have read := Executed.ofText?_text e
  rw [same, Executed.ofText?_text] at read
  exact (Option.some.inj read).symm

/-- The line of a frame is that of no instruction. -/
theorem Executed.ofText?_frameDone (number : UInt64) (pc videoPage audioPage : UInt32) :
    Executed.ofText? (Record.frameDone number pc videoPage audioPage).text = none := by
  have other : ∀ cs, Record.skip "TRACE " ("DEBUG".toList ++ cs) = none := fun cs => by rfl
  have line : (Record.frameDone number pc videoPage audioPage).text.toList = "DEBUG".toList
      ++ (" ".toList ++ (Record.frameDone number pc videoPage audioPage).message.toList) := by
    rw [Record.text, String.toList_append, String.toList_append, List.append_assoc]
    rfl
  rw [Executed.ofText?, line, other]
  rfl

/-! ## Runs -/

namespace Core

variable {n i : Nat} {c : Core}

theorem getElem?_executed (hi : i < n) :
    (executed n c)[i]? = some ⟨(after i c).pc, (after i c).instruction⟩ := by
  have inside : i < (executed n c).length := by
    rw [length_executed]
    exact hi
  rw [List.getElem?_eq_getElem inside, getElem_executed]

/-- **Each instruction goes on where the following one is.** -/
theorem next_getElem_executed (hi : i + 1 < (executed n c).length) :
    (executed n c)[i].instruction.next = (executed n c)[i + 1].pc := by
  rw [getElem_executed, getElem_executed, after_succ_last]
  rfl

/-- The last instruction goes on where the run stops. -/
theorem exists_getElem?_executed_last (hn : n = i + 1) :
    ∃ e, (executed n c)[i]? = some e ∧ e.instruction.next = (after n c).pc := by
  refine ⟨_, getElem?_executed (by omega), ?_⟩
  rw [hn, after_succ_last]
  rfl

end Core

/-! ## What the instructions of a frame tell -/

namespace Machine

variable {m m' : Machine} {keys : Keys}

/-- Executed instructions that make up a frame from `m` to `m'`. -/
structure Retraced (m : Machine) (keys : Keys) (m' : Machine) (es : List Executed) : Prop where
  length : es.length = 65536
  /-- Each of them is told as the machine finds it, before its copy is made. -/
  told : ∀ i, (hi : i < es.length) → ∃ c d, Core.run i (m.started keys) = .ok c ∧
    c.pc = es[i].pc ∧ c.step = .ok (es[i].instruction, d)
  /-- The first one is where the header says. -/
  first : ∃ e, es[0]? = some e ∧ e.pc.toNat = (m.memory.byteAt 2).toNat * 65536
    + (m.memory.byteAt 3).toNat * 256 + (m.memory.byteAt 4).toNat
  /-- Each other one is where the one before it goes on. -/
  linked : ∀ i, (hi : i + 1 < es.length) → es[i].instruction.next = es[i + 1].pc
  /-- And the last one goes on where the frame stops. -/
  last : ∃ e, es[65535]? = some e ∧ e.instruction.next = m'.stats.pc
  /-- The copies, made in order, are what the frame does to memory. -/
  replayed : m'.memory = Copy.applyAll (es.map fun e => ⟨e.instruction.source, e.instruction.dest⟩)
    (m.memory.writeWord Header.keys keys.bits)
  /-- Each of them moves one byte. -/
  replayed_bytes : ∀ i, m'.memory.byteAt i
    = Copy.moveAll (es.map fun e => ⟨e.instruction.source, e.instruction.dest⟩)
      (m.latchedByte keys) i

theorem toNat_pc_started (m : Machine) (keys : Keys) :
    (m.started keys).pc.toNat = (m.memory.byteAt 2).toNat * 65536
      + (m.memory.byteAt 3).toNat * 256 + (m.memory.byteAt 4).toNat := by
  have pc : (m.started keys).pc = (m.started keys).memory.readField Header.entryPoint := rfl
  have behind : ∀ i, 2 ≤ i → (m.started keys).memory.byteAt i = m.memory.byteAt i := by
    intro i hi
    rw [byteAt_started, if_neg (by omega), if_neg (by omega)]
  rw [pc, Memory.toNat_readField _ (by decide), behind _ (by decide), behind _ (by decide),
    behind _ (by decide)]
  rfl

/-- **The instructions of a frame tell all that it does.** -/
theorem retraced_next (room : m.HasRoom 1) (keys : Keys) :
    m.Retraced keys (m.next keys) (m.executed keys) := by
  have low := m.started_pc_lt keys
  have cycles : (m.started keys).cycles.toNat + 65536 < 0x10000000000000000 := by
    rw [cycles_started]
    have := room.cycles
    omega
  have es : m.executed keys = Core.executed 65536 (m.started keys) := by
    rw [executed, Core.instructionsPerFrame_eq]
  have replayed : (m.next keys).memory = Copy.applyAll
      ((Core.executed 65536 (m.started keys)).map (·.instruction.copy)) (m.started keys).memory := by
    rw [memory_next, Core.instructionsPerFrame_eq, Core.memory_after]
  rw [es]
  constructor
  case length => exact Core.length_executed _ _
  case told =>
    intro i hi
    obtain ⟨run, step⟩ := Core.step_after low cycles hi
    refine ⟨_, _, run, ?_, step⟩
    rw [Core.getElem_executed]
  case first => exact ⟨_, Core.getElem?_executed (by decide), toNat_pc_started m keys⟩
  case linked => exact fun i hi => Core.next_getElem_executed hi
  case last =>
    have last : 65536 = 65535 + 1 := by decide
    rw [stats_pc, core_next, Core.instructionsPerFrame_eq]
    exact Core.exists_getElem?_executed_last last
  case replayed =>
    rw [replayed, memory_started]
    generalize Core.executed 65536 (m.started keys) = es
    rfl
  case replayed_bytes =>
    intro i
    rw [replayed, Copy.byteAt_applyAll_eq_moveAll, byteAt_started_eq_latchedByte]
    generalize Core.executed 65536 (m.started keys) = es
    rfl

/-! ## The journal of a frame -/

/-- The outputs of a machine are those of two pages, which its header names. -/
structure ShowsPages (m : Machine) (video audio : UInt32) : Prop where
  video_eq : video.toNat = (m.memory.byteAt 5).toNat * 65536
  pixel_eq : ∀ x < 256, ∀ y < 256, m.frame.pixel x y
    = some (Palette.color (m.memory.byteAt (video.toNat + (256 * y + x))))
  audio_eq : audio.toNat = (m.memory.byteAt 6).toNat * 65536 + (m.memory.byteAt 7).toNat * 256
  sample_eq : ∀ i, (hi : i < 256) →
    m.samples.values[i] = (m.memory.byteAt (audio.toNat + i)).toInt8

theorem showsPages_next (m : Machine) (keys : Keys) :
    (m.next keys).ShowsPages (m.next keys).memory.videoPage (m.next keys).memory.audioPage := by
  constructor
  case video_eq => exact Memory.toNat_videoPage _
  case pixel_eq =>
    intro x hx y hy
    rw [frame_next, Frame.pixel_ofMemory _ (show x < Frame.width from hx)
      (show y < Frame.height from hy), Nat.mul_comm y]
    rfl
  case audio_eq => exact Memory.toNat_audioPage _
  case sample_eq =>
    intro i hi
    rw [samples_next, Samples.getElem_ofMemory _ hi]

theorem level_frameRecords (m : Machine) (keys : Keys) :
    (m.frameRecords keys).map Record.level = List.replicate 65536 .trace ++ [.debug] := by
  have all : ∀ es : List Executed,
      (es.map Record.executed).map Record.level = List.replicate es.length .trace := by
    intro es
    rw [List.map_map]
    exact List.map_const' ..
  rw [frameRecords, List.map_append, all, executed, Core.length_executed,
    Core.instructionsPerFrame_eq]
  generalize m.next keys = m'
  rfl

/-- The instructions of a frame are read back from its records. -/
theorem ofText?_frameRecords (m : Machine) (keys : Keys) :
    (m.frameRecords keys).map (fun r => Executed.ofText? r.text)
      = (m.executed keys).map some ++ [none] := by
  have all : ∀ es : List Executed,
      (es.map Record.executed).map (fun r => Executed.ofText? r.text) = es.map some := by
    intro es
    rw [List.map_map]
    exact List.map_congr_left fun e _ => Executed.ofText?_text e
  rw [frameRecords, List.map_append, all, List.map_singleton, frameRecord,
    Executed.ofText?_frameDone]

/--
**The journal of a frame is the frame.**

A journal that keeps everything gains a line for each of the `2 ^ 16` instructions of a frame and
one for the frame itself, whose number and pages are those of the machine that the frame leaves. No
two instructions have the same line, and the instructions read back from the lines lead from the
memory before the frame, with the keys in it, to the one behind it.
-/
theorem Reachable.tick_retraced (h : m.Reachable) (few : m.frameCount.toNat < 0xFFFFFFFFFFFF)
    (keys : Keys) {j : Journal} (level : j.level = .trace) :
    ∃ m' j' es rs, ∃ number : UInt64, ∃ pc video audio : UInt32,
      m.tick keys = .ok m' ∧ m.tickRecorded keys j = .ok (m', j') ∧
      j'.records.toList = j.records.toList ++ rs ∧
      rs = es.map .executed ++ [.frameDone number pc video audio] ∧
      rs.map Record.level = List.replicate 65536 .trace ++ [.debug] ∧
      rs.map (fun r => Executed.ofText? r.text) = es.map some ++ [none] ∧
      (∀ e ∈ es, (Record.executed e).text = "TRACE " ++ Numeral.hex 6 e.pc.toNat ++ ": ["
        ++ Numeral.hex 6 e.instruction.source.toNat ++ "] -> ["
        ++ Numeral.hex 6 e.instruction.dest.toNat ++ "], next "
        ++ Numeral.hex 6 e.instruction.next.toNat) ∧
      (∀ e f : Executed, (Record.executed e).text = (Record.executed f).text → e = f) ∧
      m.Retraced keys m' es ∧ m'.ShowsPages video audio ∧
      number = m'.stats.frameCount ∧ number.toNat = m.frameCount.toNat + 1 ∧
      pc = m'.stats.pc := by
  have room : m.HasRoom 1 := h.coherent.hasRoom (Nat.succ_lt_succ few)
  have tick := room.tick_eq keys
  have recorded := tickRecorded_eq_map m keys j
  rw [tick] at recorded
  refine ⟨m.next keys, _, m.executed keys, m.frameRecords keys, (m.next keys).frameCount,
    (m.next keys).stats.pc, (m.next keys).memory.videoPage, (m.next keys).memory.audioPage, tick,
    recorded, Journal.records_addAll_of_trace level _, ?_, level_frameRecords m keys,
    ofText?_frameRecords m keys, fun e _ => Record.text_executed e,
    fun e f same => Executed.text_injective same, retraced_next room keys, showsPages_next m keys,
    ?_, toNat_next_frameCount keys room.frames, rfl⟩
  · rw [frameRecords, frameRecord, stats_pc]
  · rw [stats_frameCount]

/-- A core at an instruction that reads behind address 2, where all is zero, and that goes nowhere. -/
structure Idles (c : Core) : Prop where
  pc_eq : c.pc = 0
  low_eq : c.memory.byteAt 1 = 0xFF
  zero : ∀ i, 2 ≤ i → c.memory.byteAt i = 0

theorem byteAt_initial (i : Nat) : initial.memory.byteAt i = 0 := Memory.byteAt_blank i

theorem idles_started_initial : Idles (initial.started Keys.all) where
  pc_eq := by
    refine UInt32.toNat_inj.mp ?_
    rw [toNat_pc_started, byteAt_initial, byteAt_initial, byteAt_initial]
    rfl
  low_eq := by
    rw [byteAt_started, if_neg (by decide), if_pos rfl]
    rfl
  zero := by
    intro i hi
    rw [byteAt_started, if_neg (by omega), if_neg (by omega), byteAt_initial]

theorem Idles.instruction_eq {c : Core} (h : Idles c) : ∃ source : UInt32,
    c.instruction = ⟨source, 0, 0⟩ ∧
      source.toNat = (c.memory.byteAt 0).toNat * 65536 + 0xFF00 := by
  have field : ∀ a : UInt32, 2 ≤ a.toNat → a.toNat + 3 ≤ Memory.capacity →
      c.memory.readField a = 0 := by
    intro a low room
    refine UInt32.toNat_inj.mp ?_
    rw [Memory.toNat_readField _ room, h.zero _ low, h.zero _ (by omega), h.zero _ (by omega)]
    rfl
  have dest := field (0 + 3) (by decide) (by decide)
  have next := field (0 + 6) (by decide) (by decide)
  refine ⟨c.memory.readField 0, ?_, ?_⟩
  · rw [Core.instruction, h.pc_eq, Instruction.fetched, dest, next]
  · have low : (c.memory.byteAt 1).toNat = 0xFF := congrArg UInt8.toNat h.low_eq
    have behind : (c.memory.byteAt 2).toNat = 0 := congrArg UInt8.toNat (h.zero 2 (Nat.le_refl 2))
    rw [Memory.toNat_readField _ (by decide)]
    show _ + (c.memory.byteAt 1).toNat * 256 + (c.memory.byteAt 2).toNat = _
    rw [low, behind, Nat.add_zero]
    rfl

/-- Such a core stays what it is and has a zero at address 0. -/
theorem Idles.next {c : Core} (h : Idles c) : Idles c.next ∧ c.next.memory.byteAt 0 = 0 := by
  obtain ⟨source, inst, reads⟩ := h.instruction_eq
  have small : source.toNat < 0x1000000 := by
    have := (c.memory.byteAt 0).toNat_lt
    omega
  have moved : ∀ i, c.next.memory.byteAt i = if i = 0 then 0 else c.memory.byteAt i := by
    intro i
    rw [Core.next, inst, Instruction.byteAt_apply, Memory.readByte,
      Memory.offset_of_lt small, h.zero _ (by omega)]
    rfl
  refine ⟨⟨?_, ?_, fun i hi => ?_⟩, moved 0⟩
  · show c.instruction.next = 0
    rw [inst]
  · rw [moved, if_neg (by decide), h.low_eq]
  · rw [moved, if_neg (by omega), h.zero i hi]

theorem Idles.after {c : Core} (h : Idles c) (n : Nat) : Idles (Core.after n c) := by
  induction n with
  | zero => exact h
  | succ n ih =>
    rw [Core.after_succ_last]
    exact ih.next.1

/-- A machine that was never loaded, with all keys held. The bytes at address 0 are an instruction,
whose line comes first, and the high key byte is gone after it. -/
theorem tick_retraced_initial :
    initial.Reachable ∧ initial.frameCount.toNat < 0xFFFFFFFFFFFF ∧
      ∃ m' j' e rest, initial.tickRecorded Keys.all (Journal.empty .trace) = .ok (m', j') ∧
        j'.records.toList = .executed e :: rest ∧
        (Record.executed e).text = "TRACE 000000: [FFFF00] -> [000000], next 000000" ∧
        m'.memory.byteAt 0 = 0 ∧ m'.memory.byteAt 1 = 0xFF := by
  have few : initial.frameCount.toNat < 0xFFFFFFFFFFFF := by decide
  obtain ⟨m', j', es, rs, number, stop, video, audio, tick, recorded, records, all, _, _, texts, _,
    retraced, _⟩ :=
    Reachable.tick_retraced reachable_initial few Keys.all (j := Journal.empty .trace) rfl
  have idles := idles_started_initial
  cases es with
  | nil => exact absurd retraced.length (by decide)
  | cons e es =>
    obtain ⟨c, d, run, here, step⟩ := retraced.told 0 (Nat.succ_pos _)
    obtain rfl : initial.started Keys.all = c := Except.ok.inj run
    obtain ⟨_, _, same⟩ := Core.step_eq_ok step
    have instruction : e.instruction = (initial.started Keys.all).instruction := congrArg Prod.fst same
    have pc : e.pc = 0 := here.symm.trans idles.pc_eq
    refine ⟨reachable_initial, few, m', j', e,
      es.map .executed ++ [.frameDone number stop video audio], recorded, ?_, ?_, ?_⟩
    · rw [records, all]
      rfl
    · obtain ⟨source, inst, reads⟩ := idles.instruction_eq
      have high : (initial.started Keys.all).memory.byteAt 0 = 0xFF := by
        rw [byteAt_started, if_pos rfl]
        rfl
      rw [high] at reads
      have first : source = 0xFFFF00 := UInt32.toNat_inj.mp (reads.trans (by decide))
      rw [texts e List.mem_cons_self, pc, instruction, inst, first]
      decide +kernel
    · obtain ⟨_, _, rfl⟩ := tick_eq_ok tick
      have last := (idles.after 65535).next
      rw [← Core.after_succ_last] at last
      rw [memory_next, Core.instructionsPerFrame_eq]
      exact ⟨last.2, last.1.low_eq⟩

end Machine

end ByteByteJump
