import ByteByteJump.Proofs.Chain.Loop
import ByteByteJump.Proofs.Origin
import ByteByteJump.Proofs.RoundTrip

/-!
# The fields of the header

Entry point, video page and audio page lie side by side in bytes 2 to 7, and no byte belongs to two of
them. Edits that set them can come in any order, with others that leave these bytes alone before, among
and after them: whichever edit is the last one to cover a byte of the header, it stores the same there.

What is read is what was set, less the top byte of the entry point. It stays so for as long as no
executed instruction has one of these bytes for its destination: the key state lies before them.

## Main statements

* `byteAt_editAll_of_agree` — a byte for which all edits that cover it agree
* `SetsHeader.byteAt_eq` — the bytes of the header, whatever the order of the edits
* `byteAt_play_of_unwritten` — a byte behind the keys that no executed instruction writes
* `SetsHeader.read_back` — the fields after a load and after frames
-/

namespace ByteByteJump

namespace Image

variable {img img' : Image} {edits : List Edit} {stores : List Store} {i : Nat}

/-! ## Stores that agree -/

theorem lastStored?_of_agree {v : UInt8} (covered : ∃ s ∈ stores, s.covers i = true)
    (agree : ∀ s ∈ stores, s.covers i = true → s.byteAt i = v) : lastStored? stores i = some v := by
  rw [lastStored?]
  cases found : stores.reverse.find? fun s => s.covers i with
  | none =>
    obtain ⟨s, hs, covers⟩ := covered
    exact absurd covers (List.find?_eq_none.mp found s (List.mem_reverse.mpr hs))
  | some last =>
    have mem := List.mem_reverse.mp (List.mem_of_find?_eq_some found)
    have covers := List.find?_some found
    exact congrArg some (agree last mem covers)

/-- **Where all edits agree, their order does not matter.** -/
theorem byteAt_editAll_of_agree {v : UInt8} (made : img.editAll edits = .ok img')
    (covered : ∃ e ∈ edits, e.Covers i)
    (agree : ∀ e ∈ edits, ∀ s ∈ e.stores, s.covers i = true → s.byteAt i = v) :
    img'.byteAt i = v := by
  obtain ⟨_, rfl⟩ := editAll_eq_ok_iff.mp made
  obtain ⟨e, he, s, hs, covers⟩ := covered
  rw [byteAt_storeAll, lastStored?_of_agree ⟨s, List.mem_flatMap.mpr ⟨e, he, hs⟩, covers⟩]
  · rfl
  · intro s hs
    obtain ⟨e, he, mem⟩ := List.mem_flatMap.mp hs
    exact agree e he s mem

theorem Edit.avoids_of_apart {e : Edit} {first last : Nat}
    (apart : ∀ s ∈ e.stores, s.stop ≤ first ∨ last ≤ s.start.toNat) : e.Avoids first last := by
  intro s hs i low high
  refine eq_false_of_ne_true fun covers => ?_
  obtain ⟨start, stop⟩ := Store.covers_iff.mp covers
  have stop : i < s.stop := stop
  have := apart s hs
  omega

theorem Edit.covers_of_stores_eq {e : Edit} {s : Store} (single : e.stores = [s])
    (start : s.start.toNat ≤ i) (stop : i < s.start.toNat + s.data.size) : e.Covers i :=
  ⟨s, single ▸ List.mem_singleton_self s, Store.covers_iff.mpr ⟨start, stop⟩⟩

/-! ## Setting the header -/

/-- Edits that set the fields of the header to the same values wherever they do, and others that leave
these bytes alone. -/
structure SetsHeader (edits : List Edit) (pc : UInt32) (video : UInt8) (audio : UInt16) : Prop where
  entryPoint : .entryPoint pc ∈ edits
  videoPage : .videoPage video ∈ edits
  audioPage : .audioPage audio ∈ edits
  others : ∀ e ∈ edits, e = .entryPoint pc ∨ e = .videoPage video ∨ e = .audioPage audio ∨
    e.Avoids 2 8

theorem Edit.stores_entryPoint (pc : UInt32) :
    (Edit.entryPoint pc).stores = [⟨2, BigEndian.fieldBytes pc⟩] := by
  rw [BigEndian.fieldBytes_eq, stores]

theorem Edit.stores_videoPage (page : UInt8) :
    (Edit.videoPage page).stores = [⟨5, ⟨#[page]⟩⟩] := rfl

theorem Edit.stores_audioPage (page : UInt16) :
    (Edit.audioPage page).stores = [⟨6, BigEndian.wordBytes page⟩] := by
  rw [BigEndian.wordBytes_eq, stores]

/-- Bytes 2 to 7 of an image with these fields. -/
def headerBytes (pc : UInt32) (video : UInt8) (audio : UInt16) : ByteArray :=
  ⟨#[BigEndian.fieldHigh pc, BigEndian.fieldMid pc, BigEndian.fieldLow pc, video,
    BigEndian.wordHigh audio, BigEndian.wordLow audio]⟩

namespace SetsHeader

variable {pc : UInt32} {video : UInt8} {audio : UInt16}

theorem exists_covers (h : SetsHeader edits pc video audio) (low : 2 ≤ i) (high : i < 8) :
    ∃ e ∈ edits, e.Covers i := by
  by_cases first : i < 5
  · exact ⟨_, h.entryPoint, Edit.covers_of_stores_eq (Edit.stores_entryPoint pc) low first⟩
  · by_cases middle : i < 6
    · exact ⟨_, h.videoPage,
        Edit.covers_of_stores_eq (Edit.stores_videoPage video) (Nat.not_lt.mp first) middle⟩
    · exact ⟨_, h.audioPage,
        Edit.covers_of_stores_eq (Edit.stores_audioPage audio) (Nat.not_lt.mp middle) high⟩

/-- **The header is what was set**, whatever the order of the edits. -/
theorem byteAt_eq (h : SetsHeader edits pc video audio) (made : img.editAll edits = .ok img')
    (low : 2 ≤ i) (high : i < 8) :
    img'.byteAt i = Bytes.get (headerBytes pc video audio) (i - 2) := by
  refine byteAt_editAll_of_agree made (h.exists_covers low high) fun e he s hs covers => ?_
  -- an edit of another field, or of none, does not cover the byte: the ranges lie apart
  rcases h.others e he with rfl | rfl | rfl | clear
  · rw [Edit.stores_entryPoint] at hs
    obtain rfl := List.mem_singleton.mp hs
    have stop : i < 5 := (Store.covers_iff.mp covers).2
    have cases : i = 2 ∨ i = 3 ∨ i = 4 := by omega
    rcases cases with rfl | rfl | rfl <;> rfl
  · rw [Edit.stores_videoPage] at hs
    obtain rfl := List.mem_singleton.mp hs
    obtain ⟨start, stop⟩ := Store.covers_iff.mp covers
    have start : 5 ≤ i := start
    have stop : i < 6 := stop
    obtain rfl : i = 5 := by omega
    rfl
  · rw [Edit.stores_audioPage] at hs
    obtain rfl := List.mem_singleton.mp hs
    have start : 6 ≤ i := (Store.covers_iff.mp covers).1
    have cases : i = 6 ∨ i = 7 := by omega
    rcases cases with rfl | rfl <;> rfl
  · rw [clear s hs i low high] at covers
    cases covers

end SetsHeader

end Image

/-! ## Reading the header -/

namespace Memory

variable {m m' : Memory} {pc : UInt32} {video : UInt8} {audio : UInt16}

/-- A memory in which the fields of the header have these values. -/
structure HasHeader (m : Memory) (pc : UInt32) (video : UInt8) (audio : UInt16) : Prop where
  entryPoint : m.entryPoint = pc % 0x1000000
  videoPage : m.videoPage.toNat = video.toNat * 65536
  audioPage : m.audioPage.toNat = audio.toNat * 256

/-- **The readers of the header read what the bytes were made from.** -/
theorem hasHeader_of_bytes (h : ∀ i, 2 ≤ i → i < 8 →
    m.byteAt i = Bytes.get (Image.headerBytes pc video audio) (i - 2)) :
    m.HasHeader pc video audio where
  entryPoint := by
    refine UInt32.toNat_inj.mp ?_
    rw [UInt32.toNat_mod]
    exact toNat_readField_of_bytes (by decide) (h 2 (by decide) (by decide))
      (h 3 (by decide) (by decide)) (h 4 (by decide) (by decide))
  videoPage := by
    rw [toNat_videoPage, h 5 (by decide) (by decide)]
    rfl
  audioPage := by
    have high : m.byteAt 6 = BigEndian.wordHigh audio := h 6 (by decide) (by decide)
    have low : m.byteAt 7 = BigEndian.wordLow audio := h 7 (by decide) (by decide)
    rw [toNat_audioPage, high, low, BigEndian.toNat_wordHigh, BigEndian.toNat_wordLow]
    omega

/-- The pages are read from the bytes behind the entry point. -/
theorem pages_congr (same : ∀ i, 5 ≤ i → i < 8 → m.byteAt i = m'.byteAt i) :
    m.videoPage = m'.videoPage ∧ m.audioPage = m'.audioPage := by
  refine ⟨UInt32.toNat_inj.mp ?_, UInt32.toNat_inj.mp ?_⟩
  · rw [toNat_videoPage, toNat_videoPage, same 5 (by decide) (by decide)]
  · rw [toNat_audioPage, toNat_audioPage, same 6 (by decide) (by decide),
      same 7 (by decide) (by decide)]

end Memory

/-! ## Frames -/

namespace Machine

variable {m last : Machine} {i : Nat}

/-- The instructions that frames execute, in order. -/
def executedAll : Machine → List Keys → List Executed
  | _, [] => []
  | m, k :: rest => m.executed k ++ (m.next k).executedAll rest

theorem executedAll_cons (m : Machine) (k : Keys) (rest : List Keys) :
    m.executedAll (k :: rest) = m.executed k ++ (m.next k).executedAll rest := by rw [executedAll]

theorem byteAt_next_of_unwritten {k : Keys} (behind : 2 ≤ i)
    (unwritten : ∀ e ∈ m.executed k, e.instruction.dest.toNat ≠ i) :
    (m.next k).memory.byteAt i = m.memory.byteAt i := by
  rw [memory_next, Core.byteAt_after_of_unwritten, byteAt_started, if_neg (by omega),
    if_neg (by omega)]
  exact fun e he writes => unwritten e he ((Core.writes_iff he i).mp writes)

/-- **A byte behind the keys that no instruction writes is left alone**, however many frames run. -/
theorem byteAt_play_of_unwritten {keys : List Keys} (run : m.play keys = .ok last) (behind : 2 ≤ i)
    (unwritten : ∀ e ∈ m.executedAll keys, e.instruction.dest.toNat ≠ i) :
    last.memory.byteAt i = m.memory.byteAt i := by
  induction keys generalizing m with
  | nil =>
    rw [play_nil] at run
    obtain rfl := Except.ok.inj run
    rfl
  | cons k rest ih =>
    rw [play_cons] at run
    obtain ⟨next, once, others⟩ := exists_of_bind_eq_ok run
    obtain ⟨_, _, rfl⟩ := tick_eq_ok once
    rw [executedAll_cons] at unwritten
    rw [ih others fun e he => unwritten e (List.mem_append_right _ he)]
    exact byteAt_next_of_unwritten behind fun e he => unwritten e (List.mem_append_left _ he)

end Machine

/-- **A loop writes where its copies go**, in every frame. -/
theorem LoopsAt.exists_of_mem_executedAll {copies : List Copy} {a : UInt32} (h : LoopsAt copies a)
    {m : Machine} (holds : HoldsLoop m.memory a copies) {keys : List Keys} {e : Executed}
    (he : e ∈ m.executedAll keys) : ∃ c ∈ copies, e.instruction.dest = c.dest := by
  induction keys generalizing m with
  | nil => cases he
  | cons k rest ih =>
    rw [Machine.executedAll_cons] at he
    rcases List.mem_append.mp he with he | he
    · have latched : HoldsLoop (m.started k).memory a copies := by
        rw [Machine.memory_started]
        exact h.holdsLoop_writeWord holds k.bits
      obtain ⟨i, hi, _, inst⟩ := h.exists_of_mem_executed latched latched.entryPoint he
      exact ⟨_, List.getElem_mem hi, congrArg Instruction.dest inst⟩
    · exact ih (h.machine_next_eq holds k).2.2 he

/-! ## Set, loaded and run -/

namespace Image.SetsHeader

variable {img img' : Image} {edits : List Edit} {pc : UInt32} {video : UInt8} {audio : UInt16}

theorem exists_load (h : SetsHeader edits pc video audio) (made : img.editAll edits = .ok img')
    (fits : img'.bytes.size ≤ Memory.capacity) (start : Machine) :
    ∃ memory, Memory.load img'.bytes = .ok memory ∧
      start.load img'.bytes = .ok (.ofMemory memory) ∧ memory.HasHeader pc video audio := by
  refine ⟨_, Memory.load_of_le fits, start.load_of_le fits, ?_⟩
  refine Memory.hasHeader_of_bytes fun i low high => ?_
  exact (Memory.byteAt_ofImage img'.bytes fits i).trans (h.byteAt_eq made low high)

/--
**What is set in the header is read from it**, in whatever order it was set.

An image may hold anything before. If edits set the three fields, with others that leave these bytes
alone, and the image fits into memory, then a reset and a frame start at the low 24 bits of the entry
point, and the pages are the ones that were set. In a machine that is loaded with the image they are
the same after any number of frames, unless one of the instructions that were executed has a byte of
the two pages for its destination.
-/
theorem read_back (h : SetsHeader edits pc video audio) (made : img.editAll edits = .ok img')
    (fits : img'.size ≤ Memory.capacity) (start : Machine) :
    ∃ memory loaded, Memory.load img'.bytes = .ok memory ∧ start.load img'.bytes = .ok loaded ∧
      (Processor.reset memory = ⟨pc % 0x1000000, 0⟩ ∧
        ∀ p : Processor, Core.runFrame ⟨p, memory⟩
          = Core.run 65536 ⟨⟨pc % 0x1000000, p.cycles⟩, memory⟩) ∧
      (memory.videoPage.toNat = video.toNat * 65536 ∧
        memory.audioPage.toNat = audio.toNat * 256) ∧
      loaded.core = ⟨Processor.reset memory, memory⟩ ∧
      (∀ keys : List Keys, keys.length < 0x1000000000000 →
        ∃ last, loaded.play keys = .ok last) ∧
      ∀ (keys : List Keys) (last : Machine), loaded.play keys = .ok last →
        (∀ e ∈ loaded.executedAll keys,
          e.instruction.dest.toNat < 5 ∨ 7 < e.instruction.dest.toNat) →
        last.memory.videoPage.toNat = video.toNat * 65536 ∧
          last.memory.audioPage.toNat = audio.toNat * 256 := by
  obtain ⟨memory, load, loads, header⟩ := h.exists_load made fits start
  refine ⟨memory, _, load, loads, ⟨?_, ?_⟩, ⟨header.videoPage, header.audioPage⟩, rfl, ?_, ?_⟩
  · rw [Processor.reset, header.entryPoint]
  · intro p
    rw [Core.runFrame, Core.atEntryPoint, header.entryPoint, Core.instructionsPerFrame_eq]
  · intro keys few
    exact ⟨_, Machine.play_ofMemory _ few⟩
  · intro keys last run clear
    have same : ∀ i, 5 ≤ i → i < 8 →
        last.memory.byteAt i = (Machine.ofMemory memory).memory.byteAt i := by
      intro i low high
      refine Machine.byteAt_play_of_unwritten run (by omega) fun e he there => ?_
      have := clear e he
      omega
    obtain ⟨video, audio⟩ := Memory.pages_congr same
    rw [video, audio]
    exact ⟨header.videoPage, header.audioPage⟩

/-- A loop of one instruction, and an audio page. -/
def looping : Image := (empty.audioPage 0x1234).instruction 0x100 ⟨1, 0x200, 0x100⟩

/-- The fields from the last to the first, with stores among them that touch the header on both
sides. -/
def backwards : List Edit :=
  [.poke 8 ⟨#[0xFF]⟩, .audioPage 0xABCD, .fill 0 2 0x55, .videoPage 0xFE, .entryPoint 0xAB000100,
    .instruction 0x300 ⟨1, 2, 3⟩]

theorem stores_backwards : backwards.flatMap Edit.stores
    = [⟨8, ⟨#[0xFF]⟩⟩, ⟨6, ⟨#[0xAB, 0xCD]⟩⟩, ⟨0, ⟨#[0x55, 0x55]⟩⟩, ⟨5, ⟨#[0xFE]⟩⟩,
      ⟨2, ⟨#[0, 1, 0]⟩⟩, ⟨0x300, instructionBytes 1 2 3⟩] := rfl

theorem setsHeader_backwards : SetsHeader backwards 0xAB000100 0xFE 0xABCD where
  entryPoint := by simp [backwards]
  videoPage := by simp [backwards]
  audioPage := by simp [backwards]
  others := by
    intro e he
    simp only [backwards, List.mem_cons, List.not_mem_nil, or_false] at he
    rcases he with rfl | rfl | rfl | rfl | rfl | rfl
    · exact .inr (.inr (.inr (Edit.avoids_of_apart (by decide))))
    · exact .inr (.inr (.inl rfl))
    · exact .inr (.inr (.inr (Edit.avoids_of_apart (by decide))))
    · exact .inr (.inl rfl)
    · exact .inl rfl
    · exact .inr (.inr (.inr (Edit.avoids_of_apart (by decide))))

/-- Two frames of the loop, with an entry point of more than 24 bits. -/
theorem read_back_backwards :
    ∃ img' memory loaded last, looping.editAll backwards = .ok img' ∧
      img'.size ≤ Memory.capacity ∧ Machine.initial.load img'.bytes = .ok loaded ∧
      loaded.core = ⟨⟨0x100, 0⟩, memory⟩ ∧
      (memory.videoPage.toNat = 0xFE0000 ∧ memory.audioPage.toNat = 0xABCD00) ∧
      loaded.play [Keys.all, Keys.empty] = .ok last ∧
      last.memory.videoPage.toNat = 0xFE0000 ∧ last.memory.audioPage.toNat = 0xABCD00 := by
  have made : looping.editAll backwards
      = .ok (looping.storeAll (backwards.flatMap Edit.stores)) :=
    editAll_eq_ok_iff.mpr ⟨by decide, rfl⟩
  have apart : ∀ s ∈ backwards.flatMap Edit.stores, s.stop ≤ 0x100 ∨ 0x109 ≤ s.start.toNat := by
    rw [stores_backwards]
    decide
  have clear : ∀ e ∈ backwards, e.Avoids 0x100 0x109 := fun e he =>
    Edit.avoids_of_apart fun s hs => apart s (List.mem_flatMap.mpr ⟨e, he, hs⟩)
  have fits : (looping.storeAll (backwards.flatMap Edit.stores)).size ≤ Memory.capacity := by
    rw [size_storeAll, stores_backwards, looping, instruction, size_poke, Image.audioPage, size_poke]
    decide
  have stored := storedAt_editAll made clear
  generalize looping.storeAll (backwards.flatMap Edit.stores) = img' at made stored fits
  obtain ⟨memory, loaded, load, loads, ⟨reset, _⟩, ⟨video, audio⟩, core, plays, stays⟩ :=
    read_back setsHeader_backwards made fits Machine.initial
  have entry : memory.entryPoint = 0x100 := congrArg Processor.pc reset
  have bytes : ∀ i, memory.byteAt i = img'.byteAt i := by
    rw [Memory.load_of_le fits] at load
    obtain rfl := Except.ok.inj load
    exact Memory.byteAt_ofImage img'.bytes fits
  have holds : HoldsLoop loaded.memory 0x100 [⟨1, 0x200⟩] := by
    rw [Machine.memory, core]
    refine ⟨?_, entry⟩
    rintro (_ | i) hi
    · exact stored.congr fun i _ _ => bytes i
    · exact absurd (Nat.lt_of_succ_lt_succ hi) (Nat.not_lt_zero i)
  have loops : LoopsAt [⟨1, 0x200⟩] 0x100 :=
    ⟨by decide, by decide, by decide, by decide, by decide⟩
  obtain ⟨last, run⟩ := plays [Keys.all, Keys.empty] (by decide)
  refine ⟨img', memory, loaded, last, made, fits, loads, ?_, ⟨video, audio⟩, run,
    stays _ last run fun e he => ?_⟩
  · rw [core, reset]
    rfl
  · obtain ⟨c, hc, dest⟩ := loops.exists_of_mem_executedAll holds he
    obtain rfl := List.mem_singleton.mp hc
    rw [dest]
    exact .inr (by decide)

end Image.SetsHeader

end ByteByteJump
