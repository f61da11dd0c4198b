import ByteByteJump.Proofs.Account

/-!
# Loads that fail

A load changes a machine in several places, one after the other: memory is cleared and the image
laid over it, the processor starts anew, the outputs are blanked, the frames are counted from zero,
and a record is written. A machine that is changed in place would be left half loaded by a load that
failed on the way. So here the load is written once more as such steps on a *place*, which is still
there, as the steps have left it, when one of them fails.

The only step that fails is the first one, before there is a change. So it does not matter how often
loads fail: whatever else is asked of the machine has the same results without them.

## What is here

* `Place`, `Stop` — arrays and journal of a machine that is changed in place, and why a step fails
* `resetMemory`, `load`, `loadFile` — loading in place

## Main statements

* `InPlace.load_of_le`, `InPlace.load_of_lt` — a load in place, from any arrays of the right lengths
* `Machine.performRecorded_of_failsToLoad` — one action: it is as if it had not been asked for
* `Machine.performAllRecorded_filter` — a history without its failed loads
* `Machine.failed_loads_leave_no_trace` — loads that fail, and histories with them
-/

namespace ByteByteJump

/-! ## In place -/

namespace InPlace

open Guarded (ofMachine)

/-- Why a step in place fails. -/
inductive Stop where
  /-- An access is outside its array, or a sum does not fit. -/
  | fault (fault : Guarded.Fault)
  /-- The image is not loaded. -/
  | refused (e : LoadError)

/-- A machine of bare arrays with its journal. -/
structure Place where
  state : Guarded.State
  journal : Journal

variable {p q : Place} {image : ByteArray}

/-! ## Steps -/

namespace Place

/-- Other bytes in the array of memory. -/
def setBytes (bytes : ByteArray) : Place → Place
  | ⟨⟨⟨_, pc, cycles⟩, picture, sound, frameCount⟩, journal⟩ =>
    ⟨⟨⟨bytes, pc, cycles⟩, picture, sound, frameCount⟩, journal⟩

/-- Starts the processor anew, at the entry point in memory. -/
def resetProcessor : Place → Place
  | ⟨⟨⟨bytes, _, _⟩, picture, sound, frameCount⟩, journal⟩ =>
    ⟨⟨⟨bytes, Guarded.field bytes Header.entryPoint, 0⟩, picture, sound, frameCount⟩, journal⟩

/-- Blanks the picture. -/
def clearPicture : Place → Place
  | ⟨⟨core, picture, sound, frameCount⟩, journal⟩ =>
    ⟨⟨core, Guarded.clear picture, sound, frameCount⟩, journal⟩

/-- Stops the sound. -/
def clearSound : Place → Place
  | ⟨⟨core, picture, _, frameCount⟩, journal⟩ =>
    ⟨⟨core, picture, Samples.silence, frameCount⟩, journal⟩

/-- Counts the frames from zero. -/
def clearCount : Place → Place
  | ⟨⟨core, picture, sound, _⟩, journal⟩ => ⟨⟨core, picture, sound, 0⟩, journal⟩

/-- Writes the record of an image that was loaded. -/
def recordLoad (image : ByteArray) : Place → Place
  | ⟨state, journal⟩ => ⟨state, journal.add (.loaded image.size state.core.pc)⟩

end Place

/-- Lays an image over the first bytes of memory. -/
def copyImage (image : ByteArray) : EStateM Stop Place Unit := do
  match Guarded.setPrefix (← get).state.core.bytes image with
  | .ok bytes => modify (·.setBytes bytes)
  | .error fault => throw (.fault fault)

/-- Clears memory and lays an image over it, if it fits. -/
def resetMemory (image : ByteArray) : EStateM Stop Place Unit := do
  if Memory.capacity < image.size then
    throw (.refused (.tooLarge image.size Memory.capacity))
  else
    modify fun p => p.setBytes (Guarded.clear p.state.core.bytes)
    copyImage image

/-- Loads a program image: memory, processor, picture, sound, count of the frames, journal. -/
def load (image : ByteArray) : EStateM Stop Place Unit := do
  resetMemory image
  modify Place.resetProcessor
  modify Place.clearPicture
  modify Place.clearSound
  modify Place.clearCount
  modify (Place.recordLoad image)

/-- Loads the program image in a file, given what came of reading it. -/
def loadFile (path : String) (content : Except ReadFailure ByteArray) :
    EStateM Stop Place Unit := do
  match content with
  | .ok image => load image
  | .error failure => throw (.refused (.unreadable path failure))

/-! ## What they leave -/

/-- Steps that follow one that succeeds start from what it leaves. -/
theorem run_bind_of_ok {α β : Type} {first : EStateM Stop Place α}
    {next : α → EStateM Stop Place β} {a : α} (done : first.run p = .ok a q) :
    (first >>= next).run p = (next a).run q := by
  rw [EStateM.run_bind, done]

/-- A step that fails is the last one. -/
theorem run_bind_of_error {α β : Type} {first : EStateM Stop Place α}
    {next : α → EStateM Stop Place β} {e : Stop} (failed : first.run p = .error e q) :
    (first >>= next).run p = .error e q := by
  rw [EStateM.run_bind, failed]

theorem resetMemory_of_lt (large : Memory.capacity < image.size) (p : Place) :
    (resetMemory image).run p = .error (.refused (.tooLarge image.size Memory.capacity)) p := by
  rw [resetMemory, if_pos large, EStateM.run_throw]

theorem copyImage_of_ok {bytes : ByteArray}
    (laid : Guarded.setPrefix p.state.core.bytes image = .ok bytes) :
    (copyImage image).run p = .ok () (p.setBytes bytes) := by
  rw [copyImage, run_bind_of_ok (EStateM.run_get p), laid]
  exact EStateM.run_modify ..

theorem resetMemory_of_le (fits : image.size ≤ Memory.capacity)
    (size : p.state.core.bytes.size = Memory.capacity) :
    (resetMemory image).run p = .ok () (p.setBytes (Memory.ofImage image fits).bytes) := by
  have laid := Guarded.setPrefix_clear size fits
  generalize (Memory.ofImage image fits).bytes = bytes at laid ⊢
  rw [resetMemory, if_neg (Nat.not_lt.mpr fits), run_bind_of_ok (EStateM.run_modify ..)]
  exact copyImage_of_ok laid

/-- **A load that fails leaves the place as it was**, whatever is there. -/
theorem load_of_lt (large : Memory.capacity < image.size) (p : Place) :
    (load image).run p = .error (.refused (.tooLarge image.size Memory.capacity)) p := by
  rw [load, run_bind_of_error (resetMemory_of_lt large p)]

theorem ofMachine_ofMemory (memory : Memory) :
    ofMachine (Machine.ofMemory memory)
      = ⟨⟨memory.bytes, memory.readField Header.entryPoint, 0⟩, Frame.blank.bytes,
          Samples.silence, 0⟩ := by
  rw [ofMachine, Machine.ofMemory]
  rfl

/-- **A load that succeeds leaves the machine that was loaded**, in arrays that held anything. -/
theorem load_of_le (fits : image.size ≤ Memory.capacity)
    (bytes : p.state.core.bytes.size = Memory.capacity) (picture : p.state.picture.size = 196608) :
    (load image).run p = .ok () ⟨ofMachine (Machine.ofMemory (Memory.ofImage image fits)),
      p.journal.add ((Machine.ofMemory (Memory.ofImage image fits)).loadRecord image.size)⟩ := by
  have reset := resetMemory_of_le fits bytes
  -- any memory from here on: to compare two of them by computation would fill them
  generalize Memory.ofImage image fits = memory at reset ⊢
  rw [load, run_bind_of_ok reset, run_bind_of_ok (EStateM.run_modify ..),
    run_bind_of_ok (EStateM.run_modify ..), run_bind_of_ok (EStateM.run_modify ..),
    run_bind_of_ok (EStateM.run_modify ..), EStateM.run_modify]
  obtain ⟨⟨⟨_, _, _⟩, buffer, _, _⟩, j⟩ := p
  rw [Place.setBytes, Place.resetProcessor, Place.clearPicture, Place.clearSound, Place.clearCount,
    Place.recordLoad, Guarded.field_memory, Guarded.clear_picture picture, ofMachine_ofMemory]
  rfl

/-- A load of a machine in place is the load of the machine, with its record. -/
theorem load_ofMachine {m loaded : Machine} (done : m.load image = .ok loaded) (j : Journal) :
    (load image).run ⟨ofMachine m, j⟩
      = .ok () ⟨ofMachine loaded, j.add (loaded.loadRecord image.size)⟩ := by
  by_cases fits : image.size ≤ Memory.capacity
  · have bytes : (ofMachine m).core.bytes.size = Memory.capacity := m.memory.size_bytes
    have picture : (ofMachine m).picture.size = 196608 := by
      rw [ofMachine, Frame.size_bytes, Frame.byteCount]
    have laid := load_of_le (p := ⟨ofMachine m, j⟩) fits bytes picture
    rw [m.load_of_le fits] at done
    obtain rfl := Except.ok.inj done
    exact laid
  · rw [m.load_of_lt (Nat.not_le.mp fits)] at done
    cases done

end InPlace

/-! ## Histories -/

namespace Machine

variable {m m' : Machine} {j j' : Journal} {action : Action} {answer : Option LoadError}

theorem actionRecords_of_failsToLoad (fails : action.failsToLoad = true) (m : Machine) :
    m.actionRecords action = [] := by
  cases action with
  | load image => exact dif_neg (Nat.not_le.mpr (of_decide_eq_true fails))
  | loadFile path content =>
    cases content with
    | ok image => exact dif_neg (Nat.not_le.mpr (of_decide_eq_true fails))
    | error failure => rfl
  | tick keys => cases fails
  | runFrames n keys => cases fails

/-- **A load that fails is answered, and that is all.** -/
theorem performRecorded_of_failsToLoad (fails : action.failsToLoad = true) (m : Machine)
    (j : Journal) : ∃ e, m.performRecorded j action = .ok ((m, some e), j) := by
  obtain ⟨e, same⟩ := perform_of_failsToLoad (m := m) fails
  refine ⟨e, ?_⟩
  rw [performRecorded_eq_map, same, actionRecords_of_failsToLoad fails]
  rfl

/-- The actions that are answered with an error are the loads that fail. -/
theorem isSome_of_performRecorded (once : m.performRecorded j action = .ok ((m', answer), j')) :
    answer.isSome = action.failsToLoad := by
  rw [performRecorded_eq_map] at once
  obtain ⟨done, once, same⟩ := exists_of_map_eq_ok once
  obtain ⟨rfl, _⟩ := Prod.mk.inj same
  exact (account_perform once .nil).2

/-- **A history is the same without its failed loads**, but for their answers. -/
theorem performAllRecorded_filter (m : Machine) (j : Journal) (actions : List Action) :
    m.performAllRecorded j (actions.filter fun action => !action.failsToLoad)
      = (m.performAllRecorded j actions).map fun done =>
          ((done.1.1, done.1.2.filter Option.isNone), done.2) := by
  induction actions generalizing m j with
  | nil => rfl
  | cons action rest ih =>
    rw [List.filter_cons, performAllRecorded]
    cases fails : action.failsToLoad with
    | true =>
      obtain ⟨e, same⟩ := performRecorded_of_failsToLoad fails m j
      rw [same, Bool.not_true, if_neg Bool.false_ne_true, ih]
      show _ = ((m.performAllRecorded j rest).map _).map _
      cases m.performAllRecorded j rest <;> rfl
    | false =>
      rw [Bool.not_false, if_pos rfl, performAllRecorded]
      cases once : m.performRecorded j action with
      | error cause => rfl
      | ok done =>
        obtain ⟨⟨next, answer⟩, j'⟩ := done
        have answered := isSome_of_performRecorded once
        rw [fails, Option.isSome_eq_false_iff, Option.isNone_iff_eq_none] at answered
        obtain rfl := answered
        show (next.performAllRecorded j' _).map _ = ((next.performAllRecorded j' rest).map _).map _
        rw [ih]
        cases next.performAllRecorded j' rest <;> rfl

/-! ## One load -/

variable {image : ByteArray} {loaded : Machine}

theorem exists_load_error_iff (m : Machine) (image : ByteArray) :
    (∃ e, m.load image = .error e) ↔ Memory.capacity < image.size := by
  by_cases fits : image.size ≤ Memory.capacity
  · rw [m.load_of_le fits]
    refine ⟨?_, fun large => absurd fits (Nat.not_le.mpr large)⟩
    rintro ⟨e, refused⟩
    cases refused
  · have large := Nat.not_le.mp fits
    exact ⟨fun _ => large, fun _ => ⟨_, m.load_of_lt large⟩⟩

theorem load_eq_error {e : LoadError} (failed : m.load image = .error e) (j : Journal) :
    e = .tooLarge image.size Memory.capacity ∧
      (InPlace.load image).run ⟨Guarded.ofMachine m, j⟩
        = .error (.refused e) ⟨Guarded.ofMachine m, j⟩ ∧
      m.performRecorded j (.load image) = .ok ((m, some e), j) := by
  have large := (m.exists_load_error_iff image).mp ⟨e, failed⟩
  have same : e = .tooLarge image.size Memory.capacity :=
    Except.error.inj (failed.symm.trans (m.load_of_lt large))
  refine ⟨same, ?_, ?_⟩
  · rw [InPlace.load_of_lt large, same]
  · rw [performRecorded, loadRecorded_eq, failed]
    rfl

theorem load_eq_ok (done : m.load image = .ok loaded) (j : Journal) :
    (InPlace.load image).run ⟨Guarded.ofMachine m, j⟩
        = .ok () ⟨Guarded.ofMachine loaded, j.add (.loaded image.size loaded.core.pc)⟩ ∧
      m.performRecorded j (.load image)
        = .ok ((loaded, none), j.add (.loaded image.size loaded.core.pc)) := by
  refine ⟨InPlace.load_ofMachine done j, ?_⟩
  rw [performRecorded, loadRecorded_eq, done]
  rfl

/-! ## All that a failed load does -/

/--
**Failed loads leave no trace.**

A load fails exactly if the image is longer than memory with its margin, and says so. Done in place,
step by step, it then leaves every byte of every array as it was, the processor, the counters and the
journal too; if it succeeds, what it leaves is the machine that is loaded, and one more record. With
a file it is the same, and a file that cannot be read changes nothing either and is answered with its
path and the failure.

So the actions of a history that are answered with an error have done nothing. Without them a history
comes to the same machine and the same journal, with the other answers as they were, and it is
refused for the same cause if it is.
-/
theorem failed_loads_leave_no_trace (m : Machine) (j : Journal) :
    (∀ image, ((∃ e, m.load image = .error e) ↔ 0x1000008 < image.size) ∧
      (∀ e, m.load image = .error e → e = .tooLarge image.size 0x1000008 ∧
        (InPlace.load image).run ⟨Guarded.ofMachine m, j⟩
          = .error (.refused e) ⟨Guarded.ofMachine m, j⟩ ∧
        m.performRecorded j (.load image) = .ok ((m, some e), j)) ∧
      ∀ loaded, m.load image = .ok loaded →
        (InPlace.load image).run ⟨Guarded.ofMachine m, j⟩
          = .ok () ⟨Guarded.ofMachine loaded, j.add (.loaded image.size loaded.core.pc)⟩ ∧
        m.performRecorded j (.load image)
          = .ok ((loaded, none), j.add (.loaded image.size loaded.core.pc))) ∧
    (∀ path,
      (∀ image, m.loadFile path (.ok image) = m.load image ∧
        InPlace.loadFile path (.ok image) = InPlace.load image ∧
        m.performRecorded j (.loadFile path (.ok image)) = m.performRecorded j (.load image)) ∧
      ∀ failure, m.loadFile path (.error failure) = .error (.unreadable path failure) ∧
        (InPlace.loadFile path (.error failure)).run ⟨Guarded.ofMachine m, j⟩
          = .error (.refused (.unreadable path failure)) ⟨Guarded.ofMachine m, j⟩ ∧
        m.performRecorded j (.loadFile path (.error failure))
          = .ok ((m, some (.unreadable path failure)), j)) ∧
    (∀ action m' answer j', m.performRecorded j action = .ok ((m', answer), j') →
      answer.isSome = action.failsToLoad ∧ (action.failsToLoad = true → m' = m ∧ j' = j)) ∧
    ∀ actions : List Action,
      m.performAllRecorded j (actions.filter fun action => !action.failsToLoad)
        = (m.performAllRecorded j actions).map fun done =>
            ((done.1.1, done.1.2.filter Option.isNone), done.2) := by
  refine ⟨fun image => ⟨m.exists_load_error_iff image, fun _ failed => load_eq_error failed j,
    fun _ done => load_eq_ok done j⟩, ?_, ?_, m.performAllRecorded_filter j⟩
  · intro path
    exact ⟨fun image => ⟨rfl, rfl, rfl⟩, fun failure => ⟨rfl, rfl, rfl⟩⟩
  · intro action m' answer j' once
    refine ⟨isSome_of_performRecorded once, fun fails => ?_⟩
    obtain ⟨e, failed⟩ := performRecorded_of_failsToLoad fails m j
    obtain ⟨same, journal⟩ := Prod.mk.inj (Except.ok.inj (once.symm.trans failed))
    exact ⟨(Prod.mk.inj same).1, journal⟩

/-- Two frames, and between them an image with one byte too many and a file that is not there. -/
def interrupted : List Action :=
  [.tick Keys.all, .load (Bytes.replicate 0x1000009 0), .loadFile "rom" (.error .notFound),
    .tick Keys.empty]

/-- The longest image that is loaded and the shortest that is not, in a machine with a past; and the
two frames with the failed loads between them and without. -/
theorem failed_loads_leave_no_trace_interrupted :
    (∃ e, disturbed.load (Bytes.replicate 0x1000009 0) = .error e ∧
      e = .tooLarge 0x1000009 0x1000008 ∧
      (InPlace.load (Bytes.replicate 0x1000009 0)).run
          ⟨Guarded.ofMachine disturbed, Journal.empty .trace⟩
        = .error (.refused e) ⟨Guarded.ofMachine disturbed, Journal.empty .trace⟩) ∧
    (∃ loaded, disturbed.load (Bytes.replicate 0x1000008 0) = .ok loaded) ∧
    ∃ last answers j',
      initial.performAllRecorded (Journal.empty .trace) interrupted = .ok ((last, answers), j') ∧
      answers.map Option.isSome = [false, true, true, false] ∧
      initial.performAllRecorded (Journal.empty .trace) [.tick Keys.all, .tick Keys.empty]
          = .ok ((last, answers.filter Option.isNone), j') := by
  have size : ∀ n, (Bytes.replicate n 0).size = n := fun n => Bytes.size_replicate n 0
  obtain ⟨loads, _⟩ := failed_loads_leave_no_trace disturbed (Journal.empty .trace)
  refine ⟨?_, ?_, ?_⟩
  · obtain ⟨fails, error, _⟩ := loads (Bytes.replicate 0x1000009 0)
    obtain ⟨e, failed⟩ := fails.mpr (by rw [size]; decide)
    obtain ⟨large, place, _⟩ := error e failed
    rw [size] at large
    exact ⟨e, failed, large, place⟩
  · obtain ⟨fails, _⟩ := loads (Bytes.replicate 0x1000008 0)
    cases done : disturbed.load (Bytes.replicate 0x1000008 0) with
    | ok loaded => exact ⟨loaded, rfl⟩
    | error e => exact absurd (fails.mp ⟨e, done⟩) (by rw [size]; decide)
  · have large : (Action.load (Bytes.replicate 0x1000009 0)).failsToLoad = true :=
      decide_eq_true (by rw [size]; decide)
    have kept : interrupted.filter (fun action => !action.failsToLoad)
        = [.tick Keys.all, .tick Keys.empty] := by
      rw [interrupted, List.filter_cons, List.filter_cons, large]
      rfl
    have few : initial.frameCount.toNat + Action.totalFrames interrupted < 0x1000000000000 := by
      decide
    obtain ⟨last, answers, run⟩ := coherent_initial.exists_performAll few
    obtain ⟨j', recorded⟩ : ∃ j', initial.performAllRecorded (Journal.empty .trace) interrupted
        = .ok ((last, answers), j') := by
      rw [performAllRecorded_eq_map, run]
      exact ⟨_, rfl⟩
    obtain ⟨_, _, _, without⟩ := failed_loads_leave_no_trace initial (Journal.empty .trace)
    have without := without interrupted
    rw [recorded, kept] at without
    refine ⟨last, answers, j', recorded, ?_, without⟩
    rw [(account_transcript run).2, interrupted, List.map_cons, List.map_cons, large]
    rfl

end Machine

end ByteByteJump
