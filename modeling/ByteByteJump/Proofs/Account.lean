import ByteByteJump.Machine.Transcript
import ByteByteJump.Proofs.Reload

/-!
# What a journal says of a history

A journal is written while a machine works, but nothing of it reaches the machine: whatever its
level, the machine does what it would do without one. What a history adds to it is decided by the
history alone, and a level only drops records from that.

It is one record for a load that succeeds, nothing for one that fails, and for every frame those of
its `2 ^ 16` instructions and then its own, in which the frames since the last load are counted. A
failed load does not disturb the count.

## Main statements

* `Core.runRecorded_eq_map`, `Machine.performAllRecorded_eq_map` — a journal changes nothing, also
  where a sum is refused
* `Machine.account_transcript` — what is added follows `Account`, action by action
* `Machine.performAll_account` — histories and their journals at every level
-/

namespace ByteByteJump

/-! ## A journal changes nothing -/

namespace Core

/-- **A run does not depend on the journal**, and adds the records of its instructions. -/
theorem runRecorded_eq_map (n : Nat) (c : Core) (j : Journal) :
    runRecorded n c j
      = (run n c).map fun d => (d, j.addAll ((executed n c).map .executed)) := by
  induction n generalizing c j with
  | zero => rfl
  | succ n ih =>
    rw [runRecorded, run_succ, stepRecorded_eq]
    cases step : c.step with
    | error cause => rfl
    | ok r =>
      obtain ⟨_, _, rfl⟩ := step_eq_ok step
      exact ih c.next (j.add (.executed ⟨c.pc, c.instruction⟩))

end Core

namespace Machine

variable {m m' : Machine} {keys : Keys}

theorem tickRecorded_eq_map (m : Machine) (keys : Keys) (j : Journal) :
    m.tickRecorded keys j
      = (m.tick keys).map fun m' => (m', j.addAll (m.frameRecords keys)) := by
  have once := m.tick_eq keys
  rw [tickRecorded, Core.runFrameRecorded, Core.runRecorded_eq_map]
  show ((Core.run Core.instructionsPerFrame (m.started keys)).map _).bind _ = _
  cases run : Core.run Core.instructionsPerFrame (m.started keys) with
  | error cause =>
    rw [run] at once
    rw [once]
    rfl
  | ok core =>
    rw [run] at once
    have once : m.tick keys = finish core m.frameCount := once
    show (finish core m.frameCount).bind _ = _
    rw [once]
    cases done : finish core m.frameCount with
    | error cause => rfl
    | ok m' =>
      obtain ⟨_, _, rfl⟩ := tick_eq_ok (once.trans done)
      rw [frameRecords, Journal.addAll_append, Journal.addAll_singleton]
      rfl

theorem runFramesRecorded_eq_map (m : Machine) (n : Nat) (keys : Keys) (j : Journal) :
    m.runFramesRecorded n keys j
      = (m.runFrames n keys).map fun m' => (m', j.addAll (m.framesRecords keys n)) := by
  induction n generalizing m j with
  | zero => rfl
  | succ n ih =>
    rw [runFramesRecorded, runFrames_succ, tickRecorded_eq_map]
    cases once : m.tick keys with
    | error cause => rfl
    | ok m' =>
      obtain ⟨_, _, rfl⟩ := tick_eq_ok once
      show (m.next keys).runFramesRecorded n keys _ = _
      rw [ih, framesRecords, Journal.addAll_append]
      rfl

theorem performRecorded_eq_map (m : Machine) (j : Journal) (action : Action) :
    m.performRecorded j action
      = (m.perform action).map fun done => (done, j.addAll (m.actionRecords action)) := by
  cases action with
  | load image => exact performRecorded_load m j image
  | loadFile path content =>
    cases content with
    | ok image => exact performRecorded_load m j image
    | error failure => rfl
  | tick keys =>
    rw [performRecorded, perform, tickRecorded_eq_map, actionRecords]
    generalize m.frameRecords keys = rs
    cases m.tick keys <;> rfl
  | runFrames n keys =>
    rw [performRecorded, perform, runFramesRecorded_eq_map, actionRecords]
    generalize m.framesRecords keys n = rs
    cases m.runFrames n keys <;> rfl

/-- **A history does not depend on the journal**, also where it is refused. -/
theorem performAllRecorded_eq_map (m : Machine) (j : Journal) (actions : List Action) :
    m.performAllRecorded j actions
      = (m.performAll actions).map fun done => (done, j.addAll (m.transcript actions)) := by
  induction actions generalizing m j with
  | nil => rfl
  | cons action rest ih =>
    rw [performAllRecorded, performAll_cons, performRecorded_eq_map, transcript]
    cases m.perform action with
    | error cause => rfl
    | ok done =>
      show (done.1.performAllRecorded (j.addAll (m.actionRecords action)) rest).map _ = _
      rw [ih, Journal.addAll_append]
      show ((done.1.performAll rest).map _).map _ = ((done.1.performAll rest).map _).map _
      cases done.1.performAll rest <;> rfl

end Machine

/-! ## What a history adds -/

namespace Action

/-- The number of frames that an action runs. -/
def frames : Action → Nat
  | load _ => 0
  | loadFile _ _ => 0
  | tick _ => 1
  | runFrames n _ => n

/-- The number of frames that a list of actions runs. -/
def totalFrames : List Action → Nat
  | [] => 0
  | action :: rest => action.frames + totalFrames rest

end Action

/-- The number in the record of a frame. -/
def Record.frameNumber? : Record → Option Nat
  | .loaded .. => none
  | .frameDone number .. => some number.toNat
  | .executed _ => none

/-- The records of actions, the last of which was frame number `n` since the last load. -/
inductive Account : Nat → List Action → List Record → Prop where
  | nil {n : Nat} : Account n [] []
  /-- A load that succeeds: the length of the image and the address in its header. The count starts
  anew. -/
  | loaded {n : Nat} {action : Action} {image : ByteArray} {entry : UInt32} {rest : List Action}
      {rs : List Record} (loads : action.loaded? = some image)
      (header : entry.toNat = (Bytes.get image 2).toNat * 65536
        + (Bytes.get image 3).toNat * 256 + (Bytes.get image 4).toNat)
      (others : Account 0 rest rs) : Account n (action :: rest) (.loaded image.size entry :: rs)
  /-- A load that fails: nothing, and the count goes on. -/
  | failed {n : Nat} {action : Action} {rest : List Action} {rs : List Record}
      (fails : action.failsToLoad = true) (others : Account n rest rs) :
      Account n (action :: rest) rs
  /-- A frame: its instructions, and then the frame itself with the next number. -/
  | tick {n : Nat} {keys : Keys} {es : List Executed} {number : UInt64} {pc video audio : UInt32}
      {rest : List Action} {rs : List Record} (whole : es.length = 65536)
      (next : number.toNat = n + 1) (others : Account (n + 1) rest rs) :
      Account n (.tick keys :: rest)
        (es.map .executed ++ .frameDone number pc video audio :: rs)
  | noFrames {n : Nat} {keys : Keys} {rest : List Action} {rs : List Record}
      (others : Account n rest rs) : Account n (.runFrames 0 keys :: rest) rs
  /-- Frames with the same keys held are ticks. -/
  | frames {n k : Nat} {keys : Keys} {rest : List Action} {rs : List Record}
      (ticks : Account n (.tick keys :: .runFrames k keys :: rest) rs) :
      Account n (.runFrames (k + 1) keys :: rest) rs

namespace Action

theorem frameNumbers_of_loaded {action : Action} {image : ByteArray}
    (loads : action.loaded? = some image) (n : Nat) (rest : List Action) :
    frameNumbers n (action :: rest) = frameNumbers 0 rest := by
  cases action with
  | load image' => rw [frameNumbers, loads]; rfl
  | loadFile path content => rw [frameNumbers, loads]; rfl
  | tick keys => cases loads
  | runFrames k keys => cases loads

theorem loaded?_of_failsToLoad {action : Action} (fails : action.failsToLoad = true) :
    action.loaded? = none := by
  cases action with
  | load image => exact if_neg (Nat.not_le.mpr (of_decide_eq_true fails))
  | loadFile path content =>
    cases content with
    | ok image => exact if_neg (Nat.not_le.mpr (of_decide_eq_true fails))
    | error failure => rfl
  | tick keys => rfl
  | runFrames k keys => rfl

theorem frameNumbers_of_failsToLoad {action : Action} (fails : action.failsToLoad = true) (n : Nat)
    (rest : List Action) : frameNumbers n (action :: rest) = frameNumbers n rest := by
  have none := loaded?_of_failsToLoad fails
  cases action with
  | load image => rw [frameNumbers, none]; rfl
  | loadFile path content => rw [frameNumbers, none]; rfl
  | tick keys => cases fails
  | runFrames k keys => cases fails

theorem frameNumbers_runFrames_succ (n k : Nat) (keys : Keys) (rest : List Action) :
    frameNumbers n (.runFrames (k + 1) keys :: rest)
      = frameNumbers n (.tick keys :: .runFrames k keys :: rest) := by
  have shift : ((n + 1 + ·) ∘ Nat.succ) = (n + 1 + 1 + ·) := by
    funext i
    show n + 1 + (i + 1) = n + 1 + 1 + i
    omega
  have behind : n + (k + 1) = n + 1 + k := by omega
  rw [frameNumbers, frameNumbers, frameNumbers, List.range_succ_eq_map, List.map_cons,
    List.map_map, shift, behind]
  rfl

end Action

/-- **Frames are numbered from the last load that succeeded.** -/
theorem Account.frameNumbers_eq {n : Nat} {actions : List Action} {rs : List Record}
    (h : Account n actions rs) :
    rs.filterMap Record.frameNumber? = Action.frameNumbers n actions := by
  have none : ∀ es : List Executed,
      (es.map Record.executed).filterMap Record.frameNumber? = [] := by
    intro es
    rw [List.filterMap_map]
    exact List.filterMap_eq_nil_iff.mpr fun e _ => rfl
  induction h with
  | nil => rfl
  | loaded loads header others ih =>
    rw [Action.frameNumbers_of_loaded loads, ← ih]
    rfl
  | failed fails others ih => rw [Action.frameNumbers_of_failsToLoad fails, ih]
  | tick whole next others ih =>
    rw [List.filterMap_append, none, Action.frameNumbers, ← ih, ← next]
    rfl
  | noFrames others ih => exact ih
  | frames ticks ih => rw [Action.frameNumbers_runFrames_succ, ih]

namespace Machine

variable {m m' last : Machine} {keys : Keys}

/-! ## Histories -/

section Rules

variable {action : Action} {rest : List Action} {rs : List Record} {answer : Option LoadError}

theorem account_tick (once : m.tick keys = .ok m') (others : Account m'.frameCount.toNat rest rs) :
    Account m.frameCount.toNat (.tick keys :: rest) (m.frameRecords keys ++ rs) := by
  obtain ⟨_, frames, rfl⟩ := tick_eq_ok once
  have next := toNat_next_frameCount keys frames
  have whole : (m.executed keys).length = 65536 := Core.length_executed _ _
  rw [next] at others
  rw [frameRecords, List.append_assoc]
  exact .tick whole next others

theorem account_runFrames {n : Nat} (run : m.runFrames n keys = .ok m')
    (others : Account m'.frameCount.toNat rest rs) :
    Account m.frameCount.toNat (.runFrames n keys :: rest) (m.framesRecords keys n ++ rs) := by
  induction n generalizing m with
  | zero =>
    obtain rfl : m = m' := Except.ok.inj run
    exact .noFrames others
  | succ n ih =>
    rw [runFrames_succ] at run
    obtain ⟨first, once, run⟩ := exists_of_bind_eq_ok run
    obtain ⟨_, _, rfl⟩ := tick_eq_ok once
    rw [framesRecords, List.append_assoc]
    exact .frames (account_tick once (ih run))

/-- The record of an image that is loaded has the address in its header. -/
theorem account_loaded {n : Nat} {image : ByteArray} (loads : action.loaded? = some image)
    (fits : image.size ≤ Memory.capacity) (others : Account 0 rest rs) :
    Account n (action :: rest) (loadRecords image ++ rs) := by
  rw [loadRecords, dif_pos fits]
  exact .loaded loads (fresh_ofMemory fits).pc others

/-- A load, from memory or from a file, with its answer. -/
theorem account_load {image : ByteArray} (same : m.orElse (m.load image) = (m', answer))
    (loads : action.loaded? = if image.size ≤ Memory.capacity then some image else none)
    (fails : action.failsToLoad = decide (Memory.capacity < image.size))
    (others : Account m'.frameCount.toNat rest rs) :
    Account m.frameCount.toNat (action :: rest) (loadRecords image ++ rs) ∧
      answer.isSome = action.failsToLoad := by
  by_cases fits : image.size ≤ Memory.capacity
  · rw [load_of_le m fits] at same
    obtain ⟨rfl, rfl⟩ := Prod.mk.inj same
    rw [if_pos fits] at loads
    rw [decide_eq_false (Nat.not_lt.mpr fits)] at fails
    exact ⟨account_loaded loads fits others, fails.symm⟩
  · have large := Nat.not_le.mp fits
    rw [load_of_lt m large] at same
    obtain ⟨rfl, rfl⟩ := Prod.mk.inj same
    rw [decide_eq_true large] at fails
    rw [loadRecords, dif_neg fits]
    exact ⟨.failed fails others, fails.symm⟩

/-- **What one action adds**, and whether it is answered with an error. -/
theorem account_perform (once : m.perform action = .ok (m', answer))
    (others : Account m'.frameCount.toNat rest rs) :
    Account m.frameCount.toNat (action :: rest) (m.actionRecords action ++ rs) ∧
      answer.isSome = action.failsToLoad := by
  cases action with
  | load image => exact account_load (Except.ok.inj once) rfl rfl others
  | loadFile path content =>
    cases content with
    | ok image => exact account_load (Except.ok.inj once) rfl rfl others
    | error failure =>
      obtain ⟨rfl, rfl⟩ := Prod.mk.inj (Except.ok.inj once)
      exact ⟨.failed rfl others, rfl⟩
  | tick keys =>
    obtain ⟨next, tick, same⟩ := exists_of_map_eq_ok once
    obtain ⟨rfl, rfl⟩ := Prod.mk.inj same
    exact ⟨account_tick tick others, rfl⟩
  | runFrames n keys =>
    obtain ⟨next, frames, same⟩ := exists_of_map_eq_ok once
    obtain ⟨rfl, rfl⟩ := Prod.mk.inj same
    exact ⟨account_runFrames frames others, rfl⟩

end Rules

/-- **What a history adds**, and which of its actions are answered with an error. -/
theorem account_transcript {actions : List Action} {answers : List (Option LoadError)}
    (run : m.performAll actions = .ok (last, answers)) :
    Account m.frameCount.toNat actions (m.transcript actions) ∧
      answers.map Option.isSome = actions.map Action.failsToLoad := by
  induction actions generalizing m answers with
  | nil =>
    obtain ⟨rfl, rfl⟩ := Prod.mk.inj (Except.ok.inj run)
    exact ⟨.nil, rfl⟩
  | cons action rest ih =>
    rw [performAll_cons] at run
    obtain ⟨⟨next, answer⟩, once, all⟩ := exists_of_bind_eq_ok run
    obtain ⟨⟨_, others⟩, behind, same⟩ := exists_of_map_eq_ok all
    obtain ⟨rfl, rfl⟩ := Prod.mk.inj same
    obtain ⟨account, failed⟩ := ih behind
    obtain ⟨account, fails⟩ := account_perform once account
    rw [transcript, once, List.map_cons, List.map_cons, fails, failed]
    exact ⟨account, rfl⟩

/-! ## Histories that are not refused -/

/-- One action of a history with fewer than `2 ^ 48` frames, `k` of which are still to come. -/
theorem Coherent.exists_perform {action : Action} {k : Nat} (h : m.Coherent)
    (few : m.frameCount.toNat + (action.frames + k) < 0x1000000000000) :
    ∃ m' answer, m.perform action = .ok (m', answer) ∧ m'.Coherent ∧
      m'.frameCount.toNat + k < 0x1000000000000 := by
  have load : ∀ image, (m.orElse (m.load image)).1.Coherent ∧
      (m.orElse (m.load image)).1.frameCount.toNat + k < 0x1000000000000 := by
    intro image
    exact orElse_load (motive := fun l => l.Coherent ∧ l.frameCount.toNat + k < 0x1000000000000)
      m image ⟨h, by omega⟩ fun image fits =>
        ⟨coherent_ofMemory _, show 0 + k < 0x1000000000000 by omega⟩
  cases action with
  | load image => exact ⟨_, _, rfl, load image⟩
  | loadFile path content =>
    cases content with
    | ok image => exact ⟨_, _, rfl, load image⟩
    | error failure => exact ⟨_, _, rfl, h, by omega⟩
  | tick keys =>
    rw [Action.frames] at few
    have room : m.HasRoom 1 := h.hasRoom (by omega)
    have tick := room.tick_eq keys
    refine ⟨m.next keys, none, ?_, h.tick tick, ?_⟩
    · rw [perform, tick]
      rfl
    · rw [toNat_next_frameCount keys room.frames]
      omega
  | runFrames n keys =>
    rw [Action.frames] at few
    have length : (List.replicate n keys).length = n := List.length_replicate
    have room : m.HasRoom (List.replicate n keys).length := h.hasRoom (by omega)
    have play := room.play_eq
    refine ⟨m.after (List.replicate n keys), none, ?_, ?_, ?_⟩
    · rw [perform, runFrames_eq_play, play]
      rfl
    · exact play_induction play h fun _ _ _ before once => before.tick once
    · rw [toNat_after_frameCount _ room.frames, length]
      omega

/-- **A history of fewer than `2 ^ 48` frames is not refused.** -/
theorem Coherent.exists_performAll {actions : List Action} (h : m.Coherent)
    (few : m.frameCount.toNat + Action.totalFrames actions < 0x1000000000000) :
    ∃ last answers, m.performAll actions = .ok (last, answers) := by
  induction actions generalizing m with
  | nil => exact ⟨_, _, rfl⟩
  | cons action rest ih =>
    obtain ⟨m', answer, once, coherent, few⟩ := h.exists_perform few
    obtain ⟨last, answers, run⟩ := ih coherent few
    refine ⟨last, answer :: answers, ?_⟩
    rw [performAll_cons, once]
    show (m'.performAll rest).map _ = _
    rw [run]
    rfl

/-! ## Journals -/

/--
**The journal of a history, at every level.**

There is one list of records that the history accounts for, and a journal gains the part of it that
its level keeps. The machine and the answers are the same at every level: the loads that fail are
those of images that are too large and of files that cannot be read, whatever is recorded.
-/
theorem performAll_account {actions : List Action} {answers : List (Option LoadError)}
    (run : m.performAll actions = .ok (last, answers)) :
    Account m.frameCount.toNat actions (m.transcript actions) ∧
      (m.transcript actions).filterMap Record.frameNumber?
        = Action.frameNumbers m.frameCount.toNat actions ∧
      answers.map Option.isSome = actions.map Action.failsToLoad ∧
      ∀ j : Journal, ∃ j', m.performAllRecorded j actions = .ok ((last, answers), j') ∧
        j'.level = j.level ∧
        j'.records.toList
          = j.records.toList ++ (m.transcript actions).filter (fun r => j.level.keeps r.level) ∧
        (j.level = .trace → j'.records.toList = j.records.toList ++ m.transcript actions) := by
  obtain ⟨account, failed⟩ := account_transcript run
  refine ⟨account, account.frameNumbers_eq, failed, fun j => ?_⟩
  have recorded := performAllRecorded_eq_map m j actions
  rw [run] at recorded
  exact ⟨_, recorded, j.level_addAll _, j.records_addAll _,
    fun level => Journal.records_addAll_of_trace level _⟩

/-- The count starts anew with the load that succeeds, and not with the one that fails. -/
theorem performAll_account_reloaded : ∃ actions last answers,
    actions = [.tick ⟨1⟩, .loadFile "rom" (.error .notFound), .tick ⟨2⟩,
      .load ⟨#[0, 0, 0x12, 0x34, 0x56]⟩, .runFrames 2 ⟨3⟩] ∧
    initial.performAll actions = .ok (last, answers) ∧
    answers.map Option.isSome = [false, true, false, false, false] ∧
    ∃ rs : List Record, rs.filterMap Record.frameNumber? = [1, 2, 1, 2] ∧
      ∀ level, ∃ j', initial.performAllRecorded (Journal.empty level) actions
          = .ok ((last, answers), j') ∧
        j'.records.toList = rs.filter fun r => level.keeps r.level := by
  have few : initial.frameCount.toNat + Action.totalFrames [.tick ⟨1⟩,
      .loadFile "rom" (.error .notFound), .tick ⟨2⟩, .load ⟨#[0, 0, 0x12, 0x34, 0x56]⟩,
      .runFrames 2 ⟨3⟩] < 0x1000000000000 := by decide
  obtain ⟨last, answers, run⟩ := coherent_initial.exists_performAll few
  obtain ⟨_, numbers, failed, journals⟩ := performAll_account run
  refine ⟨_, last, answers, rfl, run, failed, _, numbers, fun level => ?_⟩
  obtain ⟨j', recorded, _, records, _⟩ := journals (Journal.empty level)
  -- by a lemma: to see it by computation would run the frames
  exact ⟨j', recorded, records.trans (List.nil_append _)⟩

end Machine

end ByteByteJump
