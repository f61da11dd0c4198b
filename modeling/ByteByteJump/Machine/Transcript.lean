import ByteByteJump.Machine.History

/-!
# What a history writes into the journal

A history is performed with a journal, which it adds its records to. Beside that stands the rule
for what it adds: nothing for a load that fails, one record for a load that succeeds, and for a
frame the records of its instructions and then one of its own.
-/

namespace ByteByteJump

/-- The numbers of the frames of a history, the last frame before it having had number `n`. A load
that succeeds starts the count anew. -/
def Action.frameNumbers : Nat → List Action → List Nat
  | _, [] => []
  | n, .tick _ :: rest => (n + 1) :: frameNumbers (n + 1) rest
  | n, .runFrames k _ :: rest => (List.range k).map (n + 1 + ·) ++ frameNumbers (n + k) rest
  | n, .load image :: rest =>
    frameNumbers (if (Action.load image).loaded?.isSome then 0 else n) rest
  | n, .loadFile path content :: rest =>
    frameNumbers (if (Action.loadFile path content).loaded?.isSome then 0 else n) rest

namespace Machine

/-! ## Performing with a journal -/

/-- A machine and its journal after an attempt to load an image: as they were if the attempt
failed, together with the error. -/
def orElseRecorded (m : Machine) (j : Journal) :
    Except LoadError (Machine × Journal) → (Machine × Option LoadError) × Journal
  | .ok (loaded, j) => ((loaded, none), j)
  | .error e => ((m, some e), j)

def performRecorded (m : Machine) (j : Journal) :
    Action → Except Overflow ((Machine × Option LoadError) × Journal)
  | .load image => .ok (m.orElseRecorded j (m.loadRecorded image j))
  | .loadFile path content => .ok (m.orElseRecorded j (m.loadFileRecorded path content j))
  | .tick keys => (m.tickRecorded keys j).map fun done => ((done.1, none), done.2)
  | .runFrames n keys => (m.runFramesRecorded n keys j).map fun done => ((done.1, none), done.2)

def performAllRecorded (m : Machine) (j : Journal) :
    List Action → Except Overflow ((Machine × List (Option LoadError)) × Journal)
  | [] => .ok ((m, []), j)
  | action :: rest =>
    (m.performRecorded j action).bind fun done =>
      (done.1.1.performAllRecorded done.2 rest).map fun all =>
        ((all.1.1, done.1.2 :: all.1.2), all.2)

/-! ## The rule -/

/-- The records of a frame: its instructions in order, then the frame itself. -/
def frameRecords (m : Machine) (keys : Keys) : List Record :=
  (m.executed keys).map .executed ++ [(m.next keys).frameRecord]

def framesRecords (m : Machine) (keys : Keys) : Nat → List Record
  | 0 => []
  | n + 1 => m.frameRecords keys ++ (m.next keys).framesRecords keys n

/-- The records of an attempt to load an image: one if it fits. -/
def loadRecords (image : ByteArray) : List Record :=
  if fits : image.size ≤ Memory.capacity then
    [(ofMemory (Memory.ofImage image fits)).loadRecord image.size]
  else []

def actionRecords (m : Machine) : Action → List Record
  | .load image => loadRecords image
  | .loadFile _ (.ok image) => loadRecords image
  | .loadFile _ (.error _) => []
  | .tick keys => m.frameRecords keys
  | .runFrames n keys => m.framesRecords keys n

/-- The records of a list of actions, as far as no sum is refused. -/
def transcript (m : Machine) : List Action → List Record
  | [] => []
  | action :: rest =>
    m.actionRecords action ++
      match m.perform action with
      | .ok done => done.1.transcript rest
      | .error _ => []

/-- **A recorded load does what the load does**, and adds the records of the rule. -/
theorem performRecorded_load (m : Machine) (j : Journal) (image : ByteArray) :
    m.performRecorded j (.load image) = (m.perform (.load image)).map fun done =>
      (done, j.addAll (m.actionRecords (.load image))) := by
  by_cases fits : image.size ≤ Memory.capacity
  · rw [performRecorded, perform, loadRecorded_eq, load_of_le m fits, actionRecords, loadRecords,
      dif_pos fits]
    rfl
  · rw [performRecorded, perform, loadRecorded_eq, load_of_lt m (Nat.not_le.mp fits), actionRecords,
      loadRecords, dif_neg fits]
    rfl

end Machine

end ByteByteJump
