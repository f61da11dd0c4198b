import ByteByteJump.Numeral
import ByteByteJump.Processor

/-!
# The journal

A machine can keep a journal of what it does: a record when an image is loaded, when a frame is
done and when an instruction is executed. Every record has a level; a journal keeps those that are
at least as important as its own level and drops the others at once.

`records_add` says what a journal keeps, and `level_add` that its level stays.
-/

namespace ByteByteJump

/-- How important a record is. A journal at `off` keeps nothing, one at `trace` everything. -/
inductive Level where
  | off
  | error
  | warn
  | info
  | debug
  | trace
  deriving DecidableEq, Repr

namespace Level

/-- How much a journal at a level keeps. -/
def verbosity : Level → Nat
  | off => 0
  | error => 1
  | warn => 2
  | info => 3
  | debug => 4
  | trace => 5

/-- Whether a journal at a level keeps records of another one. -/
def keeps (journal record : Level) : Bool := record.verbosity ≤ journal.verbosity

@[simp] theorem keeps_trace (record : Level) : trace.keeps record = true := by
  cases record <;> rfl

def name : Level → String
  | off => "OFF"
  | error => "ERROR"
  | warn => "WARN"
  | info => "INFO"
  | debug => "DEBUG"
  | trace => "TRACE"

end Level

/-- Something that a machine did. -/
inductive Record where
  | loaded (length : Nat) (entry : UInt32)
  | frameDone (number : UInt64) (pc videoPage audioPage : UInt32)
  | executed (e : Executed)
  deriving DecidableEq, Repr

namespace Record

/-- The level of a record. -/
def level : Record → Level
  | loaded .. => .info
  | frameDone .. => .debug
  | executed _ => .trace

/-- An address with at least six digits. -/
def address (a : UInt32) : String := Numeral.hex 6 a.toNat

/-- The text of a record, without its level. -/
def message : Record → String
  | loaded length entry =>
    "loaded " ++ Numeral.decimal length ++ " byte program image, entry point 0x" ++ address entry
  | frameDone number pc videoPage audioPage =>
    "frame " ++ Numeral.decimal number.toNat ++ " done, pc 0x" ++ address pc
      ++ ", video page 0x" ++ address videoPage ++ ", audio page 0x" ++ address audioPage
  | executed ⟨pc, inst⟩ =>
    address pc ++ ": [" ++ address inst.source ++ "] -> [" ++ address inst.dest ++ "], next "
      ++ address inst.next

def text (r : Record) : String := r.level.name ++ " " ++ r.message

end Record

/-- The records that were kept, the oldest first. -/
structure Journal where
  level : Level
  records : Array Record

namespace Journal

def empty (level : Level) : Journal := ⟨level, #[]⟩

@[inline] def add (j : Journal) (r : Record) : Journal :=
  if j.level.keeps r.level then
    -- taken apart first, so that the array of records grows in place
    let ⟨level, records⟩ := j
    ⟨level, records.push r⟩
  else j

@[simp] theorem level_add (j : Journal) (r : Record) : (j.add r).level = j.level := by
  rw [add]
  split <;> rfl

/-- **A record is kept exactly if it is important enough.** -/
theorem records_add (j : Journal) (r : Record) :
    (j.add r).records.toList = j.records.toList ++ [r].filter fun r => j.level.keeps r.level := by
  rw [add]
  cases h : j.level.keeps r.level with
  | true => simp [h]
  | false => simp [h]

/-- A journal that keeps a list of records one after the other. -/
def addAll (j : Journal) (rs : List Record) : Journal := rs.foldl add j

@[simp] theorem addAll_singleton (j : Journal) (r : Record) : j.addAll [r] = j.add r := rfl

theorem addAll_append (j : Journal) (rs qs : List Record) :
    j.addAll (rs ++ qs) = (j.addAll rs).addAll qs := List.foldl_append ..

theorem level_addAll (j : Journal) (rs : List Record) : (j.addAll rs).level = j.level := by
  induction rs generalizing j with
  | nil => rfl
  | cons r rest ih => exact (ih (j.add r)).trans (level_add j r)

/-- What a journal keeps of a list of records is the part that is important enough, in order. -/
theorem records_addAll (j : Journal) (rs : List Record) :
    (j.addAll rs).records.toList
      = j.records.toList ++ rs.filter fun r => j.level.keeps r.level := by
  induction rs generalizing j with
  | nil => simp [addAll]
  | cons r rest ih =>
    show ((j.add r).addAll rest).records.toList = _
    rw [ih, records_add, level_add, List.append_assoc, ← List.filter_append, List.singleton_append]

theorem records_addAll_of_trace {j : Journal} (level : j.level = .trace) (rs : List Record) :
    (j.addAll rs).records.toList = j.records.toList ++ rs := by
  rw [records_addAll, level]
  exact congrArg _ (List.filter_eq_self.mpr fun r _ => Level.keeps_trace r.level)

end Journal

end ByteByteJump
