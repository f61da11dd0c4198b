import ByteByteJump.Keypad.Basic
import ByteByteJump.Text.Quoted

/-!
# Key states as numerals

On the command line a key state is a number of up to sixteen bits in base sixteen. It may be marked
as such: any number of marks `0x`, then any number of marks `0X`, stand in front of it.
-/

namespace ByteByteJump.Keys

/-- Drops all marks with a given letter from the front. -/
def dropMarks (letter : Char) : List Char → List Char
  | '0' :: c :: rest => if c = letter then dropMarks letter rest else '0' :: c :: rest
  | text => text

def unmarked (text : List Char) : List Char := dropMarks 'X' (dropMarks 'x' text)

/-- A text that is not a key state, and what is wrong with the number in it. -/
structure ReadError where
  text : String
  reason : NumeralError
  deriving DecidableEq, Repr

def ReadError.message (e : ReadError) : String :=
  "invalid key state " ++ Text.Quoted.encode e.text ++ ": " ++ e.reason.message

/-- Reads a key state. -/
def read (text : String) : Except ReadError Keys :=
  match Numeral.read 16 0xFFFF (unmarked text.toList) with
  | .ok n => .ok ⟨UInt16.ofNat n⟩
  | .error reason => .error ⟨text, reason⟩

/-! ## Marks -/

theorem dropMarks_mark (letter : Char) (rest : List Char) :
    dropMarks letter ('0' :: letter :: rest) = dropMarks letter rest := by
  rw [dropMarks, if_pos rfl]

/-- **Marks in front of a text without marks are what is dropped.** -/
theorem dropMarks_append {letter : Char} {text : List Char}
    (bare : dropMarks letter text = text) (n : Nat) :
    dropMarks letter ((List.replicate n ['0', letter]).flatten ++ text) = text := by
  induction n with
  | zero => exact bare
  | succ n ih =>
    rw [List.replicate_succ, List.flatten_cons]
    show dropMarks letter ('0' :: letter :: ((List.replicate n ['0', letter]).flatten ++ text)) = _
    rw [dropMarks_mark, ih]

end ByteByteJump.Keys
