import ByteByteJump.Keypad.Reader

/-!
# How key states are spelled

The texts that are key states, said without a reader: marks `0x`, then marks `0X`, then at most one
plus sign, then one or more digits of base 16 whose value has sixteen bits. The digits are listed.

## Main statements

* `digit?_eq_digitValue` — the listed digits are those that a reader takes for digits
* `unmarked_text` — dropping the marks of a spelling leaves its sign and its digits
-/

namespace ByteByteJump.Keys

/-! ## Digits -/

/-- The digits of base 16 with their values, the letters in either case. -/
def digitTable : List (Char × Nat) :=
  [('0', 0), ('1', 1), ('2', 2), ('3', 3), ('4', 4), ('5', 5), ('6', 6), ('7', 7), ('8', 8),
    ('9', 9), ('A', 10), ('B', 11), ('C', 12), ('D', 13), ('E', 14), ('F', 15), ('a', 10),
    ('b', 11), ('c', 12), ('d', 13), ('e', 14), ('f', 15)]

def digit? (c : Char) : Option Nat := digitTable.lookup c

theorem digit?_eq_digitValue (c : Char) : digit? c = Numeral.digitValue 16 c := by
  have ascii : ∀ n ∈ List.range 128,
      digit? (Char.ofNat n) = Numeral.digitValue 16 (Char.ofNat n) := by decide +kernel
  by_cases low : c.toNat < 128
  · have here := ascii c.toNat (List.mem_range.mpr low)
    rwa [Char.ofNat_toNat] at here
  · have unlisted : digit? c = none := by
      have listed : ∀ p ∈ digitTable, p.1.toNat < 128 := by decide
      refine List.lookup_eq_none_iff.mpr fun p hp => bne_iff_ne.mpr ?_
      rintro rfl
      exact low (listed p hp)
    have stray : Numeral.hexValue c = none := by
      simp only [Numeral.hexValue]
      rw [if_neg (by omega), if_neg (by omega), if_neg (by omega)]
    rw [unlisted, Numeral.digitValue, stray]
    rfl

/-- The number that digits stand for. A character that is no digit counts as zero. -/
def valueOf (cs : List Char) : Nat := cs.foldl (fun n c => n * 16 + (digit? c).getD 0) 0

theorem valueOf_append_singleton (cs : List Char) (c : Char) :
    valueOf (cs ++ [c]) = valueOf cs * 16 + (digit? c).getD 0 := by
  rw [valueOf, List.foldl_append]
  rfl

/-! ## Spellings -/

/-- The parts of a text that spells a number: how many marks of either kind it has, whether it has
a sign, and its digits. -/
structure Spelling where
  smallMarks : Nat
  largeMarks : Nat
  signed : Bool
  digits : List Char
  deriving DecidableEq, Repr

namespace Spelling

/-- There are digits, and nothing but digits. -/
def Valid (s : Spelling) : Prop := s.digits ≠ [] ∧ ∀ c ∈ s.digits, (digit? c).isSome = true

def numeral (s : Spelling) : List Char := (if s.signed then ['+'] else []) ++ s.digits

def text (s : Spelling) : List Char :=
  (List.replicate s.smallMarks ['0', 'x']).flatten
    ++ (List.replicate s.largeMarks ['0', 'X']).flatten ++ s.numeral

def value (s : Spelling) : Nat := valueOf s.digits

end Spelling

/-! ## Faults -/

/-- The digits behind a sign, if there is one. -/
def unsigned : List Char → List Char
  | '+' :: rest => rest
  | text => text

/-- A character that is no digit of base 16 stands at position `i`. -/
def StrayAt (text : List Char) (i : Nat) : Prop :=
  ∃ c, text[i]? = some c ∧ digit? c = none

/-- Position `i` is the first at which the number read so far has more than sixteen bits. -/
def OverflowAt (text : List Char) (i : Nat) : Prop :=
  i < text.length ∧ 0xFFFF < valueOf (text.take (i + 1)) ∧ ∀ j, j ≤ i → valueOf (text.take j) ≤ 0xFFFF

/-! ## Laws -/

private theorem dropMarks_digit {letter : Char} {c : Char} {rest : List Char}
    (h : ∀ tail, c :: rest ≠ '0' :: letter :: tail) :
    dropMarks letter (c :: rest) = c :: rest := by
  unfold dropMarks
  split
  · next d tail eq =>
    rw [List.cons.injEq] at eq
    obtain ⟨rfl, rfl⟩ := eq
    split
    · next same => exact absurd (by rw [same]) (h tail)
    · rfl
  · rfl

/-- **Dropping the marks of a spelling leaves its sign and its digits.** -/
theorem unmarked_text {s : Spelling} (valid : s.Valid) : unmarked s.text = s.numeral := by
  obtain ⟨ne, digits⟩ := valid
  have small : digit? 'x' = none := by decide
  have large : digit? 'X' = none := by decide
  have bare : ∀ letter, digit? letter = none →
      dropMarks letter s.numeral = s.numeral := by
    intro letter stray
    have noMark : ∀ tail, s.digits ≠ '0' :: letter :: tail := by
      intro tail eq
      have := digits letter (by rw [eq]; simp)
      rw [stray] at this
      exact Bool.noConfusion this
    unfold Spelling.numeral
    cases s.signed with
    | true => exact dropMarks_digit (fun tail eq => by simp at eq)
    | false =>
      show dropMarks letter s.digits = s.digits
      cases eq : s.digits with
      | nil => exact absurd eq ne
      | cons c rest => exact dropMarks_digit (fun tail same => noMark tail (eq.trans same))
  have marked : dropMarks 'x' ((List.replicate s.largeMarks ['0', 'X']).flatten ++ s.numeral)
      = (List.replicate s.largeMarks ['0', 'X']).flatten ++ s.numeral := by
    cases s.largeMarks with
    | zero => exact bare 'x' small
    | succ n =>
      rw [List.replicate_succ, List.flatten_cons]
      exact dropMarks_digit (fun tail eq => by simp at eq)
  rw [unmarked, Spelling.text, List.append_assoc, dropMarks_append marked,
    dropMarks_append (bare 'X' large)]

end ByteByteJump.Keys
