import ByteByteJump.Keypad.Spelling

/-!
# Which texts are key states

A text is a key state exactly if it is spelled as one: marks with a small letter, marks with a large
letter, at most one plus sign, and digits of base 16 whose value has sixteen bits. Dropping marks
from the front takes all of them and no digit, as no letter of a mark is one.

Of a text that is not a key state, what stands behind its marks says why. Nothing at all is one
reason, and a sign alone is another; otherwise it is the first fault from the left, and where one
character is no digit and would make the number too large, that it is no digit.

## Main statements

* `exists_marks` — what is dropped from the front of a text
* `Verdict.unique`, `verdict_readDigits` — the first fault, by its position
* `read_eq_ok_iff` — the texts that are key states
* `read_iff_spelled` — these texts with their values, and all others with their reasons
-/

namespace ByteByteJump

namespace Keys

variable {text : List Char} {i : Nat}

/-! ## Faults -/

/-- More digits do not make a number smaller. -/
theorem valueOf_le_append (xs ys : List Char) : valueOf xs ≤ valueOf (xs ++ ys) := by
  induction ys generalizing xs with
  | nil => exact Nat.le_of_eq (congrArg _ (List.append_nil xs).symm)
  | cons c rest ih =>
    have one : valueOf xs ≤ valueOf (xs ++ [c]) := by
      rw [valueOf_append_singleton]
      omega
    rw [List.append_cons]
    exact Nat.le_trans one (ih (xs ++ [c]))

theorem valueOf_take_le (cs : List Char) (i : Nat) : valueOf (cs.take i) ≤ valueOf cs := by
  have le := valueOf_le_append (cs.take i) (cs.drop i)
  rwa [List.take_append_drop] at le

/-- What reading digits from left to right comes to: the value of all of them, or the first fault. -/
inductive Verdict (text : List Char) : Except NumeralError Nat → Prop where
  | ok (digits : ∀ i, ¬StrayAt text i) (small : valueOf text ≤ 0xFFFF) :
      Verdict text (.ok (valueOf text))
  /-- A character that is no digit, and no overflow before it. -/
  | stray {i : Nat} (here : StrayAt text i) (before : ∀ j < i, ¬OverflowAt text j) :
      Verdict text (.error .invalidDigit)
  /-- An overflow, and nothing but digits up to it. -/
  | overflow {i : Nat} (here : OverflowAt text i) (before : ∀ j ≤ i, ¬StrayAt text j) :
      Verdict text (.error .tooLarge)

theorem not_overflowAt_of_le (small : valueOf text ≤ 0xFFFF) : ¬OverflowAt text i := by
  rintro ⟨_, large, _⟩
  exact Nat.not_lt.mpr (Nat.le_trans (valueOf_take_le text (i + 1)) small) large

/-- **There is at most one first fault.** -/
theorem Verdict.unique {r r' : Except NumeralError Nat} (h : Verdict text r)
    (h' : Verdict text r') : r = r' := by
  cases h with
  | ok digits small =>
    cases h' with
    | ok => rfl
    | stray here => exact absurd here (digits _)
    | overflow here => exact absurd here (not_overflowAt_of_le small)
  | @stray i here before =>
    cases h' with
    | ok digits => exact absurd here (digits _)
    | stray => rfl
    | @overflow j there ahead =>
      rcases Nat.lt_or_ge j i with lt | ge
      · exact absurd there (before j lt)
      · exact absurd here (ahead i ge)
  | @overflow j here before =>
    cases h' with
    | ok _ small => exact absurd here (not_overflowAt_of_le small)
    | @stray i there ahead =>
      rcases Nat.lt_or_ge j i with lt | ge
      · exact absurd here (ahead j lt)
      · exact absurd there (before i ge)
    | overflow => rfl

section

variable {done rest : List Char} {c : Char}

theorem valueOf_take_append_le (small : valueOf done ≤ 0xFFFF) {j : Nat}
    (hj : j ≤ done.length) : valueOf ((done ++ rest).take j) ≤ 0xFFFF := by
  rw [List.take_append_of_le_length hj]
  exact Nat.le_trans (valueOf_take_le done j) small

theorem not_overflowAt_append (small : valueOf done ≤ 0xFFFF) {j : Nat}
    (hj : j < done.length) : ¬OverflowAt (done ++ rest) j := by
  rintro ⟨_, large, _⟩
  exact Nat.not_lt.mpr (valueOf_take_append_le small hj) large

/-- The first character with which the number becomes too large. -/
theorem overflowAt_append (small : valueOf done ≤ 0xFFFF)
    (large : 0xFFFF < valueOf (done ++ [c])) :
    OverflowAt (done ++ c :: rest) done.length := by
  refine ⟨?_, ?_, fun j => valueOf_take_append_le small⟩
  · rw [List.length_append, List.length_cons]
    omega
  · rwa [List.append_cons, List.take_left' (by rw [List.length_append]; rfl)]

theorem not_strayAt_append (digits : ∀ d ∈ done, digit? d ≠ none) {j : Nat}
    (hj : j < done.length) : ¬StrayAt (done ++ rest) j := by
  rintro ⟨d, at_j, stray⟩
  rw [List.getElem?_append_left hj] at at_j
  exact digits d (List.mem_of_getElem? at_j) stray

/-- **Reading finds the first fault.** So far it has read digits whose value fits. -/
theorem verdict_readDigits (digits : ∀ d ∈ done, digit? d ≠ none)
    (small : valueOf done ≤ 0xFFFF) :
    Verdict (done ++ rest) (Numeral.readDigits 16 0xFFFF (valueOf done) rest) := by
  induction rest generalizing done with
  | nil =>
    rw [List.append_nil, Numeral.readDigits]
    refine .ok ?_ small
    rintro i ⟨c, at_i, stray⟩
    exact digits c (List.mem_of_getElem? at_i) stray
  | cons c rest ih =>
    have here : (done ++ c :: rest)[done.length]? = some c := by
      rw [List.getElem?_append_right (Nat.le_refl _), Nat.sub_self, List.getElem?_cons_zero]
    rw [Numeral.readDigits, ← digit?_eq_digitValue]
    cases value : digit? c with
    | none => exact .stray ⟨c, here, value⟩ fun j => not_overflowAt_append small
    | some d =>
      have longer : valueOf (done ++ [c]) = valueOf done * 16 + d := by
        rw [valueOf_append_singleton, value]
        rfl
      have more : ∀ e ∈ done ++ [c], digit? e ≠ none := by
        intro e he
        rcases List.mem_append.mp he with before | last
        · exact digits e before
        · rw [List.mem_singleton.mp last, value]
          exact Option.some_ne_none d
      simp only
      rw [← longer]
      by_cases le : valueOf (done ++ [c]) ≤ 0xFFFF
      · rw [if_pos le, List.append_cons]
        exact ih more le
      · rw [if_neg le]
        refine .overflow (overflowAt_append small (Nat.lt_of_not_le le)) fun j hj => ?_
        rw [List.append_cons]
        refine not_strayAt_append more ?_
        rw [List.length_append]
        exact Nat.lt_succ_of_le hj

end

/-! ## Numerals -/

/-- Behind its marks a text is nothing, a lone sign, or digits with at most one sign. -/
theorem numeralRead_eq (r : List Char) :
    Numeral.read 16 0xFFFF r = if r = [] then .error .empty
      else if r = ['+'] then .error .invalidDigit
      else Numeral.readDigits 16 0xFFFF 0 (unsigned r) := by
  unfold Numeral.read
  split
  · rfl
  · rfl
  · next rest lone =>
    rw [if_neg (List.cons_ne_nil _ _), if_neg fun same => lone (List.cons.inj same).2]
    rfl
  · next empty lone signed =>
    rw [if_neg empty, if_neg lone]
    unfold unsigned
    split
    · next rest => exact absurd rfl (signed rest)
    · rfl

/-- **Reading a numeral finds the first fault**, where there is more than a plus sign to read. -/
theorem numeralRead_eq_iff {r : List Char} (some : r ≠ []) (more : r ≠ ['+'])
    {result : Except NumeralError Nat} :
    Numeral.read 16 0xFFFF r = result ↔ Verdict (unsigned r) result := by
  have verdict : Verdict (unsigned r) (Numeral.readDigits 16 0xFFFF 0 (unsigned r)) :=
    @verdict_readDigits [] (unsigned r) (fun _ none => nomatch none) (Nat.zero_le _)
  rw [numeralRead_eq, if_neg some, if_neg more]
  exact ⟨fun same => same ▸ verdict, verdict.unique⟩

theorem numeralRead_eq_ok_iff {r : List Char} {n : Nat} :
    Numeral.read 16 0xFFFF r = .ok n ↔ r ≠ [] ∧ r ≠ ['+'] ∧ (∀ i, ¬StrayAt (unsigned r) i) ∧
      valueOf (unsigned r) = n ∧ n ≤ 0xFFFF := by
  by_cases empty : r = []
  · subst empty
    exact ⟨nofun, fun h => absurd rfl h.1⟩
  · by_cases lone : r = ['+']
    · subst lone
      exact ⟨nofun, fun h => absurd rfl h.2.1⟩
    · rw [numeralRead_eq_iff empty lone]
      constructor
      · intro verdict
        cases verdict with
        | ok digits small => exact ⟨empty, lone, digits, rfl, small⟩
      · rintro ⟨_, _, digits, rfl, small⟩
        exact .ok digits small

theorem numeralRead_eq_invalidDigit_iff {r : List Char} :
    Numeral.read 16 0xFFFF r = .error .invalidDigit ↔ r = ['+'] ∨ r = ['-'] ∨
      ∃ i, StrayAt (unsigned r) i ∧ ∀ j < i, ¬OverflowAt (unsigned r) j := by
  by_cases empty : r = []
  · subst empty
    refine ⟨nofun, ?_⟩
    rintro (same | same | ⟨i, ⟨c, none, _⟩, _⟩)
    · cases same
    · cases same
    · cases none
  · by_cases lone : r = ['+']
    · subst lone
      exact ⟨fun _ => .inl rfl, fun _ => rfl⟩
    · constructor
      · intro read
        cases (numeralRead_eq_iff empty lone).mp read with
        | @stray i here before => exact .inr (.inr ⟨i, here, before⟩)
      · rintro (plus | rfl | ⟨i, here, before⟩)
        · exact absurd plus lone
        · rfl
        · exact (numeralRead_eq_iff empty lone).mpr (.stray here before)

theorem numeralRead_eq_tooLarge_iff {r : List Char} :
    Numeral.read 16 0xFFFF r = .error .tooLarge ↔
      ∃ i, OverflowAt (unsigned r) i ∧ ∀ j ≤ i, ¬StrayAt (unsigned r) j := by
  by_cases empty : r = []
  · subst empty
    exact ⟨nofun, fun ⟨i, ⟨inside, _⟩, _⟩ => absurd inside (Nat.not_lt_zero i)⟩
  · by_cases lone : r = ['+']
    · subst lone
      exact ⟨nofun, fun ⟨i, ⟨inside, _⟩, _⟩ => absurd inside (Nat.not_lt_zero i)⟩
    · rw [numeralRead_eq_iff empty lone]
      constructor
      · intro verdict
        cases verdict with
        | @overflow i here before => exact ⟨i, here, before⟩
      · rintro ⟨i, here, before⟩
        exact .overflow here before

/-! ## Marks -/

/-- **What is dropped are marks, and all of them.** -/
theorem exists_marks (letter : Char) (text : List Char) :
    ∃ n, text = (List.replicate n ['0', letter]).flatten ++ dropMarks letter text ∧
      ¬['0', letter] <+: dropMarks letter text := by
  fun_induction dropMarks letter text with
  | case1 rest ih =>
    obtain ⟨n, same, bare⟩ := ih
    refine ⟨n + 1, ?_, bare⟩
    rw [List.replicate_succ, List.flatten_cons, List.append_assoc, ← same]
    rfl
  | case2 c rest other =>
    refine ⟨0, rfl, ?_⟩
    rintro ⟨tail, same⟩
    simp only [List.cons_append, List.cons.injEq] at same
    exact other same.2.1.symm
  | case3 text short =>
    refine ⟨0, rfl, ?_⟩
    rintro ⟨tail, same⟩
    exact short letter tail same.symm

theorem count_marks (letter c : Char) (n : Nat) (other : c ≠ '0') :
    ((List.replicate n ['0', letter]).flatten).count c = if c = letter then n else 0 := by
  induction n with
  | zero => simp
  | succ n ih =>
    rw [List.replicate_succ, List.flatten_cons, List.count_append, ih, List.count_cons_of_ne other.symm,
      List.count_singleton]
    by_cases same : c = letter
    · rw [if_pos same, if_pos same, if_pos (beq_iff_eq.mpr same.symm), Nat.add_comm]
    · rw [if_neg same, if_neg same, if_neg fun eq => same (beq_iff_eq.mp eq).symm]

/-! ## Spellings -/

theorem forall_not_strayAt_iff :
    (∀ i, ¬StrayAt text i) ↔ ∀ c ∈ text, (digit? c).isSome = true := by
  constructor
  · intro plain c mem
    obtain ⟨i, hi, rfl⟩ := List.getElem_of_mem mem
    refine Option.isSome_iff_ne_none.mpr fun stray => plain i ⟨_, List.getElem?_eq_getElem hi, stray⟩
  · rintro digits i ⟨c, at_i, stray⟩
    exact Option.isSome_iff_ne_none.mp (digits c (List.mem_of_getElem? at_i)) stray

theorem exists_sign (r : List Char) :
    ∃ signed : Bool, (if signed then ['+'] else []) ++ unsigned r = r := by
  unfold unsigned
  split
  · exact ⟨true, rfl⟩
  · exact ⟨false, rfl⟩

namespace Spelling

variable {sp sp' : Spelling}

theorem Valid.not_mem_digits (valid : sp.Valid) {c : Char} (stray : digit? c = none) :
    c ∉ sp.digits := by
  intro mem
  have digit := valid.2 c mem
  rw [stray] at digit
  cases digit

/-- A sign is no digit, so what follows it can be told from it. -/
theorem Valid.unsigned_numeral (valid : sp.Valid) : unsigned sp.numeral = sp.digits := by
  have plus := valid.not_mem_digits (show digit? '+' = none by decide)
  unfold numeral
  cases sp.signed with
  | true => rfl
  | false =>
    show unsigned sp.digits = sp.digits
    unfold unsigned
    split
    · next rest same => exact absurd (same ▸ List.mem_cons_self) plus
    · rfl

theorem Valid.numeral_ne (valid : sp.Valid) : sp.numeral ≠ [] ∧ sp.numeral ≠ ['+'] := by
  have digits := valid.unsigned_numeral
  refine ⟨fun nil => valid.1 ?_, fun lone => valid.1 ?_⟩
  · rw [← digits, nil]
    rfl
  · rw [← digits, lone]
    rfl

theorem Valid.count_numeral (valid : sp.Valid) {c : Char} (stray : digit? c = none)
    (other : c ≠ '+') : sp.numeral.count c = 0 := by
  refine List.count_eq_zero.mpr fun mem => ?_
  unfold numeral at mem
  rcases List.mem_append.mp mem with sign | digit
  · cases signed : sp.signed with
    | true =>
      rw [signed] at sign
      exact other (List.mem_singleton.mp sign)
    | false =>
      rw [signed] at sign
      cases sign
  · exact valid.not_mem_digits stray digit

/-- The letters of the marks count them. -/
theorem Valid.count_text (valid : sp.Valid) :
    sp.text.count 'x' = sp.smallMarks ∧ sp.text.count 'X' = sp.largeMarks := by
  refine ⟨?_, ?_⟩
  · rw [text, List.count_append, List.count_append, count_marks _ _ _ (by decide),
      count_marks _ _ _ (by decide), valid.count_numeral (by decide) (by decide), if_pos rfl,
      if_neg (by decide), Nat.add_zero]
  · rw [text, List.count_append, List.count_append, count_marks _ _ _ (by decide),
      count_marks _ _ _ (by decide), valid.count_numeral (by decide) (by decide),
      if_neg (by decide), if_pos rfl, Nat.zero_add, Nat.add_zero]

/-- **A text is spelled in one way at most.** -/
theorem Valid.eq_of_text_eq (valid : sp.Valid) (valid' : sp'.Valid) (same : sp.text = sp'.text) :
    sp = sp' := by
  obtain ⟨small, large⟩ := valid.count_text
  obtain ⟨small', large'⟩ := valid'.count_text
  have numeral : sp.numeral = sp'.numeral := by
    rw [← unmarked_text valid, ← unmarked_text valid', same]
  have digits : sp.digits = sp'.digits := by
    rw [← valid.unsigned_numeral, ← valid'.unsigned_numeral, numeral]
  have sign : sp.signed = sp'.signed := by
    have told : ∀ b b' : Bool,
        (if b then ['+'] else []) = (if b' then ['+'] else []) → b = b' := by decide
    unfold Spelling.numeral at numeral
    rw [digits] at numeral
    exact told _ _ (List.append_cancel_right numeral)
  rw [same, small'] at small
  rw [same, large'] at large
  show (⟨sp.smallMarks, sp.largeMarks, sp.signed, sp.digits⟩ : Spelling) = sp'
  rw [← small, ← large, sign, digits]

end Spelling

/-! ## Reading -/

theorem read_eq_ok_iff_numeral {s : String} {v : Keys} :
    read s = .ok v ↔ Numeral.read 16 0xFFFF (unmarked s.toList) = .ok v.bits.toNat := by
  unfold read
  cases numeral : Numeral.read 16 0xFFFF (unmarked s.toList) with
  | error reason => exact ⟨nofun, nofun⟩
  | ok n =>
    have small := (numeralRead_eq_ok_iff.mp numeral).2.2.2.2
    have value : (UInt16.ofNat n).toNat = n :=
      UInt16.toNat_ofNat_of_lt' (Nat.lt_succ_of_le small)
    constructor
    · intro same
      rw [← Except.ok.inj same, value]
    · intro same
      obtain rfl := Except.ok.inj same
      show Except.ok (⟨UInt16.ofNat v.bits.toNat⟩ : Keys) = .ok v
      rw [UInt16.ofNat_toNat]

theorem read_eq_error_iff {s : String} {reason : NumeralError} :
    read s = .error ⟨s, reason⟩
      ↔ Numeral.read 16 0xFFFF (unmarked s.toList) = .error reason := by
  unfold read
  cases Numeral.read 16 0xFFFF (unmarked s.toList) with
  | error other => simp
  | ok n => exact ⟨nofun, nofun⟩

/-- **A text is a key state exactly if it is spelled as one.** -/
theorem read_eq_ok_iff {s : String} {v : Keys} :
    read s = .ok v ↔
      ∃ sp : Spelling, sp.Valid ∧ sp.text = s.toList ∧ sp.value = v.bits.toNat := by
  rw [read_eq_ok_iff_numeral, numeralRead_eq_ok_iff]
  constructor
  · rintro ⟨some, more, plain, value, _⟩
    obtain ⟨small, whole, _⟩ := exists_marks 'x' s.toList
    obtain ⟨large, rest, _⟩ := exists_marks 'X' (dropMarks 'x' s.toList)
    obtain ⟨signed, sign⟩ := exists_sign (unmarked s.toList)
    refine ⟨⟨small, large, signed, unsigned (unmarked s.toList)⟩,
      ⟨fun none => ?_, forall_not_strayAt_iff.mp plain⟩, ?_, value⟩
    · rw [show unsigned (unmarked s.toList) = [] from none, List.append_nil] at sign
      cases signed with
      | true => exact more sign.symm
      | false => exact some sign.symm
    · rw [Spelling.text, Spelling.numeral, sign, List.append_assoc]
      exact (whole.trans (congrArg _ rest)).symm
  · rintro ⟨sp, valid, same, value⟩
    have numeral : unmarked s.toList = sp.numeral := by rw [← same, unmarked_text valid]
    obtain ⟨some, more⟩ := valid.numeral_ne
    have bound := v.bits.toNat_lt
    rw [numeral, valid.unsigned_numeral]
    exact ⟨some, more, forall_not_strayAt_iff.mpr valid.2, value, Nat.le_of_lt_succ bound⟩

/--
**A text is a key state, or it has a first fault.**

A text is read exactly if it is spelled as a key state, in one way only, and with the value that it
spells. Of every other text the part behind its marks is at fault: it is empty, or it is a sign
alone, or from the left, behind one plus sign, a character that is no digit comes before or with an
overflow, or an overflow comes before any such character.
-/
theorem read_iff_spelled (s : String) :
    (∀ v, read s = .ok v ↔
      ∃ sp : Spelling, sp.Valid ∧ sp.text = s.toList ∧ sp.value = v.bits.toNat) ∧
    (∀ sp sp' : Spelling, sp.Valid → sp'.Valid → sp.text = s.toList → sp'.text = s.toList →
      sp = sp') ∧
    ∃ small large r,
      s.toList = (List.replicate small ['0', 'x']).flatten
        ++ ((List.replicate large ['0', 'X']).flatten ++ r) ∧
      ¬['0', 'x'] <+: (List.replicate large ['0', 'X']).flatten ++ r ∧ ¬['0', 'X'] <+: r ∧
      (read s = .error ⟨s, .empty⟩ ↔ r = []) ∧
      (read s = .error ⟨s, .invalidDigit⟩ ↔ r = ['+'] ∨ r = ['-'] ∨
        ∃ i, StrayAt (unsigned r) i ∧ ∀ j < i, ¬OverflowAt (unsigned r) j) ∧
      (read s = .error ⟨s, .tooLarge⟩ ↔
        ∃ i, OverflowAt (unsigned r) i ∧ ∀ j ≤ i, ¬StrayAt (unsigned r) j) ∧
      ∀ e, read s = .error e → e.text = s := by
  refine ⟨fun v => read_eq_ok_iff, fun sp sp' valid valid' same same' =>
    valid.eq_of_text_eq valid' (same.trans same'.symm), ?_⟩
  obtain ⟨small, whole, noSmall⟩ := exists_marks 'x' s.toList
  obtain ⟨large, rest, noLarge⟩ := exists_marks 'X' (dropMarks 'x' s.toList)
  refine ⟨small, large, unmarked s.toList, whole.trans (congrArg _ rest), rest ▸ noSmall, noLarge,
    read_eq_error_iff.trans Numeral.read_eq_empty_iff,
    read_eq_error_iff.trans numeralRead_eq_invalidDigit_iff,
    read_eq_error_iff.trans numeralRead_eq_tooLarge_iff, fun e refused => ?_⟩
  unfold read at refused
  split at refused
  · cases refused
  · exact congrArg ReadError.text (Except.error.inj refused).symm

/-- Both kinds of marks, a sign, a zero in front, and digits of either case. -/
theorem read_iff_spelled_marked :
    Spelling.Valid ⟨1, 1, true, ['0', 'b', '7', 'E']⟩ ∧
      Spelling.text ⟨1, 1, true, ['0', 'b', '7', 'E']⟩ = "0x0X+0b7E".toList ∧
      read "0x0X+0b7E" = .ok ⟨0x0B7E⟩ ∧
      ∀ sp : Spelling, sp.Valid → sp.text = "0x0X+0b7E".toList →
        sp = ⟨1, 1, true, ['0', 'b', '7', 'E']⟩ := by
  have valid : Spelling.Valid ⟨1, 1, true, ['0', 'b', '7', 'E']⟩ :=
    ⟨by decide, List.all_eq_true.mp (by decide)⟩
  have text : Spelling.text ⟨1, 1, true, ['0', 'b', '7', 'E']⟩ = "0x0X+0b7E".toList := by rfl
  obtain ⟨spelled, unique, _⟩ := read_iff_spelled "0x0X+0b7E"
  exact ⟨valid, text, (spelled ⟨0x0B7E⟩).mpr ⟨_, valid, text, by decide⟩,
    fun sp valid' text' => unique sp _ valid' valid text' text⟩

-- At one character that it is no digit comes first, and marks in the other order are no marks.
example : read "ffffg" = .error ⟨"ffffg", .invalidDigit⟩ ∧
    read "10000g" = .error ⟨"10000g", .tooLarge⟩ ∧
    read "0X0x1" = .error ⟨"0X0x1", .invalidDigit⟩ := ⟨by rfl, by rfl, by rfl⟩

end Keys

end ByteByteJump
