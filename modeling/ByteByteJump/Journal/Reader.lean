import ByteByteJump.Journal

/-!
# Reading records back

The line that records an executed instruction has its four addresses in upper-case digits of base
16, at least six of them, with fixed texts between.

## Main statements

* `readAddress_address` — an address is read back from in front of a text without digits
* `ofText?_text` — the line of an executed instruction is read back, so it determines all four
  addresses
-/

namespace ByteByteJump

namespace Record

/-- Whether a character is an upper-case digit of base 16. -/
def isDigit (c : Char) : Bool := ('0' ≤ c && c ≤ '9') || ('A' ≤ c && c ≤ 'F')

/-- An address at the front of a text, and the text behind it. All digits belong to the address. -/
def readAddress (cs : List Char) : Option (UInt32 × List Char) :=
  match Numeral.readDigits 16 (0xFFFFFFFF) 0 (cs.takeWhile isDigit) with
  | .ok n => some (UInt32.ofNat n, cs.dropWhile isDigit)
  | .error _ => none

/-- What is behind some characters at the front of a text. -/
def behind : List Char → List Char → Option (List Char)
  | [], cs => some cs
  | _ :: _, [] => none
  | f :: fixed, c :: cs => if f = c then behind fixed cs else none

/-- What is behind a fixed text at the front of a text. -/
def skip (fixed : String) (cs : List Char) : Option (List Char) := behind fixed.toList cs

theorem skip_append (fixed : String) (cs : List Char) :
    skip fixed (fixed.toList ++ cs) = some cs := by
  rw [skip]
  induction fixed.toList with
  | nil => rfl
  | cons c rest ih => rw [List.cons_append, behind, if_pos rfl, ih]

theorem isDigit_digitChar {d : Nat} (h : d < 16) : isDigit (Numeral.digitChar d) = true := by
  have all : ∀ e ∈ List.range 16, isDigit (Numeral.digitChar e) = true := by decide
  exact all d (List.mem_range.mpr h)

theorem isDigit_of_mem_digits {n : Nat} {c : Char} (h : c ∈ Numeral.digits 16 n) :
    isDigit c = true := by
  induction n using Nat.strongRecOn with
  | _ n ih =>
    by_cases hn : n < 16
    · rw [Numeral.digits_of_lt hn, List.mem_singleton] at h
      rw [h, isDigit_digitChar hn]
    · rw [Numeral.digits_of_le (by decide) (Nat.not_lt.mp hn), List.mem_append] at h
      rcases h with h | h
      · exact ih (n / 16) (by omega) h
      · rw [List.mem_singleton.mp h, isDigit_digitChar (by omega)]

/-- **An address is read back** from in front of a text that starts with no digit. -/
theorem readAddress_address (a : UInt32) {rest : List Char} (bare : rest.takeWhile isDigit = []) :
    readAddress ((address a).toList ++ rest) = some (a, rest) := by
  have all : ∀ c ∈ Numeral.padded 16 6 a.toNat, isDigit c = true := by
    intro c h
    rw [Numeral.padded, List.mem_append] at h
    rcases h with h | h
    · rw [(List.mem_replicate.mp h).2]; decide
    · exact isDigit_of_mem_digits h
  have small : a.toNat ≤ 0xFFFFFFFF := Nat.le_sub_one_of_lt a.toNat_lt
  have same : rest.dropWhile isDigit = rest := by
    have whole := List.takeWhile_append_dropWhile (p := isDigit) (l := rest)
    rwa [bare, List.nil_append] at whole
  rw [readAddress, address, Numeral.hex, String.toList_ofList, List.takeWhile_append_of_pos all,
    List.dropWhile_append_of_pos all, bare, same, List.append_nil,
    Numeral.readDigits_padded (by decide) (by decide) 6 small]
  simp only [UInt32.ofNat_toNat]

end Record

namespace Executed

/-- The executed instruction that a line of a journal records. -/
def ofText? (line : String) : Option Executed := do
  let cs ← Record.skip "TRACE " line.toList
  let (pc, cs) ← Record.readAddress cs
  let cs ← Record.skip ": [" cs
  let (source, cs) ← Record.readAddress cs
  let cs ← Record.skip "] -> [" cs
  let (dest, cs) ← Record.readAddress cs
  let cs ← Record.skip "], next " cs
  let (next, cs) ← Record.readAddress cs
  if cs.isEmpty then some ⟨pc, ⟨source, dest, next⟩⟩ else none

/-- **The line of an executed instruction is read back**, so it determines all four addresses. -/
theorem ofText?_text (e : Executed) : ofText? (Record.executed e).text = some e := by
  obtain ⟨pc, ⟨source, dest, next⟩⟩ := e
  have line : (Record.executed ⟨pc, ⟨source, dest, next⟩⟩).text.toList
      = "TRACE ".toList ++ ((Record.address pc).toList ++ (": [".toList
        ++ ((Record.address source).toList ++ ("] -> [".toList
        ++ ((Record.address dest).toList ++ ("], next ".toList
        ++ ((Record.address next).toList ++ []))))))) := by
    show ("TRACE" ++ " " ++ _ : String).toList = _
    simp only [Record.message, String.toList_append, List.append_assoc, List.append_nil]
    rfl
  rw [ofText?, line, Record.skip_append]
  simp only [Option.bind_eq_bind, Option.bind_some]
  rw [Record.readAddress_address pc (by rfl)]
  simp only [Option.bind_some, Record.skip_append]
  rw [Record.readAddress_address source (by rfl)]
  simp only [Option.bind_some, Record.skip_append]
  rw [Record.readAddress_address dest (by rfl)]
  simp only [Option.bind_some, Record.skip_append]
  rw [Record.readAddress_address next (by rfl)]
  rfl

end Executed

end ByteByteJump
