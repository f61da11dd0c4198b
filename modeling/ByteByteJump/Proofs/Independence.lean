import Mathlib.Data.List.Pairwise
import ByteByteJump.Copy

/-!
# Copies that do not disturb one another

Where no copy of a list writes what another one reads or writes, each of them reads its source as it
was before the first of them. They might as well be made all at once. So neither their order matters
nor how often each of them is made, as long as every one is made.

`MadeAtOnce` says what memory holds then. It speaks of the copies of a list and not of their places
in it.

## Main statements

* `Independent.readByte_source_apply` — one copy leaves every source as it was
* `Independent.madeAtOnce` — any sequence of independent copies, with any repetitions
* `MadeAtOnce.agree` — memories that agree where the copies read agree where they write
-/

namespace ByteByteJump

theorem Memory.eq_of_offset_eq {a b : UInt32} (ha : a.toNat < addressSpace)
    (hb : b.toNat < addressSpace) (h : offset a = offset b) : a = b := by
  rw [offset_of_lt ha, offset_of_lt hb] at h
  exact UInt32.toNat_inj.mp h

namespace Copy

variable {copies made : List Copy} {c d : Copy} {m m' n n' : Memory}

/-! ## All at once -/

/-- Every destination holds what its source held before, and every other byte is as it was. -/
structure MadeAtOnce (copies : List Copy) (m m' : Memory) : Prop where
  copied : ∀ c ∈ copies, m'.readByte c.dest = m.readByte c.source
  kept : ∀ i, (∀ c ∈ copies, i ≠ Memory.offset c.dest) → m'.byteAt i = m.byteAt i

theorem MadeAtOnce.congr_mem (h : MadeAtOnce made m m') (same : ∀ c, c ∈ made ↔ c ∈ copies) :
    MadeAtOnce copies m m' where
  copied := fun c hc => h.copied c ((same c).mpr hc)
  kept := fun i other => h.kept i fun c hc => other c ((same c).mp hc)

/-- The copies see no more of memory than their sources and no more of it changes than their
destinations, so what two memories have in common they still have in common. -/
theorem MadeAtOnce.agree {P : Nat → Prop} (h : MadeAtOnce copies m m') (h' : MadeAtOnce copies n n')
    (same : ∀ i, P i → m.byteAt i = n.byteAt i)
    (sources : ∀ c ∈ copies, P (Memory.offset c.source)) {i : Nat} (hi : P i) :
    m'.byteAt i = n'.byteAt i := by
  by_cases written : ∃ c ∈ copies, i = Memory.offset c.dest
  · obtain ⟨c, hc, rfl⟩ := written
    calc m'.readByte c.dest = m.readByte c.source := h.copied c hc
      _ = n.readByte c.source := same _ (sources c hc)
      _ = n'.readByte c.dest := (h'.copied c hc).symm
  · have other : ∀ c ∈ copies, i ≠ Memory.offset c.dest := fun c hc eq => written ⟨c, hc, eq⟩
    rw [h.kept i other, h'.kept i other]
    exact same i hi

/-! ## Independent copies -/

/-- The addresses of the copies are addresses of 24 bits, so different ones are different bytes. -/
def Small (copies : List Copy) : Prop :=
  ∀ c ∈ copies, c.source.toNat < Memory.addressSpace ∧ c.dest.toNat < Memory.addressSpace

namespace Independent

theorem ne_of_ne (h : Independent copies) (hc : c ∈ copies) (hd : d ∈ copies) (ne : c ≠ d) :
    c.dest ≠ d.dest ∧ c.dest ≠ d.source := by
  have symm : Std.Symm fun c d : Copy =>
      c.dest ≠ d.dest ∧ c.dest ≠ d.source ∧ d.dest ≠ c.source :=
    ⟨fun _ _ ⟨dest, left, right⟩ => ⟨dest.symm, right, left⟩⟩
  obtain ⟨dest, source, _⟩ := List.Pairwise.forall h hc hd ne
  exact ⟨dest, source⟩

theorem eq_of_dest_eq (h : Independent copies) (small : Small copies) (hc : c ∈ copies)
    (hd : d ∈ copies) (same : Memory.offset c.dest = Memory.offset d.dest) : c = d := by
  by_cases eq : c = d
  · exact eq
  · exact absurd (Memory.eq_of_offset_eq (small c hc).2 (small d hd).2 same)
      (h.ne_of_ne hc hd eq).1

/-- **One copy leaves every source as it was**: that of another copy is not its destination, and its
own one can only be copied to itself. -/
theorem readByte_source_apply (h : Independent copies) (small : Small copies) (hc : c ∈ copies)
    (hd : d ∈ copies) (m : Memory) : (c.apply m).readByte d.source = m.readByte d.source := by
  show (c.apply m).byteAt (Memory.offset d.source) = m.byteAt (Memory.offset d.source)
  rw [byteAt_apply]
  by_cases written : Memory.offset d.source = Memory.offset c.dest
  · have dest := Memory.eq_of_offset_eq (small d hd).1 (small c hc).2 written
    have itself : c = d := by
      by_cases eq : c = d
      · exact eq
      · exact absurd dest.symm (h.ne_of_ne hc hd eq).2
    rw [if_pos written, itself]
    rfl
  · rw [if_neg written]

/-- What a copy made is still there after others, unless it is made again. -/
theorem readByte_dest_applyAll (h : Independent copies) (small : Small copies) (hc : c ∈ copies)
    (mem : ∀ d ∈ made, d ∈ copies) (last : c ∉ made) (m : Memory) :
    (applyAll made (c.apply m)).readByte c.dest = m.readByte c.source := by
  have kept : (applyAll made (c.apply m)).readByte c.dest = (c.apply m).readByte c.dest := by
    refine byteAt_applyAll_of_forall_ne (fun d hd same => ?_) _
    rw [h.eq_of_dest_eq small hc (mem d hd) same] at last
    exact last hd
  rw [kept]
  exact Memory.readByte_writeByte_same ..

/-- **Independent copies made one after the other are made at once**, in any order and with any
repetitions. -/
theorem madeAtOnce (h : Independent copies) (small : Small copies) (mem : ∀ c ∈ made, c ∈ copies)
    (m : Memory) : MadeAtOnce made m (applyAll made m) := by
  induction made generalizing m with
  | nil => exact ⟨by simp, fun _ _ => rfl⟩
  | cons c rest ih =>
    have hc : c ∈ copies := mem c List.mem_cons_self
    have hrest : ∀ d ∈ rest, d ∈ copies := fun d hd => mem d (List.mem_cons_of_mem c hd)
    -- the others are made in a memory with the sources that they would have found before
    have later := ih hrest (c.apply m)
    constructor
    · intro d hd
      rw [applyAll_cons]
      by_cases again : d ∈ rest
      · rw [later.copied d again, h.readByte_source_apply small hc (hrest d again)]
      · rcases List.mem_cons.mp hd with rfl | hd
        · exact h.readByte_dest_applyAll small hc hrest again m
        · exact absurd hd again
    · intro i other
      exact byteAt_applyAll_of_forall_ne other m

end Independent

/-! ## Repetition -/

/-- After a whole pass every copy of the list has been made, and never another one. -/
theorem mem_repeated {k : Nat} (pass : copies.length ≤ k) :
    c ∈ repeated copies k ↔ c ∈ copies := by
  refine ⟨mem_of_mem_repeated, fun hc => ?_⟩
  obtain ⟨i, hi, rfl⟩ := List.getElem_of_mem hc
  refine List.mem_filterMap.mpr ⟨i, List.mem_range.mpr (by omega), ?_⟩
  rw [Nat.mod_eq_of_lt hi, List.getElem?_eq_getElem hi]

/-- **Passes over independent copies make them at once**, in whatever order they are listed and
whether or not the last pass is whole. -/
theorem Independent.madeAtOnce_repeated (h : Independent copies) (small : Small copies)
    (same : ∀ c, c ∈ made ↔ c ∈ copies) {k : Nat} (pass : made.length ≤ k) (m : Memory) :
    MadeAtOnce copies m (applyAll (repeated made k) m) := by
  have members : ∀ c, c ∈ repeated made k ↔ c ∈ copies :=
    fun c => (mem_repeated pass).trans (same c)
  exact (h.madeAtOnce small (fun c hc => (members c).mp hc) m).congr_mem members

end Copy

end ByteByteJump
