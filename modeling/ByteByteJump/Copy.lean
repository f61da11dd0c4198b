import ByteByteJump.Memory.Lemmas

/-!
# Copies

A copy moves the byte at one address to another. It is the only thing a program ever does to
memory, so what a run does is a list of copies, made from left to right.

## Main statements

* `byteAt_apply` — a copy changes at most one byte, and that one below the margin
* `applyAll_append` — copies made in two parts are made once
* `byteAt_applyAll_eq_moveAll` — copies as moves of bytes, with no memory around them
* `byteAt_applyAll_of_forall_ne` — a byte that is no destination keeps its value
* `byteAt_applyAll` — every byte is one that was there before, and `origin` says which
-/

namespace ByteByteJump

structure Copy where
  source : UInt32
  dest : UInt32
  deriving DecidableEq, Repr

namespace Copy

@[inline] def apply (c : Copy) (m : Memory) : Memory :=
  m.writeByte c.dest (m.readByte c.source)

theorem byteAt_apply (c : Copy) (m : Memory) (i : Nat) :
    (c.apply m).byteAt i = if i = Memory.offset c.dest then m.readByte c.source else m.byteAt i :=
  Memory.byteAt_writeByte ..

/-- A copy never reaches the margin. -/
theorem byteAt_apply_margin (c : Copy) (m : Memory) {i : Nat} (h : Memory.addressSpace ≤ i) :
    (c.apply m).byteAt i = m.byteAt i := Memory.byteAt_writeByte_margin _ _ _ h

/-- The memory after a list of copies, made from left to right. -/
def applyAll (copies : List Copy) (m : Memory) : Memory :=
  copies.foldl (fun m c => c.apply m) m

theorem applyAll_cons (c : Copy) (rest : List Copy) (m : Memory) :
    applyAll (c :: rest) m = applyAll rest (c.apply m) := rfl

theorem applyAll_append (xs ys : List Copy) (m : Memory) :
    applyAll (xs ++ ys) m = applyAll ys (applyAll xs m) := List.foldl_append ..

/-! ## Bytes alone -/

/-- What a copy does to bytes that are given by their addresses, of which 24 bits count. -/
def move (c : Copy) (bytes : Nat → UInt8) (i : Nat) : UInt8 :=
  if i = c.dest.toNat % 0x1000000 then bytes (c.source.toNat % 0x1000000) else bytes i

/-- The bytes after a list of moves, made from left to right. -/
def moveAll (copies : List Copy) (bytes : Nat → UInt8) : Nat → UInt8 :=
  copies.foldl (fun bytes c => c.move bytes) bytes

theorem moveAll_cons (c : Copy) (rest : List Copy) (bytes : Nat → UInt8) :
    moveAll (c :: rest) bytes = moveAll rest (c.move bytes) := rfl

theorem moveAll_append (xs ys : List Copy) (bytes : Nat → UInt8) :
    moveAll (xs ++ ys) bytes = moveAll ys (moveAll xs bytes) := List.foldl_append ..

theorem moveAll_of_forall_ne {copies : List Copy} {i : Nat}
    (h : ∀ c ∈ copies, i ≠ c.dest.toNat % 0x1000000) (bytes : Nat → UInt8) :
    moveAll copies bytes i = bytes i := by
  induction copies generalizing bytes with
  | nil => rfl
  | cons c rest ih =>
    rw [moveAll_cons, ih (fun d hd => h d (List.mem_cons_of_mem c hd)), move,
      if_neg (h c List.mem_cons_self)]

/-- **Copies move bytes** and do nothing else. -/
theorem byteAt_applyAll_eq_moveAll (copies : List Copy) (m : Memory) :
    (applyAll copies m).byteAt = moveAll copies m.byteAt := by
  induction copies generalizing m with
  | nil => rfl
  | cons c rest ih =>
    have once : (c.apply m).byteAt = c.move m.byteAt := by
      funext i
      rw [byteAt_apply]
      rfl
    rw [applyAll_cons, ih, once, moveAll_cons]

/-- **A byte that is no destination keeps its value.** -/
theorem byteAt_applyAll_of_forall_ne {copies : List Copy} {i : Nat}
    (h : ∀ c ∈ copies, i ≠ Memory.offset c.dest) (m : Memory) :
    (applyAll copies m).byteAt i = m.byteAt i := by
  rw [byteAt_applyAll_eq_moveAll]
  exact moveAll_of_forall_ne h m.byteAt

/-! ## Where bytes come from -/

/-- The address at which a byte was before a list of copies, given where it is after them. -/
def origin : List Copy → Nat → Nat
  | [], i => i
  | c :: rest, i =>
    let before := origin rest i
    if before = Memory.offset c.dest then Memory.offset c.source else before

theorem origin_cons (c : Copy) (rest : List Copy) (i : Nat) :
    origin (c :: rest) i =
      if origin rest i = Memory.offset c.dest then Memory.offset c.source else origin rest i := rfl

/-- **No byte is made up**: each is the one that was at its origin. -/
theorem byteAt_applyAll (copies : List Copy) (m : Memory) (i : Nat) :
    (applyAll copies m).byteAt i = m.byteAt (origin copies i) := by
  induction copies generalizing m with
  | nil => rfl
  | cons c rest ih =>
    rw [applyAll_cons, ih, byteAt_apply, origin_cons]
    split
    · rfl
    · rfl

/-- One more copy: what lies at its destination comes from where its source did. -/
theorem origin_append_singleton (copies : List Copy) (c : Copy) (i : Nat) :
    origin (copies ++ [c]) i
      = if i = Memory.offset c.dest then origin copies (Memory.offset c.source)
        else origin copies i := by
  induction copies with
  | nil => rfl
  | cons d rest ih =>
    rw [List.cons_append, origin_cons, ih, origin_cons, origin_cons]
    by_cases h : i = Memory.offset c.dest
    · rw [if_pos h, if_pos h]
    · rw [if_neg h, if_neg h]

/-! ## Repetition and independence -/

/-- The first `k` copies of the endless repetition of a list of copies. -/
def repeated (copies : List Copy) (k : Nat) : List Copy :=
  (List.range k).filterMap fun j => copies[j % copies.length]?

theorem repeated_succ {copies : List Copy} {k : Nat} (h : k % copies.length < copies.length) :
    repeated copies (k + 1) = repeated copies k ++ [copies[k % copies.length]] := by
  rw [repeated, repeated, List.range_succ, List.filterMap_append, List.filterMap_cons,
    List.getElem?_eq_getElem h, List.filterMap_nil]

theorem mem_of_mem_repeated {copies : List Copy} {k : Nat} {c : Copy} (h : c ∈ repeated copies k) :
    c ∈ copies := by
  obtain ⟨_, _, here⟩ := List.mem_filterMap.mp h
  exact List.mem_of_getElem? here

/-- **What the copy that is made last brings**, if no copy goes where it reads. -/
theorem moveAll_repeated_last {copies : List Copy} {n k i j : Nat} {c : Copy} (count : n = k + 1)
    (last : copies[k % copies.length]? = some c) (dest : c.dest.toNat % 0x1000000 = i)
    (source : c.source.toNat % 0x1000000 = j) (kept : ∀ d ∈ copies, j ≠ d.dest.toNat % 0x1000000)
    (bytes : Nat → UInt8) : moveAll (repeated copies n) bytes i = bytes j := by
  obtain ⟨hk, rfl⟩ := List.getElem?_eq_some_iff.mp last
  rw [count, repeated_succ hk, moveAll_append]
  show move _ _ i = _
  rw [move, if_pos dest.symm, source,
    moveAll_of_forall_ne fun d hd => kept d (mem_of_mem_repeated hd)]

/-- No copy of a list writes what another one reads or writes. -/
def Independent (copies : List Copy) : Prop :=
  copies.Pairwise fun c d => c.dest ≠ d.dest ∧ c.dest ≠ d.source ∧ d.dest ≠ c.source

end Copy

end ByteByteJump
