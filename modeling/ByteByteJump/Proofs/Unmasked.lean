import ByteByteJump.Proofs.Run
import ByteByteJump.Unmasked

/-!
# The masks are never seen

A machine that was loaded runs exactly as the machine without masks does. The simulation relates a
core to the array of its bytes and to its program counter as a number. It holds as long as the
program counter is a 24-bit address, and every instruction leaves it one: its three addresses are
fields, and a field is a 24-bit number whatever the bytes are.

An instruction that starts just below the end of the address space has its last fields in the
margin. This is where eight bytes of margin are enough and seven would not be: the last byte of the
last instruction has the index `addressSpace + 7`.

## Main statements

* `step?_ofCore` — one instruction on both machines
* `frame?_next` — one frame on both machines, wherever the other one was before
* `play_refines_unmasked` — a load and frames on both machines
-/

namespace ByteByteJump.Unmasked

/-- The state of the machine without masks that a core stands for. -/
def ofCore (c : Core) : State := ⟨cells c.memory, c.pc.toNat⟩

theorem ofCore_core (m : Machine) : ofCore m.core = ⟨cells m.memory, m.core.pc.toNat⟩ := rfl

/-! ## The three accesses -/

/-- Inside the array, reading a field needs no rule for its end. -/
theorem number?_cells (m : Memory) {a : UInt32} (h : a.toNat + 3 ≤ Memory.capacity) :
    number? (cells m) a.toNat = some (m.readField a).toNat := by
  unfold number?
  rw [getElem?_cells m (by omega), getElem?_cells m (by omega), getElem?_cells m (by omega),
    Memory.toNat_readField m h]
  show some _ = some _
  rw [Nat.mul_comm 65536, Nat.mul_comm 256]

/-- Below the end of the address space, reading a byte needs no mask. -/
theorem getElem?_cells_address (m : Memory) {a : UInt32} (h : a.toNat < Memory.addressSpace) :
    (cells m)[a.toNat]? = some (m.readByte a) := by
  rw [getElem?_cells m (by rw [Memory.capacity]; omega), Memory.readByte, Memory.offset_of_lt h]

/-- Below the end of the address space, writing a byte needs no mask. -/
theorem store?_cells (m : Memory) {a : UInt32} (h : a.toNat < Memory.addressSpace) (v : UInt8) :
    store? (cells m) a.toNat v = some (cells (m.writeByte a v)) := by
  have inside : a.toNat < Memory.capacity := by rw [Memory.capacity]; omega
  unfold store?
  rw [dif_pos inside]
  refine congrArg some (Vector.ext fun i hi => ?_)
  rw [Vector.getElem_set]
  simp only [cells, Vector.getElem_ofFn, Memory.byteAt_writeByte, Memory.offset_of_lt h]
  by_cases same : i = a.toNat
  · rw [if_pos same.symm, if_pos same]
  · rw [if_neg (fun eq => same eq.symm), if_neg same]

/-! ## Instructions -/

/-- **One instruction is the same on both machines**, also where it lies across the end of the
address space. -/
theorem step?_ofCore {c : Core} (pc : c.pc.toNat < Memory.addressSpace) :
    step? (ofCore c) = some (ofCore c.next) := by
  rw [Memory.addressSpace_eq] at pc
  obtain ⟨second, third⟩ := Instruction.toNat_fieldAddress (show c.pc.toNat + 6 < _ by omega)
  obtain ⟨source, dest, -⟩ := Instruction.fetched_lt c.memory c.pc
  have readSource : number? (cells c.memory) c.pc.toNat = some c.instruction.source.toNat :=
    number?_cells _ (by rw [Memory.capacity_eq]; omega)
  have readDest : number? (cells c.memory) (c.pc.toNat + 3) = some c.instruction.dest.toNat := by
    rw [← second]
    exact number?_cells _ (by rw [second, Memory.capacity_eq]; omega)
  have readNext : number? (cells c.memory) (c.pc.toNat + 6) = some c.instruction.next.toNat := by
    rw [← third]
    exact number?_cells _ (by rw [third, Memory.capacity_eq]; omega)
  unfold step?
  simp only [ofCore, readSource, readDest, readNext, Option.bind_eq_bind, Option.bind_some]
  rw [getElem?_cells_address (a := c.instruction.source) _ source, Option.bind_some,
    store?_cells (a := c.instruction.dest) _ dest, Option.bind_some]
  rfl

theorem run?_succ (n : Nat) (s : State) : run? (n + 1) s = (step? s).bind (run? n) := rfl

/-- A run is the same on both machines, because the program counter stays a 24-bit address. -/
theorem run?_ofCore (n : Nat) {c : Core} (pc : c.pc.toNat < Memory.addressSpace) :
    run? n (ofCore c) = some (ofCore (Core.after n c)) := by
  induction n generalizing c with
  | zero => rfl
  | succ n ih =>
    rw [run?_succ, step?_ofCore pc, Core.after_succ]
    exact ih c.next_pc_lt

/-! ## Frames -/

theorem frame?_eq (s : State) (keys : Keys) :
    frame? s keys = (store? s.cells 0 (UInt8.ofNat (keys.bits.toNat / 256))).bind fun cells =>
      (store? cells 1 (UInt8.ofNat (keys.bits.toNat % 256))).bind fun cells =>
        (number? cells 2).bind fun pc => run? Core.instructionsPerFrame ⟨cells, pc⟩ := rfl

/-- **One frame is the same on both machines.** The machine without masks may have been anywhere
before. -/
theorem frame?_next (m : Machine) (keys : Keys) (pc : Nat) :
    frame? ⟨cells m.memory, pc⟩ keys = some (ofCore (m.next keys).core) := by
  have high : store? (cells m.memory) 0 (UInt8.ofNat (keys.bits.toNat / 256))
      = some (cells (m.memory.writeByte 0 (BigEndian.wordHigh keys.bits))) := by
    rw [← BigEndian.wordHigh_eq_ofNat]
    exact store?_cells m.memory (a := 0) (by decide) _
  have low : store? (cells (m.memory.writeByte 0 (BigEndian.wordHigh keys.bits))) 1
      (UInt8.ofNat (keys.bits.toNat % 256)) = some (cells (m.started keys).memory) := by
    rw [← BigEndian.wordLow_eq_ofNat]
    exact store?_cells _ (a := 1) (by decide) _
  have entry : number? (cells (m.started keys).memory) 2 = some (m.started keys).pc.toNat :=
    number?_cells _ (a := 2) (by decide)
  rw [frame?_eq, high, Option.bind_some, low, Option.bind_some, entry, Option.bind_some,
    Machine.core_next]
  exact run?_ofCore Core.instructionsPerFrame (m.started_pc_lt keys)

theorem play?_nil (s : State) : play? s [] = some s := rfl

theorem play?_cons (s : State) (keys : Keys) (rest : List Keys) :
    play? s (keys :: rest) = (frame? s keys).bind fun s => play? s rest := rfl

/-- Frames are the same on both machines. Only with a first frame does it not matter where the
machine without masks was before. -/
theorem play?_after (m : Machine) (keys : List Keys) (pc : Nat) :
    ∃ s, play? ⟨cells m.memory, pc⟩ keys = some s ∧ cells (m.after keys).memory = s.cells ∧
      (keys ≠ [] → (m.after keys).core.pc.toNat = s.pc) := by
  induction keys generalizing m pc with
  | nil =>
    rw [Machine.after_nil]
    exact ⟨_, play?_nil _, rfl, fun ne => absurd rfl ne⟩
  | cons k rest ih =>
    obtain ⟨s, run, bytes, last⟩ := ih (m.next k) (m.next k).core.pc.toNat
    rw [play?_cons, frame?_next, ofCore_core, Option.bind_some, Machine.after_cons]
    refine ⟨s, run, bytes, fun _ => ?_⟩
    cases rest with
    | nil =>
      rw [play?_nil] at run
      rw [Machine.after_nil, ← Option.some.inj run]
    | cons k' rest => exact last (List.cons_ne_nil k' rest)

/-! ## Loaded machines -/

/--
**The masks are never seen.**

Any image that fits is loaded, fewer than `2 ^ 48` frames are never refused, and the machine without
masks, given the bytes of the image, never leaves its array and ends with the same bytes, margin
included. After a frame both are at the same instruction.
-/
theorem play_refines_unmasked (start : Machine) (image : ByteArray)
    (fits : image.size ≤ Memory.capacity) (keys : List Keys)
    (few : keys.length < 0x1000000000000) :
    ∃ loaded last, start.load image = .ok loaded ∧ loaded.play keys = .ok last ∧
      ∀ pc, ∃ s, play? ⟨cellsOfImage image, pc⟩ keys = some s ∧
        cells last.memory = s.cells ∧ (keys ≠ [] → last.stats.pc.toNat = s.pc) := by
  refine ⟨_, _, start.load_of_le fits, Machine.play_ofMemory _ few, fun pc => ?_⟩
  rw [← cells_ofImage image fits]
  exact play?_after (Machine.ofMemory (Memory.ofImage image fits)) keys pc

/-- Entered at the last address, so that the first instruction ends with the last byte of the
margin. -/
theorem play_refines_unmasked_margin :
    (⟨#[0, 0, 0xFF, 0xFF, 0xFF]⟩ : ByteArray).size ≤ Memory.capacity ∧
      [Keys.all, Keys.empty].length < 0x1000000000000 ∧
      ∃ loaded last, Machine.initial.load ⟨#[0, 0, 0xFF, 0xFF, 0xFF]⟩ = .ok loaded ∧
        loaded.play [Keys.all, Keys.empty] = .ok last ∧
        ∃ s, play? ⟨cellsOfImage ⟨#[0, 0, 0xFF, 0xFF, 0xFF]⟩, 0⟩ [Keys.all, Keys.empty] = some s ∧
          cells last.memory = s.cells ∧ last.stats.pc.toNat = s.pc := by
  obtain ⟨loaded, last, load, run, same⟩ :=
    play_refines_unmasked Machine.initial ⟨#[0, 0, 0xFF, 0xFF, 0xFF]⟩ (by decide)
      [Keys.all, Keys.empty] (by decide)
  obtain ⟨s, unmasked, bytes, pc⟩ := same 0
  exact ⟨by decide, by decide, loaded, last, load, run, s, unmasked, bytes, pc (by decide)⟩

end ByteByteJump.Unmasked
