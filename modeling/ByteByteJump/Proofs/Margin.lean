import ByteByteJump.Proofs.Chain.Order
import ByteByteJump.Proofs.Reachable

/-!
# The margin

The eight bytes behind the address space can be fetched and cannot be written. A field is read at
its address as it is and may lie there; a byte is written at its address modulo `2 ^ 24`, so a write
to what looks like an address of the margin goes to the bottom of memory.

So the margin is what the last program image put there. An instruction that starts within six bytes
of the end of the address space has its last field in it, and goes on where the image says for as
long as the image is loaded, even where it rewrites its other fields.

## Main statements

* `Core.byteAt_after_margin` — no run changes the margin
* `Machine.byteAt_performAll_margin` — the margin after a history
* `Machine.performAll_hasMargin` — the margin and what is fetched from it, after a history and in
  the middle of a frame
-/

namespace ByteByteJump

namespace Memory

variable {m : Memory}

/-! ## What the margin shows -/

/-- The margin of a memory is that of an image, and so is every last field of an instruction that
lies in it. -/
structure HasMargin (m : Memory) (image : ByteArray) : Prop where
  byteAt_eq : ∀ i, 0x1000000 ≤ i → i < 0x1000008 → m.byteAt i = Bytes.get image i
  fetch_eq : ∀ pc : UInt32, 0xFFFFFA ≤ pc.toNat → pc.toNat ≤ 0xFFFFFF →
    ∃ inst, Instruction.fetch m pc = .ok inst ∧
      inst.next.toNat = (Bytes.get image (pc.toNat + 6)).toNat * 65536
        + (Bytes.get image (pc.toNat + 7)).toNat * 256 + (Bytes.get image (pc.toNat + 8)).toNat

theorem hasMargin_of_byteAt {image : ByteArray}
    (margin : ∀ i, addressSpace ≤ i → m.byteAt i = Bytes.get image i) : m.HasMargin image where
  byteAt_eq := fun i low _ => margin i low
  fetch_eq := by
    intro pc low high
    have fits : pc.toNat + 6 < 0x100000000 := by omega
    obtain ⟨_, third⟩ := Instruction.toNat_fieldAddress fits
    rw [addressSpace_eq] at margin
    refine ⟨_, Instruction.fetch_of_lt fits, ?_⟩
    show (m.readField (pc + 6)).toNat = _
    rw [toNat_readField m (by rw [third, capacity_eq]; omega), third, margin _ (by omega),
      margin _ (by omega), margin _ (by omega)]

end Memory

/-! ## Runs -/

namespace Core

theorem byteAt_next_margin (c : Core) {i : Nat} (margin : Memory.addressSpace ≤ i) :
    c.next.memory.byteAt i = c.memory.byteAt i :=
  Copy.byteAt_apply_margin _ _ margin

/-- **No run changes the margin**, whatever the program. -/
theorem byteAt_after_margin (n : Nat) (c : Core) {i : Nat} (margin : Memory.addressSpace ≤ i) :
    (after n c).memory.byteAt i = c.memory.byteAt i := by
  induction n generalizing c with
  | zero => rfl
  | succ n ih => rw [after_succ, ih, byteAt_next_margin c margin]

end Core

namespace Machine

variable {m m' : Machine} {i : Nat}

theorem byteAt_started_margin (m : Machine) (k : Keys) (margin : Memory.addressSpace ≤ i) :
    (m.started k).memory.byteAt i = m.memory.byteAt i := by
  rw [memory_started]
  exact Memory.byteAt_writeWord_margin _ _ _ margin

theorem byteAt_tick_margin {k : Keys} (run : m.tick k = .ok m')
    (margin : Memory.addressSpace ≤ i) : m'.memory.byteAt i = m.memory.byteAt i := by
  obtain ⟨_, _, rfl⟩ := tick_eq_ok run
  rw [memory_next, Core.byteAt_after_margin _ _ margin, byteAt_started_margin m k margin]

theorem byteAt_play_margin {keys : List Keys} (run : m.play keys = .ok m')
    (margin : Memory.addressSpace ≤ i) : m'.memory.byteAt i = m.memory.byteAt i :=
  play_induction (motive := fun l => l.memory.byteAt i = m.memory.byteAt i) run rfl
    fun _ _ _ before once => (byteAt_tick_margin once margin).trans before

end Machine

/-! ## Histories -/

/-- The image that was loaded last is that of the later actions, if they loaded one. -/
theorem Action.lastLoaded?_cons (action : Action) (rest : List Action) :
    lastLoaded? (action :: rest) = (lastLoaded? rest).or action.loaded? := by
  unfold lastLoaded?
  cases h : action.loaded? with
  | none => simp [h]
  | some image =>
    cases last : (rest.filterMap loaded?).getLast? <;> simp [h, List.getLast?_cons, last]

namespace Machine

variable {m m' : Machine} {i : Nat}

/-- A load that succeeds replaces every byte, and one that fails none. -/
theorem byteAt_orElse_load (m : Machine) (image : ByteArray) (i : Nat) :
    (m.orElse (m.load image)).1.memory.byteAt i
      = ((Action.load image).loaded?.map fun image => Bytes.get image i).getD
          (m.memory.byteAt i) := by
  rw [Action.loaded?]
  by_cases fits : image.size ≤ Memory.capacity
  · rw [m.load_of_le fits, if_pos fits]
    exact Memory.byteAt_ofImage image fits i
  · rw [m.load_of_lt (Nat.not_le.mp fits), if_neg fits]
    rfl

theorem byteAt_perform_margin {action : Action} {answer : Option LoadError}
    (run : m.perform action = .ok (m', answer)) (margin : Memory.addressSpace ≤ i) :
    m'.memory.byteAt i
      = (action.loaded?.map fun image => Bytes.get image i).getD (m.memory.byteAt i) := by
  cases action with
  | load image =>
    obtain rfl : (m.orElse (m.load image)).1 = m' := congrArg Prod.fst (Except.ok.inj run)
    exact byteAt_orElse_load m image i
  | loadFile path content =>
    obtain rfl : (m.orElse (m.loadFile path content)).1 = m' :=
      congrArg Prod.fst (Except.ok.inj run)
    cases content with
    | ok image => exact byteAt_orElse_load m image i
    | error failure => rfl
  | tick k =>
    obtain ⟨next, once, same⟩ := exists_of_map_eq_ok run
    obtain rfl : next = m' := congrArg Prod.fst same
    exact byteAt_tick_margin once margin
  | runFrames n k =>
    rw [perform, runFrames_eq_play] at run
    obtain ⟨last, all, same⟩ := exists_of_map_eq_ok run
    obtain rfl : last = m' := congrArg Prod.fst same
    exact byteAt_play_margin all margin

/-- **The margin after a history** is that of the image that was loaded last. If there was none, it
is what it was. -/
theorem byteAt_performAll_margin {actions : List Action} {answers : List (Option LoadError)}
    (run : m.performAll actions = .ok (m', answers)) (margin : Memory.addressSpace ≤ i) :
    m'.memory.byteAt i
      = ((Action.lastLoaded? actions).map fun image => Bytes.get image i).getD
          (m.memory.byteAt i) := by
  induction actions generalizing m answers with
  | nil =>
    rw [performAll_nil] at run
    obtain rfl : m = m' := congrArg Prod.fst (Except.ok.inj run)
    rfl
  | cons action rest ih =>
    rw [performAll_cons] at run
    obtain ⟨⟨next, answer⟩, first, run⟩ := exists_of_bind_eq_ok run
    obtain ⟨⟨last, answers⟩, others, same⟩ := exists_of_map_eq_ok run
    obtain rfl : last = m' := congrArg Prod.fst same
    rw [ih others, byteAt_perform_margin first margin, Action.lastLoaded?_cons]
    cases Action.lastLoaded? rest <;> rfl

theorem byteAt_performAll_initial_margin {actions : List Action}
    {answers : List (Option LoadError)} (run : initial.performAll actions = .ok (m, answers))
    (margin : Memory.addressSpace ≤ i) :
    m.memory.byteAt i = Bytes.get ((Action.lastLoaded? actions).getD ByteArray.empty) i := by
  rw [byteAt_performAll_margin run margin]
  cases Action.lastLoaded? actions with
  | none =>
    have blank : initial.memory.byteAt i = 0 := Memory.byteAt_blank i
    have empty : Bytes.get ByteArray.empty i = 0 := Bytes.get_of_le (Nat.zero_le i)
    rw [Option.map_none, Option.getD_none, Option.getD_none, blank, empty]
  | some image => rfl

/--
**The margin belongs to the image.**

After any history, failed loads included, the margin is that of the image that was loaded last, and
zero if there was none. It is so in the middle of a frame as well, after any number of instructions.
An instruction with its last field in the margin is fetched with the address that the image has
there. The reason is that a write, to whatever address of 32 bits, changes the byte at this address
modulo `2 ^ 24`, which is none of the margin.
-/
theorem performAll_hasMargin {actions : List Action} {answers : List (Option LoadError)}
    (history : initial.performAll actions = .ok (m, answers)) :
    m.memory.HasMargin ((Action.lastLoaded? actions).getD ByteArray.empty) ∧
    (∀ (k : Keys) (n : Nat) (c : Core), Core.run n (m.started k) = .ok c →
      c.memory.HasMargin ((Action.lastLoaded? actions).getD ByteArray.empty)) ∧
    ∀ (memory : Memory) (a : UInt32) (v : UInt8) (w : UInt16) (i : Nat),
      ((memory.writeByte a v).byteAt i
        = if i = a.toNat % 0x1000000 then v else memory.byteAt i) ∧
      ((memory.writeWord a w).byteAt i
        = if i = (a.toNat + 1) % 0x1000000 then UInt8.ofNat (w.toNat % 256)
          else if i = a.toNat % 0x1000000 then UInt8.ofNat (w.toNat / 256)
          else memory.byteAt i) ∧
      (0x1000000 ≤ i → (memory.writeByte a v).byteAt i = memory.byteAt i ∧
        (memory.writeWord a w).byteAt i = memory.byteAt i) := by
  refine ⟨?_, ?_, ?_⟩
  · exact Memory.hasMargin_of_byteAt fun i margin => byteAt_performAll_initial_margin history margin
  · intro k n c run
    obtain rfl := Core.run_eq_ok run
    refine Memory.hasMargin_of_byteAt fun i margin => ?_
    rw [Core.byteAt_after_margin _ _ margin, byteAt_started_margin m k margin,
      byteAt_performAll_initial_margin history margin]
  · intro memory a v w i
    refine ⟨memory.byteAt_writeByte_mod a v i, memory.byteAt_writeWord_mod a w i, ?_⟩
    intro margin
    exact ⟨memory.byteAt_writeByte_margin a v margin, memory.byteAt_writeWord_margin a w margin⟩

/-- The instruction at the last address of all, which copies a key byte to address 7. That would be
the last byte of its own last field if writes reached the margin. -/
theorem performAll_hasMargin_last : ∃ img behind m answers,
    Image.empty.copyChain 0xFFFFFF [⟨1, 7⟩] 0xFFFFFF = .ok (img, behind) ∧
      initial.performAll [.load (img.entryPoint 0xFFFFFF).bytes, .tick ⟨0x5A5A⟩]
        = .ok (m, answers) ∧
      m.memory.HasMargin (img.entryPoint 0xFFFFFF).bytes ∧ m.memory.byteAt 7 = 0x5A ∧
      m.memory.byteAt 0x1000007 = 0xFF := by
  have apart : LoopsApart [⟨1, 7⟩] 0xFFFFFF := by decide
  obtain ⟨img, behind, memory, eq, load, holds⟩ := apart.exists_load_empty initial
  have fits : (img.entryPoint 0xFFFFFF).bytes.size ≤ Memory.capacity := by
    by_contra large
    rw [initial.load_of_lt (Nat.not_le.mp large)] at load
    cases load
  have tick := (hasRoom_ofMemory memory (show 1 < 0x1000000000000 by decide)).tick_eq ⟨0x5A5A⟩
  have history : initial.performAll [.load (img.entryPoint 0xFFFFFF).bytes, .tick ⟨0x5A5A⟩]
      = .ok ((ofMemory memory).next ⟨0x5A5A⟩, [none, none]) := by
    rw [performAll_load load, performAll_tick tick, performAll_nil]
    rfl
  have last : Action.lastLoaded? [.load (img.entryPoint 0xFFFFFF).bytes, .tick ⟨0x5A5A⟩]
      = some (img.entryPoint 0xFFFFFF).bytes := by
    rw [Action.lastLoaded?_cons, Action.lastLoaded?_cons, Action.loaded?, Action.loaded?,
      if_pos fits]
    rfl
  have held : ((ofMemory memory).started ⟨0x5A5A⟩).memory.readByte 1 = 0x5A := by
    rw [memory_started_eq_writes]
    exact Memory.readByte_writeByte_same _ 1 _
  have loop := (apart.machine_next_eq (m := ofMemory memory) holds ⟨0x5A5A⟩).2.2
  have copied := (apart.madeAtOnce_next (m := ofMemory memory) (.refl _) holds ⟨0x5A5A⟩).copied
    ⟨1, 7⟩ (by decide)
  obtain ⟨margin, _⟩ := performAll_hasMargin history
  rw [last, Option.getD_some] at margin
  generalize (ofMemory memory).next ⟨0x5A5A⟩ = m at history margin loop copied
  refine ⟨img, behind, m, _, eq, history, margin, copied.trans held, ?_⟩
  have stored := loop.chain 0 (by decide) 8 (by decide)
  rw [Instruction.get_encode] at stored
  exact stored

end Machine

end ByteByteJump
