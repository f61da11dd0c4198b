import ByteByteJump.Image.Basic

/-!
# Images as lists of stores

However an image is put together, what is done to it comes down to storing bytes at addresses. An
*edit* is one operation on an image; `Edit.stores` says which bytes it stores where, without an
image. A list of stores then determines an image: it reaches to the end of the store that ends
last, and each of its bytes is from the last store that covers it.

## Main statements

* `size_storeAll`, `byteAt_storeAll` — an image built by stores is the one that they determine
-/

namespace ByteByteJump.Image

/-! ## Stores -/

structure Store where
  start : UInt32
  data : ByteArray

namespace Store

def stop (s : Store) : Nat := s.start.toNat + s.data.size

def covers (s : Store) (i : Nat) : Bool := s.start.toNat ≤ i && i < s.stop

def byteAt (s : Store) (i : Nat) : UInt8 := Bytes.get s.data (i - s.start.toNat)

end Store

def storeAll (img : Image) (stores : List Store) : Image :=
  stores.foldl (fun img s => img.poke s.start s.data) img

/-- The end of the store that ends last; zero if there is none. -/
def extent (stores : List Store) : Nat := (stores.map Store.stop).foldl max 0

/-- What the last store that covers index `i` puts there, if there is one. -/
def lastStored? (stores : List Store) (i : Nat) : Option UInt8 :=
  (stores.reverse.find? fun s => s.covers i).map fun s => s.byteAt i

/-! ## Edits -/

/-- An operation on an image. -/
inductive Edit where
  | poke (a : UInt32) (data : ByteArray)
  | fill (a : UInt32) (length : Nat) (v : UInt8)
  | entryPoint (pc : UInt32)
  | videoPage (page : UInt8)
  | audioPage (page : UInt16)
  | instruction (a : UInt32) (inst : Instruction)
  | copyChain (a : UInt32) (copies : List Copy) (last : UInt32)

def edit (img : Image) : Edit → Except Overflow Image
  | .poke a data => .ok (img.poke a data)
  | .fill a length v => img.fill a length v
  | .entryPoint pc => .ok (img.entryPoint pc)
  | .videoPage page => .ok (img.videoPage page)
  | .audioPage page => .ok (img.audioPage page)
  | .instruction a inst => .ok (img.instruction a inst)
  | .copyChain a copies last => (img.copyChain a copies last).map Prod.fst

def editAll : Image → List Edit → Except Overflow Image
  | img, [] => .ok img
  | img, e :: rest => (img.edit e).bind fun img => img.editAll rest

/-- The bytes of a stored instruction: source, destination and next address, each from its third
lowest byte to its lowest. -/
def instructionBytes (source dest next : UInt32) : ByteArray :=
  ⟨#[(source >>> 16).toUInt8, (source >>> 8).toUInt8, source.toUInt8,
    (dest >>> 16).toUInt8, (dest >>> 8).toUInt8, dest.toUInt8,
    (next >>> 16).toUInt8, (next >>> 8).toUInt8, next.toUInt8]⟩

def chainStores (a : UInt32) (last : UInt32) : List Copy → List Store
  | [] => []
  | [c] => [⟨a, instructionBytes c.source c.dest last⟩]
  | c :: rest => ⟨a, instructionBytes c.source c.dest (a + 9)⟩ :: chainStores (a + 9) last rest

/-- The stores that an edit is made of. -/
def Edit.stores : Edit → List Store
  | poke a data => [⟨a, data⟩]
  | fill a length v => [⟨a, ⟨Array.replicate length v⟩⟩]
  | entryPoint pc => [⟨2, ⟨#[(pc >>> 16).toUInt8, (pc >>> 8).toUInt8, pc.toUInt8]⟩⟩]
  | videoPage page => [⟨5, ⟨#[page]⟩⟩]
  | audioPage page => [⟨6, ⟨#[(page >>> 8).toUInt8, page.toUInt8]⟩⟩]
  | instruction a inst => [⟨a, instructionBytes inst.source inst.dest inst.next⟩]
  | copyChain a copies last => chainStores a last copies

/-- Whether an edit leaves a range of an image alone. -/
def Edit.Avoids (e : Edit) (first last : Nat) : Prop :=
  ∀ s ∈ e.stores, ∀ i, first ≤ i → i < last → s.covers i = false

/-! ## Laws -/

theorem storeAll_cons (img : Image) (s : Store) (rest : List Store) :
    img.storeAll (s :: rest) = (img.poke s.start s.data).storeAll rest := rfl

theorem storeAll_append (img : Image) (xs ys : List Store) :
    img.storeAll (xs ++ ys) = (img.storeAll xs).storeAll ys := List.foldl_append ..

/-- **An image reaches to the end of the store that ends last**, or as far as it did before. -/
theorem size_storeAll (img : Image) (stores : List Store) :
    (img.storeAll stores).size = max img.size (extent stores) := by
  have grow : ∀ (stops : List Nat) (a b : Nat),
      max a (stops.foldl max b) = stops.foldl max (max a b) := by
    intro stops
    induction stops with
    | nil => intro a b; rfl
    | cons stop rest ih =>
      intro a b
      rw [List.foldl_cons, List.foldl_cons, ih, Nat.max_assoc]
  induction stores generalizing img with
  | nil => exact (Nat.max_zero _).symm
  | cons s rest ih =>
    rw [storeAll_cons, ih, size_poke, extent, extent, List.map_cons, List.foldl_cons, grow, grow,
      Nat.max_zero, Nat.zero_max]
    rfl

theorem Store.covers_iff {s : Store} {i : Nat} :
    s.covers i = true ↔ s.start.toNat ≤ i ∧ i < s.start.toNat + s.data.size := by
  rw [Store.covers, Bool.and_eq_true, decide_eq_true_eq, decide_eq_true_eq]
  rfl

/-- **The last store that covers a byte decides.** -/
theorem byteAt_storeAll (img : Image) (stores : List Store) (i : Nat) :
    (img.storeAll stores).byteAt i = (lastStored? stores i).getD (img.byteAt i) := by
  refine Bytes.foldl_last (fun img => img.byteAt i) (fun s => s.covers i) (fun s => s.byteAt i) ?_
    stores img
  intro img s
  show (img.poke s.start s.data).byteAt i = _
  rw [byteAt_poke]
  by_cases h : s.covers i = true
  · rw [if_pos h, if_pos (Store.covers_iff.mp h)]
    rfl
  · rw [if_neg h, if_neg fun inside => h (Store.covers_iff.mpr inside)]

end ByteByteJump.Image
