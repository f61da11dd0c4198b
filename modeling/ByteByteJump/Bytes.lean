/-!
# Byte arrays as functions of an index

Memory, program images and encoded instructions are all byte arrays. Everything the rest of the
library needs to know about one is its size and the value of `get`, which is zero past the end.

## What is here

* `get` — the byte at an index, with `ext`: size and `get` determine the array
* `replicate` — a constant array, filled by doubling so that sixteen megabytes cost a few copies
* `pad` — zeros up to a length
* `overlay` — other bytes laid over an array, which grows if they stick out
* `ofFn` — an array given byte by byte

Each operation has one law for the size and one for `get`; no later proof unfolds an operation. What a
sequence of changes leaves is said once for all of them, by `foldl_last`.
-/

namespace ByteByteJump.Bytes

/-! ## The view -/

/-- The byte at index `i`; zero past the end. -/
@[inline] def get (b : ByteArray) (i : Nat) : UInt8 :=
  if h : i < b.size then b[i] else 0

theorem get_of_lt {b : ByteArray} {i : Nat} (h : i < b.size) : get b i = b[i] := dif_pos h

theorem get_of_le {b : ByteArray} {i : Nat} (h : b.size ≤ i) : get b i = 0 :=
  dif_neg (Nat.not_lt.mpr h)

theorem get_eq_getD_data (b : ByteArray) (i : Nat) : get b i = b.data[i]?.getD 0 := by
  unfold get
  split
  · next h =>
    rw [Array.getElem?_eq_getElem (show i < b.data.size from h), Option.getD_some]
    rfl
  · next h =>
    rw [Array.getElem?_eq_none (show b.data.size ≤ i from Nat.not_lt.mp h), Option.getD_none]

/-- **Size and bytes determine the array.** -/
theorem ext {a b : ByteArray} (size : a.size = b.size)
    (bytes : ∀ i, i < a.size → get a i = get b i) : a = b := by
  apply ByteArray.ext_getElem size
  intro i ha hb
  rw [← get_of_lt ha, ← get_of_lt hb]
  exact bytes i ha

/-! ## Changing one byte -/

theorem size_set (b : ByteArray) (i : Nat) (v : UInt8) (h : i < b.size) :
    (b.set i v h).size = b.size := by
  rw [← ByteArray.size_data, ByteArray.data_set, Array.size_set, ByteArray.size_data]

theorem get_set (b : ByteArray) (i : Nat) (v : UInt8) (h : i < b.size) (j : Nat) :
    get (b.set i v h) j = if j = i then v else get b j := by
  rw [get_eq_getD_data, get_eq_getD_data, ByteArray.data_set, Array.getElem?_set]
  by_cases hji : j = i
  · subst hji; simp
  · rw [if_neg (fun h => hji h.symm), if_neg hji]

/-! ## Constant arrays -/

/-- `n` copies of the byte `v`. -/
def replicate (n : Nat) (v : UInt8) : ByteArray :=
  if n = 0 then ByteArray.empty
  else
    -- two copies of one array are joined faster than bytes are pushed
    let half := replicate (n / 2) v
    if n % 2 = 0 then half ++ half else (half ++ half).push v
termination_by n
decreasing_by exact Nat.div_lt_self (by omega) (by omega)

theorem data_replicate (n : Nat) (v : UInt8) : (replicate n v).data = Array.replicate n v := by
  induction n using Nat.strongRecOn with
  | _ n ih =>
    rw [replicate]
    split
    · next h => subst h; rfl
    · next h =>
      have half := ih (n / 2) (by omega)
      simp only
      split
      · next h2 =>
        rw [ByteArray.data_append, half, Array.replicate_append_replicate,
          show n / 2 + n / 2 = n by omega]
      · next h2 =>
        rw [ByteArray.data_push, ByteArray.data_append, half, Array.replicate_append_replicate,
          ← Array.replicate_succ, show n / 2 + n / 2 + 1 = n by omega]

theorem replicate_eq (n : Nat) (v : UInt8) : replicate n v = ⟨Array.replicate n v⟩ :=
  congrArg ByteArray.mk (data_replicate n v)

@[simp] theorem size_replicate (n : Nat) (v : UInt8) : (replicate n v).size = n := by
  rw [← ByteArray.size_data, data_replicate, Array.size_replicate]

theorem get_replicate (n : Nat) (v : UInt8) (i : Nat) :
    get (replicate n v) i = if i < n then v else 0 := by
  rw [get_eq_getD_data, data_replicate, Array.getElem?_replicate]
  split <;> rfl

/-- Zeros are invisible: an array of them looks empty. -/
theorem get_replicate_zero (n i : Nat) : get (replicate n 0) i = 0 := by
  rw [get_replicate]; split <;> rfl

/-! ## Joining and cutting -/

theorem get_append (a b : ByteArray) (i : Nat) :
    get (a ++ b) i = if i < a.size then get a i else get b (i - a.size) := by
  simp only [get_eq_getD_data, ByteArray.data_append, Array.getElem?_append, ByteArray.size_data]
  split <;> rfl

theorem get_extract (b : ByteArray) (start stop i : Nat) :
    get (b.extract start stop) i = if start + i < stop then get b (start + i) else 0 := by
  by_cases h : i < (b.extract start stop).size
  · rw [get_of_lt h, ByteArray.getElem_extract]
    rw [ByteArray.size_extract] at h
    rw [if_pos (by omega), get_of_lt (by omega)]
  · rw [get_of_le (Nat.not_lt.mp h)]
    rw [ByteArray.size_extract] at h
    split
    · rw [get_of_le (by omega)]
    · rfl

/-! ## Padding -/

/-- The array with zeros appended until it has at least `n` bytes. -/
def pad (b : ByteArray) (n : Nat) : ByteArray :=
  if b.size < n then b ++ replicate (n - b.size) 0 else b

@[simp] theorem size_pad (b : ByteArray) (n : Nat) : (pad b n).size = max b.size n := by
  unfold pad
  split
  · rw [ByteArray.size_append, size_replicate]; omega
  · omega

/-- Padding does not show. -/
@[simp] theorem get_pad (b : ByteArray) (n i : Nat) : get (pad b n) i = get b i := by
  unfold pad
  split
  · rw [get_append, get_replicate_zero]
    split
    · rfl
    · next h => rw [get_of_le (Nat.not_lt.mp h)]
  · rfl

/-! ## Overlays -/

/-- The array with `data` stored from index `start` on. It grows, with zeros in any gap, to the end
of `data`, also when `data` is empty. -/
def overlay (b : ByteArray) (start : Nat) (data : ByteArray) : ByteArray :=
  data.copySlice 0 (pad b (start + data.size)) start data.size

theorem data_overlay (b : ByteArray) (start : Nat) (data : ByteArray) :
    overlay b start data
      = (pad b (start + data.size)).extract 0 start ++ data
        ++ (pad b (start + data.size)).extract (start + data.size)
            (pad b (start + data.size)).size := by
  apply ByteArray.ext
  simp only [overlay, ByteArray.copySlice, ByteArray.data_append, ByteArray.data_extract,
    ByteArray.size_data, Nat.zero_add, Nat.sub_zero, Nat.min_self]
  rw [show data.data.extract 0 data.size = data.data from Array.extract_size ..]

@[simp] theorem size_overlay (b : ByteArray) (start : Nat) (data : ByteArray) :
    (overlay b start data).size = max b.size (start + data.size) := by
  rw [data_overlay, ByteArray.size_append, ByteArray.size_append, ByteArray.size_extract,
    ByteArray.size_extract, size_pad]
  omega

/-- **An overlay covers its own range and nothing else.** -/
theorem get_overlay (b : ByteArray) (start : Nat) (data : ByteArray) (i : Nat) :
    get (overlay b start data) i
      = if start ≤ i ∧ i < start + data.size then get data (i - start) else get b i := by
  have size : ((pad b (start + data.size)).extract 0 start).size = start := by
    rw [ByteArray.size_extract, size_pad]; omega
  rw [data_overlay, get_append, get_append, ByteArray.size_append, size, get_extract, get_extract,
    size_pad]
  simp only [get_pad, Nat.zero_add]
  by_cases low : i < start
  · rw [if_pos (by omega), if_pos low, if_pos low, if_neg (by omega)]
  · by_cases mid : i < start + data.size
    · rw [if_pos mid, if_neg low, if_pos ⟨by omega, mid⟩]
    · rw [if_neg mid, if_neg (show ¬(start ≤ i ∧ i < start + data.size) from fun h => mid h.2),
        show start + data.size + (i - (start + data.size)) = i by omega]
      split
      · rfl
      · rw [get_of_le (by omega)]

/-! ## Arrays given byte by byte -/

/-- The array whose byte at index `i < n` is `f i`. -/
def ofFn (n : Nat) (f : Nat → UInt8) : ByteArray :=
  n.fold (fun i _ acc => acc.push (f i)) (ByteArray.emptyWithCapacity n)

theorem data_ofFn (n : Nat) (f : Nat → UInt8) :
    (ofFn n f).data = Array.ofFn fun i : Fin n => f i := by
  have grow : ∀ (n capacity : Nat),
      (n.fold (fun i _ acc => acc.push (f i)) (ByteArray.emptyWithCapacity capacity)).data
        = Array.ofFn fun i : Fin n => f i := by
    intro n capacity
    induction n with
    | zero => rw [Array.ofFn_zero]; rfl
    | succ n ih =>
      rw [Nat.fold_succ, ByteArray.data_push, ih, Array.ofFn_succ]
      rfl
  exact grow n n

@[simp] theorem size_ofFn (n : Nat) (f : Nat → UInt8) : (ofFn n f).size = n := by
  rw [← ByteArray.size_data, data_ofFn, Array.size_ofFn]

theorem get_ofFn (n : Nat) (f : Nat → UInt8) (i : Nat) :
    get (ofFn n f) i = if i < n then f i else 0 := by
  rw [get_eq_getD_data, data_ofFn, Array.getElem?_ofFn]
  split <;> rfl

/-! ## Changes made one after the other -/

/-- **The last change decides.** Where each step of a sequence either changes what is looked at or
leaves it as it is, the steps leave what the last of them to change it put there. -/
theorem foldl_last {σ τ α : Type} {step : σ → τ → σ} (look : σ → α) (changes : τ → Bool)
    (value : τ → α) (once : ∀ s t, look (step s t) = if changes t then value t else look s)
    (steps : List τ) (s : σ) :
    look (steps.foldl step s) = ((steps.reverse.find? changes).map value).getD (look s) := by
  induction steps generalizing s with
  | nil => rfl
  | cons t rest ih =>
    rw [List.foldl_cons, ih, List.reverse_cons, List.find?_append]
    cases rest.reverse.find? changes with
    | some last => rfl
    | none =>
      rw [once, Option.none_or, List.find?_singleton]
      cases changes t <;> rfl

end ByteByteJump.Bytes
