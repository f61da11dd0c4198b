import ByteByteJump.Bytes

/-!
# The checksum of a byte stream

The 32-bit FNV-1a hash: from the offset basis on, each byte is mixed into the lowest bits and the
result is multiplied by the prime.
-/

namespace ByteByteJump.Checksum

def offsetBasis : UInt32 := 0x811C9DC5

def prime : UInt32 := 0x01000193

@[inline] def absorb (h : UInt32) (b : UInt8) : UInt32 := (h ^^^ b.toUInt32) * prime

def ofBytes (b : ByteArray) : UInt32 :=
  b.size.fold (fun i _ h => absorb h b[i]) offsetBasis

/-- **The hash absorbs the bytes from left to right.** -/
theorem ofBytes_eq_foldl (b : ByteArray) :
    ofBytes b = b.data.toList.foldl absorb offsetBasis := by
  have upTo : ∀ (n : Nat) (hn : n ≤ b.size),
      n.fold (fun i hi h => absorb h b[i]) offsetBasis
        = (b.data.toList.take n).foldl absorb offsetBasis := by
    intro n
    induction n with
    | zero => intro _; rfl
    | succ n ih =>
      intro hn
      have here : n < b.data.toList.length := by
        rw [Array.length_toList, ByteArray.size_data]; omega
      rw [Nat.fold_succ, ih (by omega), List.take_succ_eq_append_getElem here, List.foldl_append]
      rfl
  have whole : b.data.toList.length = b.size := Array.length_toList.trans ByteArray.size_data
  rw [ofBytes, upTo b.size (Nat.le_refl _), List.take_of_length_le (Nat.le_of_eq whole)]

end ByteByteJump.Checksum
