import Mathlib.Tactic.Ring

/-!
# CrossChain.Lib.Bytes

Byte strings as codecs use them: fixed-length arrays, big-endian words, and
slices that fail when they reach past the end.

The read-back facts are proved over an arbitrary prefix and suffix
(`slice_append`, `suffix_append`), so that a codec proof names the parts of
its layout and never computes with offsets.
-/

/-- A byte array of fixed length, Rust's `[u8; n]`. -/
abbrev FixedBytes (n : ℕ) := { bs : List UInt8 // bs.length = n }

namespace FixedBytes

/-- `[0; n]`. -/
def zero (n : ℕ) : FixedBytes n := ⟨List.replicate n 0, List.length_replicate⟩

end FixedBytes

namespace Bytes

/-! ## big-endian words -/

/-- The `k` low bytes of `n`, most significant first. -/
def encodeBE : (k n : ℕ) → List UInt8
  | 0, _ => []
  | k + 1, n => UInt8.ofNat (n / 256 ^ k) :: encodeBE k n

/-- The number a byte string spells, most significant byte first. -/
def decodeBE : List UInt8 → ℕ
  | [] => 0
  | b :: bs => b.toNat * 256 ^ bs.length + decodeBE bs

@[simp] theorem length_encodeBE (k n : ℕ) : (encodeBE k n).length = k := by
  induction k with
  | zero => rfl
  | succ k ih => simp [encodeBE, ih]

/-- A word reads back as the number it was written from, up to its width. -/
theorem decodeBE_encodeBE (k n : ℕ) : decodeBE (encodeBE k n) = n % 256 ^ k := by
  induction k with
  | zero => simp [encodeBE, decodeBE, Nat.mod_one]
  | succ k ih =>
      have hbyte : (UInt8.ofNat (n / 256 ^ k)).toNat = n / 256 ^ k % 256 := by simp
      rw [encodeBE, decodeBE, ih, length_encodeBE, hbyte, Nat.pow_succ, Nat.mod_mul,
        Nat.mul_comm (256 ^ k), Nat.add_comm]

theorem decodeBE_lt (bs : List UInt8) : decodeBE bs < 256 ^ bs.length := by
  induction bs with
  | nil => simp [decodeBE]
  | cons b bs ih =>
      have hb : b.toNat < 256 := b.toNat_lt_size
      have hmul : b.toNat * 256 ^ bs.length ≤ 255 * 256 ^ bs.length :=
        Nat.mul_le_mul_right _ (by omega)
      rw [decodeBE, List.length_cons, Nat.pow_succ]
      omega

/-- A word is determined by the number it spells: writing it back gives the
same bytes. -/
theorem encodeBE_decodeBE (bs : List UInt8) : encodeBE bs.length (decodeBE bs) = bs := by
  have hmod : ∀ k n m, n % 256 ^ k = m % 256 ^ k → encodeBE k n = encodeBE k m := by
    intro k
    induction k with
    | zero => intros; rfl
    | succ k ih =>
        intro n m h
        have hlow : n % 256 ^ k = m % 256 ^ k := by
          have := congrArg (· % 256 ^ k) h
          simpa [Nat.pow_succ, Nat.mod_mul_right_mod] using this
        have hhigh : n / 256 ^ k % 256 = m / 256 ^ k % 256 := by
          rw [Nat.pow_succ, Nat.mod_mul, Nat.mod_mul, hlow] at h
          exact Nat.eq_of_mul_eq_mul_left (Nat.pos_of_ne_zero (by simp)) (Nat.add_left_cancel h)
        have hbyte : UInt8.ofNat (n / 256 ^ k) = UInt8.ofNat (m / 256 ^ k) := by
          rw [← UInt8.toNat_inj]; simpa using hhigh
        rw [encodeBE, encodeBE, ih n m hlow, hbyte]
  induction bs with
  | nil => rfl
  | cons b bs ih =>
      have hlt := decodeBE_lt bs
      have hpos : 0 < 256 ^ bs.length := Nat.pos_of_ne_zero (by simp)
      have hdiv : (b.toNat * 256 ^ bs.length + decodeBE bs) / 256 ^ bs.length = b.toNat := by
        rw [Nat.add_comm, Nat.add_mul_div_right _ _ hpos, Nat.div_eq_of_lt hlt, Nat.zero_add]
      have htail : encodeBE bs.length (b.toNat * 256 ^ bs.length + decodeBE bs) =
          encodeBE bs.length (decodeBE bs) := hmod _ _ _ (by simp)
      rw [List.length_cons, decodeBE, encodeBE, hdiv, UInt8.ofNat_toNat, htail, ih]

/-- `u64::to_be_bytes`. -/
def ofU64 (x : UInt64) : List UInt8 := encodeBE 8 x.toNat

/-- `u64::from_be_bytes`. -/
def toU64 (bs : FixedBytes 8) : UInt64 := UInt64.ofNat (decodeBE bs.val)

/-- `u32::to_be_bytes`. -/
def ofU32 (x : UInt32) : List UInt8 := encodeBE 4 x.toNat

/-- `u32::from_be_bytes`. -/
def toU32 (bs : FixedBytes 4) : UInt32 := UInt32.ofNat (decodeBE bs.val)

@[simp] theorem length_ofU64 (x : UInt64) : (ofU64 x).length = 8 := length_encodeBE 8 _

@[simp] theorem length_ofU32 (x : UInt32) : (ofU32 x).length = 4 := length_encodeBE 4 _

theorem toU64_ofU64 (x : UInt64) : toU64 ⟨ofU64 x, length_ofU64 x⟩ = x := by
  have hlt : x.toNat < 256 ^ 8 := x.toNat_lt_size
  simp only [toU64, ofU64]
  rw [decodeBE_encodeBE, Nat.mod_eq_of_lt hlt, UInt64.ofNat_toNat]

theorem toU32_ofU32 (x : UInt32) : toU32 ⟨ofU32 x, length_ofU32 x⟩ = x := by
  have hlt : x.toNat < 256 ^ 4 := x.toNat_lt_size
  simp only [toU32, ofU32]
  rw [decodeBE_encodeBE, Nat.mod_eq_of_lt hlt, UInt32.ofNat_toNat]

theorem ofU64_toU64 (bs : FixedBytes 8) : ofU64 (toU64 bs) = bs.val := by
  have hlt : decodeBE bs.val < 2 ^ 64 := by
    have := decodeBE_lt bs.val
    rw [bs.property] at this
    exact this
  rw [ofU64, toU64, UInt64.toNat_ofNat_of_lt' hlt]
  have := encodeBE_decodeBE bs.val
  rwa [bs.property] at this

/-! ## slices -/

/-- `bs[lo..lo + n]` copied into a `[u8; n]`; `none` where Rust panics. -/
def slice (bs : List UInt8) (lo n : ℕ) : Option (FixedBytes n) :=
  if h : lo + n ≤ bs.length then
    some ⟨(bs.drop lo).take n, by rw [List.length_take, List.length_drop]; omega⟩
  else none

/-- A slice reads the part of the layout that starts at its offset. -/
theorem slice_append {n : ℕ} (front : List UInt8) (mid : FixedBytes n) (back : List UInt8) :
    slice (front ++ (mid.val ++ back)) front.length n = some mid := by
  have hmid := mid.property
  unfold slice
  rw [dif_pos (by simp only [List.length_append]; omega)]
  congr 1
  apply Subtype.ext
  simp only [List.drop_left]
  exact List.take_left' hmid

theorem slice_eq_none {bs : List UInt8} {lo n : ℕ} :
    slice bs lo n = none ↔ bs.length < lo + n := by
  unfold slice; split <;> simp <;> omega

theorem isSome_slice {bs : List UInt8} {lo n : ℕ} :
    (slice bs lo n).isSome ↔ lo + n ≤ bs.length := by
  rw [Option.isSome_iff_ne_none, ne_eq, slice_eq_none, Nat.not_lt]

/-- A buffer that is long enough starts with an array. -/
theorem exists_eq_append {bs : List UInt8} {n : ℕ} (h : n ≤ bs.length) :
    ∃ (front : FixedBytes n) (back : List UInt8), bs = front.val ++ back :=
  ⟨⟨bs.take n, List.length_take_of_le h⟩, bs.drop n, (List.take_append_drop n bs).symm⟩

/-- `bs[lo..]` of a layout is what follows the first `lo` bytes. -/
theorem suffix_append (front back : List UInt8) : (front ++ back).drop front.length = back :=
  List.drop_left

end Bytes
