import Mathlib.Algebra.Ring.Int.Defs
import Mathlib.Data.UInt
import Mathlib.Order.Bounds.Basic
import ProfilePipeline.Proofs.Wire.Passes
import ProfilePipeline.Wire.Typed

/-!
# Words in digits

What a number looks like on the wire, said by position: `Varint.AreDigits`.

* `areDigits_ofNat` — the digits that division gives are these.
* `formula_exact` — the formula for their count, in numbers instead of words: nothing is lost on the
  way, because the zeros that it starts from leave room.
* `write_prefix_iff` — no word begins another one.
* `encode_scalars`, `size_scalars` — lists, one number after the other.
* `signed_digits` — signed numbers are words in two's complement.

**`words_written_in_digits`** puts them together.
-/

namespace ProfilePipeline.Wire

namespace Varint

/-! ## Digits by their position -/

/-- **The base-128 digits of a number**, lowest first: as few as there is room for it in, but one at
least, and all but the last raised by 128. -/
structure AreDigits (n : Nat) (bytes : Bytes) : Prop where
  length : IsLeast {k | 1 ≤ k ∧ n < 2 ^ (7 * k)} bytes.length
  digit : ∀ i : Fin bytes.length,
    (bytes.get i).toNat = n / 128 ^ i.val % 128 + if i.val + 1 < bytes.length then 128 else 0

lemma isLeast_length_ofNat (n : Nat) :
    IsLeast {k | 1 ≤ k ∧ n < 2 ^ (7 * k)} (ofNat n).length := by
  have hroom : ∀ k, n < 2 ^ (7 * (k + 1)) ↔ (ofNat n).length ≤ k + 1 := by
    intro k
    rw [length_ofNat_le, Nat.pow_mul]
  obtain ⟨k, hk⟩ := Nat.exists_eq_add_of_lt (length_ofNat_pos n)
  rw [Nat.zero_add] at hk
  refine ⟨⟨length_ofNat_pos n, ?_⟩, ?_⟩
  · rw [hk, hroom, hk]
  · rintro j ⟨hpos, hlt⟩
    obtain ⟨i, rfl⟩ := Nat.exists_eq_add_of_le' hpos
    exact (hroom i).mp hlt

lemma toNat_digit {n i : Nat} {b : UInt8} (h : (ofNat n)[i]? = some b) :
    b.toNat = n / 128 ^ i % 128 + if i + 1 < (ofNat n).length then 128 else 0 := by
  induction n using ofNat.induct generalizing i with
  | case1 n hlast =>
      rw [ofNat, if_pos hlast] at h ⊢
      obtain ⟨rfl, rfl⟩ : i = 0 ∧ n.toUInt8 = b := by
        cases i with
        | zero => simpa using h
        | succ i => simp at h
      show n % 256 = n / 1 % 128 + 0
      omega
  | case2 n hmore ih =>
      have hrest := length_ofNat_pos (n / 128)
      rw [ofNat, if_neg hmore] at h ⊢
      cases i with
      | zero =>
          rw [List.getElem?_cons_zero, Option.some.injEq] at h
          subst h
          rw [List.length_cons, if_pos (by omega)]
          show (n % 128 + 128) % 256 = n / 1 % 128 + 128
          omega
      | succ i =>
          rw [List.getElem?_cons_succ] at h
          rw [ih h, Nat.div_div_eq_div_mul, Nat.pow_succ', List.length_cons]
          simp

/-- **Division gives the digits.** -/
theorem areDigits_ofNat (n : Nat) : AreDigits n (ofNat n) := by
  refine ⟨isLeast_length_ofNat n, fun i => toNat_digit ?_⟩
  rw [List.get_eq_getElem, List.getElem?_eq_getElem]

lemma areDigits_write (x : UInt64) : AreDigits x.toNat (write x) := by
  rw [write_eq_ofNat]
  exact areDigits_ofNat x.toNat

/-! ## The formula in numbers -/

lemma toNat_leadingZeros (x : UInt64) : (leadingZeros (x ||| 1)).toNat = 63 - x.toNat.log2 := by
  have hlt := log2_lt x
  have hlog : (UInt32.ofNat x.toNat.log2).toNat = x.toNat.log2 :=
    UInt32.toNat_ofNat_of_lt' (Nat.lt_trans hlt (by decide))
  have hle : UInt32.ofNat x.toNat.log2 ≤ 63 := by
    rw [UInt32.le_iff_toNat_le, hlog]
    exact Nat.le_of_lt_succ hlt
  rw [leadingZeros_or_one, UInt32.toNat_sub_of_le _ _ hle, hlog]
  rfl

/-- Nothing is left above the highest bit. -/
lemma div_two_pow_log2 {n : Nat} (h : n ≠ 0) : n / 2 ^ n.log2 = 1 := by
  have hlow := Nat.log2_self_le h
  have hhigh : n < 2 ^ (n.log2 + 1) := (Nat.log2_lt h).mp (Nat.lt_succ_self _)
  rw [Nat.pow_succ] at hhigh
  apply Nat.div_eq_of_lt_le <;> omega

lemma xor_sixtyThree (k : Fin 64) : k.val ^^^ 63 = 63 - k.val := by
  revert k
  decide

/-- **The formula computes what it says.**  It starts from the zeros in front of the highest bit.
They are at most 63, so the exclusive or subtracts them, and no product or sum is too large for a
word of 32 bits. -/
theorem formula_exact (x : UInt64) :
    let zeros := (leadingZeros (x ||| 1)).toNat
    zeros ≤ 63 ∧ (x.toNat ||| 1) / 2 ^ (63 - zeros) = 1 ∧ zeros ^^^ 63 = 63 - zeros ∧
      (63 - zeros) * 9 + 73 < 2 ^ 32 ∧ (size x).toNat = ((63 - zeros) * 9 + 73) / 64 := by
  intro zeros
  have hlog := log2_lt x
  have hzeros : zeros = 63 - x.toNat.log2 := toNat_leadingZeros x
  have hposition : 63 - zeros = x.toNat.log2 := by omega
  have hne : x.toNat ||| 1 ≠ 0 := Nat.ne_of_gt Nat.right_le_or
  refine ⟨by omega, ?_, xor_sixtyThree ⟨zeros, by omega⟩, by omega, ?_⟩
  · rw [hposition, ← log2_or_one, div_two_pow_log2 hne]
  · rw [hposition, toNat_size, length_ofNat_eq_log2]
    omega

/-! ## No word begins another -/

/-- **What begins with the digits of a word is that word.** -/
theorem write_prefix_iff {x y : UInt64} : write x <+: write y ↔ x = y := by
  constructor
  · rintro ⟨rest, h⟩
    have hx := read?_write x rest
    have hy := read?_write y []
    rw [List.append_nil] at hy
    rw [h, hy, Option.some.injEq, Prod.mk.injEq] at hx
    exact hx.1.symm
  · rintro rfl
    exact List.prefix_rfl

/-- The words that take the most digits are those with the highest bit. -/
lemma length_write_eq_ten_iff (x : UInt64) : (write x).length = 10 ↔ 2 ^ 63 ≤ x.toNat := by
  have hnine := length_ofNat_le x.toNat 8
  have hten := length_ofNat_le x.toNat 9
  have hlt := x.toNat_lt
  rw [write_eq_ofNat]
  omega

end Varint

/-! ## Scalars and lists of them -/

section Scalars

variable {α : Type} [Scalar α]

lemma encode_scalar (x : α) : (Value.scalar x).encode = Varint.write (Scalar.word x) :=
  Value.encode_varint _

lemma encode_scalars (xs : List α) :
    (Value.scalars xs).encode = xs.flatMap fun x => (Value.scalar x).encode := by
  rw [Value.scalars, Value.encode_packed, List.flatMap_map]
  simp only [encode_scalar]

lemma length_encode_scalar (x : α) :
    (Value.scalar x).encode.length = (Value.scalar x).size.toNat := by
  rw [encode_scalar]
  exact (Varint.toNat_size_eq_length_write _).symm

/-- A list has as many bytes as its elements are measured to have. -/
lemma length_encode_scalars (xs : List α) :
    (Value.scalars xs).encode.length = (xs.map fun x => (Value.scalar x).size.toNat).sum := by
  rw [encode_scalars, List.length_flatMap]
  simp only [length_encode_scalar]

lemma foldl_size_add (words : List UInt64) (len : UInt64) :
    words.foldl (fun len word => len + Varint.size word) len =
      len + (words.map Varint.size).sum := by
  induction words generalizing len with
  | nil => simp
  | cons word words ih => rw [List.foldl_cons, ih, List.map_cons, List.sum_cons, UInt64.add_assoc]

/-- A list is measured in words, as its elements are. -/
lemma size_scalars (xs : List α) :
    (Value.scalars xs).size = (xs.map fun x => (Value.scalar x).size).sum := by
  show (xs.map Scalar.word).foldl (fun len word => len + Varint.size word) 0 = _
  rw [foldl_size_add, UInt64.zero_add, List.map_map]
  rfl

end Scalars

/-! ## Signed numbers -/

lemma toNat_word_int64 (n : Int64) : (Scalar.word n).toNat = (n.toInt % 2 ^ 64).toNat := by
  show n.toBitVec.toNat = (n.toBitVec.toInt % 2 ^ 64).toNat
  have hlt := n.toBitVec.isLt
  rw [BitVec.toInt_eq_toNat_cond]
  split <;> omega

lemma toNat_word_int32 (n : Int32) : (Scalar.word n).toNat = (n.toInt % 2 ^ 64).toNat := by
  rw [← n.toInt_toInt64, ← toNat_word_int64]
  rfl

/-- A number of at most 64 bits is written as its two's complement, in ten bytes if it is
negative. -/
lemma signed_digits {α : Type} [Scalar α] {n : α} {value : Int}
    (hword : (Scalar.word n).toNat = (value % 2 ^ 64).toNat)
    (hlow : -2 ^ 63 ≤ value) (hhigh : value < 2 ^ 63) :
    Varint.AreDigits (value % 2 ^ 64).toNat (Value.scalar n).encode ∧
      ((Value.scalar n).encode.length = 10 ↔ value < 0) := by
  rw [encode_scalar, Varint.length_write_eq_ten_iff, ← hword]
  exact ⟨Varint.areDigits_write _, by omega⟩

/-- **Words are written in digits, as many as the formula says.**  A word is written as its
base-128 digits, of which the formula counts the fewest that will do, and nothing is lost in
computing it; whatever the sink, these bytes are what it is offered.  No word begins another.
Signed numbers are written as the words of their two's complement, so the negative ones, and only
they, take ten bytes.  Lists are their elements one after the other, and as long as these. -/
theorem words_written_in_digits (x y : UInt64) (n : Int64) (m : Int32) {α : Type} [Scalar α]
    (xs : List α) :
    let zeros := (Varint.leadingZeros (x ||| 1)).toNat
    (zeros ≤ 63 ∧ (x.toNat ||| 1) / 2 ^ (63 - zeros) = 1 ∧ zeros ^^^ 63 = 63 - zeros ∧
        (63 - zeros) * 9 + 73 < 2 ^ 32 ∧
        (Varint.size x).toNat = ((63 - zeros) * 9 + 73) / 64) ∧
      Varint.AreDigits x.toNat (Varint.write x) ∧
      (Varint.write x).length = (Varint.size x).toNat ∧
      (∀ s, (Value.scalar x).writeTo s = s.put (Varint.write x)) ∧
      (Varint.write x <+: Varint.write y ↔ x = y) ∧
      (Varint.AreDigits (n.toInt % 2 ^ 64).toNat (Value.scalar n).encode ∧
        ((Value.scalar n).encode.length = 10 ↔ n.toInt < 0)) ∧
      (Varint.AreDigits (m.toInt % 2 ^ 64).toNat (Value.scalar m).encode ∧
        ((Value.scalar m).encode.length = 10 ↔ m.toInt < 0)) ∧
      (Value.scalars xs).encode = xs.flatMap (fun x => (Value.scalar x).encode) ∧
      (Value.scalars xs).size = (xs.map fun x => (Value.scalar x).size).sum ∧
      (Value.scalars xs).encode.length = (xs.map fun x => (Value.scalar x).size.toNat).sum := by
  intro zeros
  refine ⟨Varint.formula_exact x, Varint.areDigits_write x,
    (Varint.toNat_size_eq_length_write x).symm, fun s => writeVarint_eq_put x s,
    Varint.write_prefix_iff, ?_, ?_, encode_scalars xs, size_scalars xs, length_encode_scalars xs⟩
  · exact signed_digits (toNat_word_int64 n) n.le_toInt n.toInt_lt
  · refine signed_digits (toNat_word_int32 m) ?_ ?_
    · have := m.le_toInt
      omega
    · have := m.toInt_lt
      omega

end ProfilePipeline.Wire
