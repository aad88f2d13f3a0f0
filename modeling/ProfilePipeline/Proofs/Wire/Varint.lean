import Mathlib.Algebra.Ring.Nat
import Mathlib.Tactic.Common
import ProfilePipeline.Wire.Varint

/-!
# The digits of a word

Three accounts of the same bytes: the closed formula `Varint.size`, the loop `Varint.write`, and
the base-128 digits `Varint.ofNat`.

**One form.**  `write_eq_ofNat` turns the loop into digits, so that everything after it is
arithmetic on numbers.

**Length.**  `length_ofNat_le` says how many digits a number has by the power of 128 above it;
`toNat_size` says that the formula counts them.

**Reading.**  `readFrom_ofNat` reads digits back whatever follows them.  Its bound shrinks by
seven bits for each digit that was read before, which is what makes the tenth digit fit.
-/

namespace ProfilePipeline.Wire.Varint

/-! ## The loop writes digits -/

lemma toNat_shiftRight_seven (x : UInt64) : (x >>> 7).toNat = x.toNat / 128 := by
  simp [UInt64.toNat_shiftRight, Nat.shiftRight_eq_div_pow]

lemma lt_iff_toNat_lt (x : UInt64) : x < 0x80 ↔ x.toNat < 128 := by
  rw [UInt64.lt_iff_toNat_lt]
  exact Iff.rfl

/-- The low seven bits with the continuation bit on top. -/
lemma low_or_top (x : UInt64) :
    ((x &&& 0x7f) ||| 0x80).toUInt8 = (x.toNat % 128 + 128).toUInt8 := by
  have hlow : x.toNat &&& 127 = x.toNat % 128 := Nat.and_two_pow_sub_one_eq_mod x.toNat 7
  have hor : x.toNat % 128 ||| 128 = x.toNat % 128 + 128 := by
    have hadd := Nat.two_pow_add_eq_or_of_lt (i := 7) (Nat.mod_lt x.toNat (by decide)) 1
    rw [Nat.or_comm, Nat.add_comm]
    exact hadd.symm
  apply UInt8.toNat_inj.mp
  rw [UInt64.toNat_toUInt8, UInt64.toNat_or, UInt64.toNat_and]
  show (x.toNat &&& 127 ||| 128) % 256 = (x.toNat % 128 + 128) % 256
  rw [hlow, hor]

/-- **The loop writes the base-128 digits of the word.** -/
theorem write_eq_ofNat (x : UInt64) : write x = ofNat x.toNat := by
  induction x using write.induct with
  | case1 x h =>
      rw [write, ofNat, if_pos h, if_pos ((lt_iff_toNat_lt x).mp h)]
      rfl
  | case2 x h ih =>
      rw [write, ofNat, if_neg h, if_neg (mt (lt_iff_toNat_lt x).mpr h), low_or_top, ih,
        toNat_shiftRight_seven]

/-! ## How many digits there are -/

lemma ofNat_ne_nil (n : Nat) : ofNat n ≠ [] := by
  rw [ofNat]
  split <;> simp

lemma length_ofNat_pos (n : Nat) : 0 < (ofNat n).length :=
  List.length_pos_iff.mpr (ofNat_ne_nil n)

/-- The number of digits is the least one that leaves room for the number. -/
theorem length_ofNat_le (n k : Nat) : (ofNat n).length ≤ k + 1 ↔ n < 128 ^ (k + 1) := by
  induction k generalizing n with
  | zero =>
      rw [ofNat]
      split
      · simpa using ‹n < 128›
      · have := length_ofNat_pos (n / 128)
        simp only [List.length_cons]
        omega
  | succ k ih =>
      rw [ofNat]
      split
      · have : 1 ≤ 128 ^ (k + 1) := Nat.one_le_pow _ _ (by omega)
        simp only [List.length_singleton, Nat.pow_succ 128 (k + 1)]
        omega
      · simp only [List.length_cons, Nat.add_le_add_iff_right, ih]
        rw [Nat.div_lt_iff_lt_mul (by omega), ← Nat.pow_succ]

/-- Setting the lowest bit does not move the highest one. -/
lemma log2_or_one (n : Nat) : (n ||| 1).log2 = n.log2 := by
  rcases Nat.eq_zero_or_pos n with rfl | hn
  · rfl
  · have hle : n ≤ n ||| 1 := Nat.left_le_or
    have hne : n ||| 1 ≠ 0 := by omega
    apply Nat.le_antisymm
    · have hlt : n < 2 ^ (n.log2 + 1) := (Nat.log2_lt (by omega)).mp (Nat.lt_succ_self _)
      have h1 : 1 < 2 ^ (n.log2 + 1) := Nat.one_lt_two_pow (by omega)
      exact Nat.lt_succ_iff.mp ((Nat.log2_lt hne).mpr (Nat.or_lt_two_pow hlt h1))
    · exact (Nat.le_log2 hne).mpr (Nat.le_trans (Nat.log2_self_le (by omega)) hle)

/-- The number of digits, by the position of the highest bit. -/
lemma length_ofNat_eq_log2 (n : Nat) : (ofNat n).length = n.log2 / 7 + 1 := by
  have key : ∀ k, (ofNat n).length ≤ k + 1 ↔ n.log2 / 7 ≤ k := by
    intro k
    rw [length_ofNat_le, show (128 : Nat) = 2 ^ 7 from rfl, ← Nat.pow_mul]
    rcases Nat.eq_zero_or_pos n with rfl | hn
    · rw [Nat.log2_zero]
      exact iff_of_true (Nat.two_pow_pos _) (Nat.zero_le _)
    · rw [← Nat.log2_lt (by omega)]
      omega
  have hle := (key (n.log2 / 7)).mpr (Nat.le_refl _)
  have hpos := length_ofNat_pos n
  have hge := (key ((ofNat n).length - 1)).mp (by omega)
  omega

lemma log2_lt (x : UInt64) : x.toNat.log2 < 64 := by
  rcases Nat.eq_zero_or_pos x.toNat with h | h
  · rw [h]; decide
  · exact (Nat.log2_lt (by omega)).mpr x.toNat_lt

/-- The zeros in front of the highest bit, the lowest one being set. -/
lemma leadingZeros_or_one (x : UInt64) :
    leadingZeros (x ||| 1) = 63 - UInt32.ofNat x.toNat.log2 := by
  have hor : (x ||| 1).toNat = x.toNat ||| 1 := UInt64.toNat_or x 1
  have hne : ¬ x ||| 1 = 0 := by
    intro h
    have hle : 1 ≤ x.toNat ||| 1 := Nat.right_le_or
    rw [← hor, h] at hle
    exact absurd hle (by decide)
  have hlog : (x ||| 1).log2.toNat = x.toNat.log2 := by
    rw [← log2_or_one, ← hor]
    rfl
  rw [leadingZeros, if_neg hne, ← hlog]
  rfl

/-- The formula at every position that the highest bit can have. -/
lemma formula_at (k : Fin 64) :
    (((63 - UInt32.ofNat k ^^^ 63) * 9 + 73) / 64).toUInt64.toNat = k.val / 7 + 1 := by
  revert k
  decide

/-- **The formula counts the digits.** -/
theorem toNat_size (x : UInt64) : (size x).toNat = (ofNat x.toNat).length := by
  rw [size, leadingZeros_or_one, length_ofNat_eq_log2]
  exact formula_at ⟨x.toNat.log2, log2_lt x⟩

lemma toNat_size_eq_length_write (x : UInt64) : (size x).toNat = (write x).length := by
  rw [toNat_size, write_eq_ofNat]

/-! ## Reading digits back -/

/-- Digits are read back whatever follows them.  Each digit that was read before takes seven bits
of the room. -/
theorem readFrom_ofNat (seen n : Nat) (rest : Bytes) (hseen : seen ≤ 9)
    (h : n < 2 ^ (64 - 7 * seen)) : readFrom seen (ofNat n ++ rest) = some (n, rest) := by
  induction hk : 9 - seen generalizing seen n with
  | zero =>
      have h9 : seen = 9 := by omega
      subst h9
      have hn : n < 2 := h
      have h2 : ¬ (2 : UInt8) ≤ n.toUInt8 := by
        rw [UInt8.le_iff_toNat_le]
        show ¬ 2 ≤ n % 256
        omega
      have h128 : n.toUInt8 < 0x80 := by
        rw [UInt8.lt_iff_toNat_lt]
        show n % 256 < 128
        omega
      rw [ofNat, if_pos (by omega), List.singleton_append, readFrom, if_pos h128,
        if_neg (fun hc => h2 hc.2)]
      show some (n % 256, rest) = some (n, rest)
      rw [Nat.mod_eq_of_lt (by omega)]
  | succ k ih =>
      have hne : ¬ seen = 9 := by omega
      rw [ofNat]
      split
      · have h128 : n.toUInt8 < 0x80 := by
          rw [UInt8.lt_iff_toNat_lt]
          show n % 256 < 128
          omega
        rw [List.singleton_append, readFrom, if_pos h128, if_neg (fun hc => hne hc.1)]
        show some (n % 256, rest) = some (n, rest)
        rw [Nat.mod_eq_of_lt (by omega)]
      · have hd : (n % 128 + 128).toUInt8.toNat = n % 128 + 128 := by
          show (n % 128 + 128) % 256 = n % 128 + 128
          omega
        have h128 : ¬ (n % 128 + 128).toUInt8 < 0x80 := by
          rw [UInt8.lt_iff_toNat_lt, hd]
          show ¬ n % 128 + 128 < 128
          omega
        have hhigh : n / 128 < 2 ^ (64 - 7 * (seen + 1)) := by
          rw [Nat.div_lt_iff_lt_mul (by omega), show (128 : Nat) = 2 ^ 7 from rfl, ← Nat.pow_add]
          convert h using 2
          omega
        rw [List.cons_append, readFrom, if_neg h128, if_neg hne,
          ih (seen + 1) (n / 128) (by omega) hhigh (by omega)]
        show some ((n % 128 + 128).toUInt8.toNat - 128 + 128 * (n / 128), rest) = some (n, rest)
        rw [hd]
        congr 2
        omega

/-- **A word is read back from its digits**, and what follows them is left. -/
theorem read?_ofNat {n : Nat} (h : n < 2 ^ 64) (rest : Bytes) :
    read? (ofNat n ++ rest) = some (n.toUInt64, rest) := by
  rw [read?, readFrom_ofNat 0 n rest (by omega) h]
  rfl

lemma read?_write (x : UInt64) (rest : Bytes) : read? (write x ++ rest) = some (x, rest) := by
  rw [write_eq_ofNat, read?_ofNat x.toNat_lt]
  simp

end ProfilePipeline.Wire.Varint
