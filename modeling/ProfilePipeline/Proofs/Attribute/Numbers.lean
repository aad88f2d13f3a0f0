import Mathlib.Algebra.Order.Field.Rat
import Mathlib.Tactic.Common
import Mathlib.Tactic.Ring
import ProfilePipeline.Proofs.Attribute.Equality

/-!
# Doubles as numbers

Doubles are compared by their bits, with an exception for the zeros and one for NaN.  What is meant
is the comparison of the numbers that the bits stand for, and this is the same thing.

**The number.**  `Double.number?` reads a double as the standard does: sign, exponent and fraction
give a rational number or an infinity, and NaN gives none.

**The bits.**  Counted in the least positive double, the magnitude of a finite one is a natural
number, `Double.units`.  Whoever knows it knows exponent and fraction (`units_inj`): each exponent
has an interval of its own.  So two doubles with the same number differ in the sign of zero at most.

* **`Double.same_iff_number?`** — the comparison of bits is the comparison of numbers.
* **`AttributeValue.same_iff_equal`** — values are compared kind by kind, and by number.
-/

namespace ProfilePipeline

/-- The number that a mantissa and an exponent stand for. -/
def Decimal.Binary.value (b : Decimal.Binary) : ℚ := b.mantissa * 2 ^ b.exponent

namespace Double

/-- What a double can stand for: a rational number, or one of the infinities. -/
inductive Number where
  | finite (value : ℚ)
  | infinite (negative : Bool)
  deriving DecidableEq

/-- **The number that a double stands for**, if it is one. -/
def number? (x : Double) : Option Number :=
  if x.isNaN then none
  else if x.isInfinite then some (.infinite x.isNegative)
  else some (.finite (if x.isNegative then -x.magnitude.value else x.magnitude.value))

/-- Doubles that stand for one and the same number. -/
def Equal (x y : Double) : Prop := ∃ n, x.number? = some n ∧ y.number? = some n

variable {x y : Double}

/-! ## Sign, exponent and fraction -/

lemma toNat_exponentBits (x : Double) : x.exponentBits.toNat = x.bits.toNat / 2 ^ 52 % 2 ^ 11 := by
  have hshift : (x.bits >>> 52).toNat = x.bits.toNat / 2 ^ 52 := by
    simp [UInt64.toNat_shiftRight, Nat.shiftRight_eq_div_pow]
  rw [exponentBits, UInt64.toNat_and, hshift]
  exact Nat.and_two_pow_sub_one_eq_mod _ 11

lemma toNat_fractionBits (x : Double) : x.fractionBits.toNat = x.bits.toNat % 2 ^ 52 := by
  rw [fractionBits, UInt64.toNat_and]
  exact Nat.and_two_pow_sub_one_eq_mod _ 52

lemma isNegative_iff : x.isNegative = true ↔ 2 ^ 63 ≤ x.bits.toNat := by
  have hshift : (x.bits >>> 63).toNat = x.bits.toNat / 2 ^ 63 := by
    simp [UInt64.toNat_shiftRight, Nat.shiftRight_eq_div_pow]
  have hlt := x.bits.toNat_lt
  rw [isNegative, beq_iff_eq, ← UInt64.toNat_inj, hshift]
  change x.bits.toNat / 2 ^ 63 = 1 ↔ _
  omega

lemma fractionBits_lt (x : Double) : x.fractionBits.toNat < 2 ^ 52 := by
  rw [toNat_fractionBits]
  exact Nat.mod_lt _ (by decide)

/-- A double is its sign, its exponent and its fraction. -/
lemma eq_of_parts (hsign : x.isNegative = y.isNegative)
    (hexponent : x.exponentBits.toNat = y.exponentBits.toNat)
    (hfraction : x.fractionBits.toNat = y.fractionBits.toNat) : x = y := by
  have hsign' : 2 ^ 63 ≤ x.bits.toNat ↔ 2 ^ 63 ≤ y.bits.toNat := by
    rw [← isNegative_iff, ← isNegative_iff, hsign]
  rw [toNat_exponentBits, toNat_exponentBits] at hexponent
  rw [toNat_fractionBits, toNat_fractionBits] at hfraction
  have hx := x.bits.toNat_lt
  have hy := y.bits.toNat_lt
  have hbits : x.bits = y.bits := UInt64.toNat_inj.mp (by omega)
  cases x
  cases y
  simpa using hbits

/-! ## The magnitude as a count -/

/-- The least positive double. -/
def unit : ℚ := 2 ^ (-1074 : ℤ)

lemma unit_ne_zero : unit ≠ 0 := zpow_ne_zero _ two_ne_zero

/-- The magnitude of a finite double, counted in the least positive one. -/
def units (x : Double) : Nat :=
  if x.exponentBits.toNat = 0 then x.fractionBits.toNat
  else (2 ^ 52 + x.fractionBits.toNat) * 2 ^ (x.exponentBits.toNat - 1)

lemma value_magnitude (x : Double) : x.magnitude.value = x.units * unit := by
  have hzero : x.exponentBits = 0 ↔ x.exponentBits.toNat = 0 := by
    rw [← UInt64.toNat_inj]
    rfl
  rw [magnitude, units]
  split
  · rename_i h
    rw [if_pos (hzero.mp h)]
    rfl
  · rename_i h
    have hpos : x.exponentBits.toNat ≠ 0 := mt hzero.mpr h
    have hexponent : ((x.exponentBits.toNat : ℤ) - 1075) =
        ((x.exponentBits.toNat - 1 : ℕ) : ℤ) + -1074 := by omega
    rw [if_neg hpos, Decimal.Binary.value]
    simp only [hexponent]
    rw [zpow_add₀ two_ne_zero, zpow_natCast, ← unit, ← mul_assoc]
    push_cast
    rfl

/-- The magnitudes with one exponent lie between two powers. -/
lemma units_bounds (h : x.exponentBits.toNat ≠ 0) :
    2 ^ 52 * 2 ^ (x.exponentBits.toNat - 1) ≤ x.units ∧
      x.units < 2 ^ 52 * 2 ^ x.exponentBits.toNat := by
  have hfraction := x.fractionBits_lt
  have hdouble : 2 ^ x.exponentBits.toNat = 2 ^ (x.exponentBits.toNat - 1) * 2 := by
    rw [← Nat.pow_succ]
    congr 1
    omega
  rw [units, if_neg h, hdouble]
  constructor
  · exact Nat.mul_le_mul_right _ (by omega)
  · calc (2 ^ 52 + x.fractionBits.toNat) * 2 ^ (x.exponentBits.toNat - 1)
        < (2 ^ 52 * 2) * 2 ^ (x.exponentBits.toNat - 1) :=
          Nat.mul_lt_mul_of_pos_right (by omega) (Nat.two_pow_pos _)
      _ = 2 ^ 52 * (2 ^ (x.exponentBits.toNat - 1) * 2) := by ring

/-- A greater exponent makes a greater magnitude. -/
lemma units_lt_of_exponentBits_lt (h : x.exponentBits.toNat < y.exponentBits.toNat) :
    x.units < y.units := by
  have hy := (units_bounds (x := y) (by omega)).1
  have hx : x.units < 2 ^ 52 * 2 ^ x.exponentBits.toNat := by
    by_cases hzero : x.exponentBits.toNat = 0
    · have hfraction := x.fractionBits_lt
      rw [units, if_pos hzero, hzero]
      omega
    · exact (units_bounds hzero).2
  have hpow : 2 ^ x.exponentBits.toNat ≤ 2 ^ (y.exponentBits.toNat - 1) :=
    Nat.pow_le_pow_right (by decide) (by omega)
  calc x.units < 2 ^ 52 * 2 ^ x.exponentBits.toNat := hx
    _ ≤ 2 ^ 52 * 2 ^ (y.exponentBits.toNat - 1) := Nat.mul_le_mul_left _ hpow
    _ ≤ y.units := hy

/-- **The magnitude determines exponent and fraction.** -/
lemma units_inj (h : x.units = y.units) :
    x.exponentBits.toNat = y.exponentBits.toNat ∧
      x.fractionBits.toNat = y.fractionBits.toNat := by
  have hexponent : x.exponentBits.toNat = y.exponentBits.toNat := by
    rcases Nat.lt_trichotomy x.exponentBits.toNat y.exponentBits.toNat with hlt | heq | hlt
    · exact absurd h (units_lt_of_exponentBits_lt hlt).ne
    · exact heq
    · exact absurd h (units_lt_of_exponentBits_lt hlt).ne'
  refine ⟨hexponent, ?_⟩
  rw [units, units, hexponent] at h
  split at h
  · exact h
  · have := Nat.eq_of_mul_eq_mul_right (Nat.two_pow_pos _) h
    omega

lemma isZero_iff : x.isZero = true ↔ x.units = 0 := by
  rw [isZero, Bool.and_eq_true, beq_iff_eq, beq_iff_eq, ← UInt64.toNat_inj, ← UInt64.toNat_inj]
  change x.exponentBits.toNat = 0 ∧ x.fractionBits.toNat = 0 ↔ _
  rw [units]
  split
  · simp_all
  · simp_all

/-! ## The same number -/

/-- A finite double is a whole number of the least positive ones. -/
lemma number?_of_finite (hNaN : x.isNaN = false) (hinfinite : x.isInfinite = false) :
    x.number? =
      some (.finite (((if x.isNegative then -x.units else x.units : ℤ) : ℚ) * unit)) := by
  rw [number?, hNaN, hinfinite, value_magnitude]
  cases x.isNegative <;> simp

lemma number?_eq_none_iff : x.number? = none ↔ x.isNaN = true := by
  rw [number?]
  cases x.isNaN <;> cases x.isInfinite <;> simp

lemma isNaN_of_number? {n : Number} (h : x.number? = some n) : x.isNaN = false := by
  rw [← Bool.not_eq_true, ← number?_eq_none_iff, h]
  exact Option.some_ne_none n

lemma number?_of_isZero (h : x.isZero = true) : x.number? = some (.finite 0) := by
  have hunits := isZero_iff.mp h
  rw [isZero, Bool.and_eq_true, beq_iff_eq, beq_iff_eq] at h
  have hNaN : x.isNaN = false := by simp [isNaN, h.1]
  have hinfinite : x.isInfinite = false := by simp [isInfinite, h.1]
  rw [number?_of_finite hNaN hinfinite, hunits]
  simp

lemma number?_of_infinite (h : x.isInfinite = true) :
    x.number? = some (.infinite x.isNegative) := by
  have hNaN : x.isNaN = false := by
    rw [isInfinite, Bool.and_eq_true, beq_iff_eq, beq_iff_eq] at h
    simp [isNaN, h.2]
  rw [number?, hNaN, h]
  rfl

lemma eq_of_infinite (hx : x.isInfinite = true) (hy : y.isInfinite = true)
    (h : x.number? = y.number?) : x = y := by
  rw [number?_of_infinite hx, number?_of_infinite hy, Option.some.injEq,
    Number.infinite.injEq] at h
  rw [isInfinite, Bool.and_eq_true, beq_iff_eq, beq_iff_eq] at hx hy
  exact eq_of_parts h (by rw [hx.1, hy.1]) (by rw [hx.2, hy.2])

/-- Finite doubles with the same number have the same sign and the same magnitude, or are zeros. -/
lemma eq_or_isZero_of_finite (hx : x.isNaN = false ∧ x.isInfinite = false)
    (hy : y.isNaN = false ∧ y.isInfinite = false) (h : x.number? = y.number?) :
    (x.isZero = true ∧ y.isZero = true) ∨ x = y := by
  rw [number?_of_finite hx.1 hx.2, number?_of_finite hy.1 hy.2, Option.some.injEq,
    Number.finite.injEq, mul_left_inj' unit_ne_zero, Int.cast_inj] at h
  by_cases hsign : x.isNegative = y.isNegative
  · have hunits : x.units = y.units := by
      rw [hsign] at h
      split at h <;> omega
    obtain ⟨hexponent, hfraction⟩ := units_inj hunits
    exact .inr (eq_of_parts hsign hexponent hfraction)
  · -- a number and its negative are the same number only at zero
    have hunits : x.units = 0 ∧ y.units = 0 := by
      rw [Bool.eq_not.mpr (Ne.symm hsign)] at h
      cases hx : x.isNegative <;> rw [hx] at h <;> simp only [Bool.not_true, Bool.not_false,
        Bool.false_eq_true, ↓reduceIte] at h <;> omega
    exact .inl ⟨isZero_iff.mpr hunits.1, isZero_iff.mpr hunits.2⟩

/-- **Doubles are the same exactly if they stand for the same number.** -/
theorem same_iff_number? : x.same y = true ↔ x.Equal y := by
  rw [same_iff]
  constructor
  · rintro ⟨⟨hx, -⟩, ⟨hzero, hzero'⟩ | rfl⟩
    · exact ⟨_, number?_of_isZero hzero, number?_of_isZero hzero'⟩
    · have hsome : x.number? ≠ none := by
        rw [Ne, number?_eq_none_iff, hx]
        exact Bool.false_ne_true
      obtain ⟨n, hn⟩ := Option.ne_none_iff_exists'.mp hsome
      exact ⟨n, hn, hn⟩
  · rintro ⟨n, hxn, hyn⟩
    have hx := isNaN_of_number? hxn
    have hy := isNaN_of_number? hyn
    have h := hxn.trans hyn.symm
    refine ⟨⟨hx, hy⟩, ?_⟩
    cases hx' : x.isInfinite <;> cases hy' : y.isInfinite
    · exact eq_or_isZero_of_finite ⟨hx, hx'⟩ ⟨hy, hy'⟩ h
    · rw [number?_of_finite hx hx', number?_of_infinite hy'] at h
      simp at h
    · rw [number?_of_infinite hx', number?_of_finite hy hy'] at h
      simp at h
    · exact .inr (eq_of_infinite hx' hy' h)

example : (Double.mk 0xbff8000000000000).number? = some (.finite (-3 / 2)) := by decide +kernel

end Double

/-! ## Values -/

namespace AttributeValue

/-- **Equal values** are of one kind and equal in it; doubles are equal as numbers. -/
inductive Equal : AttributeValue → AttributeValue → Prop where
  | text (s : String) : Equal (text s) (text s)
  | bool (b : Bool) : Equal (bool b) (bool b)
  | int (n : Int64) : Equal (int n) (int n)
  | double {x y : Double} (h : x.Equal y) : Equal (double x) (double y)
  | texts (ss : List String) : Equal (texts ss) (texts ss)
  | bools (bs : List Bool) : Equal (bools bs) (bools bs)
  | ints (ns : List Int64) : Equal (ints ns) (ints ns)
  | doubles {xs ys : List Double} (h : List.Forall₂ Double.Equal xs ys) :
      Equal (doubles xs) (doubles ys)

variable {a b : AttributeValue}

lemma equal_self (h : a.isExact = true) : a.Equal a := by
  cases a with
  | double x => exact absurd h Bool.false_ne_true
  | doubles xs => exact absurd h Bool.false_ne_true
  | _ => constructor

/-- **Values are the same exactly if they are equal.** -/
theorem same_iff_equal : a.same b = true ↔ a.Equal b := by
  constructor
  · intro h
    cases b with
    | double y =>
        cases a with
        | double x => exact .double (Double.same_iff_number?.mp h)
        | _ => exact absurd h Bool.false_ne_true
    | doubles ys =>
        cases a with
        | doubles xs =>
            refine .doubles ((Double.sameAll_iff.mp h).imp ?_)
            exact fun _ _ => Double.same_iff_number?.mp
        | _ => exact absurd h Bool.false_ne_true
    | _ =>
        obtain rfl := eq_of_same rfl h
        exact equal_self rfl
  · intro h
    cases h with
    | double h => exact Double.same_iff_number?.mpr h
    | doubles h =>
        refine Double.sameAll_iff.mpr (h.imp ?_)
        exact fun _ _ => Double.same_iff_number?.mpr
    | _ => simp [same]

end AttributeValue

end ProfilePipeline
