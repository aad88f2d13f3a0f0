import Mathlib.Data.List.Forall2
import Mathlib.Data.List.Perm.Subperm
import Mathlib.Tactic.Common
import ProfilePipeline.Resource
import ProfilePipeline.Scope

/-!
# Equality by value

Doubles compare as numbers, so equality by value is neither reflexive nor the equality of what is
kept: NaN differs from itself, and the zeros are the same.  It is symmetric and transitive all the
same, at every level at which values compare.

**Doubles and values.**  `Double.same_iff` says what the comparison of bits amounts to.  Values of
the other kinds are the same only if they are equal.

**Sets.**  The definition looks at one side only: as many entries on both, and each of the left
found on the right.  **`Attributes.same_iff`** is the reading that favours no side: the same keys,
and the same value under each.  It rests on keys being distinct, by counting.

**Resources and scopes** compare part by part.

**What is the same as itself.**  At every level it is what holds no NaN: `same_self_iff`.
-/

namespace ProfilePipeline

/-! ## Doubles -/

namespace Double

variable {x y z : Double}

/-- Two numbers are the same if they are both zero or have the same bits. -/
lemma same_iff : x.same y = true ↔
    (x.isNaN = false ∧ y.isNaN = false) ∧ ((x.isZero = true ∧ y.isZero = true) ∨ x = y) := by
  have hbits : x = y ↔ x.bits = y.bits := by
    cases x
    cases y
    simp
  rw [same, hbits]
  cases x.isNaN <;> cases y.isNaN <;> cases x.isZero <;> cases y.isZero <;> simp

lemma same_self_iff : x.same x = true ↔ x.isNaN = false := by simp [same_iff]

lemma same_symm (h : x.same y = true) : y.same x = true := by
  rw [same_iff] at h ⊢
  exact ⟨h.1.symm, h.2.imp And.symm Eq.symm⟩

lemma same_trans (hxy : x.same y = true) (hyz : y.same z = true) : x.same z = true := by
  rw [same_iff] at hxy hyz ⊢
  refine ⟨⟨hxy.1.1, hyz.1.2⟩, ?_⟩
  rcases hxy.2 with ⟨hx, hy⟩ | rfl
  · rcases hyz.2 with ⟨-, hz⟩ | rfl
    · exact .inl ⟨hx, hz⟩
    · exact .inl ⟨hx, hy⟩
  · exact hyz.2

/-- Lists of doubles are compared number by number. -/
lemma sameAll_iff {xs ys : List Double} :
    (xs.length == ys.length && (xs.zip ys).all fun (x, y) => x.same y) = true ↔
      List.Forall₂ (fun x y => x.same y = true) xs ys := by
  rw [List.forall₂_iff_zip, Bool.and_eq_true, beq_iff_eq, List.all_eq_true]
  simp

lemma forall₂_same_trans {xs ys zs : List Double}
    (hxy : List.Forall₂ (fun x y => x.same y = true) xs ys)
    (hyz : List.Forall₂ (fun x y => x.same y = true) ys zs) :
    List.Forall₂ (fun x y => x.same y = true) xs zs := by
  induction hxy generalizing zs with
  | nil => exact hyz
  | cons hhead _ ih =>
      cases hyz with
      | cons hhead' htail' => exact .cons (same_trans hhead hhead') (ih htail')

end Double

/-! ## Values -/

namespace AttributeValue

variable {a b c : AttributeValue}

/-- Whether a value is NaN or holds it. -/
def hasNaN : AttributeValue → Bool
  | double x => x.isNaN
  | doubles xs => xs.any (·.isNaN)
  | _ => false

/-- A value is the same as itself unless NaN is in it. -/
lemma same_self_iff : a.same a = true ↔ a.hasNaN = false := by
  cases a with
  | double x => exact Double.same_self_iff
  | doubles xs =>
      have hall : (doubles xs).same (doubles xs) = true ↔ ∀ x ∈ xs, x.same x = true :=
        Double.sameAll_iff.trans List.forall₂_same
      rw [hall]
      simp [hasNaN, Double.same_self_iff]
  | _ => simp [same, hasNaN]

/-- Whether a value is compared by plain equality. -/
def isExact : AttributeValue → Bool
  | double _ | doubles _ => false
  | _ => true

lemma eq_of_same (hb : b.isExact = true) (h : a.same b = true) : a = b := by
  cases b <;> cases a <;>
    first
    | exact absurd h Bool.false_ne_true
    | exact absurd hb Bool.false_ne_true
    | exact congrArg _ (eq_of_beq h)

lemma same_symm (h : a.same b = true) : b.same a = true := by
  cases b with
  | double y =>
      cases a with
      | double x => exact Double.same_symm h
      | _ => exact absurd h Bool.false_ne_true
  | doubles ys =>
      cases a with
      | doubles xs =>
          refine Double.sameAll_iff.mpr ?_
          exact (Double.sameAll_iff.mp h).flip.imp fun _ _ => Double.same_symm
      | _ => exact absurd h Bool.false_ne_true
  | _ =>
      obtain rfl := eq_of_same rfl h
      exact h

lemma same_trans (hab : a.same b = true) (hbc : b.same c = true) : a.same c = true := by
  cases b with
  | double y =>
      cases a with
      | double x =>
          cases c with
          | double z => exact Double.same_trans hab hbc
          | _ => exact absurd hbc Bool.false_ne_true
      | _ => exact absurd hab Bool.false_ne_true
  | doubles ys =>
      cases a with
      | doubles xs =>
          cases c with
          | doubles zs =>
              refine Double.sameAll_iff.mpr ?_
              exact Double.forall₂_same_trans (Double.sameAll_iff.mp hab) (Double.sameAll_iff.mp hbc)
          | _ => exact absurd hbc Bool.false_ne_true
      | _ => exact absurd hab Bool.false_ne_true
  | _ =>
      obtain rfl := eq_of_same rfl hab
      exact hbc

end AttributeValue

/-! ## Sets -/

namespace Attributes

variable {a b c : Attributes}

lemma isSome_lookup_iff {key : String} {entries : List (String × AttributeValue)} :
    (lookup key entries).isSome = true ↔ key ∈ entries.map Prod.fst := by
  induction entries with
  | nil => simp [lookup]
  | cons entry rest ih =>
      obtain ⟨k, v⟩ := entry
      by_cases h : k = key
      · simp [lookup, h]
      · have h' : ¬ key = k := fun e => h e.symm
        simp [lookup, h, h', ih]

lemma lookup_eq_some_iff {key : String} {value : AttributeValue}
    {entries : List (String × AttributeValue)} (h : (entries.map Prod.fst).Nodup) :
    lookup key entries = some value ↔ (key, value) ∈ entries := by
  induction entries with
  | nil => simp [lookup]
  | cons entry rest ih =>
      obtain ⟨k, v⟩ := entry
      rw [List.map_cons, List.nodup_cons] at h
      by_cases hk : k = key
      · subst hk
        have hrest : (k, value) ∉ rest := fun hmem => h.1 (List.mem_map.mpr ⟨(k, value), hmem, rfl⟩)
        simp [lookup, hrest, eq_comm]
      · have hk' : ¬ key = k := fun e => hk e.symm
        simp [lookup, hk, hk', ih h.2]

/-- The keys are those that have a value. -/
lemma contains_iff {key : String} : a.contains key = true ↔ key ∈ a.keys := isSome_lookup_iff

lemma mem_keys_iff {key : String} : key ∈ a.keys ↔ ∃ value, a.get? key = some value := by
  rw [← contains_iff, contains, Option.isSome_iff_exists]

lemma get?_eq_some_iff {key : String} {value : AttributeValue} :
    a.get? key = some value ↔ (key, value) ∈ a.entries := lookup_eq_some_iff a.keys_nodup

/-- What the comparison looks at: the left entries on the right. -/
lemma same_iff_entries : a.same b = true ↔
    a.keys.length = b.keys.length ∧
      ∀ key v, a.get? key = some v → ∃ w, b.get? key = some w ∧ v.same w = true := by
  rw [same, Bool.and_eq_true, beq_iff_eq, List.all_eq_true, Prod.forall]
  simp only [size, keys, List.length_map, get?_eq_some_iff]
  refine and_congr_right fun _ => forall_congr' fun key => forall_congr' fun v => ?_
  refine imp_congr_right fun _ => ?_
  constructor
  · intro h
    split at h
    · exact ⟨_, get?_eq_some_iff.mp ‹_›, h⟩
    · exact absurd h Bool.false_ne_true
  · rintro ⟨w, hw, hsame⟩
    rw [← get?_eq_some_iff] at hw
    rw [hw]
    exact hsame

/-- Whether NaN is among the values of a set, or in one of them. -/
def hasNaN (a : Attributes) : Bool := a.entries.any fun entry => entry.2.hasNaN

/-- A set is the same as itself unless NaN is in it. -/
lemma same_self_iff : a.same a = true ↔ a.hasNaN = false := by
  rw [same_iff_entries, hasNaN, List.any_eq_false, Prod.forall]
  simp only [get?_eq_some_iff, Bool.not_eq_true, true_and]
  refine forall_congr' fun key => forall_congr' fun v => imp_congr_right fun hv => ?_
  constructor
  · rintro ⟨w, hw, hsame⟩
    rw [← get?_eq_some_iff] at hv hw
    obtain rfl := Option.some.inj (hv.symm.trans hw)
    exact AttributeValue.same_self_iff.mp hsame
  · intro hnone
    exact ⟨v, hv, AttributeValue.same_self_iff.mpr hnone⟩

/-- **Sets are the same exactly if they have the same keys and the same value under each.** -/
theorem same_iff : a.same b = true ↔
    (∀ key, key ∈ a.keys ↔ key ∈ b.keys) ∧
      ∀ key v w, a.get? key = some v → b.get? key = some w → v.same w = true := by
  rw [same_iff_entries]
  constructor
  · rintro ⟨hlength, hfound⟩
    have hsub : a.keys ⊆ b.keys := by
      intro key hkey
      obtain ⟨v, hv⟩ := mem_keys_iff.mp hkey
      obtain ⟨w, hw, -⟩ := hfound key v hv
      exact mem_keys_iff.mpr ⟨w, hw⟩
    -- As many keys on both sides, so none is left over on the right.
    have hperm : a.keys.Perm b.keys :=
      (List.subperm_of_subset a.keys_nodup hsub).perm_of_length_le (Nat.le_of_eq hlength.symm)
    refine ⟨fun key => hperm.mem_iff, ?_⟩
    intro key v w hv hw
    obtain ⟨w', hw', hsame⟩ := hfound key v hv
    rw [hw, Option.some.injEq] at hw'
    rwa [hw']
  · rintro ⟨hkeys, hsame⟩
    have hperm := (List.perm_ext_iff_of_nodup a.keys_nodup b.keys_nodup).mpr hkeys
    refine ⟨hperm.length_eq, ?_⟩
    intro key v hv
    obtain ⟨w, hw⟩ := mem_keys_iff.mp ((hkeys key).mp (mem_keys_iff.mpr ⟨v, hv⟩))
    exact ⟨w, hw, hsame key v w hv hw⟩

lemma same_symm (h : a.same b = true) : b.same a = true := by
  rw [same_iff] at h ⊢
  refine ⟨fun key => (h.1 key).symm, ?_⟩
  intro key v w hv hw
  exact AttributeValue.same_symm (h.2 key w v hw hv)

lemma same_trans (hab : a.same b = true) (hbc : b.same c = true) : a.same c = true := by
  rw [same_iff] at hab hbc ⊢
  refine ⟨fun key => (hab.1 key).trans (hbc.1 key), ?_⟩
  intro key u w hu hw
  obtain ⟨v, hv⟩ := mem_keys_iff.mp ((hab.1 key).mp (mem_keys_iff.mpr ⟨u, hu⟩))
  exact AttributeValue.same_trans (hab.2 key u v hu hv) (hbc.2 key v w hv hw)

end Attributes

/-! ## Resources and scopes -/

namespace Resource

variable {a b c : Resource}

lemma same_iff : a.same b = true ↔
    a.attributes.same b.attributes = true ∧ a.schemaUrl = b.schemaUrl := by
  rw [same, Bool.and_eq_true, beq_iff_eq]

lemma same_self_iff : a.same a = true ↔ a.attributes.hasNaN = false := by
  simp [same_iff, Attributes.same_self_iff]

lemma same_symm (h : a.same b = true) : b.same a = true := by
  rw [same_iff] at h ⊢
  exact ⟨Attributes.same_symm h.1, h.2.symm⟩

lemma same_trans (hab : a.same b = true) (hbc : b.same c = true) : a.same c = true := by
  rw [same_iff] at hab hbc ⊢
  exact ⟨Attributes.same_trans hab.1 hbc.1, hab.2.trans hbc.2⟩

end Resource

namespace Scope

variable {a b c : Scope}

lemma same_iff : a.same b = true ↔ a.identity = b.identity ∧
    a.attributes.same b.attributes = true := by
  simp [same, identity, and_assoc]

lemma same_self_iff : a.same a = true ↔ a.attributes.hasNaN = false := by
  simp [same_iff, Attributes.same_self_iff]

lemma same_symm (h : a.same b = true) : b.same a = true := by
  rw [same_iff] at h ⊢
  exact ⟨h.1.symm, Attributes.same_symm h.2⟩

lemma same_trans (hab : a.same b = true) (hbc : b.same c = true) : a.same c = true := by
  rw [same_iff] at hab hbc ⊢
  exact ⟨hab.1.trans hbc.1, Attributes.same_trans hab.2 hbc.2⟩

end Scope

end ProfilePipeline
