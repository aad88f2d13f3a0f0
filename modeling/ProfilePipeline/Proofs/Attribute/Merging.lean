import Mathlib.Tactic.Common
import ProfilePipeline.Proofs.Attribute.Composition

/-!
# Merging resources

A set of attributes is extended by putting the attributes of another one into it, one after the
other.  What comes of it can be said without that order of events.

**A set is its keys and its values.**  `Attributes.eq_of_view`: sets with the same keys in the same
order and the same value under each are one and the same, bits of doubles included.

**Extending.**  `keys_extend`: the keys that were there stay where they are, and the new ones follow
in their own order.  `get?_extend`: the value is the other one's if it has one.

**Laws.**  Both sides of a law have the same keys and the same values, so they are equal; nothing is
put anywhere in these proofs.  **`Resource.merge_laws`** has them all, for whole resources.
-/

namespace ProfilePipeline

namespace Attributes

variable {a b : Attributes} {pairs : List (String × AttributeValue)}

/-! ## A set is its keys and its values -/

/-- The entries, read off the keys and the values under them. -/
lemma filterMap_keys (a : Attributes) :
    (a.keys.filterMap fun key => (a.get? key).map (key, ·)) = a.entries := by
  rw [keys, List.filterMap_map]
  refine (List.filterMap_congr ?_).trans List.filterMap_some
  intro entry hmem
  have hvalue : a.get? entry.1 = some entry.2 := get?_eq_some_iff.mpr hmem
  rw [Function.comp_apply, hvalue, Option.map_some]

/-- **Sets with the same keys in order and the same values are equal.** -/
theorem eq_of_view (hkeys : a.keys = b.keys) (hvalues : ∀ key, a.get? key = b.get? key) :
    a = b := by
  refine eq_of_entries ?_
  rw [← filterMap_keys a, ← filterMap_keys b, hkeys]
  simp only [hvalues]

/-! ## Extending -/

lemma insertAll_cons (a : Attributes) (key : String) (value : AttributeValue) :
    a.insertAll ((key, value) :: pairs) = (a.insert key value).insertAll pairs := rfl

/-- Attributes that are put in keep what is there in its place, and add what is new. -/
lemma keys_insertAll (hnodup : (pairs.map Prod.fst).Nodup) :
    (a.insertAll pairs).keys = a.keys ++ (pairs.map Prod.fst).filter (· ∉ a.keys) := by
  induction pairs generalizing a with
  | nil => simp [insertAll]
  | cons pair pairs ih =>
      obtain ⟨key, value⟩ := pair
      rw [List.map_cons, List.nodup_cons] at hnodup
      rw [insertAll_cons, ih hnodup.2, keys_insert, List.map_cons]
      by_cases hmem : key ∈ a.keys
      · simp [hmem]
      · -- none of the later keys is this one, so it does not matter that it is there now
        have hlater : ∀ k ∈ pairs.map Prod.fst, (k ∉ a.keys ++ [key]) ↔ k ∉ a.keys := by
          intro k hk
          have hne : k ≠ key := fun e => hnodup.1 (e ▸ hk)
          simp [hne]
        have hfilter : (pairs.map Prod.fst).filter (· ∉ a.keys ++ [key]) =
            (pairs.map Prod.fst).filter (· ∉ a.keys) :=
          List.filter_congr fun k hk => decide_eq_decide.mpr (hlater k hk)
        rw [if_neg hmem, hfilter, List.filter_cons_of_pos (by simpa using hmem),
          List.append_assoc, List.singleton_append]

/-- A key has the value that was put in, or the one it had. -/
lemma get?_insertAll (hnodup : (pairs.map Prod.fst).Nodup) (key : String) :
    (a.insertAll pairs).get? key = (lookup key pairs).or (a.get? key) := by
  induction pairs generalizing a with
  | nil => rfl
  | cons pair pairs ih =>
      obtain ⟨k, value⟩ := pair
      rw [List.map_cons, List.nodup_cons] at hnodup
      rw [insertAll_cons, ih hnodup.2, get?_insert, lookup]
      by_cases heq : key = k
      · subst heq
        have hnone : lookup key pairs = none := by
          rw [← Option.not_isSome_iff_eq_none, isSome_lookup_iff]
          exact hnodup.1
        simp [hnone]
      · have heq' : ¬ k = key := fun e => heq e.symm
        simp [heq, heq']

/-- **The keys of both**: those of the first set where they were, then the new ones of the second
in its order. -/
theorem keys_extend (a b : Attributes) :
    (a.extend b).keys = a.keys ++ b.keys.filter (· ∉ a.keys) := keys_insertAll b.keys_nodup

/-- **The second set is looked at first.** -/
theorem get?_extend (a b : Attributes) (key : String) :
    (a.extend b).get? key = (b.get? key).or (a.get? key) := get?_insertAll b.keys_nodup key

lemma mem_keys_extend {key : String} : key ∈ (a.extend b).keys ↔ key ∈ a.keys ∨ key ∈ b.keys := by
  by_cases hmem : key ∈ a.keys <;> simp [keys_extend, hmem]

/-! ## Laws of extending -/

lemma extend_empty (a : Attributes) : a.extend empty = a := rfl

lemma empty_extend (a : Attributes) : empty.extend a = a := by
  refine eq_of_view ?_ fun key => ?_
  · rw [keys_extend]
    simp [keys, empty]
  · rw [get?_extend]
    exact Option.or_none

lemma extend_self (a : Attributes) : a.extend a = a := by
  refine eq_of_view ?_ fun key => ?_
  · rw [keys_extend, List.filter_eq_nil_iff.mpr (by simp), List.append_nil]
  · rw [get?_extend, Option.or_self]

/-- **It does not matter which two of three sets are put together first.** -/
theorem extend_assoc (a b c : Attributes) :
    (a.extend b).extend c = a.extend (b.extend c) := by
  refine eq_of_view ?_ fun key => ?_
  · -- what is new of `c` is new to both others, whichever of them is asked first
    have hnew : c.keys.filter (· ∉ (a.extend b).keys) =
        (c.keys.filter (· ∉ b.keys)).filter (· ∉ a.keys) := by
      rw [List.filter_filter]
      refine List.filter_congr fun key _ => ?_
      simp only [mem_keys_extend, not_or, Bool.decide_and]
    rw [keys_extend (a.extend b), keys_extend a, keys_extend a, keys_extend b, List.filter_append,
      ← hnew, keys_extend a, List.append_assoc]
  · simp only [get?_extend, Option.or_assoc]

end Attributes

/-! ## Laws of merging -/

namespace Resource

lemma merge_assoc (a b c : Resource) : (a.merge b).merge c = a.merge (b.merge c) := by
  simp only [merge, Attributes.extend_assoc, Option.or_assoc]

lemma empty_merge (a : Resource) : empty.merge a = a := by
  simp only [merge, empty, Attributes.empty_extend, Option.or_none]

lemma merge_empty (a : Resource) : a.merge empty = a := by
  simp only [merge, empty, Attributes.extend_empty, Option.none_or]

lemma merge_self (a : Resource) : a.merge a = a := by
  simp only [merge, Attributes.extend_self, Option.or_self]

/-- **Merging resources is associative, with the empty resource as unit, and a resource merged with
itself is that resource**: the same attributes in the same order, doubles with the same bits, and
the same schema.  What is merged in wins: each key has its value there if it has one, and the schema
is the one named there if one is.  The keys of the first resource stay in their places, the new ones
of the second follow in its order, and none is there twice. -/
theorem merge_laws (a b c : Resource) :
    (a.merge b).merge c = a.merge (b.merge c) ∧
      (empty.merge a = a ∧ a.merge empty = a) ∧
      a.merge a = a ∧
      (∀ key, (a.merge b).get? key = (b.get? key).or (a.get? key)) ∧
      (a.merge b).schemaUrl = b.schemaUrl.or a.schemaUrl ∧
      (a.merge b).attributes.keys =
        a.attributes.keys ++ b.attributes.keys.filter (· ∉ a.attributes.keys) ∧
      (a.merge b).attributes.keys.Nodup :=
  ⟨merge_assoc a b c, ⟨empty_merge a, merge_empty a⟩, merge_self a,
    Attributes.get?_extend a.attributes b.attributes, rfl,
    Attributes.keys_extend a.attributes b.attributes, (a.merge b).attributes.keys_nodup⟩

end Resource

end ProfilePipeline
