import Mathlib.Data.Finset.Card
import Mathlib.Tactic.Common
import ProfilePipeline.Proofs.Attribute.Bounded

/-!
# The same attributes in another order

Several writers set attributes on one record at the same time.  Every attribute is set in one step,
so the steps of all of them come in some order, and it is a matter of luck in which.

**What no order changes.**  `Offers.counted` and `Offers.distinctKeys` are the same for every order,
and they decide how much is counted and how many attributes are held (`Kept.size_eq_card`).

**What an order can change** is which keys are there, if there are too many of them, and which value
is the last one for a key.  If all keys fit, only the latter is left (`Kept.get?_eq`).
-/

namespace ProfilePipeline

namespace Offers

/-- The keys that are offered, in no order; no key is not a key. -/
def distinctKeys (offers : Offers) : Finset String := (offers.map Prod.fst).toFinset.erase ""

variable {offers : Offers} {key : String}

lemma mem_keys_iff : key ∈ offers.keys ↔ key ∈ offers.distinctKeys := by
  simp only [keys, counted, distinctKeys, List.mem_eraseDups, List.mem_map, List.mem_filter,
    Finset.mem_erase, List.mem_toFinset]
  constructor
  · rintro ⟨offer, ⟨hmem, hne⟩, rfl⟩
    exact ⟨by simpa using hne, offer, hmem, rfl⟩
  · rintro ⟨hne, offer, hmem, rfl⟩
    exact ⟨offer, ⟨hmem, by simpa using hne⟩, rfl⟩

/-- A set with room for all keys that are offered has exactly these, so they are distinct. -/
lemma nodup_keys : offers.keys.Nodup := by
  have hkeys := (BoundedAttributes.kept_putAll offers.keys.length 0 offers).keys
  rw [List.take_length] at hkeys
  rw [← hkeys]
  exact Attributes.keys_nodup _

lemma length_keys : offers.keys.length = offers.distinctKeys.card := by
  have hsame : offers.keys.toFinset = offers.distinctKeys := by
    ext key
    rw [List.mem_toFinset, mem_keys_iff]
  rw [← hsame, List.toFinset_card_of_nodup nodup_keys]

/-! ## What is held, without an order -/

section Kept

variable {capacity lengthLimit total : Nat} {attributes : Attributes}

lemma Kept.size_eq_card (h : offers.Kept capacity lengthLimit attributes total) :
    attributes.size = min capacity offers.distinctKeys.card := by
  rw [h.size_eq, length_keys]

/-- **If all keys fit, each has the value offered last**, and there are no others. -/
lemma Kept.get?_eq (h : offers.Kept capacity lengthLimit attributes total)
    (hfit : offers.distinctKeys.card ≤ capacity) :
    attributes.get? key =
      if key ∈ offers.distinctKeys then (offers.last? key).map (·.truncated lengthLimit)
      else none := by
  have hkeys : attributes.keys = offers.keys := by
    rw [h.keys, List.take_of_length_le]
    rwa [length_keys]
  split
  · rename_i hmem
    rw [← mem_keys_iff, ← hkeys] at hmem
    exact h.value key hmem
  · rename_i hmem
    rw [← mem_keys_iff, ← hkeys, ← Attributes.contains_iff, Attributes.contains] at hmem
    simpa using hmem

end Kept

/-! ## Another order -/

variable {others : Offers}

lemma distinctKeys_of_perm (h : offers.Perm others) : offers.distinctKeys = others.distinctKeys := by
  rw [distinctKeys, distinctKeys, List.toFinset_eq_of_perm _ _ (h.map Prod.fst)]

lemma length_counted_of_perm (h : offers.Perm others) :
    offers.counted.length = others.counted.length :=
  (h.filter _).length_eq

end Offers

namespace LiveRecord

/-- **Writers racing on one record.**  However the steps that set attributes on it are ordered, as
many are counted, and as many are held: as many as there are keys, but no more than there is room
for.  If there is room for all keys, then any two orders in which every key has the same last value
end in the same value under each key. -/
theorem orders_agree (e : Emission) (limits : Limits) {calls others : Offers}
    (h : calls.Perm others) :
    let r := ((fresh e limits).setAll calls).snapshot
    let s := ((fresh e limits).setAll others).snapshot
    r.totalAttributes = s.totalAttributes ∧
      r.attributes.size = min limits.maxAttributes calls.distinctKeys.card ∧
      s.attributes.size = min limits.maxAttributes calls.distinctKeys.card ∧
      (calls.distinctKeys.card ≤ limits.maxAttributes →
        (∀ key ∈ calls.distinctKeys, calls.last? key = others.last? key) →
        ∀ key, r.attributes.get? key = s.attributes.get? key) := by
  intro r s
  have hr := kept_fresh e limits calls
  have hs := kept_fresh e limits others
  have hkeys := Offers.distinctKeys_of_perm h
  refine ⟨?_, hr.size_eq_card, ?_, ?_⟩
  · calc r.totalAttributes
        = calls.counted.length := hr.total
      _ = others.counted.length := Offers.length_counted_of_perm h
      _ = s.totalAttributes := hs.total.symm
  · rw [hkeys]
    exact hs.size_eq_card
  · intro hfit hlast key
    rw [hr.get?_eq hfit, hs.get?_eq (hkeys ▸ hfit), ← hkeys]
    split
    · rename_i hmem
      rw [hlast key hmem]
    · rfl

/-- One writer sets a key twice, another one comes before or after it, and the record has just
enough room. -/
theorem orders_agree_twoWriters :
    let one : Offers := [("a", .int 1), ("a", .text "xyz")]
    let other : Offers := [("", .bool true), ("b", .int 2)]
    let r := ((fresh {} ⟨2, 2⟩).setAll (one ++ other)).snapshot
    let s := ((fresh {} ⟨2, 2⟩).setAll (other ++ one)).snapshot
    (one ++ other).Perm (other ++ one) ∧
      r.attributes.entries = [("a", .text "xy"), ("b", .int 2)] ∧
      s.attributes.entries = [("b", .int 2), ("a", .text "xy")] ∧
      r.totalAttributes = s.totalAttributes ∧
      ∀ key, r.attributes.get? key = s.attributes.get? key := by
  intro one other r s
  have hperm : (one ++ other).Perm (other ++ one) := List.perm_append_comm
  obtain ⟨htotal, -, -, hagree⟩ := orders_agree {} ⟨2, 2⟩ hperm
  have hkeys : Offers.distinctKeys (one ++ other) = {"a", "b"} := by decide
  refine ⟨hperm, rfl, rfl, htotal, hagree ?_ ?_⟩
  · rw [hkeys]
    decide
  · rw [hkeys]
    simp only [Finset.mem_insert, Finset.mem_singleton]
    rintro key (rfl | rfl) <;> rfl

end LiveRecord

end ProfilePipeline
