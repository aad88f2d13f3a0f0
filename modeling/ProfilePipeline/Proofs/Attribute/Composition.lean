import Mathlib.Tactic.Common
import ProfilePipeline.Proofs.Attribute.Bounded

/-!
# Limits one after the other

A record that is wrapped is offered its own attributes, and no two of these have the same key.  Then
nothing is replaced, and what limits leave can be said as a list: `Limits.leave`, the first
attributes with a key, as many as there is room for, with their texts cut.

* `putAll_of_nodup` — attributes with new keys, offered to any bounded set.
* `entries_ofRecord` — the case of a record that is wrapped.
* **`Limits.leave_leave`** — what one limit and then another leave is what the stricter one of both
  leaves, in each respect (`Limits.stricter`).
* **`limits_compose`** — the same for records, whose other parts no limit touches.
-/

namespace ProfilePipeline

namespace AttributeValue

/-- Texts that are cut twice are as short as the shorter cut makes them. -/
lemma truncated_truncated (m n : Nat) (value : AttributeValue) :
    (value.truncated m).truncated n = value.truncated (min m n) := by
  cases value <;> simp [truncated_eq, mapTexts, List.take_take, Nat.min_comm]

end AttributeValue

namespace Attributes

lemma put_of_not_mem {key : String} {value : AttributeValue}
    {entries : List (String × AttributeValue)} (h : key ∉ entries.map Prod.fst) :
    put key value entries = entries ++ [(key, value)] := by
  induction entries with
  | nil => rfl
  | cons entry rest ih =>
      rw [List.map_cons, List.mem_cons, not_or] at h
      rw [put, if_neg fun e => h.1 e.symm, ih h.2, List.cons_append]

lemma eq_of_entries {a b : Attributes} (h : a.entries = b.entries) : a = b := by
  cases a
  cases b
  simpa using h

end Attributes

/-! ## What limits leave of a list -/

namespace Limits

/-- The stricter of two limits, in each respect. -/
def stricter (a b : Limits) : Limits :=
  ⟨min a.maxAttributes b.maxAttributes, min a.maxValueLength b.maxValueLength⟩

/-- **What limits leave of attributes with different keys**: the first ones that have a key, with
their texts cut. -/
def leave (limits : Limits) (offers : Offers) : Offers :=
  (offers.counted.take limits.maxAttributes).map fun offer =>
    (offer.1, offer.2.truncated limits.maxValueLength)

lemma counted_leave (limits : Limits) (offers : Offers) :
    (limits.leave offers).counted = limits.leave offers := by
  rw [Offers.counted, List.filter_eq_self]
  intro offer hoffer
  obtain ⟨kept, hkept, rfl⟩ := List.mem_map.mp hoffer
  have hcounted : kept ∈ offers.counted := List.mem_of_mem_take hkept
  exact (List.mem_filter.mp hcounted).2

/-- **Limits compose by the stricter one.** -/
theorem leave_leave (a b : Limits) (offers : Offers) :
    b.leave (a.leave offers) = (a.stricter b).leave offers := by
  rw [leave, counted_leave, leave, leave, ← List.map_take, List.take_take, List.map_map,
    Nat.min_comm]
  simp [Function.comp_def, AttributeValue.truncated_truncated, stricter]

@[simp] lemma stricter_self (limits : Limits) : limits.stricter limits = limits := by
  simp [stricter]

/-- Limits leave everything of what is within them. -/
lemma leave_eq_self {limits : Limits} {offers : Offers} (hcounted : offers.counted = offers)
    (hroom : offers.length ≤ limits.maxAttributes)
    (hcut : ∀ offer ∈ offers, offer.2.truncated limits.maxValueLength = offer.2) :
    limits.leave offers = offers := by
  rw [leave, hcounted, List.take_of_length_le hroom]
  refine (List.map_congr_left ?_).trans (List.map_id offers)
  intro offer hoffer
  rw [hcut offer hoffer, id]

end Limits

/-! ## What a bounded set takes of a list -/

namespace BoundedAttributes

variable {m : BoundedAttributes} {offers : Offers}

/-- A new key is put at the end if there is room. -/
lemma entries_put_of_not_mem {key : String} (value : AttributeValue) (hne : key ≠ "")
    (h : key ∉ m.attributes.keys) (hroom : m.attributes.size < m.capacity) :
    (m.put key value).attributes.entries =
      m.attributes.entries ++ [(key, value.truncated m.lengthLimit)] := by
  rw [put_kept hne (.inr hroom)]
  exact Attributes.put_of_not_mem h

/-- **Attributes with new keys** are appended as far as there is room, by induction over them. -/
lemma putAll_of_nodup (hnodup : ((m.attributes.entries ++ offers).map Prod.fst).Nodup) :
    (m.putAll offers).attributes.entries =
      m.attributes.entries ++ Limits.leave ⟨m.capacity - m.attributes.size, m.lengthLimit⟩ offers := by
  induction offers generalizing m with
  | nil => simp [putAll, Limits.leave, Offers.counted]
  | cons offer offers ih =>
      obtain ⟨key, value⟩ := offer
      have hnew : key ∉ m.attributes.keys := by
        intro hmem
        rw [List.map_append, List.nodup_append] at hnodup
        exact hnodup.2.2 key hmem key (by simp) rfl
      have hrest : ((m.attributes.entries ++ offers).map Prod.fst).Nodup :=
        hnodup.sublist (((List.sublist_cons_self _ _).append_left _).map _)
      change ((m.put key value).putAll offers).attributes.entries = _
      by_cases hne : key = ""
      · subst hne
        rw [put_empty, ih hrest]
        rfl
      by_cases hroom : m.attributes.size < m.capacity
      · have hentries := entries_put_of_not_mem value hne hnew hroom
        obtain ⟨room, hleft⟩ : ∃ room, m.capacity - m.attributes.size = room + 1 :=
          ⟨m.capacity - m.attributes.size - 1, by omega⟩
        have hsize : m.capacity - (m.put key value).attributes.size = room := by
          rw [Attributes.size, hentries, List.length_append, List.length_singleton,
            ← Attributes.size]
          omega
        rw [ih (by simpa [hentries] using hnodup), hentries, capacity_put, lengthLimit_put, hsize,
          hleft]
        simp [Limits.leave, Offers.counted, hne]
      · have hfull : m.capacity ≤ m.attributes.size := Nat.not_lt.mp hroom
        have hnone : m.capacity - m.attributes.size = 0 := Nat.sub_eq_zero_of_le hfull
        rw [put_refused hne hnew hfull, ih (m := { m with totalAdded := m.totalAdded + 1 }) hrest]
        simp [Limits.leave, hnone]

end BoundedAttributes

/-! ## Records -/

namespace LiveRecord

variable (r : Record) (limits : Limits)

/-- **What limits leave of a record that is wrapped.** -/
lemma entries_ofRecord :
    (ofRecord r limits).snapshot.attributes.entries = limits.leave r.attributes.entries := by
  have hheld : (ofRecord r limits).held =
      (BoundedAttributes.ofLimits limits).putAll r.attributes.entries := held_setAll _
  have hnodup : (([] ++ r.attributes.entries).map Prod.fst).Nodup := r.attributes.keys_nodup
  rw [snapshot_attributes, hheld, BoundedAttributes.putAll_of_nodup hnodup]
  rfl

lemma toEmission_ofRecord : (ofRecord r limits).snapshot.toEmission = r.toEmission := by
  rw [snapshot_toEmission, ofRecord, emission_setAll, fresh]

/-- **Limits compose by minimum.**  A record that is wrapped under limits, and its snapshot again
under others, has the attributes that it has under the stricter of both, in the same order and bit
for bit; these are the first ones with a key, cut to length.  The same limits a second time change
nothing.  Everything but the attributes and their total is as it was. -/
theorem limits_compose (r : Record) (a b : Limits) :
    let once := (ofRecord r a).snapshot
    let twice := (ofRecord once b).snapshot
    let both := (ofRecord r (a.stricter b)).snapshot
    twice.attributes = both.attributes ∧
      both.attributes.entries = (a.stricter b).leave r.attributes.entries ∧
      (ofRecord once a).snapshot.attributes = once.attributes ∧
      twice.toEmission = r.toEmission ∧ both.toEmission = r.toEmission := by
  intro once twice both
  refine ⟨?_, entries_ofRecord r _, ?_, ?_, toEmission_ofRecord r _⟩
  · refine Attributes.eq_of_entries ?_
    calc twice.attributes.entries
        = b.leave (a.leave r.attributes.entries) := by
          rw [entries_ofRecord once b, entries_ofRecord r a]
      _ = (a.stricter b).leave r.attributes.entries := Limits.leave_leave a b _
      _ = both.attributes.entries := (entries_ofRecord r _).symm
  · refine Attributes.eq_of_entries ?_
    rw [entries_ofRecord once a, entries_ofRecord r a, Limits.leave_leave, Limits.stricter_self]
  · rw [toEmission_ofRecord once b, toEmission_ofRecord r a]

end LiveRecord

end ProfilePipeline
