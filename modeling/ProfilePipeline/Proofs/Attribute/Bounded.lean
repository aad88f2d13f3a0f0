import Mathlib.Tactic.Common
import ProfilePipeline.Proofs.Attribute.Equality
import ProfilePipeline.Record

/-!
# What limits let through

Attributes are offered to a bounded set one after the other, and four things can happen to an offer:
it has no key, it updates a key, it adds one, or it is turned away because the set is full.  What
the set holds afterwards can be said without the set:

* `Offers.keys` — the keys that were offered, where each was first offered;
* `Offers.last?` — the value that was offered last for a key;
* **`Offers.Kept`** — the keys are the first ones of these, as many as there is room for, and each
  has its last value.

`Keeps.put` is the step: whatever happens to an offer, a set that keeps what was offered before
keeps what has been offered now.  Once the set is full nothing can be said of the keys it turned
away, but they need not be remembered: they come too late in `Offers.keys` to be among the first
ones.  A record that is being processed holds such a set, `LiveRecord.held`, even before its first
attribute; `LiveRecord.setAll_fresh` says that a record which is filled while it is live holds what
the set would.
-/

namespace ProfilePipeline

section FirstOccurrences

variable {α : Type} [BEq α] [LawfulBEq α]

lemma eraseDups_concat_of_mem {xs : List α} {x : α} (h : x ∈ xs) :
    (xs ++ [x]).eraseDups = xs.eraseDups := by
  rw [List.eraseDups_append]
  simp [List.cons_removeAll, h]

lemma eraseDups_concat_of_not_mem {xs : List α} {x : α} (h : x ∉ xs) :
    (xs ++ [x]).eraseDups = xs.eraseDups ++ [x] := by
  rw [List.eraseDups_append]
  simp [List.cons_removeAll, h, List.eraseDups_cons]

end FirstOccurrences

/-- Attributes that are offered to a set, in order. -/
abbrev Offers := List (String × AttributeValue)

namespace Offers

/-- The offers that have a key. -/
def counted (offers : Offers) : Offers := offers.filter fun offer => !offer.1.isEmpty

/-- The keys that are offered, in the order in which they first are. -/
def keys (offers : Offers) : List String := (offers.counted.map Prod.fst).eraseDups

/-- The value that is offered last for a key. -/
def last? (offers : Offers) (key : String) : Option AttributeValue := offers.reverse.lookup key

/-- **What is left of a list of offers** under bounds on the number of keys and on the length of
texts: the first keys that fit, each with its last value, and the number of offers. -/
structure Kept (capacity lengthLimit : Nat) (offers : Offers) (attributes : Attributes)
    (total : Nat) : Prop where
  keys : attributes.keys = offers.keys.take capacity
  value : ∀ key ∈ attributes.keys,
    attributes.get? key = (offers.last? key).map (·.truncated lengthLimit)
  total : total = offers.counted.length

lemma Kept.size_eq {capacity lengthLimit total : Nat} {offers : Offers} {attributes : Attributes}
    (h : offers.Kept capacity lengthLimit attributes total) :
    attributes.size = min capacity offers.keys.length := by
  rw [← List.length_take, ← h.keys, Attributes.keys, List.length_map, Attributes.size]

/-! ## One more offer -/

variable {offers : Offers} {key : String} {value : AttributeValue}

lemma counted_concat_empty : counted (offers ++ [("", value)]) = offers.counted := by
  simp [counted]

lemma counted_concat (h : key ≠ "") :
    counted (offers ++ [(key, value)]) = offers.counted ++ [(key, value)] := by
  simp [counted, h]

lemma ne_of_mem_keys (h : key ∈ offers.keys) : key ≠ "" := by
  rintro rfl
  simp [keys, counted] at h

lemma keys_concat_empty : keys (offers ++ [("", value)]) = offers.keys := by
  rw [keys, counted_concat_empty, keys]

lemma keys_concat_of_mem (h : key ∈ offers.keys) :
    keys (offers ++ [(key, value)]) = offers.keys := by
  have hne := ne_of_mem_keys h
  rw [keys, List.mem_eraseDups] at h
  rw [keys, counted_concat hne, List.map_append, List.map_singleton, eraseDups_concat_of_mem h,
    keys]

lemma keys_concat_of_not_mem (hne : key ≠ "") (h : key ∉ offers.keys) :
    keys (offers ++ [(key, value)]) = offers.keys ++ [key] := by
  rw [keys, List.mem_eraseDups] at h
  rw [keys, counted_concat hne, List.map_append, List.map_singleton, eraseDups_concat_of_not_mem h,
    keys]

lemma last?_concat (k : String) :
    last? (offers ++ [(key, value)]) k = if k = key then some value else offers.last? k := by
  by_cases h : k = key
  · simp [last?, h]
  · have hkey : (k == key) = false := beq_eq_false_iff_ne.mpr h
    simp [last?, List.lookup_cons, h, hkey]

end Offers

/-! ## Cutting texts -/

lemma truncateText_eq (s : String) (limit : Nat) :
    truncateText s limit = String.ofList (s.toList.take limit) := by
  rw [truncateText]
  split
  · rename_i h
    rw [List.take_of_length_le (by rwa [String.length_toList]), String.ofList_toList]
  · rfl

namespace AttributeValue

/-- The value with every text in it changed; other kinds have none. -/
def mapTexts (f : String → String) : AttributeValue → AttributeValue
  | text s => text (f s)
  | texts ss => texts (ss.map f)
  | value => value

lemma truncated_eq (limit : Nat) (value : AttributeValue) :
    value.truncated limit = value.mapTexts fun s => String.ofList (s.toList.take limit) := by
  cases value with
  | text s => rw [truncated, mapTexts, truncateText_eq]
  | texts ss => simp only [truncated, mapTexts, truncateText_eq]
  | _ => rfl

end AttributeValue

/-! ## Setting a key that is there -/

namespace Attributes

lemma put_of_mem {key : String} {value : AttributeValue}
    {entries : List (String × AttributeValue)} (hnodup : (entries.map Prod.fst).Nodup)
    (h : key ∈ entries.map Prod.fst) :
    put key value entries =
      entries.map fun entry => if entry.1 = key then (entry.1, value) else entry := by
  induction entries with
  | nil => simp at h
  | cons entry rest ih =>
      obtain ⟨k, v⟩ := entry
      rw [List.map_cons, List.nodup_cons] at hnodup
      by_cases hk : k = key
      · subst hk
        have hrest : rest.map (fun entry => if entry.1 = k then (entry.1, value) else entry) =
            rest := by
          refine (List.map_congr_left ?_).trans (List.map_id rest)
          intro entry hentry
          have hne : entry.1 ≠ k := by
            intro e
            exact hnodup.1 (List.mem_map.mpr ⟨entry, hentry, e⟩)
          exact if_neg hne
        simp [put, hrest]
      · have hmem : key ∈ rest.map Prod.fst := by
          rcases List.mem_cons.mp h with rfl | hmem
          · exact absurd rfl hk
          · exact hmem
        simp [put, hk, ih hnodup.2 hmem]

/-- **A key that is there keeps its place**, and so does everything else. -/
lemma entries_insert_of_mem {a : Attributes} {key : String} (value : AttributeValue)
    (h : key ∈ a.keys) :
    (a.insert key value).entries =
      a.entries.map fun entry => if entry.1 = key then (entry.1, value) else entry :=
  put_of_mem a.keys_nodup h

end Attributes

/-! ## One offer to a bounded set -/

namespace BoundedAttributes

variable {m : BoundedAttributes} {offers : Offers} {key : String} {value : AttributeValue}

lemma put_empty : m.put "" value = m := rfl

lemma put_kept (hne : key ≠ "") (h : key ∈ m.attributes.keys ∨ m.attributes.size < m.capacity) :
    m.put key value =
      { m with
        attributes := m.attributes.insert key (value.truncated m.lengthLimit)
        totalAdded := m.totalAdded + 1 } := by
  have hkept : (decide (m.capacity ≤ m.attributes.size) && !m.attributes.contains key) = false := by
    rcases h with h | h
    · simp [Attributes.contains_iff.mpr h]
    · simp [Nat.not_le.mpr h]
  rw [put, if_neg (by simpa using hne)]
  simp [hkept]

lemma put_refused (hne : key ≠ "") (h : key ∉ m.attributes.keys)
    (hfull : m.capacity ≤ m.attributes.size) :
    m.put key value = { m with totalAdded := m.totalAdded + 1 } := by
  have hnew : m.attributes.contains key = false := by
    rw [← Bool.not_eq_true, Attributes.contains_iff]
    exact h
  rw [put, if_neg (by simpa using hne)]
  simp [hnew, hfull]

@[simp] lemma capacity_put : (m.put key value).capacity = m.capacity := by
  rw [put]
  split
  · rfl
  · simp only
    split <;> rfl

@[simp] lemma lengthLimit_put : (m.put key value).lengthLimit = m.lengthLimit := by
  rw [put]
  split
  · rfl
  · simp only
    split <;> rfl

/-- A bounded set holds what its bounds leave of a list of offers. -/
def Keeps (m : BoundedAttributes) (offers : Offers) : Prop :=
  offers.Kept m.capacity m.lengthLimit m.attributes m.totalAdded

lemma Keeps.size_eq (h : m.Keeps offers) :
    m.attributes.size = min m.capacity offers.keys.length := Offers.Kept.size_eq h

lemma Keeps.mem_keys (h : m.Keeps offers) (hmem : key ∈ m.attributes.keys) :
    key ∈ offers.keys := by
  rw [h.keys] at hmem
  exact List.mem_of_mem_take hmem

/-- A set that is not full has turned no key away. -/
lemma Keeps.keys_eq (h : m.Keeps offers) (hroom : m.attributes.size < m.capacity) :
    m.attributes.keys = offers.keys := by
  rw [h.size_eq] at hroom
  rw [h.keys]
  exact List.take_of_length_le (by omega)

lemma Keeps.total_put (h : m.Keeps offers) (hne : key ≠ "") :
    m.totalAdded + 1 = (Offers.counted (offers ++ [(key, value)])).length := by
  rw [Offers.counted_concat hne, List.length_append, ← h.total]
  rfl

/-- After a key was set, every key has the value offered last. -/
lemma Keeps.value_insert (h : m.Keeps offers) :
    ∀ k ∈ (m.attributes.insert key (value.truncated m.lengthLimit)).keys,
      (m.attributes.insert key (value.truncated m.lengthLimit)).get? k =
        (Offers.last? (offers ++ [(key, value)]) k).map (·.truncated m.lengthLimit) := by
  intro k hk
  rw [Attributes.get?_insert, Offers.last?_concat]
  by_cases hkey : k = key
  · simp [hkey]
  · rw [if_neg hkey, if_neg hkey]
    refine h.value k ?_
    rw [Attributes.keys_insert] at hk
    split at hk
    · exact hk
    · simpa [hkey] using hk

lemma Keeps.put_empty (h : m.Keeps offers) : m.Keeps (offers ++ [("", value)]) := by
  refine ⟨?_, ?_, ?_⟩
  · rw [Offers.keys_concat_empty, h.keys]
  · intro k hk
    rw [Offers.last?_concat, if_neg (Offers.ne_of_mem_keys (h.mem_keys hk)), h.value k hk]
  · rw [Offers.counted_concat_empty, h.total]

lemma Keeps.put_known (h : m.Keeps offers) (hmem : key ∈ m.attributes.keys) :
    (m.put key value).Keeps (offers ++ [(key, value)]) := by
  have hoffered := h.mem_keys hmem
  have hne := Offers.ne_of_mem_keys hoffered
  rw [put_kept hne (.inl hmem)]
  refine ⟨?_, h.value_insert, h.total_put hne⟩
  rw [Attributes.keys_insert, if_pos hmem, Offers.keys_concat_of_mem hoffered, h.keys]

lemma Keeps.put_new (h : m.Keeps offers) (hne : key ≠ "") (hmem : key ∉ m.attributes.keys)
    (hroom : m.attributes.size < m.capacity) :
    (m.put key value).Keeps (offers ++ [(key, value)]) := by
  rw [put_kept hne (.inr hroom)]
  refine ⟨?_, h.value_insert, h.total_put hne⟩
  have hkeys := h.keys_eq hroom
  have hsize := h.size_eq
  rw [Attributes.keys_insert, if_neg hmem, hkeys,
    Offers.keys_concat_of_not_mem hne (hkeys ▸ hmem), List.take_of_length_le]
  simp
  omega

/-- The offered keys fill the set already, so it does not matter whether this one was among them. -/
lemma Keeps.put_refused (h : m.Keeps offers) (hne : key ≠ "") (hmem : key ∉ m.attributes.keys)
    (hfull : m.capacity ≤ m.attributes.size) :
    (m.put key value).Keeps (offers ++ [(key, value)]) := by
  rw [BoundedAttributes.put_refused hne hmem hfull]
  refine ⟨?_, ?_, h.total_put hne⟩
  · have hsize := h.size_eq
    have henough : m.capacity ≤ offers.keys.length := by omega
    by_cases hknown : key ∈ offers.keys
    · rw [Offers.keys_concat_of_mem hknown, h.keys]
    · rw [Offers.keys_concat_of_not_mem hne hknown, List.take_append_of_le_length henough, h.keys]
  · intro k hk
    have hkey : k ≠ key := fun e => hmem (e ▸ hk)
    rw [Offers.last?_concat, if_neg hkey, h.value k hk]

/-- **One offer.**  A set that keeps what was offered before keeps what has been offered now. -/
theorem Keeps.put (h : m.Keeps offers) (key : String) (value : AttributeValue) :
    (m.put key value).Keeps (offers ++ [(key, value)]) := by
  by_cases hne : key = ""
  · subst hne
    exact h.put_empty
  by_cases hmem : key ∈ m.attributes.keys
  · exact h.put_known hmem
  by_cases hroom : m.attributes.size < m.capacity
  · exact h.put_new hne hmem hroom
  · exact h.put_refused hne hmem (Nat.not_lt.mp hroom)

/-! ## Many offers -/

/-- Offers attributes in order. -/
def putAll (m : BoundedAttributes) (offers : Offers) : BoundedAttributes :=
  offers.foldl (fun m (key, value) => m.put key value) m

lemma Keeps.putAll (h : m.Keeps offers) (more : Offers) :
    (m.putAll more).Keeps (offers ++ more) := by
  induction more generalizing m offers with
  | nil => simpa [BoundedAttributes.putAll] using h
  | cons offer more ih =>
      have hnext := ih (h.put offer.1 offer.2)
      rwa [List.append_assoc] at hnext

lemma keeps_empty (capacity lengthLimit : Nat) :
    ({ capacity, lengthLimit } : BoundedAttributes).Keeps [] where
  keys := by simp [Attributes.keys, Attributes.empty, Offers.keys, Offers.counted]
  value := by simp [Attributes.keys, Attributes.empty]
  total := rfl

lemma capacity_putAll : (m.putAll offers).capacity = m.capacity := by
  induction offers generalizing m with
  | nil => rfl
  | cons offer offers ih => exact ih.trans capacity_put

lemma lengthLimit_putAll : (m.putAll offers).lengthLimit = m.lengthLimit := by
  induction offers generalizing m with
  | nil => rfl
  | cons offer offers ih => exact ih.trans lengthLimit_put

/-- **What a bounded set holds** after any offers. -/
theorem kept_putAll (capacity lengthLimit : Nat) (offers : Offers) :
    offers.Kept capacity lengthLimit
      (({ capacity, lengthLimit } : BoundedAttributes).putAll offers).attributes
      (({ capacity, lengthLimit } : BoundedAttributes).putAll offers).totalAdded := by
  have h := (keeps_empty capacity lengthLimit).putAll offers
  rwa [Keeps, capacity_putAll, lengthLimit_putAll, List.nil_append] at h

end BoundedAttributes

/-! ## Records being processed -/

namespace LiveRecord

variable {r : LiveRecord} {key : String} {value : AttributeValue}

/-- The set that holds the attributes of a record; it is there before the first attribute. -/
def held (r : LiveRecord) : BoundedAttributes := r.attributes.getD (.ofLimits r.limits)

lemma held_setAttribute : (r.setAttribute key value).held = r.held.put key value := by
  rw [setAttribute]
  split
  · rename_i hempty
    rw [String.isEmpty_iff.mp hempty, BoundedAttributes.put_empty]
  · rfl

lemma held_setAll (offers : Offers) : (r.setAll offers).held = r.held.putAll offers := by
  induction offers generalizing r with
  | nil => rfl
  | cons offer offers ih =>
      have hnext := ih (r := r.setAttribute offer.1 offer.2)
      rwa [held_setAttribute] at hnext

lemma snapshot_attributes : r.snapshot.attributes = r.held.attributes := by
  rw [snapshot, held]
  cases r.attributes <;> rfl

lemma snapshot_totalAttributes : r.snapshot.totalAttributes = r.held.totalAdded := by
  rw [snapshot, held]
  cases r.attributes <;> rfl

lemma snapshot_toEmission : r.snapshot.toEmission = r.emission := by
  rw [snapshot]
  cases r.attributes <;> rfl

/-- Wrapping a record is setting its attributes on one that has none. -/
lemma ofRecord_setAll (r : Record) (limits : Limits) (offers : Offers) :
    (ofRecord r limits).setAll offers =
      (fresh r.toEmission limits).setAll (r.attributes.entries ++ offers) :=
  List.foldl_append.symm

/-- **What a record holds** that was given attributes. -/
theorem kept_fresh (e : Emission) (limits : Limits) (offers : Offers) :
    Offers.Kept limits.maxAttributes limits.maxValueLength offers
      ((fresh e limits).setAll offers).snapshot.attributes
      ((fresh e limits).setAll offers).snapshot.totalAttributes := by
  rw [snapshot_attributes, snapshot_totalAttributes, held_setAll]
  exact BoundedAttributes.kept_putAll limits.maxAttributes limits.maxValueLength _

/-- A record that was wrapped before was given its own attributes first. -/
theorem kept_snapshot (r : Record) (limits : Limits) (offers : Offers) :
    Offers.Kept limits.maxAttributes limits.maxValueLength (r.attributes.entries ++ offers)
      ((ofRecord r limits).setAll offers).snapshot.attributes
      ((ofRecord r limits).setAll offers).snapshot.totalAttributes := by
  rw [ofRecord_setAll]
  exact kept_fresh r.toEmission limits _

/-! ### Filling a record while it is live -/

section Filling

variable (r) (offers : Offers)

lemma setAll_cons (key : String) (value : AttributeValue) :
    r.setAll ((key, value) :: offers) = (r.setAttribute key value).setAll offers := rfl

@[simp] lemma emission_setAll : (r.setAll offers).emission = r.emission := by
  induction offers generalizing r with
  | nil => rfl
  | cons offer offers ih =>
      rw [setAll_cons, ih, setAttribute]
      split <;> rfl

@[simp] lemma limits_setAll : (r.setAll offers).limits = r.limits := by
  induction offers generalizing r with
  | nil => rfl
  | cons offer offers ih =>
      rw [setAll_cons, ih, setAttribute]
      split <;> rfl

/-- There is a set of attributes as soon as one with a key was set. -/
lemma isSome_attributes_setAll :
    (r.setAll offers).attributes.isSome = (r.attributes.isSome || !offers.counted.isEmpty) := by
  induction offers generalizing r with
  | nil => simp [setAll, Offers.counted]
  | cons offer offers ih =>
      rw [setAll_cons, ih]
      by_cases h : offer.1.isEmpty <;> simp [setAttribute, Offers.counted, h]

/-- **Filling a record that has no attributes.** -/
lemma setAll_fresh (e : Emission) (limits : Limits) :
    (fresh e limits).setAll offers =
      { emission := e
        limits
        attributes :=
          if offers.counted = [] then none
          else some ((BoundedAttributes.ofLimits limits).putAll offers) } := by
  have hsome := isSome_attributes_setAll (fresh e limits) offers
  have hheld : ((fresh e limits).setAll offers).held =
      (BoundedAttributes.ofLimits limits).putAll offers := held_setAll offers
  have hemission := emission_setAll (fresh e limits) offers
  have hlimits := limits_setAll (fresh e limits) offers
  generalize (fresh e limits).setAll offers = filled at *
  obtain ⟨emission, limits', attributes⟩ := filled
  obtain rfl : emission = e := hemission
  obtain rfl : limits' = limits := hlimits
  congr 1
  by_cases hcounted : offers.counted = []
  · simpa [fresh, hcounted] using hsome
  · obtain ⟨m, rfl⟩ := Option.isSome_iff_exists.mp (hsome.trans (by simp [hcounted]))
    simpa [hcounted, held] using hheld

end Filling

end LiveRecord

/-- **Limits keep the first keys and the last values.**  This holds of a bounded set after any
offers, full or not: it has no more keys than there is room for, the texts in it are cut, an offer
without a key leaves it alone, and an offer for a key that it has changes the value of that key in
its place and nothing else.  It also holds of a record under limits, whose own attributes are
offered first. -/
theorem limits_keep_first_keys (capacity lengthLimit : Nat) (offers : Offers) :
    let m := ({ capacity, lengthLimit } : BoundedAttributes).putAll offers
    offers.Kept capacity lengthLimit m.attributes m.totalAdded ∧
      m.size ≤ capacity ∧
      (∀ value : AttributeValue, value.truncated lengthLimit =
        value.mapTexts fun s => String.ofList (s.toList.take lengthLimit)) ∧
      (∀ value, m.put "" value = m) ∧
      (∀ key ∈ m.attributes.keys, ∀ value,
        (m.put key value).attributes.entries = m.attributes.entries.map fun entry =>
          if entry.1 = key then (key, value.truncated lengthLimit) else entry) ∧
      ∀ (r : Record) (limits : Limits),
        Offers.Kept limits.maxAttributes limits.maxValueLength (r.attributes.entries ++ offers)
          ((LiveRecord.ofRecord r limits).setAll offers).snapshot.attributes
          ((LiveRecord.ofRecord r limits).setAll offers).snapshot.totalAttributes := by
  intro m
  have hkept := BoundedAttributes.kept_putAll capacity lengthLimit offers
  refine ⟨hkept, ?_, AttributeValue.truncated_eq lengthLimit,
    fun _ => BoundedAttributes.put_empty, ?_, ?_⟩
  · have hsize : m.size = m.attributes.keys.length := by
      simp [BoundedAttributes.size, Attributes.size, Attributes.keys]
    rw [hsize, hkept.keys, List.length_take]
    exact Nat.min_le_left _ _
  · intro key hkey value
    have hne : key ≠ "" := Offers.ne_of_mem_keys (List.mem_of_mem_take (hkept.keys ▸ hkey))
    rw [BoundedAttributes.put_kept hne (.inl hkey), Attributes.entries_insert_of_mem _ hkey,
      BoundedAttributes.lengthLimit_putAll]
    refine List.map_congr_left ?_
    rintro ⟨k, v⟩ -
    split
    · simp_all
    · rfl
  · intro r limits
    exact LiveRecord.kept_snapshot r limits offers

end ProfilePipeline
