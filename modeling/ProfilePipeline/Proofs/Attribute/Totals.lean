import ProfilePipeline.Proofs.Attribute.Composition

/-!
# What the total of a record counts

A record counts the attributes that are set on it, and what it reports as dropped is that total
without the attributes it holds.  Setting an attribute can do three things: it adds a key, it renews
the value of a key that is there, or it is refused because the record is full.  Only the first makes
the record hold more.

* `LiveRecord.Refuses`, `LiveRecord.Renews` — the other two.
* **`dropped_eq_refusals_add_renewals`** — what is reported as dropped are both of them together, so
  it is more than the refusals whenever a value was renewed (`dropped_renewed`).
* **`rewrapped_eq`** — wrapping a snapshot again keeps everything but the total, which starts over
  from the attributes that are held (`rewrapped_forgets`).
-/

namespace ProfilePipeline

/-! ## Sets that are full, sets that have room -/

namespace BoundedAttributes

variable {m : BoundedAttributes} {key : String} {value : AttributeValue}

lemma size_eq_length_keys (a : Attributes) : a.size = a.keys.length := by
  rw [Attributes.size, Attributes.keys, List.length_map]

/-- A key that is there stays there. -/
lemma mem_keys_put {k : String} (h : k ∈ m.attributes.keys) :
    k ∈ (m.put key value).attributes.keys := by
  by_cases hne : key = ""
  · rwa [hne, put_empty]
  by_cases hmem : key ∈ m.attributes.keys ∨ m.attributes.size < m.capacity
  · rw [put_kept hne hmem, Attributes.keys_insert]
    split
    · exact h
    · exact List.mem_append_left _ h
  · rw [not_or, Nat.not_lt] at hmem
    rwa [put_refused hne hmem.1 hmem.2]

/-- A full set takes no more keys. -/
lemma keys_put_of_full (h : m.capacity ≤ m.attributes.size) :
    (m.put key value).attributes.keys = m.attributes.keys := by
  by_cases hne : key = ""
  · rw [hne, put_empty]
  by_cases hmem : key ∈ m.attributes.keys
  · rw [put_kept hne (.inl hmem), Attributes.keys_insert, if_pos hmem]
  · rw [put_refused hne hmem h]

lemma keys_putAll_of_full {offers : Offers} (h : m.capacity ≤ m.attributes.size) :
    (m.putAll offers).attributes.keys = m.attributes.keys := by
  induction offers generalizing m with
  | nil => rfl
  | cons offer offers ih =>
      have hkeys : (m.put offer.1 offer.2).attributes.keys = m.attributes.keys := keys_put_of_full h
      refine (ih ?_).trans hkeys
      rwa [capacity_put, size_eq_length_keys, hkeys, ← size_eq_length_keys]

lemma mem_keys_putAll {offers : Offers} {k : String} (h : k ∈ m.attributes.keys) :
    k ∈ (m.putAll offers).attributes.keys := by
  induction offers generalizing m with
  | nil => exact h
  | cons offer offers ih => exact ih (mem_keys_put h)

end BoundedAttributes

/-! ## What becomes of setting an attribute -/

namespace LiveRecord

variable (r : LiveRecord) (offers : Offers)

/-- A record refuses a key if it holds as many other keys as it may. -/
def Refuses (r : LiveRecord) (key : String) : Prop :=
  key ≠ "" ∧ key ∉ r.held.attributes.keys ∧ r.held.capacity ≤ r.held.attributes.size

/-- A record renews the value of a key that it holds. -/
def Renews (r : LiveRecord) (key : String) : Prop :=
  key ≠ "" ∧ key ∈ r.held.attributes.keys

instance (key : String) : Decidable (r.Refuses key) := by
  unfold Refuses
  infer_instance

instance (key : String) : Decidable (r.Renews key) := by
  unfold Renews
  infer_instance

/-- How many of the attributes that are set one after the other meet a record that does `what` with
their key. -/
def meeting (what : LiveRecord → String → Prop) [∀ r key, Decidable (what r key)] :
    LiveRecord → Offers → Nat
  | _, [] => 0
  | r, (key, value) :: offers =>
    (if what r key then 1 else 0) + (r.setAttribute key value).meeting what offers

/-- **How many attributes are refused** because the record is full. -/
def refusals : Nat := r.meeting Refuses offers

/-- How many attributes renew the value of a key. -/
def renewals : Nat := r.meeting Renews offers

lemma refusals_cons (key : String) (value : AttributeValue) :
    r.refusals ((key, value) :: offers) =
      (if r.Refuses key then 1 else 0) + (r.setAttribute key value).refusals offers := rfl

lemma renewals_cons (key : String) (value : AttributeValue) :
    r.renewals ((key, value) :: offers) =
      (if r.Renews key then 1 else 0) + (r.setAttribute key value).renewals offers := rfl

/-- **One attribute**: what counts and is not held was refused, or renews a value. -/
lemma total_setAttribute (key : String) (value : AttributeValue) :
    (r.setAttribute key value).held.totalAdded + r.held.attributes.size =
      (r.setAttribute key value).held.attributes.size + r.held.totalAdded +
        ((if r.Refuses key then 1 else 0) + if r.Renews key then 1 else 0) := by
  rw [held_setAttribute]
  simp only [Refuses, Renews, BoundedAttributes.size_eq_length_keys]
  by_cases hne : key = ""
  · subst hne
    simp [BoundedAttributes.put_empty, Nat.add_comm]
  by_cases hmem : key ∈ r.held.attributes.keys
  · simp [BoundedAttributes.put_kept hne (.inl hmem), Attributes.keys_insert, hmem, hne]
    omega
  by_cases hroom : r.held.attributes.size < r.held.capacity
  · have hfull : ¬ r.held.capacity ≤ r.held.attributes.keys.length := by
      rwa [← BoundedAttributes.size_eq_length_keys, Nat.not_le]
    simp [BoundedAttributes.put_kept hne (.inr hroom), Attributes.keys_insert, hmem, hfull]
    omega
  · have hfull : r.held.capacity ≤ r.held.attributes.size := Nat.not_lt.mp hroom
    have hlength := hfull
    rw [BoundedAttributes.size_eq_length_keys] at hlength
    simp [BoundedAttributes.put_refused hne hmem hfull, hne, hmem, hlength]
    omega

/-- **Many attributes**, by induction over them. -/
lemma total_setAll :
    (r.setAll offers).held.totalAdded + r.held.attributes.size =
      (r.setAll offers).held.attributes.size + r.held.totalAdded +
        (r.refusals offers + r.renewals offers) := by
  induction offers generalizing r with
  | nil => simp [setAll, refusals, renewals, meeting, Nat.add_comm]
  | cons offer offers ih =>
      obtain ⟨key, value⟩ := offer
      have hone := r.total_setAttribute key value
      have hrest := ih (r.setAttribute key value)
      rw [setAll_cons, refusals_cons, renewals_cons]
      omega

/-- A key that is refused is not there afterwards either. -/
lemma not_mem_of_refuses {key : String} (h : r.Refuses key) (value : AttributeValue) :
    key ∉ ((r.setAttribute key value).setAll offers).held.attributes.keys := by
  obtain ⟨hne, hmem, hfull⟩ := h
  have hput : (r.held.put key value).attributes = r.held.attributes := by
    rw [BoundedAttributes.put_refused hne hmem hfull]
  rw [held_setAll, held_setAttribute, BoundedAttributes.keys_putAll_of_full, hput]
  · exact hmem
  · rwa [BoundedAttributes.capacity_put, hput]

/-- A key that is not refused is there afterwards. -/
lemma mem_of_not_refuses {key : String} (hne : key ≠ "") (h : ¬ r.Refuses key)
    (value : AttributeValue) :
    key ∈ ((r.setAttribute key value).setAll offers).held.attributes.keys := by
  rw [held_setAll, held_setAttribute]
  refine BoundedAttributes.mem_keys_putAll ?_
  have hkept : key ∈ r.held.attributes.keys ∨ r.held.attributes.size < r.held.capacity := by
    by_contra hout
    rw [not_or, Nat.not_lt] at hout
    exact h ⟨hne, hout.1, hout.2⟩
  rw [BoundedAttributes.put_kept hne hkept, Attributes.keys_insert]
  split
  · assumption
  · simp

/-- **Nothing is refused exactly if everything that was set is there.** -/
lemma refusals_eq_zero_iff :
    r.refusals offers = 0 ↔
      ∀ offer ∈ offers, offer.1 ≠ "" → offer.1 ∈ (r.setAll offers).held.attributes.keys := by
  induction offers generalizing r with
  | nil => simp [refusals, meeting]
  | cons offer offers ih =>
      obtain ⟨key, value⟩ := offer
      rw [refusals_cons, Nat.add_eq_zero_iff, ih, setAll_cons, List.forall_mem_cons]
      refine and_congr_left fun _ => ?_
      constructor
      · intro hzero hne
        refine mem_of_not_refuses _ _ hne ?_ value
        intro hrefuses
        simp [hrefuses] at hzero
      · intro hthere
        rw [if_neg]
        intro hrefuses
        exact not_mem_of_refuses r offers hrefuses value (hthere hrefuses.1)

/-- **What a record reports as dropped** is what it refused and what renewed a value.  It refused
nothing exactly if every key that was set is there. -/
theorem dropped_eq_refusals_add_renewals (e : Emission) (limits : Limits) (offers : Offers) :
    let r := (fresh e limits).setAll offers
    r.snapshot.dropped = (fresh e limits).refusals offers + (fresh e limits).renewals offers ∧
      ((fresh e limits).refusals offers = 0 ↔
        ∀ offer ∈ offers, offer.1 ≠ "" → offer.1 ∈ r.snapshot.attributes.keys) := by
  dsimp only
  have htotal := (fresh e limits).total_setAll offers
  have hempty : (fresh e limits).held.attributes.size = 0 := rfl
  have hstart : (fresh e limits).held.totalAdded = 0 := rfl
  refine ⟨?_, ?_⟩
  · rw [Record.dropped, snapshot_totalAttributes, snapshot_attributes]
    omega
  · rw [snapshot_attributes]
    exact (fresh e limits).refusals_eq_zero_iff offers

/-- **A value that is renewed is reported as dropped**: a record with room for 128 keys gets two
values for one key, refuses neither, and reports that one was dropped. -/
theorem dropped_renewed :
    let offers : Offers := [("a", .int 1), ("a", .int 2)]
    let r := (fresh {} .standard).setAll offers
    r.snapshot.attributes.entries = [("a", .int 2)] ∧
      (fresh {} .standard).refusals offers = 0 ∧ r.snapshot.dropped = 1 := by
  refine ⟨rfl, ?_, rfl⟩
  decide

/-! ## Wrapping a snapshot again -/

end LiveRecord

namespace BoundedAttributes

variable {m : BoundedAttributes} {offers : Offers}

/-- The texts that a set holds are as short as they have to be. -/
lemma Keeps.truncated (h : m.Keeps offers) {entry : String × AttributeValue}
    (hentry : entry ∈ m.attributes.entries) : entry.2.truncated m.lengthLimit = entry.2 := by
  obtain ⟨key, value⟩ := entry
  have hkey : key ∈ m.attributes.keys := List.mem_map.mpr ⟨_, hentry, rfl⟩
  have hvalue := h.value key hkey
  rw [Attributes.get?_eq_some_iff.mpr hentry] at hvalue
  obtain ⟨offered, -, rfl⟩ := Option.map_eq_some_iff.mp hvalue.symm
  rw [AttributeValue.truncated_truncated, Nat.min_self]

end BoundedAttributes

namespace LiveRecord

/-- What is seen of a record. -/
lemma snapshot_eq (r : LiveRecord) :
    r.snapshot = { r.emission with
      attributes := r.held.attributes
      totalAttributes := r.held.totalAdded } := by
  rw [snapshot, held]
  split <;> simp [*, BoundedAttributes.ofLimits]

/-- Wrapping a record whose attributes are within the limits. -/
lemma snapshot_ofRecord {r : Record} {limits : Limits}
    (hcut : ∀ entry ∈ r.attributes.entries, entry.2.truncated limits.maxValueLength = entry.2)
    (hne : ∀ key ∈ r.attributes.keys, key ≠ "") (hroom : r.attributes.size ≤ limits.maxAttributes) :
    (ofRecord r limits).snapshot = { r with totalAttributes := r.attributes.size } := by
  have hcounted : Offers.counted r.attributes.entries = r.attributes.entries := by
    rw [Offers.counted, List.filter_eq_self]
    intro entry hentry
    simpa using hne entry.1 (List.mem_map.mpr ⟨entry, hentry, rfl⟩)
  have hattributes : (ofRecord r limits).held.attributes = r.attributes := by
    refine Attributes.eq_of_entries ?_
    rw [← snapshot_attributes, entries_ofRecord, Limits.leave_eq_self hcounted hroom hcut]
  have htotal : (ofRecord r limits).held.totalAdded = r.attributes.size := by
    have hkept := (kept_snapshot r limits []).total
    rw [List.append_nil, hcounted] at hkept
    rw [← snapshot_totalAttributes]
    exact hkept
  rw [snapshot_eq, hattributes, htotal, ofRecord, emission_setAll]
  rfl

/-- A record under limits is within them. -/
lemma snapshot_within (e : Emission) (limits : Limits) (offers : Offers) :
    let r := ((fresh e limits).setAll offers).snapshot
    (∀ entry ∈ r.attributes.entries, entry.2.truncated limits.maxValueLength = entry.2) ∧
      (∀ key ∈ r.attributes.keys, key ≠ "") ∧ r.attributes.size ≤ limits.maxAttributes := by
  dsimp only
  have hkeeps : ((fresh e limits).setAll offers).held.Keeps offers := by
    rw [held_setAll]
    exact (BoundedAttributes.keeps_empty _ _).putAll offers
  have hcapacity : ((fresh e limits).setAll offers).held.capacity = limits.maxAttributes := by
    rw [held_setAll, BoundedAttributes.capacity_putAll]
    rfl
  have hlimit : ((fresh e limits).setAll offers).held.lengthLimit = limits.maxValueLength := by
    rw [held_setAll, BoundedAttributes.lengthLimit_putAll]
    rfl
  rw [snapshot_attributes, ← hlimit, ← hcapacity, hkeeps.size_eq]
  refine ⟨fun entry hentry => hkeeps.truncated hentry, ?_, Nat.min_le_left _ _⟩
  intro key hkey
  exact Offers.ne_of_mem_keys (hkeeps.mem_keys hkey)

/-- No more is held than was set. -/
lemma size_le_total (e : Emission) (limits : Limits) (offers : Offers) :
    ((fresh e limits).setAll offers).snapshot.attributes.size ≤
      ((fresh e limits).setAll offers).snapshot.totalAttributes := by
  have htotal := (fresh e limits).total_setAll offers
  have hempty : (fresh e limits).held.attributes.size = 0 := rfl
  have hstart : (fresh e limits).held.totalAdded = 0 := rfl
  rw [snapshot_attributes, snapshot_totalAttributes]
  omega

/-- **Wrapping a snapshot again, with the same limits, keeps everything but the total.**  That
starts over from the attributes that are held, so nothing is reported as dropped any more, and the
snapshot is the same again exactly if nothing was dropped before. -/
theorem rewrapped_eq (e : Emission) (limits : Limits) (offers : Offers) :
    let r := ((fresh e limits).setAll offers).snapshot
    (ofRecord r limits).snapshot = { r with totalAttributes := r.attributes.size } ∧
      (ofRecord r limits).snapshot.dropped = 0 ∧
      ((ofRecord r limits).snapshot = r ↔ r.dropped = 0) := by
  intro r
  obtain ⟨hcut, hne, hroom⟩ := snapshot_within e limits offers
  have hle : r.attributes.size ≤ r.totalAttributes := size_le_total e limits offers
  have hsame : (ofRecord r limits).snapshot = { r with totalAttributes := r.attributes.size } :=
    snapshot_ofRecord hcut hne hroom
  refine ⟨hsame, ?_, ?_⟩
  · rw [hsame]
    exact Nat.sub_self _
  rw [hsame]
  constructor
  · intro heq
    have hsize : r.attributes.size = r.totalAttributes := congrArg Record.totalAttributes heq
    exact Nat.sub_eq_zero_of_le (Nat.le_of_eq hsize.symm)
  · intro hdropped
    have hsize : r.attributes.size = r.totalAttributes :=
      Nat.le_antisymm hle (Nat.sub_eq_zero_iff_le.mp hdropped)
    rw [hsize]

/-- **What a snapshot counts is forgotten when it is wrapped again**: a record with room for one key
is offered two and reports that one was dropped, and wrapped again it reports none. -/
theorem rewrapped_forgets :
    let limits : Limits := ⟨1, 0xffffffffffffffff⟩
    let r := ((fresh {} limits).setAll [("a", .int 1), ("b", .int 2)]).snapshot
    r.totalAttributes = 2 ∧ r.dropped = 1 ∧
      (ofRecord r limits).snapshot.totalAttributes = 1 ∧
      (ofRecord r limits).snapshot.dropped = 0 ∧ (ofRecord r limits).snapshot ≠ r := by
  refine ⟨rfl, rfl, rfl, rfl, ?_⟩
  intro h
  exact absurd (congrArg Record.totalAttributes h) (by decide)

end LiveRecord

end ProfilePipeline
