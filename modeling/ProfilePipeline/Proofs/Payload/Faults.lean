import Mathlib.Tactic.Common
import ProfilePipeline.Proofs.Payload.References

/-!
# The first fault of a payload

The check stops at the first reference that does not resolve, and reports that one.  Which one is
first is a matter of the list `references` alone, so the check is a search of that list
(`checkIndices_eq_find?`).

**What is reported.**  `Reference.ReportedBy` says field by field what an error tells of a
reference.  Its index is told as it is, unless it is beyond the signed words; then the largest of
these stands for it.  Nothing else gets lost, since every index of a payload is a word, signed or
not, and none of these is below the signed words (`le_index`).

**What is not accepted.**  Taking the nearest signed word for an unsigned index can only make it
smaller.  It still lies outside of every table that signed words can address
(`Table.checkUnsigned_eq_ok_iff`).
-/

namespace ProfilePipeline.Payload

/-! ## The search -/

/-- Whether a reference does not resolve. -/
def Reference.isFault (r : Reference) : Bool := !decide r.Resolves

@[simp] lemma Reference.isFault_iff {r : Reference} : r.isFault = true ↔ ¬ r.Resolves := by
  simp [isFault]

/-- Checking references one after the other is looking for one that does not resolve. -/
lemma forM_check_eq_find? (rs : List Reference) :
    forM rs Reference.check =
      match rs.find? Reference.isFault with
      | none => .ok ()
      | some r => .error r.error := by
  induction rs with
  | nil => rfl
  | cons r rs ih =>
      rw [List.forM_cons, Reference.check]
      by_cases h : r.Resolves
      · have hgood : r.isFault = false := by simp [Reference.isFault, h]
        rw [if_pos h, List.find?_cons_of_neg (by simp [hgood]), ← ih]
        rfl
      · have hfault : r.isFault = true := Reference.isFault_iff.mpr h
        rw [if_neg h, List.find?_cons_of_pos hfault]
        rfl

variable {p : Payload}

/-- **The check is a search** for a reference that does not resolve. -/
theorem checkIndices_eq_find? (h : p.Addressable) :
    p.checkIndices =
      match p.references.find? Reference.isFault with
      | none => .ok ()
      | some r => .error r.error := by
  rw [checkIndices_eq_forM h, forM_check_eq_find?]

/-! ## What an error tells -/

/-- What an error tells of a reference.  An index beyond the signed words is told as the largest of
them. -/
structure Reference.ReportedBy (r : Reference) (e : IndexError) : Prop where
  entity : e.entity = r.entity
  position : e.position = r.position
  field : e.field = r.field
  index : e.index.toInt = min r.index (2 ^ 63 - 1)
  table : e.table = r.table.name
  len : e.len = r.table.len

/-- Every index is a word, so it is not below the signed ones. -/
lemma le_index {r : Reference} (h : r ∈ p.references) : -2 ^ 63 ≤ r.index := by
  revert r
  have hsigned : ∀ index : Int64, -2 ^ 63 ≤ index.toInt := Int64.le_toInt
  have hunsigned : ∀ index : UInt64, -2 ^ 63 ≤ (index.toNat : Int) := by
    intro index
    omega
  simp only [references, List.forall_mem_append, forall_referencesOf, List.forall_mem_map,
    List.forall_mem_flatMap, List.forall_mem_cons, List.not_mem_nil, false_implies, implies_true,
    and_true, hsigned, hunsigned]

lemma Reference.toInt_index_error {r : Reference} (h : -2 ^ 63 ≤ r.index) :
    r.error.index.toInt = min r.index (2 ^ 63 - 1) := by
  rw [error, Int64.toInt_maxValue]
  exact Int64.toInt_ofInt_of_le (by omega) (by omega)

/-- An error tells of a reference exactly what the check reports about it. -/
lemma Reference.reportedBy_iff {r : Reference} {e : IndexError} (h : -2 ^ 63 ≤ r.index) :
    r.ReportedBy e ↔ e = r.error := by
  have hindex := toInt_index_error h
  constructor
  · rintro ⟨hentity, hposition, hfield, hword, htable, hlen⟩
    have hsame : e.index = r.error.index := Int64.toInt_inj.mp (hword.trans hindex.symm)
    obtain ⟨entity, position, field, index, table, len⟩ := e
    subst hentity hposition hfield htable hlen hsame
    rfl
  · rintro rfl
    exact ⟨rfl, rfl, rfl, hindex, rfl, rfl⟩

/-! ## What is accepted -/

/-- An unsigned index is accepted exactly if it is in the table, however large it is. -/
lemma Table.checkUnsigned_eq_ok_iff {t : Table} (h : t.len < 2 ^ 63) {entity field : String}
    {position : Nat} {index : UInt64} :
    t.checkUnsigned entity position field index = .ok () ↔ t.Has index.toNat := by
  rw [checkUnsigned_eq h, Reference.check_eq_ok_iff, Reference.resolves_mk]

/-- The search finds nothing exactly if everything resolves. -/
lemma checkIndices_eq_ok_iff_resolve (h : p.Addressable) :
    p.checkIndices = .ok () ↔ ∀ r ∈ p.references, r.Resolves := by
  rw [checkIndices_eq_forM h, forM_eq_ok_iff]
  simp only [Reference.check_eq_ok_iff]

/-- The search finds the first reference that does not resolve. -/
lemma checkIndices_eq_error_iff (h : p.Addressable) {e : IndexError} :
    p.checkIndices = .error e ↔
      ∃ r before after, p.references = before ++ r :: after ∧ (∀ b ∈ before, b.Resolves) ∧
        ¬ r.Resolves ∧ e = r.error := by
  have hfound : p.checkIndices = .error e ↔
      ∃ r, p.references.find? Reference.isFault = some r ∧ e = r.error := by
    rw [checkIndices_eq_find? h]
    cases p.references.find? Reference.isFault <;> simp [eq_comm]
  rw [hfound]
  simp only [List.find?_eq_some_iff_append, Reference.isFault_iff]
  constructor
  · rintro ⟨r, ⟨hfault, before, after, hlist, hbefore⟩, herror⟩
    exact ⟨r, before, after, hlist, by simpa [Reference.isFault] using hbefore, hfault, herror⟩
  · rintro ⟨r, before, after, hlist, hbefore, hfault, herror⟩
    exact ⟨r, ⟨hfault, before, after, hlist, by simpa [Reference.isFault] using hbefore⟩, herror⟩

/-- **The check is exact and reports the first fault.**  It passes a payload exactly if every
reference resolves, and otherwise the error tells of the first one that does not.  No unsigned index
gets through by being taken for a signed one. -/
theorem checkIndices_reports_first (h : p.Addressable) :
    (p.checkIndices = .ok () ↔ ∀ r ∈ p.references, r.Resolves) ∧
      (∀ e, p.checkIndices = .error e ↔
        ∃ r before after, p.references = before ++ r :: after ∧ (∀ b ∈ before, b.Resolves) ∧
          ¬ r.Resolves ∧ r.ReportedBy e) ∧
      ∀ (t : Table) (entity : String) (position : Nat) (field : String) (index : UInt64),
        t.len < 2 ^ 63 →
          (t.checkUnsigned entity position field index = .ok () ↔
            index.toNat = 0 ∨ index.toNat < t.len) := by
  refine ⟨checkIndices_eq_ok_iff_resolve h, ?_, ?_⟩
  · intro e
    rw [checkIndices_eq_error_iff h]
    refine exists_congr fun r => exists_congr fun before => exists_congr fun after => ?_
    refine and_congr_right fun hlist => and_congr_right fun _ => and_congr_right fun _ => ?_
    have hmem : r ∈ p.references := by simp [hlist]
    exact (Reference.reportedBy_iff (le_index hmem)).symm
  · intro t entity position field index ht
    rw [Table.checkUnsigned_eq_ok_iff ht, Table.Has]
    omega

/-- A payload in which the largest index there is stands for a link, and more is wrong after it. -/
def overshooting : Payload where
  samples := [{ locationIndex := [0], link := 0xffffffffffffffff }]
  links := [{}]
  stringTable := [""]
  dropFrames := -1

theorem checkIndices_overshooting :
    overshooting.Addressable ∧
      overshooting.checkIndices = .error ⟨"samples", 0, "link", Int64.maxValue, "links", 1⟩ ∧
      ∃ r before after, overshooting.references = before ++ r :: after ∧
        (∀ b ∈ before, b.Resolves) ∧ ¬ r.Resolves ∧
        r.ReportedBy ⟨"samples", 0, "link", Int64.maxValue, "links", 1⟩ ∧
        overshooting.linkTable.checkUnsigned "samples" 0 "link" 0xffffffffffffffff ≠ .ok () := by
  have h : overshooting.Addressable := by constructor <;> decide
  have herror : overshooting.checkIndices =
      .error ⟨"samples", 0, "link", Int64.maxValue, "links", 1⟩ := by decide
  obtain ⟨-, hfirst, hword⟩ := checkIndices_reports_first h
  obtain ⟨r, before, after, hlist, hbefore, hfault, hreported⟩ := (hfirst _).mp herror
  refine ⟨h, herror, r, before, after, hlist, hbefore, hfault, hreported, ?_⟩
  rw [Ne, hword _ _ _ _ _ h.links]
  decide

end ProfilePipeline.Payload
