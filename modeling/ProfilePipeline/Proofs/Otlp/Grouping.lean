import Mathlib.Data.List.FinRange
import Mathlib.Data.List.Forall2
import Mathlib.Data.List.Induction
import Mathlib.Tactic.Common
import ProfilePipeline.Proofs.Attribute.Equality
import ProfilePipeline.Proofs.Otlp.Classes

/-!
# Grouping is a stable partition

Records are grouped by resource, and by scope within a resource.  Equal records may occur more than
once, so what becomes of them is said about *positions* in the list.

**The loop.**  Grouping can be done record by record: `place` looks for the first group with the
resource of the record, in it for the first one with its scope, and opens a group at the end of the
list where it finds none.  `group_eq_foldl` says that `group` is this loop.

**The partition.**  A layout is the positions of the records, nested as the groups are.
`StablePartition` says what the layout of a grouping is like: each position is in it once, positions
share a group exactly if their records have the same resource (and scope), and everything is in the
order of the list.  Groups are told apart by comparing a record with the first one of a group only.
That this is enough rests on equality by value being symmetric and transitive; that it is not
reflexive does no harm, since a record is never compared with itself.
-/

namespace ProfilePipeline.Otlp

/-! ## The loop -/

/-- Adds a record to the first group of its scope, or opens one. -/
def placeScope (r : Record) : List ScopeGroup → List ScopeGroup
  | [] => [⟨r.scope, [r]⟩]
  | g :: rest =>
      if g.scope.same r.scope then { g with records := g.records ++ [r] } :: rest
      else g :: placeScope r rest

/-- Adds a record to the first group of its resource, or opens one. -/
def place (r : Record) : List ResourceGroup → List ResourceGroup
  | [] => [⟨r.resource, placeScope r []⟩]
  | g :: rest =>
      if g.resource.same r.resource then { g with scopes := placeScope r g.scopes } :: rest
      else g :: place r rest

lemma groupByScope_concat (records : List Record) (r : Record) :
    groupByScope (records ++ [r]) = placeScope r (groupByScope records) := by
  rw [groupByScope, groupByScope, classes_concat]
  generalize classes (fun r s : Record => r.scope.same s.scope) records = cs
  induction cs with
  | nil => rfl
  | cons c cs ih =>
      rw [joinClass, List.map_cons, placeScope]
      split
      · rfl
      · rw [List.map_cons, ih]

lemma group_concat (records : List Record) (r : Record) :
    group (records ++ [r]) = place r (group records) := by
  rw [group, group, classes_concat]
  generalize classes (fun r s : Record => r.resource.same s.resource) records = cs
  induction cs with
  | nil => simp [joinClass, place, groupByScope, placeScope, classes_cons]
  | cons c cs ih =>
      rw [joinClass, List.map_cons, place]
      split
      · simp only [List.map_cons]
        rw [← groupByScope_concat, List.cons_append]
      · rw [List.map_cons, ih]

/-- **Grouping can be done record by record.** -/
theorem group_eq_foldl (records : List Record) :
    group records = records.foldl (fun groups r => place r groups) [] := by
  induction records using List.reverseRecOn with
  | nil => simp [group]
  | append_singleton records r ih => rw [group_concat, List.foldl_concat, ih]

/-! ## Positions -/

section Positions

variable {n : ℕ} {ps qs : List (Fin n)} {i : Fin n}

/-- The first one of some positions. -/
def IsFirst (ps : List (Fin n)) (i : Fin n) : Prop := i ∈ ps ∧ ∀ j ∈ ps, i ≤ j

/-- One of some positions is before all of some others. -/
def StartsBefore (ps qs : List (Fin n)) : Prop := ∃ i ∈ ps, ∀ j ∈ qs, i < j

lemma isFirst_head {rest : List (Fin n)} (h : (i :: rest).Pairwise (· < ·)) :
    IsFirst (i :: rest) i := by
  refine ⟨List.mem_cons_self, ?_⟩
  intro j hj
  rcases List.mem_cons.mp hj with rfl | hj
  · exact le_rfl
  · exact (List.rel_of_pairwise_cons h hj).le

lemma IsFirst.congr (h : IsFirst ps i) (hmem : ∀ j, j ∈ qs ↔ j ∈ ps) : IsFirst qs i :=
  ⟨(hmem i).mpr h.1, fun j hj => h.2 j ((hmem j).mp hj)⟩

/-- The classes of an ascending list come in the order of their first positions. -/
lemma classes_startBefore {same : Fin n → Fin n → Bool} (h : ps.Pairwise (· < ·)) :
    (classes same ps).Pairwise fun c d => StartsBefore (members c) (members d) := by
  have hheads : (classes same ps).Pairwise fun c d => c.1 < d.1 :=
    List.pairwise_map.mp (h.sublist heads_sublist)
  refine hheads.imp_of_mem ?_
  intro c d _ hd hlt
  refine ⟨c.1, List.mem_cons_self, ?_⟩
  intro j hj
  exact hlt.trans_le ((isFirst_head (h.sublist (classes_sublist hd))).2 j hj)

end Positions

/-! ## Partitions -/

/-- A scope group shows the records at some positions of a batch, in their order, under the scope of
the first one. -/
structure ScopeGroup.Shows (batch : List Record) (g : ScopeGroup)
    (positions : List (Fin batch.length)) : Prop where
  records : g.records = positions.map batch.get
  ascending : positions.Pairwise (· < ·)
  scope : ∃ i, IsFirst positions i ∧ g.scope = (batch.get i).scope

/-- A resource group shows the records at some positions of a batch by their scopes, under the
resource of the first one. -/
structure ResourceGroup.Shows (batch : List Record) (g : ResourceGroup)
    (parts : List (List (Fin batch.length))) : Prop where
  scopes : List.Forall₂ (ScopeGroup.Shows batch) g.scopes parts
  resource : ∃ i, IsFirst parts.flatten i ∧ g.resource = (batch.get i).resource
  ordered : parts.Pairwise StartsBefore
  distinct : g.scopes.Pairwise fun a b => a.scope.same b.scope = false

/-- **A stable partition** of a batch of records by resource and scope, with its layout. -/
structure StablePartition (batch : List Record) (layout : List (List (List (Fin batch.length))))
    (groups : List ResourceGroup) : Prop where
  shown : List.Forall₂ (ResourceGroup.Shows batch) groups layout
  once : layout.flatten.flatten.Perm (List.finRange batch.length)
  resource_iff : ∀ i j, i ≠ j →
    ((∃ parts ∈ layout, i ∈ parts.flatten ∧ j ∈ parts.flatten) ↔
      (batch.get i).resource.same (batch.get j).resource = true)
  scope_iff : ∀ i j, i ≠ j →
    ((∃ parts ∈ layout, ∃ positions ∈ parts, i ∈ positions ∧ j ∈ positions) ↔
      (batch.get i).resource.same (batch.get j).resource = true ∧
        (batch.get i).scope.same (batch.get j).scope = true)
  ordered : layout.Pairwise fun a b => StartsBefore a.flatten b.flatten
  distinct : groups.Pairwise fun a b => a.resource.same b.resource = false

section Layout

variable (records : List Record)

/-- Whether the records at two positions have the same scope. -/
def sameScope (i j : Fin records.length) : Bool :=
  (records.get i).scope.same (records.get j).scope

/-- Whether the records at two positions have the same resource. -/
def sameResource (i j : Fin records.length) : Bool :=
  (records.get i).resource.same (records.get j).resource

/-- Positions by scope. -/
def scopeLayout (ps : List (Fin records.length)) : List (List (Fin records.length)) :=
  (classes (sameScope records) ps).map members

/-- Positions by resource and scope. -/
def layout : List (List (List (Fin records.length))) :=
  (classes (sameResource records) (List.finRange records.length)).map fun c =>
    scopeLayout records (members c)

variable {records} {ps : List (Fin records.length)} {i j : Fin records.length}

lemma groupByScope_positions :
    groupByScope (ps.map records.get) =
      (classes (sameScope records) ps).map fun c =>
        ⟨(records.get c.1).scope, (members c).map records.get⟩ := by
  rw [groupByScope, classes_map, List.map_map]
  rfl

lemma group_positions :
    group records =
      (classes (sameResource records) (List.finRange records.length)).map fun c =>
        ⟨(records.get c.1).resource, groupByScope ((members c).map records.get)⟩ := by
  conv_lhs => rw [group, ← List.map_get_finRange records]
  rw [classes_map, List.map_map]
  rfl

lemma flatten_scopeLayout_perm : (scopeLayout records ps).flatten.Perm ps := by
  rw [scopeLayout, ← List.flatMap_def]
  exact flatMap_classes_perm

lemma mem_flatten_scopeLayout : i ∈ (scopeLayout records ps).flatten ↔ i ∈ ps :=
  flatten_scopeLayout_perm.mem_iff

/-- Every position is in the layout once. -/
lemma flatten_layout_perm : (layout records).flatten.flatten.Perm (List.finRange records.length) := by
  have hflatten : (layout records).flatten.flatten =
      (classes (sameResource records) (List.finRange records.length)).flatMap fun c =>
        (scopeLayout records (members c)).flatten := by
    rw [layout, List.flatMap_def, List.flatten_flatten, List.map_map]
    rfl
  rw [hflatten]
  refine (List.Perm.flatMap_left _ ?_).trans flatMap_classes_perm
  intro c _
  exact flatten_scopeLayout_perm

/-! ## What groups show -/

lemma groupByScope_shows (h : ps.Pairwise (· < ·)) :
    List.Forall₂ (ScopeGroup.Shows records) (groupByScope (ps.map records.get))
      (scopeLayout records ps) := by
  rw [groupByScope_positions, scopeLayout, List.forall₂_map_left_iff, List.forall₂_map_right_iff,
    List.forall₂_same]
  intro c hc
  have hascending : (members c).Pairwise (· < ·) := h.sublist (classes_sublist hc)
  exact ⟨rfl, hascending, c.1, isFirst_head hascending, rfl⟩

lemma groupByScope_distinct :
    (groupByScope (ps.map records.get)).Pairwise fun a b => a.scope.same b.scope = false := by
  rw [groupByScope_positions, List.pairwise_map]
  refine classes_apart.imp ?_
  intro c d h
  exact h d.1 List.mem_cons_self

lemma group_shows :
    List.Forall₂ (ResourceGroup.Shows records) (group records) (layout records) := by
  rw [group_positions, layout, List.forall₂_map_left_iff, List.forall₂_map_right_iff,
    List.forall₂_same]
  intro c hc
  have hascending : (members c).Pairwise (· < ·) :=
    (List.pairwise_lt_finRange _).sublist (classes_sublist hc)
  exact {
    scopes := groupByScope_shows hascending
    resource := ⟨c.1, (isFirst_head hascending).congr fun _ => mem_flatten_scopeLayout, rfl⟩
    ordered := List.pairwise_map.mpr (classes_startBefore hascending)
    distinct := groupByScope_distinct }

lemma group_distinct : (group records).Pairwise fun a b => a.resource.same b.resource = false := by
  rw [group_positions, List.pairwise_map]
  refine classes_apart.imp ?_
  intro c d h
  exact h d.1 List.mem_cons_self

lemma layout_ordered :
    (layout records).Pairwise fun a b => StartsBefore a.flatten b.flatten := by
  rw [layout, List.pairwise_map]
  refine (classes_startBefore (List.pairwise_lt_finRange _)).imp ?_
  rintro c d ⟨i, hi, hlt⟩
  refine ⟨i, mem_flatten_scopeLayout.mpr hi, ?_⟩
  intro j hj
  exact hlt j (mem_flatten_scopeLayout.mp hj)

/-! ## Who shares a group -/

lemma share_resource_iff (hne : i ≠ j) :
    (∃ c ∈ classes (sameResource records) (List.finRange records.length),
      i ∈ members c ∧ j ∈ members c) ↔ sameResource records i j = true := by
  refine share_class_iff ?symm ?trans (List.mem_finRange i) (List.mem_finRange j) hne
  case symm =>
    intro a b
    exact Resource.same_symm
  case trans =>
    intro a b c
    exact Resource.same_trans

lemma share_scope_iff (hi : i ∈ ps) (hj : j ∈ ps) (hne : i ≠ j) :
    (∃ positions ∈ scopeLayout records ps, i ∈ positions ∧ j ∈ positions) ↔
      sameScope records i j = true := by
  simp only [scopeLayout, List.mem_map, exists_exists_and_eq_and]
  refine share_class_iff ?symm ?trans hi hj hne
  case symm =>
    intro a b
    exact Scope.same_symm
  case trans =>
    intro a b c
    exact Scope.same_trans

lemma layout_resource_iff (hne : i ≠ j) :
    (∃ parts ∈ layout records, i ∈ parts.flatten ∧ j ∈ parts.flatten) ↔
      sameResource records i j = true := by
  simp only [layout, List.mem_map, exists_exists_and_eq_and, mem_flatten_scopeLayout]
  exact share_resource_iff hne

lemma layout_scope_iff (hne : i ≠ j) :
    (∃ parts ∈ layout records, ∃ positions ∈ parts, i ∈ positions ∧ j ∈ positions) ↔
      sameResource records i j = true ∧ sameScope records i j = true := by
  simp only [layout, List.mem_map, exists_exists_and_eq_and]
  constructor
  · rintro ⟨c, hc, positions, hpositions, hi, hj⟩
    have hic := mem_flatten_scopeLayout.mp (List.mem_flatten_of_mem hpositions hi)
    have hjc := mem_flatten_scopeLayout.mp (List.mem_flatten_of_mem hpositions hj)
    exact ⟨(share_resource_iff hne).mp ⟨c, hc, hic, hjc⟩,
      (share_scope_iff hic hjc hne).mp ⟨positions, hpositions, hi, hj⟩⟩
  · rintro ⟨hresource, hscope⟩
    obtain ⟨c, hc, hic, hjc⟩ := (share_resource_iff hne).mpr hresource
    exact ⟨c, hc, (share_scope_iff hic hjc hne).mpr hscope⟩

end Layout

/-- **Grouping is a stable partition.**  The loop that places one record after the other yields the
groups, and they have a layout in which every record is once, with its equals and in order. -/
theorem group_stable (records : List Record) :
    group records = records.foldl (fun groups r => place r groups) [] ∧
      ∃ layout, StablePartition records layout (group records) := by
  refine ⟨group_eq_foldl records, layout records, ?_⟩
  exact {
    shown := group_shows
    once := flatten_layout_perm
    resource_iff := fun _ _ hne => layout_resource_iff hne
    scope_iff := fun _ _ hne => layout_scope_iff hne
    ordered := layout_ordered
    distinct := group_distinct }

end ProfilePipeline.Otlp
