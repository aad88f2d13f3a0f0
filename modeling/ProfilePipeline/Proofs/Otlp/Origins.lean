import Mathlib.Tactic.Common
import ProfilePipeline.Otlp.Request
import ProfilePipeline.Proofs.Attribute.Bounded
import ProfilePipeline.Proofs.Otlp.Grouping
import ProfilePipeline.Provider

/-!
# Records of one origin

Records have the same origin if their resources and their scopes are kept alike, down to the order
of attributes and the bits of doubles.  Whether they share a group is not decided by that but by a
comparison by value, and the two agree on everything that holds no NaN.

**Two records** of the same origin share a resource group exactly if there is no NaN in the
resource, and a scope group exactly if there is none in the scope either, whatever else is in the
batch.

**One profiler.**  What a profiler emits has one origin: neither the moment nor anything that is set
on a record later has a say in it (`Provider.Emits.origin`).  Without NaN a batch of such records is
one group, on the wire as well.

**With NaN** every record is on its own, even if all of them share one resource
(`group_parts_NaN`).
-/

namespace ProfilePipeline

/-- Resource and scope are kept alike. -/
structure SameOrigin (r s : Record) : Prop where
  resource : r.resource = s.resource
  scope : r.scope = s.scope

namespace SameOrigin

variable {r s : Record}

lemma resource_same_iff (h : SameOrigin r s) :
    r.resource.same s.resource = true ↔ r.resource.attributes.hasNaN = false := by
  rw [← h.resource]
  exact Resource.same_self_iff

lemma scope_same_iff (h : SameOrigin r s) :
    r.scope.same s.scope = true ↔ r.scope.attributes.hasNaN = false := by
  rw [← h.scope]
  exact Scope.same_self_iff

end SameOrigin

/-- A record is one that a profiler of a provider emitted, with what processors have set on it since.
The clock and the limits are those of some moment. -/
def Provider.Emits (p : Provider) (number : Nat) (r : Record) : Prop :=
  ∃ scope clock limits pending freshId offers, p.scopes[number]? = some scope ∧
    r = (({ p with clock, limits }.live scope pending freshId).setAll offers).snapshot

/-- **What a profiler emits has one origin.** -/
lemma Provider.Emits.origin {p : Provider} {number : Nat} {scope : Scope} {r : Record}
    (hscope : p.scopes[number]? = some scope) (h : p.Emits number r) :
    r.resource = p.resource ∧ r.scope = scope := by
  obtain ⟨_, clock, limits, pending, freshId, offers, hnumber, rfl⟩ := h
  obtain rfl := Option.some.inj (hscope.symm.trans hnumber)
  rw [LiveRecord.snapshot_toEmission, LiveRecord.emission_setAll, live, LiveRecord.emission_setAll]
  exact ⟨rfl, rfl⟩

namespace Otlp

/-! ## One class -/

lemma classes_of_same {α : Type} {same : α → α → Bool} {a : α} {rest : List α}
    (h : ∀ b ∈ rest, same a b = true) : classes same (a :: rest) = [(a, rest)] := by
  have hnone : rest.filter (fun b => !same a b) = [] := by
    rw [List.filter_eq_nil_iff]
    intro b hb
    simp [h b hb]
  rw [classes_cons, List.filter_eq_self.mpr h, hnone, classes_nil]

/-- Records that all have the resource and the scope of the first one are one group. -/
lemma group_of_same {r : Record} {rest : List Record}
    (hresource : ∀ s ∈ rest, r.resource.same s.resource = true)
    (hscope : ∀ s ∈ rest, r.scope.same s.scope = true) :
    group (r :: rest) = [⟨r.resource, [⟨r.scope, r :: rest⟩]⟩] := by
  have hscopes : groupByScope (r :: rest) = [⟨r.scope, r :: rest⟩] := by
    rw [groupByScope, classes_of_same hscope]
    rfl
  rw [group, classes_of_same hresource, ← hscopes]
  rfl

/-- A batch of one origin without NaN is one group. -/
lemma group_of_origin {records : List Record} {resource : Resource} {scope : Scope}
    (hne : records ≠ []) (h : ∀ r ∈ records, r.resource = resource ∧ r.scope = scope)
    (hresource : resource.attributes.hasNaN = false) (hscope : scope.attributes.hasNaN = false) :
    group records = [⟨resource, [⟨scope, records⟩]⟩] := by
  obtain ⟨r, rest, rfl⟩ := List.exists_cons_of_ne_nil hne
  obtain ⟨⟨rfl, rfl⟩, hrest⟩ := List.forall_mem_cons.mp h
  have horigin : ∀ s ∈ rest, SameOrigin r s := by
    intro s hs
    exact ⟨(hrest s hs).1.symm, (hrest s hs).2.symm⟩
  refine group_of_same ?_ ?_
  · intro s hs
    exact (horigin s hs).resource_same_iff.mpr hresource
  · intro s hs
    exact (horigin s hs).scope_same_iff.mpr hscope

/-! ## Sharing a group -/

section Sharing

variable (records : List Record)

/-- The records at two positions are in one resource group. -/
def ShareResource (i j : Fin records.length) : Prop :=
  ∃ parts ∈ layout records, i ∈ parts.flatten ∧ j ∈ parts.flatten

/-- The records at two positions are in one scope group. -/
def ShareScope (i j : Fin records.length) : Prop :=
  ∃ parts ∈ layout records, ∃ positions ∈ parts, i ∈ positions ∧ j ∈ positions

variable {records} {i j : Fin records.length}

lemma shareResource_iff (hne : i ≠ j) (h : SameOrigin (records.get i) (records.get j)) :
    ShareResource records i j ↔ (records.get i).resource.attributes.hasNaN = false := by
  rw [ShareResource, layout_resource_iff hne, sameResource, h.resource_same_iff]

lemma shareScope_iff (hne : i ≠ j) (h : SameOrigin (records.get i) (records.get j)) :
    ShareScope records i j ↔ (records.get i).resource.attributes.hasNaN = false ∧
      (records.get i).scope.attributes.hasNaN = false := by
  rw [ShareScope, layout_scope_iff hne, sameResource, sameScope, h.resource_same_iff,
    h.scope_same_iff]

end Sharing

/-- **Records of the same origin share a group unless NaN is in it.**  The groups of a batch show
its records at the positions of `layout`.  Two positions whose records have the same origin share a
resource group exactly if the resource holds no NaN, and a scope group exactly if the scope holds
none either.  What one profiler emitted is encoded as one entry with one scope if there is no NaN in
its resource or its scope. -/
theorem origin_shares_group (records : List Record) :
    List.Forall₂ (ResourceGroup.Shows records) (group records) (layout records) ∧
      (∀ i j, i ≠ j → SameOrigin (records.get i) (records.get j) →
        (ShareResource records i j ↔
            (records.get i).resource.attributes.hasNaN = false) ∧
          (ShareScope records i j ↔
            (records.get i).resource.attributes.hasNaN = false ∧
              (records.get i).scope.attributes.hasNaN = false)) ∧
      ∀ (p : Provider) (number : Nat) (scope : Scope), p.scopes[number]? = some scope →
        p.resource.attributes.hasNaN = false → scope.attributes.hasNaN = false →
        records ≠ [] → (∀ r ∈ records, p.Emits number r) →
          group records = [⟨p.resource, [⟨scope, records⟩]⟩] ∧
            request records = ⟨[resourceProfiles ⟨p.resource, [⟨scope, records⟩]⟩]⟩ := by
  refine ⟨group_shows, ?_, ?_⟩
  · intro i j hne h
    exact ⟨shareResource_iff hne h, shareScope_iff hne h⟩
  · intro p number scope hnumber hresource hscope hne hemits
    have hgroup := group_of_origin hne (fun r hr => (hemits r hr).origin hnumber) hresource hscope
    exact ⟨hgroup, by rw [request, hgroup, List.map_singleton]⟩

/-- A profiler of a library `x`, in a provider that says where it runs. -/
def hosted : Provider where
  resource := ⟨.ofList [("host", .text "a")], none⟩
  limits := .standard
  clock := {}
  processor := .composite 0 []
  isNoop := false
  scopes := [{ name := "x" }]

/-- What the profiler emits when nothing but an identifier is set. -/
def fromHosted (id : UInt8) : Record :=
  (hosted.live { name := "x" } { profileId := some [id] } []).snapshot

/-- Two records of a profiler with one from elsewhere between them, and on their own. -/
theorem origin_shares_group_hosted :
    (SameOrigin (fromHosted 1) (fromHosted 2) ∧
      ShareScope [fromHosted 1, {}, fromHosted 2] (0 : Fin 3) (2 : Fin 3)) ∧
    (∀ r ∈ [fromHosted 1, fromHosted 2], hosted.Emits 0 r) ∧
      group [fromHosted 1, fromHosted 2] =
        [⟨hosted.resource, [⟨{ name := "x" }, [fromHosted 1, fromHosted 2]⟩]⟩] := by
  have hemits : ∀ id, hosted.Emits 0 (fromHosted id) := by
    intro id
    exact ⟨{ name := "x" }, {}, .standard, { profileId := some [id] }, [], [], rfl, rfl⟩
  have horigin : SameOrigin (fromHosted 1) (fromHosted 2) := ⟨rfl, rfl⟩
  obtain ⟨-, hshares, -⟩ :=
    origin_shares_group [fromHosted 1, {}, fromHosted 2]
  obtain ⟨-, -, hone⟩ := origin_shares_group [fromHosted 1, fromHosted 2]
  refine ⟨⟨horigin, ?_⟩, by simp [hemits], ?_⟩
  · exact (hshares (0 : Fin 3) (2 : Fin 3) (by decide) horigin).2.mpr ⟨by decide, by decide⟩
  · exact (hone hosted 0 { name := "x" } rfl (by decide) (by decide) (by simp)
      (by simp [hemits])).1

/-- A record with an attribute of its resource that could not be measured. -/
def unmeasured : Record where
  resource := ⟨.ofList [("load", .double ⟨0x7ff8000000000000⟩)], none⟩
  scope := { name := "x" }

/-- A record with an attribute of its scope that could not be measured. -/
def unmeasuredScope : Record where
  resource := .empty
  scope := { name := "x", attributes := .ofList [("load", .double ⟨0x7ff8000000000000⟩)] }

/-- **NaN keeps records of the same origin apart**, even a record from itself: by resource, and if
NaN is in the scope only, by scope. -/
theorem group_parts_NaN :
    (SameOrigin unmeasured unmeasured ∧
      ¬ ShareResource [unmeasured, unmeasured] (0 : Fin 2) (1 : Fin 2) ∧
      (group [unmeasured, unmeasured]).map (·.scopes.length) = [1, 1]) ∧
    SameOrigin unmeasuredScope unmeasuredScope ∧
      ¬ ShareScope [unmeasuredScope, unmeasuredScope] (0 : Fin 2) (1 : Fin 2) ∧
      (group [unmeasuredScope, unmeasuredScope]).map (·.scopes.length) = [2] := by
  have hresource : SameOrigin unmeasured unmeasured := ⟨rfl, rfl⟩
  have hscope : SameOrigin unmeasuredScope unmeasuredScope := ⟨rfl, rfl⟩
  have hapart : unmeasured.resource.same unmeasured.resource = false := by decide
  have hapart' : unmeasuredScope.scope.same unmeasuredScope.scope = false := by decide
  have hsame : unmeasuredScope.resource.same unmeasuredScope.resource = true := by decide
  refine ⟨⟨hresource, ?_, ?_⟩, hscope, ?_, ?_⟩
  · have hiff : ShareResource [unmeasured, unmeasured] (0 : Fin 2) (1 : Fin 2) ↔
        unmeasured.resource.attributes.hasNaN = false := shareResource_iff (by decide) hresource
    rw [hiff]
    decide
  · simp [group, groupByScope, classes_cons, hapart]
  · have hiff : ShareScope [unmeasuredScope, unmeasuredScope] (0 : Fin 2) (1 : Fin 2) ↔
        unmeasuredScope.resource.attributes.hasNaN = false ∧
          unmeasuredScope.scope.attributes.hasNaN = false := shareScope_iff (by decide) hscope
    rw [hiff]
    decide
  · simp [group, groupByScope, classes_cons, hapart', hsame]

end Otlp

end ProfilePipeline
