import ProfilePipeline.Record

/-!
# Records by origin

The records of a batch are grouped by resource and then by scope, both by value and in the order
in which they are first seen.  The first record of a group lends it its resource and scope.

* `classes` — a list taken apart by a relation: every class is headed by the first element that
  belongs to no class before it, and keeps the order of the list.
* `group` — the groups of a list of records.
-/

namespace ProfilePipeline.Otlp

/-- The classes of a list, each as its first element and the later ones that are the same as it.
An element that is not even the same as itself heads a class of its own. -/
def classes {α : Type} (same : α → α → Bool) : List α → List (α × List α)
  | [] => []
  | a :: rest => (a, rest.filter (same a)) :: classes same (rest.filter fun b => !same a b)
termination_by list => list.length
decreasing_by
  simpa [Nat.lt_succ_iff] using List.length_filter_le (fun b => !same a b.1) rest.attach

/-- The records of one scope within a resource. -/
structure ScopeGroup where
  scope : Scope
  records : List Record

/-- The records of one resource. -/
structure ResourceGroup where
  resource : Resource
  scopes : List ScopeGroup

/-- The records of one resource by their scopes. -/
def groupByScope (records : List Record) : List ScopeGroup :=
  (classes (fun r s => r.scope.same s.scope) records).map fun (first, rest) =>
    ⟨first.scope, first :: rest⟩

/-- **The groups of a list of records.** -/
def group (records : List Record) : List ResourceGroup :=
  (classes (fun r s => r.resource.same s.resource) records).map fun (first, rest) =>
    ⟨first.resource, groupByScope (first :: rest)⟩

end ProfilePipeline.Otlp
