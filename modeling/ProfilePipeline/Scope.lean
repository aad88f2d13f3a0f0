import ProfilePipeline.Attribute.Set

/-!
# Instrumentation scopes

The library that a record comes from.  A version or schema that is absent is not the same as an
empty one.

* `Scope.identity`, `Scope.named` — what profilers are told apart by, and the name of those without.
* `ProfilerRequest.scope` — the scope that a profiler is asked for with.
-/

namespace ProfilePipeline

/-- What produced a record. -/
structure Scope where
  name : String := ""
  version : Option String := none
  schemaUrl : Option String := none
  attributes : Attributes := .empty

namespace Scope

instance : Inhabited Scope := ⟨{}⟩

/-- Equality by value. -/
def same (a b : Scope) : Bool :=
  a.name == b.name && a.version == b.version && a.schemaUrl == b.schemaUrl &&
    a.attributes.same b.attributes

instance : BEq Scope := ⟨same⟩

/-- What tells scopes apart when profilers are handed out: everything but the attributes. -/
structure Identity where
  name : String
  version : Option String
  schemaUrl : Option String
  deriving DecidableEq, Repr

/-- The identity of a scope. -/
def identity (s : Scope) : Identity := ⟨s.name, s.version, s.schemaUrl⟩

/-- The name given to a scope that has none. -/
def unknownName : String := "unknown"

/-- The scope, named if it was not. -/
def named (s : Scope) : Scope := if s.name.isEmpty then { s with name := unknownName } else s

end Scope

/-! ## Asking for a scope -/

/-- What can be said of a scope beside its name while a profiler is being built. -/
inductive ScopeSetting where
  | version (version : String)
  | schemaUrl (url : String)
  deriving DecidableEq, Repr

/-- One setting, which replaces what was set before. -/
def Scope.set (s : Scope) : ScopeSetting → Scope
  | .version version => { s with version := some version }
  | .schemaUrl url => { s with schemaUrl := some url }

/-- How a profiler is asked for. -/
inductive ProfilerRequest where
  /-- With a scope. -/
  | ofScope (scope : Scope)
  /-- With a name, by a builder on which something is set. -/
  | built (name : String) (settings : List ScopeSetting)
  /-- With a name and nothing else. -/
  | ofName (name : String)

/-- **The scope that is asked for.** -/
def ProfilerRequest.scope : ProfilerRequest → Scope
  | ofScope scope => scope
  | built name settings => settings.foldl Scope.set { name }
  | ofName name => { name }

end ProfilePipeline
