import ProfilePipeline.Attribute.Set

/-!
# Resources

The entity that produces telemetry, described by attributes and the address of the schema they
follow.  Resources compare by value, so that records with equal resources share a group on the
wire.

* `Resource.merge` — the attributes of both, the second one winning.
* `Resource.standard` — the description of this library, used when nothing else is set.
-/

namespace ProfilePipeline

/-- What telemetry is about. -/
structure Resource where
  attributes : Attributes
  schemaUrl : Option String := none

namespace Resource

/-- The resource that says nothing. -/
def empty : Resource := ⟨.empty, none⟩

/-- The library's description of itself under a service without a name. -/
def standard : Resource :=
  { attributes := .ofList [
      ("service.name", .text "unknown_service"),
      ("telemetry.sdk.name", .text "profiles-sdk"),
      ("telemetry.sdk.language", .text "rust"),
      ("telemetry.sdk.version", .text "0.1.0")] }

instance : Inhabited Resource := ⟨standard⟩

/-- Attributes of both, `other` winning on a common key and on the schema if it names one. -/
def merge (self other : Resource) : Resource :=
  ⟨self.attributes.extend other.attributes, other.schemaUrl.or self.schemaUrl⟩

/-- The value of an attribute. -/
def get? (self : Resource) (key : String) : Option AttributeValue := self.attributes.get? key

/-- Equality by value. -/
def same (a b : Resource) : Bool := a.attributes.same b.attributes && a.schemaUrl == b.schemaUrl

instance : BEq Resource := ⟨same⟩

end Resource

end ProfilePipeline
