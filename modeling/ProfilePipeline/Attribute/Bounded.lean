import ProfilePipeline.Attribute.Set
import ProfilePipeline.Limits

/-!
# Bounded attribute sets

A set that holds at most `capacity` attributes.  Once full it refuses new keys but still takes new
values for the keys it has.  Texts are cut on the way in, and every key that is not empty counts,
kept or not.
-/

namespace ProfilePipeline

/-- A set of attributes with bounds, and how often something was put into it. -/
structure BoundedAttributes where
  attributes : Attributes := .empty
  capacity : Nat
  lengthLimit : Nat
  totalAdded : Nat := 0

namespace BoundedAttributes

/-- The empty set with the bounds of `limits`. -/
def ofLimits (limits : Limits) : BoundedAttributes :=
  { capacity := limits.maxAttributes, lengthLimit := limits.maxValueLength }

/-- Offers a value for a key.  An empty key is ignored. -/
def put (m : BoundedAttributes) (key : String) (value : AttributeValue) : BoundedAttributes :=
  if key.isEmpty then m
  else
    let m := { m with totalAdded := m.totalAdded + 1 }
    if m.capacity ≤ m.attributes.size && !m.attributes.contains key then m
    else { m with attributes := m.attributes.insert key (value.truncated m.lengthLimit) }

/-- The value of a key. -/
def get? (m : BoundedAttributes) (key : String) : Option AttributeValue := m.attributes.get? key

/-- The number of attributes held. -/
def size (m : BoundedAttributes) : Nat := m.attributes.size

/-- Whether no attribute is held. -/
def isEmpty (m : BoundedAttributes) : Bool := m.attributes.isEmpty

end BoundedAttributes

end ProfilePipeline
