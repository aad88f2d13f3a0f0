import ProfilePipeline.Attribute.Bounded
import ProfilePipeline.Payload.Basic
import ProfilePipeline.Resource
import ProfilePipeline.Scope

/-!
# Records

A record is an emitted profile with everything needed to export it.  It is a snapshot and never
changes.  While it is processed it is a `LiveRecord`, to which attributes may be added within the
limits it was created with.

* `Record.dropped` — how many attributes were set but are not there.
* `LiveRecord.ofRecord` — wraps a snapshot again, applying limits to its attributes once more.
* `LiveRecord.snapshot` — the record at this moment.
-/

namespace ProfilePipeline

/-- The part of a record that is fixed when it is emitted. -/
structure Emission where
  resource : Resource := .standard
  scope : Scope := {}
  profileId : List UInt8 := []
  /-- Nanoseconds since the epoch. -/
  timestamp : UInt64 := 0
  observedTimestamp : UInt64 := 0
  span : SpanContext := {}
  payloadFormat : String := ""
  payloadBytes : List UInt8 := []
  payload : Payload := {}

instance : Inhabited Emission := ⟨{}⟩

/-- An emitted profile. -/
structure Record extends Emission where
  attributes : Attributes := .empty
  /-- Every attribute that was set, also those that limits kept out. -/
  totalAttributes : Nat := 0

namespace Record

instance : Inhabited Record := ⟨{}⟩

/-- The number of attributes that were set but are not there. -/
def dropped (r : Record) : Nat := r.totalAttributes - r.attributes.size

/-- Equality by value. -/
def same (a b : Record) : Bool :=
  a.resource.same b.resource && a.scope.same b.scope && a.profileId == b.profileId &&
    a.timestamp == b.timestamp && a.observedTimestamp == b.observedTimestamp &&
    a.span == b.span && a.attributes.same b.attributes &&
    a.totalAttributes == b.totalAttributes && a.payloadFormat == b.payloadFormat &&
    a.payloadBytes == b.payloadBytes && a.payload.same b.payload

instance : BEq Record := ⟨same⟩

end Record

/-- A record while it is processed.  Its attributes come into being with the first one set. -/
structure LiveRecord where
  emission : Emission
  limits : Limits
  attributes : Option BoundedAttributes := none

namespace LiveRecord

/-- Sets an attribute, within the limits.  An empty key is ignored. -/
def setAttribute (r : LiveRecord) (key : String) (value : AttributeValue) : LiveRecord :=
  if key.isEmpty then r
  else
    { r with attributes := some ((r.attributes.getD (.ofLimits r.limits)).put key value) }

/-- Sets attributes in order. -/
def setAll (r : LiveRecord) (pairs : List (String × AttributeValue)) : LiveRecord :=
  pairs.foldl (fun r (key, value) => r.setAttribute key value) r

/-- A live record without attributes. -/
def fresh (emission : Emission) (limits : Limits) : LiveRecord := { emission, limits }

/-- Wraps a snapshot again.  Its attributes are set anew, so the limits apply to them once more and
the count starts over. -/
def ofRecord (r : Record) (limits : Limits) : LiveRecord :=
  (fresh r.toEmission limits).setAll r.attributes.entries

/-- The value of an attribute. -/
def getAttribute? (r : LiveRecord) (key : String) : Option AttributeValue :=
  r.attributes.bind (·.get? key)

/-- The record at this moment. -/
def snapshot (r : LiveRecord) : Record :=
  match r.attributes with
  | some m => { r.emission with attributes := m.attributes, totalAttributes := m.totalAdded }
  | none => { r.emission with attributes := .empty, totalAttributes := 0 }

end LiveRecord

end ProfilePipeline
