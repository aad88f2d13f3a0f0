import ProfilePipeline.Otlp.Group
import ProfilePipeline.Otlp.Message

/-!
# Requests

A batch of records as one request: one entry per group of records, and in it the records in the
order of the batch.

* `container` — one record on the wire.
* `request` — the request for a list of records.
-/

namespace ProfilePipeline.Otlp

/-! ## From records to messages -/

/-- An attribute value on the wire. -/
def anyValue : AttributeValue → AnyValue
  | .text s => .text s
  | .bool b => .bool b
  | .int n => .int n
  | .double x => .double x
  | .texts ss => .array (ss.map .text)
  | .bools bs => .array (bs.map .bool)
  | .ints ns => .array (ns.map .int)
  | .doubles xs => .array (xs.map .double)

/-- A set of attributes on the wire, in insertion order. -/
def keyValues (a : Attributes) : List KeyValue :=
  a.entries.map fun (key, value) => ⟨key, anyValue value⟩

/-- A link on the wire. -/
def link (l : Payload.Link) : Link := .ofIds l.trace.toBytes l.span.toBytes

/-- A payload on the wire.  Tables keep every entry, also empty ones, so that indices stay. -/
def profile (p : Payload) : Profile where
  sampleType := p.sampleTypes
  sample := p.samples
  mapping := p.mappings
  location := p.locations
  function := p.functions
  stringTable := p.stringTable
  dropFrames := p.dropFrames
  keepFrames := p.keepFrames
  timeNanos := p.timeNanos
  durationNanos := p.durationNanos
  periodType := p.periodType
  period := p.period
  comment := p.comments
  defaultSampleType := p.defaultSampleType
  locationIndices := p.locationIndices
  attributeTable := keyValues p.attributeTable
  attributeUnits := p.attributeUnits
  linkTable := p.links.map link

/-- The count of dropped attributes, as far as 32 bits reach. -/
def droppedCount (r : Record) : UInt32 := (min r.dropped 0xffffffff).toUInt32

/-- A record on the wire. -/
def container (r : Record) : Container where
  profileId := r.profileId
  startTimeUnixNano := r.timestamp
  endTimeUnixNano := r.observedTimestamp
  attributes := keyValues r.attributes
  droppedAttributesCount := droppedCount r
  payloadFormat := r.payloadFormat
  payloadBytes := r.payloadBytes
  profile := profile r.payload

/-- A scope group on the wire. -/
def scopeProfiles (g : ScopeGroup) : ScopeProfiles where
  scope :=
    { name := g.scope.name
      version := g.scope.version.getD ""
      attributes := keyValues g.scope.attributes }
  profiles := g.records.map container
  schemaUrl := g.scope.schemaUrl.getD ""

/-- A resource group on the wire. -/
def resourceProfiles (g : ResourceGroup) : ResourceProfiles where
  resource := { attributes := keyValues g.resource.attributes }
  scopeProfiles := g.scopes.map scopeProfiles
  schemaUrl := g.resource.schemaUrl.getD ""

/-- **The request for a batch of records.** -/
def request (records : List Record) : ExportRequest := ⟨(group records).map resourceProfiles⟩

end ProfilePipeline.Otlp
