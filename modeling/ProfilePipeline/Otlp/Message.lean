import ProfilePipeline.Payload.Basic
import ProfilePipeline.Wire.Typed

/-!
# The messages of the format

Each message type lists its fields once, in the order of their numbers; measuring and writing both
follow that list.  The entities of a payload are messages as they are.  What the format adds is the
tree of attribute values, and the envelopes from a profile up to a whole request.
-/

namespace ProfilePipeline.Otlp

open Wire (Bytes Value Field Message)
open Wire.Field (omitting present)
open Wire.Message (repeated)

/-! ## Entities of a payload -/

instance : Message Payload.ValueType where
  fields v := [
    omitting 1 (.scalar v.type),
    omitting 2 (.scalar v.unit),
    omitting 3 (.scalar v.aggregationTemporality)]

instance : Message Payload.Label where
  fields l := [
    omitting 1 (.scalar l.key),
    omitting 2 (.scalar l.str),
    omitting 3 (.scalar l.num),
    omitting 4 (.scalar l.numUnit)]

instance : Message Payload.Sample where
  fields s :=
    [omitting 1 (.scalars s.locationIndex), omitting 2 (.scalars s.values)] ++
    repeated 3 s.labels ++
    [omitting 7 (.scalar s.locationsStartIndex),
      omitting 8 (.scalar s.locationsLength),
      omitting 9 (.scalar s.stacktraceIdIndex),
      omitting 10 (.scalars s.attributes),
      omitting 12 (.scalar s.link),
      omitting 13 (.scalars s.timestampsUnixNano)]

instance : Message Payload.Mapping where
  fields m := [
    omitting 1 (.scalar m.id),
    omitting 2 (.scalar m.memoryStart),
    omitting 3 (.scalar m.memoryLimit),
    omitting 4 (.scalar m.fileOffset),
    omitting 5 (.scalar m.filename),
    omitting 6 (.scalar m.buildId),
    omitting 7 (.scalar m.hasFunctions),
    omitting 8 (.scalar m.hasFilenames),
    omitting 9 (.scalar m.hasLineNumbers),
    omitting 10 (.scalar m.hasInlineFrames),
    omitting 11 (.scalar m.buildIdKind),
    omitting 12 (.scalars m.attributes)]

instance : Message Payload.Line where
  fields l := [
    omitting 1 (.scalar l.functionIndex),
    omitting 2 (.scalar l.line),
    omitting 3 (.scalar l.column)]

instance : Message Payload.Location where
  fields l :=
    [omitting 1 (.scalar l.id),
      omitting 2 (.scalar l.mappingIndex),
      omitting 3 (.scalar l.address)] ++
    repeated 4 l.lines ++
    [omitting 5 (.scalar l.isFolded),
      omitting 6 (.scalar l.typeIndex),
      omitting 7 (.scalars l.attributes)]

instance : Message Payload.Function where
  fields f := [
    omitting 1 (.scalar f.id),
    omitting 2 (.scalar f.name),
    omitting 3 (.scalar f.systemName),
    omitting 4 (.scalar f.filename),
    omitting 5 (.scalar f.startLine)]

instance : Message Payload.AttributeUnit where
  fields u := [omitting 1 (.scalar u.attributeKey), omitting 2 (.scalar u.unit)]

/-- A span that samples refer to, by the bytes of its identifiers; absent ones are empty. -/
structure Link where
  traceId : Bytes := []
  spanId : Bytes := []
  deriving DecidableEq, Repr, Inhabited

namespace Link

/-- The bytes of an identifier, none if it is zero. -/
def nonZero (id : Bytes) : Bytes := if id.all (· == 0) then [] else id

/-- The link to a span. -/
def ofIds (traceId spanId : Bytes) : Link := ⟨nonZero traceId, nonZero spanId⟩

end Link

instance : Message Link where
  fields l := [omitting 1 (.bytes l.traceId), omitting 2 (.bytes l.spanId)]

/-! ## Attribute values -/

/-- The value of an attribute on the wire.  Lists nest without a bound. -/
inductive AnyValue where
  | text (s : String)
  | bool (b : Bool)
  | int (n : Int64)
  | double (x : Double)
  | array (values : List AnyValue)
  | bytes (b : Bytes)
  deriving Inhabited

mutual

/-- The fields of an attribute value: the one member of the choice that is set. -/
def AnyValue.fields : AnyValue → List Field
  | .text s => [present 1 (.text s)]
  | .bool b => [present 2 (.scalar b)]
  | .int n => [present 3 (.scalar n)]
  | .double x => [present 4 (.fixed64 x.bits)]
  | .array values => [present 5 (.message (AnyValue.elements values))]
  | .bytes b => [present 7 (.bytes b)]

/-- The fields of a list of attribute values: one per element. -/
def AnyValue.elements : List AnyValue → List Field
  | [] => []
  | value :: values => present 1 (.message value.fields) :: AnyValue.elements values

end

instance : Message AnyValue := ⟨AnyValue.fields⟩

/-- A list of attribute values as a message of its own. -/
structure ArrayValue where
  values : List AnyValue := []

instance : Message ArrayValue where
  fields a := AnyValue.elements a.values

/-- An attribute on the wire. -/
structure KeyValue where
  key : String
  value : AnyValue

instance : Message KeyValue where
  fields a := [omitting 1 (.text a.key), present 2 (Message.value a.value)]

/-! ## Envelopes -/

/-- A profile on the wire. -/
structure Profile where
  sampleType : List Payload.ValueType := []
  sample : List Payload.Sample := []
  mapping : List Payload.Mapping := []
  location : List Payload.Location := []
  function : List Payload.Function := []
  stringTable : List String := []
  dropFrames : Int64 := 0
  keepFrames : Int64 := 0
  timeNanos : Int64 := 0
  durationNanos : Int64 := 0
  periodType : Option Payload.ValueType := none
  period : Int64 := 0
  comment : List Int64 := []
  defaultSampleType : Int64 := 0
  locationIndices : List Int64 := []
  attributeTable : List KeyValue := []
  attributeUnits : List Payload.AttributeUnit := []
  linkTable : List Link := []

instance : Message Profile where
  fields p :=
    repeated 1 p.sampleType ++
    repeated 2 p.sample ++
    repeated 3 p.mapping ++
    repeated 4 p.location ++
    repeated 5 p.function ++
    p.stringTable.map (fun s => present 6 (.text s)) ++
    [omitting 7 (.scalar p.dropFrames),
      omitting 8 (.scalar p.keepFrames),
      omitting 9 (.scalar p.timeNanos),
      omitting 10 (.scalar p.durationNanos)] ++
    repeated 11 p.periodType.toList ++
    [omitting 12 (.scalar p.period),
      omitting 13 (.scalars p.comment),
      omitting 14 (.scalar p.defaultSampleType),
      omitting 15 (.scalars p.locationIndices)] ++
    repeated 16 p.attributeTable ++
    repeated 17 p.attributeUnits ++
    repeated 18 p.linkTable

/-- A resource on the wire. -/
structure ResourceInfo where
  attributes : List KeyValue := []
  droppedAttributesCount : UInt32 := 0

instance : Message ResourceInfo where
  fields r := repeated 1 r.attributes ++ [omitting 2 (.scalar r.droppedAttributesCount)]

/-- An instrumentation scope on the wire. -/
structure ScopeInfo where
  name : String := ""
  version : String := ""
  attributes : List KeyValue := []
  droppedAttributesCount : UInt32 := 0

instance : Message ScopeInfo where
  fields s :=
    [omitting 1 (.text s.name), omitting 2 (.text s.version)] ++
    repeated 3 s.attributes ++
    [omitting 4 (.scalar s.droppedAttributesCount)]

/-- A profile with what is known about it as a whole. -/
structure Container where
  profileId : Bytes := []
  startTimeUnixNano : UInt64 := 0
  endTimeUnixNano : UInt64 := 0
  attributes : List KeyValue := []
  droppedAttributesCount : UInt32 := 0
  payloadFormat : String := ""
  payloadBytes : Bytes := []
  profile : Profile := {}

instance : Message Container where
  fields c :=
    [omitting 1 (.bytes c.profileId),
      omitting 2 (.fixed64 c.startTimeUnixNano),
      omitting 3 (.fixed64 c.endTimeUnixNano)] ++
    repeated 4 c.attributes ++
    [omitting 5 (.scalar c.droppedAttributesCount),
      omitting 6 (.text c.payloadFormat),
      omitting 7 (.bytes c.payloadBytes),
      present 8 (Message.value c.profile)]

/-- The profiles of one scope. -/
structure ScopeProfiles where
  scope : ScopeInfo := {}
  profiles : List Container := []
  schemaUrl : String := ""

instance : Message ScopeProfiles where
  fields s :=
    [present 1 (Message.value s.scope)] ++ repeated 2 s.profiles ++
    [omitting 3 (.text s.schemaUrl)]

/-- The profiles of one resource. -/
structure ResourceProfiles where
  resource : ResourceInfo := {}
  scopeProfiles : List ScopeProfiles := []
  schemaUrl : String := ""

instance : Message ResourceProfiles where
  fields r :=
    [present 1 (Message.value r.resource)] ++ repeated 2 r.scopeProfiles ++
    [omitting 3 (.text r.schemaUrl)]

/-- A request to take profiles. -/
structure ExportRequest where
  resourceProfiles : List ResourceProfiles := []

instance : Message ExportRequest where
  fields r := repeated 1 r.resourceProfiles

end ProfilePipeline.Otlp
