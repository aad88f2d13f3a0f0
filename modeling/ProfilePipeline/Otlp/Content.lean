import ProfilePipeline.Otlp.Message
import ProfilePipeline.Otlp.Schema

/-!
# What a reader finds in a message

The content of each message, slot by slot in the order of its descriptor.  No field numbers and no
rule about omission appear here: those are in the descriptors and in the canonical encoding, so
that writing a message and encoding its content are two separate accounts of the format.
-/

namespace ProfilePipeline.Otlp

open Wire (Bytes Content Item Scalar Slot)

/-- A message type that a reader knows. -/
class Readable (α : Type) where
  name : MessageName
  content : α → Content

namespace Readable

/-- A singular scalar.  An enumeration member is found as its 32-bit number. -/
def scalar {α : Type} [Scalar α] (x : α) : Slot := [.word (Scalar.word x)]

/-- A list of scalars. -/
def scalars {α : Type} [Scalar α] (xs : List α) : Slot := xs.map fun x => .word (Scalar.word x)

/-- A nested message. -/
def one {α : Type} [Readable α] (m : α) : Slot := [.message (content m)]

/-- A list of nested messages. -/
def many {α : Type} [Readable α] (ms : List α) : Slot := ms.map fun m => .message (content m)

end Readable

open Readable (scalar scalars one many)

instance : Readable Payload.ValueType where
  name := .valueType
  content v := [scalar v.type, scalar v.unit, scalar v.aggregationTemporality.code]

instance : Readable Payload.Label where
  name := .label
  content l := [scalar l.key, scalar l.str, scalar l.num, scalar l.numUnit]

instance : Readable Payload.Sample where
  name := .sample
  content s := [
    scalars s.locationIndex,
    scalars s.values,
    many s.labels,
    scalar s.locationsStartIndex,
    scalar s.locationsLength,
    scalar s.stacktraceIdIndex,
    scalars s.attributes,
    scalar s.link,
    scalars s.timestampsUnixNano]

instance : Readable Payload.Mapping where
  name := .mapping
  content m := [
    scalar m.id,
    scalar m.memoryStart,
    scalar m.memoryLimit,
    scalar m.fileOffset,
    scalar m.filename,
    scalar m.buildId,
    scalar m.hasFunctions,
    scalar m.hasFilenames,
    scalar m.hasLineNumbers,
    scalar m.hasInlineFrames,
    scalar m.buildIdKind.code,
    scalars m.attributes]

instance : Readable Payload.Line where
  name := .line
  content l := [scalar l.functionIndex, scalar l.line, scalar l.column]

instance : Readable Payload.Location where
  name := .location
  content l := [
    scalar l.id,
    scalar l.mappingIndex,
    scalar l.address,
    many l.lines,
    scalar l.isFolded,
    scalar l.typeIndex,
    scalars l.attributes]

instance : Readable Payload.Function where
  name := .function
  content f := [
    scalar f.id, scalar f.name, scalar f.systemName, scalar f.filename, scalar f.startLine]

instance : Readable Payload.AttributeUnit where
  name := .attributeUnit
  content u := [scalar u.attributeKey, scalar u.unit]

instance : Readable Link where
  name := .link
  content l := [[.bytes l.traceId], [.bytes l.spanId]]

mutual

/-- One slot per member of the choice; only the member that is set has an item. -/
def AnyValue.content : AnyValue → Content
  | .text s => [[.text s], [], [], [], [], []]
  | .bool b => [[], scalar b, [], [], [], []]
  | .int n => [[], [], scalar n, [], [], []]
  | .double x => [[], [], [], [.fixed64 x.bits], [], []]
  | .array values => [[], [], [], [], [.message [AnyValue.contents values]], []]
  | .bytes b => [[], [], [], [], [], [.bytes b]]

/-- The elements of a list of attribute values. -/
def AnyValue.contents : List AnyValue → Slot
  | [] => []
  | value :: values => .message value.content :: AnyValue.contents values

end

instance : Readable AnyValue := ⟨.anyValue, AnyValue.content⟩

instance : Readable ArrayValue where
  name := .arrayValue
  content a := [AnyValue.contents a.values]

instance : Readable KeyValue where
  name := .keyValue
  content a := [[.text a.key], one a.value]

instance : Readable Profile where
  name := .profile
  content p := [
    many p.sampleType,
    many p.sample,
    many p.mapping,
    many p.location,
    many p.function,
    p.stringTable.map .text,
    scalar p.dropFrames,
    scalar p.keepFrames,
    scalar p.timeNanos,
    scalar p.durationNanos,
    many p.periodType.toList,
    scalar p.period,
    scalars p.comment,
    scalar p.defaultSampleType,
    scalars p.locationIndices,
    many p.attributeTable,
    many p.attributeUnits,
    many p.linkTable]

instance : Readable ResourceInfo where
  name := .resource
  content r := [many r.attributes, scalar r.droppedAttributesCount]

instance : Readable ScopeInfo where
  name := .scope
  content s := [
    [.text s.name], [.text s.version], many s.attributes, scalar s.droppedAttributesCount]

instance : Readable Container where
  name := .container
  content c := [
    [.bytes c.profileId],
    [.fixed64 c.startTimeUnixNano],
    [.fixed64 c.endTimeUnixNano],
    many c.attributes,
    scalar c.droppedAttributesCount,
    [.text c.payloadFormat],
    [.bytes c.payloadBytes],
    one c.profile]

instance : Readable ScopeProfiles where
  name := .scopeProfiles
  content s := [one s.scope, many s.profiles, [.text s.schemaUrl]]

instance : Readable ResourceProfiles where
  name := .resourceProfiles
  content r := [one r.resource, many r.scopeProfiles, [.text r.schemaUrl]]

instance : Readable ExportRequest where
  name := .request
  content r := [many r.resourceProfiles]

end ProfilePipeline.Otlp
