import ProfilePipeline.Attribute.Set
import ProfilePipeline.Payload.Kinds
import ProfilePipeline.Span

/-!
# Payloads

The content of a profile: tables of entities that refer to each other and to a string table by
index.  Index 0 of every table stands for the default entry and is good even when the table is
empty.
-/

namespace ProfilePipeline

namespace Payload

/-- The type and unit of a sample value, as string indices. -/
structure ValueType where
  type : Int64 := 0
  unit : Int64 := 0
  aggregationTemporality : AggregationTemporality := .unspecified
  deriving DecidableEq, Repr, Inhabited

/-- A key with a text or a number, and the unit of the number. -/
structure Label where
  key : Int64 := 0
  str : Int64 := 0
  num : Int64 := 0
  numUnit : Int64 := 0
  deriving DecidableEq, Repr, Inhabited

/-- One observed call stack with its values. -/
structure Sample where
  locationIndex : List UInt64 := []
  locationsStartIndex : UInt64 := 0
  locationsLength : UInt64 := 0
  stacktraceIdIndex : UInt32 := 0
  values : List Int64 := []
  labels : List Label := []
  attributes : List UInt64 := []
  link : UInt64 := 0
  timestampsUnixNano : List UInt64 := []
  deriving DecidableEq, Repr, Inhabited

/-- A binary mapped into the address space. -/
structure Mapping where
  id : UInt64 := 0
  memoryStart : UInt64 := 0
  memoryLimit : UInt64 := 0
  fileOffset : UInt64 := 0
  filename : Int64 := 0
  buildId : Int64 := 0
  buildIdKind : BuildIdKind := .linker
  attributes : List UInt64 := []
  hasFunctions : Bool := false
  hasFilenames : Bool := false
  hasLineNumbers : Bool := false
  hasInlineFrames : Bool := false
  deriving DecidableEq, Repr, Inhabited

/-- A source line of a function. -/
structure Line where
  functionIndex : UInt64 := 0
  line : Int64 := 0
  column : Int64 := 0
  deriving DecidableEq, Repr, Inhabited

/-- An instruction address; functions inlined there come first in `lines`, the caller last. -/
structure Location where
  id : UInt64 := 0
  mappingIndex : UInt64 := 0
  address : UInt64 := 0
  lines : List Line := []
  isFolded : Bool := false
  typeIndex : UInt32 := 0
  attributes : List UInt64 := []
  deriving DecidableEq, Repr, Inhabited

/-- A function, named by string indices. -/
structure Function where
  id : UInt64 := 0
  name : Int64 := 0
  systemName : Int64 := 0
  filename : Int64 := 0
  startLine : Int64 := 0
  deriving DecidableEq, Repr, Inhabited

/-- The unit of the attributes with a key. -/
structure AttributeUnit where
  attributeKey : Int64 := 0
  unit : Int64 := 0
  deriving DecidableEq, Repr, Inhabited

/-- A span that samples can refer to. -/
structure Link where
  trace : TraceId := {}
  span : SpanId := {}
  deriving DecidableEq, Repr, Inhabited

end Payload

/-- The profile of a record. -/
structure Payload where
  sampleTypes : List Payload.ValueType := []
  samples : List Payload.Sample := []
  mappings : List Payload.Mapping := []
  locations : List Payload.Location := []
  locationIndices : List Int64 := []
  functions : List Payload.Function := []
  attributeTable : Attributes := .empty
  attributeUnits : List Payload.AttributeUnit := []
  links : List Payload.Link := []
  stringTable : List String := []
  dropFrames : Int64 := 0
  keepFrames : Int64 := 0
  timeNanos : Int64 := 0
  durationNanos : Int64 := 0
  periodType : Option Payload.ValueType := none
  period : Int64 := 0
  comments : List Int64 := []
  defaultSampleType : Int64 := 0

namespace Payload

instance : Inhabited Payload := ⟨{}⟩

/-- Equality by value; the attribute table compares as a set. -/
def same (a b : Payload) : Bool :=
  a.sampleTypes == b.sampleTypes && a.samples == b.samples && a.mappings == b.mappings &&
    a.locations == b.locations && a.locationIndices == b.locationIndices &&
    a.functions == b.functions && a.attributeTable.same b.attributeTable &&
    a.attributeUnits == b.attributeUnits && a.links == b.links &&
    a.stringTable == b.stringTable && a.dropFrames == b.dropFrames &&
    a.keepFrames == b.keepFrames && a.timeNanos == b.timeNanos &&
    a.durationNanos == b.durationNanos && a.periodType == b.periodType &&
    a.period == b.period && a.comments == b.comments &&
    a.defaultSampleType == b.defaultSampleType

instance : BEq Payload := ⟨same⟩

end Payload

end ProfilePipeline
