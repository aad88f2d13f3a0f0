import ProfilePipeline.Document.Basic
import ProfilePipeline.Pending

/-!
# Documents of records

How attributes, resources, scopes, spans, limits, payloads and records are described and shown.  A
member that is missing is what the corresponding field is by default.
-/

namespace ProfilePipeline

open Document (list object choice hex abridgedBytes abridgedText)

/-! ## Attributes -/

/-- A value is an object with one member, whose key tells the kind. -/
instance : FromDocument AttributeValue where
  of
    | .object [(kind, v)] =>
      match kind with
      | "s" | "string" => .text <$> v.as
      | "b" => .bool <$> v.as
      | "i" | "i32" => .int <$> v.as
      | "d" => .double <$> v.as
      | "sa" | "stringa" => .texts <$> v.as
      | "ba" => .bools <$> v.as
      | "ia" => .ints <$> v.as
      | "da" => .doubles <$> v.as
      | _ => throw "kind of value expected"
    | _ => throw "attribute value expected"

instance : ToDocument AttributeValue where
  doc
    | .text s => object [("s", abridgedText s)]
    | .bool b => object [("b", doc b)]
    | .int n => object [("i", doc n)]
    | .double x => object [("d", doc x)]
    | .texts ss => object [("sa", list (ss.map abridgedText))]
    | .bools bs => object [("ba", doc bs)]
    | .ints ns => object [("ia", doc ns)]
    | .doubles xs => object [("da", doc xs)]

instance : FromDocument Attributes := ⟨fun d => .ofList <$> d.as⟩

instance : ToDocument Attributes :=
  ⟨fun a => doc (a.entries.map fun (key, value) => (abridgedText key, value))⟩

/-! ## What surrounds a profile -/

/-- Nothing stands for the standard resource; of an object, so does the member `default`. -/
instance : FromDocument Resource where
  of d := do
    if let .null := d then return .standard
    let base ← match d.member "attributes" with
      | .null => pure (if ← d.holds "default" then Resource.standard.attributes else .empty)
      | a => a.as
    return ⟨base, ← d.get "schema_url"⟩

instance : ToDocument Resource :=
  ⟨fun r => object [("attributes", doc r.attributes), ("schema_url", doc r.schemaUrl)]⟩

instance : FromDocument Scope where
  of d := return ⟨← d.get "name", ← d.get "version", ← d.get "schema_url", ← d.get "attributes"⟩

instance : ToDocument Scope where
  doc s := object [("name", doc s.name), ("version", doc s.version),
    ("schema_url", doc s.schemaUrl), ("attributes", doc s.attributes)]

instance : FromDocument SpanContext where
  of d := return ⟨.ofBytes (← d.get "trace"), .ofBytes (← d.get "span")⟩

instance : ToDocument SpanContext where
  doc c := object [("trace", doc c.trace.render), ("span", doc c.span.render),
    ("valid", doc c.isValid)]

instance : FromDocument Context := ⟨fun d => return ⟨← d.as⟩⟩

instance : FromDocument (Except ConfigError Limits) where
  of d := return Limits.build (← d.get "max_attributes") (← d.get "max_length")

instance : FromDocument Duration where
  of d := do
    let nanos : UInt32 ← d.get "nanos"
    return ⟨← d.get "secs", nanos.toNat⟩

/-! ## Payloads -/

namespace Payload

instance : FromDocument AggregationTemporality where
  of := choice [("", .unspecified), ("unspecified", .unspecified), ("delta", .delta),
    ("cumulative", .cumulative)]

instance : FromDocument BuildIdKind where
  of := choice [("", .linker), ("linker", .linker), ("binary_hash", .binaryHash)]

instance : FromDocument ValueType where
  of d := return ⟨← d.get "type", ← d.get "unit", ← d.get "aggregation_temporality"⟩

instance : FromDocument Label where
  of d := return ⟨← d.get "key", ← d.get "str", ← d.get "num", ← d.get "num_unit"⟩

instance : FromDocument Sample where
  of d := return {
    locationIndex := ← d.get "location_index"
    locationsStartIndex := ← d.get "locations_start_index"
    locationsLength := ← d.get "locations_length"
    stacktraceIdIndex := ← d.get "stacktrace_id_index"
    values := ← (d.either "values" "value").as
    labels := ← (d.either "labels" "label").as
    attributes := ← d.get "attributes"
    link := ← d.get "link"
    timestampsUnixNano := ← d.get "timestamps_unix_nano" }

instance : FromDocument Mapping where
  of d := return {
    id := ← d.get "id"
    memoryStart := ← d.get "memory_start"
    memoryLimit := ← d.get "memory_limit"
    fileOffset := ← d.get "file_offset"
    filename := ← d.get "filename"
    buildId := ← d.get "build_id"
    buildIdKind := ← d.get "build_id_kind"
    attributes := ← d.get "attributes"
    hasFunctions := ← d.get "has_functions"
    hasFilenames := ← d.get "has_filenames"
    hasLineNumbers := ← d.get "has_line_numbers"
    hasInlineFrames := ← d.get "has_inline_frames" }

instance : FromDocument Line where
  of d := return ⟨← d.get "function_index", ← d.get "line", ← d.get "column"⟩

instance : FromDocument Location where
  of d := return {
    id := ← d.get "id"
    mappingIndex := ← d.get "mapping_index"
    address := ← d.get "address"
    lines := ← (d.either "lines" "line").as
    isFolded := ← d.get "is_folded"
    typeIndex := ← d.get "type_index"
    attributes := ← d.get "attributes" }

instance : FromDocument Function where
  of d := return {
    id := ← d.get "id"
    name := ← d.get "name"
    systemName := ← d.get "system_name"
    filename := ← d.get "filename"
    startLine := ← d.get "start_line" }

instance : FromDocument AttributeUnit where
  of d := return ⟨← d.get "attribute_key", ← d.get "unit"⟩

instance : FromDocument Link where
  of d := return ⟨.ofBytes (← d.get "trace_id"), .ofBytes (← d.get "span_id")⟩

end Payload

instance : FromDocument Payload where
  of d := return {
    sampleTypes := ← d.get "sample_types"
    samples := ← d.get "samples"
    mappings := ← d.get "mappings"
    locations := ← d.get "locations"
    locationIndices := ← d.get "location_indices"
    functions := ← d.get "functions"
    attributeTable := ← d.get "attribute_table"
    attributeUnits := ← d.get "attribute_units"
    links := ← d.get "links"
    stringTable := ← d.get "string_table"
    dropFrames := ← d.get "drop_frames"
    keepFrames := ← d.get "keep_frames"
    timeNanos := ← d.get "time_nanos"
    durationNanos := ← d.get "duration_nanos"
    periodType := ← d.get "period_type"
    period := ← d.get "period"
    comments := ← d.get "comments"
    defaultSampleType := ← d.get "default_sample_type" }

/-- A payload is shown in brief: its texts, and the values of its samples. -/
instance : ToDocument Payload where
  doc p := object [("strings", doc p.stringTable),
    ("samples", doc p.samples.length), ("values", doc (p.samples.map (·.values)))]

/-! ## Records -/

instance : FromDocument Record where
  of d := return {
    resource := ← d.get "resource"
    scope := ← d.get "scope"
    profileId := ← d.get "profile_id"
    timestamp := ← d.get "timestamp"
    observedTimestamp := ← d.get "observed"
    span := ← d.get "span"
    attributes := ← d.get "attributes"
    totalAttributes := ← d.get "total"
    payloadFormat := ← d.get "format"
    payloadBytes := ← d.get "payload"
    payload := ← d.get "profile" }

namespace Record

/-- The attributes of a record, and how many there were to be. -/
def brief (r : Record) : List (String × Document) :=
  [("attributes", doc r.attributes), ("total", doc r.totalAttributes)]

/-- All of a record; `showId` shows its identifier. -/
def full (showId : List UInt8 → Document) (r : Record) : Document :=
  object (r.brief ++ [("resource", doc r.resource), ("scope", doc r.scope),
    ("profile_id", showId r.profileId), ("timestamp", doc r.timestamp),
    ("observed", doc r.observedTimestamp), ("span", doc r.span), ("dropped", doc r.dropped),
    ("format", doc r.payloadFormat), ("payload", abridgedBytes r.payloadBytes),
    ("profile", doc r.payload)])

end Record

/-! ## Profiles before they are emitted -/

/-- The moment at a distance from the epoch, which the second part of a list may put before it. -/
def Document.moment (d : Document) : Reading Moment := do
  let nanos : UInt32 ← d.part 2
  let distance : Duration := ⟨← d.part 1, nanos.toNat⟩
  return if (← d.part 3) == "before" then .before distance else .after distance

/-- A call is a list of its name and what it is given. -/
instance : FromDocument BuilderCall where
  of d := do
    match (← d.part 0 : String) with
    | "id" => return .set (.profileId (← d.part 1))
    | "timestamp" => return .set (.timestamp (← d.part 1))
    | "observed" => return .set (.observed (← d.part 1))
    | "timestamp_at" => return .set (.timestampAt (← d.moment))
    | "observed_at" => return .set (.observedAt (← d.moment))
    | "context" => return .set (.context (← d.part 1))
    | "attr" => return .set (.attributes [(← d.part 1, ← d.part 2)])
    | "attrs" => return .set (.attributes (← d.part 1))
    | "payload" => return .set (.payloadBytes (← d.part 1) (← d.part 2))
    | "profile" => return .set (.payload (← d.part 1))
    | "emit" => return .emit
    | _ => throw "builder call expected"

instance : ToDocument Pending where
  doc p := object [("profile_id", doc (p.profileId.map hex)), ("timestamp", doc p.timestamp),
    ("observed", doc p.observed), ("span", doc (p.context.map Context.span)),
    ("attributes", doc p.attributes), ("format", doc p.payloadFormat),
    ("payload", abridgedBytes p.payloadBytes), ("profile", doc p.payload)]

end ProfilePipeline
