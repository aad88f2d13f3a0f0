import ProfilePipeline.Document.Record
import ProfilePipeline.Otlp.Content

/-!
# Documents of messages

How the messages of the format are described, and how their content is shown: by the names that
their descriptors give to the fields.

* `Otlp.showContent` — the content of a message, field by field.  A value is shown by the member of
  its choice that is set.
-/

namespace ProfilePipeline.Otlp

open Document (object list null choice hex)
open Wire (Content FieldSpec FieldType Item Slot)

/-! ## Descriptions -/

/-- A value is an object with one member, whose key tells the kind; `nest` puts a value into a
number of lists with one element each. -/
def readValue : Document → Reading AnyValue
  | .object [("a", .null)] => return .array []
  | .object [("a", .list ds)] => return .array (← ds.attach.mapM fun ⟨d, _⟩ => readValue d)
  | .object [("nest", .list [n, d])] => do
    return (← n.as : Nat).repeat (fun v => .array [v]) (← readValue d)
  | .object [("s", d)] => .text <$> d.as
  | .object [("b", d)] => .bool <$> d.as
  | .object [("i", d)] => .int <$> d.as
  | .object [("d", d)] => .double <$> d.as
  | .object [("y", d)] => .bytes <$> d.as
  | _ => throw "value expected"
termination_by d => sizeOf d
decreasing_by
  · have := List.sizeOf_lt_of_mem ‹_ ∈ ds›
    simp only [Document.object.sizeOf_spec, Document.list.sizeOf_spec, List.cons.sizeOf_spec,
      Prod.mk.sizeOf_spec]
    omega
  · simp only [Document.object.sizeOf_spec, Document.list.sizeOf_spec, List.cons.sizeOf_spec,
      Prod.mk.sizeOf_spec]
    omega

instance : FromDocument AnyValue := ⟨readValue⟩

instance : FromDocument ArrayValue := ⟨fun d => return ⟨← d.as⟩⟩

instance : FromDocument KeyValue := ⟨fun d => (fun (key, value) => ⟨key, value⟩) <$> d.as⟩

/-- A link holds the bytes of valid identifiers, or the bytes as they are if it is `raw`. -/
instance : FromDocument Link where
  of d := do
    let trace ← d.get "trace_id"
    let span ← d.get "span_id"
    return if ← d.holds "raw" then ⟨trace, span⟩ else .ofIds trace span

instance : FromDocument Profile where
  of d := return {
    sampleType := ← d.get "sample_type"
    sample := ← d.get "sample"
    mapping := ← d.get "mapping"
    location := ← d.get "location"
    function := ← d.get "function"
    stringTable := ← d.get "string_table"
    dropFrames := ← d.get "drop_frames"
    keepFrames := ← d.get "keep_frames"
    timeNanos := ← d.get "time_nanos"
    durationNanos := ← d.get "duration_nanos"
    periodType := ← d.get "period_type"
    period := ← d.get "period"
    comment := ← d.get "comment"
    defaultSampleType := ← d.get "default_sample_type"
    locationIndices := ← d.get "location_indices"
    attributeTable := ← d.get "attribute_table"
    attributeUnits := ← d.get "attribute_units"
    linkTable := ← d.get "link_table" }

instance : FromDocument ResourceInfo where
  of d := return ⟨← d.get "attributes", ← d.get "dropped_attributes_count"⟩

instance : FromDocument ScopeInfo where
  of d := return {
    name := ← d.get "name"
    version := ← d.get "version"
    attributes := ← d.get "attributes"
    droppedAttributesCount := ← d.get "dropped_attributes_count" }

instance : FromDocument Container where
  of d := return {
    profileId := ← d.get "profile_id"
    startTimeUnixNano := ← d.get "start_time_unix_nano"
    endTimeUnixNano := ← d.get "end_time_unix_nano"
    attributes := ← d.get "attributes"
    droppedAttributesCount := ← d.get "dropped_attributes_count"
    payloadFormat := ← d.get "original_payload_format"
    payloadBytes := ← d.get "original_payload"
    profile := ← d.get "profile" }

instance : FromDocument ScopeProfiles where
  of d := return ⟨← d.get "scope", ← d.get "profiles", ← d.get "schema_url"⟩

instance : FromDocument ResourceProfiles where
  of d := return ⟨← d.get "resource", ← d.get "scope_profiles", ← d.get "schema_url"⟩

instance : FromDocument ExportRequest := ⟨fun d => return ⟨← d.get "resource_profiles"⟩⟩

instance : FromDocument MessageName where
  of d := do Document.sure "message type" (MessageName.ofName? (← d.as))

/-! ## Content -/

/-- The member of a value's choice that is set, by its kind; a list is shown by its elements. -/
def showChoice (members : List (String × Document)) : List (String × Document) :=
  (["s", "b", "i", "d", "a", "y"].zip members).filterMap fun (kind, _, d) =>
    match d with
    | .null => none
    | .object [("values", vs)] => some (kind, vs)
    | d => some (kind, d)

/-- The members of a message. -/
def showMembers (name : MessageName) (members : List (String × Document)) : Document :=
  object (if name = .anyValue then showChoice members else members)

mutual

/-- One item. -/
def showItem : FieldType MessageName → Item → Document
  | .scalar .bool, .word w => doc (w != 0)
  | .scalar .int64, .word w | .scalar .int32, .word w => doc w.toInt64
  | _, .word w => doc w
  | .double, .fixed64 w => doc (hexWord w)
  | _, .fixed64 w => doc w
  | _, .text s => doc s
  | _, .bytes b => hex b
  | .message name, .message slots => showMembers name (showFields (schema name) slots)
  | _, .message _ => null

/-- The items of a field. -/
def showSlot (type : FieldType MessageName) : Slot → List Document
  | [] => []
  | item :: items => showItem type item :: showSlot type items

/-- The fields of a message by their names. -/
def showFields : List (FieldSpec MessageName) → Content → List (String × Document)
  | spec :: specs, slot :: slots =>
    let items := showSlot spec.type slot
    let shown := match spec.label with
      | .repeated => list items
      | .singular | .choice => items.headD null
    (spec.name, shown) :: showFields specs slots
  | _, _ => []

end

/-- **The content of a message**, as a document. -/
def showContent (name : MessageName) (content : Content) : Document :=
  showMembers name (showFields (schema name) content)

end ProfilePipeline.Otlp
