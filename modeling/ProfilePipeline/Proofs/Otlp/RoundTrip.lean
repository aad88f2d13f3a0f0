import Mathlib.Tactic.Common
import ProfilePipeline.Otlp.Request
import ProfilePipeline.Proofs.Otlp.Canonical

/-!
# Requests read back

What a collector finds in a request is the batch it was made from.

**What should be there** is written down by the names of the fields, from the records and their
groups alone: `contentOf` puts slots under names, and leaves every field blank that is not named.
Neither the numbers of the fields nor the messages of the format appear there, so a value that ends
up in the wrong field is a difference.

**What is there** follows from `decode?_encode`, as attributes nest lists in lists no further than
one level, and the envelopes add six more.
-/

namespace ProfilePipeline.Otlp

open Wire (Bytes Content Item Message Slot)
open Readable (scalar scalars one many)

/-! ## What should be there -/

/-- The content of a message in which some fields are set, by name. -/
def contentOf (type : MessageName) (slots : List (String × Slot)) : Content :=
  (schema type).map fun spec => (slots.lookup spec.name).getD spec.blank

/-- One number, as the word it travels as. -/
def word (w : UInt64) : Slot := [.word w]

/-- A list of numbers. -/
def words (ws : List UInt64) : Slot := ws.map .word

/-- A flag. -/
def flag (b : Bool) : Slot := word (if b then 1 else 0)

/-- A list of messages, one for each entry of a table. -/
def entries {α : Type} (content : α → Content) (table : List α) : Slot :=
  table.map fun entry => .message (content entry)

namespace Found

def valueType (v : Payload.ValueType) : Content :=
  contentOf .valueType [
    ("type", word v.type.toUInt64),
    ("unit", word v.unit.toUInt64),
    ("aggregation_temporality", word (match v.aggregationTemporality with
      | .unspecified => 0
      | .delta => 1
      | .cumulative => 2))]

def label (l : Payload.Label) : Content :=
  contentOf .label [
    ("key", word l.key.toUInt64),
    ("str", word l.str.toUInt64),
    ("num", word l.num.toUInt64),
    ("num_unit", word l.numUnit.toUInt64)]

def sample (s : Payload.Sample) : Content :=
  contentOf .sample [
    ("location_index", words s.locationIndex),
    ("locations_start_index", word s.locationsStartIndex),
    ("locations_length", word s.locationsLength),
    ("stacktrace_id_index", word s.stacktraceIdIndex.toUInt64),
    ("value", words (s.values.map Int64.toUInt64)),
    ("label", entries label s.labels),
    ("attributes", words s.attributes),
    ("link", word s.link),
    ("timestamps_unix_nano", words s.timestampsUnixNano)]

def mapping (m : Payload.Mapping) : Content :=
  contentOf .mapping [
    ("id", word m.id),
    ("memory_start", word m.memoryStart),
    ("memory_limit", word m.memoryLimit),
    ("file_offset", word m.fileOffset),
    ("filename", word m.filename.toUInt64),
    ("build_id", word m.buildId.toUInt64),
    ("build_id_kind", word (match m.buildIdKind with
      | .linker => 0
      | .binaryHash => 1)),
    ("attributes", words m.attributes),
    ("has_functions", flag m.hasFunctions),
    ("has_filenames", flag m.hasFilenames),
    ("has_line_numbers", flag m.hasLineNumbers),
    ("has_inline_frames", flag m.hasInlineFrames)]

def line (l : Payload.Line) : Content :=
  contentOf .line [
    ("function_index", word l.functionIndex),
    ("line", word l.line.toUInt64),
    ("column", word l.column.toUInt64)]

def location (l : Payload.Location) : Content :=
  contentOf .location [
    ("id", word l.id),
    ("mapping_index", word l.mappingIndex),
    ("address", word l.address),
    ("line", entries line l.lines),
    ("is_folded", flag l.isFolded),
    ("type_index", word l.typeIndex.toUInt64),
    ("attributes", words l.attributes)]

def function (f : Payload.Function) : Content :=
  contentOf .function [
    ("id", word f.id),
    ("name", word f.name.toUInt64),
    ("system_name", word f.systemName.toUInt64),
    ("filename", word f.filename.toUInt64),
    ("start_line", word f.startLine.toUInt64)]

def attributeUnit (u : Payload.AttributeUnit) : Content :=
  contentOf .attributeUnit [
    ("attribute_key", word u.attributeKey.toUInt64),
    ("unit", word u.unit.toUInt64)]

/-- Of an identifier all of whose bytes are zero nothing is left. -/
def link (l : Payload.Link) : Content :=
  contentOf .link [
    ("trace_id", [.bytes (if l.trace.toBytes.all (· == 0) then [] else l.trace.toBytes)]),
    ("span_id", [.bytes (if l.span.toBytes.all (· == 0) then [] else l.span.toBytes)])]

/-- A list of attribute values, each given by its field and item. -/
def array (values : List (String × Item)) : Content :=
  contentOf .anyValue [
    ("array_value", [.message (contentOf .arrayValue [
      ("values", entries (fun (field, item) => contentOf .anyValue [(field, [item])]) values)])])]

def attributeValue : AttributeValue → Content
  | .text s => contentOf .anyValue [("string_value", [.text s])]
  | .bool b => contentOf .anyValue [("bool_value", flag b)]
  | .int n => contentOf .anyValue [("int_value", word n.toUInt64)]
  | .double x => contentOf .anyValue [("double_value", [.fixed64 x.bits])]
  | .texts ss => array (ss.map fun s => ("string_value", .text s))
  | .bools bs => array (bs.map fun b => ("bool_value", .word (if b then 1 else 0)))
  | .ints ns => array (ns.map fun n => ("int_value", .word n.toUInt64))
  | .doubles xs => array (xs.map fun x => ("double_value", .fixed64 x.bits))

/-- Attributes in insertion order. -/
def attributes (a : Attributes) : Slot :=
  entries (fun (key, value) => contentOf .keyValue [
    ("key", [.text key]),
    ("value", [.message (attributeValue value)])]) a.entries

/-- A payload: every table with all its entries in order, and indices as they are. -/
def payload (p : Payload) : Content :=
  contentOf .profile [
    ("sample_type", entries valueType p.sampleTypes),
    ("sample", entries sample p.samples),
    ("mapping", entries mapping p.mappings),
    ("location", entries location p.locations),
    ("location_indices", words (p.locationIndices.map Int64.toUInt64)),
    ("function", entries function p.functions),
    ("attribute_table", attributes p.attributeTable),
    ("attribute_units", entries attributeUnit p.attributeUnits),
    ("link_table", entries link p.links),
    ("string_table", p.stringTable.map .text),
    ("drop_frames", word p.dropFrames.toUInt64),
    ("keep_frames", word p.keepFrames.toUInt64),
    ("time_nanos", word p.timeNanos.toUInt64),
    ("duration_nanos", word p.durationNanos.toUInt64),
    ("period_type", entries valueType p.periodType.toList),
    ("period", word p.period.toUInt64),
    ("comment", words (p.comments.map Int64.toUInt64)),
    ("default_sample_type", word p.defaultSampleType.toUInt64)]

def record (r : Record) : Content :=
  contentOf .container [
    ("profile_id", [.bytes r.profileId]),
    ("start_time_unix_nano", [.fixed64 r.timestamp]),
    ("end_time_unix_nano", [.fixed64 r.observedTimestamp]),
    ("attributes", attributes r.attributes),
    ("dropped_attributes_count", word (min r.dropped (2 ^ 32 - 1)).toUInt64),
    ("original_payload_format", [.text r.payloadFormat]),
    ("original_payload", [.bytes r.payloadBytes]),
    ("profile", [.message (payload r.payload)])]

def scope (g : ScopeGroup) : Content :=
  contentOf .scope [
    ("name", [.text g.scope.name]),
    ("version", [.text (g.scope.version.getD "")]),
    ("attributes", attributes g.scope.attributes)]

def scopeGroup (g : ScopeGroup) : Content :=
  contentOf .scopeProfiles [
    ("scope", [.message (scope g)]),
    ("profiles", entries record g.records),
    ("schema_url", [.text (g.scope.schemaUrl.getD "")])]

def resource (g : ResourceGroup) : Content :=
  contentOf .resource [("attributes", attributes g.resource.attributes)]

def resourceGroup (g : ResourceGroup) : Content :=
  contentOf .resourceProfiles [
    ("resource", [.message (resource g)]),
    ("scope_profiles", entries scopeGroup g.scopes),
    ("schema_url", [.text (g.resource.schemaUrl.getD "")])]

/-- What should be found in a request: the groups of its records. -/
def groups (gs : List ResourceGroup) : Content :=
  contentOf .request [("resource_profiles", entries resourceGroup gs)]

end Found

/-! ## What is there -/

lemma scalars_int64 (ns : List Int64) : scalars ns = words (ns.map Int64.toUInt64) := by
  rw [words, List.map_map]
  rfl

lemma scalar_bool (b : Bool) : scalar b = flag b := by
  cases b <;> rfl

lemma one_eq {α : Type} [Readable α] {m : α} {content : Content} (h : Readable.content m = content) :
    one m = [.message content] := by
  rw [one, h]

lemma many_map {α β : Type} [Readable β] {f : α → β} {content : α → Content}
    (h : ∀ x, Readable.content (f x) = content x) (xs : List α) :
    many (xs.map f) = entries content xs := by
  rw [many, entries, List.map_map]
  exact List.map_congr_left fun x _ => congrArg Item.message (h x)

lemma many_eq {α : Type} [Readable α] {content : α → Content}
    (h : ∀ x, Readable.content x = content x) (xs : List α) : many xs = entries content xs :=
  List.map_congr_left fun x _ => congrArg Item.message (h x)

lemma content_valueType (v : Payload.ValueType) : Readable.content v = Found.valueType v := by
  obtain ⟨type, unit, temporality⟩ := v
  cases temporality <;> rfl

lemma content_label (l : Payload.Label) : Readable.content l = Found.label l := rfl

lemma content_sample (s : Payload.Sample) : Readable.content s = Found.sample s := by
  simp only [Readable.content, scalars_int64, many_eq content_label]
  rfl

lemma content_mapping (m : Payload.Mapping) : Readable.content m = Found.mapping m := by
  simp only [Readable.content, scalar_bool]
  cases hkind : m.buildIdKind <;> simp only [Found.mapping, hkind] <;> rfl

lemma content_line (l : Payload.Line) : Readable.content l = Found.line l := rfl

lemma content_location (l : Payload.Location) : Readable.content l = Found.location l := by
  simp only [Readable.content, scalar_bool, many_eq content_line]
  rfl

lemma content_function (f : Payload.Function) : Readable.content f = Found.function f := rfl

lemma content_attributeUnit (u : Payload.AttributeUnit) :
    Readable.content u = Found.attributeUnit u := rfl

lemma content_ofIds (trace span : Bytes) :
    Readable.content (Link.ofIds trace span) =
      contentOf .link [
        ("trace_id", [.bytes (if trace.all (· == 0) then [] else trace)]),
        ("span_id", [.bytes (if span.all (· == 0) then [] else span)])] := rfl

lemma content_link (l : Payload.Link) : Readable.content (link l) = Found.link l :=
  content_ofIds l.trace.toBytes l.span.toBytes

/-- The elements of a list of attribute values of one kind. -/
lemma content_array {α : Type} {f : α → AnyValue} {found : α → String × Item}
    (h : ∀ x, (f x).content = contentOf .anyValue [((found x).1, [(found x).2])]) (xs : List α) :
    (AnyValue.array (xs.map f)).content = Found.array (xs.map found) := by
  have hvalues : AnyValue.contents (xs.map f) =
      entries (fun (field, item) => contentOf .anyValue [(field, [item])]) (xs.map found) := by
    rw [AnyValue.contents_eq_map, entries, List.map_map, List.map_map]
    exact List.map_congr_left fun x _ => congrArg Item.message (h x)
  rw [AnyValue.content, hvalues]
  rfl

lemma content_anyValue (v : AttributeValue) :
    (anyValue v).content = Found.attributeValue v := by
  cases v with
  | text s => rfl
  | bool b => cases b <;> rfl
  | int n => rfl
  | double x => rfl
  | texts ss => exact content_array (fun _ => rfl) ss
  | bools bs => exact content_array (fun b => by cases b <;> rfl) bs
  | ints ns => exact content_array (fun _ => rfl) ns
  | doubles xs => exact content_array (fun _ => rfl) xs

lemma many_keyValues (a : Attributes) : many (keyValues a) = Found.attributes a := by
  refine many_map (fun entry => ?_) a.entries
  obtain ⟨key, value⟩ := entry
  show [[Item.text key], [Item.message (anyValue value).content]] = _
  rw [content_anyValue]
  rfl

lemma content_profile (p : Payload) : Readable.content (profile p) = Found.payload p := by
  simp only [Readable.content, profile, scalars_int64, many_keyValues, many_eq content_valueType,
    many_eq content_sample, many_eq content_mapping, many_eq content_location,
    many_eq content_function, many_eq content_attributeUnit, many_map content_link]
  rfl

lemma content_container (r : Record) : Readable.content (container r) = Found.record r := by
  have hdropped : scalar (droppedCount r) = word (min r.dropped (2 ^ 32 - 1)).toUInt64 := by
    have hlt : min r.dropped (2 ^ 32 - 1) < 2 ^ 32 := by omega
    refine congrArg word (UInt64.toNat_inj.mp ?_)
    show min r.dropped (2 ^ 32 - 1) % 2 ^ 32 = min r.dropped (2 ^ 32 - 1) % 2 ^ 64
    omega
  simp only [Readable.content, container, many_keyValues, one_eq (content_profile r.payload),
    hdropped]
  rfl

lemma content_scopeProfiles (g : ScopeGroup) :
    Readable.content (scopeProfiles g) = Found.scopeGroup g := by
  simp only [Readable.content, scopeProfiles, one, many_keyValues, many_map content_container]
  rfl

lemma content_resourceProfiles (g : ResourceGroup) :
    Readable.content (resourceProfiles g) = Found.resourceGroup g := by
  simp only [Readable.content, resourceProfiles, one, many_keyValues,
    many_map content_scopeProfiles]
  rfl

lemma content_request (records : List Record) :
    Readable.content (request records) = Found.groups (group records) := by
  simp only [Readable.content, request, many_map content_resourceProfiles]
  rfl

/-! ## How deep it nests -/

lemma depth_default? (type : Wire.FieldType MessageName) : Slot.depth type.default?.toList = 0 := by
  cases type <;> rfl

/-- A field that is not named adds no depth. -/
lemma depth_contentOf_le {type : MessageName} {slots : List (String × Slot)} {d : Nat}
    (h : ∀ x ∈ slots, Slot.depth x.2 ≤ d) : (contentOf type slots).depth ≤ d := by
  rw [Content.depth_le_iff]
  intro slot hslot
  obtain ⟨spec, -, rfl⟩ := List.mem_map.mp hslot
  cases hlookup : slots.lookup spec.name with
  | some slot =>
      obtain ⟨before, after, rfl, -⟩ := List.lookup_eq_some_iff.mp hlookup
      exact h (spec.name, slot) (by simp)
  | none =>
      show Slot.depth spec.blank ≤ d
      rw [Wire.FieldSpec.blank]
      split
      · rw [depth_default?]
        exact Nat.zero_le d
      · exact Nat.zero_le d
      · exact Nat.zero_le d

lemma depth_entries_le_of_mem {α : Type} {content : α → Content} {d : Nat} {table : List α}
    (h : ∀ x ∈ table, (content x).depth ≤ d) : Slot.depth (entries content table) ≤ d + 1 := by
  rw [Slot.depth_le_iff]
  intro item hitem
  obtain ⟨x, hx, rfl⟩ := List.mem_map.mp hitem
  exact Nat.succ_le_succ (h x hx)

lemma depth_entries_le {α : Type} {content : α → Content} {d : Nat}
    (h : ∀ x, (content x).depth ≤ d) (table : List α) :
    Slot.depth (entries content table) ≤ d + 1 :=
  depth_entries_le_of_mem fun x _ => h x

lemma depth_message_le {slots : Content} {d : Nat} (h : slots.depth ≤ d) :
    Slot.depth [.message slots] ≤ d + 1 :=
  Nat.max_le.mpr ⟨Nat.succ_le_succ h, Nat.zero_le _⟩

lemma depth_words (ws : List UInt64) : Slot.depth (words ws) = 0 := by
  refine Nat.le_zero.mp (Slot.depth_le_iff.mpr ?_)
  intro item hitem
  obtain ⟨w, -, rfl⟩ := List.mem_map.mp hitem
  exact Nat.le_refl 0

lemma depth_texts (ts : List String) : Slot.depth (ts.map .text) = 0 := by
  refine Nat.le_zero.mp (Slot.depth_le_iff.mpr ?_)
  intro item hitem
  obtain ⟨t, -, rfl⟩ := List.mem_map.mp hitem
  exact Nat.le_refl 0

namespace Found

lemma depth_valueType (v : Payload.ValueType) : (valueType v).depth ≤ 0 :=
  depth_contentOf_le (by simp [word, Slot.depth, Item.depth])

lemma depth_label (l : Payload.Label) : (label l).depth ≤ 0 :=
  depth_contentOf_le (by simp [word, Slot.depth, Item.depth])

lemma depth_sample (s : Payload.Sample) : (sample s).depth ≤ 1 :=
  depth_contentOf_le (by
    simp [word, Slot.depth, Item.depth, depth_words, depth_entries_le depth_label])

lemma depth_mapping (m : Payload.Mapping) : (mapping m).depth ≤ 0 :=
  depth_contentOf_le (by simp [word, flag, Slot.depth, Item.depth, depth_words])

lemma depth_line (l : Payload.Line) : (line l).depth ≤ 0 :=
  depth_contentOf_le (by simp [word, Slot.depth, Item.depth])

lemma depth_location (l : Payload.Location) : (location l).depth ≤ 1 :=
  depth_contentOf_le (by
    simp [word, flag, Slot.depth, Item.depth, depth_words, depth_entries_le depth_line])

lemma depth_function (f : Payload.Function) : (function f).depth ≤ 0 :=
  depth_contentOf_le (by simp [word, Slot.depth, Item.depth])

lemma depth_attributeUnit (u : Payload.AttributeUnit) : (attributeUnit u).depth ≤ 0 :=
  depth_contentOf_le (by simp [word, Slot.depth, Item.depth])

lemma depth_link (l : Payload.Link) : (link l).depth ≤ 0 :=
  depth_contentOf_le (by simp [Slot.depth, Item.depth])

lemma depth_array {values : List (String × Item)} (h : ∀ x ∈ values, x.2.depth ≤ 0) :
    (array values).depth ≤ 2 := by
  have hvalues : Slot.depth (entries (fun (field, item) => contentOf .anyValue [(field, [item])])
      values) ≤ 0 + 1 := by
    refine depth_entries_le_of_mem fun x hx => depth_contentOf_le ?_
    simpa [Slot.depth] using h x hx
  have hlist : Content.depth (contentOf .arrayValue [
      ("values", entries (fun (field, item) => contentOf .anyValue [(field, [item])]) values)]) ≤
        1 :=
    depth_contentOf_le (List.forall_mem_singleton.mpr hvalues)
  exact depth_contentOf_le (List.forall_mem_singleton.mpr (depth_message_le hlist))

lemma depth_attributeValue (v : AttributeValue) : (attributeValue v).depth ≤ 2 := by
  cases v with
  | text s => exact depth_contentOf_le (by simp [Slot.depth, Item.depth])
  | bool b => exact depth_contentOf_le (by simp [flag, word, Slot.depth, Item.depth])
  | int n => exact depth_contentOf_le (by simp [word, Slot.depth, Item.depth])
  | double x => exact depth_contentOf_le (by simp [Slot.depth, Item.depth])
  | texts ss => exact depth_array (by simp [Item.depth])
  | bools bs =>
      refine depth_array fun x hx => ?_
      obtain ⟨b, -, rfl⟩ := List.mem_map.mp hx
      exact Nat.le_refl 0
  | ints ns => exact depth_array (by simp [Item.depth])
  | doubles xs => exact depth_array (by simp [Item.depth])

lemma depth_attributes (a : Attributes) : Slot.depth (attributes a) ≤ 4 := by
  refine depth_entries_le (fun entry => depth_contentOf_le ?_) a.entries
  rw [List.forall_mem_cons, List.forall_mem_singleton]
  exact ⟨Nat.zero_le 3, depth_message_le (depth_attributeValue entry.2)⟩

lemma depth_payload (p : Payload) : (payload p).depth ≤ 4 := by
  have hentries : ∀ {α : Type} {content : α → Content} {d : Nat}, (∀ x, (content x).depth ≤ d) →
      d + 1 ≤ 4 → ∀ table : List α, Slot.depth (entries content table) ≤ 4 :=
    fun h hd table => Nat.le_trans (depth_entries_le h table) hd
  refine depth_contentOf_le ?_
  simp [word, Slot.depth, Item.depth, depth_words, depth_texts, depth_attributes,
    hentries depth_valueType, hentries depth_sample, hentries depth_mapping,
    hentries depth_location, hentries depth_function, hentries depth_attributeUnit,
    hentries depth_link]

lemma depth_record (r : Record) : (record r).depth ≤ 5 := by
  refine depth_contentOf_le ?_
  simp only [List.forall_mem_cons, List.not_mem_nil, false_implies, implies_true, and_true]
  exact ⟨Nat.zero_le 5, Nat.zero_le 5, Nat.zero_le 5, Nat.le_succ_of_le (depth_attributes _),
    Nat.zero_le 5, Nat.zero_le 5, Nat.zero_le 5, depth_message_le (depth_payload r.payload)⟩

lemma depth_scope (g : ScopeGroup) : (scope g).depth ≤ 4 := by
  refine depth_contentOf_le ?_
  simp only [List.forall_mem_cons, List.not_mem_nil, false_implies, implies_true, and_true]
  exact ⟨Nat.zero_le 4, Nat.zero_le 4, depth_attributes g.scope.attributes⟩

lemma depth_scopeGroup (g : ScopeGroup) : (scopeGroup g).depth ≤ 6 := by
  have hscope : (scope g).depth ≤ 5 := Nat.le_succ_of_le (depth_scope g)
  refine depth_contentOf_le ?_
  simp only [List.forall_mem_cons, List.not_mem_nil, false_implies, implies_true, and_true]
  exact ⟨depth_message_le hscope, depth_entries_le depth_record g.records, Nat.zero_le 6⟩

lemma depth_resource (g : ResourceGroup) : (resource g).depth ≤ 4 :=
  depth_contentOf_le (List.forall_mem_singleton.mpr (depth_attributes g.resource.attributes))

lemma depth_resourceGroup (g : ResourceGroup) : (resourceGroup g).depth ≤ 7 := by
  have hresource : (resource g).depth ≤ 6 := Nat.le_trans (depth_resource g) (by decide)
  refine depth_contentOf_le ?_
  simp only [List.forall_mem_cons, List.not_mem_nil, false_implies, implies_true, and_true]
  exact ⟨depth_message_le hresource, depth_entries_le depth_scopeGroup g.scopes, Nat.zero_le 7⟩

lemma depth_groups (gs : List ResourceGroup) : (groups gs).depth ≤ 8 :=
  depth_contentOf_le (List.forall_mem_singleton.mpr (depth_entries_le depth_resourceGroup gs))

end Found

/-! ## Reading -/

/-- **A request is read back as the groups of the records it was made from.**  Groups, records,
tables and attributes keep their order and their entries, and every value is found under its own
name. -/
theorem decode?_request (records : List Record)
    (h : (Message.encode (request records)).length < 2 ^ 64) :
    decode? .request (Message.encode (request records)) = some (Found.groups (group records)) := by
  have hcontent := content_request records
  have hdepth : (Readable.content (request records)).depth ≤ Wire.depthLimit := by
    rw [hcontent]
    exact Nat.le_trans (Found.depth_groups _) (by decide)
  rw [← hcontent]
  exact decode?_encode (request records) hdepth h

/-- Two profiles of one resource from two libraries, with an empty text and a list among them. -/
def twoScopes : List Record :=
  [{ resource := .empty
     scope := { name := "a" }
     profileId := [1]
     payload := { stringTable := ["", "cpu", ""], samples := [{ values := [-1], link := 2 }] } },
   { resource := .empty
     scope := { name := "b", version := some "1" }
     timestamp := 7
     attributes := .ofList [("k", .bools [true, false])]
     totalAttributes := 3 }]

theorem decode?_request_twoScopes :
    (Message.encode (request twoScopes)).length < 2 ^ 64 ∧
      decode? .request (Message.encode (request twoScopes)) =
        some (Found.groups (group twoScopes)) := by
  have h : (Message.encode (request twoScopes)).length < 2 ^ 64 := by decide +kernel
  exact ⟨h, decode?_request twoScopes h⟩

end ProfilePipeline.Otlp
