import ProfilePipeline.Wire.Decoder

/-!
# Descriptors of the messages

What a reader knows about the message types: names, numbers, labels and types of their fields.
Enumerations are open here, and every nested message is optional.
-/

namespace ProfilePipeline.Otlp

open Wire (FieldSpec FieldType Label Schema Content Bytes)

/-- The message types that can be read. -/
inductive MessageName where
  | valueType
  | label
  | sample
  | mapping
  | line
  | location
  | function
  | attributeUnit
  | link
  | anyValue
  | arrayValue
  | keyValue
  | profile
  | resource
  | container
  | scope
  | scopeProfiles
  | resourceProfiles
  | request
  deriving DecidableEq, Repr

namespace MessageName

/-- The name of a message type. -/
def name : MessageName → String
  | valueType => "value_type"
  | label => "label"
  | sample => "sample"
  | mapping => "mapping"
  | line => "line"
  | location => "location"
  | function => "function"
  | attributeUnit => "attribute_unit"
  | link => "link"
  | anyValue => "any_value"
  | arrayValue => "array_value"
  | keyValue => "key_value"
  | profile => "profile"
  | resource => "resource"
  | container => "container"
  | scope => "scope"
  | scopeProfiles => "scope_profiles"
  | resourceProfiles => "resource_profiles"
  | request => "request"

/-- All message types. -/
def all : List MessageName :=
  [valueType, label, sample, mapping, line, location, function, attributeUnit, link, anyValue,
    arrayValue, keyValue, profile, resource, container, scope, scopeProfiles, resourceProfiles,
    request]

/-- The message type with a name. -/
def ofName? (s : String) : Option MessageName := all.find? (·.name = s)

theorem ofName?_name (m : MessageName) : ofName? m.name = some m := by
  cases m <;> decide

end MessageName

namespace Descriptor

variable (name : String) (number : Nat)

/-- One unsigned 64-bit number. -/
def uint64 : FieldSpec MessageName := ⟨name, number, .singular, .scalar .uint64⟩

/-- One signed 64-bit number. -/
def int64 : FieldSpec MessageName := ⟨name, number, .singular, .scalar .int64⟩

/-- One unsigned 32-bit number. -/
def uint32 : FieldSpec MessageName := ⟨name, number, .singular, .scalar .uint32⟩

/-- One signed 32-bit number, or a member of an enumeration. -/
def int32 : FieldSpec MessageName := ⟨name, number, .singular, .scalar .int32⟩

/-- One flag. -/
def bool : FieldSpec MessageName := ⟨name, number, .singular, .scalar .bool⟩

/-- One number of eight bytes. -/
def fixed64 : FieldSpec MessageName := ⟨name, number, .singular, .fixed64⟩

/-- One text. -/
def text : FieldSpec MessageName := ⟨name, number, .singular, .text⟩

/-- One byte string. -/
def bytes : FieldSpec MessageName := ⟨name, number, .singular, .bytes⟩

/-- A list of unsigned 64-bit numbers. -/
def uint64s : FieldSpec MessageName := ⟨name, number, .repeated, .scalar .uint64⟩

/-- A list of signed 64-bit numbers. -/
def int64s : FieldSpec MessageName := ⟨name, number, .repeated, .scalar .int64⟩

/-- A list of texts. -/
def texts : FieldSpec MessageName := ⟨name, number, .repeated, .text⟩

/-- One nested message. -/
def one (type : MessageName) : FieldSpec MessageName := ⟨name, number, .singular, .message type⟩

/-- A list of nested messages. -/
def many (type : MessageName) : FieldSpec MessageName := ⟨name, number, .repeated, .message type⟩

/-- A member of a choice. -/
def either (type : FieldType MessageName) : FieldSpec MessageName := ⟨name, number, .choice, type⟩

end Descriptor

open Descriptor

/-- The descriptor of every message type. -/
def schema : Schema MessageName
  | .valueType => [int64 "type" 1, int64 "unit" 2, int32 "aggregation_temporality" 3]
  | .label => [int64 "key" 1, int64 "str" 2, int64 "num" 3, int64 "num_unit" 4]
  | .sample => [
      uint64s "location_index" 1,
      int64s "value" 2,
      many "label" 3 .label,
      uint64 "locations_start_index" 7,
      uint64 "locations_length" 8,
      uint32 "stacktrace_id_index" 9,
      uint64s "attributes" 10,
      uint64 "link" 12,
      uint64s "timestamps_unix_nano" 13]
  | .mapping => [
      uint64 "id" 1,
      uint64 "memory_start" 2,
      uint64 "memory_limit" 3,
      uint64 "file_offset" 4,
      int64 "filename" 5,
      int64 "build_id" 6,
      bool "has_functions" 7,
      bool "has_filenames" 8,
      bool "has_line_numbers" 9,
      bool "has_inline_frames" 10,
      int32 "build_id_kind" 11,
      uint64s "attributes" 12]
  | .line => [uint64 "function_index" 1, int64 "line" 2, int64 "column" 3]
  | .location => [
      uint64 "id" 1,
      uint64 "mapping_index" 2,
      uint64 "address" 3,
      many "line" 4 .line,
      bool "is_folded" 5,
      uint32 "type_index" 6,
      uint64s "attributes" 7]
  | .function => [
      uint64 "id" 1,
      int64 "name" 2,
      int64 "system_name" 3,
      int64 "filename" 4,
      int64 "start_line" 5]
  | .attributeUnit => [int64 "attribute_key" 1, int64 "unit" 2]
  | .link => [bytes "trace_id" 1, bytes "span_id" 2]
  | .anyValue => [
      either "string_value" 1 .text,
      either "bool_value" 2 (.scalar .bool),
      either "int_value" 3 (.scalar .int64),
      either "double_value" 4 .double,
      either "array_value" 5 (.message .arrayValue),
      either "bytes_value" 7 .bytes]
  | .arrayValue => [many "values" 1 .anyValue]
  | .keyValue => [text "key" 1, one "value" 2 .anyValue]
  | .profile => [
      many "sample_type" 1 .valueType,
      many "sample" 2 .sample,
      many "mapping" 3 .mapping,
      many "location" 4 .location,
      many "function" 5 .function,
      texts "string_table" 6,
      int64 "drop_frames" 7,
      int64 "keep_frames" 8,
      int64 "time_nanos" 9,
      int64 "duration_nanos" 10,
      one "period_type" 11 .valueType,
      int64 "period" 12,
      int64s "comment" 13,
      int64 "default_sample_type" 14,
      int64s "location_indices" 15,
      many "attribute_table" 16 .keyValue,
      many "attribute_units" 17 .attributeUnit,
      many "link_table" 18 .link]
  | .resource => [many "attributes" 1 .keyValue, uint32 "dropped_attributes_count" 2]
  | .container => [
      bytes "profile_id" 1,
      fixed64 "start_time_unix_nano" 2,
      fixed64 "end_time_unix_nano" 3,
      many "attributes" 4 .keyValue,
      uint32 "dropped_attributes_count" 5,
      text "original_payload_format" 6,
      bytes "original_payload" 7,
      one "profile" 8 .profile]
  | .scope => [
      text "name" 1,
      text "version" 2,
      many "attributes" 3 .keyValue,
      uint32 "dropped_attributes_count" 4]
  | .scopeProfiles => [
      one "scope" 1 .scope, many "profiles" 2 .container, text "schema_url" 3]
  | .resourceProfiles => [
      one "resource" 1 .resource, many "scope_profiles" 2 .scopeProfiles, text "schema_url" 3]
  | .request => [many "resource_profiles" 1 .resourceProfiles]

/-- Reads a message of a type, or nothing if the bytes break a rule of the format. -/
def decode? (name : MessageName) (input : Bytes) : Option Content :=
  Content.decode? schema name input

/-- The canonical bytes of the content of a message. -/
def canonical (name : MessageName) (content : Content) : Bytes :=
  content.encode schema (schema name)

/-- Their number, computed without the bytes. -/
def canonicalLen (name : MessageName) (content : Content) : Nat :=
  content.encodedLen schema (schema name)

end ProfilePipeline.Otlp
