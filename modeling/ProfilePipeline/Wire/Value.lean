import ProfilePipeline.Wire.Sink

/-!
# Values and fields

A message is an ordered list of fields, and a field is a key followed by a value.  Two passes run
over the same description:

* `Value.extent` — how many bytes, in 64-bit arithmetic and without looking at any byte: a tree of
  sizes of the shape of the value, of which `Value.size`, `Field.size` and `Field.measure` are the
  tops;
* `Value.writeTo`, `Field.writeTo`, `Field.writeAll` — the bytes themselves, offered to a sink.

The write pass takes every length prefix from the tree of the size pass, so the two have to agree
at every depth.  Neither pass visits a value twice, however deep messages nest.
-/

namespace ProfilePipeline.Wire

/-- How the payload of a field is laid out after its key. -/
inductive WireType where
  | varint
  | fixed64
  | delimited
  deriving DecidableEq, Repr

namespace WireType

/-- The low three bits of a key. -/
def code : WireType → UInt32
  | varint => 0
  | fixed64 => 1
  | delimited => 2

end WireType

mutual

/-- What a field can carry. -/
inductive Value where
  /-- A word written as base-128 digits. -/
  | varint (word : UInt64)
  /-- Eight bytes, least significant first. -/
  | fixed64 (word : UInt64)
  | text (s : String)
  | bytes (b : Bytes)
  /-- Words one after the other, without keys between them. -/
  | packed (words : List UInt64)
  | message (fields : List Field)

/-- A numbered place of a message with its value.  A field that omits its default is not written
when the value is the default of its type. -/
inductive Field where
  | mk (number : UInt32) (omitsDefault : Bool) (value : Value)

end

namespace Field

/-- A field which is skipped when it holds the default of its type. -/
def omitting (number : UInt32) (value : Value) : Field := ⟨number, true, value⟩

/-- A field which is always written: a list element or the member of a choice. -/
def present (number : UInt32) (value : Value) : Field := ⟨number, false, value⟩

/-- The value of a field. -/
def value : Field → Value
  | mk _ _ value => value

end Field

/-- The wire type that a value travels as. -/
def Value.wireType : Value → WireType
  | .varint _ => .varint
  | .fixed64 _ => .fixed64
  | .text _ | .bytes _ | .packed _ | .message _ => .delimited

/-- A key holds the field number above the three bits of the wire type. -/
def key (number : UInt32) (type : WireType) : UInt64 :=
  ((number <<< 3) ||| type.code).toUInt64

/-- The eight bytes of a word, least significant first. -/
def littleEndian (word : UInt64) : Bytes :=
  [word.toUInt8, (word >>> 8).toUInt8, (word >>> 16).toUInt8, (word >>> 24).toUInt8,
    (word >>> 32).toUInt8, (word >>> 40).toUInt8, (word >>> 48).toUInt8, (word >>> 56).toUInt8]

/-- The bytes of a text in UTF-8. -/
def utf8 (s : String) : Bytes := s.toByteArray.data.toList

/-! ## The size pass -/

/-- The sizes in a value: its own, and below it those of the values of its fields if it is a
message. -/
structure Extent where
  size : UInt64
  inner : List Extent

/-- Whether a value of `len` bytes is the default of its type.  A message is its default when it
measures as empty, a double only when all of its bits are zero. -/
def Value.isDefaultAt (len : UInt64) : Value → Bool
  | .varint word => word == 0
  | .fixed64 word => word == 0
  | .text s => s.isEmpty
  | .bytes b => b.isEmpty
  | .packed words => words.isEmpty
  | .message _ => len == 0

/-- The number of bytes of the length in front of a value of `len` bytes, if it has one. -/
def WireType.prefixSize (type : WireType) (len : UInt64) : UInt64 :=
  match type with
  | delimited => Varint.size len
  | varint | fixed64 => 0

/-- The number of bytes of a field with a value of `len` bytes: key, length prefix where there is
one, and value. -/
def Field.sizeAt (len : UInt64) : Field → UInt64
  | .mk number omitsDefault value =>
    if omitsDefault && value.isDefaultAt len then 0
    else Varint.size (key number value.wireType) + value.wireType.prefixSize len + len

/-- The count `len` with the bytes of fields added to it, the extents of their values given. -/
def Field.total (len : UInt64) : List Field → List Extent → UInt64
  | field :: fields, e :: es => Field.total (len + field.sizeAt e.size) fields es
  | _, _ => len

mutual

/-- The sizes in a value, without key and length prefix.  Each is computed once, from those below
it. -/
def Value.extent : Value → Extent
  | .varint word => ⟨Varint.size word, []⟩
  | .fixed64 _ => ⟨8, []⟩
  | .text s => ⟨s.utf8ByteSize.toUInt64, []⟩
  | .bytes b => ⟨b.length.toUInt64, []⟩
  | .packed words => ⟨words.foldl (fun n word => n + Varint.size word) 0, []⟩
  | .message fields =>
    let inner := Field.extents fields
    ⟨Field.total 0 fields inner, inner⟩

/-- The sizes in the values of fields. -/
def Field.extents : List Field → List Extent
  | [] => []
  | .mk _ _ value :: fields => value.extent :: Field.extents fields

end

/-- The number of bytes of a value, without key and length prefix. -/
def Value.size (value : Value) : UInt64 := value.extent.size

/-- Whether a value is the default of its type. -/
def Value.isDefault (value : Value) : Bool := value.isDefaultAt value.size

/-- The number of bytes of a field: key, length prefix where there is one, and value. -/
def Field.size (field : Field) : UInt64 := field.sizeAt field.value.size

/-- The number of bytes of the fields of a message. -/
def Field.measure (fields : List Field) : UInt64 := Field.total 0 fields (Field.extents fields)

/-! ## The write pass -/

/-- Offers a word digit by digit. -/
def writeVarint (word : UInt64) (s : Sink) : Sink := s.putEach (Varint.write word)

/-- Offers the length `len` of a value that has one in front. -/
def WireType.writePrefix (type : WireType) (len : UInt64) (s : Sink) : Sink :=
  match type with
  | delimited => writeVarint len s
  | varint | fixed64 => s

mutual

/-- Offers the bytes of a value with the given extent, without key and length prefix. -/
def Value.writeAt : Value → Extent → Sink → Sink
  | .varint word, _, s => writeVarint word s
  | .fixed64 word, _, s => s.put (littleEndian word)
  | .text t, _, s => s.put (utf8 t)
  | .bytes b, _, s => s.put b
  | .packed words, _, s => words.foldl (fun s word => writeVarint word s) s
  | .message fields, e, s => Field.writeAllAt fields e.inner s

/-- Offers a field whose value has the given extent: its key, its length where the wire type asks
for one, and its value. -/
def Field.writeAt : Field → Extent → Sink → Sink
  | .mk number omitsDefault value, e, s =>
    if omitsDefault && value.isDefaultAt e.size then s
    else
      let s := writeVarint (key number value.wireType) s
      value.writeAt e (value.wireType.writePrefix e.size s)

/-- Offers the fields of a message in order, the extents of their values given. -/
def Field.writeAllAt : List Field → List Extent → Sink → Sink
  | field :: fields, e :: es, s => Field.writeAllAt fields es (field.writeAt e s)
  | _, _, s => s

end

/-- Offers the bytes of a value, without key and length prefix. -/
def Value.writeTo (value : Value) (s : Sink) : Sink := value.writeAt value.extent s

/-- Offers a field: its key, its length where the wire type asks for one, and its value. -/
def Field.writeTo (field : Field) (s : Sink) : Sink := field.writeAt field.value.extent s

/-- Offers the fields of a message in order. -/
def Field.writeAll (fields : List Field) (s : Sink) : Sink :=
  Field.writeAllAt fields (Field.extents fields) s

/-! ## Both passes, without the tree of sizes -/

/-- A message measures as its fields do. -/
theorem Value.size_message (fields : List Field) :
    (Value.message fields).size = Field.measure fields := by
  simp only [Value.size, Value.extent, Field.measure]

/-- A message is written as its fields are. -/
theorem Value.writeTo_message (fields : List Field) (s : Sink) :
    (Value.message fields).writeTo s = Field.writeAll fields s := by
  simp only [Value.writeTo, Value.extent, Value.writeAt, Field.writeAll]

/-- The length prefix of a field is the size of its value. -/
theorem Field.writeTo_mk (number : UInt32) (omitsDefault : Bool) (value : Value) (s : Sink) :
    Field.writeTo ⟨number, omitsDefault, value⟩ s =
      if omitsDefault && value.isDefault then s
      else
        let s := writeVarint (key number value.wireType) s
        value.writeTo (value.wireType.writePrefix value.size s) := by
  rw [Field.writeTo, Field.writeAt]
  rfl

/-- Fields are written one after the other. -/
theorem Field.writeAll_cons (field : Field) (fields : List Field) (s : Sink) :
    Field.writeAll (field :: fields) s = Field.writeAll fields (field.writeTo s) := by
  cases field
  simp only [Field.writeAll, Field.extents, Field.writeAllAt, Field.writeTo, Field.value]

/-- Of no fields nothing is written. -/
theorem Field.writeAll_nil (s : Sink) : Field.writeAll [] s = s := by
  simp only [Field.writeAll, Field.writeAllAt]

/-! ## Bytes and messages -/

/-- The bytes of a value on a sink with unlimited room. -/
def Value.encode (value : Value) : Bytes := (value.writeTo (.fresh none)).accepted.toList

/-- The bytes of a field on a sink with unlimited room. -/
def Field.encode (field : Field) : Bytes := (field.writeTo (.fresh none)).accepted.toList

/-- The bytes of the fields of a message on a sink with unlimited room. -/
def Field.encodeAll (fields : List Field) : Bytes :=
  (Field.writeAll fields (.fresh none)).accepted.toList

/-- The message types of the format: what they share is that they are ordered lists of fields. -/
class Message (α : Type) where
  fields : α → List Field

namespace Message

variable {α : Type} [Message α]

/-- The number of bytes of the body of a message. -/
def size (m : α) : UInt64 := Field.measure (fields m)

/-- Offers the body of a message. -/
def writeTo (m : α) (s : Sink) : Sink := Field.writeAll (fields m) s

/-- The body of a message. -/
def encode (m : α) : Bytes := (writeTo m (.fresh none)).accepted.toList

/-- A message as the value of a field. -/
def value (m : α) : Value := .message (fields m)

/-- One list field per message. -/
def repeated (number : UInt32) (ms : List α) : List Field :=
  ms.map fun m => .present number (value m)

end Message

end ProfilePipeline.Wire
