import ProfilePipeline.Wire.Typed

/-!
# Message content by descriptor

A descriptor lists the fields of a message type: number, label and type.  The content of a message
is one slot per descriptor line, in the order of the lines, and a slot is a list of items:

* a singular field that is not a message has exactly one item, the default when nothing was set;
* a singular message and a member of a choice have at most one item;
* a repeated field has one item per element.

So content knows no field numbers and no byte layout; those come from the descriptor alone.

* `Content.encode` — the canonical bytes: fields in the order of the descriptor, singular defaults
  left out, members of a choice, messages and elements always written, lists of scalars packed.
* `Content.encodedLen` — their number, computed without the bytes.
* `FieldSpec.blank`, `Content.blank` — the content of the empty message.
-/

namespace ProfilePipeline.Wire

/-- The types that travel as one word and appear in descriptors.  Enumerations are open: they are
32-bit numbers here. -/
inductive ScalarType where
  | uint64
  | int64
  | uint32
  | int32
  | bool
  deriving DecidableEq, Repr

/-- The word that a reader of the type keeps of an arbitrary word. -/
def ScalarType.normalize : ScalarType → UInt64 → UInt64
  | uint64, w => w
  | int64, w => w
  | uint32, w => Scalar.word (Scalar.ofWord w : UInt32)
  | int32, w => Scalar.word (Scalar.ofWord w : Int32)
  | bool, w => Scalar.word (Scalar.ofWord w : Bool)

/-- The type of a field; `μ` names the message types. -/
inductive FieldType (μ : Type) where
  | scalar (type : ScalarType)
  | fixed64
  | double
  | text
  | bytes
  | message (name : μ)
  deriving DecidableEq, Repr

/-- How often a field can occur and what its absence means. -/
inductive Label where
  | singular
  | repeated
  /-- At most one member of the choice is set; setting one clears the others. -/
  | choice
  deriving DecidableEq, Repr

/-- A line of a descriptor. -/
structure FieldSpec (μ : Type) where
  name : String
  number : Nat
  label : Label
  type : FieldType μ
  deriving Repr

/-- The descriptors of a family of message types. -/
abbrev Schema (μ : Type) := μ → List (FieldSpec μ)

/-- One decoded element.  A word is kept in the form its type normalises it to. -/
inductive Item where
  | word (w : UInt64)
  | fixed64 (w : UInt64)
  | text (s : String)
  | bytes (b : Bytes)
  | message (slots : List (List Item))

/-- What was decoded for one field. -/
abbrev Slot := List Item

/-- What a message holds: one slot per line of its descriptor. -/
abbrev Content := List Slot

/-! ## The empty message -/

/-- The item of a singular field that nothing was said about. -/
def FieldType.default? {μ : Type} : FieldType μ → Option Item
  | .scalar _ => some (.word 0)
  | .fixed64 | .double => some (.fixed64 0)
  | .text => some (.text "")
  | .bytes => some (.bytes [])
  | .message _ => none

/-- The slot of a field that nothing was said about. -/
def FieldSpec.blank {μ : Type} (spec : FieldSpec μ) : Slot :=
  match spec.label with
  | .singular => spec.type.default?.toList
  | .repeated | .choice => []

/-- The content of the empty message. -/
def Content.blank {μ : Type} (specs : List (FieldSpec μ)) : Content := specs.map FieldSpec.blank

/-- Whether an item is the default of its type; a message never is. -/
def Item.isDefault : Item → Bool
  | .word w => w == 0
  | .fixed64 w => w == 0
  | .text s => s.isEmpty
  | .bytes b => b.isEmpty
  | .message _ => false

/-! ## Canonical bytes -/

/-- The wire type that a field of the type has outside of packed lists. -/
def FieldType.wireType {μ : Type} : FieldType μ → WireType
  | .scalar _ => .varint
  | .fixed64 | .double => .fixed64
  | .text | .bytes | .message _ => .delimited

/-- The key as base-128 digits: eight times the number plus the wire type. -/
def keyBytes (number : Nat) (type : WireType) : Bytes :=
  Varint.ofNat (8 * number + type.code.toNat)

/-- A body with its length in front, which is a word. -/
def delimit (body : Bytes) : Bytes := Varint.write body.length.toUInt64 ++ body

/-- The word an item stands for in a packed list. -/
def Item.wordBytes : Item → Bytes
  | .word w => Varint.ofNat w.toNat
  | _ => []

variable {μ : Type} (schema : Schema μ)

mutual

/-- The payload of one item. -/
def Item.encode : FieldType μ → Item → Bytes
  | _, .word w => Varint.ofNat w.toNat
  | _, .fixed64 w => littleEndian w
  | _, .text s => delimit (utf8 s)
  | _, .bytes b => delimit b
  | .message name, .message slots => delimit (Content.encode (schema name) slots)
  | _, .message _ => delimit []

/-- One key and payload per item; an item that is its type's default is left out if asked. -/
def Slot.encodeEach (number : Nat) (type : FieldType μ) (omitsDefault : Bool) : Slot → Bytes
  | [] => []
  | item :: items =>
    (if omitsDefault && item.isDefault then []
      else keyBytes number type.wireType ++ item.encode type) ++
      Slot.encodeEach number type omitsDefault items

/-- **The canonical bytes of a message.** -/
def Content.encode : List (FieldSpec μ) → Content → Bytes
  | spec :: specs, slot :: slots =>
    (match spec.label, spec.type with
      | .singular, type => Slot.encodeEach spec.number type true slot
      | .repeated, .scalar _ =>
        if slot.isEmpty then []
        else keyBytes spec.number .delimited ++ delimit (slot.flatMap Item.wordBytes)
      | .repeated, type => Slot.encodeEach spec.number type false slot
      | .choice, type => Slot.encodeEach spec.number type false slot) ++
      Content.encode specs slots
  | _, _ => []

end

/-! ## Their number -/

/-- The number of bytes of a number's digits. -/
def digitCount (n : Nat) : Nat := (Varint.size n.toUInt64).toNat

/-- The number of bytes of a key. -/
def keyLen (number : Nat) (type : WireType) : Nat := digitCount (8 * number + type.code.toNat)

/-- The number of bytes of a body with its length in front. -/
def delimitedLen (len : Nat) : Nat := digitCount len + len

/-- The number of bytes of an item of a packed list. -/
def Item.wordLen : Item → Nat
  | .word w => (Varint.size w).toNat
  | _ => 0

/-- The number of bytes of all items of a packed list. -/
def Slot.packedLen : Slot → Nat
  | [] => 0
  | item :: items => item.wordLen + Slot.packedLen items

mutual

/-- The number of bytes of the payload of one item. -/
def Item.encodedLen : FieldType μ → Item → Nat
  | _, .word w => (Varint.size w).toNat
  | _, .fixed64 _ => 8
  | _, .text s => delimitedLen s.utf8ByteSize
  | _, .bytes b => delimitedLen b.length
  | .message name, .message slots => delimitedLen (Content.encodedLen (schema name) slots)
  | _, .message _ => delimitedLen 0

/-- The number of bytes of the items of a field that are written one by one. -/
def Slot.eachLen (number : Nat) (type : FieldType μ) (omitsDefault : Bool) : Slot → Nat
  | [] => 0
  | item :: items =>
    (if omitsDefault && item.isDefault then 0
      else keyLen number type.wireType + item.encodedLen type) +
      Slot.eachLen number type omitsDefault items

/-- The number of bytes of a message. -/
def Content.encodedLen : List (FieldSpec μ) → Content → Nat
  | spec :: specs, slot :: slots =>
    (match spec.label, spec.type with
      | .singular, type => Slot.eachLen spec.number type true slot
      | .repeated, .scalar _ =>
        if slot.isEmpty then 0
        else keyLen spec.number .delimited + delimitedLen (Slot.packedLen slot)
      | .repeated, type => Slot.eachLen spec.number type false slot
      | .choice, type => Slot.eachLen spec.number type false slot) +
      Content.encodedLen specs slots
  | _, _ => 0

end

end ProfilePipeline.Wire
