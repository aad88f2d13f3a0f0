import Mathlib.Tactic.Common
import ProfilePipeline.Proofs.Wire.Line
import ProfilePipeline.Proofs.Wire.Spelled

/-!
# One field on its own

A field that is written tells a reader of the wire format how far it goes, and a reader who knows
the type of the field finds the value that went in.

**Scalars.**  `LawfulScalar` says that a word is read back as the value it stands for, for a
negative 32-bit number as for any other, and that zero stands for the default.

**Types.**  A `Kind` is what is known of a field before its value is.  `Typed.read?` goes by the
kind alone, first to the end of the payload and then from the payload to the value.

**One field.**  `Typed.field_read_back` is the main result.
-/

namespace ProfilePipeline.Wire

open Payload (AggregationTemporality BuildIdKind)

/-! ## Scalars -/

/-- A scalar type whose values are found again in their words, with its default at zero. -/
class LawfulScalar (α : Type) [Scalar α] : Prop where
  ofWord_word : ∀ x : α, Scalar.ofWord (Scalar.word x) = x
  word_ofWord_zero : Scalar.word (Scalar.ofWord 0 : α) = 0

instance : LawfulScalar UInt64 := ⟨fun _ => rfl, rfl⟩

instance : LawfulScalar Int64 := ⟨fun _ => rfl, rfl⟩

instance : LawfulScalar UInt32 := ⟨fun x => x.toUInt32_toUInt64, rfl⟩

instance : LawfulScalar Int32 where
  ofWord_word x := by
    -- The low half of a sign extension is what was extended, whichever way the rest is filled.
    rw [← Int32.toBitVec_inj, ← Int32.toBitVec_inj.mpr x.toInt32_toInt64]
    show (x.toBitVec.signExtend 64).setWidth 32 = (x.toBitVec.signExtend 64).signExtend 32
    exact (BitVec.signExtend_eq_setWidth_of_le (x.toBitVec.signExtend 64) (by decide)).symm
  word_ofWord_zero := by decide

instance : LawfulScalar Bool := ⟨fun b => by cases b <;> rfl, rfl⟩

instance : LawfulScalar AggregationTemporality where
  ofWord_word t := by cases t <;> decide
  word_ofWord_zero := by decide

instance : LawfulScalar BuildIdKind where
  ofWord_word k := by cases k <;> decide
  word_ofWord_zero := by decide

section Scalar

variable {α : Type} [Scalar α] [LawfulScalar α]

lemma Scalar.map_ofWord_map_word (xs : List α) :
    (xs.map Scalar.word).map Scalar.ofWord = xs := by
  rw [List.map_map]
  exact List.map_id'' LawfulScalar.ofWord_word xs

/-- No other value has the word of the default. -/
lemma Scalar.word_eq_zero_iff {x : α} : Scalar.word x = 0 ↔ x = Scalar.ofWord 0 := by
  constructor
  · intro h
    rw [← LawfulScalar.ofWord_word x, h]
  · rintro rfl
    exact LawfulScalar.word_ofWord_zero

end Scalar

/-! ## Types -/

/-- The types that travel as one word, alone or packed. -/
inductive WordKind where
  | uint64
  | int64
  | uint32
  | int32
  | bool
  | temporality
  | buildIdKind
  deriving DecidableEq, Repr

/-- The types that a field can have. -/
inductive Kind where
  | one (type : WordKind)
  | list (type : WordKind)
  | fixed64
  | double
  | text
  | bytes
  deriving DecidableEq, Repr

/-- The value of a type that a word stands for. -/
def WordKind.ofWord (type : WordKind) (word : UInt64) : Typed :=
  match type with
  | uint64 => .uint64 (Scalar.ofWord word)
  | int64 => .int64 (Scalar.ofWord word)
  | uint32 => .uint32 (Scalar.ofWord word)
  | int32 => .int32 (Scalar.ofWord word)
  | bool => .bool (Scalar.ofWord word)
  | temporality => .temporality (Scalar.ofWord word)
  | buildIdKind => .buildIdKind (Scalar.ofWord word)

/-- The list of values of a type that words stand for. -/
def WordKind.ofWords (type : WordKind) (words : List UInt64) : Typed :=
  match type with
  | uint64 => .uint64s (words.map Scalar.ofWord)
  | int64 => .int64s (words.map Scalar.ofWord)
  | uint32 => .uint32s (words.map Scalar.ofWord)
  | int32 => .int32s (words.map Scalar.ofWord)
  | bool => .bools (words.map Scalar.ofWord)
  | temporality => .temporalities (words.map Scalar.ofWord)
  | buildIdKind => .buildIdKinds (words.map Scalar.ofWord)

/-- The default of a type that travels as one word. -/
def WordKind.default : WordKind → Typed
  | uint64 => .uint64 0
  | int64 => .int64 0
  | uint32 => .uint32 0
  | int32 => .int32 0
  | bool => .bool false
  | temporality => .temporality .unspecified
  | buildIdKind => .buildIdKind .linker

namespace Kind

/-- The wire type that all values of a type travel as. -/
def wireType : Kind → WireType
  | one _ => .varint
  | fixed64 | double => .fixed64
  | list _ | text | bytes => .delimited

/-- The default of a type.  Of the doubles it is the one without any bit set. -/
def default : Kind → Typed
  | one type => type.default
  | list type => type.ofWords []
  | fixed64 => .fixed64 0
  | double => .double 0
  | text => .text ""
  | bytes => .bytes []

end Kind

namespace Typed

/-- The type of a value. -/
def kind : Typed → Kind
  | uint64 _ => .one .uint64
  | int64 _ => .one .int64
  | uint32 _ => .one .uint32
  | int32 _ => .one .int32
  | bool _ => .one .bool
  | temporality _ => .one .temporality
  | buildIdKind _ => .one .buildIdKind
  | fixed64 _ => .fixed64
  | double _ => .double
  | text _ => .text
  | bytes _ => .bytes
  | uint64s _ => .list .uint64
  | int64s _ => .list .int64
  | uint32s _ => .list .uint32
  | int32s _ => .list .int32
  | bools _ => .list .bool
  | temporalities _ => .list .temporality
  | buildIdKinds _ => .list .buildIdKind

/-- The value of a type that a payload stands for. -/
def ofRaw? (kind : Kind) (raw : Raw) : Option Typed :=
  match kind, raw with
  | .one type, .varint word => some (type.ofWord word)
  | .list type, .delimited body => (readWords? body).map type.ofWords
  | .fixed64, .fixed64 word => some (.fixed64 word)
  | .double, .fixed64 word => some (.double word)
  | .text, .delimited body => (ofUtf8? body).map .text
  | .bytes, .delimited body => some (.bytes body)
  | _, _ => none

/-- Reads a value of a type from the front of an input, and the unread rest. -/
def read? (kind : Kind) (input : Bytes) : Option (Typed × Bytes) :=
  match readPayload? kind.wireType.keyType input with
  | none => none
  | some (raw, rest) => (ofRaw? kind raw).map fun x => (x, rest)

end Typed

/-! ## One payload -/

namespace Value

/-- What a reader sees of a value before its type is known. -/
def raw : Value → Raw
  | varint word => .varint word
  | fixed64 word => .fixed64 word
  | value => .delimited value.encode

lemma wireType_raw (value : Value) : value.raw.wireType = value.wireType := by
  cases value <;> rfl

/-- A value is written as its payload, with its length where it has one. -/
lemma bytes_raw (value : Value) :
    value.raw.bytes = value.wireType.prefixBytes value.size ++ value.encode := by
  cases value with
  | varint word =>
      rw [encode_varint, Varint.write_eq_ofNat]
      rfl
  | fixed64 word =>
      rw [encode_fixed64]
      rfl
  | text t => exact (prefixBytes_append_encode rfl).symm
  | bytes b => exact (prefixBytes_append_encode rfl).symm
  | packed words => exact (prefixBytes_append_encode rfl).symm
  | message fields => exact (prefixBytes_append_encode rfl).symm

lemma plain_raw {value : Value}
    (h : value.wireType = .delimited → value.encode.length < 2 ^ 64) : value.raw.Plain := by
  cases value with
  | varint word => trivial
  | fixed64 word => trivial
  | _ => exact h rfl

end Value

lemma Field.encode_present {number : UInt32} (value : Value) (h : number.toNat < 2 ^ 29) :
    (Field.present number value).encode =
      keyBytes number.toNat value.wireType ++ value.raw.bytes := by
  rw [Field.present, Field.encode_mk, Bool.false_and, if_neg Bool.false_ne_true, write_key _ h,
    List.append_assoc, value.bytes_raw]

namespace Typed

lemma wireType_value (x : Typed) : x.value.wireType = x.kind.wireType := by
  cases x <;> rfl

lemma ofRaw?_scalar {α : Type} [Scalar α] [LawfulScalar α] {type : WordKind} {make : α → Typed}
    (h : ∀ word, type.ofWord word = make (Scalar.ofWord word)) (x : α) :
    ofRaw? (.one type) (Value.scalar x).raw = some (make x) := by
  show some (type.ofWord (Scalar.word x)) = _
  rw [h, LawfulScalar.ofWord_word]

lemma ofRaw?_scalars {α : Type} [Scalar α] [LawfulScalar α] {type : WordKind}
    {make : List α → Typed} (h : ∀ words, type.ofWords words = make (words.map Scalar.ofWord))
    (xs : List α) : ofRaw? (.list type) (Value.scalars xs).raw = some (make xs) := by
  show (readWords? (Value.packed (xs.map Scalar.word)).encode).map type.ofWords = _
  have hbody : (Value.packed (xs.map Scalar.word)).encode =
      (xs.map Scalar.word).flatMap fun word => Varint.ofNat word.toNat := by
    rw [Value.encode_packed]
    exact congrArg (List.flatMap · _) (funext Varint.write_eq_ofNat)
  rw [hbody, readWords?_flatMap, Option.map_some, h, Scalar.map_ofWord_map_word]

/-- **A payload stands for the value that it was written for.** -/
theorem ofRaw?_raw (x : Typed) : ofRaw? x.kind x.value.raw = some x := by
  cases x with
  | uint64 n => exact ofRaw?_scalar (fun _ => rfl) n
  | int64 n => exact ofRaw?_scalar (fun _ => rfl) n
  | uint32 n => exact ofRaw?_scalar (fun _ => rfl) n
  | int32 n => exact ofRaw?_scalar (fun _ => rfl) n
  | bool b => exact ofRaw?_scalar (fun _ => rfl) b
  | temporality t => exact ofRaw?_scalar (fun _ => rfl) t
  | buildIdKind k => exact ofRaw?_scalar (fun _ => rfl) k
  | fixed64 n => rfl
  | double bits => rfl
  | text s =>
      show (ofUtf8? (Value.text s).encode).map text = _
      rw [Value.encode_text, ofUtf8?_utf8, Option.map_some]
  | bytes b =>
      show some (bytes (Value.bytes b).encode) = _
      rw [Value.encode_bytes]
  | uint64s ns => exact ofRaw?_scalars (fun _ => rfl) ns
  | int64s ns => exact ofRaw?_scalars (fun _ => rfl) ns
  | uint32s ns => exact ofRaw?_scalars (fun _ => rfl) ns
  | int32s ns => exact ofRaw?_scalars (fun _ => rfl) ns
  | bools bs => exact ofRaw?_scalars (fun _ => rfl) bs
  | temporalities ts => exact ofRaw?_scalars (fun _ => rfl) ts
  | buildIdKinds ks => exact ofRaw?_scalars (fun _ => rfl) ks

/-- The payload of a value is read back, and what follows it is left. -/
lemma read?_bytes_raw (x : Typed) (rest : Bytes)
    (h : x.kind.wireType = .delimited → x.value.encode.length < 2 ^ 64) :
    read? x.kind (x.value.raw.bytes ++ rest) = some (x, rest) := by
  rw [← x.wireType_value] at h
  rw [read?, ← x.wireType_value, ← x.value.wireType_raw,
    readPayload?_bytes (Value.plain_raw h) rest]
  simp only [ofRaw?_raw, Option.map_some]

/-- A 32-bit number is written as the 64-bit number of the same value. -/
lemma value_int32 (n : Int32) : (int32 n).value = (int64 n.toInt64).value := rfl

/-! ## Defaults -/

lemma isDefault_scalar {α : Type} [Scalar α] [LawfulScalar α] (x : α) :
    (Value.scalar x).isDefault = true ↔ x = Scalar.ofWord 0 := by
  rw [← Scalar.word_eq_zero_iff]
  exact beq_iff_eq

lemma isDefault_scalars {α : Type} [Scalar α] (xs : List α) :
    (Value.scalars xs).isDefault = true ↔ xs = [] := by
  show (xs.map Scalar.word).isEmpty = true ↔ _
  rw [List.isEmpty_iff, List.map_eq_nil_iff]

/-- **A value counts as the default exactly if it is the default of its type.** -/
theorem isDefault_value_iff (x : Typed) : x.value.isDefault = true ↔ x = x.kind.default := by
  cases x with
  | uint64 n => exact (isDefault_scalar n).trans ⟨congrArg uint64, uint64.inj⟩
  | int64 n => exact (isDefault_scalar n).trans ⟨congrArg int64, int64.inj⟩
  | uint32 n => exact (isDefault_scalar n).trans ⟨congrArg uint32, uint32.inj⟩
  | int32 n => exact (isDefault_scalar n).trans ⟨congrArg int32, int32.inj⟩
  | bool b => exact (isDefault_scalar b).trans ⟨congrArg bool, bool.inj⟩
  | temporality t => exact (isDefault_scalar t).trans ⟨congrArg temporality, temporality.inj⟩
  | buildIdKind k => exact (isDefault_scalar k).trans ⟨congrArg buildIdKind, buildIdKind.inj⟩
  | fixed64 n => exact beq_iff_eq.trans ⟨congrArg fixed64, fixed64.inj⟩
  | double bits => exact beq_iff_eq.trans ⟨congrArg double, double.inj⟩
  | text s => exact String.isEmpty_iff.trans ⟨congrArg text, text.inj⟩
  | bytes b => exact List.isEmpty_iff.trans ⟨congrArg bytes, bytes.inj⟩
  | uint64s ns => exact (isDefault_scalars ns).trans ⟨congrArg uint64s, uint64s.inj⟩
  | int64s ns => exact (isDefault_scalars ns).trans ⟨congrArg int64s, int64s.inj⟩
  | uint32s ns => exact (isDefault_scalars ns).trans ⟨congrArg uint32s, uint32s.inj⟩
  | int32s ns => exact (isDefault_scalars ns).trans ⟨congrArg int32s, int32s.inj⟩
  | bools bs => exact (isDefault_scalars bs).trans ⟨congrArg bools, bools.inj⟩
  | temporalities ts =>
      exact (isDefault_scalars ts).trans ⟨congrArg temporalities, temporalities.inj⟩
  | buildIdKinds ks => exact (isDefault_scalars ks).trans ⟨congrArg buildIdKinds, buildIdKinds.inj⟩

/-! ## One field -/

/-- What a reader of the wire format makes of a field with a value, and what becomes of the field
where defaults are omitted. -/
structure Delimited (number : UInt32) (x : Typed) : Prop where
  /-- The number and the wire type of the type are found, then the value, and what follows the
  field is left, whatever it is.  A 32-bit number is also found as the 64-bit number of the same
  value. -/
  read : ∀ rest : Bytes, ∃ payload : Bytes,
    readKey? ((Field.present number x.value).encode ++ rest) =
        some ((number.toNat, x.kind.wireType.keyType), payload) ∧
      read? x.kind payload = some (x, rest) ∧
      ∀ n : Int32, x = .int32 n → read? (.one .int64) payload = some (.int64 n.toInt64, rest)
  /-- Any value but the default of the type is written the same. -/
  kept : x ≠ x.kind.default →
    (Field.omitting number x.value).encode = (Field.present number x.value).encode ∧
      (Field.omitting number x.value).size = (Field.present number x.value).size
  /-- The default of the type is not written, and takes no room. -/
  omitted : x = x.kind.default →
    (Field.omitting number x.value).encode = [] ∧ (Field.omitting number x.value).size = 0

/-- **A field is read back on its own**, with any number that a key has room for. -/
theorem field_read_back {number : UInt32} (x : Typed) (hpos : 0 < number.toNat)
    (hlt : number.toNat < 2 ^ 29)
    (hlen : x.kind.wireType = .delimited → x.value.encode.length < 2 ^ 64) :
    Delimited number x where
  read rest := by
    refine ⟨x.value.raw.bytes ++ rest, ?_, x.read?_bytes_raw rest hlen, ?_⟩
    · rw [Field.encode_present _ hlt, List.append_assoc, readKey?_keyBytes _ _ hpos hlt,
        wireType_value]
    · rintro n rfl
      rw [value_int32]
      exact (int64 n.toInt64).read?_bytes_raw rest nofun
  kept hx := by
    have hdefault : x.value.isDefault = false := by
      rwa [Bool.eq_false_iff, ne_eq, isDefault_value_iff]
    rw [Field.omitting, Field.present, Field.encode_mk, Field.encode_mk, Field.size_mk,
      Field.size_mk, hdefault]
    exact ⟨rfl, rfl⟩
  omitted hx := by
    have hdefault : x.value.isDefault = true := x.isDefault_value_iff.mpr hx
    rw [Field.omitting, Field.encode_mk, Field.size_mk, hdefault]
    exact ⟨rfl, rfl⟩

/-- A packed list under the highest number: its length, then ten bytes for a negative number and
two for another. -/
theorem field_read_back_highest :
    (0 < (536870911 : UInt32).toNat ∧ (536870911 : UInt32).toNat < 2 ^ 29 ∧
      (Typed.int32s [-1, 300]).value.encode.length = 12) ∧
      Delimited 536870911 (.int32s [-1, 300]) :=
  have hlen : (Typed.int32s [-1, 300]).value.encode.length = 12 := by decide +kernel
  ⟨⟨by decide, by decide, hlen⟩,
    field_read_back (.int32s [-1, 300]) (by decide) (by decide) fun _ => by rw [hlen]; decide⟩

/-- Negative zero is not the default of the doubles. -/
example : (Field.omitting 2 (double 0x8000000000000000).value).encode =
    [0x11, 0, 0, 0, 0, 0, 0, 0, 0x80] := by
  decide +kernel

end Typed

end ProfilePipeline.Wire
