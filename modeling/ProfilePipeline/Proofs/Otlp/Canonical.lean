import Mathlib.Tactic.Common
import ProfilePipeline.Otlp.Content
import ProfilePipeline.Proofs.Wire.Lengths
import ProfilePipeline.Proofs.Wire.Refusal
import ProfilePipeline.Proofs.Wire.Spelled
import ProfilePipeline.Proofs.Wire.Typed

/-!
# The messages are canonical

Every message type writes the canonical bytes of its content, and its content fits its descriptor.
So a reader that knows the descriptors finds the content again, or refuses the message for how deep
it nests.

**Scalars.**  `Travels` says that a word survives the reader's normalisation.  It holds because a
type reads back what it wrote, so a negative 32-bit number keeps all of its ten bytes.

**Messages.**  An instance of `Canonical` goes through the lines of one descriptor; a field that was
added, dropped, renumbered or swapped with its neighbour leaves no rule that applies.  From it,
`encode_eq_canonical` holds of every message type at once.

**Attribute values** nest without a bound, so theirs is an induction.
-/

namespace ProfilePipeline.Otlp

open Wire (Bytes Content Field Item LawfulScalar Message Scalar ScalarType Schema Slot Spelled Value)
open Wire.Field (omitting present)
open Wire.Message (repeated)
open Readable (scalar scalars one many)

/-! ## Descriptors -/

theorem schema_sound : schema.Sound where
  distinct name := by cases name <;> decide
  fits name := by cases name <;> decide

/-! ## Scalars -/

/-- A type of which a reader of a scalar type finds every value again. -/
class Travels (α : Type) [Scalar α] (type : outParam ScalarType) : Prop where
  normalize_word : ∀ x : α, type.normalize (Scalar.word x) = Scalar.word x

instance : Travels UInt64 .uint64 := ⟨fun _ => rfl⟩

instance : Travels Int64 .int64 := ⟨fun _ => rfl⟩

instance : Travels UInt32 .uint32 :=
  ⟨fun x => congrArg Scalar.word (LawfulScalar.ofWord_word x)⟩

instance : Travels Int32 .int32 :=
  ⟨fun x => congrArg Scalar.word (LawfulScalar.ofWord_word x)⟩

instance : Travels Bool .bool :=
  ⟨fun b => congrArg Scalar.word (LawfulScalar.ofWord_word b)⟩

instance : Travels Payload.AggregationTemporality .int32 :=
  ⟨fun t => Travels.normalize_word t.code⟩

instance : Travels Payload.BuildIdKind .int32 := ⟨fun k => Travels.normalize_word k.code⟩

/-! ## The rules for one line -/

/-- A message type that writes the canonical bytes of its content. -/
class Canonical (α : Type) [Message α] [Readable α] : Prop where
  spelled : ∀ m : α, Spelled schema (Message.fields m) (schema (Readable.name α)) (Readable.content m)

section Rules

variable {fields : List Field} {specs : List (Wire.FieldSpec MessageName)} {slots : Content}
  {name : String} {number : UInt32}

lemma Canonical.carries {α : Type} [Message α] [Readable α] [Canonical α] (m : α) :
    (Message.value m).Carries schema (.message (Readable.name α)) (.message (Readable.content m)) :=
  Value.carries_message schema_sound (Canonical.spelled m)

theorem spelled_scalar {α : Type} [Scalar α] {type : ScalarType} [Travels α type] (x : α)
    (hrest : Spelled schema fields specs slots) :
    Spelled schema (omitting number (.scalar x) :: fields)
      (⟨name, number.toNat, .singular, .scalar type⟩ :: specs) (scalar x :: slots) :=
  .omitting (Value.carries_varint (Travels.normalize_word x)) rfl hrest

theorem spelled_scalars {α : Type} [Scalar α] {type : ScalarType} [Travels α type] (xs : List α)
    (hrest : Spelled schema fields specs slots) :
    Spelled schema (omitting number (.scalars xs) :: fields)
      (⟨name, number.toNat, .repeated, .scalar type⟩ :: specs) (scalars xs :: slots) := by
  have hwords : ∀ word ∈ xs.map Scalar.word, type.normalize word = word := by
    intro word hword
    obtain ⟨x, -, rfl⟩ := List.mem_map.mp hword
    exact Travels.normalize_word x
  have hslot : scalars xs = (xs.map Scalar.word).map Item.word := by
    rw [List.map_map]
    rfl
  rw [hslot]
  exact .packed hwords hrest

theorem spelled_fixed64 (word : UInt64) (hrest : Spelled schema fields specs slots) :
    Spelled schema (omitting number (.fixed64 word) :: fields)
      (⟨name, number.toNat, .singular, .fixed64⟩ :: specs) ([.fixed64 word] :: slots) :=
  .omitting (Value.carries_fixed64 (.inl rfl)) rfl hrest

theorem spelled_text (t : String) (hrest : Spelled schema fields specs slots) :
    Spelled schema (omitting number (.text t) :: fields)
      (⟨name, number.toNat, .singular, .text⟩ :: specs) ([.text t] :: slots) :=
  .omitting (Value.carries_text t) rfl hrest

theorem spelled_bytes (b : Bytes) (hrest : Spelled schema fields specs slots) :
    Spelled schema (omitting number (.bytes b) :: fields)
      (⟨name, number.toNat, .singular, .bytes⟩ :: specs) ([.bytes b] :: slots) :=
  .omitting (Value.carries_bytes b) rfl hrest

theorem spelled_texts (ts : List String) (hrest : Spelled schema fields specs slots) :
    Spelled schema (ts.map (fun t => present number (.text t)) ++ fields)
      (⟨name, number.toNat, .repeated, .text⟩ :: specs) (ts.map .text :: slots) :=
  .each (fun t _ => Value.carries_text t) (fun _ h => nomatch h) hrest

variable {α : Type} [Message α] [Readable α] [Canonical α]

theorem spelled_many (ms : List α) (hrest : Spelled schema fields specs slots) :
    Spelled schema (repeated number ms ++ fields)
      (⟨name, number.toNat, .repeated, .message (Readable.name α)⟩ :: specs) (many ms :: slots) :=
  .each (fun m _ => Canonical.carries m) (fun _ h => nomatch h) hrest

theorem spelled_optional (m : Option α) (hrest : Spelled schema fields specs slots) :
    Spelled schema (repeated number m.toList ++ fields)
      (⟨name, number.toNat, .singular, .message (Readable.name α)⟩ :: specs)
      (many m.toList :: slots) :=
  .optional (fun m _ => Canonical.carries m) (by cases m <;> simp) hrest

theorem spelled_one (m : α) (hrest : Spelled schema fields specs slots) :
    Spelled schema (present number (Message.value m) :: fields)
      (⟨name, number.toNat, .singular, .message (Readable.name α)⟩ :: specs) (one m :: slots) :=
  spelled_optional (some m) hrest

end Rules

/-! ## Entities of a payload -/

instance : Canonical Payload.ValueType where
  spelled v :=
    spelled_scalar v.type <|
    spelled_scalar v.unit <|
    spelled_scalar v.aggregationTemporality .nil

instance : Canonical Payload.Label where
  spelled l :=
    spelled_scalar l.key <|
    spelled_scalar l.str <|
    spelled_scalar l.num <|
    spelled_scalar l.numUnit .nil

instance : Canonical Payload.Sample where
  spelled s := by
    show Spelled schema (_ :: _ :: (repeated 3 s.labels ++ _)) _ _
    exact
      spelled_scalars s.locationIndex <|
      spelled_scalars s.values <|
      spelled_many s.labels <|
      spelled_scalar s.locationsStartIndex <|
      spelled_scalar s.locationsLength <|
      spelled_scalar s.stacktraceIdIndex <|
      spelled_scalars s.attributes <|
      spelled_scalar s.link <|
      spelled_scalars s.timestampsUnixNano .nil

instance : Canonical Payload.Mapping where
  spelled m :=
    spelled_scalar m.id <|
    spelled_scalar m.memoryStart <|
    spelled_scalar m.memoryLimit <|
    spelled_scalar m.fileOffset <|
    spelled_scalar m.filename <|
    spelled_scalar m.buildId <|
    spelled_scalar m.hasFunctions <|
    spelled_scalar m.hasFilenames <|
    spelled_scalar m.hasLineNumbers <|
    spelled_scalar m.hasInlineFrames <|
    spelled_scalar m.buildIdKind <|
    spelled_scalars m.attributes .nil

instance : Canonical Payload.Line where
  spelled l :=
    spelled_scalar l.functionIndex <|
    spelled_scalar l.line <|
    spelled_scalar l.column .nil

instance : Canonical Payload.Location where
  spelled l := by
    show Spelled schema (_ :: _ :: _ :: (repeated 4 l.lines ++ _)) _ _
    exact
      spelled_scalar l.id <|
      spelled_scalar l.mappingIndex <|
      spelled_scalar l.address <|
      spelled_many l.lines <|
      spelled_scalar l.isFolded <|
      spelled_scalar l.typeIndex <|
      spelled_scalars l.attributes .nil

instance : Canonical Payload.Function where
  spelled f :=
    spelled_scalar f.id <|
    spelled_scalar f.name <|
    spelled_scalar f.systemName <|
    spelled_scalar f.filename <|
    spelled_scalar f.startLine .nil

instance : Canonical Payload.AttributeUnit where
  spelled u :=
    spelled_scalar u.attributeKey <|
    spelled_scalar u.unit .nil

instance : Canonical Link where
  spelled l :=
    spelled_bytes l.traceId <|
    spelled_bytes l.spanId .nil

/-! ## Attribute values -/

lemma AnyValue.elements_eq_map (values : List AnyValue) :
    AnyValue.elements values = values.map fun v => present 1 (.message v.fields) := by
  induction values with
  | nil => rfl
  | cons v values ih => rw [AnyValue.elements, ih, List.map_cons]

lemma AnyValue.contents_eq_map (values : List AnyValue) :
    AnyValue.contents values = values.map fun v => .message v.content := by
  induction values with
  | nil => rfl
  | cons v values ih => rw [AnyValue.contents, ih, List.map_cons]

/-- A list whose elements are carried, as a message of its own. -/
lemma AnyValue.spelled_elements {values : List AnyValue}
    (h : ∀ v ∈ values,
      (Value.message v.fields).Carries schema (.message .anyValue) (.message v.content)) :
    Spelled schema (AnyValue.elements values) (schema .arrayValue)
      [AnyValue.contents values] := by
  rw [AnyValue.elements_eq_map, AnyValue.contents_eq_map, ← List.append_nil (List.map _ values)]
  exact .each h (fun _ h => nomatch h) .nil

mutual

/-- **An attribute value sets the one member of the choice that it is of.** -/
theorem AnyValue.spelled : ∀ v : AnyValue, Spelled schema v.fields (schema .anyValue) v.content
  | .text s =>
      .member (Value.carries_text s) (by simp [Content.Unchosen]) <|
      .unset <| .unset <| .unset <| .unset <| .unset .nil
  | .bool b =>
      .unset <|
      .member (Value.carries_varint (Travels.normalize_word b)) (by simp [Content.Unchosen]) <|
      .unset <| .unset <| .unset <| .unset .nil
  | .int n =>
      .unset <| .unset <|
      .member (Value.carries_varint (Travels.normalize_word n)) (by simp [Content.Unchosen]) <|
      .unset <| .unset <| .unset .nil
  | .double x =>
      .unset <| .unset <| .unset <|
      .member (Value.carries_fixed64 (.inr rfl)) (by simp [Content.Unchosen]) <|
      .unset <| .unset .nil
  | .array values =>
      .unset <| .unset <| .unset <| .unset <|
      .member (Value.carries_message schema_sound
        (AnyValue.spelled_elements (AnyValue.carries_all values))) (by simp [Content.Unchosen]) <|
      .unset .nil
  | .bytes b =>
      .unset <| .unset <| .unset <| .unset <| .unset <|
      .member (Value.carries_bytes b) (by simp [Content.Unchosen]) .nil

/-- So do all values of a list. -/
theorem AnyValue.carries_all : ∀ values : List AnyValue, ∀ v ∈ values,
    (Value.message v.fields).Carries schema (.message .anyValue) (.message v.content)
  | [] => fun _ hv => absurd hv (by simp)
  | v :: values => List.forall_mem_cons.mpr
      ⟨Value.carries_message schema_sound (AnyValue.spelled v), AnyValue.carries_all values⟩

end

instance : Canonical AnyValue := ⟨AnyValue.spelled⟩

instance : Canonical ArrayValue :=
  ⟨fun a => AnyValue.spelled_elements (AnyValue.carries_all a.values)⟩

instance : Canonical KeyValue where
  spelled a := spelled_text a.key <| spelled_one a.value .nil

/-! ## Envelopes -/

instance : Canonical Profile where
  spelled p := by
    show Spelled schema (_ ++ _) _ _
    simp only [List.append_assoc]
    rw [← List.append_nil (repeated 18 p.linkTable)]
    exact
      spelled_many p.sampleType <|
      spelled_many p.sample <|
      spelled_many p.mapping <|
      spelled_many p.location <|
      spelled_many p.function <|
      spelled_texts p.stringTable <|
      spelled_scalar p.dropFrames <|
      spelled_scalar p.keepFrames <|
      spelled_scalar p.timeNanos <|
      spelled_scalar p.durationNanos <|
      spelled_optional p.periodType <|
      spelled_scalar p.period <|
      spelled_scalars p.comment <|
      spelled_scalar p.defaultSampleType <|
      spelled_scalars p.locationIndices <|
      spelled_many p.attributeTable <|
      spelled_many p.attributeUnits <|
      spelled_many p.linkTable .nil

instance : Canonical ResourceInfo where
  spelled r :=
    spelled_many r.attributes <|
    spelled_scalar r.droppedAttributesCount .nil

instance : Canonical ScopeInfo where
  spelled s := by
    show Spelled schema (_ :: _ :: (repeated 3 s.attributes ++ _)) _ _
    exact
      spelled_text s.name <|
      spelled_text s.version <|
      spelled_many s.attributes <|
      spelled_scalar s.droppedAttributesCount .nil

instance : Canonical Container where
  spelled c := by
    show Spelled schema (_ :: _ :: _ :: (repeated 4 c.attributes ++ _)) _ _
    exact
      spelled_bytes c.profileId <|
      spelled_fixed64 c.startTimeUnixNano <|
      spelled_fixed64 c.endTimeUnixNano <|
      spelled_many c.attributes <|
      spelled_scalar c.droppedAttributesCount <|
      spelled_text c.payloadFormat <|
      spelled_bytes c.payloadBytes <|
      spelled_one c.profile .nil

instance : Canonical ScopeProfiles where
  spelled s :=
    spelled_one s.scope <|
    spelled_many s.profiles <|
    spelled_text s.schemaUrl .nil

instance : Canonical ResourceProfiles where
  spelled r :=
    spelled_one r.resource <|
    spelled_many r.scopeProfiles <|
    spelled_text r.schemaUrl .nil

instance : Canonical ExportRequest where
  spelled r := by
    show Spelled schema (repeated 1 r.resourceProfiles) _ _
    rw [← List.append_nil (repeated 1 r.resourceProfiles)]
    exact spelled_many r.resourceProfiles .nil

/-! ## Canonical bytes -/

section Messages

variable {α : Type} [Message α] [Readable α] [Canonical α]

/-- **A message is written as the canonical bytes of its content**, whatever its type. -/
theorem encode_eq_canonical (m : α) :
    Message.encode m = canonical (Readable.name α) (Readable.content m) :=
  (Canonical.spelled m).encode fun spec hspec => (schema_sound.fits _ spec hspec).2

lemma canonicalLen_eq (name : MessageName) (content : Content) :
    canonicalLen name content = (canonical name content).length :=
  Content.encodedLen_eq schema_sound (schema name)
    (fun spec hspec => (schema_sound.fits name spec hspec).2) content

lemma size_eq_canonicalLen (m : α) :
    Message.size m = (canonicalLen (Readable.name α) (Readable.content m)).toUInt64 := by
  rw [canonicalLen_eq, ← encode_eq_canonical]
  exact Field.measure_eq (Message.fields m)

end Messages

/-- A descriptor lists its lines by number, so content that follows it is written in that order. -/
lemma schema_ascending (name : MessageName) :
    ((schema name).map Wire.FieldSpec.number).Pairwise (· < ·) := by
  cases name <;> decide

/-- A property of what a profile consists of, and of the profile itself. -/
structure ForEveryEntity (P : ∀ (α : Type) [Message α] [Readable α], Prop) : Prop where
  valueType : P Payload.ValueType
  label : P Payload.Label
  sample : P Payload.Sample
  mapping : P Payload.Mapping
  line : P Payload.Line
  location : P Payload.Location
  function : P Payload.Function
  attributeUnit : P Payload.AttributeUnit
  link : P Link
  anyValue : P AnyValue
  keyValue : P KeyValue
  profile : P Profile

/-- Every message of a type is written as the canonical bytes of its content; their number, counted
from the content alone, is the number of bytes written and, as a word, the size measured ahead. -/
def WrittenCanonically (α : Type) [Message α] [Readable α] : Prop :=
  ∀ m : α,
    Message.encode m = canonical (Readable.name α) (Readable.content m) ∧
      (Message.encode m).length = canonicalLen (Readable.name α) (Readable.content m) ∧
      Message.size m = (canonicalLen (Readable.name α) (Readable.content m)).toUInt64

lemma writtenCanonically (α : Type) [Message α] [Readable α] [Canonical α] :
    WrittenCanonically α := by
  intro m
  refine ⟨encode_eq_canonical m, ?_, size_eq_canonicalLen m⟩
  rw [encode_eq_canonical, canonicalLen_eq]

/-- **A profile and everything in it is written canonically**, in the order of the field numbers.
The layout of a message and its descriptor are separate accounts, and there is no message on which
they differ in a number, a wire type, the order or what is left out. -/
theorem entities_written_canonically :
    (∀ name, ((schema name).map Wire.FieldSpec.number).Pairwise (· < ·)) ∧
      ForEveryEntity WrittenCanonically where
  left := schema_ascending
  right :=
    { valueType := writtenCanonically _
      label := writtenCanonically _
      sample := writtenCanonically _
      mapping := writtenCanonically _
      line := writtenCanonically _
      location := writtenCanonically _
      function := writtenCanonically _
      attributeUnit := writtenCanonically _
      link := writtenCanonically _
      anyValue := writtenCanonically _
      keyValue := writtenCanonically _
      profile := writtenCanonically _ }

/-! ## Reading -/

/-- **The bytes of a message are read back or refused**, whatever its type. -/
theorem decode?_encode_eq {α : Type} [Message α] [Readable α] [Canonical α] (m : α)
    (hbytes : (Message.encode m).length < 2 ^ 64) :
    decode? (Readable.name α) (Message.encode m) =
      if (Readable.content m).depth ≤ Wire.depthLimit then some (Readable.content m) else none := by
  rw [encode_eq_canonical] at hbytes ⊢
  exact Content.decode?_encode_eq schema_sound (Canonical.spelled m).fits hbytes

/-- A message is read back from what it is written as, as long as messages in it nest no deeper than
a reader follows. -/
theorem decode?_encode {α : Type} [Message α] [Readable α] [Canonical α] (m : α)
    (hdepth : (Readable.content m).depth ≤ Wire.depthLimit)
    (hbytes : (Message.encode m).length < 2 ^ 64) :
    decode? (Readable.name α) (Message.encode m) = some (Readable.content m) := by
  rw [decode?_encode_eq m hbytes, if_pos hdepth]

/-- Every message of a type is read back, slot by slot, or refused for how deep it nests.  Lengths
are words of 64 bits, so there is no announcing more bytes than that. -/
def ReadsBack (α : Type) [Message α] [Readable α] : Prop :=
  ∀ m : α, (Message.encode m).length < 2 ^ 64 →
    ((Readable.content m).depth ≤ Wire.depthLimit →
      decode? (Readable.name α) (Message.encode m) = some (Readable.content m)) ∧
    (Wire.depthLimit < (Readable.content m).depth →
      decode? (Readable.name α) (Message.encode m) = none)

lemma readsBack (α : Type) [Message α] [Readable α] [Canonical α] : ReadsBack α := by
  intro m hbytes
  have hread := decode?_encode_eq m hbytes
  refine ⟨?_, ?_⟩
  · intro hdepth
    rwa [if_pos hdepth] at hread
  · intro hdeep
    rwa [if_neg (by omega)] at hread

/-- What a profile consists of, with the profile itself. -/
structure EntitiesReadBack : Prop where
  valueType : ReadsBack Payload.ValueType
  label : ReadsBack Payload.Label
  sample : ReadsBack Payload.Sample
  mapping : ReadsBack Payload.Mapping
  line : ReadsBack Payload.Line
  location : ReadsBack Payload.Location
  function : ReadsBack Payload.Function
  attributeUnit : ReadsBack Payload.AttributeUnit
  link : ReadsBack Link
  anyValue : ReadsBack AnyValue
  keyValue : ReadsBack KeyValue
  profile : ReadsBack Profile

/-- **Reading undoes writing** for a profile and everything in it. -/
theorem entities_read_back : EntitiesReadBack where
  valueType := readsBack _
  label := readsBack _
  sample := readsBack _
  mapping := readsBack _
  line := readsBack _
  location := readsBack _
  function := readsBack _
  attributeUnit := readsBack _
  link := readsBack _
  anyValue := readsBack _
  keyValue := readsBack _
  profile := readsBack _

/-- A value in lists of one element each. -/
def nested : Nat → AnyValue → AnyValue
  | 0, v => v
  | n + 1, v => .array [nested n v]

/-- Each list is two messages, so fifty are read back and one more is refused. -/
theorem entities_read_back_nested :
    decode? .anyValue (Message.encode (nested 50 (.int (-1)))) =
        some (Readable.content (nested 50 (.int (-1)))) ∧
      decode? .anyValue (Message.encode (nested 51 (.double ⟨0⟩))) = none := by
  have within := entities_read_back.anyValue (nested 50 (.int (-1))) (by decide +kernel)
  have beyond := entities_read_back.anyValue (nested 51 (.double ⟨0⟩)) (by decide +kernel)
  exact ⟨within.1 (by decide +kernel), beyond.2 (by decide +kernel)⟩

end ProfilePipeline.Otlp
