import Mathlib.Tactic.Common
import ProfilePipeline.Otlp.Message
import ProfilePipeline.Proofs.Wire.Varint

/-!
# The size pass and the write pass agree

A message is measured by one account of its layout and written by another.  This file brings the
two together for every list of fields, and with that for every message type.

**Writing is pouring.**  `Field.writeAll_eq_put` says that a sink can only tell what bytes a message
has, so everything about the write pass is a statement about `Field.encodeAll`, which the equations
`Field.encodeAll_cons` and `Field.encode_mk` take apart.

**Sizes.**  `Field.measure_eq` is the agreement as such.  The size pass computes modulo `2 ^ 64`, so
the number of bytes is a word there; `Field.toNat_measure` is what remains of it below that bound.

**Frames.**  `Field.Framed` states the layout from the reader's side, with the lengths in front as
numbers that a reader finds there; `Field.framed_encodeAll` says that what is written has it.
-/

namespace ProfilePipeline.Wire

namespace Sink

lemma accepted_put_fresh (b : Bytes) : ((fresh none).put b).accepted.toList = b := by
  simp [fresh, put]

end Sink

/-! ## Writing is pouring -/

lemma writeVarint_eq_put (word : UInt64) (s : Sink) :
    writeVarint word s = s.put (Varint.write word) :=
  Sink.putEach_eq_put s _

/-- The bytes of the length `len` in front of a value that has one. -/
def WireType.prefixBytes (type : WireType) (len : UInt64) : Bytes :=
  match type with
  | delimited => Varint.write len
  | varint | fixed64 => []

lemma WireType.writePrefix_eq_put (type : WireType) (len : UInt64) (s : Sink) :
    type.writePrefix len s = s.put (type.prefixBytes len) := by
  cases type with
  | delimited => exact writeVarint_eq_put len s
  | varint => exact (Sink.put_nil s).symm
  | fixed64 => exact (Sink.put_nil s).symm

lemma foldl_writeVarint (words : List UInt64) (s : Sink) :
    words.foldl (fun s word => writeVarint word s) s = s.put (words.flatMap Varint.write) := by
  induction words generalizing s with
  | nil => exact (Sink.put_nil s).symm
  | cons word words ih =>
      rw [List.foldl_cons, ih, writeVarint_eq_put, Sink.put_put, List.flatMap_cons]

mutual

/-- Whatever extents a value is written with, it is poured into the sink as one chunk. -/
theorem Value.exists_writeAt_eq_put :
    ∀ (value : Value) (e : Extent), ∃ b, ∀ s, value.writeAt e s = s.put b
  | .varint word, _ => ⟨_, fun s => writeVarint_eq_put word s⟩
  | .fixed64 word, _ => ⟨littleEndian word, fun _ => rfl⟩
  | .text t, _ => ⟨utf8 t, fun _ => rfl⟩
  | .bytes b, _ => ⟨b, fun _ => rfl⟩
  | .packed words, _ => ⟨_, fun s => foldl_writeVarint words s⟩
  | .message fields, e => Field.exists_writeAllAt_eq_put fields e.inner

/-- So are the fields of a message. -/
theorem Field.exists_writeAllAt_eq_put :
    ∀ (fields : List Field) (es : List Extent), ∃ b, ∀ s, Field.writeAllAt fields es s = s.put b
  | [], _ => ⟨[], fun s => (Sink.put_nil s).symm⟩
  | _ :: _, [] => ⟨[], fun s => (Sink.put_nil s).symm⟩
  | .mk number omitsDefault value :: fields, e :: es => by
      obtain ⟨body, hbody⟩ := Value.exists_writeAt_eq_put value e
      obtain ⟨rest, hrest⟩ := Field.exists_writeAllAt_eq_put fields es
      by_cases h : (omitsDefault && value.isDefaultAt e.size) = true
      · refine ⟨rest, fun s => ?_⟩
        rw [Field.writeAllAt, Field.writeAt, if_pos h, hrest]
      · refine ⟨Varint.write (key number value.wireType) ++ value.wireType.prefixBytes e.size ++
          body ++ rest, fun s => ?_⟩
        rw [Field.writeAllAt, Field.writeAt, if_neg h, hrest]
        simp only [hbody, WireType.writePrefix_eq_put, writeVarint_eq_put, Sink.put_put]

end

/-- **A value is poured into the sink as one chunk.** -/
theorem Value.writeTo_eq_put (value : Value) (s : Sink) : value.writeTo s = s.put value.encode := by
  obtain ⟨b, hb⟩ := value.exists_writeAt_eq_put value.extent
  rw [Value.encode, Value.writeTo, Value.writeTo, hb, hb, Sink.accepted_put_fresh]

/-- **A message is poured into the sink as one chunk.** -/
theorem Field.writeAll_eq_put (fields : List Field) (s : Sink) :
    Field.writeAll fields s = s.put (Field.encodeAll fields) := by
  obtain ⟨b, hb⟩ := Field.exists_writeAllAt_eq_put fields (Field.extents fields)
  rw [Field.encodeAll, Field.writeAll, Field.writeAll, hb, hb, Sink.accepted_put_fresh]

/-! ## The bytes, part by part -/

lemma Value.encode_varint (word : UInt64) : (Value.varint word).encode = Varint.write word := by
  show (writeVarint word (.fresh none)).accepted.toList = _
  rw [writeVarint_eq_put, Sink.accepted_put_fresh]

lemma Value.encode_fixed64 (word : UInt64) : (Value.fixed64 word).encode = littleEndian word :=
  Sink.accepted_put_fresh _

lemma Value.encode_text (t : String) : (Value.text t).encode = utf8 t := Sink.accepted_put_fresh _

lemma Value.encode_bytes (b : Bytes) : (Value.bytes b).encode = b := Sink.accepted_put_fresh _

lemma Value.encode_packed (words : List UInt64) :
    (Value.packed words).encode = words.flatMap Varint.write := by
  show (words.foldl (fun s word => writeVarint word s) (.fresh none)).accepted.toList = _
  rw [foldl_writeVarint, Sink.accepted_put_fresh]

lemma Value.encode_message (fields : List Field) :
    (Value.message fields).encode = Field.encodeAll fields := by
  rw [Value.encode, Value.writeTo_message, Field.encodeAll]

/-- A field is its key, the length of its value where there is one, and its value. -/
lemma Field.encode_mk (number : UInt32) (omitsDefault : Bool) (value : Value) :
    Field.encode ⟨number, omitsDefault, value⟩ =
      if omitsDefault && value.isDefault then []
      else Varint.write (key number value.wireType) ++ value.wireType.prefixBytes value.size ++
        value.encode := by
  rw [Field.encode, Field.writeTo_mk]
  split
  · rfl
  · simp only [Value.writeTo_eq_put, WireType.writePrefix_eq_put, writeVarint_eq_put, Sink.put_put,
      Sink.accepted_put_fresh]

lemma Field.writeTo_eq_put (field : Field) (s : Sink) : field.writeTo s = s.put field.encode := by
  obtain ⟨number, omitsDefault, value⟩ := field
  rw [Field.encode_mk, Field.writeTo_mk]
  split
  · exact (Sink.put_nil s).symm
  · simp only [Value.writeTo_eq_put, WireType.writePrefix_eq_put, writeVarint_eq_put, Sink.put_put]

@[simp] lemma Field.encodeAll_nil : Field.encodeAll [] = [] := by
  rw [Field.encodeAll, Field.writeAll_nil]
  rfl

lemma Field.encodeAll_cons (field : Field) (fields : List Field) :
    Field.encodeAll (field :: fields) = field.encode ++ Field.encodeAll fields := by
  rw [Field.encodeAll, Field.writeAll_cons, Field.writeAll_eq_put, Field.writeTo_eq_put,
    Sink.put_put, Sink.accepted_put_fresh]

/-! ## The sizes, part by part -/

lemma Field.total_eq (len : UInt64) (fields : List Field) (es : List Extent) :
    Field.total len fields es = len + Field.total 0 fields es := by
  induction fields generalizing len es with
  | nil => simp [Field.total]
  | cons field fields ih =>
      cases es with
      | nil => simp [Field.total]
      | cons e es =>
          rw [Field.total, Field.total, ih, ih (0 + _)]
          simp [UInt64.add_assoc]

@[simp] lemma Field.measure_nil : Field.measure [] = 0 := rfl

lemma Field.measure_cons (field : Field) (fields : List Field) :
    Field.measure (field :: fields) = field.size + Field.measure fields := by
  obtain ⟨number, omitsDefault, value⟩ := field
  show Field.total (0 + _) fields (Field.extents fields) = _
  rw [Field.total_eq, UInt64.zero_add]
  rfl

/-- Counting the fields of a message one after the other, as they are met. -/
lemma Field.foldl_size (len : UInt64) (fields : List Field) :
    fields.foldl (fun len field => len + field.size) len = len + Field.measure fields := by
  induction fields generalizing len with
  | nil => simp
  | cons field fields ih => rw [List.foldl_cons, ih, Field.measure_cons, UInt64.add_assoc]

lemma Field.size_mk (number : UInt32) (omitsDefault : Bool) (value : Value) :
    Field.size ⟨number, omitsDefault, value⟩ =
      if omitsDefault && value.isDefault then 0
      else Varint.size (key number value.wireType) + value.wireType.prefixSize value.size +
        value.size := rfl

/-! ## Agreement -/

lemma toUInt64_add (a b : Nat) : (a + b).toUInt64 = a.toUInt64 + b.toUInt64 := UInt64.ofNat_add a b

lemma Varint.size_eq (word : UInt64) : size word = (write word).length.toUInt64 := by
  rw [← toNat_size_eq_length_write]
  exact UInt64.ofNat_toNat.symm

lemma WireType.prefixSize_eq (type : WireType) (len : UInt64) :
    type.prefixSize len = (type.prefixBytes len).length.toUInt64 := by
  cases type with
  | delimited => exact Varint.size_eq len
  | varint => rfl
  | fixed64 => rfl

lemma foldl_varint_size (words : List UInt64) (len : UInt64) :
    words.foldl (fun n word => n + Varint.size word) len =
      len + (words.flatMap Varint.write).length.toUInt64 := by
  induction words generalizing len with
  | nil => simp
  | cons word words ih =>
      rw [List.foldl_cons, ih, List.flatMap_cons, List.length_append, toUInt64_add, Varint.size_eq,
        UInt64.add_assoc]

mutual

/-- **The size of a value is the number of bytes it is written as**, in the arithmetic of words. -/
theorem Value.size_eq : ∀ value : Value, value.size = value.encode.length.toUInt64
  | .varint word => by
      rw [Value.encode_varint]
      exact Varint.size_eq word
  | .fixed64 word => by
      rw [Value.encode_fixed64]
      rfl
  | .text t => by
      rw [Value.encode_text]
      rfl
  | .bytes b => by
      rw [Value.encode_bytes]
      rfl
  | .packed words => by
      rw [Value.encode_packed]
      show words.foldl (fun n word => n + Varint.size word) 0 = _
      rw [foldl_varint_size, UInt64.zero_add]
  | .message fields => by
      rw [Value.encode_message, Value.size_message]
      exact Field.measure_eq fields

/-- **The size of the fields of a message is the number of bytes they are written as**, in the
arithmetic of words. -/
theorem Field.measure_eq :
    ∀ fields : List Field, Field.measure fields = (Field.encodeAll fields).length.toUInt64
  | [] => by simp
  | .mk number omitsDefault value :: fields => by
      rw [Field.measure_cons, Field.encodeAll_cons, List.length_append, toUInt64_add,
        Field.measure_eq fields, Field.size_mk, Field.encode_mk]
      split
      · rfl
      · rw [List.length_append, List.length_append, toUInt64_add, toUInt64_add, Varint.size_eq,
          WireType.prefixSize_eq, Value.size_eq value]

end

lemma toNat_toUInt64_of_lt {n : Nat} (h : n < 2 ^ 64) : n.toUInt64.toNat = n := by
  show n % 2 ^ 64 = n
  exact Nat.mod_eq_of_lt h

lemma Value.toNat_size (value : Value) (h : value.encode.length < 2 ^ 64) :
    value.size.toNat = value.encode.length := by
  rw [Value.size_eq, toNat_toUInt64_of_lt h]

lemma Field.toNat_measure (fields : List Field) (h : (Field.encodeAll fields).length < 2 ^ 64) :
    (Field.measure fields).toNat = (Field.encodeAll fields).length := by
  rw [Field.measure_eq, toNat_toUInt64_of_lt h]

/-! ## Frames -/

/-- `front` is read as the number of bytes of `body`, whatever follows. -/
def Announces (front body : Bytes) : Prop :=
  ∃ len : UInt64, len.toNat = body.length ∧
    ∀ rest, Varint.read? (front ++ rest) = some (len, rest)

mutual

/-- The payload of a value, in which every length is right at every depth. -/
inductive Value.Framed : Value → Bytes → Prop where
  | varint (word : UInt64) : Value.Framed (.varint word) (Varint.write word)
  | fixed64 (word : UInt64) : Value.Framed (.fixed64 word) (littleEndian word)
  | text (s : String) : Value.Framed (.text s) (utf8 s)
  | bytes (b : Bytes) : Value.Framed (.bytes b) b
  | packed (words : List UInt64) : Value.Framed (.packed words) (words.flatMap Varint.write)
  | message {fields : List Field} {body : Bytes} (inner : Field.Framed fields body) :
      Value.Framed (.message fields) body

/-- The fields of a message one after the other, in which every length is right at every depth.
Texts, byte strings, packed lists and messages are announced by their length; nothing else is. -/
inductive Field.Framed : List Field → Bytes → Prop where
  | nil : Field.Framed [] []
  | skipped {number : UInt32} {value : Value} {fields : List Field} {rest : Bytes}
      (default : value.isDefault = true) (next : Field.Framed fields rest) :
      Field.Framed (⟨number, true, value⟩ :: fields) rest
  | plain {number : UInt32} {omitsDefault : Bool} {value : Value} {fields : List Field}
      {body rest : Bytes} (kept : (omitsDefault && value.isDefault) = false)
      (type : value.wireType ≠ .delimited) (inner : Value.Framed value body)
      (next : Field.Framed fields rest) :
      Field.Framed (⟨number, omitsDefault, value⟩ :: fields)
        (Varint.write (key number value.wireType) ++ body ++ rest)
  | delimited {number : UInt32} {omitsDefault : Bool} {value : Value} {fields : List Field}
      {front body rest : Bytes} (kept : (omitsDefault && value.isDefault) = false)
      (type : value.wireType = .delimited) (length : Announces front body)
      (inner : Value.Framed value body) (next : Field.Framed fields rest) :
      Field.Framed (⟨number, omitsDefault, value⟩ :: fields)
        (Varint.write (key number value.wireType) ++ front ++ body ++ rest)

end

lemma announces_size {value : Value} (h : value.encode.length < 2 ^ 64) :
    Announces (Varint.write value.size) value.encode :=
  ⟨value.size, value.toNat_size h, Varint.read?_write value.size⟩

mutual

theorem Value.framed_encode :
    ∀ value : Value, value.encode.length < 2 ^ 64 → value.Framed value.encode
  | .varint word, _ => by rw [Value.encode_varint]; exact .varint word
  | .fixed64 word, _ => by rw [Value.encode_fixed64]; exact .fixed64 word
  | .text t, _ => by rw [Value.encode_text]; exact .text t
  | .bytes b, _ => by rw [Value.encode_bytes]; exact .bytes b
  | .packed words, _ => by rw [Value.encode_packed]; exact .packed words
  | .message fields, h => by
      rw [Value.encode_message] at h ⊢
      exact .message (Field.framed_encodeAll fields h)

/-- **What is written is framed.** -/
theorem Field.framed_encodeAll :
    ∀ fields : List Field, (Field.encodeAll fields).length < 2 ^ 64 →
      Field.Framed fields (Field.encodeAll fields)
  | [], _ => by rw [Field.encodeAll_nil]; exact .nil
  | .mk number omitsDefault value :: fields, h => by
      rw [Field.encodeAll_cons, List.length_append, Field.encode_mk] at h
      rw [Field.encodeAll_cons, Field.encode_mk]
      have hrest := Field.framed_encodeAll fields (by omega)
      cases hkept : (omitsDefault && value.isDefault) with
      | true =>
          obtain ⟨rfl, hdefault⟩ := Bool.and_eq_true_iff.mp hkept
          exact .skipped hdefault hrest
      | false =>
          simp only [hkept, Bool.false_eq_true, ↓reduceIte, List.length_append] at h ⊢
          have hlt : value.encode.length < 2 ^ 64 := by omega
          have hvalue := Value.framed_encode value hlt
          by_cases htype : value.wireType = .delimited
          · have hfront : value.wireType.prefixBytes value.size = Varint.write value.size := by
              rw [htype]; rfl
            rw [hfront]
            exact .delimited hkept htype (announces_size hlt) hvalue hrest
          · have hfront : value.wireType.prefixBytes value.size = [] := by
              cases hw : value.wireType with
              | delimited => exact absurd hw htype
              | varint => rfl
              | fixed64 => rfl
            rw [hfront, List.append_nil]
            exact .plain hkept htype hvalue hrest

end

/-! ## Messages -/

section Message

variable {α : Type} [Message α]

lemma Message.toNat_size (m : α) (h : (Message.encode m).length < 2 ^ 64) :
    (Message.size m).toNat = (Message.encode m).length :=
  Field.toNat_measure (Message.fields m) h

lemma Message.size_eq_zero_iff (m : α) (h : (Message.encode m).length < 2 ^ 64) :
    Message.size m = 0 ↔ Message.encode m = [] := by
  rw [← UInt64.toNat_inj, Message.toNat_size m h]
  exact List.length_eq_zero_iff

/-- A message is the default of its type when it measures as empty. -/
lemma Message.isDefault_value (m : α) :
    (Message.value m).isDefault = true ↔ Message.size m = 0 := by
  show ((Value.message (Message.fields m)).size == 0) = true ↔ _
  rw [Value.size_message, beq_iff_eq]
  rfl

/-- **The two passes over a message agree.**  The size that is measured ahead, also by counting
field after field from nothing, is the number of bytes that are written; a message measures as
empty, and is the default of its type, exactly when nothing is written; and in what is written each
text, byte string, packed list and nested message comes after its length, at every depth. -/
theorem Message.passes_agree (m : α) (h : (Message.encode m).length < 2 ^ 64) :
    (Message.size m).toNat = (Message.encode m).length ∧
      (Message.fields m).foldl (fun len field => len + field.size) 0 = Message.size m ∧
      (Message.size m = 0 ↔ Message.encode m = []) ∧
      ((Message.value m).isDefault = true ↔ Message.encode m = []) ∧
      Field.Framed (Message.fields m) (Message.encode m) := by
  refine ⟨Message.toNat_size m h, ?_, Message.size_eq_zero_iff m h, ?_, ?_⟩
  · rw [Field.foldl_size, UInt64.zero_add]
    rfl
  · rw [Message.isDefault_value, Message.size_eq_zero_iff m h]
  · exact Field.framed_encodeAll (Message.fields m) h

end Message

/-- An attribute whose value nests lists, with an empty text and a number of ten digits inside. -/
def nestedLists : Otlp.KeyValue := ⟨"é", .array [.text "", .array [.int (-1)], .bytes [7]]⟩

theorem passes_agree_nestedLists :
    (Message.encode nestedLists).length < 2 ^ 64 ∧
      (Message.size nestedLists).toNat = (Message.encode nestedLists).length ∧
      (Message.fields nestedLists).foldl (fun len field => len + field.size) 0 =
        Message.size nestedLists ∧
      (Message.size nestedLists = 0 ↔ Message.encode nestedLists = []) ∧
      ((Message.value nestedLists).isDefault = true ↔ Message.encode nestedLists = []) ∧
      Field.Framed (Message.fields nestedLists) (Message.encode nestedLists) := by
  have h : (Message.encode nestedLists).length < 2 ^ 64 := by decide +kernel
  exact ⟨h, Message.passes_agree nestedLists h⟩

end ProfilePipeline.Wire
