import Mathlib.Tactic.Common
import ProfilePipeline.Otlp.Request
import ProfilePipeline.Proofs.Wire.Passes

/-!
# Writing into too little room

A sink with limited room gets the beginning of a message and nothing else, and reports that exactly
if something is missing.

**Offers.**  `Message.offers` are the chunks that the write pass offers, in their order: single
digits, words of eight bytes, texts and byte strings, some of them empty.  The pass is a fold over
them (`Field.writeAllAt_eq_foldl`), so that there is nothing else that it does to a sink.

**The first refusal.**  A sink remembers that a chunk was cut short.  `Sink.offer` does not rely on
that but tells whoever offers a chunk, and in `Sink.foldlM_offer` a pass that ends with the first
refusal turns out to be the one that goes on.

**The beginning.**  `Message.cut_cleanly` is the main result.
-/

namespace ProfilePipeline.Wire

/-! ## Offers -/

/-- The digits of a word, offered one at a time. -/
def Varint.offers (word : UInt64) : List Bytes := (write word).map ([·])

/-- What is offered of the length `len` in front of a value. -/
def WireType.offers (type : WireType) (len : UInt64) : List Bytes :=
  match type with
  | delimited => Varint.offers len
  | varint | fixed64 => []

mutual

/-- What is offered of a value with the given extent. -/
def Value.offersAt : Value → Extent → List Bytes
  | .varint word, _ => Varint.offers word
  | .fixed64 word, _ => [littleEndian word]
  | .text t, _ => [utf8 t]
  | .bytes b, _ => [b]
  | .packed words, _ => words.flatMap Varint.offers
  | .message fields, e => Field.offersAt fields e.inner

/-- What is offered of the fields of a message, the extents of their values given. -/
def Field.offersAt : List Field → List Extent → List Bytes
  | .mk number omitsDefault value :: fields, e :: es =>
    (if omitsDefault && value.isDefaultAt e.size then []
      else Varint.offers (key number value.wireType) ++ value.wireType.offers e.size ++
        value.offersAt e) ++
      Field.offersAt fields es
  | _, _ => []

end

lemma writeVarint_eq_foldl (word : UInt64) (s : Sink) :
    writeVarint word s = (Varint.offers word).foldl Sink.put s := by
  rw [Varint.offers, List.foldl_map]
  rfl

lemma WireType.writePrefix_eq_foldl (type : WireType) (len : UInt64) (s : Sink) :
    type.writePrefix len s = (type.offers len).foldl Sink.put s := by
  cases type with
  | delimited => exact writeVarint_eq_foldl len s
  | varint => rfl
  | fixed64 => rfl

lemma foldl_writeVarint_eq_foldl (words : List UInt64) (s : Sink) :
    words.foldl (fun s word => writeVarint word s) s =
      (words.flatMap Varint.offers).foldl Sink.put s := by
  induction words generalizing s with
  | nil => rfl
  | cons word words ih =>
      rw [List.foldl_cons, ih, List.flatMap_cons, List.foldl_append, writeVarint_eq_foldl]

mutual

theorem Value.writeAt_eq_foldl :
    ∀ (value : Value) (e : Extent) (s : Sink),
      value.writeAt e s = (value.offersAt e).foldl Sink.put s
  | .varint word, _, s => writeVarint_eq_foldl word s
  | .fixed64 _, _, _ => rfl
  | .text _, _, _ => rfl
  | .bytes _, _, _ => rfl
  | .packed words, _, s => foldl_writeVarint_eq_foldl words s
  | .message fields, e, s => Field.writeAllAt_eq_foldl fields e.inner s

/-- **The write pass is a sequence of offers.** -/
theorem Field.writeAllAt_eq_foldl :
    ∀ (fields : List Field) (es : List Extent) (s : Sink),
      Field.writeAllAt fields es s = (Field.offersAt fields es).foldl Sink.put s
  | [], _, _ => rfl
  | _ :: _, [], s => by
      rw [Field.writeAllAt, Field.offersAt, List.foldl_nil]
      all_goals nofun
  | .mk number omitsDefault value :: fields, e :: es, s => by
      rw [Field.writeAllAt, Field.writeAllAt_eq_foldl fields es, Field.offersAt, Field.writeAt,
        List.foldl_append]
      split
      · rfl
      · rw [List.foldl_append, List.foldl_append, ← writeVarint_eq_foldl,
          ← WireType.writePrefix_eq_foldl, Value.writeAt_eq_foldl value]

end

/-! ## The first refusal -/

namespace Sink

/-- Offers a chunk and tells whether all of it was taken. -/
def offer (s : Sink) (chunk : Bytes) : Except Sink Sink :=
  if (s.put chunk).stuck then .error (s.put chunk) else .ok (s.put chunk)

/-- A sink that is stuck stays as it is. -/
lemma foldl_put_of_stuck {s : Sink} (h : s.stuck = true) (chunks : List Bytes) :
    chunks.foldl put s = s := by
  induction chunks with
  | nil => rfl
  | cons chunk chunks ih => rw [List.foldl_cons, put, if_pos h, ih]

/-- **Ending with the first refusal is as good as going on**, and a refusal is told exactly if the
sink is stuck in the end. -/
theorem foldlM_offer (chunks : List Bytes) {s : Sink} (h : s.stuck = false) :
    chunks.foldlM offer s =
      if (chunks.foldl put s).stuck then .error (chunks.foldl put s)
      else .ok (chunks.foldl put s) := by
  induction chunks generalizing s with
  | nil =>
      rw [List.foldlM_nil, List.foldl_nil, h]
      rfl
  | cons chunk chunks ih =>
      rw [List.foldlM_cons, List.foldl_cons, offer]
      cases stuck : (s.put chunk).stuck with
      | true =>
          rw [foldl_put_of_stuck stuck, stuck]
          rfl
      | false => exact ih stuck

/-- What a fresh sink makes of a chunk. -/
lemma put_fresh_some (room : Nat) (b : Bytes) :
    (fresh (some room)).put b =
      ⟨(b.take room).toArray, some (room - b.length), decide (room < b.length)⟩ := by
  simp [fresh, put]

lemma put_fresh_none (b : Bytes) : (fresh none).put b = ⟨b.toArray, none, false⟩ := by
  simp [fresh, put]

end Sink

/-! ## The beginning of a message -/

section Message

variable {α : Type} [Message α]

/-- What the write pass offers of a message, in order. -/
def Message.offers (m : α) : List Bytes :=
  Field.offersAt (Message.fields m) (Field.extents (Message.fields m))

lemma Message.writeTo_eq_foldl (m : α) (s : Sink) :
    Message.writeTo m s = (Message.offers m).foldl Sink.put s :=
  Field.writeAllAt_eq_foldl ..

lemma Message.writeTo_eq_put (m : α) (s : Sink) : Message.writeTo m s = s.put (Message.encode m) :=
  Field.writeAll_eq_put ..

/-- What happens to a message where there is room for `room` bytes. -/
structure Message.CutCleanly (m : α) (room : Nat) : Prop where
  /-- The sink has the beginning of the message, as much of it as there is room for. -/
  accepted : (Message.writeTo m (.fresh (some room))).accepted.toList =
    (Message.writeTo m (.fresh none)).accepted.toList.take (min room (Message.encode m).length)
  /-- It is stuck exactly if something is missing. -/
  stuck : (Message.writeTo m (.fresh (some room))).stuck = true ↔
    room < (Message.encode m).length
  /-- Whoever offers the message chunk by chunk, and stops at the first one that is not taken as a
  whole, leaves the sink the same, and is refused exactly if something is missing. -/
  stops : (Message.offers m).foldlM Sink.offer (.fresh (some room)) =
    if room < (Message.encode m).length then .error (Message.writeTo m (.fresh (some room)))
    else .ok (Message.writeTo m (.fresh (some room)))
  /-- Where there is room for everything, everything is written and nothing refused. -/
  whole : Message.writeTo m (.fresh none) = ⟨(Message.encode m).toArray, none, false⟩

/-- **Too little room leaves a clean beginning**, of every message and in particular of the request
for every batch of records. -/
theorem Message.cut_cleanly (room : Nat) :
    (∀ m : α, Message.CutCleanly m room) ∧
      ∀ records : List Record, Message.CutCleanly (Otlp.request records) room := by
  have cut : ∀ {β : Type} [Message β] (m : β), Message.CutCleanly m room := by
    intro β _ m
    have short : Message.writeTo m (.fresh (some room)) =
        ⟨((Message.encode m).take room).toArray, some (room - (Message.encode m).length),
          decide (room < (Message.encode m).length)⟩ := by
      rw [Message.writeTo_eq_put, Sink.put_fresh_some]
    have whole : Message.writeTo m (.fresh none) = ⟨(Message.encode m).toArray, none, false⟩ := by
      rw [Message.writeTo_eq_put, Sink.put_fresh_none]
    refine ⟨?_, ?_, ?_, whole⟩
    · rw [short, whole]
      exact List.take_eq_take_min ..
    · rw [short]
      exact decide_eq_true_iff
    · rw [Sink.foldlM_offer _ rfl, ← Message.writeTo_eq_foldl, short]
      simp only [decide_eq_true_eq]
  exact ⟨cut, fun records => cut (Otlp.request records)⟩

/-- Seven bytes, and at their end an empty text, which needs no room. -/
example : (Message.writeTo (⟨"k", .text ""⟩ : Otlp.KeyValue) (.fresh (some 6))).stuck = true ∧
    (Message.writeTo (⟨"k", .text ""⟩ : Otlp.KeyValue) (.fresh (some 7))).stuck = false := by
  decide +kernel

end Message

end ProfilePipeline.Wire
