import Mathlib.Tactic.Common
import ProfilePipeline.Otlp.Exporter
import ProfilePipeline.Proofs.Wire.Passes
import ProfilePipeline.Proofs.Wire.Raw

/-!
# Frames

Over gRPC many messages follow each other on one connection, and a reader has to tell them apart by
nothing but the lengths in front of them.

**Lengths.**  `ofBigEndian_bigEndian` reads a number back from its bytes.

**Frames.**  `splitFrames?` is the reader, and `splitFrames?_flatten` says that it finds the
messages again.

**Bodies.**  A length is measured before the message is written; `Protocol.body?_eq` says that it
is the number of bytes behind it.
-/

namespace ProfilePipeline

/-! ## Lengths -/

lemma length_bigEndian (count n : Nat) : (bigEndian count n).length = count := by
  induction count generalizing n with
  | zero => rfl
  | succ count ih => rw [bigEndian, List.length_append, ih, List.length_singleton]

lemma ofBigEndian_concat (bytes : List UInt8) (b : UInt8) :
    ofBigEndian (bytes ++ [b]) = 256 * ofBigEndian bytes + b.toNat := by
  rw [ofBigEndian, List.foldl_append]
  rfl

/-- **A number is read back from its bytes.** -/
theorem ofBigEndian_bigEndian {count n : Nat} (h : n < 256 ^ count) :
    ofBigEndian (bigEndian count n) = n := by
  induction count generalizing n with
  | zero =>
      obtain rfl : n = 0 := by simpa using h
      rfl
  | succ count ih =>
      have high : n / 256 < 256 ^ count := by
        rwa [Nat.div_lt_iff_lt_mul (by decide), ← Nat.pow_succ]
      have low : n.toUInt8.toNat = n % 256 := rfl
      rw [bigEndian, ofBigEndian_concat, ih high, low, Nat.div_add_mod]

namespace Otlp

open Wire (Bytes Message splitExact? splitExact?_le splitExact?_append)

/-! ## Frames -/

/-- A message that is not compressed, behind its length. -/
def frame (message : Bytes) : Bytes := 0 :: bigEndian 4 message.length ++ message

/-- The message of the frame at the front of an input, and the unread rest.  It must not be
compressed, and the input has to go as far as its length. -/
def readFrame? : Bytes → Option (Bytes × Bytes)
  | [] => none
  | compressed :: input =>
    if compressed ≠ 0 then none
    else match splitExact? 4 input with
      | none => none
      | some (length, input) => splitExact? (ofBigEndian length) input

lemma readFrame?_shorter {input message rest : Bytes}
    (h : readFrame? input = some (message, rest)) : rest.length < input.length := by
  rw [readFrame?.eq_def] at h
  split at h
  · cases h
  · split at h
    · cases h
    · split at h
      · cases h
      · rename_i length input hlength
        have := splitExact?_le hlength
        have := splitExact?_le h
        rw [List.length_cons]
        omega

/-- The messages of frames that follow each other up to the end of an input. -/
def splitFrames? (input : Bytes) : Option (List Bytes) :=
  match input with
  | [] => some []
  | b :: bs =>
    match _h : readFrame? (b :: bs) with
    | none => none
    | some (message, rest) => (splitFrames? rest).map (message :: ·)
termination_by input.length
decreasing_by exact readFrame?_shorter _h

/-- A frame is read whatever follows it. -/
lemma readFrame?_frame {message : Bytes} (rest : Bytes) (h : message.length < 2 ^ 32) :
    readFrame? (frame message ++ rest) = some (message, rest) := by
  have hlength := splitExact?_append (bigEndian 4 message.length) (message ++ rest)
  rw [length_bigEndian] at hlength
  rw [frame, List.append_assoc, List.cons_append, readFrame?, if_neg (not_not_intro rfl), hlength]
  show splitExact? (ofBigEndian (bigEndian 4 message.length)) (message ++ rest) = _
  rw [ofBigEndian_bigEndian h, splitExact?_append]

/-- **Messages are told apart by their frames.** -/
theorem splitFrames?_flatten {messages : List Bytes} (h : ∀ m ∈ messages, m.length < 2 ^ 32) :
    splitFrames? (messages.map frame).flatten = some messages := by
  induction messages with
  | nil =>
      rw [List.map_nil, List.flatten_nil, splitFrames?]
  | cons message messages ih =>
      obtain ⟨first, others⟩ := List.forall_mem_cons.mp h
      have hread := readFrame?_frame (messages.map frame).flatten first
      rw [List.map_cons, List.flatten_cons]
      rw [frame, List.append_assoc, List.cons_append] at hread ⊢
      rw [splitFrames?]
      split
      · rename_i hnone
        rw [hnone] at hread
        cases hread
      · rename_i hsome
        rw [hsome] at hread
        cases hread
        rw [ih others]
        rfl

/-! ## Bodies -/

/-- What a protocol makes of a message. -/
def Protocol.wrap (p : Protocol) (message : Bytes) : Bytes :=
  match p with
  | grpc => frame message
  | http => message

/-- **The body of a request is its message**, over gRPC in a frame of the length that the message
has. -/
theorem Protocol.body?_eq (p : Protocol) {records : List Record}
    (h : (Message.encode (request records)).length < 2 ^ 32) :
    p.body? records = some (p.wrap (Message.encode (request records))) := by
  cases p with
  | grpc =>
      have size : (Message.size (request records)).toNat =
          (Message.encode (request records)).length :=
        Wire.Field.toNat_measure _ (by
          have : (Wire.Field.encodeAll (Message.fields (request records))).length < 2 ^ 32 := h
          omega)
      have fits : Message.size (request records) < 0x100000000 := by
        rw [UInt64.lt_iff_toNat_lt, size]
        exact h
      show frame? _ _ = _
      rw [frame?, if_pos fits, size]
      rfl
  | http => rfl

/-- The request for a batch, ready to be sent. -/
def Protocol.submission (p : Protocol) (records : List Record) : Submission :=
  ⟨p.path, p.contentType, p.wrap (Message.encode (request records))⟩

/-- **A batch is sent as its request** by an exporter that is in service. -/
lemma OtlpExporter.submission?_eq (p : Protocol) {records : List Record}
    (h : (Message.encode (request records)).length < 2 ^ 32) :
    submission? ⟨p, false⟩ records = some (p.submission records) := by
  rw [submission?, if_neg Bool.false_ne_true, p.body?_eq h]
  rfl

end Otlp

end ProfilePipeline
