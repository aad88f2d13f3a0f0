import ProfilePipeline.Wire.Varint

/-!
# Sinks

Where encoded bytes go.  A sink may have room for a limited number of bytes; it then takes what
fits of the chunk that does not fit, and nothing after it.

* `Sink.put` — offers one chunk.  An empty chunk always succeeds.
* `Sink.put_put` — two chunks in a row are one chunk: where the cut falls is not visible.
-/

namespace ProfilePipeline.Wire

/-- The bytes accepted so far, the room that is left (`none` is unlimited), and whether a chunk
was ever cut short. -/
structure Sink where
  accepted : Array UInt8
  room : Option Nat
  stuck : Bool

namespace Sink

/-- A fresh sink with room for `room` bytes. -/
def fresh (room : Option Nat) : Sink := ⟨#[], room, false⟩

/-- Offers a chunk.  After a chunk that did not fit nothing is taken any more. -/
def put (s : Sink) (chunk : Bytes) : Sink :=
  if s.stuck then s
  else match s.room with
    | none => { s with accepted := s.accepted ++ chunk }
    | some room =>
      { accepted := s.accepted ++ chunk.take room
        room := some (room - chunk.length)
        stuck := decide (room < chunk.length) }

/-- Offers the bytes of a chunk one at a time. -/
def putEach (s : Sink) (chunk : Bytes) : Sink :=
  chunk.foldl (fun s b => s.put [b]) s

/-- **Chunks run together.**  How a byte string is cut into chunks makes no difference to what a
sink accepts or to whether it gets stuck. -/
theorem put_put (s : Sink) (a b : Bytes) : (s.put a).put b = s.put (a ++ b) := by
  obtain ⟨acc, room, stuck⟩ := s
  cases stuck with
  | true => simp [put]
  | false =>
    cases room with
    | none =>
      simp only [put, Bool.false_eq_true, ↓reduceIte, Sink.mk.injEq, and_self, and_true]
      exact Array.toList_inj.1 (by simp)
    | some r =>
      by_cases h : r < a.length
      · have h' : r < (a ++ b).length := by simp only [List.length_append]; omega
        simp only [put, h, h', Bool.false_eq_true, ↓reduceIte, decide_true, Sink.mk.injEq,
          Option.some.injEq, and_true]
        refine ⟨?_, by simp only [List.length_append]; omega⟩
        rw [List.take_append_of_le_length (by omega)]
      · simp only [put, h, Bool.false_eq_true, ↓reduceIte, decide_false, Sink.mk.injEq,
          Option.some.injEq, List.length_append]
        refine ⟨?_, by omega, by grind⟩
        rw [List.take_append, List.take_of_length_le (by omega : a.length ≤ r)]
        exact Array.toList_inj.1 (by simp)

/-- A sink takes the empty chunk, however full it is. -/
@[simp] theorem put_nil (s : Sink) : s.put [] = s := by
  obtain ⟨acc, room, stuck⟩ := s
  cases stuck <;> cases room <;> simp [put]

/-- Offering byte by byte is offering the whole. -/
theorem putEach_eq_put (s : Sink) (chunk : Bytes) : s.putEach chunk = s.put chunk := by
  induction chunk generalizing s with
  | nil => simp [putEach]
  | cons b chunk ih =>
    have : s.putEach (b :: chunk) = (s.put [b]).putEach chunk := rfl
    rw [this, ih, put_put]
    simp

end Sink

end ProfilePipeline.Wire
