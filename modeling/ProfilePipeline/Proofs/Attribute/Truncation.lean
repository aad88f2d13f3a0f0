import Mathlib.Tactic.Common
import ProfilePipeline.Proofs.Attribute.Composition
import ProfilePipeline.Wire.Value

/-!
# Cutting a text in its bytes

A limit on a text counts characters, but a text is kept as bytes, and a character takes one to four
of them.  So a text is cut at an offset that is found by walking from one character to the next, and
a cut inside of a character is a fatal error.

**The walk.**  `Utf8.offset?` goes by the first byte of each character, and `Utf8.cutAt?` fails
unless a character begins at the offset or the text ends there.  `Utf8.truncate?` is one after the
other.

**Characters.**  The first byte of a character says how long it is and is no continuation
(`Utf8.exists_encode`), so the walk stops where characters begin (`Utf8.offset?_flatMap`) and the
bytes may be cut there.  **`Utf8.truncate?_utf8`**: the cut never fails, and it leaves the bytes of
the first characters.

**`truncation_counts_characters`** is what follows for texts, and for values with texts in them.
-/

namespace ProfilePipeline

open Wire (Bytes utf8)

namespace Utf8

/-! ## Walking over bytes -/

/-- The number of bytes of the character that begins with a byte. -/
def width (first : UInt8) : Nat :=
  if first < 0x80 then 1 else if first < 0xe0 then 2 else if first < 0xf0 then 3 else 4

/-- Whether a byte is one after the first of a character. -/
def isContinuation (b : UInt8) : Bool := 0x80 ≤ b && b < 0xc0

/-- **The offset at which character number `n` begins**, if there are so many. -/
def offset? : Nat → Bytes → Option Nat
  | _, [] => none
  | 0, _ :: _ => some 0
  | n + 1, first :: rest => (offset? n (rest.drop (width first - 1))).map (width first + ·)

/-- Whether bytes may be cut at an offset: a character begins there, or they end there. -/
def isBoundary (bytes : Bytes) (offset : Nat) : Bool :=
  match bytes[offset]? with
  | some b => offset == 0 || !isContinuation b
  | none => offset == bytes.length

/-- The bytes before an offset.  An offset behind the end is none, and a cut that is not at a
boundary fails. -/
def cutAt? (bytes : Bytes) (offset : Nat) : Option Bytes :=
  if bytes.length < offset then some bytes
  else if isBoundary bytes offset then some (bytes.take offset)
  else none

/-- **At most so many characters of a text**, in its bytes. -/
def truncate? (limit : Nat) (bytes : Bytes) : Option Bytes :=
  match offset? limit bytes with
  | some offset => cutAt? bytes offset
  | none => some bytes

/-! ## Characters -/

lemma utf8_ofList (cs : List Char) :
    utf8 (String.ofList cs) = cs.flatMap String.utf8EncodeChar := by
  rw [utf8, String.toByteArray_ofList, List.utf8Encode]
  exact List.toList_data_toByteArray

lemma utf8_eq_flatMap (s : String) : utf8 s = s.toList.flatMap String.utf8EncodeChar := by
  rw [← utf8_ofList, String.ofList_toList]

/-- What is read off a first byte, by the number of bytes that follow it. -/
lemma first_ofNat {code k : Nat}
    (h : code < 0x80 ∧ k = 0 ∨ 0xc0 ≤ code ∧ code < 0xe0 ∧ k = 1 ∨
      0xe0 ≤ code ∧ code < 0xf0 ∧ k = 2 ∨ 0xf0 ≤ code ∧ code < 0x100 ∧ k = 3) :
    width (UInt8.ofNat code) = k + 1 ∧ isContinuation (UInt8.ofNat code) = false := by
  have hcode : (UInt8.ofNat code).toNat = code := UInt8.toNat_ofNat_of_lt' (by
    show code < 256
    omega)
  simp only [width, isContinuation, UInt8.lt_iff_toNat_lt, UInt8.le_iff_toNat_le, hcode,
    UInt8.reduceToNat]
  constructor
  · split_ifs <;> omega
  · simp
    omega

/-- **The first byte of a character** says how many there are, and is none of the others. -/
lemma exists_encode (c : Char) :
    ∃ first rest, String.utf8EncodeChar c = first :: rest ∧ width first = rest.length + 1 ∧
      isContinuation first = false := by
  generalize hcode : c.val.toNat = code
  rw [String.utf8EncodeChar, hcode]
  split
  · exact ⟨_, _, rfl, first_ofNat (k := 0) (by omega)⟩
  split
  · exact ⟨_, _, rfl, first_ofNat (k := 1) (by omega)⟩
  split
  · exact ⟨_, _, rfl, first_ofNat (k := 2) (by omega)⟩
  · exact ⟨_, _, rfl, first_ofNat (k := 3) (by omega)⟩

lemma offset?_flatMap (n : Nat) (cs : List Char) :
    offset? n (cs.flatMap String.utf8EncodeChar) =
      if n < cs.length then some ((cs.take n).flatMap String.utf8EncodeChar).length else none := by
  induction cs generalizing n with
  | nil => simp [offset?]
  | cons c cs ih =>
      obtain ⟨first, rest, hencode, hwidth, -⟩ := exists_encode c
      rw [List.flatMap_cons, hencode, List.cons_append]
      cases n with
      | zero => simp [offset?]
      | succ n =>
          rw [offset?, hwidth, Nat.add_sub_cancel, List.drop_left, ih]
          simp only [List.length_cons, Nat.add_lt_add_iff_right, List.take_succ_cons,
            List.flatMap_cons, hencode, List.length_append]
          split <;> rfl

/-- The bytes of a text may be cut where a character begins. -/
lemma isBoundary_flatMap {n : Nat} {cs : List Char} (h : n < cs.length) :
    isBoundary (cs.flatMap String.utf8EncodeChar)
      ((cs.take n).flatMap String.utf8EncodeChar).length = true := by
  obtain ⟨first, rest, hencode, -, hfirst⟩ := exists_encode cs[n]
  have hsplit : cs.flatMap String.utf8EncodeChar =
      (cs.take n).flatMap String.utf8EncodeChar ++
        (first :: (rest ++ (cs.drop (n + 1)).flatMap String.utf8EncodeChar)) := by
    rw [← List.cons_append, ← hencode, ← List.flatMap_cons, List.getElem_cons_drop,
      ← List.flatMap_append, List.take_append_drop]
  rw [isBoundary, hsplit, List.getElem?_append_right (Nat.le_refl _), Nat.sub_self]
  simp [hfirst]

/-- **The cut never fails**, and leaves the bytes of the first characters. -/
theorem truncate?_utf8 (limit : Nat) (s : String) :
    truncate? limit (utf8 s) = some (utf8 (truncateText s limit)) := by
  rw [truncateText_eq, utf8_ofList, utf8_eq_flatMap, truncate?, offset?_flatMap]
  by_cases h : limit < s.toList.length
  · have hsplit : s.toList.flatMap String.utf8EncodeChar =
        (s.toList.take limit).flatMap String.utf8EncodeChar ++
          (s.toList.drop limit).flatMap String.utf8EncodeChar := by
      rw [← List.flatMap_append, List.take_append_drop]
    rw [if_pos h]
    simp only [cutAt?, isBoundary_flatMap h, ↓reduceIte]
    rw [hsplit, List.take_left, List.length_append, if_neg (Nat.not_lt.mpr (Nat.le_add_right _ _))]
  · rw [if_neg h, List.take_of_length_le (Nat.not_lt.mp h)]

end Utf8

/-! ## Texts -/

lemma length_truncateText (s : String) (limit : Nat) :
    (truncateText s limit).length = min limit s.length := by
  rw [truncateText_eq, String.length_ofList, List.length_take, String.length_toList]

lemma truncateText_eq_self_iff {s : String} {limit : Nat} :
    truncateText s limit = s ↔ s.length ≤ limit := by
  constructor
  · intro h
    rw [← h, length_truncateText]
    exact Nat.min_le_left _ _
  · intro h
    rw [truncateText, if_pos h]

/-- The bytes of a text begin with those of what is left of it. -/
lemma utf8_truncateText_prefix (s : String) (limit : Nat) :
    utf8 (truncateText s limit) <+: utf8 s := by
  refine ⟨utf8 (String.ofList (s.toList.drop limit)), ?_⟩
  rw [truncateText_eq, Utf8.utf8_ofList, Utf8.utf8_ofList, ← List.flatMap_append,
    List.take_append_drop, ← Utf8.utf8_eq_flatMap]

/-- A text is left where a character begins, or where it ends. -/
lemma isBoundary_truncateText (s : String) (limit : Nat) :
    Utf8.isBoundary (utf8 s) (utf8 (truncateText s limit)).length = true := by
  by_cases h : limit < s.toList.length
  · rw [truncateText_eq, Utf8.utf8_ofList, Utf8.utf8_eq_flatMap]
    exact Utf8.isBoundary_flatMap h
  · rw [Nat.not_lt, String.length_toList] at h
    rw [truncateText_eq_self_iff.mpr h]
    simp [Utf8.isBoundary]

lemma truncateText_truncateText (s : String) (m n : Nat) :
    truncateText (truncateText s m) n = truncateText s (min m n) := by
  simpa [AttributeValue.truncated] using AttributeValue.truncated_truncated m n (.text s)

/-! ## Values -/

namespace AttributeValue

/-- Whether there are texts in a value. -/
def hasTexts : AttributeValue → Bool
  | text _ | texts _ => true
  | _ => false

end AttributeValue

/-- **Limits on length count characters.**  Cutting the bytes of a text never fails: what is left is
a text again, and its bytes are those of the text up to a boundary.  It has as many characters as
the limit allows, it is the text itself exactly if that has no more, and of two limits the smaller
one counts.  In a value each text is cut on its own, at its place, and a value without texts stays
what it is, to the last bit of a double. -/
theorem truncation_counts_characters (s : String) (ss : List String) (value : AttributeValue)
    (m n : Nat) :
    let cut := truncateText s n
    Utf8.truncate? n (utf8 s) = some (utf8 cut) ∧
      utf8 cut <+: utf8 s ∧ Utf8.isBoundary (utf8 s) (utf8 cut).length = true ∧
      cut.length = min n s.length ∧
      (cut = s ↔ s.length ≤ n) ∧
      truncateText (truncateText s m) n = truncateText s (min m n) ∧
      (AttributeValue.text s).truncated n = .text cut ∧
      (∃ ts, (AttributeValue.texts ss).truncated n = .texts ts ∧ ts.length = ss.length ∧
        ∀ i : Nat, ts[i]? = ss[i]?.map fun s => truncateText s n) ∧
      (value.hasTexts = false → value.truncated n = value) := by
  intro cut
  refine ⟨Utf8.truncate?_utf8 n s, utf8_truncateText_prefix s n, isBoundary_truncateText s n,
    length_truncateText s n, truncateText_eq_self_iff, truncateText_truncateText s m n, rfl,
    ⟨_, rfl, List.length_map _, fun i => List.getElem?_map⟩, ?_⟩
  intro h
  cases value with
  | text s => exact absurd h.symm Bool.false_ne_true
  | texts ss => exact absurd h.symm Bool.false_ne_true
  | _ => rfl

/-- A limit that falls between characters of two, three and four bytes, and a value with a NaN of
its own. -/
theorem truncation_counts_characters_wide :
    let value : AttributeValue := .doubles [⟨0x7ff8000000000001⟩, ⟨0x8000000000000000⟩]
    value.hasTexts = false ∧ value.truncated 0 = value ∧
      Utf8.truncate? 2 (utf8 "é€😀") = some (utf8 "é€") ∧
      Utf8.truncate? 3 (utf8 "é€😀") = some (utf8 "é€😀") ∧
      Utf8.cutAt? (utf8 "é€😀") 4 = none := by
  intro value
  have h : value.hasTexts = false := rfl
  obtain ⟨-, -, -, -, -, -, -, -, hvalue⟩ := truncation_counts_characters "" [] value 0 0
  obtain ⟨htwo, -⟩ := truncation_counts_characters "é€😀" [] value 0 2
  obtain ⟨hthree, -⟩ := truncation_counts_characters "é€😀" [] value 0 3
  exact ⟨h, hvalue h, htwo, hthree, by decide⟩

end ProfilePipeline
