import Mathlib.Tactic.Common
import ProfilePipeline.Proofs.Wire.Decoder
import ProfilePipeline.Proofs.Wire.Passes

/-!
# The length of canonical bytes

The canonical bytes of a message can be counted without being written.  `Content.encodedLen` follows
the same lines of a descriptor as `Content.encode` does, with the closed formula in place of the
digits of each number; **`Content.encodedLen_eq`** says that it counts them right.

Lengths in front of a body are words on both sides, so no bound on the message is needed.  Numbers
of fields have 29 bits, which is what makes a key a word.
-/

namespace ProfilePipeline.Wire

variable {μ : Type} {schema : Schema μ}

/-! ## Digits, keys and prefixes -/

lemma digitCount_eq (n : Nat) : digitCount n = (Varint.write n.toUInt64).length :=
  Varint.toNat_size_eq_length_write n.toUInt64

lemma keyLen_eq {number : Nat} (type : WireType) (h : number < 2 ^ 29) :
    keyLen number type = (keyBytes number type).length := by
  have hcode := type.code_lt
  rw [keyLen, keyBytes, digitCount_eq, Varint.write_eq_ofNat, toNat_toUInt64_of_lt (by omega)]

lemma delimitedLen_eq (body : Bytes) : delimitedLen body.length = (delimit body).length := by
  rw [delimitedLen, delimit, List.length_append, digitCount_eq]

lemma Item.wordLen_eq (item : Item) : item.wordLen = item.wordBytes.length := by
  cases item with
  | word w => exact Varint.toNat_size w
  | _ => rfl

lemma Slot.packedLen_eq (slot : Slot) :
    Slot.packedLen slot = (slot.flatMap Item.wordBytes).length := by
  induction slot with
  | nil => rfl
  | cons item items ih => simp [Slot.packedLen, ih, Item.wordLen_eq]

/-! ## Items, lines and messages -/

mutual

theorem Item.encodedLen_eq (hschema : schema.Sound) (type : FieldType μ) :
    ∀ item : Item, item.encodedLen schema type = (item.encode schema type).length
  | .word w => by
      rw [Item.encodedLen, Item.encode]
      exact Varint.toNat_size w
  | .fixed64 _ => by
      rw [Item.encodedLen, Item.encode]
      rfl
  | .text s => by
      rw [Item.encodedLen, Item.encode]
      exact delimitedLen_eq (utf8 s)
  | .bytes b => by
      rw [Item.encodedLen, Item.encode]
      exact delimitedLen_eq b
  | .message slots => by
      cases type with
      | message name =>
          rw [Item.encodedLen, Item.encode, ← delimitedLen_eq,
            Content.encodedLen_eq hschema (schema name)
              (fun spec hspec => (hschema.fits name spec hspec).2) slots]
      | _ =>
          simp only [Item.encodedLen, Item.encode]
          exact delimitedLen_eq []

theorem Slot.eachLen_eq (hschema : schema.Sound) {number : Nat} (hnumber : number < 2 ^ 29)
    (type : FieldType μ) (omits : Bool) :
    ∀ slot : Slot, Slot.eachLen schema number type omits slot =
      (Slot.encodeEach schema number type omits slot).length
  | [] => by
      rw [Slot.eachLen, Slot.encodeEach]
      rfl
  | item :: items => by
      rw [Slot.eachLen, Slot.encodeEach, List.length_append,
        Slot.eachLen_eq hschema hnumber type omits items]
      split
      · rfl
      · rw [List.length_append, keyLen_eq _ hnumber, Item.encodedLen_eq hschema type item]

/-- **The canonical bytes of a message are as many as counted.** -/
theorem Content.encodedLen_eq (hschema : schema.Sound) (specs : List (FieldSpec μ))
    (hnumber : ∀ spec ∈ specs, spec.number < 2 ^ 29) :
    ∀ content : Content, content.encodedLen schema specs = (content.encode schema specs).length
  | [] => by
      cases specs <;> simp [Content.encodedLen, Content.encode]
  | slot :: slots => by
      cases specs with
      | nil => simp [Content.encodedLen, Content.encode]
      | cons spec specs =>
          rw [List.forall_mem_cons] at hnumber
          have heach := fun omits => Slot.eachLen_eq hschema hnumber.1 spec.type omits slot
          have hrest := Content.encodedLen_eq hschema specs hnumber.2 slots
          rw [Content.encodedLen, Content.encode, List.length_append, hrest]
          congr 1
          split
          · exact heach true
          · split
            · rfl
            · rw [List.length_append, keyLen_eq _ hnumber.1, Slot.packedLen_eq, delimitedLen_eq]
          · exact heach false
          · exact heach false

end

end ProfilePipeline.Wire
