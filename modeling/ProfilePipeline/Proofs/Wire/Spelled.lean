import Mathlib.Tactic.Common
import ProfilePipeline.Proofs.Wire.Decoder
import ProfilePipeline.Proofs.Wire.Passes

/-!
# Fields as lines of a descriptor

A message is written from a list of fields, and its content is encoded along a descriptor.  This
file says when the two give the same bytes.

**One value.**  `Value.Carries` relates a value to the item that a reader finds for it.

**One line.**  `Spelled.line` puts a few fields in front of a list that is spelled already, and is
what the rules for each kind of field come from: `Spelled.omitting`, `Spelled.present`,
`Spelled.each` and `Spelled.packed`.  They follow the shape of a list of fields, so that a message
type is spelled by naming one rule for each of its lines.
-/

namespace ProfilePipeline.Wire

open Wire.Field (omitting present)

variable {μ : Type} (schema : Schema μ)

/-- A list of fields writes the content of a descriptor. -/
structure Spelled (fields : List Field) (specs : List (FieldSpec μ)) (slots : Content) : Prop where
  encode : (∀ spec ∈ specs, spec.number < 2 ^ 29) →
    Field.encodeAll fields = Content.encode schema specs slots
  fits : Content.Fits schema specs slots

/-- A value writes the payload of an item. -/
structure Value.Carries (value : Value) (type : FieldType μ) (item : Item) : Prop where
  wireType : value.wireType = type.wireType
  encode : value.wireType.prefixBytes value.size ++ value.encode = item.encode schema type
  fits : item.Fits schema type

variable {schema}

/-! ## One value -/

/-- A value with a length in front is delimited the way content is. -/
lemma Value.prefixBytes_append_encode {value : Value} (htype : value.wireType = .delimited) :
    value.wireType.prefixBytes value.size ++ value.encode = delimit value.encode := by
  rw [htype, delimit, ← value.size_eq]
  rfl

lemma Value.carries_varint {type : ScalarType} {word : UInt64}
    (h : type.normalize word = word) :
    Value.Carries schema (.varint word) (.scalar type) (.word word) where
  wireType := rfl
  encode := by
    rw [Value.encode_varint, Varint.write_eq_ofNat, Item.encode]
    rfl
  fits := h

lemma Value.carries_fixed64 {type : FieldType μ} {word : UInt64}
    (h : type = .fixed64 ∨ type = .double) :
    Value.Carries schema (.fixed64 word) type (.fixed64 word) where
  wireType := by rcases h with rfl | rfl <;> rfl
  encode := by
    rw [Value.encode_fixed64, Item.encode]
    rfl
  fits := by rcases h with rfl | rfl <;> trivial

lemma Value.carries_text (t : String) : Value.Carries schema (.text t) .text (.text t) where
  wireType := rfl
  encode := by rw [Value.prefixBytes_append_encode rfl, Value.encode_text, Item.encode]
  fits := trivial

lemma Value.carries_bytes (b : Bytes) : Value.Carries schema (.bytes b) .bytes (.bytes b) where
  wireType := rfl
  encode := by rw [Value.prefixBytes_append_encode rfl, Value.encode_bytes, Item.encode]
  fits := trivial

/-- A nested message whose fields are spelled. -/
lemma Value.carries_message (hschema : schema.Sound) {name : μ} {fields : List Field}
    {slots : Content} (h : Spelled schema fields (schema name) slots) :
    Value.Carries schema (.message fields) (.message name) (.message slots) where
  wireType := rfl
  encode := by
    rw [Value.prefixBytes_append_encode rfl, Value.encode_message, Item.encode,
      h.encode fun spec hspec => (hschema.fits name spec hspec).2]
  fits := h.fits

/-! ## One field -/

/-- A field with a value that carries an item is key and payload of the item. -/
lemma Value.Carries.encode_field {value : Value} {type : FieldType μ} {item : Item}
    (h : value.Carries schema type item) {number : UInt32} (omits : Bool)
    (hnumber : number.toNat < 2 ^ 29)
    (hdefault : omits = true → value.isDefault = item.isDefault) :
    Field.encode ⟨number, omits, value⟩ =
      if omits && item.isDefault then []
      else keyBytes number.toNat type.wireType ++ item.encode schema type := by
  have hkept : (omits && value.isDefault) = (omits && item.isDefault) := by
    cases omits with
    | false => rfl
    | true => rw [hdefault rfl]
  rw [Field.encode_mk, hkept]
  split
  · rfl
  · rw [write_key _ hnumber, List.append_assoc, h.encode, h.wireType]

lemma Field.encodeAll_append (front rest : List Field) :
    Field.encodeAll (front ++ rest) = Field.encodeAll front ++ Field.encodeAll rest := by
  induction front with
  | nil => rw [Field.encodeAll_nil, List.nil_append, List.nil_append]
  | cons field front ih =>
      rw [List.cons_append, Field.encodeAll_cons, Field.encodeAll_cons, ih, List.append_assoc]

/-- Fields with values that carry the items of a slot. -/
lemma Field.encodeAll_each {α : Type} {value : α → Value} {item : α → Item} {type : FieldType μ}
    {xs : List α} (h : ∀ x ∈ xs, (value x).Carries schema type (item x)) {number : UInt32}
    (hnumber : number.toNat < 2 ^ 29) :
    Field.encodeAll (xs.map fun x => present number (value x)) =
      Slot.encodeEach schema number.toNat type false (xs.map item) := by
  induction xs with
  | nil => rw [List.map_nil, List.map_nil, Field.encodeAll_nil, Slot.encodeEach]
  | cons x xs ih =>
      have hx := (h x List.mem_cons_self).encode_field false hnumber (by simp)
      have hxs := ih fun y hy => h y (List.mem_cons_of_mem _ hy)
      rw [List.map_cons, List.map_cons, Field.encodeAll_cons, Slot.encodeEach, hxs]
      exact congrArg (· ++ _) hx

/-- Nothing is left out of a slot without defaults. -/
lemma Slot.encodeEach_omits {number : Nat} {type : FieldType μ} {slot : Slot}
    (h : ∀ item ∈ slot, item.isDefault = false) :
    Slot.encodeEach schema number type true slot = Slot.encodeEach schema number type false slot := by
  induction slot with
  | nil => rw [Slot.encodeEach, Slot.encodeEach]
  | cons item items ih =>
      rw [Slot.encodeEach, Slot.encodeEach, h item List.mem_cons_self,
        ih fun x hx => h x (List.mem_cons_of_mem _ hx)]
      rfl

/-! ## One line -/

namespace Spelled

variable {fields : List Field} {specs : List (FieldSpec μ)} {slots : Content}

theorem nil : Spelled schema [] [] [] where
  encode _ := by rw [Field.encodeAll_nil, Content.encode_nil]
  fits := trivial

/-- **A line in front.**  What its fields write has to be what the line writes for its slot. -/
theorem line (front : List Field) {spec : FieldSpec μ} {slot : Slot}
    (hchoice : spec.label = .choice → slot = [] ∨ Content.Unchosen specs slots)
    (hbytes : spec.number < 2 ^ 29 → Field.encodeAll front = spec.slotBytes schema slot)
    (hitems : ∀ item ∈ slot, item.Fits schema spec.type) (hadmits : spec.Admits slot)
    (hrest : Spelled schema fields specs slots) :
    Spelled schema (front ++ fields) (spec :: specs) (slot :: slots) where
  encode hnumber := by
    rw [List.forall_mem_cons] at hnumber
    rw [Field.encodeAll_append, Content.encode_cons, hbytes hnumber.1, hrest.encode hnumber.2]
  fits := by
    rw [Content.Fits, Slot.fits_iff]
    exact ⟨hitems, hadmits, hchoice, hrest.fits⟩

/-- One value, left out when it is the default. -/
theorem omitting {name : String} {number : UInt32} {type : FieldType μ} {value : Value}
    {item : Item} (h : value.Carries schema type item) (hdefault : value.isDefault = item.isDefault)
    (hrest : Spelled schema fields specs slots) :
    Spelled schema (Field.omitting number value :: fields)
      (⟨name, number.toNat, .singular, type⟩ :: specs) ([item] :: slots) := by
  refine line [Field.omitting number value] (by simp) ?_ ?_ ?_ hrest
  · intro hnumber
    rw [Field.encodeAll_cons, Field.encodeAll_nil, List.append_nil]
    show _ = Slot.encodeEach schema number.toNat type true [item]
    rw [Slot.encodeEach, Slot.encodeEach, List.append_nil]
    exact h.encode_field true hnumber fun _ => hdefault
  · simpa using h.fits
  · cases type <;> simp [FieldSpec.Admits]

/-- One value for each of a list, none of them left out. -/
theorem each {α : Type} {value : α → Value} {item : α → Item} {name : String} {number : UInt32}
    {type : FieldType μ} {xs : List α} (h : ∀ x ∈ xs, (value x).Carries schema type (item x))
    (htype : ∀ t, type ≠ .scalar t) (hrest : Spelled schema fields specs slots) :
    Spelled schema ((xs.map fun x => Field.present number (value x)) ++ fields)
      (⟨name, number.toNat, .repeated, type⟩ :: specs) (xs.map item :: slots) := by
  refine line _ (by simp) ?_ ?_ ?_ hrest
  · intro hnumber
    rw [Field.encodeAll_each h hnumber, FieldSpec.slotBytes]
    cases type <;> first | rfl | exact absurd rfl (htype _)
  · intro y hy
    obtain ⟨x, hx, rfl⟩ := List.mem_map.mp hy
    exact (h x hx).fits
  · simp [FieldSpec.Admits]

/-- At most one message, always written if it is there. -/
theorem optional {α : Type} {value : α → Value} {content : α → Content} {name : String}
    {number : UInt32} {type : μ} {xs : List α}
    (h : ∀ x ∈ xs, (value x).Carries schema (.message type) (.message (content x)))
    (hlen : xs.length ≤ 1) (hrest : Spelled schema fields specs slots) :
    Spelled schema ((xs.map fun x => Field.present number (value x)) ++ fields)
      (⟨name, number.toNat, .singular, .message type⟩ :: specs)
      (xs.map (fun x => .message (content x)) :: slots) := by
  refine line _ (by simp) ?_ ?_ ?_ hrest
  · intro hnumber
    have hkept : ∀ item ∈ xs.map fun x => Item.message (content x), item.isDefault = false := by
      intro item hitem
      obtain ⟨x, -, rfl⟩ := List.mem_map.mp hitem
      rfl
    rw [Field.encodeAll_each h hnumber]
    show _ = Slot.encodeEach schema number.toNat (.message type) true _
    rw [Slot.encodeEach_omits hkept]
  · intro y hy
    obtain ⟨x, hx, rfl⟩ := List.mem_map.mp hy
    exact (h x hx).fits
  · simpa [FieldSpec.Admits] using hlen

/-- A list of words, packed. -/
theorem packed {name : String} {number : UInt32} {type : ScalarType} {words : List UInt64}
    (h : ∀ word ∈ words, type.normalize word = word) (hrest : Spelled schema fields specs slots) :
    Spelled schema (Field.omitting number (.packed words) :: fields)
      (⟨name, number.toNat, .repeated, .scalar type⟩ :: specs) (words.map .word :: slots) := by
  refine line [Field.omitting number (.packed words)] (by simp) ?_ ?_ ?_ hrest
  · intro hnumber
    rw [Field.encodeAll_cons, Field.encodeAll_nil, List.append_nil, Field.omitting, Field.encode_mk]
    have hbody : (words.map Item.word).flatMap Item.wordBytes = (Value.packed words).encode := by
      rw [Value.encode_packed, List.flatMap_map]
      exact congrArg (fun write => words.flatMap write) (funext fun word => (Varint.write_eq_ofNat word).symm)
    have hdefault : (Value.packed words).isDefault = (words.map Item.word).isEmpty := by
      show words.isEmpty = _
      rw [List.isEmpty_map]
    rw [Bool.true_and, hdefault, FieldSpec.slotBytes, hbody]
    simp only
    split
    · rfl
    · rw [write_key _ hnumber, List.append_assoc, Value.prefixBytes_append_encode rfl]
      rfl
  · intro y hy
    obtain ⟨word, hword, rfl⟩ := List.mem_map.mp hy
    exact h word hword
  · simp [FieldSpec.Admits]

/-- A member of a choice that is not set. -/
theorem unset {name : String} {number : Nat} {type : FieldType μ}
    (hrest : Spelled schema fields specs slots) :
    Spelled schema fields (⟨name, number, .choice, type⟩ :: specs) ([] :: slots) := by
  refine line [] (fun _ => .inl rfl) ?_ (by simp) (by simp [FieldSpec.Admits]) hrest
  intro _
  show _ = Slot.encodeEach schema number type false []
  rw [Field.encodeAll_nil, Slot.encodeEach]

/-- The member of a choice that is set. -/
theorem member {name : String} {number : UInt32} {type : FieldType μ} {value : Value} {item : Item}
    (h : value.Carries schema type item) (hchoice : Content.Unchosen specs slots)
    (hrest : Spelled schema fields specs slots) :
    Spelled schema (Field.present number value :: fields)
      (⟨name, number.toNat, .choice, type⟩ :: specs) ([item] :: slots) := by
  refine line [Field.present number value] (fun _ => .inr hchoice) ?_ ?_ ?_ hrest
  · intro hnumber
    have hone : ∀ _x ∈ [()], value.Carries schema type item := fun _ _ => h
    exact Field.encodeAll_each hone hnumber
  · simpa using h.fits
  · simp [FieldSpec.Admits]

end Spelled

end ProfilePipeline.Wire
