import Mathlib.Data.List.Nodup
import Mathlib.Tactic.Common
import ProfilePipeline.Proofs.Wire.Decoder

/-!
# Tidy bytes

A message can be cut into fields without knowing its type.  Of the bytes that a reader accepts that
says little: fields may come in any order, and fields that nobody knows may stand between them.  In
canonical bytes they are those of the descriptor, by number.

* `rawFields?` — the fields of a message, payloads uninterpreted.
* `Tidy` — **no field but those of the descriptor, in the order of their numbers**, in the message
  and in every message in it.
* `Content.tidy_encode` — canonical bytes are tidy.
-/

namespace ProfilePipeline.Wire

/-- The fields of a message, or nothing if the input does not consist of fields. -/
def rawFields? (input : Bytes) : Option (List (Nat × Raw)) :=
  match input with
  | [] => some []
  | b :: bs =>
    match _h : readField? depthLimit (b :: bs) with
    | none => none
    | some (field, rest) => (rawFields? rest).map (field :: ·)
termination_by input.length
decreasing_by exact readField?_shorter _h

variable {μ : Type}

/-- The wire type that a line writes: that of its type, except for packed lists. -/
def FieldSpec.written (spec : FieldSpec μ) : WireType :=
  match spec.label, spec.type with
  | .repeated, .scalar _ => .delimited
  | _, type => type.wireType

/-- The wire type of a payload that was read; four bytes and groups are not of a type that is
written. -/
def Raw.layout? : Raw → Option WireType
  | varint _ => some .varint
  | fixed64 _ => some .fixed64
  | delimited _ => some .delimited
  | fixed32 | group => none

/-- A field has the number of a line and the layout that the line writes. -/
structure FieldSpec.Knows (spec : FieldSpec μ) (field : Nat × Raw) : Prop where
  number : field.1 = spec.number
  layout : field.2.layout? = some spec.written

/-- **Every field is known, and numbers do not decrease**, in the message and in every message in
it. -/
inductive Tidy (schema : Schema μ) : μ → Bytes → Prop
  | mk {name : μ} {input : Bytes} {fields : List (Nat × Raw)}
      (split : rawFields? input = some fields)
      (known : ∀ field ∈ fields, ∃ spec ∈ schema name, spec.Knows field)
      (ascending : (fields.map Prod.fst).Pairwise (· ≤ ·))
      (nested : ∀ field ∈ fields, ∀ spec ∈ schema name, spec.Knows field →
        ∀ inner, spec.type = .message inner → ∀ body, field.2 = .delimited body →
          Tidy schema inner body) :
      Tidy schema name input

/-! ## The fields of canonical bytes -/

variable (schema : Schema μ)

/-- The fields of items that are written one by one, defaults left out if asked. -/
def Slot.rawFields (number : Nat) (type : FieldType μ) (omits : Bool) (slot : Slot) :
    List (Nat × Raw) :=
  (slot.filter fun item => !(omits && item.isDefault)).map fun item =>
    (number, item.raw schema type)

/-- The fields that one line writes. -/
def FieldSpec.rawFields (spec : FieldSpec μ) (slot : Slot) : List (Nat × Raw) :=
  match spec.label, spec.type with
  | .singular, type => Slot.rawFields schema spec.number type true slot
  | .repeated, .scalar _ =>
    if slot.isEmpty then [] else [(spec.number, .delimited (slot.flatMap Item.wordBytes))]
  | .repeated, type | .choice, type => Slot.rawFields schema spec.number type false slot

/-- The fields that the lines of a descriptor write. -/
def Content.rawFields : List (FieldSpec μ) → Content → List (Nat × Raw)
  | spec :: specs, slot :: slots => spec.rawFields schema slot ++ Content.rawFields specs slots
  | _, _ => []

variable {schema} {spec : FieldSpec μ} {slot : Slot}

lemma rawFields?_append {number : Nat} {raw : Raw} (rest : Bytes) (hpos : 0 < number)
    (hlt : number < 2 ^ 29) (h : raw.Plain) :
    rawFields? (keyBytes number raw.wireType ++ raw.bytes ++ rest) =
      (rawFields? rest).map ((number, raw) :: ·) := by
  have hread := readField?_append depthLimit rest hpos hlt h
  obtain ⟨b, bs, hinput⟩ := exists_cons_field number raw.wireType raw.bytes rest
  rw [hinput] at hread ⊢
  rw [rawFields?]
  split
  · simp_all
  · rename_i field rest' hread'
    rw [hread'] at hread
    simp only [Option.some.injEq, Prod.mk.injEq] at hread
    obtain ⟨rfl, rfl⟩ := hread
    rfl

/-- The fields of a line whose items are written one by one. -/
lemma Slot.rawFields?_encodeEach (schema : Schema μ) (slot : Slot) {number : Nat}
    {type : FieldType μ} (omits : Bool) (rest : Bytes) (hpos : 0 < number)
    (hlt : number < 2 ^ 29) (hfits : ∀ item ∈ slot, item.Fits schema type)
    (hshort : (Slot.encodeEach schema number type omits slot).length < 2 ^ 64) :
    rawFields? (Slot.encodeEach schema number type omits slot ++ rest) =
      (rawFields? rest).map (Slot.rawFields schema number type omits slot ++ ·) := by
  induction slot with
  | nil =>
      rw [Slot.encodeEach]
      simp [Slot.rawFields]
  | cons item items ih =>
      rw [List.forall_mem_cons] at hfits
      rw [Slot.encodeEach_cons _ _ _ hfits.1, List.length_append] at hshort
      rw [Slot.encodeEach_cons _ _ _ hfits.1, List.append_assoc, Slot.rawFields, List.filter_cons]
      have hrest := ih hfits.2 (by omega)
      by_cases hdefault : (omits && item.isDefault) = true
      · rw [if_pos hdefault, if_neg (by simp [hdefault]), List.nil_append, hrest,
          Slot.rawFields]
      · rw [if_neg hdefault, List.length_append] at hshort
        rw [if_neg hdefault, if_pos (by simp [hdefault]),
          rawFields?_append _ hpos hlt (Item.plain_raw (by omega)), hrest, Option.map_map]
        rfl

/-- **The fields of a line.** -/
lemma FieldSpec.rawFields?_slotBytes (rest : Bytes) (hpos : 0 < spec.number)
    (hlt : spec.number < 2 ^ 29) (hfits : ∀ item ∈ slot, item.Fits schema spec.type)
    (hshort : (spec.slotBytes schema slot).length < 2 ^ 64) :
    rawFields? (spec.slotBytes schema slot ++ rest) =
      (rawFields? rest).map (spec.rawFields schema slot ++ ·) := by
  have heach := fun omits => Slot.rawFields?_encodeEach schema slot omits rest hpos hlt hfits
  obtain ⟨name, number, label, type⟩ := spec
  cases label with
  | singular => exact heach true hshort
  | choice => exact heach false hshort
  | repeated =>
      cases type with
      | scalar type =>
          simp only [FieldSpec.slotBytes] at hshort
          simp only [FieldSpec.slotBytes, FieldSpec.rawFields]
          split at hshort
          · simp [*]
          · rename_i hne
            rw [if_neg hne, if_neg hne]
            rw [List.length_append, delimit, List.length_append] at hshort
            have hplain : (Raw.delimited (slot.flatMap Item.wordBytes)).Plain := by
              show List.length _ < _
              omega
            have hfield := rawFields?_append rest hpos hlt hplain
            simp only [Raw.wireType, Raw.bytes] at hfield
            rw [hfield]
            rfl
      | _ => exact heach false hshort

/-- **The fields of canonical bytes.** -/
theorem Content.rawFields?_encode {specs : List (FieldSpec μ)} {content : Content}
    (hnumber : ∀ spec ∈ specs, 0 < spec.number ∧ spec.number < 2 ^ 29)
    (hfits : Content.Fits schema specs content)
    (hshort : (Content.encode schema specs content).length < 2 ^ 64) :
    rawFields? (Content.encode schema specs content) =
      some (Content.rawFields schema specs content) := by
  induction specs generalizing content with
  | nil =>
      rw [Content.encode_nil, rawFields?, Content.rawFields]
      simp
  | cons spec specs ih =>
      cases content with
      | nil => exact absurd hfits (by simp [Content.Fits])
      | cons slot slots =>
          rw [List.forall_mem_cons] at hnumber
          rw [Content.Fits, Slot.fits_iff] at hfits
          rw [Content.encode_cons, List.length_append] at hshort
          rw [Content.encode_cons, FieldSpec.rawFields?_slotBytes _ hnumber.1.1 hnumber.1.2 hfits.1
            (by omega), ih hnumber.2 hfits.2.2.2 (by omega), Content.rawFields, Option.map_some]

/-! ## Canonical bytes are tidy -/

lemma Slot.mem_rawFields {number : Nat} {type : FieldType μ} {omits : Bool} {field : Nat × Raw}
    (h : field ∈ Slot.rawFields schema number type omits slot) :
    ∃ item ∈ slot, field = (number, item.raw schema type) := by
  obtain ⟨item, hitem, rfl⟩ := List.mem_map.mp h
  exact ⟨item, (List.mem_filter.mp hitem).1, rfl⟩

/-- A field is one item of its line, or it is a packed list. -/
lemma FieldSpec.mem_rawFields {field : Nat × Raw} (h : field ∈ spec.rawFields schema slot) :
    (∃ item ∈ slot, field = (spec.number, item.raw schema spec.type) ∧
      spec.written = spec.type.wireType) ∨
    (∃ type body, spec.type = .scalar type ∧ field = (spec.number, .delimited body) ∧
      spec.written = .delimited) := by
  obtain ⟨name, number, label, type⟩ := spec
  have hitem : ∀ omits, field ∈ Slot.rawFields schema number type omits slot →
      ∃ item ∈ slot, field = (number, item.raw schema type) := fun _ => Slot.mem_rawFields
  cases label with
  | singular =>
      obtain ⟨item, hmem, hfield⟩ := hitem true h
      exact .inl ⟨item, hmem, hfield, rfl⟩
  | choice =>
      obtain ⟨item, hmem, hfield⟩ := hitem false h
      exact .inl ⟨item, hmem, hfield, rfl⟩
  | repeated =>
      cases type with
      | scalar type =>
          simp only [FieldSpec.rawFields] at h
          split at h
          · exact absurd h (by simp)
          · exact .inr ⟨type, _, rfl, List.mem_singleton.mp h, rfl⟩
      | _ =>
          obtain ⟨item, hmem, hfield⟩ := hitem false h
          exact .inl ⟨item, hmem, hfield, rfl⟩

lemma Item.Fits.layout?_raw {type : FieldType μ} {item : Item} (h : item.Fits schema type) :
    (item.raw schema type).layout? = some type.wireType := by
  cases type <;> cases item <;> first | rfl | exact absurd h (by simp [Item.Fits])

lemma FieldSpec.knows_of_mem (hitems : ∀ item ∈ slot, item.Fits schema spec.type)
    {field : Nat × Raw} (h : field ∈ spec.rawFields schema slot) : spec.Knows field := by
  rcases FieldSpec.mem_rawFields h with ⟨item, hitem, rfl, hwritten⟩ | ⟨_, _, _, rfl, hwritten⟩
  · refine ⟨rfl, ?_⟩
    rw [hwritten]
    exact (hitems item hitem).layout?_raw
  · refine ⟨rfl, ?_⟩
    rw [hwritten]
    rfl

/-- The body of a nested message holds the canonical bytes of a message of its slot. -/
lemma FieldSpec.exists_message_of_mem (hitems : ∀ item ∈ slot, item.Fits schema spec.type)
    {field : Nat × Raw} (h : field ∈ spec.rawFields schema slot) {inner : μ} {body : Bytes}
    (htype : spec.type = .message inner) (hbody : field.2 = .delimited body) :
    ∃ slots, .message slots ∈ slot ∧ body = Content.encode schema (schema inner) slots := by
  rcases FieldSpec.mem_rawFields h with ⟨item, hitem, rfl, -⟩ | ⟨_, _, hscalar, -, -⟩
  · have hfits := hitems item hitem
    rw [htype] at hfits hbody
    cases item with
    | message slots =>
        refine ⟨slots, hitem, ?_⟩
        simpa [Item.raw] using hbody.symm
    | _ => exact absurd hfits (by simp [Item.Fits])
  · rw [htype] at hscalar
    exact absurd hscalar (by simp)

lemma Content.mem_rawFields {specs : List (FieldSpec μ)} {content : Content} {field : Nat × Raw}
    (h : field ∈ Content.rawFields schema specs content) :
    ∃ x ∈ specs.zip content, field ∈ x.1.rawFields schema x.2 := by
  induction specs generalizing content with
  | nil => exact absurd h (by simp [Content.rawFields])
  | cons spec specs ih =>
      cases content with
      | nil => exact absurd h (by simp [Content.rawFields])
      | cons slot slots =>
          rw [Content.rawFields] at h
          rcases List.mem_append.mp h with h | h
          · exact ⟨(spec, slot), by simp, h⟩
          · obtain ⟨x, hx, hfield⟩ := ih h
            exact ⟨x, List.mem_cons_of_mem _ hx, hfield⟩

/-- A field has the number of its line. -/
lemma FieldSpec.number_of_mem {field : Nat × Raw} (h : field ∈ spec.rawFields schema slot) :
    field.1 = spec.number := by
  rcases FieldSpec.mem_rawFields h with ⟨_, _, rfl, _⟩ | ⟨_, _, _, rfl, _⟩ <;> rfl

/-- **Lines by number write fields by number.** -/
lemma Content.ascending_rawFields {specs : List (FieldSpec μ)} (content : Content)
    (hascending : (specs.map FieldSpec.number).Pairwise (· < ·)) :
    ((Content.rawFields schema specs content).map Prod.fst).Pairwise (· ≤ ·) := by
  induction specs generalizing content with
  | nil => simp [Content.rawFields]
  | cons spec specs ih =>
      cases content with
      | nil => simp [Content.rawFields]
      | cons slot slots =>
          rw [List.map_cons, List.pairwise_cons] at hascending
          rw [Content.rawFields, List.map_append, List.pairwise_append]
          refine ⟨?_, ih slots hascending.2, ?_⟩
          · refine List.pairwise_of_forall_mem_list ?_
            intro m hm n hn
            obtain ⟨field, hfield, rfl⟩ := List.mem_map.mp hm
            obtain ⟨other, hother, rfl⟩ := List.mem_map.mp hn
            rw [FieldSpec.number_of_mem hfield, FieldSpec.number_of_mem hother]
          · intro m hm n hn
            obtain ⟨field, hfield, rfl⟩ := List.mem_map.mp hm
            obtain ⟨other, hother, rfl⟩ := List.mem_map.mp hn
            obtain ⟨x, hx, hline⟩ := Content.mem_rawFields hother
            rw [FieldSpec.number_of_mem hfield, FieldSpec.number_of_mem hline]
            exact Nat.le_of_lt (hascending.1 _ (List.mem_map_of_mem (List.of_mem_zip hx).1))

/-- The messages in a message are tidy if they are written canonically, and then so is it. -/
lemma Content.tidy_encode_of (hschema : schema.Sound)
    (hascending : ∀ name, ((schema name).map FieldSpec.number).Pairwise (· < ·)) {name : μ}
    {content : Content} (hfits : Content.Fits schema (schema name) content)
    (hshort : (Content.encode schema (schema name) content).length < 2 ^ 64)
    (hnested : ∀ slot ∈ content, ∀ slots, .message slots ∈ slot → ∀ inner,
      Content.Fits schema (schema inner) slots →
      (Content.encode schema (schema inner) slots).length < 2 ^ 64 →
      Tidy schema inner (Content.encode schema (schema inner) slots)) :
    Tidy schema name (Content.encode schema (schema name) content) := by
  refine .mk (Content.rawFields?_encode (hschema.fits name) hfits hshort) ?_
    (Content.ascending_rawFields content (hascending name)) ?_
  · intro field hfield
    obtain ⟨x, hx, hline⟩ := Content.mem_rawFields hfield
    exact ⟨x.1, (List.of_mem_zip hx).1, FieldSpec.knows_of_mem (hfits.of_mem_zip hx) hline⟩
  · intro field hfield spec hspec hknows inner htype body hbody
    obtain ⟨x, hx, hline⟩ := Content.mem_rawFields hfield
    -- Numbers are told apart, so this is the line that wrote the field.
    obtain rfl : x.1 = spec := List.inj_on_of_nodup_map (hschema.distinct name)
      (List.of_mem_zip hx).1 hspec ((FieldSpec.number_of_mem hline).symm.trans hknows.number)
    obtain ⟨slots, hmem, rfl⟩ :=
      FieldSpec.exists_message_of_mem (hfits.of_mem_zip hx) hline htype hbody
    obtain ⟨hslots, hslotsShort⟩ := hfits.of_message hshort hx htype hmem
    exact hnested x.2 (List.of_mem_zip hx).2 slots hmem inner hslots hslotsShort

lemma Item.tidy_encode (hschema : schema.Sound)
    (hascending : ∀ name, ((schema name).map FieldSpec.number).Pairwise (· < ·)) (item : Item) :
    ∀ slots, item = .message slots → ∀ name, Content.Fits schema (schema name) slots →
      (Content.encode schema (schema name) slots).length < 2 ^ 64 →
      Tidy schema name (Content.encode schema (schema name) slots) := by
  induction item using Item.induction with
  | leaf item hleaf => exact fun slots hitem => absurd hitem (hleaf slots)
  | message content ih =>
      rintro _ ⟨⟩ name hfits hshort
      exact Content.tidy_encode_of hschema hascending hfits hshort
        fun slot hslot slots hmem => ih slot hslot _ hmem slots rfl

/-- **Canonical bytes are tidy**, if the lines of every descriptor stand by number. -/
theorem Content.tidy_encode (hschema : schema.Sound)
    (hascending : ∀ name, ((schema name).map FieldSpec.number).Pairwise (· < ·)) {name : μ}
    {content : Content} (hfits : Content.Fits schema (schema name) content)
    (hshort : (Content.encode schema (schema name) content).length < 2 ^ 64) :
    Tidy schema name (Content.encode schema (schema name) content) :=
  Item.tidy_encode hschema hascending (.message content) content rfl name hfits hshort

end ProfilePipeline.Wire
