import Mathlib.Tactic.Common
import ProfilePipeline.Proofs.Wire.Consumption
import ProfilePipeline.Proofs.Wire.Merging

/-!
# How much longer content gets when it is written again

Canonical bytes are mostly shorter than what was read, but not always: a number may get more digits,
an element of a list that came without a packed list around it needs a length, and a message that
grew may need a longer one.  None of this more than doubles the bytes of a field.

**One slot.**  `Slot.Merged.length_le`: a slot gets longer by at most twice the bytes of a field.

**One message.**  `Content.length_absorb?_le` adds these up over a run of the loop, as long as the
sum is a length at all.

**Nesting.**  `Content.read?_upholds` is the induction on the budget, for this and for
`Content.Held` together.
-/

namespace ProfilePipeline.Wire

/-! ## One slot -/

variable {μ : Type} {schema : Schema μ} {nested : μ → Content → Bytes → Option Content}
  {spec : FieldSpec μ} {slot merged : Slot} {raw : Raw}

/-- The bytes of one more item of a line whose items are written one by one. -/
lemma FieldSpec.length_slotBytes_push (schema : Schema μ) (slot : Slot) (item : Item)
    (hone : spec.label = .repeated → ∀ type, spec.type ≠ .scalar type) :
    (spec.slotBytes schema (spec.push slot item)).length ≤
      (keyBytes spec.number spec.type.wireType).length + (item.encode schema spec.type).length +
        if spec.label = .repeated then (spec.slotBytes schema slot).length else 0 := by
  have hcons : ∀ omits items,
      (Slot.encodeEach schema spec.number spec.type omits (item :: items)).length ≤
        (keyBytes spec.number spec.type.wireType).length + (item.encode schema spec.type).length +
          (Slot.encodeEach schema spec.number spec.type omits items).length := by
    intro omits items
    rw [Slot.encodeEach, List.length_append]
    split
    · exact Nat.add_le_add_right (Nat.zero_le _) _
    · rw [List.length_append]
  have hnil : ∀ omits, Slot.encodeEach schema spec.number spec.type omits [] = [] := by
    intro omits
    rw [Slot.encodeEach]
  cases hlabel : spec.label with
  | singular =>
      have := hcons true []
      simpa [FieldSpec.slotBytes, FieldSpec.push, hlabel, hnil] using this
  | choice =>
      have := hcons false []
      simpa [FieldSpec.slotBytes, FieldSpec.push, hlabel, hnil] using this
  | repeated =>
      have heach : ∀ items, spec.slotBytes schema items =
          Slot.encodeEach schema spec.number spec.type false items := by
        intro items
        have := hone hlabel
        rw [FieldSpec.slotBytes, hlabel]
        split <;> simp_all
      rw [if_pos rfl, heach, heach, FieldSpec.push, hlabel]
      exact hcons false slot

/-- The bytes of a packed list in front of which more words are put. -/
lemma FieldSpec.length_slotBytes_packed (schema : Schema μ) {type : ScalarType}
    (hlabel : spec.label = .repeated) (htype : spec.type = .scalar type) (new slot : Slot)
    (hroom : (spec.slotBytes schema slot).length + (new.flatMap Item.wordBytes).length < 2 ^ 64) :
    (spec.slotBytes schema (new ++ slot)).length ≤
      (spec.slotBytes schema slot).length + (keyBytes spec.number .delimited).length +
        delimitedLen (new.flatMap Item.wordBytes).length := by
  have hnone : spec.slotBytes schema [] = [] := by
    rw [FieldSpec.slotBytes, hlabel, htype]
    rfl
  have hsome : ∀ items, items ≠ [] → (spec.slotBytes schema items).length =
      (keyBytes spec.number .delimited).length +
        delimitedLen (items.flatMap Item.wordBytes).length := by
    intro items hitems
    rw [FieldSpec.slotBytes, hlabel, htype, delimitedLen_eq, ← List.length_append]
    exact congrArg List.length (if_neg (by simpa using hitems))
  by_cases hslot : slot = []
  · subst hslot
    by_cases hnew : new = []
    · subst hnew
      rw [List.append_nil, hnone]
      exact Nat.zero_le _
    · rw [List.append_nil, hsome new hnew, hnone, List.length_nil, Nat.zero_add]
  · rw [hsome slot hslot] at hroom ⊢
    rw [hsome (new ++ slot) (by simp [hslot]), List.flatMap_append, List.length_append]
    rw [delimitedLen] at hroom
    have := delimitedLen_add_le (m := (new.flatMap Item.wordBytes).length)
      (n := (slot.flatMap Item.wordBytes).length) (by omega)
    omega

/-- A reader of nested messages makes a message longer by at most twice the bytes that it reads, if
these fit a length at all. -/
def Restrains (schema : Schema μ) (nested : μ → Content → Bytes → Option Content) (budget : Nat) :
    Prop :=
  ∀ name start body slots, nested name start body = some slots →
    ∃ lower, budget = lower + 1 ∧
      (Content.Held schema lower (schema name) start →
        (Content.encode schema (schema name) start).length + 2 * body.length < 2 ^ 64 →
        (Content.encode schema (schema name) slots).length ≤
          (Content.encode schema (schema name) start).length + 2 * body.length)

/-- The empty message is written as nothing. -/
lemma Content.encode_blank (schema : Schema μ) (specs : List (FieldSpec μ)) :
    Content.encode schema specs (.blank specs) = [] := by
  induction specs with
  | nil => exact Content.encode_nil schema _
  | cons spec specs ih =>
      have hblank : spec.slotBytes schema spec.blank = [] := by
        obtain ⟨_, _, label, type⟩ := spec
        cases label <;> cases type <;>
          simp [FieldSpec.slotBytes, FieldSpec.blank, FieldType.default?, Slot.encodeEach,
            Item.isDefault]
      rw [Content.blank, List.map_cons, Content.encode_cons, hblank]
      exact ih

/-- A line with one message. -/
lemma FieldSpec.length_slotBytes_message {name : μ} (hlabel : spec.label ≠ .repeated)
    (htype : spec.type = .message name) (slots : Content) :
    (spec.slotBytes schema [.message slots]).length =
      (keyBytes spec.number spec.type.wireType).length +
        delimitedLen (Content.encode schema (schema name) slots).length := by
  have heach : ∀ omits, (Slot.encodeEach schema spec.number spec.type omits
      [.message slots]).length = (keyBytes spec.number spec.type.wireType).length +
        delimitedLen (Content.encode schema (schema name) slots).length := by
    intro omits
    rw [htype, Slot.encodeEach, Slot.encodeEach, List.append_nil, delimitedLen_eq]
    simp [Item.isDefault, Item.encode]
  rw [FieldSpec.slotBytes]
  split
  · exact heach true
  · exact absurd ‹_› hlabel
  · exact absurd ‹_› hlabel
  · exact heach false

lemma length_keyBytes_pos (number : Nat) (type : WireType) : 0 < (keyBytes number type).length :=
  Varint.length_ofNat_pos _

/-- The bytes of a slot, and twice those of a field for its line. -/
def FieldSpec.allowance (schema : Schema μ) (spec : FieldSpec μ) (slot : Slot) (raw : Raw) : Nat :=
  (spec.slotBytes schema slot).length +
    2 * ((keyBytes spec.number spec.type.wireType).length + raw.bytes.length)

/-- An item that has at most twice the bytes of its payload. -/
lemma FieldSpec.length_push_le {item : Item}
    (hone : spec.label = .repeated → ∀ type, spec.type ≠ .scalar type)
    (hitem : (item.encode schema spec.type).length ≤ 2 * raw.bytes.length) :
    (spec.slotBytes schema (spec.push slot item)).length ≤ spec.allowance schema slot raw := by
  have hle := spec.length_slotBytes_push schema slot item hone
  rw [FieldSpec.allowance]
  split at hle <;> omega

/-- A word that came without a packed list around it needs a key and a length if it is the first,
and the length takes no more than a key did. -/
lemma FieldSpec.length_word_le {type : ScalarType} (w : UInt64) (hlabel : spec.label = .repeated)
    (htype : spec.type = .scalar type) (hroom : spec.allowance schema slot (.varint w) < 2 ^ 64) :
    (spec.slotBytes schema (.word (type.normalize w) :: slot)).length ≤
      spec.allowance schema slot (.varint w) := by
  have hkey := length_keyBytes_pos spec.number spec.type.wireType
  have hword := type.length_normalize_le w
  have hten := Varint.length_ofNat_word (type.normalize w)
  rw [FieldSpec.allowance, Raw.bytes] at hroom ⊢
  have hbytes : [Item.word (type.normalize w)].flatMap Item.wordBytes =
      Varint.ofNat (type.normalize w).toNat := List.flatMap_singleton ..
  have hlen : delimitedLen (Varint.ofNat (type.normalize w).toNat).length ≤
      1 + 2 * (Varint.ofNat w.toNat).length := by
    rw [delimitedLen_of_lt (by omega)]
    have hdigit : (Varint.ofNat (Varint.ofNat (type.normalize w).toNat).length).length ≤ 1 :=
      Varint.length_ofNat_le_of_lt Nat.one_pos (by omega)
    omega
  have hpacked := spec.length_slotBytes_packed schema hlabel htype [Item.word (type.normalize w)]
    slot (by rw [hbytes]; omega)
  rw [hbytes, length_keyBytes _ _ spec.type.wireType] at hpacked
  exact hpacked.trans (by omega)

/-- The words of a packed list. -/
lemma FieldSpec.length_words_le {type : ScalarType} {body : Bytes} {ws : List UInt64}
    (hlabel : spec.label = .repeated) (htype : spec.type = .scalar type)
    (hread : readWords? body = some ws)
    (hroom : spec.allowance schema slot (.delimited body) < 2 ^ 64) :
    (spec.slotBytes schema
        ((ws.map fun w => Item.word (type.normalize w)).reverse ++ slot)).length ≤
      spec.allowance schema slot (.delimited body) := by
  have hbody := (type.length_words_le ws).trans (Nat.mul_le_mul_left 2 (length_readWords? hread))
  rw [FieldSpec.allowance, Raw.bytes, ← delimitedLen_eq] at hroom ⊢
  have hshort : 2 * body.length < 2 ^ 64 := by
    rw [delimitedLen] at hroom
    omega
  have hlen := (delimitedLen_mono hbody hshort).trans (delimitedLen_double_le hshort)
  have hpacked := spec.length_slotBytes_packed schema hlabel htype
    (ws.map fun w => Item.word (type.normalize w)).reverse slot (by
      rw [delimitedLen] at hroom
      omega)
  rw [length_keyBytes _ _ spec.type.wireType] at hpacked
  omega

/-- A message that was read on top of the empty one. -/
lemma FieldSpec.length_fresh_le {name : μ} {body : Bytes} {slots : Content}
    (htype : spec.type = .message name)
    (hslots : (Content.encode schema (schema name) slots).length ≤ 2 * body.length)
    (hroom : spec.allowance schema slot (.delimited body) < 2 ^ 64) :
    (spec.slotBytes schema (spec.push slot (.message slots))).length ≤
      spec.allowance schema slot (.delimited body) := by
  have hshort : 2 * body.length < 2 ^ 64 := by
    rw [FieldSpec.allowance, Raw.bytes, ← delimitedLen_eq, delimitedLen] at hroom
    omega
  refine FieldSpec.length_push_le (by simp [htype]) ?_
  rw [htype, Item.encode, Raw.bytes, ← delimitedLen_eq, ← delimitedLen_eq]
  exact (delimitedLen_mono hslots hshort).trans (delimitedLen_double_le hshort)

/-- A message that was read on top of another one. -/
lemma FieldSpec.length_grown_le {name : μ} {body : Bytes} {start slots : Content}
    (hlabel : spec.label ≠ .repeated) (htype : spec.type = .message name)
    (hslots : (Content.encode schema (schema name) start).length + 2 * body.length < 2 ^ 64 →
      (Content.encode schema (schema name) slots).length ≤
        (Content.encode schema (schema name) start).length + 2 * body.length)
    (hroom : spec.allowance schema [.message start] (.delimited body) < 2 ^ 64) :
    (spec.slotBytes schema [.message slots]).length ≤
      spec.allowance schema [.message start] (.delimited body) := by
  rw [FieldSpec.allowance, spec.length_slotBytes_message hlabel htype, Raw.bytes,
    ← delimitedLen_eq] at hroom ⊢
  have hsum : (Content.encode schema (schema name) start).length + 2 * body.length < 2 ^ 64 := by
    rw [delimitedLen, delimitedLen] at hroom
    omega
  have hdouble := delimitedLen_double_le (n := body.length) (by omega)
  have hlonger := (delimitedLen_mono (hslots hsum) hsum).trans (delimitedLen_add_le hsum)
  rw [spec.length_slotBytes_message hlabel htype]
  omega

/-- **A slot gets longer by at most twice the bytes of a field.** -/
theorem Slot.Merged.length_le {budget : Nat}
    (hmerged : Slot.Merged schema nested spec slot raw merged)
    (hnested : Restrains schema nested budget) (h : Slot.Held schema budget spec slot)
    (hroom : spec.allowance schema slot raw < 2 ^ 64) :
    (spec.slotBytes schema merged).length ≤ spec.allowance schema slot raw := by
  cases hmerged with
  | @word type w htype =>
      by_cases hlabel : spec.label = .repeated
      · rw [FieldSpec.push, hlabel]
        exact FieldSpec.length_word_le w hlabel htype hroom
      · refine FieldSpec.length_push_le (fun h => absurd h hlabel) ?_
        rw [Item.encode, Raw.bytes]
        exact type.length_normalize_le w
  | words htype hlabel hread => exact FieldSpec.length_words_le hlabel htype hread hroom
  | fixed64 w htype =>
      refine FieldSpec.length_push_le ?_ ?_
      · rcases htype with htype | htype <;> simp [htype]
      · rw [Item.encode, Raw.bytes]
        omega
  | text htype hread =>
      refine FieldSpec.length_push_le (by simp [htype]) ?_
      rw [Item.encode, Raw.bytes, utf8_of_ofUtf8? hread]
      omega
  | bytes body htype =>
      refine FieldSpec.length_push_le (by simp [htype]) ?_
      rw [Item.encode, Raw.bytes]
      omega
  | @message name body start slots htype hstart hread =>
      obtain ⟨lower, rfl, hlonger⟩ := hnested name start body slots hread
      have hslots := hlonger (h.start htype hstart)
      rcases hstart with rfl | ⟨hlabel, items, rfl⟩
      · rw [Content.encode_blank, List.length_nil, Nat.zero_add] at hslots
        refine FieldSpec.length_fresh_le htype (hslots ?_) hroom
        rw [FieldSpec.allowance, Raw.bytes, ← delimitedLen_eq, delimitedLen] at hroom
        omega
      · obtain rfl : items = [] := by
          have := h.admits
          cases hl : spec.label <;> simp_all [FieldSpec.Admits]
        have hone : spec.push [.message start] (.message slots) = [.message slots] := by
          cases hl : spec.label <;> simp_all [FieldSpec.push]
        rw [hone]
        exact FieldSpec.length_grown_le hlabel htype hslots hroom

/-! ## One message -/

section Message

variable {budget position : Nat} {specs : List (FieldSpec μ)} {content after : Content}
  {input : Bytes}

lemma FieldSpec.slotBytes_nil (hlabel : spec.label = .choice) : spec.slotBytes schema [] = [] := by
  rw [FieldSpec.slotBytes, hlabel]
  show Slot.encodeEach schema spec.number spec.type false [] = []
  rw [Slot.encodeEach]

lemma Content.length_encode_cleared (schema : Schema μ) (specs : List (FieldSpec μ))
    (content : Content) :
    (Content.encode schema specs (Content.cleared specs content)).length ≤
      (Content.encode schema specs content).length := by
  induction specs generalizing content with
  | nil => simp [Content.encode_nil]
  | cons spec specs ih =>
      cases content with
      | nil => exact Nat.le_refl _
      | cons old content =>
          have hrest := ih content
          show (Content.encode schema (spec :: specs)
            ((if spec.label = .choice then [] else old) ::
              Content.cleared specs content)).length ≤ _
          rw [Content.encode_cons, Content.encode_cons, List.length_append, List.length_append]
          split
          · rw [FieldSpec.slotBytes_nil ‹_›, List.length_nil]
            omega
          · omega

/-- **Storing a slot changes the length by that of the slot**, or makes the rest shorter. -/
lemma Content.length_encode_store (schema : Schema μ) (clears : Bool) (slot : Slot) {old : Slot}
    (hspec : specs[position]? = some spec) (hold : content[position]? = some old) :
    (Content.encode schema specs (content.store specs position slot clears)).length +
        (spec.slotBytes schema old).length ≤
      (Content.encode schema specs content).length + (spec.slotBytes schema slot).length := by
  induction specs generalizing content position with
  | nil => exact absurd hspec (by simp)
  | cons first specs ih =>
      cases content with
      | nil => exact absurd hold (by simp)
      | cons head content =>
          cases position with
          | zero =>
              obtain rfl : first = spec := by simpa using hspec
              obtain rfl : head = old := by simpa using hold
              have hcleared := Content.length_encode_cleared schema specs content
              rw [Content.store_zero, Content.encode_cons, Content.encode_cons, List.length_append,
                List.length_append]
              split <;> omega
          | succ position =>
              have hrest := ih (by simpa using hspec) (by simpa using hold)
              rw [Content.store_succ, Content.encode_cons, Content.encode_cons, List.length_append,
                List.length_append]
              split
              · rename_i hchoice
                rw [FieldSpec.slotBytes_nil hchoice.2, List.length_nil]
                omega
              · omega

/-- **Content gets longer by at most twice the bytes that are read.** -/
theorem Content.length_absorb?_le (hupholds : Upholds schema nested budget)
    (hrestrains : Restrains schema nested budget) (h : Content.Held schema budget specs content)
    (hroom : (Content.encode schema specs content).length + 2 * input.length < 2 ^ 64)
    (hread : Content.absorb? nested schema budget specs content input = some after) :
    (Content.encode schema specs after).length ≤
      (Content.encode schema specs content).length + 2 * input.length := by
  refine Content.absorb?_induction
    (P := fun before input after => Content.Held schema budget specs before →
      (Content.encode schema specs before).length + 2 * input.length < 2 ^ 64 →
      (Content.encode schema specs after).length ≤
        (Content.encode schema specs before).length + 2 * input.length) ?_ ?_ ?_ hread h hroom
  · intro _ _ _
    exact Nat.le_add_right _ _
  · intro _ _ _ _ _ _ hfield hrest hheld hroom
    have hshorter := readField?_shorter hfield
    have := hrest hheld (by omega)
    omega
  · intro before after input rest position spec slot merged raw hfield hspec hslot hmerged hrest
      hheld hroom
    have hline := hheld.line hspec hslot
    have htook := length_readField? spec.type.wireType hfield
    have hinside : (spec.slotBytes schema slot).length ≤ _ :=
      Content.length_slotBytes_le schema (Content.mem_zip hspec hslot)
    have hmore := hmerged.length_le hrestrains hline
    rw [FieldSpec.allowance] at hmore
    have hstore := Content.length_encode_store schema (spec.label = .choice) merged hspec hslot
    have hlonger := hmore (by omega)
    have := hrest (hheld.store hspec (hmerged.held hupholds hline)) (by omega)
    omega

end Message

/-! ## Nested messages -/

/-- **Reading keeps what can be held, and does not make it much longer**, at every budget. -/
theorem Content.read?_upholds (schema : Schema μ) (budget : Nat) :
    Upholds schema (Content.read? schema budget) (budget + 1) ∧
      Restrains schema (Content.read? schema budget) (budget + 1) := by
  -- A message is read by the loop, whose nested messages are read with one level less.
  have hstep : ∀ (nested : μ → Content → Bytes → Option Content) (budget : Nat),
      Upholds schema nested budget → Restrains schema nested budget →
      (∀ name start body, Content.read? schema budget name start body =
        Content.absorb? nested schema budget (schema name) start body) →
      Upholds schema (Content.read? schema budget) (budget + 1) ∧
        Restrains schema (Content.read? schema budget) (budget + 1) := by
    intro nested budget hupholds hrestrains heq
    constructor
    · intro name start body slots hread
      rw [heq] at hread
      exact ⟨budget, rfl, fun hstart => hstart.absorb? hupholds hread⟩
    · intro name start body slots hread
      rw [heq] at hread
      exact ⟨budget, rfl, fun hstart hroom =>
        Content.length_absorb?_le hupholds hrestrains hstart hroom hread⟩
  induction budget with
  | zero =>
      refine hstep (fun _ _ _ => none) 0 ?_ ?_ fun _ _ _ => rfl
      · intro _ _ _ _ hread
        exact absurd hread (by simp)
      · intro _ _ _ _ hread
        exact absurd hread (by simp)
  | succ budget ih =>
      exact hstep (Content.read? schema budget) (budget + 1) ih.1 ih.2 fun _ _ _ => rfl

end ProfilePipeline.Wire
