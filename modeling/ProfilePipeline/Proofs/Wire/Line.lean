import Mathlib.Tactic.Common
import ProfilePipeline.Proofs.Wire.Content

/-!
# Reading one line

What one line of a descriptor wrote is read back, whatever follows it.

**One payload.**  `Slot.merge?_raw` is what the payload of one item does to its slot, and
`Slot.merge?_words` what a packed list does.

**One field.**  `Content.absorb?_append` is the loop at a field that was written: it stores what
`Slot.merge?` makes of the payload and goes on with the rest.

**One line.**  `Content.absorb?_slotBytes` reads all that the line wrote.  The slot starts out
blank, so a singular default that was left out is there already; and the other members of a choice
are blank, so setting one clears nothing.
-/

namespace ProfilePipeline.Wire

variable {μ : Type} {schema : Schema μ}

/-! ## Texts and packed lists -/

lemma ofUtf8?_utf8 (s : String) : ofUtf8? (utf8 s) = some s := by
  have hbytes : (⟨(utf8 s).toArray⟩ : ByteArray) = s.toByteArray := rfl
  rw [ofUtf8?, hbytes, String.fromUTF8?, dif_pos s.isValidUTF8]
  rfl

lemma readWords?_go_flatMap (seen words : List UInt64) :
    readWords?.go seen (words.flatMap fun w => Varint.ofNat w.toNat) =
      some (seen.reverse ++ words) := by
  induction words generalizing seen with
  | nil =>
      rw [List.flatMap_nil, readWords?.go]
      simp
  | cons word words ih =>
      rw [List.flatMap_cons]
      have hread := Varint.read?_ofNat word.toNat_lt (words.flatMap fun w => Varint.ofNat w.toNat)
      obtain ⟨b, bs, hinput⟩ := List.exists_cons_of_ne_nil (List.append_ne_nil_of_left_ne_nil
        (Varint.ofNat_ne_nil word.toNat) (words.flatMap fun w => Varint.ofNat w.toNat))
      rw [hinput] at hread ⊢
      rw [readWords?.go]
      split
      · simp_all
      · rename_i word' rest hread'
        rw [hread'] at hread
        simp only [Option.some.injEq, Prod.mk.injEq] at hread
        obtain ⟨hword, rfl⟩ := hread
        rw [ih, hword]
        simp

/-- **A packed list is read back.** -/
theorem readWords?_flatMap (words : List UInt64) :
    readWords? (words.flatMap fun w => Varint.ofNat w.toNat) = some words := by
  rw [readWords?, readWords?_go_flatMap]
  simp

/-! ## What one payload does to its slot -/

/-- The messages in an item can be read by `nested`. -/
def Item.Nests (schema : Schema μ) (nested : μ → Content → Bytes → Option Content)
    (type : FieldType μ) (item : Item) : Prop :=
  ∀ (name : μ) (slots : Content), type = .message name → item = .message slots →
    nested name (.blank (schema name)) (Content.encode schema (schema name) slots) =
      some slots.inOrder

/-- A slot with one more item, the newest first. -/
def FieldSpec.push (spec : FieldSpec μ) (slot : Slot) (item : Item) : Slot :=
  match spec.label with
  | .repeated => item :: slot
  | .singular | .choice => [item]

/-- The payload of an item puts the item into its slot.  A message may only find a message in the
slot if the slot takes more than one: otherwise the two would run together. -/
lemma Slot.merge?_raw {nested : μ → Content → Bytes → Option Content} {spec : FieldSpec μ}
    (slot : Slot) {item : Item} (h : item.Fits schema spec.type)
    (hn : item.Nests schema nested spec.type)
    (hslot : ∀ name, spec.type = .message name → spec.label = .repeated ∨ slot = []) :
    Slot.merge? nested schema spec slot (item.raw schema spec.type) =
      some (spec.push slot item.inOrder) := by
  obtain ⟨name, number, label, type⟩ := spec
  cases type with
  | scalar type =>
      cases item with
      | word w =>
          have hw : type.normalize w = w := h
          cases label <;> simp [Slot.merge?, Item.raw, hw, FieldSpec.push, Item.inOrder]
      | _ => exact absurd h (by simp [Item.Fits])
  | fixed64 =>
      cases item with
      | fixed64 w => cases label <;> rfl
      | _ => exact absurd h (by simp [Item.Fits])
  | double =>
      cases item with
      | fixed64 w => cases label <;> rfl
      | _ => exact absurd h (by simp [Item.Fits])
  | text =>
      cases item with
      | text s =>
          simp only [Slot.merge?, Item.raw, ofUtf8?_utf8, Option.map_some]
          cases label <;> rfl
      | _ => exact absurd h (by simp [Item.Fits])
  | bytes =>
      cases item with
      | bytes b => cases label <;> rfl
      | _ => exact absurd h (by simp [Item.Fits])
  | message inner =>
      cases item with
      | message slots =>
          have hread := hn inner slots rfl rfl
          rcases hslot inner rfl with hlabel | rfl
          · simp only at hlabel
            subst hlabel
            simp [Slot.merge?, Item.raw, hread, FieldSpec.push, Item.inOrder]
          · cases label <;> simp [Slot.merge?, Item.raw, hread, FieldSpec.push, Item.inOrder]
      | _ => exact absurd h (by simp [Item.Fits])

/-! ## One field of a message -/

section Message

variable {nested : μ → Content → Bytes → Option Content} {budget : Nat}
  {specs : List (FieldSpec μ)} {content : Content}

/-- A line stands at a position, and a reader finds it there by its number. -/
structure FoundAt (specs : List (FieldSpec μ)) (position : Nat) (spec : FieldSpec μ) : Prop where
  get : specs[position]? = some spec
  find : specs.findIdx? (·.number == spec.number) = some position
  pos : 0 < spec.number
  lt : spec.number < 2 ^ 29

/-- **The loop at a field that was written.** -/
theorem Content.absorb?_append {spec : FieldSpec μ} {position : Nat} {slot after : Slot} {raw : Raw}
    (rest : Bytes) (hspec : FoundAt specs position spec) (hslot : content[position]? = some slot)
    (hraw : raw.Plain) (hmerge : Slot.merge? nested schema spec slot raw = some after) :
    Content.absorb? nested schema budget specs content
        (keyBytes spec.number raw.wireType ++ raw.bytes ++ rest) =
      Content.absorb? nested schema budget specs
        (content.store specs position after (spec.label = .choice)) rest := by
  have hread := readField?_append budget rest hspec.pos hspec.lt hraw
  obtain ⟨b, bs, hinput⟩ := exists_cons_field spec.number raw.wireType raw.bytes rest
  rw [hinput] at hread ⊢
  rw [Content.absorb?]
  split
  · simp_all
  · rename_i number raw' rest' hread'
    rw [hread'] at hread
    simp only [Option.some.injEq, Prod.mk.injEq] at hread
    obtain ⟨⟨rfl, rfl⟩, rfl⟩ := hread
    simp only [hspec.find, hspec.get, hslot, hmerge]

/-- Replacing a slot by itself. -/
lemma Content.set_self {position : Nat} {slot : Slot} (h : content[position]? = some slot) :
    content.set position slot = content := by
  obtain ⟨hlt, rfl⟩ := List.getElem?_eq_some_iff.mp h
  exact List.set_getElem_self hlt

/-- Where no member of the choice is set, storing clears nothing. -/
lemma Content.store_eq_set (position : Nat) (slot : Slot) (clears : Bool)
    (hlen : content.length = specs.length)
    (hclear : clears = true → Content.Unchosen specs content) :
    content.store specs position slot clears = content.set position slot := by
  rw [Content.store]
  split
  · rename_i hc
    have hnone := hclear hc
    refine List.ext_getElem (by simp [hlen]) fun i h1 h2 => ?_
    have hi : i < content.length := by simpa using h2
    rw [List.getElem_mapIdx, List.getElem_zip, List.getElem_set]
    by_cases hp : i = position
    · simp [hp]
    · have hp' : ¬ position = i := fun e => hp e.symm
      have hmem : (specs[i], content[i]) ∈ specs.zip content := by
        rw [← List.getElem_zip (h := by simp; omega)]
        exact List.getElem_mem _
      rw [if_neg hp']
      simp only [hp, ↓reduceIte]
      split
      · exact (hnone _ hmem ‹_›).symm
      · rfl
  · rfl

/-! ## One line of a descriptor -/

/-- A payload is plain as soon as it is short enough. -/
lemma Item.plain_raw {type : FieldType μ} {item : Item}
    (h : (item.raw schema type).bytes.length < 2 ^ 64) : (item.raw schema type).Plain := by
  have hbody : ∀ body : Bytes, (delimit body).length < 2 ^ 64 → body.length < 2 ^ 64 := by
    intro body hd
    rw [delimit, List.length_append] at hd
    omega
  cases item <;> cases type <;> first | trivial | exact hbody _ h

/-- One item of a line that does not take lists. -/
lemma Content.absorb?_single {spec : FieldSpec μ} {position : Nat} {before : Slot} {item : Item}
    (rest : Bytes) (hspec : FoundAt specs position spec) (hslot : content[position]? = some before)
    (hlabel : spec.label ≠ .repeated) (hfits : item.Fits schema spec.type)
    (hn : item.Nests schema nested spec.type)
    (hplain : (item.raw schema spec.type).Plain)
    (hbefore : ∀ name, spec.type = .message name → before = [])
    (hlen : content.length = specs.length)
    (hclear : spec.label = .choice → Content.Unchosen specs content) :
    Content.absorb? nested schema budget specs content
        (keyBytes spec.number (item.raw schema spec.type).wireType ++
          (item.raw schema spec.type).bytes ++ rest) =
      Content.absorb? nested schema budget specs (content.set position [item.inOrder]) rest := by
  have hmerge := Slot.merge?_raw before hfits hn fun name hname =>
    .inr (hbefore name hname)
  have hpush : spec.push before item.inOrder = [item.inOrder] := by
    rw [FieldSpec.push]
    split
    · exact absurd ‹_› hlabel
    · rfl
    · rfl
  rw [Content.absorb?_append rest hspec hslot hplain hmerge, hpush,
    Content.store_eq_set position _ _ hlen (by simpa using hclear)]

/-- The items of a list that is written one by one. -/
lemma Content.absorb?_each {spec : FieldSpec μ} {position : Nat} {before items : Slot}
    (rest : Bytes) (hspec : FoundAt specs position spec) (hslot : content[position]? = some before)
    (hlabel : spec.label = .repeated) (hfits : ∀ item ∈ items, item.Fits schema spec.type)
    (hn : ∀ item ∈ items, item.Nests schema nested spec.type)
    (hlen : (Slot.encodeEach schema spec.number spec.type false items).length < 2 ^ 64) :
    Content.absorb? nested schema budget specs content
        (Slot.encodeEach schema spec.number spec.type false items ++ rest) =
      Content.absorb? nested schema budget specs
        (content.set position (Slot.inOrder before items)) rest := by
  induction items generalizing content before with
  | nil =>
      rw [Slot.encodeEach, Slot.inOrder, Content.set_self hslot]
      rfl
  | cons item items ih =>
      have hitem := hfits item List.mem_cons_self
      rw [Slot.encodeEach_cons _ _ _ hitem] at hlen ⊢
      simp only [Bool.false_and, Bool.false_eq_true, ↓reduceIte, List.length_append] at hlen ⊢
      have hplain : (item.raw schema spec.type).Plain := Item.plain_raw (by omega)
      have hmerge := Slot.merge?_raw before hitem (hn item List.mem_cons_self)
        fun _ _ => .inl hlabel
      have hpush : spec.push before item.inOrder = item.inOrder :: before := by
        rw [FieldSpec.push, hlabel]
      have hstore : (spec.label = .choice : Bool) = false := by simp [hlabel]
      obtain ⟨hlt, _⟩ := List.getElem?_eq_some_iff.mp hslot
      rw [List.append_assoc, Content.absorb?_append _ hspec hslot hplain hmerge, hpush, hstore,
        Content.store, if_neg (by simp)]
      have hslot' : (content.set position (item.inOrder :: before))[position]? =
          some (item.inOrder :: before) := by
        simp [hlt]
      rw [ih hslot' (fun x hx => hfits x (List.mem_cons_of_mem _ hx))
        (fun x hx => hn x (List.mem_cons_of_mem _ hx)) (by omega), List.set_set, Slot.inOrder]

/-- A default is what the blank slot of its type holds, and there is nothing in it to turn
around. -/
lemma Item.Fits.default? {type : FieldType μ} {item : Item} (h : item.Fits schema type)
    (hd : item.isDefault = true) : type.default? = some item ∧ item.inOrder = item := by
  cases item with
  | message slots => exact absurd hd (by simp [Item.isDefault])
  | word w =>
      have hw : w = 0 := by simpa [Item.isDefault] using hd
      subst hw
      cases type <;> first | exact ⟨rfl, rfl⟩ | exact absurd h (by simp [Item.Fits])
  | fixed64 w =>
      have hw : w = 0 := by simpa [Item.isDefault] using hd
      subst hw
      cases type <;> first | exact ⟨rfl, rfl⟩ | exact absurd h (by simp [Item.Fits])
  | text s =>
      have hs : s = "" := by simpa [Item.isDefault] using hd
      subst hs
      cases type <;> first | exact ⟨rfl, rfl⟩ | exact absurd h (by simp [Item.Fits])
  | bytes b =>
      have hb : b = [] := by simpa [Item.isDefault] using hd
      subst hb
      cases type <;> first | exact ⟨rfl, rfl⟩ | exact absurd h (by simp [Item.Fits])

/-- The words of a list of numbers. -/
lemma Slot.exists_words {type : ScalarType} {slot : Slot}
    (h : ∀ item ∈ slot, item.Fits schema (.scalar type)) :
    ∃ words : List UInt64, slot = words.map Item.word ∧ ∀ w ∈ words, type.normalize w = w := by
  induction slot with
  | nil => exact ⟨[], rfl, by simp⟩
  | cons item items ih =>
      obtain ⟨words, rfl, hwords⟩ := ih fun x hx => h x (List.mem_cons_of_mem _ hx)
      have hitem := h item List.mem_cons_self
      cases item with
      | word w => exact ⟨w :: words, rfl, List.forall_mem_cons.mpr ⟨hitem, hwords⟩⟩
      | _ => exact absurd hitem (by simp [Item.Fits])

/-- The payload of a packed list puts all its words into a slot that was empty. -/
lemma Slot.merge?_words {spec : FieldSpec μ} {type : ScalarType} {words : List UInt64}
    (hlabel : spec.label = .repeated) (htype : spec.type = .scalar type)
    (hwords : ∀ w ∈ words, type.normalize w = w) :
    Slot.merge? nested schema spec []
        (.delimited ((words.map Item.word).flatMap Item.wordBytes)) =
      some (Slot.inOrder [] (words.map Item.word)) := by
  have hbody : (words.map Item.word).flatMap Item.wordBytes =
      words.flatMap fun w => Varint.ofNat w.toNat := by
    rw [List.flatMap_map]
    rfl
  have hfold : ∀ slot : Slot,
      words.foldl (fun slot w => Item.word (type.normalize w) :: slot) slot =
        (words.map Item.word).reverse ++ slot := by
    induction words with
    | nil => intro slot; rfl
    | cons w words ih =>
        intro slot
        have hrest : ∀ w ∈ words, type.normalize w = w :=
          fun x hx => hwords x (List.mem_cons_of_mem _ hx)
        rw [List.foldl_cons, hwords w List.mem_cons_self,
          ih hrest (by rw [List.flatMap_map]; rfl)]
        simp
  have hmap : (words.map Item.word).map Item.inOrder = words.map Item.word := by
    rw [List.map_map]
    rfl
  obtain ⟨name, number, label, type'⟩ := spec
  obtain rfl : label = .repeated := hlabel
  obtain rfl : type' = .scalar type := htype
  rw [hbody]
  show (readWords? _).map _ = _
  rw [readWords?_flatMap, Option.map_some, hfold, Slot.inOrder_eq, hmap]

/-- A line that takes one item.  If the item is a default it was left out, and the blank slot holds
it already; if a message is missing, the blank slot is without it. -/
lemma Content.absorb?_singular {spec : FieldSpec μ} {position : Nat} {slot : Slot} (rest : Bytes)
    (hlabel : spec.label = .singular) (hspec : FoundAt specs position spec)
    (hblank : content[position]? = some spec.blank) (hlen : content.length = specs.length)
    (hfits : ∀ item ∈ slot, item.Fits schema spec.type) (hadmits : spec.Admits slot)
    (hn : ∀ item ∈ slot, item.Nests schema nested spec.type)
    (hbytes : (Slot.encodeEach schema spec.number spec.type true slot).length < 2 ^ 64) :
    Content.absorb? nested schema budget specs content
        (Slot.encodeEach schema spec.number spec.type true slot ++ rest) =
      Content.absorb? nested schema budget specs
        (content.set position (Slot.inOrder [] slot)) rest := by
  rw [FieldSpec.Admits, hlabel] at hadmits
  cases slot with
  | nil =>
      have hnil : spec.blank = [] := by
        rw [FieldSpec.blank, hlabel]
        cases htype : spec.type <;> simp_all [FieldType.default?]
      rw [hnil] at hblank
      rw [Slot.inOrder, Content.set_self hblank, Slot.encodeEach]
      rfl
  | cons item items =>
      have hitems : items = [] := by
        cases htype : spec.type <;> simp_all
      subst hitems
      have hitem := hfits item List.mem_cons_self
      rw [Slot.encodeEach_cons _ _ _ hitem, Slot.encodeEach, List.append_nil] at hbytes ⊢
      rw [Slot.inOrder_singleton]
      by_cases hdefault : item.isDefault = true
      · obtain ⟨hd, hin⟩ := hitem.default? hdefault
        have hset : spec.blank = [item] := by rw [FieldSpec.blank, hlabel, hd]; rfl
        rw [hset] at hblank
        rw [hin, Content.set_self hblank, hdefault]
        rfl
      · rw [if_neg (by simpa using hdefault), List.length_append] at hbytes
        rw [if_neg (by simpa using hdefault)]
        refine Content.absorb?_single rest hspec hblank (by simp [hlabel]) hitem
          (hn item List.mem_cons_self) (Item.plain_raw (by omega)) ?_ hlen (by simp [hlabel])
        intro name hname
        rw [FieldSpec.blank, hlabel, hname]
        rfl

/-- A line that is a member of a choice. -/
lemma Content.absorb?_choice {spec : FieldSpec μ} {position : Nat} {slot : Slot} (rest : Bytes)
    (hlabel : spec.label = .choice) (hspec : FoundAt specs position spec)
    (hblank : content[position]? = some []) (hlen : content.length = specs.length)
    (hfits : ∀ item ∈ slot, item.Fits schema spec.type) (hone : slot.length ≤ 1)
    (hn : ∀ item ∈ slot, item.Nests schema nested spec.type)
    (hclear : slot ≠ [] → Content.Unchosen specs content)
    (hbytes : (Slot.encodeEach schema spec.number spec.type false slot).length < 2 ^ 64) :
    Content.absorb? nested schema budget specs content
        (Slot.encodeEach schema spec.number spec.type false slot ++ rest) =
      Content.absorb? nested schema budget specs
        (content.set position (Slot.inOrder [] slot)) rest := by
  cases slot with
  | nil =>
      rw [Slot.inOrder, Content.set_self hblank, Slot.encodeEach]
      rfl
  | cons item items =>
      obtain rfl : items = [] := by simpa using hone
      have hitem := hfits item List.mem_cons_self
      rw [Slot.encodeEach_cons _ _ _ hitem, Slot.encodeEach, List.append_nil,
        if_neg (by simp)] at hbytes ⊢
      rw [List.length_append] at hbytes
      rw [Slot.inOrder_singleton]
      exact Content.absorb?_single rest hspec hblank (by simp [hlabel]) hitem
        (hn item List.mem_cons_self) (Item.plain_raw (by omega)) (fun _ _ => rfl) hlen
        fun _ => hclear (by simp)

/-- A line that takes a list of numbers, which is packed. -/
lemma Content.absorb?_packed {spec : FieldSpec μ} {position : Nat} {slot : Slot} (rest : Bytes)
    (hlabel : spec.label = .repeated) {type : ScalarType} (htype : spec.type = .scalar type)
    (hspec : FoundAt specs position spec) (hblank : content[position]? = some [])
    (hfits : ∀ item ∈ slot, item.Fits schema spec.type)
    (hbytes : (spec.slotBytes schema slot).length < 2 ^ 64) :
    Content.absorb? nested schema budget specs content (spec.slotBytes schema slot ++ rest) =
      Content.absorb? nested schema budget specs
        (content.set position (Slot.inOrder [] slot)) rest := by
  obtain ⟨words, rfl, hwords⟩ := Slot.exists_words (htype ▸ hfits)
  rw [FieldSpec.slotBytes, hlabel, htype] at hbytes ⊢
  simp only at hbytes ⊢
  split at hbytes
  · rename_i hempty
    obtain rfl : words = [] := by simpa using hempty
    rw [List.map_nil, Slot.inOrder, Content.set_self hblank]
    rfl
  · rename_i hne
    rw [if_neg hne]
    rw [List.length_append, delimit, List.length_append] at hbytes
    have hplain : (Raw.delimited ((words.map Item.word).flatMap Item.wordBytes)).Plain := by
      show List.length _ < _
      omega
    refine (Content.absorb?_append rest hspec hblank hplain
      (Slot.merge?_words hlabel htype hwords)).trans ?_
    rw [Content.store, if_neg (by simp [hlabel])]

/-- **All that one line of a descriptor wrote is read back.**  Its slot was blank, and if the line
is a member of a choice that is set, no member was. -/
theorem Content.absorb?_slotBytes {spec : FieldSpec μ} {position : Nat} {slot : Slot}
    (rest : Bytes) (hspec : FoundAt specs position spec)
    (hblank : content[position]? = some spec.blank) (hlen : content.length = specs.length)
    (hfits : ∀ item ∈ slot, item.Fits schema spec.type) (hadmits : spec.Admits slot)
    (hn : ∀ item ∈ slot, item.Nests schema nested spec.type)
    (hclear : spec.label = .choice → slot ≠ [] → Content.Unchosen specs content)
    (hbytes : (spec.slotBytes schema slot).length < 2 ^ 64) :
    Content.absorb? nested schema budget specs content (spec.slotBytes schema slot ++ rest) =
      Content.absorb? nested schema budget specs
        (content.set position (Slot.inOrder [] slot)) rest := by
  cases hlabel : spec.label with
  | singular =>
      have heach : spec.slotBytes schema slot =
          Slot.encodeEach schema spec.number spec.type true slot := by
        rw [FieldSpec.slotBytes, hlabel]
      rw [heach] at hbytes ⊢
      exact Content.absorb?_singular rest hlabel hspec hblank hlen hfits hadmits hn hbytes
  | choice =>
      have heach : spec.slotBytes schema slot =
          Slot.encodeEach schema spec.number spec.type false slot := by
        rw [FieldSpec.slotBytes, hlabel]
      have hone : slot.length ≤ 1 := by rwa [FieldSpec.Admits, hlabel] at hadmits
      rw [FieldSpec.blank, hlabel] at hblank
      rw [heach] at hbytes ⊢
      exact Content.absorb?_choice rest hlabel hspec hblank hlen hfits hone hn (hclear hlabel) hbytes
  | repeated =>
      rw [FieldSpec.blank, hlabel] at hblank
      by_cases hscalar : ∃ type, spec.type = .scalar type
      · obtain ⟨type, htype⟩ := hscalar
        exact Content.absorb?_packed rest hlabel htype hspec hblank hfits hbytes
      · have heach : spec.slotBytes schema slot =
            Slot.encodeEach schema spec.number spec.type false slot := by
          rw [FieldSpec.slotBytes, hlabel]
          split <;> simp_all
        rw [heach] at hbytes ⊢
        exact Content.absorb?_each rest hspec hblank hlabel hfits hn hbytes

end Message

end ProfilePipeline.Wire
