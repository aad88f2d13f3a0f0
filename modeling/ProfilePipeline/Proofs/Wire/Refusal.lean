import Mathlib.Tactic.Common
import ProfilePipeline.Proofs.Wire.Decoder

/-!
# Messages that nest too deep

A reader follows nested messages only so far, and what lies deeper is refused rather than passed
over.  So the canonical bytes of a message are either read back as that message or not read at all.

**One line.**  `Content.absorb?_refuses` is the loop at a nested message that cannot be read, and
`Content.absorb?_refusedLine` at a line that holds one behind messages that can.

**One message.**  `Content.absorb?_encode_eq_none` goes through the lines up to that one.

**Nesting.**  `Content.read?_encode_eq_none` is the induction on the budget, and
`Content.decode?_encode_eq` says what becomes of the bytes in both cases.
-/

namespace ProfilePipeline.Wire

variable {μ : Type} {schema : Schema μ} {nested : μ → Content → Bytes → Option Content}
  {budget : Nat}

/-! ## One line -/

/-- An item is a message that `nested` does not read. -/
def Item.Refused (schema : Schema μ) (nested : μ → Content → Bytes → Option Content)
    (type : FieldType μ) (item : Item) : Prop :=
  ∃ (name : μ) (slots : Content), type = .message name ∧ item = .message slots ∧
    nested name (.blank (schema name)) (Content.encode schema (schema name) slots) = none

section Line

variable {specs : List (FieldSpec μ)} {content : Content} {spec : FieldSpec μ} {position : Nat}

/-- The loop ends at a field that does not fit its slot. -/
lemma Content.absorb?_refuses {before : Slot} {raw : Raw} (rest : Bytes)
    (hspec : FoundAt specs position spec) (hslot : content[position]? = some before)
    (hraw : raw.Plain) (hmerge : Slot.merge? nested schema spec before raw = none) :
    Content.absorb? nested schema budget specs content
      (keyBytes spec.number raw.wireType ++ raw.bytes ++ rest) = none := by
  have hread := readField?_append budget rest hspec.pos hspec.lt hraw
  obtain ⟨b, bs, hinput⟩ := exists_cons_field spec.number raw.wireType raw.bytes rest
  rw [hinput] at hread ⊢
  rw [Content.absorb?]
  split
  · rfl
  · rename_i number raw' rest' hread'
    rw [hread'] at hread
    simp only [Option.some.injEq, Prod.mk.injEq] at hread
    obtain ⟨⟨rfl, rfl⟩, rfl⟩ := hread
    simp only [hspec.find, hspec.get, hslot, hmerge]

/-- A message is merged into nothing but a message, which a slot without a list cannot hold. -/
lemma Slot.merge?_refused {slot : Slot} {item : Item}
    (h : item.Refused schema nested spec.type) (hslot : spec.label = .repeated ∨ slot = []) :
    Slot.merge? nested schema spec slot (item.raw schema spec.type) = none := by
  obtain ⟨name, slots, htype, rfl, hnone⟩ := h
  rcases hslot with hlabel | rfl
  · simp [Slot.merge?, Item.raw, htype, hlabel, hnone]
  · cases hlabel : spec.label <;> simp [Slot.merge?, Item.raw, htype, hlabel, hnone]

lemma Item.Fits.isDefault_eq_false {name : μ} {item : Item}
    (h : item.Fits schema (.message name)) : item.isDefault = false := by
  cases item with
  | message => rfl
  | _ => exact absurd h (by simp [Item.Fits])

/-- **A line with a nested message that cannot be read.**  Messages in front of it are read first,
which is why the slot may have something in it. -/
theorem Content.absorb?_refusedLine {before items : Slot} (omits : Bool) (rest : Bytes)
    (hspec : FoundAt specs position spec) (hslot : content[position]? = some before)
    (hone : spec.label = .repeated ∨ before = [] ∧ items.length ≤ 1)
    (hfits : ∀ item ∈ items, item.Fits schema spec.type)
    (hn : ∀ item ∈ items,
      item.Nests schema nested spec.type ∨ item.Refused schema nested spec.type)
    (hbad : ∃ item ∈ items, item.Refused schema nested spec.type)
    (hlen : (Slot.encodeEach schema spec.number spec.type omits items).length < 2 ^ 64) :
    Content.absorb? nested schema budget specs content
      (Slot.encodeEach schema spec.number spec.type omits items ++ rest) = none := by
  induction items generalizing content before with
  | nil => exact absurd hbad (by simp)
  | cons item items ih =>
      have hitem := hfits item List.mem_cons_self
      have hwritten : item.isDefault = false := by
        obtain ⟨_, -, name, _, htype, -⟩ := hbad
        exact Item.Fits.isDefault_eq_false (htype ▸ hitem)
      rw [Slot.encodeEach_cons _ _ _ hitem] at hlen ⊢
      simp only [hwritten, Bool.and_false, Bool.false_eq_true, ↓reduceIte, List.length_append]
        at hlen ⊢
      have hplain : (item.raw schema spec.type).Plain := Item.plain_raw (by omega)
      rw [List.append_assoc]
      rcases hn item List.mem_cons_self with hreads | hrefused
      · have hmerge := Slot.merge?_raw before hitem hreads fun _ _ => hone.imp_right (·.1)
        obtain ⟨bad, hmem, hbad⟩ := hbad
        rcases List.mem_cons.mp hmem with rfl | hmem
        · have hnone := Slot.merge?_refused hbad (hone.imp_right (·.1))
          exact Content.absorb?_refuses _ hspec hslot hplain hnone
        · -- There is a second item, so the line takes lists.
          have hlabel : spec.label = .repeated := by
            rcases hone with hlabel | ⟨-, hshort⟩
            · exact hlabel
            · have hpos := List.length_pos_of_mem hmem
              rw [List.length_cons] at hshort
              omega
          have hstore : (spec.label = .choice : Bool) = false := by simp [hlabel]
          obtain ⟨hlt, -⟩ := List.getElem?_eq_some_iff.mp hslot
          have hslot' : (content.set position (spec.push before item.inOrder))[position]? =
              some (spec.push before item.inOrder) := by
            simp [hlt]
          rw [Content.absorb?_append _ hspec hslot hplain hmerge, hstore, Content.store,
            if_neg (by simp)]
          exact ih hslot' (.inl hlabel) (fun x hx => hfits x (List.mem_cons_of_mem _ hx))
            (fun x hx => hn x (List.mem_cons_of_mem _ hx)) ⟨bad, hmem, hbad⟩ (by omega)
      · have hnone := Slot.merge?_refused hrefused (hone.imp_right (·.1))
        exact Content.absorb?_refuses _ hspec hslot hplain hnone

/-- The same, for what a line of any label writes. -/
lemma Content.absorb?_slotBytes_eq_none {slot : Slot} (rest : Bytes)
    (hspec : FoundAt specs position spec) (hblank : content[position]? = some spec.blank)
    (hfits : ∀ item ∈ slot, item.Fits schema spec.type) (hadmits : spec.Admits slot)
    (hn : ∀ item ∈ slot,
      item.Nests schema nested spec.type ∨ item.Refused schema nested spec.type)
    (hbad : ∃ item ∈ slot, item.Refused schema nested spec.type)
    (hbytes : (spec.slotBytes schema slot).length < 2 ^ 64) :
    Content.absorb? nested schema budget specs content (spec.slotBytes schema slot ++ rest) =
      none := by
  have hmessage : ∃ name, spec.type = .message name := by
    obtain ⟨_, -, name, _, htype, -⟩ := hbad
    exact ⟨name, htype⟩
  obtain ⟨title, number, label, type⟩ := spec
  obtain ⟨name, rfl⟩ := hmessage
  cases label with
  | singular => exact absorb?_refusedLine true rest hspec hblank (.inr ⟨rfl, hadmits⟩) hfits hn hbad hbytes
  | repeated => exact absorb?_refusedLine false rest hspec hblank (.inl rfl) hfits hn hbad hbytes
  | choice => exact absorb?_refusedLine false rest hspec hblank (.inr ⟨rfl, hadmits⟩) hfits hn hbad hbytes

end Line

/-! ## One message -/

/-- **The loop over lines of which one holds a message that cannot be read.** -/
theorem Content.absorb?_encode_eq_none (done todo : List (FieldSpec μ)) (before slots : Content)
    (hdistinct : ((done ++ todo).map FieldSpec.number).Nodup)
    (hnumber : ∀ spec ∈ todo, 0 < spec.number ∧ spec.number < 2 ^ 29)
    (hlen : before.length = done.length) (hfits : Content.Fits schema todo slots)
    (hn : ∀ x ∈ todo.zip slots, ∀ item ∈ x.2,
      item.Nests schema nested x.1.type ∨ item.Refused schema nested x.1.type)
    (hbad : ∃ x ∈ todo.zip slots, ∃ item ∈ x.2, item.Refused schema nested x.1.type)
    (hchoice : Content.Unchosen done before ∨ Content.Unchosen todo slots)
    (hbytes : (Content.encode schema todo slots).length < 2 ^ 64) :
    Content.absorb? nested schema budget (done ++ todo) (before ++ Content.blank todo)
      (Content.encode schema todo slots) = none := by
  induction todo generalizing done before slots with
  | nil => exact absurd hbad (by simp)
  | cons spec todo ih =>
      cases slots with
      | nil => exact absurd hbad (by simp)
      | cons slot slots =>
          rw [Content.Fits, Slot.fits_iff] at hfits
          obtain ⟨hitems, hadmits, hone, hrest⟩ := hfits
          rw [List.zip_cons_cons, List.forall_mem_cons] at hn
          rw [List.forall_mem_cons] at hnumber
          rw [Content.encode_cons, List.length_append] at hbytes
          have hfound := FoundAt.of_append hdistinct hnumber.1
          rw [Content.encode_cons]
          by_cases hhere : ∃ item ∈ slot, item.Refused schema nested spec.type
          · have hblank := Content.getElem?_blank before spec todo
            rw [hlen] at hblank
            exact Content.absorb?_slotBytes_eq_none _ hfound hblank hitems hadmits hn.1 hhere
              (by omega)
          · have hreads : ∀ item ∈ slot, item.Nests schema nested spec.type := by
              intro item hitem
              rcases hn.1 item hitem with hreads | hrefused
              · exact hreads
              · exact absurd ⟨item, hitem, hrefused⟩ hhere
            have hlater : ∃ x ∈ todo.zip slots, ∃ item ∈ x.2,
                item.Refused schema nested x.1.type := by
              obtain ⟨x, hx, hbad⟩ := hbad
              rcases List.mem_cons.mp hx with rfl | hx
              · exact absurd hbad hhere
              · exact ⟨x, hx, hbad⟩
            rw [Content.absorb?_firstLine _ hfound hlen hitems hadmits hreads hchoice (by omega)]
            exact ih (done ++ [spec]) (before ++ [Slot.inOrder [] slot]) slots
              (by rwa [List.append_assoc]) hnumber.2 (by simp [hlen]) hrest hn.2 hlater
              (Content.unchosen_step hlen hchoice hone) (by omega)

/-! ## Nested messages -/

/-- Where messages nest deeper than `d`, one of the nested messages nests as deep as that. -/
lemma Content.exists_message_of_lt_depth {content : Content} {d : Nat} (h : d < content.depth) :
    ∃ slot ∈ content, ∃ slots : Content, .message slots ∈ slot ∧ d ≤ slots.depth := by
  by_contra hnone
  refine absurd (Content.depth_le_iff.mpr ?_) (Nat.not_le_of_lt h)
  intro slot hslot
  refine Slot.depth_le_iff.mpr ?_
  intro item hitem
  cases item with
  | message slots =>
      by_contra hdeep
      rw [Item.depth] at hdeep
      exact hnone ⟨slot, hslot, slots, hitem, by omega⟩
  | _ => exact Nat.zero_le d

/-- Every slot of content that fits stands behind a line. -/
lemma Content.Fits.exists_mem_zip {specs : List (FieldSpec μ)} {content : Content}
    (hfits : Content.Fits schema specs content) {slot : Slot} (hslot : slot ∈ content) :
    ∃ spec, (spec, slot) ∈ specs.zip content := by
  induction specs generalizing content with
  | nil =>
      cases content with
      | nil => exact absurd hslot (by simp)
      | cons => exact absurd hfits (by simp [Content.Fits])
  | cons spec specs ih =>
      cases content with
      | nil => exact absurd hslot (by simp)
      | cons first slots =>
          rw [Content.Fits] at hfits
          rcases List.mem_cons.mp hslot with rfl | hslot
          · exact ⟨spec, by simp⟩
          · obtain ⟨found, hfound⟩ := ih hfits.2.2.2 hslot
            exact ⟨found, List.mem_cons_of_mem _ hfound⟩

lemma Item.Fits.exists_type {type : FieldType μ} {slots : Content}
    (h : Item.Fits schema type (.message slots)) : ∃ name, type = .message name := by
  cases type with
  | message name => exact ⟨name, rfl⟩
  | _ => exact absurd h (by simp [Item.Fits])

/-- A reader that reads messages up to a depth, and refuses deeper ones, refuses what holds a
deeper one. -/
lemma Content.absorb?_encode_of_deep (hschema : schema.Sound) {limit : Nat} {name : μ}
    {content : Content}
    (hreads : ∀ (name : μ) (slots : Content), Content.Fits schema (schema name) slots →
      slots.depth < limit → (Content.encode schema (schema name) slots).length < 2 ^ 64 →
      nested name (.blank (schema name)) (Content.encode schema (schema name) slots) =
        some slots.inOrder)
    (hrefuses : ∀ (name : μ) (slots : Content), Content.Fits schema (schema name) slots →
      limit ≤ slots.depth → (Content.encode schema (schema name) slots).length < 2 ^ 64 →
      nested name (.blank (schema name)) (Content.encode schema (schema name) slots) = none)
    (hfits : Content.Fits schema (schema name) content) (hdeep : limit < content.depth)
    (hbytes : (Content.encode schema (schema name) content).length < 2 ^ 64) :
    Content.absorb? nested schema budget (schema name) (.blank (schema name))
      (Content.encode schema (schema name) content) = none := by
  have hn : ∀ x ∈ (schema name).zip content, ∀ item ∈ x.2,
      item.Nests schema nested x.1.type ∨ item.Refused schema nested x.1.type := by
    intro x hx item hitem
    by_cases hshallow : item.depth ≤ limit
    · refine .inl ?_
      rintro inner slots htype rfl
      obtain ⟨hslots, hshort⟩ := hfits.of_message hbytes hx htype hitem
      rw [Item.depth] at hshallow
      exact hreads inner slots hslots hshallow hshort
    · have hitemFits := hfits.of_mem_zip hx item hitem
      cases item with
      | message slots =>
          obtain ⟨inner, htype⟩ := hitemFits.exists_type
          obtain ⟨hslots, hshort⟩ := hfits.of_message hbytes hx htype hitem
          rw [Item.depth] at hshallow
          exact .inr ⟨inner, slots, htype, rfl, hrefuses inner slots hslots (by omega) hshort⟩
      | _ => exact absurd (Nat.zero_le limit) hshallow
  obtain ⟨slot, hslot, slots, hitem, hdeeper⟩ := Content.exists_message_of_lt_depth hdeep
  obtain ⟨spec, hspec⟩ := hfits.exists_mem_zip hslot
  obtain ⟨inner, htype⟩ := (hfits.of_mem_zip hspec _ hitem).exists_type
  obtain ⟨hslots, hshort⟩ := hfits.of_message hbytes hspec htype hitem
  have hrefused : Item.Refused schema nested spec.type (.message slots) :=
    ⟨inner, slots, htype, rfl, hrefuses inner slots hslots hdeeper hshort⟩
  exact Content.absorb?_encode_eq_none [] (schema name) [] content (hschema.distinct name)
    (hschema.fits name) rfl hfits hn ⟨_, hspec, _, hitem, hrefused⟩
    (.inl (by simp [Content.Unchosen])) hbytes

/-- **A message that nests deeper than the budget is refused.** -/
theorem Content.read?_encode_eq_none (hschema : schema.Sound) (budget : Nat) (name : μ)
    (content : Content) (hfits : Content.Fits schema (schema name) content)
    (hdeep : budget < content.depth)
    (hbytes : (Content.encode schema (schema name) content).length < 2 ^ 64) :
    Content.read? schema budget name (.blank (schema name))
      (Content.encode schema (schema name) content) = none := by
  induction budget generalizing name content with
  | zero =>
      refine Content.absorb?_encode_of_deep hschema ?_ ?_ hfits hdeep hbytes
      · intro _ slots _ hnever
        exact absurd hnever (Nat.not_lt_zero _)
      · intro _ _ _ _ _
        rfl
  | succ budget ih =>
      refine Content.absorb?_encode_of_deep hschema ?_ ?_ hfits hdeep hbytes
      · intro inner slots hslots hshallow hshort
        exact Content.read?_encode hschema budget inner slots hslots (by omega) hshort
      · intro inner slots hslots hdeeper hshort
        exact ih inner slots hslots hdeeper hshort

/-- **Canonical bytes are read back or refused**: as the content that they were written from if its
messages nest no deeper than a reader follows, and not at all otherwise. -/
theorem Content.decode?_encode_eq (hschema : schema.Sound) {name : μ} {content : Content}
    (hfits : Content.Fits schema (schema name) content)
    (hbytes : (Content.encode schema (schema name) content).length < 2 ^ 64) :
    Content.decode? schema name (Content.encode schema (schema name) content) =
      if content.depth ≤ depthLimit then some content else none := by
  split
  · rename_i hdepth
    exact Content.decode?_encode hschema hfits hdepth hbytes
  · rename_i hdeep
    rw [Content.decode?, Content.read?_encode_eq_none hschema depthLimit name content hfits
      (by omega) hbytes, Option.map_none]

end ProfilePipeline.Wire
