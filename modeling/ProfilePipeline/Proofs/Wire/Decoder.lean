import Mathlib.Tactic.Common
import ProfilePipeline.Proofs.Wire.Line

/-!
# Reading canonical bytes

The canonical bytes of content that fits its descriptor are read back as that content.

**One message.**  `Content.absorb?_encode` goes through the lines by `Content.absorb?_firstLine`.
The invariant is that slots before the line are done, with their newest item first, and slots behind
it are blank; of the members of a choice at most one is set, either before the line or behind it.

**Nesting.**  `Content.read?_encode` is the induction on the budget; `Content.decode?_encode` is
the result.
-/

namespace ProfilePipeline.Wire

variable {μ : Type} {schema : Schema μ}

/-! ## One message -/

/-- Field numbers are told apart and fit a key. -/
structure Schema.Sound (schema : Schema μ) : Prop where
  distinct : ∀ name, ((schema name).map FieldSpec.number).Nodup
  fits : ∀ name, ∀ spec ∈ schema name, 0 < spec.number ∧ spec.number < 2 ^ 29

/-- A line between others is found by its number. -/
lemma FoundAt.of_append {done todo : List (FieldSpec μ)} {spec : FieldSpec μ}
    (hdistinct : ((done ++ spec :: todo).map FieldSpec.number).Nodup)
    (hspec : 0 < spec.number ∧ spec.number < 2 ^ 29) :
    FoundAt (done ++ spec :: todo) done.length spec where
  get := by simp
  find := by
    rw [List.map_append, List.map_cons, List.nodup_append] at hdistinct
    have hbefore : ∀ x ∈ done, (x.number == spec.number) = false := by
      intro x hx
      rw [beq_eq_false_iff_ne]
      exact hdistinct.2.2 _ (List.mem_map_of_mem hx) _ List.mem_cons_self
    have hnone : done.findIdx? (·.number == spec.number) = none :=
      List.findIdx?_eq_none_iff.mpr hbefore
    simp [List.findIdx?_append, hnone, List.findIdx?_cons]
  pos := hspec.1
  lt := hspec.2

/-- A blank line is no choice that was made. -/
lemma Content.unchosen_blank (specs : List (FieldSpec μ)) : Content.Unchosen specs (.blank specs) := by
  intro x hx hlabel
  induction specs with
  | nil => exact absurd hx (by simp [Content.blank])
  | cons spec specs ih =>
      rw [Content.blank, List.map_cons, List.zip_cons_cons] at hx
      rcases List.mem_cons.mp hx with rfl | hx
      · show spec.blank = []
        rw [FieldSpec.blank]
        simp only at hlabel
        rw [hlabel]
      · exact ih hx

lemma Content.Unchosen.append {done todo : List (FieldSpec μ)} {before after : Content}
    (hlen : before.length = done.length) (h : Content.Unchosen done before)
    (h' : Content.Unchosen todo after) : Content.Unchosen (done ++ todo) (before ++ after) := by
  intro x hx
  rw [List.zip_append hlen.symm] at hx
  rcases List.mem_append.mp hx with hx | hx
  · exact h x hx
  · exact h' x hx

/-- The first of the blank slots is filled. -/
lemma Content.set_blank (before : Content) (spec : FieldSpec μ) (todo : List (FieldSpec μ))
    (slot : Slot) :
    (before ++ Content.blank (spec :: todo)).set before.length slot =
      before ++ [slot] ++ Content.blank todo := by
  rw [Content.blank, List.map_cons, List.append_assoc]
  simp [Content.blank]

lemma Content.getElem?_blank (before : Content) (spec : FieldSpec μ) (todo : List (FieldSpec μ)) :
    (before ++ Content.blank (spec :: todo))[before.length]? = some spec.blank := by
  simp [Content.blank]

/-- If a member of a choice is set in a slot, none was before it and none is after it. -/
lemma Content.unchosen_step {done todo : List (FieldSpec μ)} {before slots : Content}
    {spec : FieldSpec μ} {slot : Slot} (hlen : before.length = done.length)
    (hchoice : Content.Unchosen done before ∨ Content.Unchosen (spec :: todo) (slot :: slots))
    (hone : spec.label = .choice → slot = [] ∨ Content.Unchosen todo slots) :
    Content.Unchosen (done ++ [spec]) (before ++ [Slot.inOrder [] slot]) ∨
      Content.Unchosen todo slots := by
  rcases hchoice with hdone | htodo
  · by_cases hlabel : spec.label = .choice
    · rcases hone hlabel with rfl | hslots
      · refine .inl (hdone.append hlen ?_)
        intro x hx _
        obtain rfl : x = (spec, Slot.inOrder [] []) := by simpa using hx
        rfl
      · exact .inr hslots
    · refine .inl (hdone.append hlen ?_)
      intro x hx hx'
      obtain rfl : x = (spec, Slot.inOrder [] slot) := by simpa using hx
      exact absurd hx' hlabel
  · refine .inr ?_
    intro x hx
    exact htodo x (List.mem_cons_of_mem _ hx)

section Message

variable {nested : μ → Content → Bytes → Option Content} {budget : Nat}

/-- **The loop at the first line that is still to be read.**  It stands between lines that are done
and lines that are blank. -/
lemma Content.absorb?_firstLine {done todo : List (FieldSpec μ)} {before slots : Content}
    {spec : FieldSpec μ} {slot : Slot} (rest : Bytes)
    (hfound : FoundAt (done ++ spec :: todo) done.length spec) (hlen : before.length = done.length)
    (hitems : ∀ item ∈ slot, item.Fits schema spec.type) (hadmits : spec.Admits slot)
    (hn : ∀ item ∈ slot, item.Nests schema nested spec.type)
    (hchoice : Content.Unchosen done before ∨ Content.Unchosen (spec :: todo) (slot :: slots))
    (hbytes : (spec.slotBytes schema slot).length < 2 ^ 64) :
    Content.absorb? nested schema budget (done ++ spec :: todo)
        (before ++ Content.blank (spec :: todo)) (spec.slotBytes schema slot ++ rest) =
      Content.absorb? nested schema budget (done ++ [spec] ++ todo)
        (before ++ [Slot.inOrder [] slot] ++ Content.blank todo) rest := by
  have hslot := Content.getElem?_blank before spec todo
  rw [hlen] at hslot
  have hclear : spec.label = .choice → slot ≠ [] →
      Content.Unchosen (done ++ spec :: todo) (before ++ Content.blank (spec :: todo)) := by
    intro hlabel hne
    rcases hchoice with hdone | htodo
    · exact hdone.append hlen (Content.unchosen_blank _)
    · exact absurd (htodo (spec, slot) (by simp) hlabel) hne
  rw [Content.absorb?_slotBytes _ hfound hslot (by simp [Content.blank, hlen]) hitems hadmits hn
    hclear hbytes, ← hlen, Content.set_blank]
  simp

/-- **The loop over the lines of a descriptor.**  Slots before the current line are done; of the
members of a choice at most one is set, either there or in what is still to be read. -/
theorem Content.absorb?_encode (done todo : List (FieldSpec μ)) (before slots : Content)
    (hdistinct : ((done ++ todo).map FieldSpec.number).Nodup)
    (hnumber : ∀ spec ∈ todo, 0 < spec.number ∧ spec.number < 2 ^ 29)
    (hlen : before.length = done.length) (hfits : Content.Fits schema todo slots)
    (hn : ∀ x ∈ todo.zip slots, ∀ item ∈ x.2, item.Nests schema nested x.1.type)
    (hchoice : Content.Unchosen done before ∨ Content.Unchosen todo slots)
    (hbytes : (Content.encode schema todo slots).length < 2 ^ 64) :
    Content.absorb? nested schema budget (done ++ todo) (before ++ Content.blank todo)
        (Content.encode schema todo slots) =
      some (before ++ slots.inOrder) := by
  induction todo generalizing done before slots with
  | nil =>
      cases slots with
      | nil =>
          rw [Content.encode_nil, Content.absorb?]
          rfl
      | cons slot slots => exact absurd hfits (by simp [Content.Fits])
  | cons spec todo ih =>
      cases slots with
      | nil => exact absurd hfits (by simp [Content.Fits])
      | cons slot slots =>
          rw [Content.Fits, Slot.fits_iff] at hfits
          obtain ⟨hitems, hadmits, hone, hrest⟩ := hfits
          rw [List.zip_cons_cons, List.forall_mem_cons] at hn
          rw [List.forall_mem_cons] at hnumber
          rw [Content.encode_cons, List.length_append] at hbytes
          have hfound := FoundAt.of_append hdistinct hnumber.1
          have hread := ih (done ++ [spec]) (before ++ [Slot.inOrder [] slot]) slots
            (by rwa [List.append_assoc]) hnumber.2 (by simp [hlen]) hrest hn.2
            (Content.unchosen_step hlen hchoice hone) (by omega)
          rw [Content.encode_cons, Content.absorb?_firstLine _ hfound hlen hitems hadmits hn.1
            hchoice (by omega), hread, Content.inOrder, List.append_assoc]
          rfl

end Message

/-! ## Nested messages -/

/-- A message is no longer than the slot it stands in. -/
lemma Slot.length_encode_le_encodeEach (schema : Schema μ) (name : μ) {slots : Content}
    (number : Nat) (omits : Bool) {slot : Slot} (h : .message slots ∈ slot) :
    (Content.encode schema (schema name) slots).length ≤
      (Slot.encodeEach schema number (.message name) omits slot).length := by
  induction slot with
  | nil => exact absurd h (by simp)
  | cons item items ih =>
      rw [Slot.encodeEach, List.length_append]
      rcases List.mem_cons.mp h with rfl | h
      · simp only [Item.isDefault, Bool.and_false, Bool.false_eq_true, ↓reduceIte, Item.encode,
          delimit, List.length_append]
        omega
      · have := ih h
        omega

lemma FieldSpec.length_encode_le_slotBytes (schema : Schema μ) {spec : FieldSpec μ} {name : μ} {slots : Content}
    {slot : Slot} (htype : spec.type = .message name) (h : .message slots ∈ slot) :
    (Content.encode schema (schema name) slots).length ≤ (spec.slotBytes schema slot).length := by
  have hle := fun omits => Slot.length_encode_le_encodeEach schema name spec.number omits h
  rw [FieldSpec.slotBytes, htype]
  split
  · exact hle true
  · simp_all
  · simp_all
  · simp_all

lemma Content.length_slotBytes_le (schema : Schema μ) {specs : List (FieldSpec μ)} {content : Content}
    {x : FieldSpec μ × Slot} (h : x ∈ specs.zip content) :
    (x.1.slotBytes schema x.2).length ≤ (Content.encode schema specs content).length := by
  induction specs generalizing content with
  | nil => exact absurd h (by simp)
  | cons spec specs ih =>
      cases content with
      | nil => exact absurd h (by simp)
      | cons slot slots =>
          rw [Content.encode_cons, List.length_append]
          rw [List.zip_cons_cons] at h
          rcases List.mem_cons.mp h with rfl | h
          · exact Nat.le_add_right _ _
          · have := ih h
            omega

/-- What a line holds is of its type, and as many as it admits. -/
lemma Content.Fits.line {specs : List (FieldSpec μ)} {content : Content}
    (h : Content.Fits schema specs content) {x : FieldSpec μ × Slot} (hx : x ∈ specs.zip content) :
    (∀ item ∈ x.2, item.Fits schema x.1.type) ∧ x.1.Admits x.2 := by
  induction specs generalizing content with
  | nil => exact absurd hx (by simp)
  | cons spec specs ih =>
      cases content with
      | nil => exact absurd hx (by simp)
      | cons slot slots =>
          rw [Content.Fits, Slot.fits_iff] at h
          obtain ⟨hitems, hadmits, -, hrest⟩ := h
          rw [List.zip_cons_cons] at hx
          rcases List.mem_cons.mp hx with rfl | hx
          · exact ⟨hitems, hadmits⟩
          · exact ih hrest hx

lemma Content.Fits.of_mem_zip {specs : List (FieldSpec μ)} {content : Content}
    (h : Content.Fits schema specs content) {x : FieldSpec μ × Slot} (hx : x ∈ specs.zip content) :
    ∀ item ∈ x.2, item.Fits schema x.1.type := (h.line hx).1

/-- A message in a slot fits its descriptor, and it is no longer than what it stands in. -/
lemma Content.Fits.of_message {specs : List (FieldSpec μ)} {content : Content}
    (hfits : Content.Fits schema specs content)
    (hbytes : (Content.encode schema specs content).length < 2 ^ 64)
    {x : FieldSpec μ × Slot} (hx : x ∈ specs.zip content) {name : μ} {slots : Content}
    (htype : x.1.type = .message name) (hitem : .message slots ∈ x.2) :
    Content.Fits schema (schema name) slots ∧
      (Content.encode schema (schema name) slots).length < 2 ^ 64 := by
  have hitemFits := hfits.of_mem_zip hx _ hitem
  have hle := FieldSpec.length_encode_le_slotBytes schema htype hitem
  have hle' := Content.length_slotBytes_le schema hx
  rw [htype, Item.Fits] at hitemFits
  exact ⟨hitemFits, by omega⟩

/-- A reader of nested messages reads those in the slots of a message. -/
lemma Content.nests_of_mem_zip {nested : μ → Content → Bytes → Option Content} {budget : Nat}
    {specs : List (FieldSpec μ)} {content : Content}
    (hnested : ∀ (name : μ) (slots : Content), Content.Fits schema (schema name) slots →
      slots.depth < budget → (Content.encode schema (schema name) slots).length < 2 ^ 64 →
      nested name (.blank (schema name)) (Content.encode schema (schema name) slots) =
        some slots.inOrder)
    (hfits : Content.Fits schema specs content) (hdepth : content.depth ≤ budget)
    (hbytes : (Content.encode schema specs content).length < 2 ^ 64) :
    ∀ x ∈ specs.zip content, ∀ item ∈ x.2, item.Nests schema nested x.1.type := by
  rintro x hx item hitem name slots htype rfl
  obtain ⟨hslots, hshort⟩ := hfits.of_message hbytes hx htype hitem
  have hslot := Content.depth_le_iff.mp hdepth x.2 (List.of_mem_zip hx).2
  have hitemDepth := Slot.depth_le_iff.mp hslot _ hitem
  rw [Item.depth] at hitemDepth
  exact hnested name slots hslots hitemDepth hshort

/-- **A message nested within the budget is read back.** -/
theorem Content.read?_encode (hschema : schema.Sound) (budget : Nat) (name : μ) (content : Content)
    (hfits : Content.Fits schema (schema name) content) (hdepth : content.depth ≤ budget)
    (hbytes : (Content.encode schema (schema name) content).length < 2 ^ 64) :
    Content.read? schema budget name (.blank (schema name))
        (Content.encode schema (schema name) content) =
      some content.inOrder := by
  induction budget generalizing name content with
  | zero =>
      have hn : ∀ x ∈ (schema name).zip content, ∀ item ∈ x.2,
          item.Nests schema (fun _ _ _ => none) x.1.type :=
        Content.nests_of_mem_zip (fun _ _ _ h _ => absurd h (Nat.not_lt_zero _)) hfits hdepth hbytes
      exact Content.absorb?_encode [] (schema name) [] content (hschema.distinct name)
        (hschema.fits name) rfl hfits hn (.inl (by simp [Content.Unchosen])) hbytes
  | succ budget ih =>
      have hn : ∀ x ∈ (schema name).zip content, ∀ item ∈ x.2,
          item.Nests schema (Content.read? schema budget) x.1.type :=
        Content.nests_of_mem_zip (fun name slots hslots h hb => ih name slots hslots (by omega) hb)
          hfits hdepth hbytes
      exact Content.absorb?_encode [] (schema name) [] content (hschema.distinct name)
        (hschema.fits name) rfl hfits hn (.inl (by simp [Content.Unchosen])) hbytes

/-- **Content that fits its descriptor is read back from its canonical bytes**, as long as messages
nest no deeper than a reader follows. -/
theorem Content.decode?_encode (hschema : schema.Sound) {name : μ} {content : Content}
    (hfits : Content.Fits schema (schema name) content) (hdepth : content.depth ≤ depthLimit)
    (hbytes : (Content.encode schema (schema name) content).length < 2 ^ 64) :
    Content.decode? schema name (Content.encode schema (schema name) content) = some content := by
  rw [Content.decode?, Content.read?_encode hschema depthLimit name content hfits hdepth hbytes,
    Option.map_some, Content.inOrder_inOrder]

end ProfilePipeline.Wire
