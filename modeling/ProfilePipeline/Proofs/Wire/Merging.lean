import Mathlib.Tactic.Common
import ProfilePipeline.Proofs.Wire.Decoder
import ProfilePipeline.Proofs.Wire.Typed

/-!
# What a field does to its message

A reader takes any field that its line understands, whoever wrote it: unpacked or packed, with a
number too long for its type, in pieces.  This file lists all that can come of one field, and says
that the content of a message goes on fitting its descriptor.

**One slot.**  `Slot.Merged` is the list, and `Slot.Merged.of_merge?` says that it is complete.

**One message.**  `Content.store` puts a slot at its position and may clear others; it is described
along the descriptor by `Content.store_zero` and `Content.store_succ`.

**What is kept.**  `Content.Held` is content that fits and does not nest too deep, and
`Content.Held.store` is the step.
-/

namespace ProfilePipeline.Wire

variable {μ : Type} {schema : Schema μ} {nested : μ → Content → Bytes → Option Content}
  {spec : FieldSpec μ} {slot merged : Slot} {raw : Raw}

/-! ## One slot -/

/-- **All that one raw field can do to the slot of its line.**  A message is read on top of the one
in the slot, unless the slot has none or takes more. -/
inductive Slot.Merged (schema : Schema μ) (nested : μ → Content → Bytes → Option Content)
    (spec : FieldSpec μ) (slot : Slot) : Raw → Slot → Prop
  | word {type : ScalarType} (w : UInt64) (htype : spec.type = .scalar type) :
      Merged schema nested spec slot (.varint w) (spec.push slot (.word (type.normalize w)))
  | words {type : ScalarType} {body : Bytes} {ws : List UInt64} (htype : spec.type = .scalar type)
      (hlabel : spec.label = .repeated) (hread : readWords? body = some ws) :
      Merged schema nested spec slot (.delimited body)
        ((ws.map fun w => Item.word (type.normalize w)).reverse ++ slot)
  | fixed64 (w : UInt64) (htype : spec.type = .fixed64 ∨ spec.type = .double) :
      Merged schema nested spec slot (.fixed64 w) (spec.push slot (.fixed64 w))
  | text {body : Bytes} {s : String} (htype : spec.type = .text) (hread : ofUtf8? body = some s) :
      Merged schema nested spec slot (.delimited body) (spec.push slot (.text s))
  | bytes (body : Bytes) (htype : spec.type = .bytes) :
      Merged schema nested spec slot (.delimited body) (spec.push slot (.bytes body))
  | message {name : μ} {body : Bytes} {start slots : Content} (htype : spec.type = .message name)
      (hstart : start = .blank (schema name) ∨
        spec.label ≠ .repeated ∧ ∃ items, slot = .message start :: items)
      (hread : nested name start body = some slots) :
      Merged schema nested spec slot (.delimited body) (spec.push slot (.message slots))

/-- Words that are pushed one after the other. -/
lemma Slot.foldl_words (type : ScalarType) (ws : List UInt64) (slot : Slot) :
    ws.foldl (fun slot w => Item.word (type.normalize w) :: slot) slot =
      (ws.map fun w => Item.word (type.normalize w)).reverse ++ slot := by
  induction ws generalizing slot with
  | nil => rfl
  | cons w ws ih => simp [ih]

/-- **The list is complete.** -/
theorem Slot.Merged.of_merge? (h : Slot.merge? nested schema spec slot raw = some merged) :
    Slot.Merged schema nested spec slot raw merged := by
  obtain ⟨_, number, label, type⟩ := spec
  cases type with
  | scalar type =>
      cases raw with
      | varint w =>
          cases label <;>
            (simp only [Slot.merge?, Option.some.injEq] at h
             exact h ▸ .word w rfl)
      | delimited body =>
          cases label with
          | repeated =>
              obtain ⟨ws, hread, rfl⟩ := Option.map_eq_some_iff.mp h
              rw [Slot.foldl_words]
              exact .words rfl rfl hread
          | singular | choice => simp [Slot.merge?] at h
      | _ => simp [Slot.merge?] at h
  | fixed64 | double =>
      cases raw with
      | fixed64 w =>
          cases label <;>
            (simp only [Slot.merge?, Option.some.injEq] at h
             exact h ▸ .fixed64 w (by simp))
      | _ => simp [Slot.merge?] at h
  | text =>
      cases raw with
      | delimited body =>
          obtain ⟨s, hread, rfl⟩ := Option.map_eq_some_iff.mp h
          cases label <;> exact .text rfl hread
      | _ => simp [Slot.merge?] at h
  | bytes =>
      cases raw with
      | delimited body =>
          cases label <;>
            (simp only [Slot.merge?, Option.some.injEq] at h
             exact h ▸ .bytes body rfl)
      | _ => simp [Slot.merge?] at h
  | message name =>
      cases raw with
      | delimited body =>
          simp only [Slot.merge?] at h
          split at h
          · obtain ⟨slots, hread, rfl⟩ := Option.map_eq_some_iff.mp h
            exact .message rfl (.inl rfl) hread
          · rename_i start items hlabel
            obtain ⟨slots, hread, rfl⟩ := Option.map_eq_some_iff.mp h
            cases label <;> first
              | exact absurd rfl hlabel
              | exact .message rfl (.inr ⟨hlabel, items, rfl⟩) hread
          · rename_i hlabel _
            obtain ⟨slots, hread, rfl⟩ := Option.map_eq_some_iff.mp h
            cases label <;> first
              | exact absurd rfl hlabel
              | exact .message rfl (.inl rfl) hread
      | _ => simp [Slot.merge?] at h

/-! ## One message -/

/-- The slots with those of a choice emptied. -/
def Content.cleared (specs : List (FieldSpec μ)) (content : Content) : Content :=
  (specs.zip content).map fun x => if x.1.label = .choice then [] else x.2

section Store

variable {specs : List (FieldSpec μ)} {content : Content} {position : Nat}

lemma Content.store_zero (spec : FieldSpec μ) (specs : List (FieldSpec μ)) (old : Slot)
    (content : Content) (slot : Slot) (clears : Bool) :
    Content.store (spec :: specs) (old :: content) 0 slot clears =
      slot :: if clears then Content.cleared specs content else content := by
  cases clears with
  | false => rfl
  | true =>
      rw [Content.store, if_pos rfl, List.zip_cons_cons, List.mapIdx_cons, if_pos rfl]
      refine congrArg (slot :: ·) (List.ext_getElem (by simp [Content.cleared]) ?_)
      intro i _ _
      simp [Content.cleared]

lemma Content.store_succ (spec : FieldSpec μ) (specs : List (FieldSpec μ)) (old : Slot)
    (content : Content) (position : Nat) (slot : Slot) (clears : Bool) :
    Content.store (spec :: specs) (old :: content) (position + 1) slot clears =
      (if clears ∧ spec.label = .choice then [] else old) ::
        Content.store specs content position slot clears := by
  cases clears with
  | false => rfl
  | true =>
      simp only [Content.store, List.zip_cons_cons, List.mapIdx_cons]
      simp

/-- Every slot is the stored one, an emptied one or one that was there. -/
lemma Content.mem_store {slot other : Slot} {clears : Bool}
    (h : other ∈ Content.store specs content position slot clears) :
    other = slot ∨ other = [] ∨ other ∈ content := by
  rw [Content.store] at h
  split at h
  · obtain ⟨i, hi, hother⟩ := List.mem_mapIdx.mp h
    subst hother
    simp only
    split
    · exact .inl rfl
    · split
      · exact .inr (.inl rfl)
      · exact .inr (.inr (List.of_mem_zip (List.getElem_mem (by simpa using hi))).2)
  · exact (List.mem_or_eq_of_mem_set h).symm.imp_right .inr

/-! ## Storing keeps what fits -/

lemma Content.unchosen_cons {spec : FieldSpec μ} {slot : Slot} {slots : Content} :
    Content.Unchosen (spec :: specs) (slot :: slots) ↔
      (spec.label = .choice → slot = []) ∧ Content.Unchosen specs slots := by
  rw [Content.Unchosen, List.zip_cons_cons, List.forall_mem_cons]
  exact Iff.rfl

lemma Content.unchosen_cleared : Content.Unchosen specs (Content.cleared specs content) := by
  induction specs generalizing content with
  | nil => simp [Content.Unchosen]
  | cons spec specs ih =>
      cases content with
      | nil => simp [Content.Unchosen, Content.cleared]
      | cons old content =>
          refine Content.unchosen_cons.mpr ⟨fun hlabel => if_pos hlabel, ih⟩

lemma Content.Fits.cleared (h : Content.Fits schema specs content) :
    Content.Fits schema specs (Content.cleared specs content) := by
  induction specs generalizing content with
  | nil =>
      cases content with
      | nil => trivial
      | cons => exact absurd h (by simp [Content.Fits])
  | cons spec specs ih =>
      cases content with
      | nil => exact absurd h (by simp [Content.Fits])
      | cons old content =>
          obtain ⟨hitems, hadmits, -, hrest⟩ := h
          show Content.Fits schema (spec :: specs) ((if spec.label = .choice then [] else old) :: _)
          refine ⟨?_, ?_, fun _ => .inr Content.unchosen_cleared, ih hrest⟩
          · split
            · trivial
            · exact hitems
          · split
            · simp [FieldSpec.Admits, *]
            · exact hadmits

/-- A slot that is no member of a choice may hold anything. -/
lemma Content.Unchosen.set {slot : Slot} (h : Content.Unchosen specs content)
    (hspec : specs[position]? = some spec) (hlabel : spec.label ≠ .choice) :
    Content.Unchosen specs (content.set position slot) := by
  induction specs generalizing content position with
  | nil => simp [Content.Unchosen]
  | cons first specs ih =>
      cases content with
      | nil => simp [Content.Unchosen]
      | cons old content =>
          obtain ⟨hfirst, hrest⟩ := Content.unchosen_cons.mp h
          cases position with
          | zero =>
              obtain rfl : first = spec := by simpa using hspec
              exact Content.unchosen_cons.mpr ⟨fun hchoice => absurd hchoice hlabel, hrest⟩
          | succ position =>
              exact Content.unchosen_cons.mpr ⟨hfirst, ih hrest (by simpa using hspec)⟩

/-- **Content goes on fitting when a slot that fits is stored.**  Storing a member of a choice
empties the others, so whatever was chosen before, at most one is afterwards. -/
theorem Content.Fits.store {slot : Slot} (h : Content.Fits schema specs content)
    (hspec : specs[position]? = some spec) (hitems : ∀ item ∈ slot, item.Fits schema spec.type)
    (hadmits : spec.Admits slot) :
    Content.Fits schema specs
      (Content.store specs content position slot (spec.label = .choice)) := by
  induction specs generalizing content position with
  | nil => exact absurd hspec (by simp)
  | cons first specs ih =>
      cases content with
      | nil => exact absurd h (by simp [Content.Fits])
      | cons old content =>
          obtain ⟨hold, holdAdmits, hone, hrest⟩ := h
          cases position with
          | zero =>
              obtain rfl : first = spec := by simpa using hspec
              rw [Content.store_zero]
              refine ⟨Slot.fits_iff.mpr hitems, hadmits, ?_, ?_⟩
              · intro hlabel
                rw [if_pos (by simpa using hlabel)]
                exact .inr Content.unchosen_cleared
              · split
                · exact hrest.cleared
                · exact hrest
          | succ position =>
              have hspec' : specs[position]? = some spec := by simpa using hspec
              rw [Content.store_succ]
              refine ⟨?_, ?_, ?_, ih hrest hspec'⟩
              · split
                · trivial
                · exact hold
              · split
                · simp [FieldSpec.Admits, *]
                · exact holdAdmits
              · intro hlabel
                by_cases hchoice : spec.label = .choice
                · exact .inl (if_pos ⟨by simpa using hchoice, hlabel⟩)
                · rw [if_neg (by simp [hchoice]), Content.store, if_neg (by simpa using hchoice)]
                  exact (hone hlabel).imp_right fun hnone => hnone.set hspec' hchoice

end Store

/-! ## What a reader can hold -/

/-- Content that fits its descriptor and has messages nested within the budget. -/
structure Content.Held (schema : Schema μ) (budget : Nat) (specs : List (FieldSpec μ))
    (content : Content) : Prop where
  fits : Content.Fits schema specs content
  depth : content.depth ≤ budget

/-- The same of the slot of one line. -/
structure Slot.Held (schema : Schema μ) (budget : Nat) (spec : FieldSpec μ) (slot : Slot) :
    Prop where
  items : ∀ item ∈ slot, item.Fits schema spec.type
  admits : spec.Admits slot
  depth : ∀ item ∈ slot, item.depth ≤ budget

/-- A reader of nested messages goes on from content that it can hold to content that it can hold,
with one level less. -/
def Upholds (schema : Schema μ) (nested : μ → Content → Bytes → Option Content) (budget : Nat) :
    Prop :=
  ∀ name start body slots, nested name start body = some slots →
    ∃ lower, budget = lower + 1 ∧
      (Content.Held schema lower (schema name) start →
        Content.Held schema lower (schema name) slots)

section Held

variable {budget position : Nat} {specs : List (FieldSpec μ)} {content : Content}

lemma FieldSpec.blank_held (schema : Schema μ) (budget : Nat) (spec : FieldSpec μ) :
    Slot.Held schema budget spec spec.blank := by
  obtain ⟨_, _, label, type⟩ := spec
  have hzero : ∀ type : ScalarType, type.normalize 0 = 0 := by
    intro type
    cases type <;> rfl
  constructor <;> cases label <;> cases type <;>
    simp [FieldSpec.blank, FieldType.default?, Item.Fits, FieldSpec.Admits, Item.depth, hzero]

/-- **The empty message can be held.** -/
lemma Content.Held.blank (schema : Schema μ) (budget : Nat) (specs : List (FieldSpec μ)) :
    Content.Held schema budget specs (.blank specs) where
  fits := by
    induction specs with
    | nil => trivial
    | cons spec specs ih =>
        have hspec := spec.blank_held schema budget
        exact ⟨Slot.fits_iff.mpr hspec.items, hspec.admits,
          fun _ => .inr (Content.unchosen_blank specs), ih⟩
  depth := by
    refine Content.depth_le_iff.mpr fun slot hslot => ?_
    obtain ⟨spec, -, rfl⟩ := List.mem_map.mp hslot
    exact Slot.depth_le_iff.mpr (spec.blank_held schema budget).depth

lemma Content.mem_zip (hspec : specs[position]? = some spec)
    (hslot : content[position]? = some slot) : (spec, slot) ∈ specs.zip content := by
  refine List.mem_of_getElem? (i := position) ?_
  rw [List.getElem?_zip_eq_some]
  exact ⟨hspec, hslot⟩

/-- The slot of a line. -/
lemma Content.Held.line (h : Content.Held schema budget specs content)
    (hspec : specs[position]? = some spec) (hslot : content[position]? = some slot) :
    Slot.Held schema budget spec slot := by
  have hmem := Content.mem_zip hspec hslot
  have hdepth := Content.depth_le_iff.mp h.depth slot (List.of_mem_zip hmem).2
  obtain ⟨hitems, hadmits⟩ := h.fits.line hmem
  exact
    { items := hitems
      admits := hadmits
      depth := Slot.depth_le_iff.mp hdepth }

/-- **A slot that can be held is stored in content that can be held.** -/
theorem Content.Held.store (h : Content.Held schema budget specs content)
    (hspec : specs[position]? = some spec) (hslot : Slot.Held schema budget spec slot) :
    Content.Held schema budget specs
      (Content.store specs content position slot (spec.label = .choice)) where
  fits := h.fits.store hspec hslot.items hslot.admits
  depth := by
    refine Content.depth_le_iff.mpr fun other hother => ?_
    rcases Content.mem_store hother with rfl | rfl | hother
    · exact Slot.depth_le_iff.mpr hslot.depth
    · exact Nat.zero_le _
    · exact Content.depth_le_iff.mp h.depth other hother

/-! ## One field keeps a slot as it should be -/

/-- A word that was cut down to its type is not cut down further. -/
lemma ScalarType.normalize_normalize (type : ScalarType) (w : UInt64) :
    type.normalize (type.normalize w) = type.normalize w := by
  cases type with
  | uint64 | int64 => rfl
  | uint32 => exact congrArg Scalar.word (LawfulScalar.ofWord_word (Scalar.ofWord w : UInt32))
  | int32 => exact congrArg Scalar.word (LawfulScalar.ofWord_word (Scalar.ofWord w : Int32))
  | bool => exact congrArg Scalar.word (LawfulScalar.ofWord_word (Scalar.ofWord w : Bool))

lemma Slot.Held.push {item : Item} (h : Slot.Held schema budget spec slot)
    (hitem : item.Fits schema spec.type) (hdepth : item.depth ≤ budget) :
    Slot.Held schema budget spec (spec.push slot item) := by
  cases hlabel : spec.label with
  | repeated =>
      have hpush : spec.push slot item = item :: slot := by rw [FieldSpec.push, hlabel]
      rw [hpush]
      exact
        { items := List.forall_mem_cons.mpr ⟨hitem, h.items⟩
          admits := by simp [FieldSpec.Admits, hlabel]
          depth := List.forall_mem_cons.mpr ⟨hdepth, h.depth⟩ }
  | singular | choice =>
      have hpush : spec.push slot item = [item] := by rw [FieldSpec.push, hlabel]
      rw [hpush]
      exact
        { items := by simpa using hitem
          admits := by cases htype : spec.type <;> simp [FieldSpec.Admits, hlabel, htype]
          depth := by simpa using hdepth }

/-- What a nested message is read on top of can be held. -/
lemma Slot.Held.start {lower : Nat} {name : μ} {start : Content}
    (h : Slot.Held schema (lower + 1) spec slot) (htype : spec.type = .message name)
    (hstart : start = .blank (schema name) ∨
      spec.label ≠ .repeated ∧ ∃ items, slot = .message start :: items) :
    Content.Held schema lower (schema name) start := by
  rcases hstart with rfl | ⟨-, items, rfl⟩
  · exact .blank schema lower (schema name)
  · have hfits := h.items _ List.mem_cons_self
    have hdepth := h.depth _ List.mem_cons_self
    rw [htype] at hfits
    rw [Item.depth] at hdepth
    exact ⟨hfits, by omega⟩

/-- **Whatever one field does to a slot, the slot can be held afterwards.** -/
theorem Slot.Merged.held (hmerged : Slot.Merged schema nested spec slot raw merged)
    (hnested : Upholds schema nested budget) (h : Slot.Held schema budget spec slot) :
    Slot.Held schema budget spec merged := by
  cases hmerged with
  | word w htype =>
      refine h.push ?_ (Nat.zero_le _)
      rw [htype]
      exact ScalarType.normalize_normalize _ w
  | words htype hlabel hread =>
      exact
        { items := by
            intro item hitem
            rcases List.mem_append.mp hitem with hitem | hitem
            · obtain ⟨w, -, rfl⟩ := List.mem_map.mp (List.mem_reverse.mp hitem)
              rw [htype]
              exact ScalarType.normalize_normalize _ w
            · exact h.items item hitem
          admits := by simp [FieldSpec.Admits, hlabel]
          depth := by
            intro item hitem
            rcases List.mem_append.mp hitem with hitem | hitem
            · obtain ⟨w, -, rfl⟩ := List.mem_map.mp (List.mem_reverse.mp hitem)
              exact Nat.zero_le _
            · exact h.depth item hitem }
  | fixed64 w htype =>
      refine h.push ?_ (Nat.zero_le _)
      rcases htype with htype | htype <;> rw [htype] <;> trivial
  | text htype hread =>
      refine h.push ?_ (Nat.zero_le _)
      rw [htype]
      trivial
  | bytes body htype =>
      refine h.push ?_ (Nat.zero_le _)
      rw [htype]
      trivial
  | @message name body start slots htype hstart hread =>
      obtain ⟨lower, rfl, hkeeps⟩ := hnested name start body slots hread
      have hslots := hkeeps (h.start htype hstart)
      refine h.push ?_ (Nat.succ_le_succ hslots.depth)
      rw [htype]
      exact hslots.fits

end Held

/-! ## The loop -/

/-- **What holds of a run of the loop**, by what the field in front does: it is passed over, or it
changes the slot of its line. -/
theorem Content.absorb?_induction {budget : Nat} {specs : List (FieldSpec μ)}
    {P : Content → Bytes → Content → Prop}
    (done : ∀ content, P content [] content)
    (passed : ∀ {content after : Content} {input rest : Bytes} {number : Nat} {raw : Raw},
      readField? budget input = some ((number, raw), rest) → P content rest after →
        P content input after)
    (stored : ∀ {content after : Content} {input rest : Bytes} {position : Nat} {spec : FieldSpec μ}
      {slot merged : Slot} {raw : Raw},
      readField? budget input = some ((spec.number, raw), rest) →
        specs[position]? = some spec → content[position]? = some slot →
        Slot.Merged schema nested spec slot raw merged →
        P (content.store specs position merged (spec.label = .choice)) rest after →
        P content input after)
    {content after : Content} {input : Bytes}
    (h : Content.absorb? nested schema budget specs content input = some after) :
    P content input after := by
  induction hn : input.length using Nat.strongRecOn generalizing content input with
  | _ n ih =>
    subst hn
    unfold Content.absorb? at h
    split at h
    · obtain rfl : content = after := by simpa using h
      exact done content
    · rename_i b bs
      split at h
      · exact absurd h (by simp)
      · rename_i number raw rest hfield
        have hshorter := readField?_shorter hfield
        split at h
        · split at h
          · exact absurd h (by simp)
          · exact passed hfield (ih _ hshorter h rfl)
        · rename_i position hposition
          split at h
          · rename_i spec slot hspec hslot
            split at h
            · exact absurd h (by simp)
            · rename_i merged hmerge
              have hnumber : spec.number = number := by
                obtain ⟨hlt, hfound, -⟩ := List.findIdx?_eq_some_iff_getElem.mp hposition
                obtain ⟨_, rfl⟩ := List.getElem?_eq_some_iff.mp hspec
                simpa using hfound
              subst hnumber
              exact stored hfield hspec hslot (.of_merge? hmerge) (ih _ hshorter h rfl)
          · exact absurd h (by simp)

/-- **A run of the loop keeps content that can be held.** -/
theorem Content.Held.absorb? {budget : Nat} {specs : List (FieldSpec μ)} {content after : Content}
    {input : Bytes} (hnested : Upholds schema nested budget)
    (h : Content.Held schema budget specs content)
    (hread : Content.absorb? nested schema budget specs content input = some after) :
    Content.Held schema budget specs after := by
  refine Content.absorb?_induction
    (P := fun before _ after => Content.Held schema budget specs before →
      Content.Held schema budget specs after) ?_ ?_ ?_ hread h
  · intro _ hheld
    exact hheld
  · intro _ _ _ _ _ _ _ hrest
    exact hrest
  · intro _ _ _ _ _ _ _ _ _ _ hspec hslot hmerged hrest hheld
    exact hrest (hheld.store hspec (hmerged.held hnested (hheld.line hspec hslot)))

end ProfilePipeline.Wire
