import Mathlib.Order.Lattice
import Mathlib.Tactic.Common
import ProfilePipeline.Proofs.Wire.Growth
import ProfilePipeline.Proofs.Wire.Refusal

/-!
# Content that was read

Whatever bytes a reader accepts, the content that it makes of them is of the same kind as content
that someone wrote: it fits its descriptor, nests no deeper than a reader follows, and its canonical
bytes are not much longer.  So these are read back.

**Turned around.**  A reader keeps its newest item first and turns the slots around at the end.
Nothing above depends on the order of items: `Content.fits_inOrder`, `Content.depth_inOrder`,
`Content.length_encode_inOrder`.

**The result.**  `Content.decode?_canonical` is what a reader makes of the canonical bytes of
content that was read.
-/

namespace ProfilePipeline.Wire

variable {μ : Type} {schema : Schema μ}

/-! ## Turned around -/

lemma Item.inOrder_of_leaf {item : Item} (h : ∀ slots, item ≠ .message slots) :
    item.inOrder = item := by
  cases item with
  | message slots => exact absurd rfl (h slots)
  | _ => rfl

lemma Content.inOrder_eq_map (content : Content) :
    content.inOrder = content.map fun slot => (slot.map Item.inOrder).reverse := by
  induction content with
  | nil => rfl
  | cons slot slots ih => rw [Content.inOrder, Slot.inOrder_eq, List.append_nil, ih, List.map_cons]

lemma Content.depth_inOrder_of {content : Content}
    (h : ∀ slot ∈ content, ∀ item ∈ slot, item.inOrder.depth = item.depth) :
    content.inOrder.depth = content.depth := by
  refine eq_of_forall_ge_iff fun d => ?_
  have hslot : ∀ slot ∈ content,
      (Slot.depth ((slot.map Item.inOrder).reverse) ≤ d ↔ Slot.depth slot ≤ d) := by
    intro slot hmem
    rw [Slot.depth_le_iff, Slot.depth_le_iff]
    simp only [List.mem_reverse, List.forall_mem_map]
    exact forall₂_congr fun item hitem => by rw [h slot hmem item hitem]
  rw [Content.depth_le_iff, Content.depth_le_iff, Content.inOrder_eq_map, List.forall_mem_map]
  exact forall₂_congr hslot

lemma Item.depth_inOrder (item : Item) : item.inOrder.depth = item.depth := by
  induction item using Item.induction with
  | leaf item hleaf => rw [Item.inOrder_of_leaf hleaf]
  | message slots ih => rw [Item.inOrder, Item.depth, Item.depth, Content.depth_inOrder_of ih]

/-- **Messages nest as deep as before.** -/
theorem Content.depth_inOrder (content : Content) : content.inOrder.depth = content.depth :=
  Content.depth_inOrder_of fun _ _ item _ => item.depth_inOrder

lemma Content.fits_inOrder_of {specs : List (FieldSpec μ)} {content : Content}
    (h : Content.Fits schema specs content)
    (hitems : ∀ slot ∈ content, ∀ item ∈ slot, ∀ type : FieldType μ,
      item.Fits schema type → item.inOrder.Fits schema type) :
    Content.Fits schema specs content.inOrder := by
  induction specs generalizing content with
  | nil =>
      cases content with
      | nil => trivial
      | cons => exact absurd h (by simp [Content.Fits])
  | cons spec specs ih =>
      cases content with
      | nil => exact absurd h (by simp [Content.Fits])
      | cons slot slots =>
          obtain ⟨hslot, hadmits, hone, hrest⟩ := h
          rw [List.forall_mem_cons] at hitems
          rw [Content.inOrder, Slot.inOrder_eq, List.append_nil]
          refine ⟨?_, ?_, ?_, ih hrest hitems.2⟩
          · rw [Slot.fits_iff] at hslot ⊢
            intro item hmem
            obtain ⟨before, hbefore, rfl⟩ := List.mem_map.mp (List.mem_reverse.mp hmem)
            exact hitems.1 before hbefore spec.type (hslot before hbefore)
          · simpa [FieldSpec.Admits] using hadmits
          · intro hlabel
            refine (hone hlabel).imp (fun hnil => by simp [hnil]) fun hnone => ?_
            intro x hx hchoice
            rw [Content.inOrder_eq_map, List.zip_map_right] at hx
            obtain ⟨y, hy, rfl⟩ := List.mem_map.mp hx
            have := hnone y hy hchoice
            simp [this]

lemma Item.fits_inOrder (item : Item) :
    ∀ type : FieldType μ, item.Fits schema type → item.inOrder.Fits schema type := by
  induction item using Item.induction with
  | leaf item hleaf =>
      rw [Item.inOrder_of_leaf hleaf]
      exact fun _ h => h
  | message slots ih =>
      intro type h
      obtain ⟨name, rfl⟩ := Item.Fits.exists_type h
      exact Content.fits_inOrder_of h ih

/-- **Content goes on fitting its descriptor.** -/
theorem Content.fits_inOrder {specs : List (FieldSpec μ)} {content : Content}
    (h : Content.Fits schema specs content) : Content.Fits schema specs content.inOrder :=
  Content.fits_inOrder_of h fun _ _ item _ => Item.fits_inOrder item

/-- The bytes of items that are written one by one, counted item by item. -/
lemma Slot.length_encodeEach (number : Nat) (type : FieldType μ) (omits : Bool) (slot : Slot) :
    (Slot.encodeEach schema number type omits slot).length =
      (slot.map fun item => if omits && item.isDefault then 0
        else (keyBytes number type.wireType).length + (item.encode schema type).length).sum := by
  induction slot with
  | nil =>
      rw [Slot.encodeEach]
      rfl
  | cons item items ih =>
      rw [Slot.encodeEach, List.length_append, ih, List.map_cons, List.sum_cons]
      split <;> simp

lemma Item.isDefault_inOrder (item : Item) : item.inOrder.isDefault = item.isDefault := by
  cases item <;> rfl

lemma Item.wordBytes_inOrder (item : Item) : item.inOrder.wordBytes = item.wordBytes := by
  cases item <;> rfl

lemma FieldSpec.length_slotBytes_inOrder {spec : FieldSpec μ} {slot : Slot}
    (h : ∀ item ∈ slot,
      (item.inOrder.encode schema spec.type).length = (item.encode schema spec.type).length) :
    (spec.slotBytes schema (slot.map Item.inOrder).reverse).length =
      (spec.slotBytes schema slot).length := by
  have heach : ∀ omits,
      (Slot.encodeEach schema spec.number spec.type omits (slot.map Item.inOrder).reverse).length =
        (Slot.encodeEach schema spec.number spec.type omits slot).length := by
    intro omits
    rw [Slot.length_encodeEach, Slot.length_encodeEach, List.map_reverse, List.sum_reverse,
      List.map_map]
    refine congrArg List.sum (List.map_congr_left fun item hitem => ?_)
    rw [Function.comp_apply, Item.isDefault_inOrder, h item hitem]
  have hpacked : ((slot.map Item.inOrder).reverse.flatMap Item.wordBytes).length =
      (slot.flatMap Item.wordBytes).length := by
    rw [List.length_flatMap, List.length_flatMap, List.map_reverse, List.sum_reverse, List.map_map]
    refine congrArg List.sum (List.map_congr_left fun item _ => ?_)
    rw [Function.comp_apply, Item.wordBytes_inOrder]
  have hempty : (slot.map Item.inOrder).reverse.isEmpty = slot.isEmpty := by
    rw [List.isEmpty_reverse, List.isEmpty_map]
  rw [FieldSpec.slotBytes, FieldSpec.slotBytes]
  split
  · exact heach true
  · rw [hempty]
    split
    · rfl
    · rw [List.length_append, List.length_append, ← delimitedLen_eq, ← delimitedLen_eq, hpacked]
  · exact heach false
  · exact heach false

lemma Content.length_encode_inOrder_of {specs : List (FieldSpec μ)} {content : Content}
    (h : ∀ slot ∈ content, ∀ item ∈ slot, ∀ type : FieldType μ,
      (item.inOrder.encode schema type).length = (item.encode schema type).length) :
    (Content.encode schema specs content.inOrder).length =
      (Content.encode schema specs content).length := by
  induction specs generalizing content with
  | nil => rw [Content.encode_nil, Content.encode_nil]
  | cons spec specs ih =>
      cases content with
      | nil => rfl
      | cons slot slots =>
          rw [List.forall_mem_cons] at h
          rw [Content.inOrder, Slot.inOrder_eq, List.append_nil, Content.encode_cons,
            Content.encode_cons, List.length_append, List.length_append, ih h.2,
            FieldSpec.length_slotBytes_inOrder fun item hitem => h.1 item hitem spec.type]

lemma Item.length_encode_inOrder (item : Item) :
    ∀ type : FieldType μ,
      (item.inOrder.encode schema type).length = (item.encode schema type).length := by
  induction item using Item.induction with
  | leaf item hleaf =>
      rw [Item.inOrder_of_leaf hleaf]
      exact fun _ => rfl
  | message slots ih =>
      intro type
      rw [Item.inOrder]
      cases type with
      | message name =>
          rw [Item.encode, Item.encode, ← delimitedLen_eq, ← delimitedLen_eq,
            Content.length_encode_inOrder_of ih]
      | _ => simp only [Item.encode]

/-- **Content has as many canonical bytes as before.** -/
theorem Content.length_encode_inOrder (specs : List (FieldSpec μ)) (content : Content) :
    (Content.encode schema specs content.inOrder).length =
      (Content.encode schema specs content).length :=
  Content.length_encode_inOrder_of fun _ _ item _ => item.length_encode_inOrder

/-! ## Content that was read -/

/-- **Content that was read** fits its descriptor, nests no deeper than a reader follows, and has at
most twice as many canonical bytes as were read. -/
theorem Content.decode?_held {name : μ} {input : Bytes} {content : Content}
    (hlen : input.length < 2 ^ 63) (hread : Content.decode? schema name input = some content) :
    Content.Held schema depthLimit (schema name) content ∧
      (Content.encode schema (schema name) content).length ≤ 2 * input.length := by
  obtain ⟨after, hafter, rfl⟩ := Option.map_eq_some_iff.mp hread
  obtain ⟨hupholds, hrestrains⟩ := Content.read?_upholds schema depthLimit
  have hblank := Content.Held.blank schema depthLimit (schema name)
  have hempty : (Content.encode schema (schema name) (.blank (schema name))).length = 0 := by
    rw [Content.encode_blank, List.length_nil]
  obtain ⟨_, ⟨⟩, hholds⟩ := hupholds name _ input after hafter
  obtain ⟨_, ⟨⟩, hshort⟩ := hrestrains name _ input after hafter
  have hheld := hholds hblank
  have hlonger := hshort hblank (by omega)
  refine ⟨⟨Content.fits_inOrder hheld.fits, ?_⟩, ?_⟩
  · rw [Content.depth_inOrder]
    exact hheld.depth
  · rw [Content.length_encode_inOrder]
    omega

/-- **Content that was read is read back from its canonical bytes**, whatever bytes it was read
from. -/
theorem Content.decode?_canonical (hschema : schema.Sound) {name : μ} {input : Bytes}
    {content : Content} (hlen : input.length < 2 ^ 63)
    (hread : Content.decode? schema name input = some content) :
    Content.decode? schema name (Content.encode schema (schema name) content) = some content := by
  obtain ⟨hheld, hshort⟩ := Content.decode?_held hlen hread
  exact Content.decode?_encode hschema hheld.fits hheld.depth (by omega)

end ProfilePipeline.Wire
