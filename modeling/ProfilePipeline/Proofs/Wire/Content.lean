import Mathlib.Tactic.Common
import ProfilePipeline.Proofs.Wire.Raw
import ProfilePipeline.Wire.Decoder

/-!
# Content that fits its descriptor

Not every tree of items is the content of a message: a flag is zero or one, a singular number is
there exactly once, and of a choice at most one member is set.

* `Content.Fits` — **the content belongs to a descriptor.**  It says nothing about bytes, and asks
  nothing of how deep messages nest; that is `Content.depth`.
* `FieldSpec.slotBytes` — what one line of a descriptor writes, with `Item.raw` as what a reader
  sees of one item.
* `Content.inOrder_inOrder` — turning slots around twice is doing nothing, which is how a reader
  that keeps its newest item first ends up with what was written.
-/

namespace ProfilePipeline.Wire

variable {μ : Type} (schema : Schema μ)

/-! ## What fits -/

/-- How many items a line of a descriptor admits. -/
def FieldSpec.Admits (spec : FieldSpec μ) (slot : Slot) : Prop :=
  match spec.label, spec.type with
  | .singular, .message _ => slot.length ≤ 1
  | .singular, _ => slot.length = 1
  | .choice, _ => slot.length ≤ 1
  | .repeated, _ => True

/-- Of the members of a choice none is set. -/
def Content.Unchosen (specs : List (FieldSpec μ)) (content : Content) : Prop :=
  ∀ x ∈ specs.zip content, x.1.label = .choice → x.2 = []

mutual

/-- An item is of a type, and a word is in the form that a reader of the type keeps. -/
def Item.Fits : FieldType μ → Item → Prop
  | .scalar type, .word w => type.normalize w = w
  | .fixed64, .fixed64 _ | .double, .fixed64 _ => True
  | .text, .text _ => True
  | .bytes, .bytes _ => True
  | .message name, .message slots => Content.Fits (schema name) slots
  | _, _ => False

/-- All items of a slot are of a type. -/
def Slot.Fits (type : FieldType μ) : Slot → Prop
  | [] => True
  | item :: items => item.Fits type ∧ Slot.Fits type items

/-- **The content belongs to a descriptor**: one slot per line, as many items as the line admits,
all of its type, and at most one member set of the choice. -/
def Content.Fits : List (FieldSpec μ) → Content → Prop
  | [], [] => True
  | spec :: specs, slot :: slots =>
    Slot.Fits spec.type slot ∧ spec.Admits slot ∧
      (spec.label = .choice → slot = [] ∨ Content.Unchosen specs slots) ∧
      Content.Fits specs slots
  | _, _ => False

end

variable {schema}

lemma Slot.fits_iff {type : FieldType μ} {slot : Slot} :
    Slot.Fits schema type slot ↔ ∀ item ∈ slot, item.Fits schema type := by
  induction slot with
  | nil => simp [Slot.Fits]
  | cons item items ih => simp [Slot.Fits, ih]

/-! ## What is nested -/

/-- Induction over an item and all that is nested in it. -/
theorem Item.induction {P : Item → Prop} (leaf : ∀ item, (∀ slots, item ≠ .message slots) → P item)
    (message : ∀ slots : Content, (∀ slot ∈ slots, ∀ item ∈ slot, P item) → P (.message slots)) :
    ∀ item, P item := by
  refine Item.rec (motive_1 := P) (motive_2 := fun slots => ∀ slot ∈ slots, ∀ item ∈ slot, P item)
    (motive_3 := fun slot => ∀ item ∈ slot, P item) ?_ ?_ ?_ ?_ message ?_ ?_ ?_ ?_
  · exact fun w => leaf _ (by simp)
  · exact fun w => leaf _ (by simp)
  · exact fun s => leaf _ (by simp)
  · exact fun b => leaf _ (by simp)
  · simp
  · exact fun slot slots hslot hslots => List.forall_mem_cons.mpr ⟨hslot, hslots⟩
  · simp
  · exact fun item items hitem hitems => List.forall_mem_cons.mpr ⟨hitem, hitems⟩

/-! ## How deep messages nest -/

mutual

/-- How deep messages nest in an item, itself included. -/
def Item.depth : Item → Nat
  | .message slots => Content.depth slots + 1
  | _ => 0

/-- How deep messages nest in the items of a slot. -/
def Slot.depth : Slot → Nat
  | [] => 0
  | item :: items => max item.depth (Slot.depth items)

/-- **How deep messages nest** below the outer one. -/
def Content.depth : Content → Nat
  | [] => 0
  | slot :: slots => max (Slot.depth slot) (Content.depth slots)

end

lemma Slot.depth_le_iff {slot : Slot} {d : Nat} :
    slot.depth ≤ d ↔ ∀ item ∈ slot, item.depth ≤ d := by
  induction slot with
  | nil => simp [Slot.depth]
  | cons item items ih => rw [Slot.depth, Nat.max_le, ih, List.forall_mem_cons]

lemma Content.depth_le_iff {content : Content} {d : Nat} :
    content.depth ≤ d ↔ ∀ slot ∈ content, Slot.depth slot ≤ d := by
  induction content with
  | nil => simp [Content.depth]
  | cons slot slots ih => rw [Content.depth, Nat.max_le, ih, List.forall_mem_cons]

/-! ## Turning slots around -/

lemma Slot.inOrder_eq (later slot : Slot) :
    Slot.inOrder later slot = (slot.map Item.inOrder).reverse ++ later := by
  induction slot generalizing later with
  | nil => rfl
  | cons item items ih => simp [Slot.inOrder, ih]

lemma Slot.inOrder_singleton (item : Item) : Slot.inOrder [] [item] = [item.inOrder] := rfl

mutual

theorem Item.inOrder_inOrder : ∀ item : Item, item.inOrder.inOrder = item
  | .message slots => by rw [Item.inOrder, Item.inOrder, Content.inOrder_inOrder slots]
  | .word _ => rfl
  | .fixed64 _ => rfl
  | .text _ => rfl
  | .bytes _ => rfl

theorem Slot.map_inOrder_inOrder : ∀ slot : Slot, (slot.map Item.inOrder).map Item.inOrder = slot
  | [] => rfl
  | item :: items => by
      rw [List.map_cons, List.map_cons, Item.inOrder_inOrder item, Slot.map_inOrder_inOrder items]

/-- **Turning all slots around twice is doing nothing.** -/
theorem Content.inOrder_inOrder : ∀ content : Content, content.inOrder.inOrder = content
  | [] => rfl
  | slot :: slots => by
      have hslot : Slot.inOrder [] (Slot.inOrder [] slot) = slot := by
        simp only [Slot.inOrder_eq, List.append_nil, List.map_reverse, List.reverse_reverse]
        exact Slot.map_inOrder_inOrder slot
      rw [Content.inOrder, Content.inOrder, hslot, Content.inOrder_inOrder slots]

end

/-! ## What one line writes -/

variable (schema)

/-- The bytes that one line of a descriptor writes. -/
def FieldSpec.slotBytes (spec : FieldSpec μ) (slot : Slot) : Bytes :=
  match spec.label, spec.type with
  | .singular, type => Slot.encodeEach schema spec.number type true slot
  | .repeated, .scalar _ =>
    if slot.isEmpty then []
    else keyBytes spec.number .delimited ++ delimit (slot.flatMap Item.wordBytes)
  | .repeated, type => Slot.encodeEach schema spec.number type false slot
  | .choice, type => Slot.encodeEach schema spec.number type false slot

lemma Content.encode_cons (spec : FieldSpec μ) (specs : List (FieldSpec μ)) (slot : Slot)
    (slots : Content) :
    Content.encode schema (spec :: specs) (slot :: slots) =
      spec.slotBytes schema slot ++ Content.encode schema specs slots := by
  rw [Content.encode]
  rfl

lemma Content.encode_nil (content : Content) : Content.encode schema [] content = [] := by
  rw [Content.encode]
  simp

/-- What a reader sees of an item before its type is known. -/
def Item.raw : FieldType μ → Item → Raw
  | _, .word w => .varint w
  | _, .fixed64 w => .fixed64 w
  | _, .text s => .delimited (utf8 s)
  | _, .bytes b => .delimited b
  | .message name, .message slots => .delimited (Content.encode schema (schema name) slots)
  | _, .message _ => .delimited []

lemma Item.encode_eq_bytes_raw (type : FieldType μ) (item : Item) :
    item.encode schema type = (item.raw schema type).bytes := by
  cases item <;> cases type <;> simp only [Item.encode, Item.raw, Raw.bytes]

variable {schema}

lemma Item.Fits.wireType_raw {type : FieldType μ} {item : Item} (h : item.Fits schema type) :
    (item.raw schema type).wireType = type.wireType := by
  cases type <;> cases item <;> first | rfl | exact absurd h (by simp [Item.Fits])

/-- One item is a key and a payload. -/
lemma Slot.encodeEach_cons {type : FieldType μ} {item : Item} (number : Nat) (omits : Bool)
    (items : Slot) (h : item.Fits schema type) :
    Slot.encodeEach schema number type omits (item :: items) =
      (if omits && item.isDefault then []
        else keyBytes number (item.raw schema type).wireType ++ (item.raw schema type).bytes) ++
        Slot.encodeEach schema number type omits items := by
  rw [Slot.encodeEach, Item.encode_eq_bytes_raw, h.wireType_raw]

end ProfilePipeline.Wire
