import Mathlib.Algebra.Ring.Int.Defs
import Mathlib.Algebra.Ring.Nat
import Mathlib.Tactic.Common
import Mathlib.Tactic.MkIffOfInductiveProp
import ProfilePipeline.Payload.Indices

/-!
# What the check of a payload promises

The check is written as one loop per table.  `references` lists the same places of the payload, one
after the other, and **`checkIndices_eq_forM`** says that the loops amount to checking that list:
no place is looked at twice, in another order, or against another table.

**Words.**  An unsigned index is checked as the nearest signed one, so every index from 2⁶³ on is
taken for 2⁶³ - 1.  It is a fault all the same as long as no table reaches so far (`Addressable`),
and none that fits into memory does.

**Kinds.**  `ReferencesResolve` says field by field what it means that every reference on the list
resolves.  `NoDangling` adds the two kinds that are not on it: the frame type of a location, which
is a text, and the window of a sample, which is a part of the location indices.  The check passes
payloads in which these lead nowhere.
-/

namespace ProfilePipeline.Payload

/-! ## One reference -/

/-- An index is in a table if it is zero or a position of the table. -/
def Table.Has (t : Table) (index : Int) : Prop := index = 0 ∨ (0 ≤ index ∧ index < t.len)

/-- The check of one reference. -/
def Reference.check (r : Reference) : Except IndexError Unit :=
  if r.Resolves then .ok () else .error r.error

lemma Reference.check_eq_ok_iff {r : Reference} : r.check = .ok () ↔ r.Resolves := by
  rw [check]
  split <;> simp_all

lemma Reference.resolves_mk {entity field : String} {position : Nat} {index : Int} {t : Table} :
    Reference.Resolves ⟨entity, position, field, index, t⟩ ↔ t.Has index := Iff.rfl

namespace Table

variable {t : Table} {entity field : String} {position : Nat} {index : Int64} {n : Int}

/-- A table that signed words can address makes no difference between a number and the signed word
nearest to it. -/
lemma check_nearest (hnear : index.toInt = min n (2 ^ 63 - 1)) (h : n < 2 ^ 63 ∨ t.len < 2 ^ 63) :
    t.check entity position field index = Reference.check ⟨entity, position, field, n, t⟩ := by
  have hzero : index = 0 ↔ index.toInt = 0 := Int64.toInt_inj.symm
  have hnonneg : 0 ≤ index ↔ 0 ≤ index.toInt := Int64.le_iff_toInt_le
  have herror : Int64.ofInt (min n Int64.maxValue.toInt) = index := by
    rw [Int64.toInt_maxValue, ← hnear, Int64.ofInt_toInt]
  have hresolves : (index = 0 ∨ (0 ≤ index ∧ index.toInt.toNat < t.len)) ↔
      Reference.Resolves ⟨entity, position, field, n, t⟩ := by
    show _ ↔ n = 0 ∨ (0 ≤ n ∧ n < t.len)
    rw [hzero, hnonneg]
    omega
  rw [check, Reference.check, Reference.error, herror]
  simp only [hresolves]

lemma check_eq : t.check entity position field index =
    Reference.check ⟨entity, position, field, index.toInt, t⟩ := by
  have hlt := index.toInt_lt
  exact check_nearest (by omega) (.inl hlt)

lemma toInt_toInt64 {index : UInt64} (h : index.toNat < 2 ^ 63) :
    index.toInt64.toInt = index.toNat := by
  have htwice : 2 * index.toBitVec.toNat < 2 ^ 64 := by
    rw [UInt64.toNat_toBitVec]
    omega
  exact BitVec.toInt_eq_toNat_of_lt htwice

lemma toInt_saturate (index : UInt64) :
    (saturate index).toInt = min (index.toNat : Int) (2 ^ 63 - 1) := by
  have hmax : Int64.maxValue.toUInt64.toNat = 2 ^ 63 - 1 := by decide
  rw [saturate]
  split <;> rename_i h <;> rw [UInt64.le_iff_toNat_le, hmax] at h
  · rw [toInt_toInt64 (by omega)]
    omega
  · rw [Int64.toInt_maxValue]
    omega

lemma checkUnsigned_eq (h : t.len < 2 ^ 63) (index : UInt64) :
    t.checkUnsigned entity position field index =
      Reference.check ⟨entity, position, field, index.toNat, t⟩ :=
  check_nearest (toInt_saturate index) (.inr h)

lemma checkAll_eq (h : t.len < 2 ^ 63) (indices : List UInt64) :
    t.checkAll entity position field indices =
      forM (indices.map (⟨entity, position, field, ·.toNat, t⟩)) Reference.check := by
  rw [checkAll, List.forM_eq_forM, List.forM_map]
  congr 1
  funext index
  exact checkUnsigned_eq h index

end Table

/-! ## Loops -/

section Loops

variable {α : Type}

lemma bind_eq_ok_iff {x : Except IndexError Unit} {f : Unit → Except IndexError Unit} :
    (x >>= f) = .ok () ↔ x = .ok () ∧ f () = .ok () := by
  cases x with
  | error e => simp [bind, Except.bind]
  | ok u => simp [bind, Except.bind]

lemma bind_congr_unit {x y : Except IndexError Unit} {f g : Unit → Except IndexError Unit}
    (h : x = y) (hnext : f () = g ()) : (x >>= f) = (y >>= g) := by
  rw [h]
  exact bind_congr fun _ => hnext

lemma forM_eq_ok_iff {f : α → Except IndexError Unit} {xs : List α} :
    forM xs f = .ok () ↔ ∀ x ∈ xs, f x = .ok () := by
  induction xs with
  | nil => simp [pure, Except.pure]
  | cons x xs ih => rw [List.forM_cons, bind_eq_ok_iff, ih, List.forall_mem_cons]

lemma forM_flatMap {β : Type} {f : β → Except IndexError Unit} {g : α → List β} {xs : List α} :
    forM (xs.flatMap g) f = forM xs fun x => forM (g x) f := by
  induction xs with
  | nil => rfl
  | cons x xs ih => rw [List.flatMap_cons, List.forM_append, ih, List.forM_cons]

variable {check : Nat → α → Except IndexError Unit} {f : Nat → α → List Reference} {xs : List α}

/-- A loop that checks the references of each element checks the references of the list. -/
lemma forEach_eq (h : ∀ i x, check i x = forM (f i x) Reference.check) :
    forEach check xs = forM (referencesOf f xs) Reference.check := by
  rw [forEach, referencesOf, forM_flatMap, List.forM_eq_forM]
  congr 1
  funext ⟨x, i⟩
  exact h i x

lemma forall_referencesOf {P : Reference → Prop} :
    (∀ r ∈ referencesOf f xs, P r) ↔ ∀ x i, (x, i) ∈ xs.zipIdx → ∀ r ∈ f i x, P r := by
  rw [referencesOf, List.forall_mem_flatMap, Prod.forall]

lemma forall_zipIdx {Q : α → Prop} : (∀ x i, (x, i) ∈ xs.zipIdx → Q x) ↔ ∀ x ∈ xs, Q x := by
  constructor
  · intro h x hx
    obtain ⟨i, hi, rfl⟩ := List.mem_iff_getElem.mp hx
    exact h xs[i] i (List.mk_mem_zipIdx_iff_getElem?.mpr (by simp [hi]))
  · intro h x i hx
    exact h x (List.fst_mem_of_mem_zipIdx hx)

end Loops

/-! ## All references -/

/-- The tables that unsigned indices refer to fit into memory. -/
structure Addressable (p : Payload) : Prop where
  locations : p.locationTable.len < 2 ^ 63
  attributes : p.attributeTableLen.len < 2 ^ 63
  links : p.linkTable.len < 2 ^ 63
  mappings : p.mappingTable.len < 2 ^ 63
  functions : p.functionTable.len < 2 ^ 63

variable {p : Payload}

/-- **The check is the check of the list of references.** -/
theorem checkIndices_eq_forM (h : p.Addressable) :
    p.checkIndices = forM p.references Reference.check := by
  simp only [references, List.forM_append, bind_assoc]
  refine bind_congr_unit (forEach_eq ?valueTypes) <| bind_congr_unit (forEach_eq ?samples) <|
    bind_congr_unit (forEach_eq ?mappings) <| bind_congr_unit (forEach_eq ?locations) <|
    bind_congr_unit (forEach_eq ?locationIndices) <| bind_congr_unit (forEach_eq ?functions) <|
    bind_congr_unit (forEach_eq ?units) <| bind_congr_unit (forEach_eq ?comments) ?profile
  case samples =>
    intro i s
    simp [Table.checkAll_eq h.locations, Table.checkAll_eq h.attributes,
      Table.checkUnsigned_eq h.links, Table.check_eq, List.forM_append, forM_flatMap]
  case mappings =>
    intro i m
    simp [Table.check_eq, Table.checkAll_eq h.attributes]
  case locations =>
    intro i l
    simp [Table.checkUnsigned_eq h.mappings, Table.checkAll_eq h.attributes,
      Table.checkUnsigned_eq h.functions, List.forM_append]
  all_goals simp [Table.check_eq]

/-! ## Payloads without dangling references -/

/-- What a sample refers to is there. -/
@[mk_iff]
structure Sample.Resolves (p : Payload) (s : Sample) : Prop where
  locations : ∀ index ∈ s.locationIndex, p.locationTable.Has index.toNat
  attributes : ∀ index ∈ s.attributes, p.attributeTableLen.Has index.toNat
  link : p.linkTable.Has s.link.toNat
  labels : ∀ l ∈ s.labels,
    p.strings.Has l.key.toInt ∧ p.strings.Has l.str.toInt ∧ p.strings.Has l.numUnit.toInt

/-- What a mapping refers to is there. -/
@[mk_iff]
structure Mapping.Resolves (p : Payload) (m : Mapping) : Prop where
  filename : p.strings.Has m.filename.toInt
  buildId : p.strings.Has m.buildId.toInt
  attributes : ∀ index ∈ m.attributes, p.attributeTableLen.Has index.toNat

/-- What a location refers to is there, its frame type apart. -/
@[mk_iff]
structure Location.Resolves (p : Payload) (l : Location) : Prop where
  mapping : p.mappingTable.Has l.mappingIndex.toNat
  attributes : ∀ index ∈ l.attributes, p.attributeTableLen.Has index.toNat
  functions : ∀ line ∈ l.lines, p.functionTable.Has line.functionIndex.toNat

/-- What a payload refers to is there, frame types and windows apart. -/
@[mk_iff]
structure ReferencesResolve (p : Payload) : Prop where
  valueTypes : ∀ v ∈ p.sampleTypes ++ p.periodType.toList,
    p.strings.Has v.type.toInt ∧ p.strings.Has v.unit.toInt
  samples : ∀ s ∈ p.samples, s.Resolves p
  mappings : ∀ m ∈ p.mappings, m.Resolves p
  locations : ∀ l ∈ p.locations, l.Resolves p
  locationIndices : ∀ index ∈ p.locationIndices, p.locationTable.Has index.toInt
  functions : ∀ f ∈ p.functions,
    p.strings.Has f.name.toInt ∧ p.strings.Has f.systemName.toInt ∧ p.strings.Has f.filename.toInt
  units : ∀ u ∈ p.attributeUnits,
    p.strings.Has u.attributeKey.toInt ∧ p.strings.Has u.unit.toInt
  comments : ∀ comment ∈ p.comments, p.strings.Has comment.toInt
  dropFrames : p.strings.Has p.dropFrames.toInt
  keepFrames : p.strings.Has p.keepFrames.toInt
  defaultSampleType : p.strings.Has p.defaultSampleType.toInt

/-- Nothing in a payload leads nowhere: no reference that is checked, no frame type, no window. -/
structure NoDangling (p : Payload) : Prop extends ReferencesResolve p where
  frameTypes : ∀ l ∈ p.locations, p.strings.Has l.typeIndex.toNat
  windows : ∀ s ∈ p.samples,
    s.locationsStartIndex.toNat + s.locationsLength.toNat ≤ p.locationIndices.length

lemma resolve_iff : (∀ r ∈ p.references, r.Resolves) ↔ p.ReferencesResolve := by
  simp only [references, List.forall_mem_append, forall_referencesOf, List.forall_mem_map,
    List.forall_mem_flatMap, List.forall_mem_cons, List.not_mem_nil, false_implies, implies_true,
    and_true, Reference.resolves_mk, forall_zipIdx]
  simp only [referencesResolve_iff, Sample.resolves_iff, Mapping.resolves_iff,
    Location.resolves_iff, List.forall_mem_append, and_assoc]

/-- **What the check promises, and no more**: everything that a payload refers to is there, frame
types and windows apart. -/
theorem checkIndices_eq_ok_iff (h : p.Addressable) :
    p.checkIndices = .ok () ↔ p.ReferencesResolve := by
  rw [checkIndices_eq_forM h, forM_eq_ok_iff, ← resolve_iff]
  simp only [Reference.check_eq_ok_iff]

/-- A sample whose stack is a window, and all that it needs. -/
def windowed : Payload where
  samples := [{ locationsStartIndex := 1, locationsLength := 2 }]
  locations := [{}, { mappingIndex := 1 }]
  locationIndices := [0, 1, 0]
  mappings := [{}, { filename := 1 }]
  stringTable := ["", "lib"]

theorem checkIndices_windowed :
    windowed.Addressable ∧ windowed.checkIndices = .ok () ∧ windowed.ReferencesResolve := by
  have h : windowed.Addressable := by constructor <;> decide
  have hok : windowed.checkIndices = .ok () := by decide
  exact ⟨h, hok, (checkIndices_eq_ok_iff h).mp hok⟩

/-- A location whose frame type is not a text of the payload. -/
def strayFrameType : Payload := { stringTable := [""], locations := [{ typeIndex := 9 }] }

/-- A sample whose window lies outside the location indices. -/
def strayWindow : Payload where
  samples := [{ locationsStartIndex := 5, locationsLength := 2 }]

/-- **The check lets dangling references through**, frame types as well as windows. -/
theorem checkIndices_dangling :
    (strayFrameType.checkIndices = .ok () ∧ ¬ strayFrameType.NoDangling) ∧
      strayWindow.checkIndices = .ok () ∧ ¬ strayWindow.NoDangling := by
  refine ⟨⟨by decide, ?_⟩, by decide, ?_⟩
  · intro h
    have hframe : strayFrameType.strings.Has 9 := h.frameTypes _ (List.mem_singleton_self _)
    revert hframe
    simp [Table.Has, strings, strayFrameType]
  · intro h
    have hwindow : 5 + 2 ≤ 0 := h.windows _ (List.mem_singleton_self _)
    omega

end ProfilePipeline.Payload
