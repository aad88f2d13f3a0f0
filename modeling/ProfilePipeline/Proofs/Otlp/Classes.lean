import Mathlib.Data.List.Basic
import Mathlib.Data.List.Perm.Basic
import Mathlib.Tactic.Common
import ProfilePipeline.Otlp.Group

/-!
# Lists taken apart

`classes` takes the first element of a list, collects what is the same as it, and goes on with the
rest.  Of the relation nothing is asked that equality by value does not have; in particular an
element need not be the same as itself.

**Whatever the relation is**, nothing is lost (`flatMap_classes_perm`), each class keeps the order
of the list (`classes_sublist`), the classes come in the order of their heads (`heads_sublist`), and
what is outside a class is not the same as the head of any class before it (`classes_apart`).

**A symmetric and transitive relation** is what the classes show: two different elements share a
class exactly if they are the same (`share_class_iff`).

**The loop.**  One element more at the end of a list goes to the first class whose head is the same
as it, or heads a new one at the end (`classes_concat`).
-/

namespace ProfilePipeline.Otlp

variable {α β : Type} {same : α → α → Bool} {xs : List α} {c : α × List α}

/-- All elements of a class. -/
def members (c : α × List α) : List α := c.1 :: c.2

@[simp] lemma mem_members {a : α} : a ∈ members c ↔ a = c.1 ∨ a ∈ c.2 := List.mem_cons

@[simp] lemma classes_nil : classes same [] = [] := by rw [classes]

lemma classes_cons (a : α) (rest : List α) :
    classes same (a :: rest) =
      (a, rest.filter (same a)) :: classes same (rest.filter fun b => !same a b) := by
  rw [classes]

/-- Induction along the classes: what the first class leaves over, then the whole list. -/
@[elab_as_elim]
lemma classes_induction (same : α → α → Bool) {P : List α → Prop} (nil : P [])
    (cons : ∀ a rest, P (rest.filter fun b => !same a b) → P (a :: rest)) : ∀ xs, P xs
  | [] => nil
  | a :: rest => cons a rest (classes_induction same nil cons (rest.filter fun b => !same a b))
termination_by xs => xs.length
decreasing_by simpa [Nat.lt_succ_iff] using List.length_filter_le (fun b => !same a b) rest

/-! ## Any relation -/

lemma flatMap_classes_perm : ((classes same xs).flatMap members).Perm xs := by
  induction xs using classes_induction same with
  | nil => simp
  | cons a rest ih =>
      rw [classes_cons, List.flatMap_cons]
      refine List.Perm.cons a ?_
      exact (ih.append_left _).trans (List.filter_append_perm (same a) rest)

lemma classes_sublist (h : c ∈ classes same xs) : (members c).Sublist xs := by
  induction xs using classes_induction same with
  | nil => simp at h
  | cons a rest ih =>
      rw [classes_cons, List.mem_cons] at h
      rcases h with rfl | h
      · exact List.filter_sublist.cons_cons a
      · exact ((ih h).trans List.filter_sublist).cons a

lemma heads_sublist : ((classes same xs).map Prod.fst).Sublist xs := by
  induction xs using classes_induction same with
  | nil => simp
  | cons a rest ih =>
      rw [classes_cons]
      exact (ih.trans List.filter_sublist).cons_cons a

lemma same_head (h : c ∈ classes same xs) {b : α} (hb : b ∈ c.2) : same c.1 b = true := by
  induction xs using classes_induction same with
  | nil => simp at h
  | cons a rest ih =>
      rw [classes_cons, List.mem_cons] at h
      rcases h with rfl | h
      · exact List.of_mem_filter hb
      · exact ih h

lemma classes_apart :
    (classes same xs).Pairwise fun c d => ∀ b ∈ members d, same c.1 b = false := by
  induction xs using classes_induction same with
  | nil => simp
  | cons a rest ih =>
      rw [classes_cons]
      refine List.Pairwise.cons ?_ ih
      intro d hd b hb
      have hmem := (classes_sublist hd).subset hb
      simpa using List.of_mem_filter hmem

/-- Classes of renamed elements. -/
lemma classes_map (f : β → α) (ys : List β) :
    classes same (ys.map f) =
      (classes (fun a b => same (f a) (f b)) ys).map fun c => (f c.1, c.2.map f) := by
  induction ys using classes_induction fun a b => same (f a) (f b) with
  | nil => simp
  | cons a rest ih =>
      rw [List.map_cons, classes_cons, classes_cons, List.map_cons, ← ih, List.filter_map,
        List.filter_map]
      rfl

/-! ## Symmetric and transitive relations -/

/-- Two different elements share a class exactly if they are the same. -/
theorem share_class_iff (hsymm : ∀ a b, same a b = true → same b a = true)
    (htrans : ∀ a b c, same a b = true → same b c = true → same a c = true) {a b : α}
    (ha : a ∈ xs) (hb : b ∈ xs) (hne : a ≠ b) :
    (∃ c ∈ classes same xs, a ∈ members c ∧ b ∈ members c) ↔ same a b = true := by
  constructor
  · rintro ⟨c, hc, hac, hbc⟩
    rw [mem_members] at hac hbc
    rcases hac with rfl | hac
    · rcases hbc with rfl | hbc
      · exact absurd rfl hne
      · exact same_head hc hbc
    · have hca := hsymm _ _ (same_head hc hac)
      rcases hbc with rfl | hbc
      · exact hca
      · exact htrans _ _ _ hca (same_head hc hbc)
  · intro hab
    induction xs using classes_induction same with
    | nil => simp at ha
    | cons d rest ih =>
        rw [classes_cons]
        -- Both are in the class of `d` or neither is.
        by_cases hda : same d a = true
        · have hdb := htrans _ _ _ hda hab
          refine ⟨_, List.mem_cons_self, ?_, ?_⟩
          · rcases List.mem_cons.mp ha with rfl | ha
            · simp
            · simp [ha, hda]
          · rcases List.mem_cons.mp hb with rfl | hb
            · simp
            · simp [hb, hdb]
        · have hdb : ¬ same d b = true := fun hdb => hda (htrans _ _ _ hdb (hsymm _ _ hab))
          have ha' : a ∈ rest := by
            rcases List.mem_cons.mp ha with rfl | ha
            · exact absurd hab hdb
            · exact ha
          have hb' : b ∈ rest := by
            rcases List.mem_cons.mp hb with rfl | hb
            · exact absurd (hsymm _ _ hab) hda
            · exact hb
          obtain ⟨c, hc, hmem⟩ := ih (by simp [ha', hda]) (by simp [hb', hdb])
          exact ⟨c, List.mem_cons_of_mem _ hc, hmem⟩

/-! ## One element more -/

/-- Adds an element to the first class whose head is the same as it, or heads a class with it. -/
def joinClass (same : α → α → Bool) (a : α) : List (α × List α) → List (α × List α)
  | [] => [(a, [])]
  | c :: rest =>
      if same c.1 a then (c.1, c.2 ++ [a]) :: rest else c :: joinClass same a rest

lemma classes_concat (a : α) :
    classes same (xs ++ [a]) = joinClass same a (classes same xs) := by
  induction xs using classes_induction same with
  | nil => simp [classes_cons, joinClass]
  | cons b rest ih =>
      rw [List.cons_append, classes_cons, classes_cons, joinClass]
      by_cases h : same b a = true
      · simp [h]
      · simp [h, ih]

end ProfilePipeline.Otlp
