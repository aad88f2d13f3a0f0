import Mathlib.Data.List.Induction
import Mathlib.Tactic.Common
import ProfilePipeline.Proofs.Attribute.Merging
import ProfilePipeline.Proofs.Attribute.Numbers

/-!
# Sets and how they were put together

A set of attributes comes about in one of four ways: it is empty, one more attribute is put into it,
another set is put on top of it, or a list of pairs is collected.  `Assembly` is a way to put a set
together, and `Assembly.insertions` is all that is put in on the way, also into the other sets.

**What is left of the insertions.**  `Attributes.Tracks`: the keys, each where it was first put in,
and the last value of each.  One insertion keeps this (`Tracks.insert`), so many do, and by
induction over the assembly every set has it (`Assembly.tracks`).

**What equality sees.**  Of the order nothing: `Assembly.equality_ignores_order`.
-/

namespace ProfilePipeline

/-- What is repeated in a list that follows another one may be left out of it first. -/
lemma eraseDups_append_eraseDups {α : Type} [BEq α] [LawfulBEq α] (xs ys : List α) :
    (xs ++ ys.eraseDups).eraseDups = (xs ++ ys).eraseDups := by
  induction ys using List.reverseRecOn with
  | nil => rfl
  | append_singleton ys y ih =>
      by_cases hmem : y ∈ ys
      · have hmem' : y ∈ xs ++ ys := List.mem_append_right _ hmem
        rw [eraseDups_concat_of_mem hmem, ih, ← List.append_assoc, eraseDups_concat_of_mem hmem']
      · rw [eraseDups_concat_of_not_mem hmem, ← List.append_assoc, ← List.append_assoc]
        by_cases hmem' : y ∈ xs
        · rw [eraseDups_concat_of_mem (List.mem_append_left _ hmem'), ih,
            eraseDups_concat_of_mem (List.mem_append_left _ hmem')]
        · rw [eraseDups_concat_of_not_mem (by simp [hmem, hmem']), ih,
            eraseDups_concat_of_not_mem (by simp [hmem, hmem'])]

namespace Attributes

variable {a b : Attributes} {history later : Offers}

/-- **What a set has of the attributes that were put into it**: the keys in the order in which they
first were, and the last value of each. -/
structure Tracks (a : Attributes) (history : Offers) : Prop where
  keys : a.keys = (history.map Prod.fst).eraseDups
  value : ∀ key, a.get? key = history.last? key

lemma tracks_empty : empty.Tracks [] := ⟨by simp [Attributes.keys, empty], fun _ => rfl⟩

/-- **One attribute is put in.** -/
theorem Tracks.insert (h : a.Tracks history) (key : String) (value : AttributeValue) :
    (a.insert key value).Tracks (history ++ [(key, value)]) := by
  refine ⟨?_, ?_⟩
  · have hmem : key ∈ a.keys ↔ key ∈ history.map Prod.fst := by rw [h.keys, List.mem_eraseDups]
    rw [keys_insert, List.map_append, List.map_singleton]
    split
    · rename_i hkey
      rw [eraseDups_concat_of_mem (hmem.mp hkey), h.keys]
    · rename_i hkey
      rw [eraseDups_concat_of_not_mem (mt hmem.mpr hkey), h.keys]
  · intro k
    rw [get?_insert, Offers.last?_concat, h.value]

/-- Many are put in, one after the other. -/
theorem Tracks.insertAll (h : a.Tracks history) (pairs : Offers) :
    (a.insertAll pairs).Tracks (history ++ pairs) := by
  induction pairs generalizing a history with
  | nil => simpa [Attributes.insertAll] using h
  | cons pair pairs ih =>
      have hnext := ih (h.insert pair.1 pair.2)
      rwa [List.append_assoc] at hnext

lemma last?_append (key : String) :
    Offers.last? (history ++ later) key = (later.last? key).or (history.last? key) := by
  rw [Offers.last?, List.reverse_append, List.lookup_append, Offers.last?, Offers.last?]

/-- The entries of a set and all that was put into it come to the same. -/
theorem Tracks.extend (ha : a.Tracks history) (hb : b.Tracks later) :
    (a.extend b).Tracks (history ++ later) := by
  have hall : (a.extend b).Tracks (history ++ b.entries) := ha.insertAll b.entries
  refine ⟨?_, ?_⟩
  · rw [hall.keys, List.map_append, List.map_append, ← Attributes.keys, hb.keys,
      eraseDups_append_eraseDups]
  · intro key
    rw [get?_extend, last?_append, ha.value, hb.value]

end Attributes

/-! ## Ways to put a set together -/

/-- **A way to put a set together**: from nothing, by one attribute more, whether in place or on a
set that is handed on, by the attributes of another set, or from a list of pairs. -/
inductive Assembly where
  | new
  | insert (b : Assembly) (key : String) (value : AttributeValue)
  | extend (b other : Assembly)
  | ofList (pairs : List (String × AttributeValue))

namespace Assembly

/-- The set that comes of it. -/
def set : Assembly → Attributes
  | new => .empty
  | insert b key value => b.set.insert key value
  | extend b other => b.set.extend other.set
  | ofList pairs => .ofList pairs

/-- All that is put into the set, or into one that was put into it, in order. -/
def insertions : Assembly → Offers
  | new => []
  | insert b key value => b.insertions ++ [(key, value)]
  | extend b other => b.insertions ++ other.insertions
  | ofList pairs => pairs

/-- **Every set** has the keys in the order in which they were first put in, with the last values,
by induction over its assembly. -/
theorem tracks (b : Assembly) : b.set.Tracks b.insertions := by
  induction b with
  | new => exact Attributes.tracks_empty
  | insert b key value ih => exact ih.insert key value
  | extend b other ih ihother => exact ih.extend ihother
  | ofList pairs => exact Attributes.tracks_empty.insertAll pairs

/-- **Equality ignores the order.**  However sets of attributes are put together, their keys are
distinct, in the order in which they were first put in, with the values that were put in last.  Two
sets are the same exactly if they have the same keys and equal values under each; so it does not
matter which of them is the left one, sets that are the same as a third in between are the same, and
a set is the same as itself exactly if no NaN is in it. -/
theorem equality_ignores_order (p q r : Assembly) :
    let a := p.set
    let b := q.set
    let c := r.set
    (a.keys.Nodup ∧ a.keys = (p.insertions.map Prod.fst).eraseDups ∧
        ∀ key, a.get? key = p.insertions.last? key) ∧
      (a.same b = true ↔
        (∀ key, key ∈ a.keys ↔ key ∈ b.keys) ∧
          ∀ key v w, a.get? key = some v → b.get? key = some w → v.Equal w) ∧
      a.same b = b.same a ∧
      (a.same b = true → b.same c = true → a.same c = true) ∧
      (a.same a = true ↔ a.hasNaN = false) := by
  intro a b c
  refine ⟨⟨a.keys_nodup, p.tracks.keys, p.tracks.value⟩, ?_, ?_, Attributes.same_trans,
    Attributes.same_self_iff⟩
  · simp only [← AttributeValue.same_iff_equal]
    exact Attributes.same_iff
  · rw [Bool.eq_iff_iff]
    exact ⟨Attributes.same_symm, Attributes.same_symm⟩

/-- One set in two orders, with a value that was replaced and zeros of either sign. -/
theorem equality_ignores_order_zeros :
    let p : Assembly := .insert (.insert .new "load" (.double ⟨0⟩)) "name" (.text "a")
    let q : Assembly := .extend (.ofList [("name", .text "b")]) p
    let r : Assembly := .ofList [("name", .text "a"), ("load", .double ⟨0x8000000000000000⟩)]
    q.set.keys = ["name", "load"] ∧
      p.set.same q.set = true ∧ q.set.same r.set = true ∧
      p.set.same r.set = true ∧ r.set.same p.set = true := by
  intro p q r
  obtain ⟨-, -, -, htrans, -⟩ := equality_ignores_order p q r
  obtain ⟨-, -, hsymm, -, -⟩ := equality_ignores_order p r q
  have hpq : p.set.same q.set = true := by decide
  have hqr : q.set.same r.set = true := by decide
  have hpr := htrans hpq hqr
  exact ⟨by decide, hpq, hqr, hpr, hsymm ▸ hpr⟩

end Assembly

end ProfilePipeline
