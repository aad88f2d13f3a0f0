import Mathlib.Tactic.Common
import ProfilePipeline.Completion.Store

/-!
# Who waits in a store

Which callbacks wait in a store of completions, and how many completions there are, after each of
its operations.  An operation never makes up a callback: what waits or is handed out afterwards was
waiting before, for the same completion, or is the one that was registered.  Nor does it lose one
(`Store.weight_register_eq`), or change the order of those that wait for a completion
(`Store.waiting_register`, `Store.resolve_snd`).
-/

namespace ProfilePipeline.Completion

/-- Only something that is there has a weight. -/
lemma exists_pos_of_weigh_pos {α : Type} {w : α → Nat} {xs : List α} (h : 0 < weigh w xs) :
    ∃ x ∈ xs, 0 < w x := by
  induction xs with
  | nil => exact absurd h (by simp)
  | cons x xs ih =>
      by_cases hx : 0 < w x
      · exact ⟨x, List.mem_cons_self, hx⟩
      · rw [weigh_cons] at h
        obtain ⟨y, hy, hpos⟩ := ih (by omega)
        exact ⟨y, List.mem_cons_of_mem _ hy, hpos⟩

lemma weigh_eq_zero_iff {α : Type} {w : α → Nat} {xs : List α} :
    weigh w xs = 0 ↔ ∀ x ∈ xs, w x = 0 := by
  induction xs with
  | nil => simp
  | cons x xs ih => rw [weigh_cons, Nat.add_eq_zero_iff, ih, List.forall_mem_cons]

lemma le_weigh_of_mem {α : Type} {w : α → Nat} {xs : List α} {x : α} (h : x ∈ xs) :
    w x ≤ weigh w xs := by
  induction xs with
  | nil => cases h
  | cons y xs ih =>
      rw [weigh_cons]
      rcases List.mem_cons.mp h with rfl | h
      · omega
      · have := ih h
        omega

lemma weigh_congr {α : Type} {w w' : α → Nat} {xs : List α} (h : ∀ x ∈ xs, w x = w' x) :
    weigh w xs = weigh w' xs := by
  induction xs with
  | nil => rfl
  | cons x xs ih =>
      obtain ⟨first, rest⟩ := List.forall_mem_cons.mp h
      rw [weigh_cons, weigh_cons, first, ih rest]

lemma weigh_add {α : Type} (w w' : α → Nat) (xs : List α) :
    weigh (fun x => w x + w' x) xs = weigh w xs + weigh w' xs := by
  induction xs with
  | nil => rfl
  | cons x xs ih =>
      rw [weigh_cons, weigh_cons, weigh_cons, ih]
      omega

lemma weigh_flatMap {α β : Type} (w : β → Nat) (f : α → List β) (xs : List α) :
    weigh w (xs.flatMap f) = weigh (fun x => weigh w (f x)) xs := by
  induction xs with
  | nil => rfl
  | cons x xs ih => rw [List.flatMap_cons, weigh_append, weigh_cons, ih]

lemma weigh_perm {α : Type} (w : α → Nat) {xs ys : List α} (h : xs.Perm ys) :
    weigh w xs = weigh w ys := by
  induction h with
  | nil => rfl
  | cons x _ ih => simp [ih]
  | swap x y zs =>
      simp only [weigh_cons]
      omega
  | trans _ _ ih ih' => exact ih.trans ih'

namespace Store

variable {κ : Type}

/-- A callback waits for some completion of the store. -/
def Waits (s : Store κ) (k : κ) : Prop :=
  ∃ (t : Token) (cell : Cell κ), s.cells[t]? = some cell ∧ k ∈ cell.waiting

/-! ## How many completions -/

@[simp] lemma size_fresh (s : Store κ) : s.fresh.1.size = s.size + 1 := by
  simp [fresh, size]

@[simp] lemma size_settled (s : Store κ) (success : Bool) :
    (s.settled success).1.size = s.size + 1 := by
  simp [settled, size]

@[simp] lemma size_resolve (s : Store κ) (t : Token) (success : Bool) :
    (s.resolve t success).1.size = s.size := by
  rw [resolve]
  split
  · simp [size]
  · rfl

@[simp] lemma size_register (s : Store κ) (t : Token) (k : κ) :
    (s.register t k).1.size = s.size := by
  rw [register]
  split
  · simp [size]
  · rfl
  · rfl

lemma outcome?_of_size_le {s : Store κ} {t : Token} (h : s.size ≤ t) : s.outcome? t = none := by
  rw [outcome?, Array.getElem?_eq_none h]
  rfl

lemma isSuccess_of_outcome? {s : Store κ} {t : Token} {success : Bool}
    (h : s.outcome? t = some success) : s.isSuccess t = success := by
  rw [isSuccess, h]
  cases success <;> rfl

/-! ## Who waits -/

/-- A callback waits for a completion. -/
def WaitsAt (s : Store κ) (t : Token) (k : κ) : Prop :=
  ∃ cell : Cell κ, s.cells[t]? = some cell ∧ k ∈ cell.waiting

/-- Only a pending completion has somebody waiting. -/
lemma WaitsAt.outcome? {s : Store κ} {t : Token} {k : κ} (h : s.WaitsAt t k) :
    s.outcome? t = none := by
  obtain ⟨cell, hcell, hk⟩ := h
  rw [Store.outcome?, hcell]
  cases cell with
  | pending => rfl
  | resolved => cases hk

/-- What waited is called with the outcome. -/
lemma WaitsAt.outcome?_resolve {s : Store κ} {t : Token} {k : κ} (h : s.WaitsAt t k)
    (success : Bool) : (s.resolve t success).1.outcome? t = some success := by
  have pending := h.outcome?
  obtain ⟨cell, hcell, -⟩ := h
  obtain ⟨lt, -⟩ := Array.getElem?_eq_some_iff.mp hcell
  rw [Store.outcome?_resolve, if_pos ⟨rfl, lt, pending⟩]

/-- What is not kept is called with the outcome that there is. -/
lemma outcome?_of_register {s : Store κ} {t : Token} {k : κ} {success : Bool}
    (h : (s.register t k).2 = some success) : s.outcome? t = some success := by
  rw [register] at h
  rw [Store.outcome?]
  split at h
  · cases h
  · rename_i found hcell
    obtain rfl : found = success := Option.some.inj h
    rw [hcell]
    rfl
  · cases h

lemma waitsAt_push {s : Store κ} {cell : Cell κ} {t : Token} {k : κ}
    (h : WaitsAt ⟨s.cells.push cell⟩ t k) : s.WaitsAt t k ∨ k ∈ cell.waiting := by
  obtain ⟨found, hfound, hk⟩ := h
  simp only [Array.getElem?_push] at hfound
  split at hfound
  · obtain rfl : cell = found := Option.some.inj hfound
    exact .inr hk
  · exact .inl ⟨found, hfound, hk⟩

lemma waitsAt_set {s : Store κ} {u t : Token} {cell : Cell κ} {k : κ}
    (h : WaitsAt ⟨s.cells.setIfInBounds u cell⟩ t k) :
    s.WaitsAt t k ∨ t = u ∧ k ∈ cell.waiting := by
  obtain ⟨found, hfound, hk⟩ := h
  simp only [Array.getElem?_setIfInBounds] at hfound
  split at hfound
  · rename_i here
    split at hfound
    · obtain rfl : cell = found := Option.some.inj hfound
      exact .inr ⟨here.symm, hk⟩
    · cases hfound
  · exact .inl ⟨found, hfound, hk⟩

lemma waitsAt_fresh {s : Store κ} {t : Token} {k : κ} (h : s.fresh.1.WaitsAt t k) :
    s.WaitsAt t k := by
  rcases waitsAt_push h with h | h
  · exact h
  · exact absurd h (by simp [Cell.waiting])

lemma waitsAt_settled {s : Store κ} {success : Bool} {t : Token} {k : κ}
    (h : (s.settled success).1.WaitsAt t k) : s.WaitsAt t k := by
  rcases waitsAt_push h with h | h
  · exact h
  · exact absurd h (by simp [Cell.waiting])

lemma waitsAt_resolve {s : Store κ} {u t : Token} {success : Bool} {k : κ}
    (h : (s.resolve u success).1.WaitsAt t k) : s.WaitsAt t k := by
  rw [resolve] at h
  split at h
  · rcases waitsAt_set h with h | ⟨-, h⟩
    · exact h
    · exact absurd h (by simp [Cell.waiting])
  · exact h

/-- What resolving hands out was waiting for that completion. -/
lemma waitsAt_of_mem_resolve {s : Store κ} {t : Token} {success : Bool} {k : κ}
    (h : k ∈ (s.resolve t success).2) : s.WaitsAt t k := by
  rw [resolve] at h
  split at h
  · rename_i newest hcell
    exact ⟨.pending newest, hcell, h⟩
  · exact absurd h (by simp)

/-- What waits after a registration was waiting before, or is the new one in its place. -/
lemma waitsAt_register {s : Store κ} {u t : Token} {new k : κ}
    (h : (s.register u new).1.WaitsAt t k) : s.WaitsAt t k ∨ t = u ∧ k = new := by
  rw [register] at h
  split at h
  · rename_i newest hcell
    rcases waitsAt_set h with before | ⟨rfl, hk⟩
    · exact .inl before
    · rw [Cell.waiting, List.mem_reverse, List.mem_cons] at hk
      rcases hk with rfl | hk
      · exact .inr ⟨rfl, rfl⟩
      · exact .inl ⟨.pending newest, hcell, List.mem_reverse.mpr hk⟩
  · exact .inl h
  · exact .inl h

lemma waits_fresh {s : Store κ} {k : κ} (h : s.fresh.1.Waits k) : s.Waits k := by
  obtain ⟨t, h⟩ := h
  exact ⟨t, waitsAt_fresh h⟩

lemma waits_settled {s : Store κ} {success : Bool} {k : κ} (h : (s.settled success).1.Waits k) :
    s.Waits k := by
  obtain ⟨t, h⟩ := h
  exact ⟨t, waitsAt_settled h⟩

lemma waits_resolve {s : Store κ} {t : Token} {success : Bool} {k : κ}
    (h : (s.resolve t success).1.Waits k) : s.Waits k := by
  obtain ⟨u, h⟩ := h
  exact ⟨u, waitsAt_resolve h⟩

/-- What resolving hands out was waiting. -/
lemma waits_of_mem_resolve {s : Store κ} {t : Token} {success : Bool} {k : κ}
    (h : k ∈ (s.resolve t success).2) : s.Waits k := ⟨t, waitsAt_of_mem_resolve h⟩

/-- What waits after a registration was waiting before, or is the new one. -/
lemma waits_register {s : Store κ} {t : Token} {new k : κ}
    (h : (s.register t new).1.Waits k) : s.Waits k ∨ k = new := by
  obtain ⟨u, h⟩ := h
  rcases waitsAt_register h with h | ⟨-, rfl⟩
  · exact .inl ⟨u, h⟩
  · exact .inr rfl

/-! ## What waits, in order -/

/-- What waits for a completion, in the order in which it was registered. -/
def waiting (s : Store κ) (t : Token) : List κ := (s.cells[t]?).elim [] Cell.waiting

lemma waiting_of_size_le {s : Store κ} {t : Token} (h : s.size ≤ t) : s.waiting t = [] := by
  rw [waiting, Array.getElem?_eq_none h]
  rfl

lemma waiting_of_outcome? {s : Store κ} {t : Token} {success : Bool}
    (h : s.outcome? t = some success) : s.waiting t = [] := by
  rw [outcome?] at h
  rw [waiting]
  cases hc : s.cells[t]? with
  | none => rfl
  | some cell =>
      cases cell with
      | pending newest => simp [hc, Cell.outcome?] at h
      | resolved => rfl

lemma mem_waiting {s : Store κ} {t : Token} {k : κ} : k ∈ s.waiting t ↔ s.WaitsAt t k := by
  rw [waiting, WaitsAt]
  cases s.cells[t]? <;> simp

lemma waiting_push (s : Store κ) (cell : Cell κ) (none : cell.waiting = []) (t : Token) :
    waiting ⟨s.cells.push cell⟩ t = s.waiting t := by
  rw [waiting, waiting]
  simp only [Array.getElem?_push]
  split
  · subst_vars
    simp [none]
  · rfl

lemma waiting_fresh (s : Store κ) (t : Token) : s.fresh.1.waiting t = s.waiting t :=
  waiting_push s _ rfl t

lemma waiting_settled (s : Store κ) (success : Bool) (t : Token) :
    (s.settled success).1.waiting t = s.waiting t := waiting_push s _ rfl t

/-- **Resolving hands out what waited**, in order. -/
lemma resolve_snd (s : Store κ) (t : Token) (success : Bool) :
    (s.resolve t success).2 = s.waiting t := by
  rw [resolve, waiting]
  split
  · rename_i newest hcell
    rw [hcell]
    rfl
  · rename_i h
    cases hc : s.cells[t]? with
    | none => rfl
    | some cell =>
        cases cell with
        | pending newest => exact absurd hc (h newest)
        | resolved => rfl

lemma waiting_resolve (s : Store κ) (t : Token) (success : Bool) (u : Token) :
    (s.resolve t success).1.waiting u = if u = t then [] else s.waiting u := by
  have handed := s.resolve_snd t success
  rw [resolve] at handed ⊢
  split at handed
  · rename_i newest hcell
    obtain ⟨lt, -⟩ := Array.getElem?_eq_some_iff.mp hcell
    by_cases hu : u = t
    · subst hu
      simp [waiting, lt, Cell.waiting]
    · have : ¬ t = u := fun e => hu e.symm
      simp [waiting, hu, this]
  · split
    · rename_i hu
      rw [hu]
      exact handed.symm
    · rfl

lemma waitsAt_resolve_iff {s : Store κ} {t u : Token} {success : Bool} {k : κ} :
    (s.resolve t success).1.WaitsAt u k ↔ u ≠ t ∧ s.WaitsAt u k := by
  rw [← mem_waiting, ← mem_waiting, waiting_resolve]
  split <;> simp [*]

/-- A completion that has an outcome keeps it. -/
lemma resolve_of_outcome? {s : Store κ} {t : Token} {found : Bool} (success : Bool)
    (h : s.outcome? t = some found) : s.resolve t success = (s, []) := by
  rw [outcome?] at h
  rw [resolve]
  split
  · rename_i newest hcell
    simp [hcell, Cell.outcome?] at h
  · rfl

/-- Nothing happens to a completion that does not exist. -/
lemma resolve_of_size_le {s : Store κ} {t : Token} (success : Bool) (h : s.size ≤ t) :
    s.resolve t success = (s, []) := by
  rw [resolve, Array.getElem?_eq_none h]

/-- A callback that is registered on a pending completion waits after all the others. -/
lemma waiting_register {s : Store κ} {t : Token} (k : κ) (lt : t < s.size)
    (pending : s.outcome? t = none) (u : Token) :
    (s.register t k).1.waiting u = if u = t then s.waiting t ++ [k] else s.waiting u := by
  obtain ⟨newest, hcell⟩ : ∃ newest, s.cells[t]? = some (.pending newest) := by
    have hcell : s.cells[t]? = some s.cells[t] := Array.getElem?_eq_getElem lt
    rw [outcome?, hcell] at pending
    cases hc : s.cells[t] with
    | pending newest => exact ⟨newest, hcell.trans (congrArg some hc)⟩
    | resolved => simp [hc, Cell.outcome?] at pending
  have waited : s.waiting t = newest.reverse := by
    rw [waiting, hcell]
    rfl
  have lt : t < s.cells.size := lt
  rw [register, hcell, waited]
  by_cases hu : u = t
  · subst hu
    simp [waiting, lt, Cell.waiting]
  · have : ¬ t = u := fun e => hu e.symm
    simp [waiting, hu, this]

lemma waitsAt_register_iff {s : Store κ} {t u : Token} {k new : κ} (lt : t < s.size)
    (pending : s.outcome? t = none) :
    (s.register t new).1.WaitsAt u k ↔ s.WaitsAt u k ∨ u = t ∧ k = new := by
  rw [← mem_waiting, ← mem_waiting, waiting_register new lt pending]
  split
  · subst_vars
    simp
  · simp [*]

/-- It is not called yet. -/
lemma register_snd {s : Store κ} {t : Token} (k : κ) (pending : s.outcome? t = none) :
    (s.register t k).2 = none := by
  cases h : (s.register t k).2 with
  | none => rfl
  | some success => exact absurd (outcome?_of_register h) (by simp [pending])

/-- Nothing is registered on a completion that does not exist. -/
lemma register_of_size_le {s : Store κ} {t : Token} (k : κ) (h : s.size ≤ t) :
    s.register t k = (s, none) := by
  rw [register, Array.getElem?_eq_none h]

/-- A callback that is registered on a resolved completion has to be called with its outcome. -/
lemma register_of_outcome? {s : Store κ} {t : Token} {success : Bool} (k : κ)
    (h : s.outcome? t = some success) : s.register t k = (s, some success) := by
  rw [outcome?] at h
  rw [register]
  cases hc : s.cells[t]? with
  | none => simp [hc] at h
  | some cell =>
      cases cell with
      | pending newest => simp [hc, Cell.outcome?] at h
      | resolved found =>
          obtain rfl : found = success := by simpa [hc, Cell.outcome?] using h
          rfl

/-! ## What waits, by weight -/

/-- **A registration neither loses nor copies a callback**: it waits now, or has to be called at
once. -/
theorem weight_register_eq (w : κ → Nat) {s : Store κ} {t : Token} (k : κ) (h : t < s.size) :
    (s.register t k).1.weight w + (if (s.register t k).2 = none then 0 else w k) =
      s.weight w + w k := by
  have hcell : s.cells[t]? = some s.cells[t] := Array.getElem?_eq_getElem h
  rw [register, hcell]
  cases hc : s.cells[t] with
  | pending newest =>
      have moved := total_replace (Cell.weight w) s t (.pending (k :: newest))
        (hcell.trans (congrArg some hc))
      simp only [Cell.weight_pending, weigh_cons] at moved
      simp only [weight, ↓reduceIte]
      omega
  | resolved success => simp

/-- Where something has a weight, it waits somewhere. -/
lemma exists_waitsAt_of_weight_pos {w : κ → Nat} {s : Store κ} (h : 0 < s.weight w) :
    ∃ t k, s.WaitsAt t k ∧ 0 < w k := by
  obtain ⟨cell, hmem, hpos⟩ := exists_pos_of_weigh_pos h
  obtain ⟨k, hk, hpos⟩ := exists_pos_of_weigh_pos hpos
  obtain ⟨t, hlt, ht⟩ := List.getElem_of_mem hmem
  refine ⟨t, k, ⟨cell, ?_, hk⟩, hpos⟩
  rw [Array.getElem?_eq_some_iff]
  exact ⟨by simpa using hlt, by simpa using ht⟩

lemma weight_le_of_waitsAt {w : κ → Nat} {s : Store κ} {t : Token} {k : κ} (h : s.WaitsAt t k) :
    w k ≤ s.weight w := by
  obtain ⟨cell, hcell, hk⟩ := h
  obtain ⟨hlt, hget⟩ := Array.getElem?_eq_some_iff.mp hcell
  have hmem : cell ∈ s.cells.toList := by
    rw [← hget]
    exact Array.getElem_mem_toList hlt
  calc w k ≤ cell.weight w := le_weigh_of_mem hk
    _ ≤ s.weight w := le_weigh_of_mem hmem

end Store

end ProfilePipeline.Completion
