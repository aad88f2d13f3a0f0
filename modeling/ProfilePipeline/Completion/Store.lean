/-!
# Completions

A completion is the outcome of something that may still be going on: pending until it is resolved,
once, as a success or a failure.  Whoever wants to know registers a callback.  All completions live
in a store and are referred to by tokens, so two holders of a token share the completion.

Each function here is one critical section.  None of them runs a callback: `Store.resolve` and
`Store.register` hand back what has to be called, because callbacks run outside of the lock.

* `Store.outcome?` — the view through which the operations are described.
* `outcome?_resolve`, `outcome?_register` — only a pending completion changes, and only by being
  resolved.
* `weight_resolve`, `weight_register` — callbacks are moved, never lost or copied.
-/

namespace ProfilePipeline.Completion

/-- A completion, by its place in the store. -/
abbrev Token := Nat

/-- What the elements of a list weigh together. -/
def weigh {α : Type} (w : α → Nat) : List α → Nat
  | [] => 0
  | x :: xs => w x + weigh w xs

@[simp] theorem weigh_nil {α : Type} (w : α → Nat) : weigh w [] = 0 := rfl

@[simp] theorem weigh_cons {α : Type} (w : α → Nat) (x : α) (xs : List α) :
    weigh w (x :: xs) = w x + weigh w xs := rfl

@[simp] theorem weigh_append {α : Type} (w : α → Nat) (xs ys : List α) :
    weigh w (xs ++ ys) = weigh w xs + weigh w ys := by
  induction xs with
  | nil => simp
  | cons x xs ih => simp only [List.cons_append, weigh_cons, ih]; omega

@[simp] theorem weigh_reverse {α : Type} (w : α → Nat) (xs : List α) :
    weigh w xs.reverse = weigh w xs := by
  induction xs with
  | nil => rfl
  | cons x xs ih => simp only [List.reverse_cons, weigh_append, weigh_cons, weigh_nil, ih]; omega

@[simp] theorem weigh_map {α β : Type} (w : β → Nat) (f : α → β) (xs : List α) :
    weigh w (xs.map f) = weigh (w ∘ f) xs := by
  induction xs with
  | nil => rfl
  | cons x xs ih => simp [ih]

/-- A completion in words, by its outcome. -/
def describe (outcome : Option Bool) : String :=
  let shown := match outcome with
    | none => "None"
    | some true => "Some(true)"
    | some false => "Some(false)"
  "Completion \x7b outcome: " ++ shown ++ " \x7d"

/-- One completion, with callbacks of type `κ` waiting for it, newest first. -/
inductive Cell (κ : Type) where
  | pending (newest : List κ)
  | resolved (success : Bool)

namespace Cell

variable {κ : Type}

/-- The outcome, once there is one. -/
def outcome? : Cell κ → Option Bool
  | pending _ => none
  | resolved success => some success

/-- The callbacks that have not been called, in the order in which they were registered. -/
def waiting : Cell κ → List κ
  | pending newest => newest.reverse
  | resolved _ => []

/-- One for a completion without an outcome. -/
def lack : Cell κ → Nat
  | pending _ => 1
  | resolved _ => 0

/-- What the waiting callbacks weigh together. -/
def weight (w : κ → Nat) (c : Cell κ) : Nat := Completion.weigh w c.waiting

@[simp] theorem weight_pending (w : κ → Nat) (newest : List κ) :
    (pending newest).weight w = Completion.weigh w newest := by
  simp [weight, waiting]

@[simp] theorem weight_resolved (w : κ → Nat) (success : Bool) :
    (resolved success : Cell κ).weight w = 0 := rfl

end Cell

/-- All completions, in the order in which they came into being. -/
structure Store (κ : Type) where
  cells : Array (Cell κ) := #[]

namespace Store

variable {κ : Type}

instance : Inhabited (Store κ) := ⟨{}⟩

/-- The number of completions. -/
def size (s : Store κ) : Nat := s.cells.size

/-- The outcome of a completion, once there is one. -/
def outcome? (s : Store κ) (t : Token) : Option Bool := (s.cells[t]?).bind Cell.outcome?

/-- Whether a completion has been resolved as a success. -/
def isSuccess (s : Store κ) (t : Token) : Bool := s.outcome? t == some true

/-- A new pending completion. -/
def fresh (s : Store κ) : Store κ × Token := (⟨s.cells.push (.pending [])⟩, s.size)

/-- A new completion that already has its outcome. -/
def settled (s : Store κ) (success : Bool) : Store κ × Token :=
  (⟨s.cells.push (.resolved success)⟩, s.size)

/-- Gives a pending completion its outcome and hands out the callbacks that waited for it, oldest
first.  A completion that has an outcome keeps it. -/
def resolve (s : Store κ) (t : Token) (success : Bool) : Store κ × List κ :=
  match s.cells[t]? with
  | some (.pending newest) => (⟨s.cells.setIfInBounds t (.resolved success)⟩, newest.reverse)
  | _ => (s, [])

/-- Registers a callback.  An outcome in the answer means that the callback was not kept, and that
the caller has to call it now. -/
def register (s : Store κ) (t : Token) (callback : κ) : Store κ × Option Bool :=
  match s.cells[t]? with
  | some (.pending newest) =>
    (⟨s.cells.setIfInBounds t (.pending (callback :: newest))⟩, none)
  | some (.resolved success) => (s, some success)
  | none => (s, none)

/-! ## Operations through the view -/

theorem outcome?_fresh (s : Store κ) (t : Token) : s.fresh.1.outcome? t = s.outcome? t := by
  simp only [outcome?, fresh, Array.getElem?_push]
  split
  · subst_vars; simp [Cell.outcome?]
  · rfl

theorem outcome?_settled (s : Store κ) (success : Bool) (t : Token) :
    (s.settled success).1.outcome? t = if t = s.size then some success else s.outcome? t := by
  unfold outcome? settled size
  rw [Array.getElem?_push]
  by_cases h : t = s.cells.size
  · rw [if_pos h, if_pos h]; rfl
  · rw [if_neg h, if_neg h]

/-- **Resolving gives an outcome to the completion it is about, if that one was pending**, and
changes no other. -/
theorem outcome?_resolve (s : Store κ) (t : Token) (success : Bool) (u : Token) :
    (s.resolve t success).1.outcome? u =
      if u = t ∧ t < s.size ∧ s.outcome? t = none then some success else s.outcome? u := by
  unfold resolve
  split
  · rename_i newest h
    obtain ⟨hlt, hc⟩ := Array.getElem?_eq_some_iff.1 h
    by_cases hu : u = t
    · subst hu
      simp [outcome?, size, hlt, hc, Cell.outcome?]
    · have : ¬ t = u := fun e => hu e.symm
      simp [outcome?, hu, this]
  · rename_i h
    rw [if_neg]
    rintro ⟨-, hlt, hnone⟩
    have hget : s.cells[t]? = some s.cells[t] := Array.getElem?_eq_getElem hlt
    rw [outcome?, hget] at hnone
    rcases hc : s.cells[t] with newest | success
    · exact h newest (hget.trans (congrArg some hc))
    · simp [hc, Cell.outcome?] at hnone

/-- Registering changes no outcome. -/
theorem outcome?_register (s : Store κ) (t : Token) (callback : κ) (u : Token) :
    (s.register t callback).1.outcome? u = s.outcome? u := by
  unfold register
  split
  · rename_i newest h
    obtain ⟨hlt, hc⟩ := Array.getElem?_eq_some_iff.1 h
    by_cases hu : u = t
    · subst hu
      simp [outcome?, hlt, hc, Cell.outcome?]
    · have : ¬ t = u := fun e => hu e.symm
      simp [outcome?, this]
  · rfl
  · rfl

/-! ## The callbacks in the store -/

/-- What all cells weigh together. -/
def total (f : Cell κ → Nat) (s : Store κ) : Nat := weigh f s.cells.toList

/-- What all waiting callbacks weigh together. -/
def weight (w : κ → Nat) (s : Store κ) : Nat := s.total (Cell.weight w)

/-- The number of completions without an outcome. -/
def pendingCount (s : Store κ) : Nat := s.total Cell.lack

/-- What a list weighs in which one entry is replaced. -/
theorem weigh_set {α : Type} (w : α → Nat) (l : List α) (i : Nat) (v : α) (h : i < l.length) :
    weigh w (l.set i v) + w l[i] = weigh w l + w v := by
  induction l generalizing i with
  | nil => simp at h
  | cons a l ih =>
    cases i with
    | zero => simp only [List.set_cons_zero, weigh_cons, List.getElem_cons_zero]; omega
    | succ i =>
      have := ih i (by simpa using h)
      simp only [List.set_cons_succ, weigh_cons, List.getElem_cons_succ]
      omega

/-- A total after one cell is replaced. -/
theorem total_replace (f : Cell κ → Nat) (s : Store κ) (t : Token) (c : Cell κ) {old : Cell κ}
    (h : s.cells[t]? = some old) :
    total f ⟨s.cells.setIfInBounds t c⟩ + f old = s.total f + f c := by
  obtain ⟨hlt, hold⟩ := Array.getElem?_eq_some_iff.1 h
  have key := weigh_set f s.cells.toList t c (by simpa using hlt)
  simp only [Array.getElem_toList, hold] at key
  simp only [total, Array.toList_setIfInBounds]
  exact key

theorem weight_fresh (w : κ → Nat) (s : Store κ) : s.fresh.1.weight w = s.weight w := by
  simp [weight, total, fresh]

theorem weight_settled (w : κ → Nat) (s : Store κ) (success : Bool) :
    (s.settled success).1.weight w = s.weight w := by
  simp [weight, total, settled]

/-- **Resolving moves the waiting callbacks out of the store.** -/
theorem weight_resolve (w : κ → Nat) (s : Store κ) (t : Token) (success : Bool) :
    (s.resolve t success).1.weight w + weigh w (s.resolve t success).2 = s.weight w := by
  unfold resolve
  split
  · rename_i newest h
    have := total_replace (Cell.weight w) s t (.resolved success) h
    simpa [weight] using this
  · simp

/-- A callback that is registered is either kept in the store or handed back to be called. -/
theorem weight_register (w : κ → Nat) (s : Store κ) (t : Token) (callback : κ) :
    (s.register t callback).1.weight w ≤ s.weight w + w callback ∧
      ((s.register t callback).2 ≠ none → (s.register t callback).1 = s) := by
  unfold register
  split
  · rename_i newest h
    have := total_replace (Cell.weight w) s t (.pending (callback :: newest)) h
    simp only [Cell.weight_pending, weigh_cons] at this
    exact ⟨by dsimp only [weight]; omega, by simp⟩
  · exact ⟨Nat.le_add_right _ _, fun _ => rfl⟩
  · exact ⟨Nat.le_add_right _ _, by simp⟩

/-- Resolving leaves fewer completions without an outcome, or does nothing. -/
theorem pendingCount_resolve (s : Store κ) (t : Token) (success : Bool) :
    (s.resolve t success).1.pendingCount < s.pendingCount ∨ s.resolve t success = (s, []) := by
  unfold resolve
  split
  · rename_i newest h
    have := total_replace Cell.lack s t (.resolved success) h
    simp only [Cell.lack] at this
    exact .inl (by simp only [pendingCount]; omega)
  · exact .inr rfl

end Store

end ProfilePipeline.Completion
