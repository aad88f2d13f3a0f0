import ProfilePipeline.Proofs.Processing.Exported
import ProfilePipeline.Proofs.Processing.Operations

/-!
# The shutdown of a simple processor

The first shutdown waits for the exports that are pending, then for the exporter to be shut down,
and then resolves the completion it returned.  Each time a callback takes over, so there is always
somebody who goes on (`State.Parting`): one that waits, one on the stack, or the last task itself.

* `Parting.frame`, `Parting.resolve`, `Parting.stale` — what happens keeps it.
* `Parting.leave`, `Parting.conclude` — one callback hands over to the next.
* **`Parting.outcome?_iff`** — where nothing is left to be done, the completion that was returned
  stands as it should.
-/

namespace ProfilePipeline.Processing

open Completion (Token Waiter Ledger Store)

/-- **The first shutdown of a simple processor**: the completion it waits for, the one it returned,
and the exports that were pending. -/
structure Farewell where
  flushed : Token
  done : Token
  members : List Token

namespace Farewell

/-- Who waits for the exports. -/
abbrev next (v : Farewell) (slot : Nat) : Reaction := .shutExporter slot v.flushed v.done

/-- Who waits for the exporter. -/
abbrev last (v : Farewell) : Reaction := .conclude v.flushed v.done

end Farewell

namespace State

variable {s s' : State} {todo todo' rest more : List Task} {t u : Token} {slot : Nat}
  {v : Farewell} {us : List Token} {success : Bool}

/-- What a shutdown comes to, where `us` are the completions of the exporter's shutdown. -/
def Decides (s : State) (v : Farewell) (us : List Token) (success : Bool) : Prop :=
  ∃ flushed left, s.outcome? v.flushed = some flushed ∧ (∃ u ∈ us, s.outcome? u = some left) ∧
    success = (flushed && left)

/-- **A shutdown is under way or over**; `us` are the completions of the exporter's shutdown. -/
structure Parting (slot : Nat) (v : Farewell) (us : List Token) (s : State) (todo : List Task) :
    Prop where
  lt : v.flushed < s.size
  us_lt : ∀ u ∈ us, u < s.size
  /-- The exporter is shut down or going to be. -/
  once : us.length + s.draining.count slot = 1
  flushed : us ≠ [] → s.outcome? v.flushed ≠ none
  waits : ∀ t k, k ∈ s.owners t → k.done? ≠ none →
    t = v.flushed ∧ k = v.next slot ∨ t ∈ us ∧ k = v.last
  called : ∀ k success, .call (.own k) success ∈ todo → k.done? ≠ none →
    s.outcome? v.flushed ≠ none ∧
      (k = v.next slot ∨ k = v.last ∧ ∃ u ∈ us, s.outcome? u = some success)
  decided : ∀ success, .resolve v.done success ∈ todo → s.Decides v us success
  settled : ∀ success, s.outcome? v.done = some success → s.Decides v us success
  /-- Somebody is going to shut the exporter down. -/
  due : slot ∈ s.draining →
    v.next slot ∈ s.owners v.flushed ∨ ∃ success, .call (.own (v.next slot)) success ∈ todo
  /-- Somebody is going to resolve the completion that was returned, or has done so. -/
  left : ∀ u ∈ us, v.last ∈ s.owners u ∨ (∃ success, .call (.own v.last) success ∈ todo) ∨
    (∃ success, .resolve v.done success ∈ todo) ∨ s.outcome? v.done ≠ none

/-- **Nobody asked for a shutdown yet.** -/
structure Unasked (slot : Nat) (us : List Token) (s : State) (todo : List Task) : Prop where
  unleft : us = []
  draining : slot ∉ s.draining
  waits : ∀ t k, k ∈ s.owners t → k.done? = none
  called : ∀ k success, .call (.own k) success ∈ todo → k.done? = none

lemma Decides.mono (h : s.Decides v us success)
    (kept : ∀ t success, s.outcome? t = some success → s'.outcome? t = some success) :
    s'.Decides v us success := by
  obtain ⟨flushed, left, known, ⟨u, mem, known'⟩, same⟩ := h
  exact ⟨flushed, left, kept _ _ known, ⟨u, mem, kept _ _ known'⟩, same⟩

/-- Only what is there has an outcome. -/
lemma lt_of_outcome? (known : s.outcome? t ≠ none) : t < s.size := by
  by_contra ge
  exact known (Store.outcome?_of_size_le (Nat.le_of_not_lt ge))

lemma Spares.kept {about : Reaction → Prop} (h : Spares about s todo s' todo') (t : Token)
    (success : Bool) (known : s.outcome? t = some success) : s'.outcome? t = some success :=
  (h.outcome? t (lt_of_outcome? (by simp [known]))).trans known

namespace Unasked

/-- What is not about callbacks of shutdowns. -/
lemma frame (h : Unasked slot us s todo) (spares : Spares (·.done? ≠ none) s todo s' todo')
    (draining : s'.draining = s.draining) : Unasked slot us s' todo' where
  unleft := h.unleft
  draining := draining ▸ h.draining
  waits t k mem := by
    by_contra about
    exact about (h.waits t k ((spares.owners t k about).mp mem))
  called k success mem := by
    by_contra about
    exact about (h.called k success ((spares.todo k success about).mp mem))

/-- A completion gets its outcome, and its callbacks are to be called. -/
lemma resolve (h : Unasked slot us s (.resolve t success :: rest)) :
    Unasked slot us (s.resolved t success)
      ((s.exports.ledger.store.waiting t).map (.call · success) ++ rest) where
  unleft := h.unleft
  draining := h.draining
  waits u k mem := h.waits u k (mem_owners_resolved.mp mem).2
  called k b mem := by
    rcases List.mem_append.mp mem with mem | mem
    · exact h.waits t k (mem_called.mp mem).2
    · exact h.called k b (List.mem_cons_of_mem _ mem)

/-- **The first shutdown begins**: somebody waits for the exports, or is called at once. -/
lemma shutdown (h : Unasked slot us s []) {l : Ledger Reaction}
    (owners : ∀ t, l.owners t = s.owners t) (lt : v.flushed < l.store.size)
    (done : l.outcome? v.done = none)
    (ledger : s'.exports.ledger = (l.register v.flushed (.own (v.next slot))).1)
    (drained : s'.draining = slot :: s.draining) :
    Parting slot v us s' (Task.calls (.own (v.next slot)) (l.outcome? v.flushed)) := by
  obtain ⟨size', outcome', owners'⟩ := view_register ledger
  simp only [owners, lt, true_and] at owners'
  obtain rfl := h.unleft
  have called {k : Reaction} {b : Bool}
      (mem : .call (.own k) b ∈ Task.calls (.own (v.next slot)) (l.outcome? v.flushed)) :
      k = v.next slot ∧ l.outcome? v.flushed = some b := by
    obtain ⟨b', known, same⟩ := Task.mem_calls.mp mem
    obtain ⟨same, rfl⟩ := Task.call.inj same
    cases same
    exact ⟨rfl, known⟩
  have unresolved {b : Bool} :
      .resolve v.done b ∉ Task.calls (.own (v.next slot)) (l.outcome? v.flushed) := by
    intro mem
    obtain ⟨_, -, same⟩ := Task.mem_calls.mp mem
    cases same
  refine ⟨size' ▸ lt, by simp, ?_, by simp, ?_, ?_, ?_, ?_, ?_, by simp⟩
  · rw [drained, List.count_cons_self, List.count_eq_zero.mpr h.draining]
    rfl
  · intro t k mem about
    rcases (owners' t k).mp mem with mem | ⟨rfl, -, rfl⟩
    · exact absurd (h.waits t k mem) about
    · exact .inl ⟨rfl, rfl⟩
  · intro k b mem about
    obtain ⟨next, known⟩ := called mem
    exact ⟨by simp [outcome', known], .inl next⟩
  · exact fun b mem => absurd mem unresolved
  · intro b known
    rw [outcome', done] at known
    cases known
  · intro _
    rw [owners']
    cases known : l.outcome? v.flushed with
    | none => exact .inl (.inr ⟨rfl, rfl, rfl⟩)
    | some b => exact .inr ⟨b, by simp [Task.calls]⟩

end Unasked

namespace Parting

/-- What is not about callbacks of shutdowns. -/
lemma frame (h : Parting slot v us s todo) (spares : Spares (·.done? ≠ none) s todo s' todo')
    (draining : s'.draining = s.draining) (done : v.done < s.size)
    (resolves : ∀ success, .resolve v.done success ∈ todo' ↔ .resolve v.done success ∈ todo) :
    Parting slot v us s' todo' where
  lt := Nat.lt_of_lt_of_le h.lt spares.size
  us_lt u mem := Nat.lt_of_lt_of_le (h.us_lt u mem) spares.size
  once := draining ▸ h.once
  flushed some := by
    rw [spares.outcome? _ h.lt]
    exact h.flushed some
  waits t k mem about := h.waits t k ((spares.owners t k about).mp mem) about
  called k success mem about := by
    obtain ⟨known, called⟩ := h.called k success ((spares.todo k success about).mp mem) about
    rw [spares.outcome? _ h.lt]
    refine ⟨known, called.imp_right (And.imp_right ?_)⟩
    rintro ⟨u, mem, known⟩
    exact ⟨u, mem, spares.kept u success known⟩
  decided success mem := (h.decided success ((resolves success).mp mem)).mono spares.kept
  settled success known := by
    rw [spares.outcome? _ done] at known
    exact (h.settled success known).mono spares.kept
  due mem := by
    rw [draining] at mem
    refine (h.due mem).imp ?_ ?_
    · exact (spares.owners _ _ (by simp [Reaction.done?])).mpr
    · exact Exists.imp fun b => (spares.todo _ b (by simp [Reaction.done?])).mpr
  left u mem := by
    rw [spares.outcome? _ done]
    refine (h.left u mem).imp ?_ (Or.imp ?_ (Or.imp_left ?_))
    · exact (spares.owners _ _ (by simp [Reaction.done?])).mpr
    · exact Exists.imp fun b => (spares.todo _ b (by simp [Reaction.done?])).mpr
    · exact Exists.imp fun b => (resolves b).mpr

/-- A completion that is given an outcome again keeps it. -/
lemma stale (h : Parting slot v us s (.resolve t success :: rest)) (done : v.done < s.size)
    (stale : s.outcome? t ≠ none ∨ s.size ≤ t) : Parting slot v us s rest :=
  { h with
    called := fun k b mem => h.called k b (List.mem_cons_of_mem _ mem)
    decided := fun b mem => h.decided b (List.mem_cons_of_mem _ mem)
    due := fun mem => (h.due mem).imp_right <| Exists.imp fun b =>
      List.mem_of_ne_of_mem (by simp)
    left := fun u mem => by
      rcases h.left u mem with waits | ⟨b, called⟩ | ⟨b, resolves⟩ | known
      · exact .inl waits
      · exact .inr (.inl ⟨b, List.mem_of_ne_of_mem (by simp) called⟩)
      · rcases List.mem_cons.mp resolves with same | resolves
        · obtain ⟨rfl, -⟩ := Task.resolve.inj same
          exact .inr (.inr (.inr (stale.resolve_right (Nat.not_le.mpr done))))
        · exact .inr (.inr (.inl ⟨b, resolves⟩))
      · exact .inr (.inr (.inr known)) }

/-- **A completion gets its outcome**, and its callbacks are to be called. -/
lemma resolve (h : Parting slot v us s (.resolve t success :: rest))
    (pending : s.outcome? t = none) (lt : t < s.size) :
    Parting slot v us (s.resolved t success)
      ((s.exports.ledger.store.waiting t).map (.call · success) ++ rest) := by
  have size := s.size_resolved t success
  have outcome {u : Token} : (s.resolved t success).outcome? u =
      if u = t then some success else s.outcome? u := outcome?_resolved pending lt
  have kept (u : Token) (b : Bool) (known : s.outcome? u = some b) :
      (s.resolved t success).outcome? u = some b := by
    rw [outcome, if_neg, known]
    rintro rfl
    exact absurd (known.symm.trans pending) (by simp)
  have known {u : Token} (known : s.outcome? u ≠ none) :
      (s.resolved t success).outcome? u ≠ none := by
    obtain ⟨b, known⟩ := Option.ne_none_iff_exists'.mp known
    simp [kept u b known]
  -- A callback that waited for the completion is called now, any other still waits.
  have waits {u : Token} {k : Reaction} (mem : k ∈ s.owners u) :
      k ∈ (s.resolved t success).owners u ∨ ∃ b, .call (.own k) b ∈
        (s.exports.ledger.store.waiting t).map (Task.call · success) ++ rest := by
    by_cases here : u = t
    · subst here
      exact .inr ⟨success, List.mem_append_left _ (mem_called.mpr ⟨rfl, mem⟩)⟩
    · exact .inl (mem_owners_resolved.mpr ⟨here, mem⟩)
  have later {task : Task} (other : task ≠ .resolve t success)
      (mem : task ∈ Task.resolve t success :: rest) :
      task ∈ (s.exports.ledger.store.waiting t).map (Task.call · success) ++ rest :=
    List.mem_append_right _ (List.mem_of_ne_of_mem other mem)
  refine ⟨size ▸ h.lt, fun u mem => size ▸ h.us_lt u mem, h.once,
    fun some => known (h.flushed some), ?_, ?_, ?_, ?_, ?_, ?_⟩
  · exact fun u k mem about => h.waits u k (mem_owners_resolved.mp mem).2 about
  · intro k b mem about
    rcases List.mem_append.mp mem with mem | mem
    · obtain ⟨rfl, waited⟩ := mem_called.mp mem
      have here : (s.resolved t b).outcome? t = some b := outcome.trans (if_pos rfl)
      rcases h.waits t k waited about with ⟨rfl, next⟩ | ⟨mem, last⟩
      · exact ⟨by simp [here], .inl next⟩
      · exact ⟨known (h.flushed (List.ne_nil_of_mem mem)), .inr ⟨last, t, mem, here⟩⟩
    · obtain ⟨flushed, called⟩ := h.called k b (List.mem_cons_of_mem _ mem) about
      refine ⟨known flushed, called.imp_right (And.imp_right ?_)⟩
      rintro ⟨u, mem, known⟩
      exact ⟨u, mem, kept u b known⟩
  · intro b mem
    rcases List.mem_append.mp mem with mem | mem
    · simp at mem
    · exact (h.decided b (List.mem_cons_of_mem _ mem)).mono kept
  · intro b known
    rw [outcome] at known
    split at known
    · rename_i here
      obtain rfl : success = b := Option.some.inj known
      exact (h.decided success (here ▸ List.mem_cons_self)).mono kept
    · exact (h.settled b known).mono kept
  · intro mem
    rcases h.due mem with mem | ⟨b, called⟩
    · exact waits mem
    · exact .inr ⟨b, later (by simp) called⟩
  · intro u mem
    rcases h.left u mem with mem | ⟨b, called⟩ | ⟨b, resolves⟩ | known'
    · exact (waits mem).imp_right .inl
    · exact .inr (.inl ⟨b, later (by simp) called⟩)
    · rcases List.mem_cons.mp resolves with same | resolves
      · obtain ⟨rfl, -⟩ := Task.resolve.inj same
        exact .inr (.inr (.inr (by simp [outcome])))
      · exact .inr (.inr (.inl ⟨b, List.mem_append_right _ resolves⟩))
    · exact .inr (.inr (.inr (known known')))

/-- Whoever waited for the exports shuts the exporter down once. -/
lemma idle (h : Parting slot v us s (.call (.own (v.next slot)) success :: rest))
    (ended : slot ∉ s.draining) : Parting slot v us s rest :=
  { h with
    called := fun k b mem => h.called k b (List.mem_cons_of_mem _ mem)
    decided := fun b mem => h.decided b (List.mem_cons_of_mem _ mem)
    due := fun mem => absurd mem ended
    left := fun u mem => (h.left u mem).imp_right <| Or.imp
      (Exists.imp fun b => List.mem_of_ne_of_mem (by simp))
      (Or.imp_left (Exists.imp fun b => List.mem_of_ne_of_mem (by simp))) }

/-- As long as somebody is going to shut the exporter down, nobody has. -/
lemma unleft (h : Parting slot v us s todo) (due : slot ∈ s.draining) : us = [] := by
  have once := h.once
  have counted := List.count_pos_iff.mpr due
  exact List.eq_nil_of_length_eq_zero (by omega)

/-- **The exporter is shut down**, and somebody waits for that. -/
lemma leave (h : Parting slot v us s (.call (.own (v.next slot)) success :: rest))
    (due : slot ∈ s.draining) (done : v.done < s.size) {l : Ledger Reaction} (adds : s.Adds l)
    (lt : u < l.store.size)
    (ledger : s'.exports.ledger = (l.register u (.own v.last)).1)
    (drained : s'.draining = s.draining.erase slot) :
    Parting slot v [u] s' (Task.calls (.own v.last) (l.outcome? u) ++ rest) := by
  obtain ⟨size', outcome', owners'⟩ := view_register ledger
  simp only [adds.owners, lt, true_and] at owners'
  obtain rfl := h.unleft due
  have once := h.once
  have kept (t : Token) (b : Bool) (known : s.outcome? t = some b) : s'.outcome? t = some b := by
    rw [outcome', adds.outcome? t (lt_of_outcome? (by simp [known])), known]
  obtain ⟨flushed, -⟩ := h.called _ _ List.mem_cons_self (by simp [Reaction.done?])
  have flushed' : s'.outcome? v.flushed ≠ none := by
    rwa [outcome', adds.outcome? _ h.lt]
  have undecided (b : Bool) : ¬ s.Decides v [] b := by
    rintro ⟨_, _, _, ⟨_, mem, _⟩, _⟩
    exact absurd mem List.not_mem_nil
  refine ⟨?_, ?_, ?_, fun _ => flushed', ?_, ?_, ?_, ?_, ?_, ?_⟩
  · exact size' ▸ Nat.lt_of_lt_of_le h.lt adds.size
  · intro t mem
    rw [List.mem_singleton.mp mem]
    exact size' ▸ lt
  · rw [drained, List.count_erase_self, List.length_singleton]
    rw [List.length_nil] at once
    omega
  · intro t k mem about
    rcases (owners' t k).mp mem with mem | ⟨rfl, -, rfl⟩
    · rcases h.waits t k mem about with next | ⟨mem, -⟩
      · exact .inl next
      · exact absurd mem List.not_mem_nil
    · exact .inr ⟨List.mem_cons_self, rfl⟩
  · intro k b mem about
    refine ⟨flushed', ?_⟩
    rcases List.mem_append.mp mem with mem | mem
    · obtain ⟨b', known, same⟩ := Task.mem_calls.mp mem
      obtain ⟨same, rfl⟩ := Task.call.inj same
      cases same
      exact .inr ⟨rfl, u, List.mem_cons_self, (outcome' u).trans known⟩
    · rcases (h.called k b (List.mem_cons_of_mem _ mem) about).2 with next | ⟨-, u, mem, -⟩
      · exact .inl next
      · exact absurd mem List.not_mem_nil
  · intro b mem
    rcases List.mem_append.mp mem with mem | mem
    · obtain ⟨_, -, same⟩ := Task.mem_calls.mp mem
      cases same
    · exact absurd (h.decided b (List.mem_cons_of_mem _ mem)) (undecided b)
  · intro b known
    rw [outcome', adds.outcome? _ done] at known
    exact absurd (h.settled b known) (undecided b)
  · intro mem
    rw [drained, ← List.count_pos_iff, List.count_erase_self] at mem
    omega
  · intro t mem
    rw [List.mem_singleton.mp mem, owners']
    cases known : l.outcome? u with
    | none => exact .inl (.inr ⟨rfl, rfl, rfl⟩)
    | some b => exact .inr (.inl ⟨b, by simp [Task.calls]⟩)

/-- **Whoever waited for the exporter** has the completion resolved that was returned. -/
lemma conclude (h : Parting slot v us s (.call (.own v.last) success :: rest)) :
    Parting slot v us s
      (.resolve v.done (s.exports.ledger.isSuccess v.flushed && success) :: rest) := by
  obtain ⟨known, called⟩ := h.called _ _ List.mem_cons_self (by simp [Reaction.done?])
  obtain ⟨-, u, mem, left⟩ := called.resolve_left (by simp)
  obtain ⟨flushed, known⟩ := Option.ne_none_iff_exists'.mp known
  have decides : s.Decides v us (s.exports.ledger.isSuccess v.flushed && success) :=
    ⟨flushed, success, known, ⟨u, mem, left⟩, by
      rw [Ledger.isSuccess, Store.isSuccess_of_outcome? known]⟩
  have later {task : Task} (other : task ≠ .call (.own v.last) success)
      (mem : task ∈ Task.call (.own v.last) success :: rest) :
      task ∈ Task.resolve v.done (s.exports.ledger.isSuccess v.flushed && success) :: rest :=
    List.mem_cons_of_mem _ (List.mem_of_ne_of_mem other mem)
  exact { h with
    called := fun k b mem => h.called k b
      (List.mem_cons_of_mem _ (List.mem_of_ne_of_mem (by simp) mem))
    decided := fun b mem => by
      rcases List.mem_cons.mp mem with same | mem
      · obtain ⟨-, rfl⟩ := Task.resolve.inj same
        exact decides
      · exact h.decided b (List.mem_cons_of_mem _ mem)
    due := fun mem => (h.due mem).imp_right (Exists.imp fun b => later (by simp))
    left := fun u mem => by
      rcases h.left u mem with waits | called | ⟨b, resolves⟩ | ended
      · exact .inl waits
      · exact .inr (.inr (.inl ⟨_, List.mem_cons_self⟩))
      · exact .inr (.inr (.inl ⟨b, later (by simp) resolves⟩))
      · exact .inr (.inr (.inr ended)) }

/-- **Where nothing is left to be done**, the completion that was returned stands as it should. -/
theorem outcome?_iff (h : Parting slot v us s []) :
    s.outcome? v.done = some success ↔ s.Decides v us success := by
  refine ⟨h.settled success, fun decides => ?_⟩
  obtain ⟨flushed, left, known, ⟨u, mem, known'⟩, rfl⟩ := decides
  have ended : s.outcome? v.done ≠ none := by
    rcases h.left u mem with waits | ⟨b, called⟩ | ⟨b, resolves⟩ | ended
    · rw [pending_of_mem_owners waits] at known'
      exact absurd known' (by simp)
    · exact absurd called List.not_mem_nil
    · exact absurd resolves List.not_mem_nil
    · exact ended
  obtain ⟨success, ended⟩ := Option.ne_none_iff_exists'.mp ended
  obtain ⟨flushed', left', same, ⟨u', mem', same'⟩, rfl⟩ := h.settled success ended
  -- The exporter was shut down once.
  have one : u' = u := by
    have once := h.once
    obtain ⟨x, rfl⟩ := List.length_eq_one_iff.mp
      (show us.length = 1 from by have := List.length_pos_of_mem mem; omega)
    rw [List.mem_singleton.mp mem, List.mem_singleton.mp mem']
  obtain rfl := Option.some.inj (same.symm.trans known)
  obtain rfl := Option.some.inj (same'.symm.trans (one ▸ known'))
  exact ended

/-- The exporter is shut down once those exports are over. -/
lemma left_iff (h : Parting slot v us s []) : us ≠ [] ↔ s.outcome? v.flushed ≠ none := by
  refine ⟨h.flushed, ?_⟩
  rintro known rfl
  have once := h.once
  rw [List.length_nil, Nat.zero_add] at once
  rcases h.due (List.count_pos_iff.mp (by omega)) with waits | ⟨b, called⟩
  · exact known (pending_of_mem_owners waits)
  · exact absurd called List.not_mem_nil

end Parting

/-! ## Before the shutdown, or after -/

/-- **Where the shutdown of a simple processor stands.** -/
def Stage (slot : Nat) (farewell : Option Farewell) (us : List Token) (s : State)
    (todo : List Task) : Prop :=
  match farewell with
  | none => Unasked slot us s todo
  | some v => Parting slot v us s todo

namespace Stage

variable {farewell : Option Farewell}

lemma of_parting (h : Parting slot v us s todo) (asked : farewell = some v) :
    Stage slot farewell us s todo := by
  subst asked
  exact h

lemma parting (h : Stage slot farewell us s todo) (asked : farewell = some v) :
    Parting slot v us s todo := by
  subst asked
  exact h

lemma unasked (h : Stage slot farewell us s todo) (unasked : farewell = none) :
    Unasked slot us s todo := by
  subst unasked
  exact h

/-- A callback of a shutdown is called. -/
lemma of_called (h : Stage slot farewell us s todo) {k : Reaction}
    (called : .call (.own k) success ∈ todo) (about : k.done? ≠ none) :
    ∃ v, farewell = some v ∧ Parting slot v us s todo ∧
      (k = v.next slot ∨ k = v.last ∧ ∃ u ∈ us, s.outcome? u = some success) := by
  cases farewell with
  | none => exact absurd (Unasked.called h k success called) about
  | some v => exact ⟨v, rfl, h, (Parting.called h k success called about).2⟩

/-- What is not about callbacks of shutdowns. -/
lemma frame (h : Stage slot farewell us s todo) (spares : Spares (·.done? ≠ none) s todo s' todo')
    (draining : s'.draining = s.draining) (done : ∀ v ∈ farewell, v.done < s.size)
    (resolves : ∀ v ∈ farewell, ∀ success,
      .resolve v.done success ∈ todo' ↔ .resolve v.done success ∈ todo) :
    Stage slot farewell us s' todo' := by
  cases farewell with
  | none => exact Unasked.frame h spares draining
  | some v => exact Parting.frame h spares draining (done v rfl) (resolves v rfl)

/-- A completion gets its outcome, and its callbacks are to be called. -/
lemma resolve (h : Stage slot farewell us s (.resolve t success :: rest))
    (pending : s.outcome? t = none) (lt : t < s.size) :
    Stage slot farewell us (s.resolved t success)
      ((s.exports.ledger.store.waiting t).map (.call · success) ++ rest) := by
  cases farewell with
  | none => exact Unasked.resolve h
  | some v => exact Parting.resolve h pending lt

/-- A completion that is given an outcome again keeps it. -/
lemma stale (h : Stage slot farewell us s (.resolve t success :: rest))
    (done : ∀ v ∈ farewell, v.done < s.size) (stale : s.outcome? t ≠ none ∨ s.size ≤ t) :
    Stage slot farewell us s rest := by
  cases farewell with
  | none => exact Unasked.frame h (.of_store rfl (by simp)) rfl
  | some v => exact Parting.stale h (done v rfl) stale

end Stage

end State

end ProfilePipeline.Processing
