import ProfilePipeline.Proofs.Processing.Watch

/-!
# The exports of a simple processor

A simple processor numbers the exports that return a completion, and keeps those that are not over.
Each of them has a callback that takes it away again, and which may stand on the stack already when
the export is over.  `State.Exported` is what holds of all this at any time.

* `State.Spares` — something happens that is not about callbacks of a kind.
* `State.Adds` — nothing happens but that completions are made.
* `Exported.frame`, `Exported.resolve`, `Exported.forget`, `Exported.begin` — what happens keeps it.
* **`Exported.pending_eq`** — where nothing is left to be done, those are pending that have no
  outcome.
-/

namespace ProfilePipeline.Processing

open Completion (Token Waiter Ledger Store)

namespace State

variable {s s' : State} {todo todo' rest : List Task} {t : Token} {slot : Nat}
  {p p' : SimpleProcessor} {ts : List Token}

/-! ## What is not about callbacks of a kind -/

/-- The own callbacks that wait for a completion. -/
abbrev owners (s : State) (t : Token) : List Reaction := s.exports.ledger.owners t

/-- **What happens spares callbacks of a kind**: it leaves them and all outcomes where they are. -/
structure Spares (about : Reaction → Prop) (s : State) (todo : List Task) (s' : State)
    (todo' : List Task) : Prop where
  size : s.size ≤ s'.size
  outcome? : ∀ t < s.size, s'.outcome? t = s.outcome? t
  owners : ∀ t k, about k → (k ∈ s'.owners t ↔ k ∈ s.owners t)
  todo : ∀ k success, about k →
    (.call (.own k) success ∈ todo' ↔ .call (.own k) success ∈ todo)

/-- Where no completion is touched, only the stack matters. -/
lemma Spares.of_store {about : Reaction → Prop}
    (store : s'.exports.ledger.store = s.exports.ledger.store)
    (todo_iff : ∀ k success, about k →
      (.call (.own k) success ∈ todo' ↔ .call (.own k) success ∈ todo)) :
    Spares about s todo s' todo' where
  size := Nat.le_of_eq (by rw [State.size, State.size, store])
  outcome? t _ := by rw [State.outcome?, State.outcome?, Ledger.outcome?, Ledger.outcome?, store]
  owners t k _ := by rw [State.owners, State.owners, Ledger.owners, Ledger.owners, store]
  todo := todo_iff

/-- A callback of another kind leaves the stack. -/
lemma Spares.of_call {about : Reaction → Prop} {k : Reaction} {success : Bool} (made : List Task)
    (other : ¬ about k) (store : s'.exports.ledger.store = s.exports.ledger.store)
    (own : ∀ k success, .call (.own k) success ∉ made) :
    Spares about s (.call (.own k) success :: rest) s' (made ++ rest) := by
  refine .of_store store fun k' success' about' => ?_
  have apart : k' ≠ k := by
    rintro rfl
    exact other about'
  simp [own, apart]

/-- A completion that has somebody waiting for it has no outcome. -/
lemma pending_of_mem_owners {k : Reaction} (h : k ∈ s.owners t) : s.outcome? t = none := by
  rw [Ledger.mem_owners, Store.mem_waiting] at h
  exact h.outcome?

/-- A completion is given its outcome. -/
abbrev resolved (s : State) (t : Token) (success : Bool) : State :=
  s.withLedger { s.exports.ledger with store := (s.exports.ledger.store.resolve t success).1 }

section

variable {success b : Bool} {u : Token} {k : Reaction}

lemma size_resolved (s : State) (t : Token) (success : Bool) :
    (s.resolved t success).size = s.size :=
  Store.size_resolve ..

lemma outcome?_resolved (pending : s.outcome? t = none) (lt : t < s.size) :
    (s.resolved t success).outcome? u = if u = t then some success else s.outcome? u := by
  have pending : s.exports.ledger.store.outcome? t = none := pending
  exact (Store.outcome?_resolve ..).trans (by simp [lt, pending, State.outcome?, Ledger.outcome?])

lemma mem_owners_resolved : k ∈ (s.resolved t success).owners u ↔ u ≠ t ∧ k ∈ s.owners u := by
  rw [Ledger.mem_owners, Ledger.mem_owners, Store.mem_waiting, Store.mem_waiting]
  exact Store.waitsAt_resolve_iff

lemma mem_called : .call (.own k) b ∈ (s.exports.ledger.store.waiting t).map (Task.call · success) ↔
    b = success ∧ k ∈ s.owners t := by
  rw [Ledger.mem_owners, List.mem_map]
  constructor
  · rintro ⟨w, mem, same⟩
    obtain ⟨rfl, rfl⟩ := Task.call.inj same
    exact ⟨rfl, mem⟩
  · rintro ⟨rfl, mem⟩
    exact ⟨_, mem, rfl⟩

end

/-- A callback is registered, and waits unless it has to be called at once. -/
lemma view_register {l : Ledger Reaction} {new : Reaction}
    (ledger : s'.exports.ledger = (l.register t (.own new)).1) :
    s'.size = l.store.size ∧ (∀ u, s'.outcome? u = l.outcome? u) ∧
      ∀ u k, k ∈ s'.owners u ↔
        k ∈ l.owners u ∨ u = t ∧ (t < l.store.size ∧ l.outcome? t = none) ∧ k = new := by
  rw [State.size, ledger]
  refine ⟨Store.size_register .., fun u => ?_, fun u k => ?_⟩
  · rw [State.outcome?, ledger]
    exact Store.outcome?_register ..
  · rw [owners, ledger]
    exact Ledger.mem_owners_register

/-- **A ledger has new completions**, for which no callback of a processor waits. -/
structure Adds (s : State) (l : Ledger Reaction) : Prop where
  size : s.size ≤ l.store.size
  outcome? : ∀ t < s.size, l.outcome? t = s.outcome? t
  owners : ∀ t, l.owners t = s.owners t

lemma Adds.of_exports {exports : Export.State Reaction} (grows : s.exports.Grows exports) :
    s.Adds exports.ledger := ⟨grows.ledger.size, grows.ledger.outcome?, grows.owners⟩

lemma Spares.of_adds (about : Reaction → Prop) (adds : s.Adds s'.exports.ledger) :
    Spares about s [] s' [] where
  size := adds.size
  outcome? := adds.outcome?
  owners t k _ := by rw [State.owners, adds.owners]
  todo _ _ _ := Iff.rfl

/-- A callback of another kind is registered. -/
lemma Spares.of_register {about : Reaction → Prop} {l : Ledger Reaction} {new : Reaction}
    (adds : s.Adds l) (ledger : s'.exports.ledger = (l.register t (.own new)).1)
    (other : ¬ about new) (todo_iff : ∀ k success, about k →
      (.call (.own k) success ∈ todo' ↔ .call (.own k) success ∈ todo)) :
    Spares about s todo s' todo' := by
  obtain ⟨size, outcome, owners⟩ := view_register ledger
  refine ⟨size ▸ adds.size, fun u lt => (outcome u).trans (adds.outcome? u lt), ?_, todo_iff⟩
  intro u k about'
  rw [owners, adds.owners]
  refine or_iff_left ?_
  rintro ⟨-, -, rfl⟩
  exact other about'

/-! ## Numbered exports -/

/-- Exports with their numbers. -/
def numbered (ts : List Token) : List (Nat × Token) := ts.zipIdx.map Prod.swap

lemma mem_numbered {e : Nat × Token} : e ∈ numbered ts ↔ ts[e.1]? = some e.2 := by
  rw [numbered, List.mem_map]
  constructor
  · rintro ⟨x, mem, rfl⟩
    exact List.mem_zipIdx_iff_getElem?.mp mem
  · intro found
    exact ⟨e.swap, List.mem_zipIdx_iff_getElem?.mpr found, e.swap_swap⟩

lemma map_snd_numbered (ts : List Token) : (numbered ts).map Prod.snd = ts := by
  rw [numbered, List.map_map]
  exact List.zipIdx_map_fst 0 ts

lemma nodup_map_fst_numbered (ts : List Token) : ((numbered ts).map Prod.fst).Nodup := by
  have numbers : (numbered ts).map Prod.fst = List.range' 0 ts.length := by
    rw [numbered, List.map_map]
    exact List.zipIdx_map_snd 0 ts
  rw [numbers]
  exact List.nodup_range'

lemma numbered_concat (ts : List Token) (t : Token) :
    numbered (ts ++ [t]) = numbered ts ++ [(ts.length, t)] := by
  simp [numbered, List.zipIdx_append]

/-- **The exports of a simple processor** are `ts` so far, by number. -/
structure Exported (slot : Nat) (p : SimpleProcessor) (ts : List Token) (s : State)
    (todo : List Task) : Prop where
  found : s.simples[slot]? = some p
  next : p.nextId = ts.length
  lt : ∀ t ∈ ts, t < s.size
  /-- Exports are kept in order, and once each. -/
  kept : p.pending = (numbered ts).filter (· ∈ p.pending)
  /-- An export without an outcome is pending, and its callback waits. -/
  live : ∀ e ∈ numbered ts, s.outcome? e.2 = none →
    e ∈ p.pending ∧ .forget slot e.1 ∈ s.owners e.2
  /-- One with an outcome is pending only until its callback is called. -/
  due : ∀ e ∈ p.pending, s.outcome? e.2 ≠ none →
    ∃ success, .call (.own (.forget slot e.1)) success ∈ todo
  waits : ∀ t k, k ∈ s.owners t → k.done? = none → ∃ id, k = .forget slot id ∧ (id, t) ∈ numbered ts
  called : ∀ k success, .call (.own k) success ∈ todo → k.done? = none →
    ∃ e ∈ numbered ts, k = .forget slot e.1 ∧ s.outcome? e.2 ≠ none

namespace Exported

lemma mem_numbered_of_mem (h : Exported slot p ts s todo) {e : Nat × Token} (mem : e ∈ p.pending) :
    e ∈ numbered ts := by
  rw [h.kept] at mem
  exact (List.mem_filter.mp mem).1

lemma lt_of_mem (h : Exported slot p ts s todo) {e : Nat × Token} (mem : e ∈ numbered ts) :
    e.2 < s.size := h.lt _ (List.mem_of_getElem? (mem_numbered.mp mem))

/-- What is not about callbacks of exports. -/
lemma frame (h : Exported slot p ts s todo) (spares : Spares (·.done? = none) s todo s' todo')
    (found : s'.simples[slot]? = some p') (pending : p'.pending = p.pending)
    (next : p'.nextId = p.nextId) : Exported slot p' ts s' todo' where
  found := found
  next := next.trans h.next
  lt t mem := Nat.lt_of_lt_of_le (h.lt t mem) spares.size
  kept := pending ▸ h.kept
  live e mem unresolved := by
    rw [spares.outcome? _ (h.lt_of_mem mem)] at unresolved
    obtain ⟨kept, waits⟩ := h.live e mem unresolved
    exact ⟨pending ▸ kept, (spares.owners _ _ rfl).mpr waits⟩
  due e mem known := by
    rw [pending] at mem
    rw [spares.outcome? _ (h.lt_of_mem (h.mem_numbered_of_mem mem))] at known
    obtain ⟨success, due⟩ := h.due e mem known
    exact ⟨success, (spares.todo _ _ rfl).mpr due⟩
  waits t k mem about := h.waits t k ((spares.owners t k about).mp mem) about
  called k success mem about := by
    obtain ⟨e, mem, same, known⟩ := h.called k success ((spares.todo k success about).mp mem) about
    exact ⟨e, mem, same, by rwa [spares.outcome? _ (h.lt_of_mem mem)]⟩

/-- **A completion gets its outcome**, and its callbacks are to be called. -/
lemma resolve {success : Bool} (h : Exported slot p ts s (.resolve t success :: rest))
    (pending : s.outcome? t = none) (lt : t < s.size) :
    Exported slot p ts (s.resolved t success)
      ((s.exports.ledger.store.waiting t).map (.call · success) ++ rest) where
  found := h.found
  next := h.next
  lt u mem := Nat.lt_of_lt_of_eq (h.lt u mem) (s.size_resolved t success).symm
  kept := h.kept
  live e mem unresolved := by
    rw [outcome?_resolved pending lt] at unresolved
    split at unresolved
    · cases unresolved
    · rename_i apart
      obtain ⟨kept, waits⟩ := h.live e mem unresolved
      exact ⟨kept, mem_owners_resolved.mpr ⟨apart, waits⟩⟩
  due e mem known := by
    rw [outcome?_resolved pending lt] at known
    split at known
    · rename_i here
      obtain ⟨-, waits⟩ := h.live e (h.mem_numbered_of_mem mem) (here ▸ pending)
      exact ⟨success, List.mem_append_left _ (mem_called.mpr ⟨rfl, here ▸ waits⟩)⟩
    · obtain ⟨b, due⟩ := h.due e mem known
      exact ⟨b, List.mem_append_right _ (List.mem_of_ne_of_mem (by simp) due)⟩
  waits u k mem about := h.waits u k (mem_owners_resolved.mp mem).2 about
  called k b mem about := by
    rcases List.mem_append.mp mem with mem | mem
    · obtain ⟨id, same, mem⟩ := h.waits t k (mem_called.mp mem).2 about
      exact ⟨_, mem, same, by simp [outcome?_resolved pending lt]⟩
    · obtain ⟨e, mem, same, known⟩ := h.called k b (List.mem_cons_of_mem _ mem) about
      refine ⟨e, mem, same, ?_⟩
      rw [outcome?_resolved pending lt]
      split
      · simp
      · exact known

/-- **An export that is over is taken away.** -/
lemma forget {id : Nat} {success : Bool}
    (h : Exported slot p ts s (.call (.own (.forget slot id)) success :: rest)) :
    Exported slot { p with pending := p.pending.filter (·.1 != id) } ts
      (s.modifySimple slot fun p => { p with pending := p.pending.filter (·.1 != id) }) rest where
  found := by simp [modifySimple, Array.getElem?_modify, h.found]
  next := h.next
  lt := h.lt
  kept := by
    have kept := congrArg (List.filter (·.1 != id)) h.kept
    rw [List.filter_filter] at kept
    refine kept.trans (List.filter_congr fun e _ => ?_)
    rw [Bool.eq_iff_iff]
    simp [and_comm]
  live e mem unresolved := by
    obtain ⟨kept, waits⟩ := h.live e mem unresolved
    refine ⟨List.mem_filter.mpr ⟨kept, ?_⟩, waits⟩
    obtain ⟨e', mem', same, known⟩ := h.called _ _ List.mem_cons_self rfl
    obtain ⟨-, rfl⟩ := Reaction.forget.inj same
    rw [bne_iff_ne]
    intro number
    rw [mem_numbered, number] at mem
    rw [mem_numbered, mem] at mem'
    exact known (Option.some.inj mem' ▸ unresolved)
  due e mem known := by
    obtain ⟨mem, apart⟩ := List.mem_filter.mp mem
    obtain ⟨b, due⟩ := h.due e mem known
    refine ⟨b, List.mem_of_ne_of_mem ?_ due⟩
    rintro ⟨⟩
    simp at apart
  waits := h.waits
  called k b mem := h.called k b (List.mem_cons_of_mem _ mem)

/-- **One more export is started**: it is pending, unless it is over already. -/
lemma begin (h : Exported slot p ts s []) {l : Ledger Reaction} (adds : s.Adds l)
    (le : s.size ≤ t) (lt : t < l.store.size)
    (ledger : s'.exports.ledger = (l.register t (.own (.forget slot p.nextId))).1)
    (found : s'.simples[slot]? = some p') (next : p'.nextId = p.nextId + 1)
    (pending : p'.pending = p.pending ++ if l.outcome? t = none then [(p.nextId, t)] else []) :
    Exported slot p' (ts ++ [t]) s' [] := by
  rw [h.next] at next pending ledger
  have fresh : (ts.length, t) ∉ numbered ts := by simp [mem_numbered]
  obtain ⟨size', outcome', owners'⟩ := view_register ledger
  simp only [adds.owners, lt, true_and] at owners'
  have apart {e : Nat × Token} (mem : e ∈ numbered ts) : e.2 ≠ t :=
    Nat.ne_of_lt (Nat.lt_of_lt_of_le (h.lt_of_mem mem) le)
  have old {e : Nat × Token} (mem : e ∈ numbered ts) : e ∈ p'.pending ↔ e ∈ p.pending := by
    have other : e ≠ (ts.length, t) := fun same => fresh (same ▸ mem)
    rw [pending, List.mem_append, or_iff_left]
    split <;> simp [other]
  refine ⟨found, by simp [next], ?_, ?_, ?_, ?_, ?_, by simp⟩
  · intro u mem
    rw [size']
    rcases List.mem_append.mp mem with mem | mem
    · exact Nat.lt_of_lt_of_le (h.lt u mem) adds.size
    · rwa [List.mem_singleton.mp mem]
  · have kept : (numbered ts).filter (· ∈ p'.pending) = p.pending :=
      (List.filter_congr fun e mem => by rw [decide_eq_decide, old mem]).trans h.kept.symm
    have new : (ts.length, t) ∉ p.pending := fun mem => fresh (h.mem_numbered_of_mem mem)
    rw [numbered_concat, List.filter_append, kept, pending]
    split <;> simp [new]
  · intro e mem unresolved
    rw [outcome'] at unresolved
    rw [numbered_concat] at mem
    rw [owners']
    rcases List.mem_append.mp mem with mem | mem
    · have unresolved := (adds.outcome? _ (h.lt_of_mem mem)).symm.trans unresolved
      obtain ⟨kept, waits⟩ := h.live e mem unresolved
      exact ⟨(old mem).mpr kept, .inl waits⟩
    · obtain rfl := List.mem_singleton.mp mem
      simp [pending, unresolved]
  · intro e mem known
    rw [outcome'] at known
    rw [pending] at mem
    rcases List.mem_append.mp mem with mem | mem
    · have there := h.lt_of_mem (h.mem_numbered_of_mem mem)
      exact h.due e mem (adds.outcome? _ there ▸ known)
    · split at mem
      · obtain rfl := List.mem_singleton.mp mem
        exact absurd ‹_› known
      · exact absurd mem List.not_mem_nil
  · intro u k mem about
    rw [numbered_concat]
    rcases (owners' u k).mp mem with mem | ⟨rfl, -, rfl⟩
    · obtain ⟨id, same, mem⟩ := h.waits u k mem about
      exact ⟨id, same, List.mem_append_left _ mem⟩
    · exact ⟨_, rfl, List.mem_append_right _ List.mem_cons_self⟩

/-- **Where nothing is left to be done**, those exports are pending that have no outcome. -/
theorem pending_eq (h : Exported slot p ts s []) :
    p.pending.map Prod.snd = ts.filter fun t => (s.outcome? t).isNone := by
  have pending : p.pending = (numbered ts).filter fun e => (s.outcome? e.2).isNone := by
    refine h.kept.trans (List.filter_congr fun e mem => ?_)
    rw [Bool.eq_iff_iff, decide_eq_true_iff, Option.isNone_iff_eq_none]
    constructor
    · intro kept
      by_contra known
      obtain ⟨_, due⟩ := h.due e kept known
      exact absurd due List.not_mem_nil
    · exact fun unresolved => (h.live e mem unresolved).1
  rw [pending]
  conv_rhs => rw [← map_snd_numbered ts, List.filter_map]
  rfl

/-- No number is used twice. -/
lemma nodup (h : Exported slot p ts s todo) : (p.pending.map Prod.fst).Nodup := by
  rw [h.kept]
  exact (nodup_map_fst_numbered ts).sublist (List.filter_sublist.map _)

end Exported

end State

end ProfilePipeline.Processing
