import ProfilePipeline.Processing.State

/-!
# What a resolved completion sets off

When a completion is resolved, its callbacks run on the stack of whoever resolved it, depth first.
They may resolve further completions, and one kind of them shuts an exporter down.  If that panics,
the panic unwinds through all of it, and callbacks that have not run yet are lost.

* `State.step` — one task.
* `State.run` — a stack of tasks.  It ends: a simple processor shuts its exporter down once, a
  completion is resolved once, and everything else only gets smaller.
-/

namespace ProfilePipeline.Processing

open Completion (Token Waiter weigh)

/-- Something to be done at once. -/
inductive Task where
  | resolve (t : Token) (success : Bool)
  | call (w : Waiter Reaction) (success : Bool)

/-- How many tasks follow from one before a completion is resolved. -/
def Task.weight : Task → Nat
  | resolve _ _ => 1
  | call _ _ => 2

/-- How many tasks follow from a stack of them before a completion is resolved. -/
def stackWeight (tasks : List Task) : Nat := weigh Task.weight tasks

namespace State

/-- Shuts the exporter of a simple processor down, and waits for the completion it returns. -/
def shutExporter (s : State) (slot : Nat) (flushed done : Token) : State × Option (List Task) :=
  match s.simples[slot]? with
  | none => (s, some [])
  | some p =>
    match s.callExporter p.exporter .shutdown with
    | (s, .panicked) => (s, none)
    | (s, .returned t) =>
      let conclude := Waiter.own (.conclude flushed done)
      match s.exports.ledger.register t conclude with
      | (ledger, none) => (s.withLedger ledger, some [])
      | (ledger, some success) => (s.withLedger ledger, some [.call conclude success])

/-- **One task.**  Gives the tasks that it sets off, unless it panics. -/
def step (s : State) : Task → State × Option (List Task)
  | .resolve t success =>
    let (store, waiters) := s.exports.ledger.store.resolve t success
    (s.withLedger { s.exports.ledger with store }, some (waiters.map (.call · success)))
  | .call (.member g) success =>
    let (ledger, verdict) := s.exports.ledger.count g success
    (s.withLedger ledger, some (match verdict with
      | none => []
      | some (result, verdict) => [.resolve result verdict]))
  | .call (.own (.forget slot id)) _ =>
    (s.modifySimple slot fun p => { p with pending := p.pending.filter (·.1 != id) }, some [])
  | .call (.own (.shutExporter slot flushed done)) _ =>
    if slot ∈ s.draining then
      { s with draining := s.draining.erase slot }.shutExporter slot flushed done
    else (s, some [])
  | .call (.own (.conclude flushed done)) success =>
    (s, some [.resolve done (s.exports.ledger.isSuccess flushed && success)])

/-- The number of completions without an outcome. -/
def pendingCount (s : State) : Nat := s.exports.ledger.store.pendingCount

theorem callExporter_draining (s : State) (e : Export.Exporter) (c : Export.Call) :
    (s.callExporter e c).1.draining = s.draining := rfl

theorem shutExporter_draining (s : State) (slot : Nat) (flushed done : Token) :
    (s.shutExporter slot flushed done).1.draining = s.draining := by
  unfold shutExporter
  split
  · rfl
  · rename_i p _
    have hd := s.callExporter_draining p.exporter .shutdown
    split
    · rename_i s' h
      rw [h] at hd
      exact hd
    · rename_i s' t h
      rw [h] at hd
      dsimp only
      split <;> exact hd

/-- **Every task leaves less to be done**: fewer exporters to shut down, fewer completions without
an outcome, or a lighter stack. -/
theorem step_decreases {s s' : State} {task : Task} {more : List Task}
    (h : s.step task = (s', some more)) :
    s'.draining.length < s.draining.length ∨
      (s'.draining = s.draining ∧ s'.pendingCount < s.pendingCount) ∨
      (s'.draining = s.draining ∧ s'.pendingCount = s.pendingCount ∧
        stackWeight more < task.weight) := by
  rcases task with ⟨t, success⟩ | ⟨⟨g⟩ | ⟨⟨slot, id⟩ | ⟨slot, flushed, done⟩ | ⟨flushed, done⟩⟩,
    success⟩
  · simp only [step, Prod.mk.injEq, Option.some.injEq] at h
    obtain ⟨rfl, rfl⟩ := h
    rcases s.exports.ledger.store.pendingCount_resolve t success with hr | hr
    · exact .inr (.inl ⟨rfl, hr⟩)
    · refine .inr (.inr ⟨rfl, ?_, ?_⟩)
      · simp only [pendingCount, withLedger, hr]
      · simp [hr, stackWeight, Task.weight]
  · simp only [step, Prod.mk.injEq, Option.some.injEq] at h
    obtain ⟨rfl, rfl⟩ := h
    refine .inr (.inr ⟨rfl, ?_, ?_⟩)
    · simp only [pendingCount, withLedger, Completion.Ledger.count_store]
    · split <;> simp [stackWeight, Task.weight]
  · simp only [step, Prod.mk.injEq, Option.some.injEq] at h
    obtain ⟨rfl, rfl⟩ := h
    exact .inr (.inr ⟨rfl, rfl, by simp [stackWeight, Task.weight]⟩)
  · simp only [step] at h
    split at h
    · rename_i hmem
      left
      have hd := shutExporter_draining { s with draining := s.draining.erase slot } slot flushed
        done
      rw [h] at hd
      simp only at hd
      rw [hd, List.length_erase_of_mem hmem]
      have := List.length_pos_of_mem hmem
      omega
    · simp only [Prod.mk.injEq, Option.some.injEq] at h
      obtain ⟨rfl, rfl⟩ := h
      exact .inr (.inr ⟨rfl, rfl, by simp [stackWeight, Task.weight]⟩)
  · simp only [step, Prod.mk.injEq, Option.some.injEq] at h
    obtain ⟨rfl, rfl⟩ := h
    exact .inr (.inr ⟨rfl, rfl, by simp [stackWeight, Task.weight]⟩)

/-- **Runs a stack of tasks** until nothing is left to do, or one of them panics.  In the answer,
whether one did. -/
def run (s : State) : List Task → State × Bool
  | [] => (s, false)
  | task :: tasks =>
    match _h : s.step task with
    | (s', none) => (s', true)
    | (s', some more) => s'.run (more ++ tasks)
  termination_by tasks => (s.draining.length, s.pendingCount, stackWeight tasks)
  decreasing_by
    rcases step_decreases _h with hd | ⟨hd, hp⟩ | ⟨hd, hp, hw⟩
    · exact Prod.Lex.left _ _ hd
    · rw [hd]
      exact Prod.Lex.right _ (Prod.Lex.left _ _ hp)
    · rw [hd, hp]
      refine Prod.Lex.right _ (Prod.Lex.right _ ?_)
      simp only [stackWeight, Completion.weigh_append, Completion.weigh_cons] at hw ⊢
      omega

/-- Gives a completion its outcome, with everything that sets off.  In the answer, whether that
panicked. -/
def resolve (s : State) (t : Token) (success : Bool) : State × Bool := s.run [.resolve t success]

end State

end ProfilePipeline.Processing
