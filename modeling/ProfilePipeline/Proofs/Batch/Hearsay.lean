import Mathlib.Tactic.Common
import ProfilePipeline.Proofs.Batch.Conduct
import ProfilePipeline.Proofs.Batch.Requests

/-!
# What the parties to a shutdown are told

A shutdown hands its work on, and with it the flush that it waits for and the completion that it
returned.  Whoever has a part of that work in hand was told the right thing: the flush, its outcome,
the exporter's answer and its outcome (`Chore.Tells`, `Reaction.Tells`).

Outcomes and the exporter's answer are there for good (`Machine.Grows`), so what was told stays
true, and a chore tells what it has heard to whatever comes after it (`Chore.Tells.run`).  In the
end the completion of the shutdown is resolved by what both outcomes come to
(`Machine.Concludes`).
-/

namespace ProfilePipeline.Batch

open Completion (Token Store)

variable {ρ : Type}

/-! ## What is known stays known -/

/-- Outcomes and the exporter's only answer are there for good. -/
structure Machine.Grows (m m' : Machine ρ) : Prop where
  outcome : ∀ u success, m.outcome? u = some success → m'.outcome? u = some success
  answers : ∀ answer, m.answers = [answer] → m'.answers = [answer]

namespace System

variable {s t : System ρ} {roles : List Role} {shown events : List (Event ρ)}

/-- The exporter is asked once, so its answer is not followed by another. -/
lemma Conduct.answers_nil (h : s.Conduct roles shown) (owed : 1 ≤ Dues.shutting.system s) :
    s.machine.answers = [] := by
  have sum := h.shutting
  have bound := h.answers
  rw [← List.length_eq_zero_iff]
  split at sum
  · omega
  · omega

lemma Conduct.grows (h : s.Conduct roles shown) (stride : s.Stride t events) :
    s.machine.Grows t.machine := by
  cases stride.moves with
  | idle steady =>
      refine ⟨fun u success before => ?_, fun answer before => ?_⟩
      · rw [Machine.outcome?, steady.store]
        exact before
      · rw [steady.answers]
        exact before
  | @run o c rest ran =>
      rw [ran.machine]
      refine ⟨fun u success before => c.outcome_persists o before, fun answer before => ?_⟩
      rcases (Chore.shares_run o s.machine c).answers with ⟨flushed, done, rfl⟩ | same
      · have owed : 1 ≤ Dues.shutting.system s := ran.le_system (w := .shutting)
        cases (h.answers_nil owed).symm.trans before
      · exact same.trans before

end System

/-! ## What is told -/

/-- What the outcomes of the flush and of the exporter's shutdown come to. -/
def Machine.Concludes (m : Machine ρ) (flushed : Token) (success : Bool) : Prop :=
  ∃ answer b b', m.answers = [answer] ∧ m.outcome? flushed = some b ∧
    m.outcome? answer = some b' ∧ success = (b && b')

/-- A chore goes on with the shutdown of `done` as it should, if that has asked for the flush
`flush?`. -/
def Chore.Tells (m : Machine ρ) (flush? : Option Token) (done : Token) : Chore ρ → Prop
  | request (some d) => flush? = none ∧ d = done
  | watch f d => flush? = some f ∧ d = done
  | call (.stop f d) success => flush? = some f ∧ d = done ∧ m.outcome? f = some success
  | halt => ∃ f success, flush? = some f ∧ m.outcome? f = some success
  | shutExporter f d => flush? = some f ∧ d = done ∧ ∃ success, m.outcome? f = some success
  | attach answer f d =>
    flush? = some f ∧ d = done ∧ m.answers = [answer] ∧ ∃ success, m.outcome? f = some success
  | call (.conclude f d) success =>
    flush? = some f ∧ d = done ∧ (∃ b, m.outcome? f = some b) ∧
      ∃ answer, m.answers = [answer] ∧ m.outcome? answer = some success
  | resolve t success => t = done → ∃ f, flush? = some f ∧ m.Concludes f success
  | _ => True

/-- What waits for the completion `t` does so as well. -/
def Reaction.Tells (m : Machine ρ) (flush? : Option Token) (done t : Token) : Reaction → Prop
  | stop f d => flush? = some f ∧ d = done
  | conclude f d =>
    flush? = some f ∧ d = done ∧ m.answers = [t] ∧ ∃ success, m.outcome? f = some success

structure System.Tells (flush? : Option Token) (done : Token) (s : System ρ) : Prop where
  worker : ∀ c ∈ s.machine.worker.chores, c.Tells s.machine flush? done
  threads : ∀ th ∈ s.threads, ∀ c ∈ th.chores, c.Tells s.machine flush? done
  waiting : ∀ t r, s.machine.store.WaitsAt t r → r.Tells s.machine flush? done t
  outcome : ∀ success, s.machine.outcome? done = some success →
    ∃ f, flush? = some f ∧ s.machine.Concludes f success

section Tells

variable {m m' : Machine ρ} {flush? : Option Token} {done : Token}

lemma Machine.Concludes.grow {flushed : Token} {success : Bool} (h : m.Concludes flushed success)
    (grows : m.Grows m') : m'.Concludes flushed success := by
  obtain ⟨answer, b, b', answers, flush, outcome, rfl⟩ := h
  exact ⟨answer, b, b', grows.answers _ answers, grows.outcome _ _ flush,
    grows.outcome _ _ outcome, rfl⟩

lemma Chore.Tells.grow {c : Chore ρ} (h : c.Tells m flush? done) (grows : m.Grows m') :
    c.Tells m' flush? done := by
  cases c with
  | resolve t success =>
      intro this
      obtain ⟨f, flush, concludes⟩ := h this
      exact ⟨f, flush, concludes.grow grows⟩
  | call r success =>
      cases r with
      | stop f d =>
          obtain ⟨flush, this, outcome⟩ := h
          exact ⟨flush, this, grows.outcome _ _ outcome⟩
      | conclude f d =>
          obtain ⟨flush, this, ⟨b, outcome⟩, answer, answers, answered⟩ := h
          exact ⟨flush, this, ⟨b, grows.outcome _ _ outcome⟩, answer, grows.answers _ answers,
            grows.outcome _ _ answered⟩
  | halt =>
      obtain ⟨f, success, flush, outcome⟩ := h
      exact ⟨f, success, flush, grows.outcome _ _ outcome⟩
  | shutExporter f d =>
      obtain ⟨flush, this, success, outcome⟩ := h
      exact ⟨flush, this, success, grows.outcome _ _ outcome⟩
  | attach answer f d =>
      obtain ⟨flush, this, answers, success, outcome⟩ := h
      exact ⟨flush, this, grows.answers _ answers, success, grows.outcome _ _ outcome⟩
  | request d =>
      cases d with
      | none => trivial
      | some d => exact h
  | watch => exact h
  | _ => trivial

lemma Reaction.Tells.grow {r : Reaction} {t : Token} (h : r.Tells m flush? done t)
    (grows : m.Grows m') : r.Tells m' flush? done t := by
  cases r with
  | stop => exact h
  | conclude f d =>
      obtain ⟨flush, this, answers, success, outcome⟩ := h
      exact ⟨flush, this, grows.answers _ answers, success, grows.outcome _ _ outcome⟩

/-- Something that is called at once is told the outcome that there is. -/
lemma outcome_of_await {t : Token} {r : Reaction} {c : Chore ρ} (h : c ∈ (m.await t r).chores) :
    ∃ success, c = .call r success ∧ m.outcome? t = some success := by
  rw [Machine.await] at h
  split at h
  · cases h
  · rename_i store success hstore
    refine ⟨success, List.mem_singleton.mp h, ?_⟩
    exact Store.outcome?_of_register (k := r) (by rw [hstore])

lemma Chore.IsLight.tells {c : Chore ρ} (light : c.IsLight) : c.Tells m flush? done := by
  cases c with
  | resolve | call | halt | shutExporter | attach | watch => exact light.elim
  | request d =>
      cases d with
      | none => trivial
      | some => exact light.elim
  | _ => trivial

/-- Once there is an outcome, what has waited for it may be called. -/
lemma Reaction.Tells.called {r : Reaction} {t : Token} {success : Bool} {roles : List Role}
    (h : r.Tells m flush? done t) (belongs : r.Belongs roles t)
    (outcome : m.outcome? t = some success) : (.call r success : Chore ρ).Tells m flush? done := by
  cases r with
  | stop f d =>
      obtain rfl : t = f := belongs
      exact ⟨h.1, h.2, outcome⟩
  | conclude f d => exact ⟨h.1, h.2.1, h.2.2.2, t, h.2.2.1, outcome⟩

/-- A call tells what comes after it that there is an outcome of the flush, or of the shutdown. -/
lemma Chore.Tells.run_call {o : Surroundings} {r : Reaction} {success : Bool}
    (tells : (.call r success : Chore ρ).Tells m flush? done) :
    ∀ next ∈ ((Chore.call r success).run o m).chores,
      next.Tells ((Chore.call r success).run o m).machine flush? done := by
  intro next mem
  cases r with
  | stop f d =>
      obtain ⟨flush, rfl, outcome⟩ := tells
      simp only [Chore.run, List.mem_cons, List.not_mem_nil, or_false] at mem
      rcases mem with rfl | rfl | rfl | rfl
      · exact ⟨f, success, flush, outcome⟩
      · trivial
      · trivial
      · exact ⟨flush, rfl, success, outcome⟩
  | conclude f d =>
      obtain ⟨flush, rfl, ⟨b, outcome⟩, answer, answers, answered⟩ := tells
      obtain rfl := List.mem_singleton.mp mem
      intro _
      refine ⟨f, flush, answer, b, success, answers, outcome, answered, ?_⟩
      rw [Store.isSuccess_of_outcome? outcome]

/-- **A chore tells what comes after it the right thing**, and what it leaves waiting. -/
theorem Chore.Tells.run {o : Surroundings} {c : Chore ρ} {roles : List Role}
    (tells : c.Tells m flush? done)
    (waiting : ∀ t r, m.store.WaitsAt t r → r.Tells m flush? done t) (posted : m.Posted roles)
    (grows : m.Grows (c.run o m).machine) (down : m.isShutdown = true)
    (unanswered : ∀ f d, c = .shutExporter f d → m.answers = [])
    (asked : ∀ d, c ≠ .request (some d)) :
    ∀ next ∈ (c.run o m).chores, next.Tells (c.run o m).machine flush? done := by
  intro next mem
  by_cases light : c.IsLight
  · exact (light.run o m next mem).tells
  cases c with
  | resolve t success =>
      obtain ⟨r, hr, rfl⟩ := List.mem_map.mp mem
      have waits := Store.waitsAt_of_mem_resolve hr
      have told := (waiting t r waits).grow grows
      exact told.called (posted t r waits) (waits.outcome?_resolve success)
  | call r success => exact tells.run_call next mem
  | shutExporter f d =>
      obtain ⟨flush, rfl, success, outcome⟩ := tells
      have none := unanswered f d rfl
      cases answer : o.shutdown with
      | panicked =>
          rw [Chore.run, answer] at mem
          cases mem
      | returned ended =>
          rw [Chore.run, answer] at mem grows ⊢
          obtain rfl := List.mem_singleton.mp mem
          refine ⟨flush, rfl, ?_, success, grows.outcome _ _ outcome⟩
          simp only [none, List.nil_append]
  | attach answer f d =>
      obtain ⟨flush, rfl, answers, success, outcome⟩ := tells
      obtain ⟨answered, rfl, outcome'⟩ := outcome_of_await mem
      exact ⟨flush, rfl, ⟨success, grows.outcome _ _ outcome⟩, answer, grows.answers _ answers,
        grows.outcome _ _ outcome'⟩
  | claim =>
      rw [Chore.run, if_pos down] at mem
      cases mem
  | watch f d =>
      obtain ⟨flush, rfl⟩ := tells
      obtain ⟨success, rfl, outcome⟩ := outcome_of_await mem
      exact ⟨flush, rfl, grows.outcome _ _ outcome⟩
  | request d =>
      cases d with
      | some d => exact absurd rfl (asked d)
      | none => exact absurd trivial light
  | halt => cases mem
  | _ => exact absurd trivial light

/-- What is left waiting knows as much. -/
lemma Chore.Tells.waits {o : Surroundings} {c : Chore ρ} (tells : c.Tells m flush? done)
    (waiting : ∀ t r, m.store.WaitsAt t r → r.Tells m flush? done t)
    (grows : m.Grows (c.run o m).machine) {t : Token} {r : Reaction}
    (h : (c.run o m).machine.store.WaitsAt t r) : r.Tells (c.run o m).machine flush? done t := by
  rcases Chore.waitsAt_run h with before | ⟨d, rfl, rfl⟩ | ⟨f, d, rfl, rfl⟩
  · exact (waiting t r before).grow grows
  · exact tells
  · obtain ⟨flush, rfl, answers, success, outcome⟩ := tells
    exact ⟨flush, rfl, grows.answers _ answers, success, grows.outcome _ _ outcome⟩

/-- The completion is resolved by what was told. -/
lemma Chore.Tells.resolves {o : Surroundings} {c : Chore ρ} (tells : c.Tells m flush? done)
    (outcome : ∀ success, m.outcome? done = some success →
      ∃ f, flush? = some f ∧ m.Concludes f success)
    (old : done < m.store.size) (grows : m.Grows (c.run o m).machine) {success : Bool}
    (h : (c.run o m).machine.outcome? done = some success) :
    ∃ f, flush? = some f ∧ (c.run o m).machine.Concludes f success := by
  have before : ∃ f, flush? = some f ∧ m.Concludes f success := by
    rcases outcome_run o m c old with same | ⟨other, rfl, after⟩
    · exact outcome success (same.symm.trans h)
    · obtain rfl : other = success := Option.some.inj (after.symm.trans h)
      exact tells rfl
  obtain ⟨f, flush, concludes⟩ := before
  exact ⟨f, flush, concludes.grow grows⟩

end Tells

end ProfilePipeline.Batch
