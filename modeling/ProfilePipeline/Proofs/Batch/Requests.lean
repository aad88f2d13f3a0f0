import Mathlib.Tactic.Common
import ProfilePipeline.Proofs.Batch.Tokens

/-!
# Requested flushes

A flush is requested, then taken by the worker, then resolved by it, and it is never in two of these
stages at once.  Once the worker has stopped it takes no request, and none is left behind.

* `Chore.outcome_run` — only a pending completion changes, and only by being resolved.
* `System.Reaches.orderly` — the invariant on requests.
-/

namespace ProfilePipeline.Batch

open Completion (Token Store)

variable {ρ : Type}

/-! ## Chores and completions -/

lemma Machine.lt_of_outcome {m : Machine ρ} {u : Token} {success : Bool}
    (h : m.outcome? u = some success) : u < m.store.size := by
  by_contra beyond
  rw [outcome?, Store.outcome?_of_size_le (Nat.not_lt.mp beyond)] at h
  cases h

namespace Chore

/-- What a chore may do to the request. -/
structure Keeps (m : Machine ρ) (e : Effect ρ) : Prop where
  stopped : e.machine.stopped = m.stopped
  requested : e.machine.requested = m.requested ∨
    m.stopped = false ∧ m.requested = none ∧ e.machine.requested = some m.store.size ∧
      e.machine.outcome? m.store.size = none

/-- A request stays. -/
lemma Keeps.asked {m : Machine ρ} {e : Effect ρ} (h : Keeps m e) {t : Token}
    (request : m.requested = some t) : e.machine.requested = some t := by
  rcases h.requested with same | ⟨-, none, -⟩
  · exact same.trans request
  · cases none.symm.trans request

lemma keeps_await (m : Machine ρ) (t : Token) (r : Reaction) : Keeps m (m.await t r) := by
  rw [Machine.await]
  split
  · exact ⟨rfl, .inl rfl⟩
  · exact ⟨rfl, .inl rfl⟩

lemma keeps_reply {m m' : Machine ρ} {t : Token} {isNew : Bool}
    (reply : m.Replies (m', t, isNew)) : Keeps m { machine := m' } := by
  cases reply with
  | late => exact ⟨rfl, .inl rfl⟩
  | join => exact ⟨rfl, .inl rfl⟩
  | new running none =>
      refine ⟨rfl, .inr ⟨running, none, rfl, ?_⟩⟩
      calc m.store.fresh.1.outcome? m.store.size
          = m.store.outcome? m.store.size := Store.outcome?_fresh ..
        _ = Option.none := Store.outcome?_of_size_le (Nat.le_refl _)

theorem keeps_run (o : Surroundings) (m : Machine ρ) (c : Chore ρ) : Keeps m (c.run o m) := by
  cases c with
  | call r success =>
      cases r with
      | stop => exact ⟨rfl, .inl rfl⟩
      | conclude => exact ⟨rfl, .inl rfl⟩
  | notify =>
      rw [run]
      split
      · exact ⟨rfl, .inl rfl⟩
      · exact ⟨rfl, .inl rfl⟩
  | shutExporter flushed done =>
      rw [run]
      split
      · exact ⟨rfl, .inl rfl⟩
      · exact ⟨rfl, .inl rfl⟩
  | attach => exact keeps_await ..
  | offer r =>
      rw [run]
      split
      · exact ⟨rfl, .inl rfl⟩
      · exact ⟨rfl, .inl rfl⟩
  | claim =>
      rw [run]
      split
      · exact ⟨rfl, .inl rfl⟩
      · exact ⟨rfl, .inl rfl⟩
  | request done =>
      have reply := keeps_reply m.replies_requestFlush
      cases done with
      | none => exact ⟨reply.stopped, reply.requested⟩
      | some done => exact ⟨reply.stopped, reply.requested⟩
  | watch => exact keeps_await ..
  | _ => exact ⟨rfl, .inl rfl⟩

lemma outcome_await (m : Machine ρ) (t : Token) (r : Reaction) (u : Token) :
    (m.await t r).machine.outcome? u = m.outcome? u := by
  have same := Store.outcome?_register m.store t r u
  rw [Machine.await]
  split
  · rename_i store hstore
    rw [hstore] at same
    exact same
  · rename_i store success hstore
    rw [hstore] at same
    exact same

/-- A new completion changes no other. -/
lemma outcome_settled {m : Machine ρ} {u : Token} (old : u < m.store.size) (success : Bool) :
    (m.store.settled success).1.outcome? u = m.outcome? u := by
  rw [Store.outcome?_settled, if_neg (Nat.ne_of_lt old)]
  rfl

/-- **Only a pending completion changes, and only by being resolved.** -/
theorem outcome_run (o : Surroundings) (m : Machine ρ) (c : Chore ρ) {u : Token}
    (old : u < m.store.size) :
    (c.run o m).machine.outcome? u = m.outcome? u ∨
      ∃ success, c = .resolve u success ∧ (c.run o m).machine.outcome? u = some success := by
  cases c with
  | resolve t success =>
      have after : ((resolve t success).run o m).machine.outcome? u = _ :=
        Store.outcome?_resolve m.store t success u
      by_cases now : u = t ∧ t < m.store.size ∧ m.store.outcome? t = none
      · rw [if_pos now] at after
        obtain ⟨rfl, -, -⟩ := now
        exact .inr ⟨success, rfl, after⟩
      · rw [if_neg now] at after
        exact .inl after
  | call r success => cases r <;> exact .inl rfl
  | notify =>
      rw [run]
      split
      · exact .inl rfl
      · exact .inl rfl
  | shutExporter flushed done =>
      rw [run]
      split
      · exact .inl rfl
      · rename_i outcome _
        cases outcome with
        | none => exact .inl (Store.outcome?_fresh ..)
        | some success => exact .inl (outcome_settled old success)
  | attach => exact .inl (outcome_await ..)
  | offer r =>
      rw [run]
      split
      · exact .inl rfl
      · exact .inl rfl
  | claim =>
      rw [run]
      split
      · exact .inl (outcome_settled old true)
      · exact .inl (Store.outcome?_fresh ..)
  | request done =>
      have same : m.requestFlush.1.outcome? u = m.outcome? u := by
        have reply := m.replies_requestFlush
        generalize m.requestFlush = q at reply
        cases reply with
        | late => exact outcome_settled old _
        | join => rfl
        | new => exact Store.outcome?_fresh ..
      cases done with
      | none => exact .inl same
      | some done => exact .inl same
  | watch => exact .inl (outcome_await ..)
  | _ => exact .inl rfl

/-- An outcome is there for good. -/
lemma outcome_persists (o : Surroundings) {m : Machine ρ} (c : Chore ρ) {u : Token}
    {success : Bool} (h : m.outcome? u = some success) :
    (c.run o m).machine.outcome? u = some success := by
  rcases outcome_run o m c (Machine.lt_of_outcome h) with same | ⟨other, rfl, -⟩
  · exact same.trans h
  · have after : ((resolve u other).run o m).machine.outcome? u = _ :=
      Store.outcome?_resolve m.store u other u
    rw [after, if_neg]
    · exact h
    · rintro ⟨-, -, pending⟩
      cases pending.symm.trans h

/-- What is pending after a chore was so before. -/
lemma pending_of_run {o : Surroundings} {m : Machine ρ} {c : Chore ρ} {u : Token}
    (h : (c.run o m).machine.outcome? u = none) : m.outcome? u = none := by
  cases before : m.outcome? u with
  | none => rfl
  | some success => cases h.symm.trans (outcome_persists o c before)

end Chore

/-! ## The way of a flush -/

/-- The phases in which a worker may have stopped. -/
def Phase.isOver : Phase → Bool
  | answering _ | finished | dead => true
  | _ => false

namespace Machine

/-- The worker has taken a flush and not resolved it yet. -/
def Owes (m : Machine ρ) (t : Token) : Prop :=
  m.worker.phase.token? = some t ∨ ∃ success, .resolve t success ∈ m.worker.chores

/-- Flushes are requested, taken and resolved in that order. -/
structure Orderly (m : Machine ρ) : Prop where
  untaken : ∀ t, m.requested = some t → ¬ m.Owes t
  pending : ∀ t, m.requested = some t → m.outcome? t = none
  ended : m.stopped = true → m.worker.phase.isOver = true ∧ m.requested = none
  answering : ∀ t, m.worker.phase = .answering t → m.stopped = true

lemma orderly_start (config : Config) : Orderly (start config : Machine ρ) where
  untaken t ht := by cases ht
  pending t ht := by cases ht
  ended late := by cases late
  answering t phase := by cases phase

variable {m m' : Machine ρ}

/-- The worker goes on and takes no new flush. -/
lemma Orderly.goOn (h : m.Orderly) (running : m.worker.phase.isOver = false)
    (requested : m'.requested = m.requested) (store : m'.store = m.store)
    (stopped : m'.stopped = m.stopped) (on : m'.worker.phase.isOver = false)
    (owes : ∀ t, m'.Owes t → m.Owes t) : m'.Orderly where
  untaken t ht := by
    rw [requested] at ht
    exact fun owed => h.untaken t ht (owes t owed)
  pending t ht := by
    rw [requested] at ht
    rw [outcome?, store]
    exact h.pending t ht
  ended late := by
    rw [stopped] at late
    rw [(h.ended late).1] at running
    cases running
  answering t phase := by
    rw [phase] at on
    cases on

/-- The worker moves to a phase that is about the same flush as before, or about none. -/
lemma owes_goto {p : Phase} {t : Token} (h : (m.goto p).Owes t)
    (token : p.token? = none ∨ p.token? = m.worker.phase.token?) : m.Owes t := by
  rcases h with h | h
  · rcases token with token | token
    · cases h.symm.trans token
    · exact .inl (token.symm.trans h)
  · exact .inr h

/-- After an export the worker owes the flush that the export was for, as before. -/
lemma owes_resume {success : Bool} {p : Purpose} {t : Token} (h : (m.resume success p).Owes t)
    (token : p.token? = m.worker.phase.token?) : m.Owes t := by
  cases p with
  | chunk => exact owes_goto h (.inr token)
  | scheduled => exact owes_goto h (.inr token)
  | rest u before =>
      rcases h with h | ⟨_, h⟩
      · cases h
      · cases List.mem_singleton.mp h
        exact .inl token.symm

/-- The request is gone, and nothing can be wrong with it. -/
lemma Orderly.unrequested (requested : m'.requested = none)
    (ended : m'.stopped = true → m'.worker.phase.isOver = true)
    (answering : ∀ t, m'.worker.phase = .answering t → m'.stopped = true) : m'.Orderly where
  untaken t ht := by
    rw [requested] at ht
    cases ht
  pending t ht := by
    rw [requested] at ht
    cases ht
  ended late := ⟨ended late, requested⟩
  answering := answering

lemma Orderly.running (h : m.Orderly) (phase : m.worker.phase.isOver = false) :
    m.stopped = false := by
  cases stopped : m.stopped with
  | false => rfl
  | true =>
      rw [(h.ended stopped).1] at phase
      cases phase

@[simp] lemma resume_requested (m : Machine ρ) (success : Bool) (p : Purpose) :
    (m.resume success p).requested = m.requested := by
  cases p <;> rfl

@[simp] lemma resume_store (m : Machine ρ) (success : Bool) (p : Purpose) :
    (m.resume success p).store = m.store := by
  cases p <;> rfl

@[simp] lemma resume_stopped (m : Machine ρ) (success : Bool) (p : Purpose) :
    (m.resume success p).stopped = m.stopped := by
  cases p <;> rfl

@[simp] lemma resume_isOver (m : Machine ρ) (success : Bool) (p : Purpose) :
    (m.resume success p).worker.phase.isOver = false := by
  cases p <;> rfl

/-- **The cycle of the worker keeps flushes in order.** -/
theorem Orderly.turn {o : Surroundings} {events : List (Event ρ)} (h : m.Orderly)
    (turn : Turn o m m' events) : m'.Orderly := by
  cases turn with
  | start phase | startNever phase | goOn phase | quit phase | takeNothing phase | filledUp phase
  | filledAll phase | due phase | notDue phase | schedule phase | runOut phase | settle phase
  | again phase | sleep phase | timeUp phase | announce phase | stayAwake phase | wake phase
  | retract phase =>
      refine h.goOn (by rw [phase]; rfl) rfl rfl rfl rfl ?_
      intro t owed
      exact owes_goto owed (.inl rfl)
  | count phase | drained phase | drainedEarly phase | hand phase | succeed phase | fail phase
  | tally phase | drain phase | drainFull phase =>
      refine h.goOn (by rw [phase]; rfl) rfl rfl rfl rfl ?_
      intro t owed
      refine owes_goto owed (.inr ?_)
      rw [phase]
      rfl
  | fill phase =>
      refine h.goOn (by rw [phase]; rfl) rfl rfl rfl ?_ fun t owed => owed
      rw [take, phase]
      rfl
  | pass phase =>
      refine h.goOn (by rw [phase]; rfl) (resume_requested ..) (resume_store ..)
        (resume_stopped ..) (resume_isOver ..) ?_
      intro t owed
      refine owes_resume owed ?_
      rw [phase]
      rfl
  | gauge phase =>
      refine h.goOn (by rw [phase]; rfl) (resume_requested ..) (resume_store ..)
        (resume_stopped ..) (resume_isOver ..) ?_
      intro t owed
      refine owes_resume (m := { m with worker := { m.worker with batch := [] } }) owed ?_
      show _ = m.worker.phase.token?
      rw [phase]
      rfl
  | takeRequest phase =>
      have running : m.stopped = false := h.running (by rw [phase]; rfl)
      refine .unrequested rfl ?_ ?_
      · intro late
        cases running.symm.trans late
      · rintro _ ⟨⟩
  | leave =>
      refine .unrequested rfl (fun _ => rfl) ?_
      rintro _ ⟨⟩
  | leaveRequest => exact .unrequested rfl (fun _ => rfl) fun _ _ => rfl
  | answer phase =>
      have stopped := h.answering _ phase
      refine .unrequested (h.ended stopped).2 (fun _ => rfl) ?_
      rintro _ ⟨⟩

end Machine

/-! ## Steps and runs -/

section Steps

variable {roles : List Role}

namespace Machine

variable {m m' : Machine ρ}

lemma Fits.lt_of_owes (h : m.Fits roles) {t : Token} (owed : m.Owes t) : t < m.store.size := by
  rcases owed with phase | ⟨success, hc⟩
  · exact h.lt_of_role (h.phase t phase)
  · rcases h.chores _ hc with (role | role) | ⟨_, _, ⟨⟩, role⟩
    · exact h.lt_of_role role
    · exact h.lt_of_role role
    · exact h.lt_of_role role

/-- A chore that resolves no requested flush, and what the worker does with it. -/
lemma Orderly.touches (h : m.Orderly) (fits : m.Fits roles) {e : Effect ρ}
    (touches : Chore.Touches m e) (keeps : Chore.Keeps m e)
    (outcome : ∀ t, m.requested = some t → e.machine.outcome? t = m.outcome? t)
    (requested : m'.requested = e.machine.requested) (store : m'.store = e.machine.store)
    (stopped : m'.stopped = e.machine.stopped)
    (phase : m'.worker.phase = e.machine.worker.phase ∨ m'.worker.phase = .dead)
    (owes : ∀ t, m'.requested = some t → m'.Owes t → m.Owes t) : m'.Orderly where
  untaken t ht owed := by
    have before := owes t ht owed
    rw [requested] at ht
    rcases keeps.requested with same | ⟨-, -, new, -⟩
    · rw [same] at ht
      exact h.untaken t ht before
    · obtain rfl : m.store.size = t := Option.some.inj (new.symm.trans ht)
      exact absurd (fits.lt_of_owes before) (Nat.lt_irrefl _)
  pending t ht := by
    rw [requested] at ht
    rw [outcome?, store]
    rcases keeps.requested with same | ⟨-, -, new, pending⟩
    · rw [same] at ht
      exact (outcome t ht).trans (h.pending t ht)
    · obtain rfl : m.store.size = t := Option.some.inj (new.symm.trans ht)
      exact pending
  ended late := by
    rw [stopped, keeps.stopped] at late
    obtain ⟨isOver, none⟩ := h.ended late
    refine ⟨?_, ?_⟩
    · rcases phase with phase | phase
      · rw [phase]
        rcases touches.phase with same | ⟨asleep, -⟩
        · rw [same]
          exact isOver
        · rw [asleep] at isOver
          cases isOver
      · rw [phase]
        rfl
    · rw [requested]
      rcases keeps.requested with same | ⟨running, -⟩
      · exact same.trans none
      · cases running.symm.trans late
  answering t ht := by
    rw [stopped, keeps.stopped]
    rcases phase with phase | phase
    · rw [phase] at ht
      rcases touches.phase with same | ⟨-, waking⟩
      · exact h.answering t (same.symm.trans ht)
      · rw [waking] at ht
        cases ht
    · rw [phase] at ht
      cases ht

/-- A chore that wakes the worker concerns no flush. -/
lemma token?_touches {e : Effect ρ} (touches : Chore.Touches m e) :
    e.machine.worker.phase.token? = m.worker.phase.token? := by
  rcases touches.phase with same | ⟨asleep, waking⟩
  · rw [same]
  · rw [asleep, waking]
    rfl

end Machine

namespace System

variable {s t : System ρ}

/-- A chore of the worker leaves a requested flush alone, because the worker owes others. -/
lemma outcome_requested (orderly : s.machine.Orderly) (fits : s.Fits roles) (o : Surroundings)
    {c : Chore ρ} (hc : c ∈ s.machine.worker.chores) {u : Token}
    (hu : s.machine.requested = some u) :
    (c.run o s.machine).machine.outcome? u = s.machine.outcome? u := by
  have old := fits.machine.lt_of_role (fits.machine.requested u hu)
  rcases Chore.outcome_run o s.machine c old with same | ⟨success, rfl, -⟩
  · exact same
  · exact absurd (.inr ⟨success, hc⟩) (orderly.untaken u hu)

/-- A chore of the worker puts off no flush, so one that is to be resolved after it was so
before. -/
lemma mem_chores_of_resolve {o : Surroundings} {c : Chore ρ} {rest : List (Chore ρ)}
    (first : s.machine.worker.chores = c :: rest)
    (he : (c.run o s.machine).Fits roles none) {u : Token} {success : Bool}
    (role : roles[u]? = some .flush)
    (mem : .resolve u success ∈ (c.run o s.machine).chores ++ rest) :
    .resolve u success ∈ s.machine.worker.chores := by
  rcases List.mem_append.mp mem with mem | mem
  · exact absurd role (he.chores _ mem).not_flush
  · rw [first]
    exact List.mem_cons_of_mem _ mem

/-- **Every step keeps flushes in order.** -/
theorem orderly_stride {events : List (Event ρ)} (orderly : s.machine.Orderly)
    (fits : s.Fits roles) (stride : s.Stride t events) : t.machine.Orderly := by
  cases stride with
  | turn idle turn => exact orderly.turn turn
  | @chore o c rest first calm =>
      have touches := Chore.touches_run o s.machine c
      have token := Machine.token?_touches touches
      obtain ⟨more, he⟩ := fits.chore o first
      refine orderly.touches fits.machine touches (Chore.keeps_run o s.machine c) ?_ rfl rfl rfl
        (.inl rfl) ?_
      · intro u hu
        refine outcome_requested orderly fits o ?_ hu
        rw [first]
        exact List.mem_cons_self ..
      · rintro u hu (owed | ⟨success, owed⟩)
        · exact .inl (token.symm.trans owed)
        · exact .inr ⟨success, mem_chores_of_resolve first he (he.machine.requested u hu) owed⟩
  | @panic o c rest first panicked =>
      have touches := Chore.touches_run o s.machine c
      refine orderly.touches fits.machine touches (Chore.keeps_run o s.machine c) ?_ rfl rfl rfl
        (.inr rfl) ?_
      · intro u hu
        refine outcome_requested orderly fits o ?_ hu
        rw [first]
        exact List.mem_cons_self ..
      · rintro u hu (owed | ⟨success, owed⟩)
        · cases owed
        · cases owed
  | begin => exact orderly
  | @advance o i th c rest found first =>
      have touches := Chore.touches_run o s.machine c
      have token := Machine.token?_touches touches
      have hc := fits.next found first
      refine orderly.touches fits.machine touches (Chore.keeps_run o s.machine c) ?_ rfl rfl rfl
        (.inl rfl) ?_
      · intro u hu
        have role := fits.machine.requested u hu
        rcases Chore.outcome_run o s.machine c (fits.machine.lt_of_role role) with same | ⟨success, rfl, -⟩
        · exact same
        · exact absurd role hc.not_flush
      · rintro u hu (owed | ⟨success, owed⟩)
        · exact .inl (token.symm.trans owed)
        · refine .inr ⟨success, ?_⟩
          rw [← touches.chores]
          exact owed

/-- **In every reachable state flushes are in order**, and everyone keeps to roles. -/
theorem Reaches.orderly {config : Config} {shown : List (Event ρ)}
    (h : Reaches (start config) shown s) : s.machine.Orderly ∧ ∃ roles, s.Fits roles := by
  induction h with
  | refl => exact ⟨Machine.orderly_start config, [], fits_start config⟩
  | step before next ih =>
      obtain ⟨orderly, roles, fits⟩ := ih
      have stride := stride_of_step next
      obtain ⟨more, after⟩ := fits.stride stride
      exact ⟨orderly_stride orderly fits stride, roles ++ more, after⟩

end System

end Steps

end ProfilePipeline.Batch
