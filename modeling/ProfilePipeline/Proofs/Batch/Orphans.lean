import Mathlib.Tactic.Common
import ProfilePipeline.Proofs.Batch.Pending
import ProfilePipeline.Proofs.Batch.Shutdown

/-!
# Completions that nobody resolves

The completion of a flush is resolved by the worker and by nobody else, so every one that is pending
has to be within the worker's reach, and a worker that comes to its end has to leave none behind.
It does so, and then the completion of a shutdown waits for nothing but the exporter
(`System.Reaches.orphanless`).

There are two other ends, though, and both are panics on the worker's thread.

**The exporter.**  The exporter's shutdown is called by whoever resolves the flush before it, and
that may be the worker.  A panic of the exporter is caught around an export, but not here, and it
takes the worker away in the middle of its work (`System.Reaches.died`).  The completion of the
shutdown is not resolved then (`orphans`).

**The clock.**  A schedule delay that is added to the time may lead beyond the end of the clock
(`System.Reaches.ranOut`).  Every positive delay is accepted, and with one that is long enough the
worker ends before it has done anything (`System.Reaches.unscheduled`).

After either end a flush that is pending stays so (`System.Reaches.lost`).
-/

namespace ProfilePipeline.Batch

open Completion (Token Store)

variable {ρ : Type}

/-! ## The ends of the worker -/

/-- A panic has ended the worker. -/
def Phase.isGone : Phase → Bool
  | dead | outOfTime _ => true
  | _ => false

namespace Machine

variable {m : Machine ρ}

/-- There is nothing to do for a worker that is gone. -/
lemma workerStep_of_isGone (gone : m.worker.phase.isGone = true) (idle : m.worker.chores = [])
    (o : Surroundings) : m.workerStep o = none := by
  rw [workerStep, idle]
  show m.phaseStep o = none
  rw [phaseStep]
  cases phase : m.worker.phase with
  | finished | dead | outOfTime => rfl
  | _ =>
      rw [phase] at gone
      cases gone

/-- **A worker that never takes another step is at its end, or gone.**  One that is asleep wakes up
when its next export is due. -/
theorem ends_of_workerStep (stuck : ∀ o, m.workerStep o = none) :
    m.IsOver ∨ m.worker.phase.isGone = true := by
  -- Only to a worker that is asleep it matters what time it is.
  have still := stuck { now := m.worker.nextExport }
  rw [workerStep] at still
  cases chores : m.worker.chores with
  | cons c rest =>
      rw [chores] at still
      cases still
  | nil =>
      rw [chores] at still
      change m.phaseStep _ = none at still
      rw [phaseStep] at still
      cases phase : m.worker.phase with
      | finished => exact .inl ⟨phase, chores⟩
      | dead | outOfTime => exact .inr rfl
      | asleep => simp [phase, isDue] at still
      | taking | leaving => cases request : m.requested <;> simp [phase, request] at still
      | draining t remaining =>
          cases remaining with
          | zero => simp [phase] at still
          | succ remaining => cases queue : m.queue <;> simp [phase, queue] at still
      | filling =>
          simp only [phase] at still
          split at still
          · cases still
          · cases queue : m.queue <;> simp [queue] at still
      | handing | testing =>
          simp only [phase] at still
          split at still
          · cases still
          · cases still
      | _ => simp [phase] at still

/-- A worker that is gone has left no chores. -/
lemma Sized.idle_of_isGone (h : m.Sized) (gone : m.worker.phase.isGone = true) :
    m.worker.chores = [] := by
  by_contra busy
  rcases (h.chores busy).1 with phase | phase
  · rw [phase] at gone
    cases gone
  · rw [phase] at gone
    cases gone

end Machine

namespace System

variable {s t : System ρ} {roles : List Role} {shown events after : List (Event ρ)} {q : Token}
  {now : Nat} {config : Config}

/-- **Only two panics end the worker**: one of the exporter's shutdown, and one for want of time. -/
lemma Stride.gone_cases (stride : s.Stride t events)
    (gone : t.machine.worker.phase.isGone = true) :
    t.machine.worker.phase = s.machine.worker.phase ∨
      (t.machine.worker.phase = .dead ∧ ∃ o c rest, s.Ran t events o c rest ∧
        (c.run o s.machine).panicked = true) ∨
      ∃ now, t.machine.worker.phase = .outOfTime now ∧
        SteadyClock.range ≤ now + s.machine.config.scheduleDelay := by
  have run : ∀ {o : Surroundings} {c : Chore ρ},
      (c.run o s.machine).machine.worker.phase.isGone = true →
        (c.run o s.machine).machine.worker.phase = s.machine.worker.phase := by
    intro o c gone
    rcases (Chore.touches_run o s.machine c).phase with same | ⟨-, waking⟩
    · exact same
    · rw [waking] at gone
      cases gone
  cases stride with
  | turn idle turn =>
      cases turn with
      | startNever phase reach | runOut phase reach =>
          exact .inr (.inr ⟨_, rfl, SteadyClock.after?_eq_none_iff.mp reach⟩)
      | @pass p | @gauge p => cases p <;> cases gone
      | fill => exact .inl rfl
      | _ => cases gone
  | chore => exact .inl (run gone)
  | panic first panicked =>
      exact .inr (.inl ⟨rfl, _, _, _, ran_worker first _ fun _ => rfl, panicked⟩)
  | begin => exact .inl rfl
  | advance => exact .inl (run gone)

/-- **A worker is dead only where the exporter's shutdown has panicked**, and that has returned
nothing. -/
theorem Reaches.died (h : Reaches (start config) shown s)
    (dead : s.machine.worker.phase = .dead) :
    exporterShutdowns shown = 1 ∧ s.machine.answers = [] := by
  have once : exporterShutdowns shown ≤ 1 := by
    obtain ⟨roles, conduct⟩ := h.conduct
    exact conduct.once
  induction h with
  | refl => cases dead
  | @step s t shown events choice reached next ih =>
      have stride := stride_of_step next
      obtain ⟨roles, conduct⟩ := reached.conduct
      rw [exporterShutdowns_append] at once ⊢
      rcases stride.gone_cases (by rw [dead]; rfl) with
        same | ⟨-, o, c, rest, ran, panicked⟩ | ⟨now, out, -⟩
      · obtain ⟨one, none⟩ := ih (same.symm.trans dead) (by omega)
        refine ⟨by omega, ?_⟩
        cases stride.moves with
        | idle steady => exact steady.answers.trans none
        | @run o c rest ran =>
            rw [ran.machine]
            rcases (Chore.shares_run o s.machine c).answers with ⟨flushed, done, rfl⟩ | same
            · have owed : 1 ≤ Dues.shutting.system s := ran.le_system (w := .shutting)
              have sum := conduct.shutting
              split at sum
              · omega
              · omega
            · exact same.trans none
      · obtain ⟨flushed, done, rfl, panics⟩ := Chore.shutExporter_of_panicked panicked
        have none := conduct.answers_nil (ran.le_system (w := .shutting))
        have asked : exporterShutdowns events = 1 := by
          rw [ran.shown, Chore.run, panics]
          rfl
        refine ⟨by omega, ?_⟩
        rw [ran.machine, Chore.run, panics]
        exact none
      · cases dead.symm.trans out

/-- **A worker runs out of time only if a schedule delay from then on leads beyond the clock.** -/
theorem Reaches.ranOut (h : Reaches (start config) shown s)
    (out : s.machine.worker.phase = .outOfTime now) :
    SteadyClock.range ≤ now + s.machine.config.scheduleDelay := by
  induction h with
  | refl => cases out
  | step before next ih =>
      have stride := stride_of_step next
      rw [stride.config]
      rcases stride.gone_cases (by rw [out]; rfl) with same | ⟨dead, -⟩ | ⟨later, out', beyond⟩
      · exact ih (same.symm.trans out)
      · cases out.symm.trans dead
      · cases out.symm.trans out'
        exact beyond

/-! ### Nothing to begin with -/

/-- The worker has not begun to work, and what was asked of it is still asked. -/
structure Aground (s : System ρ) : Prop where
  phase : s.machine.worker.phase = .starting ∨ ∃ now, s.machine.worker.phase = .outOfTime now
  idle : s.machine.worker.chores = []
  requested : ∀ th ∈ s.threads, th.call = .flush → ∀ q, th.result = some q →
    s.machine.requested = some q

/-- A worker that cannot set when its first export is due does nothing else either. -/
lemma Aground.stride (h : s.Aground) (stride : s.Stride t events) (conduct : s.Conduct roles shown)
    (orderly : s.machine.Orderly)
    (long : SteadyClock.range ≤ s.machine.config.scheduleDelay) :
    t.Aground ∧ handed events = [] := by
  have running : s.machine.stopped = false := by
    refine orderly.running ?_
    rcases h.phase with phase | ⟨now, phase⟩ <;> rw [phase] <;> rfl
  have asked : ∀ th ∈ t.threads, th.call = .flush → ∀ q, th.result = some q →
      s.machine.requested = some q ∨ t.machine.requested = some q := by
    intro th known call q result
    rcases stride.result_flush conduct known call result with ⟨old, there, flush, given⟩ | ⟨_, reply⟩
    · exact .inl (h.requested old there flush q given)
    · exact .inr (reply.asks running)
  cases stride with
  | turn _ turn =>
      cases turn with
      | start phase reach =>
          rw [SteadyClock.after?_eq_none_iff.mpr (by omega)] at reach
          cases reach
      | startNever phase => exact ⟨⟨.inr ⟨_, rfl⟩, h.idle, h.requested⟩, rfl⟩
      | _ => exact absurd h.phase (by simp [*])
  | chore first => cases h.idle.symm.trans first
  | panic first => cases h.idle.symm.trans first
  | begin =>
      refine ⟨⟨h.phase, h.idle, ?_⟩, rfl⟩
      intro th known call q result
      rcases asked th known call q result with before | after
      · exact before
      · exact after
  | @advance o i th c rest found first =>
      have touches := Chore.touches_run o s.machine c
      refine ⟨⟨?_, touches.chores.trans h.idle, ?_⟩, touches.handed⟩
      · exact touches.phase_after
          (P := fun p => p = .starting ∨ ∃ now, p = .outOfTime now) h.phase (by simp)
      · intro other known call q result
        rcases asked other known call q result with before | after
        · exact (Chore.keeps_run o s.machine c).asked before
        · exact after

/-- **A delay that no clock can tell keeps the worker from everything**: no batch is ever handed on,
and no flush is ever resolved. -/
theorem Reaches.unscheduled (long : SteadyClock.range ≤ config.scheduleDelay)
    (h : Reaches (start config) shown s) :
    handed shown = [] ∧ ∀ th ∈ s.threads, th.call = .flush → ∀ q, th.result = some q →
      s.machine.outcome? q = none := by
  suffices s.Aground ∧ handed shown = [] by
    refine ⟨this.2, fun th known call q result => ?_⟩
    exact h.orderly.1.pending q (this.1.requested th known call q result)
  induction h with
  | refl => exact ⟨⟨.inl rfl, rfl, List.forall_mem_nil _⟩, rfl⟩
  | step before next ih =>
      obtain ⟨aground, nothing⟩ := ih
      obtain ⟨roles, conduct⟩ := before.conduct
      obtain ⟨aground, none⟩ := aground.stride (stride_of_step next) conduct before.orderly.1
        (before.flow.same ▸ long)
      exact ⟨aground, by rw [handed_append, nothing, none]; rfl⟩

/-- Settings with such a delay are accepted. -/
example : ∃ config, ({ scheduleDelay := SteadyClock.range } : Settings).build = .ok config ∧
    SteadyClock.range ≤ config.scheduleDelay := ⟨_, rfl, Nat.le_refl _⟩

/-! ### What is left behind -/

/-- Nobody but the worker resolves a flush. -/
lemma Stride.lost (stride : s.Stride t events) (conduct : s.Conduct roles shown)
    (role : roles[q]? = some .flush) (gone : s.machine.worker.phase.isGone = true)
    (idle : s.machine.worker.chores = []) (pending : s.machine.outcome? q = none) :
    t.machine.worker.phase.isGone = true ∧ t.machine.worker.chores = [] ∧
      t.machine.outcome? q = none := by
  have old := conduct.fits.machine.lt_of_role role
  cases stride with
  | turn _ turn => cases turn <;> simp [Phase.isGone, *] at gone
  | chore first => cases idle.symm.trans first
  | panic first => cases idle.symm.trans first
  | begin => exact ⟨gone, idle, pending⟩
  | @advance o i th c rest found first =>
      have touches := Chore.touches_run o s.machine c
      refine ⟨?_, touches.chores.trans idle, ?_⟩
      · exact touches.phase_after (P := (·.isGone = true)) gone nofun
      · rcases Chore.outcome_run o s.machine c old with same | ⟨success, rfl, -⟩
        · exact same.trans pending
        · exact absurd role (conduct.fits.next found first).not_flush

/-- **A flush that is pending when the worker is gone stays pending.** -/
theorem Reaches.lost (h : Reaches (start config) shown s)
    (gone : s.machine.worker.phase.isGone = true) {th : Thread ρ} (known : th ∈ s.threads)
    (flush : th.call = .flush) (result : th.result = some q)
    (pending : s.machine.outcome? q = none) (h' : Reaches s after t) :
    t.machine.outcome? q = none := by
  obtain ⟨roles, conduct⟩ := h.conduct
  have role := conduct.role_of_flush known flush result
  have idle := h.flow.sized.idle_of_isGone gone
  suffices stays : ∃ roles, t.Conduct roles (shown ++ after) ∧ roles[q]? = some .flush ∧
      t.machine.worker.phase.isGone = true ∧ t.machine.worker.chores = [] ∧
        t.machine.outcome? q = none by
    obtain ⟨_, -, -, -, -, pending⟩ := stays
    exact pending
  induction h' with
  | refl => exact ⟨roles, by rwa [List.append_nil], role, gone, idle, pending⟩
  | step between next ih =>
      obtain ⟨roles, conduct, role, gone, idle, pending⟩ := ih
      have stride := stride_of_step next
      obtain ⟨more, after⟩ := conduct.stride stride
      rw [← List.append_assoc]
      exact ⟨roles ++ more, after, role_append role, stride.lost conduct role gone idle pending⟩

end System

/-! ## The usual end -/

/-- What all calls do but shutdowns, if they do not settle the exporter's answer, owes nothing. -/
lemma Standing.isLight_or_settles {call : Call ρ} {result : Option Token} {chores : List (Chore ρ)}
    (h : Standing call result chores) (other : call ≠ .shutdown) :
    (∀ c ∈ chores, c.IsLight) ∨
      (∃ answer success, call = .settle answer success) ∧ ∀ c ∈ chores, c.Settles := by
  have signals : ∀ {chores : List (Chore ρ)}, Signals [] chores → ∀ c ∈ chores, c.IsLight := by
    intro chores h
    cases h with
    | raise => exact List.forall_mem_cons.mpr ⟨trivial, List.forall_mem_singleton.mpr trivial⟩
    | notify => exact List.forall_mem_singleton.mpr trivial
    | ended => exact List.forall_mem_nil _
  cases h with
  | enter | offer | report | readLength | compare | request =>
      exact .inl (List.forall_mem_singleton.mpr trivial)
  | emitted r h => exact .inl (signals h)
  | requested t h => exact .inl (signals h)
  | claim | ask | watch | farewell | panicked => exact absurd rfl other
  | settle answer success h => exact .inr ⟨⟨answer, success, rfl⟩, h⟩

/-- Whoever settles the exporter's answer and has a shutdown in custody is about to resolve it. -/
lemma Chore.Settles.finishes {c : Chore ρ} (settles : c.Settles) {done : Token}
    (owed : 0 < (Dues.of done).chore c) : ∃ f b, c.Finishes f done b := by
  cases c with
  | resolve t b =>
      have this : t = done := by
        by_contra different
        have free : (Dues.of done).chore (.resolve t b : Chore ρ) = 0 := if_neg different
        omega
      exact ⟨0, b, this, rfl⟩
  | call r b =>
      cases r with
      | stop => exact settles.elim
      | conclude f d =>
          have this : d = done := by
            by_contra different
            have free : (Dues.of done).chore (.call (.conclude f d) b : Chore ρ) = 0 := by
              simp [Dues.chore, Dues.reaction, Dues.of, different]
            omega
          exact ⟨f, b, rfl, this⟩
  | _ => exact settles.elim

/-- Of all calls but shutdowns, only one that settles the exporter's answer has part in resolving a
shutdown. -/
lemma Standing.finishes {call : Call ρ} {result : Option Token} {chores : List (Chore ρ)}
    (h : Standing call result chores) (other : call ≠ .shutdown) {c : Chore ρ} (mem : c ∈ chores)
    {done : Token} (owed : 0 < (Dues.of done).chore c) :
    (∃ answer success, call = .settle answer success) ∧ ∃ f b, c.Finishes f done b := by
  rcases h.isLight_or_settles other with light | ⟨settle, settles⟩
  · rw [(Dues.of done).chore_light (light c mem)] at owed
    cases owed
  · exact ⟨settle, (settles c mem).finishes owed⟩

namespace System

variable {s : System ρ} {roles : List Role} {shown : List (Event ρ)} {i : Nat} {done : Token}
  {flush? : Option Token} {config : Config}

/-- The completion of a shutdown waits for the one that the exporter's shutdown returned. -/
def WaitsForExporter (s : System ρ) (done : Token) : Prop :=
  ∃ answer flushed, s.machine.answers = [answer] ∧ s.machine.outcome? answer = none ∧
    s.machine.store.WaitsAt answer (.conclude flushed done)

/-- That one was resolved, and with it the completion of the shutdown is about to be. -/
def IsConcluding (s : System ρ) (done : Token) : Prop :=
  ∃ th ∈ s.threads, (∃ answer success, th.call = .settle answer success) ∧
    ∃ c ∈ th.chores, ∃ f b, c.Finishes f done b

/-- No shutdown that has lost, or that has returned, has the completion in custody. -/
lemma Settling.no_shutdown (h : s.Settling roles shown i done flush?) {th : Thread ρ}
    (found : s.threads[i]? = some th) (ended : th.chores = []) {other : Thread ρ}
    (known : other ∈ s.threads) {c : Chore ρ} (mem : c ∈ other.chores)
    (owed : 0 < (Dues.of done).chore c) : other.call ≠ .shutdown := by
  intro shutdown
  obtain ⟨j, at_j⟩ := List.mem_iff_getElem?.mp known
  by_cases same : j = i
  · subst same
    cases found.symm.trans at_j
    rw [ended] at mem
    cases mem
  · rcases h.won.losers j other same at_j shutdown with claims | ⟨nothing, -⟩
    · rw [claims] at mem
      cases List.mem_singleton.mp mem
      cases owed
    · rw [nothing] at mem
      cases mem

/-- What is left of a shutdown when the worker has come to its end. -/
lemma Settling.leaves (h : s.Settling roles shown i done flush?) (orderly : s.machine.Orderly)
    (signed : s.machine.Signed) (atEnd : s.machine.IsOver) {th : Thread ρ}
    (found : s.threads[i]? = some th) (ended : th.chores = []) (result : th.result = some done) :
    s.machine.outcome? done ≠ none ∨ s.WaitsForExporter done ∨ s.IsConcluding done := by
  have custody : s.InCustody done := by
    rcases h.custody with (dead | ⟨broken, found', -, none, -⟩) | custody
    · cases atEnd.1.symm.trans dead
    · cases found.symm.trans found'
      cases none.symm.trans result
    · exact custody
  by_cases pending : s.machine.outcome? done = none
  · right
    rw [InCustody, if_pos pending] at custody
    rcases (Dues.of done).exists_of_pos (s := s) (by omega) with
      ⟨c, mem | ⟨other, known, mem⟩, owed⟩ | ⟨t, r, waits, owed⟩
    · rw [atEnd.2] at mem
      cases mem
    · right
      have not_shutdown := h.no_shutdown found ended known mem owed
      obtain ⟨settles, f, b, finishes⟩ :=
        (h.conduct.threads other known).finishes not_shutdown mem owed
      exact ⟨other, known, settles, c, mem, f, b, finishes⟩
    · left
      have unresolved : s.machine.outcome? t = none := waits.outcome?
      have told := h.tells.waiting t r waits
      cases r with
      | stop f d =>
          obtain rfl : t = f := h.conduct.posted t _ waits
          have minds := (h.minded t told.1).2
          exact absurd unresolved (atEnd.resolved signed orderly minds)
      | conclude f d =>
          obtain ⟨-, rfl, answers, -⟩ := told
          exact ⟨t, f, answers, unresolved, waits⟩
  · exact .inl pending

/-- What holds of the completions that calls have returned. -/
structure Orphanless (shown : List (Event ρ)) (s : System ρ) : Prop where
  /-- A flush that is pending is requested, or the worker has taken it. -/
  minded : ∀ th ∈ s.threads, th.call = .flush → ∀ q, th.result = some q →
    s.machine.outcome? q = none → s.machine.requested = some q ∨ s.machine.Owes q
  /-- The worker has taken one at a time. -/
  one : ∀ th ∈ s.threads, ∀ th' ∈ s.threads, th.call = .flush → th'.call = .flush →
    ∀ q q', th.result = some q → th'.result = some q' →
      s.machine.Owes q → s.machine.Owes q' → q = q'
  /-- At its end the worker leaves no flush behind. -/
  atEnd : s.machine.IsOver → ∀ th ∈ s.threads, th.call = .flush → ∀ q, th.result = some q →
    s.machine.outcome? q ≠ none
  /-- Then a shutdown that has returned waits for nothing but the exporter. -/
  concluded : s.machine.IsOver → ∀ th ∈ s.threads, th.call = .shutdown → th.isOver = true →
    ∀ done, th.result = some done →
      s.machine.outcome? done ≠ none ∨ s.WaitsForExporter done ∨ s.IsConcluding done
  /-- The worker ends in no other way, unless a panic ends it. -/
  ends : (∀ o, s.machine.workerStep o = none) →
    s.machine.IsOver ∨ s.machine.worker.phase.isGone = true
  /-- That is either a panic of the exporter's shutdown, which has returned nothing. -/
  died : s.machine.worker.phase = .dead → exporterShutdowns shown = 1 ∧ s.machine.answers = []
  /-- Or the clock could not tell when the next export would be due. -/
  ranOut : ∀ now, s.machine.worker.phase = .outOfTime now →
    SteadyClock.range ≤ now + s.machine.config.scheduleDelay

/-- **No completion is orphaned**, whatever calls and worker do, unless the exporter's shutdown
panics on the worker's thread, or the schedule delay is too long for the clock. -/
theorem Reaches.orphanless (h : Reaches (start config) shown s) : s.Orphanless shown := by
  obtain ⟨roles, conduct⟩ := h.conduct
  have sized := h.flow.sized
  have orderly := h.orderly.1
  refine ⟨h.mindful, ?_, ?_, ?_, s.machine.ends_of_workerStep, h.died, fun _ => h.ranOut⟩
  · intro th known th' known' flush flush' q q' result result' owed owed'
    exact conduct.owes_unique sized (conduct.role_of_flush known flush result)
      (conduct.role_of_flush known' flush' result') owed owed'
  · intro atEnd th known flush q result
    exact atEnd.resolved h.signed orderly (h.mindful th known flush q result)
  · intro atEnd th known shutdown ended done result
    have ended : th.chores = [] := List.isEmpty_iff.mp ended
    cases down : s.machine.isShutdown with
    | false =>
        have claims := conduct.unclaimed down th known shutdown
        cases ended.symm.trans claims
    | true =>
        obtain ⟨before, v, i, u, after, rfl, toWin, wins, fromWin⟩ := h.claimed down
        obtain ⟨_, flush?, settling, -⟩ := wins.reaches toWin fromWin
        obtain ⟨j, found⟩ := List.mem_iff_getElem?.mp known
        by_cases same : j = i
        · subst same
          obtain ⟨winner, found', -, returns⟩ := settling.won.winner
          cases found.symm.trans found'
          rcases returns with returns | ⟨-, none, -⟩
          · cases result.symm.trans returns
            exact settling.leaves orderly h.signed atEnd found ended result
          · cases none.symm.trans result
        · left
          rcases settling.won.losers j th same found shutdown with claims | ⟨-, q, returns, success⟩
          · cases ended.symm.trans claims
          · cases result.symm.trans returns
            rw [success]
            rintro ⟨⟩

end System

/-! ## The usual end, and another -/

/-- The worker has taken a flush when a shutdown asks for another.  It goes on for `n` steps at the
time at which its first export is due, and the exporter's shutdown ends as given. -/
def overlapping (shutdown : ShutdownAnswer) (n : Nat) : List (Choice Nat) :=
  [.begin .flush] ++ List.replicate 3 (.advance 0 {}) ++ List.replicate 4 (.work {}) ++
  [.begin .shutdown] ++ List.replicate 5 (.advance 1 {}) ++
  List.replicate n (.work { now := 1000, shutdown })

theorem orphanless_overlapping : ∃ shown, ∃ s : System Nat,
    System.Reaches (.start narrowConfig) shown s ∧ s.machine.worker.phase = .finished ∧
      s.machine.worker.chores = [] ∧ s.threads.all Thread.isOver = true ∧
      (s.threads.map fun th => th.result.map s.machine.outcome?) = [some (some true), some none] ∧
      s.machine.answers.map s.machine.outcome? = [none] ∧ s.Orphanless shown := by
  obtain ⟨shown, s, h, phase, idle, returned, outcomes, answers⟩ :=
    System.exists_reaches (s := .start narrowConfig) (P := fun (s, _) =>
      s.machine.worker.phase = .finished ∧ s.machine.worker.chores = [] ∧
        s.threads.all Thread.isOver = true ∧
        (s.threads.map fun th => th.result.map s.machine.outcome?) =
          [some (some true), some none] ∧
        s.machine.answers.map s.machine.outcome? = [none])
      (overlapping (.returned none) 31) (by decide +kernel)
  exact ⟨shown, s, h, phase, idle, returned, outcomes, answers, System.Reaches.orphanless h⟩

/-- **A panic of the exporter's shutdown may orphan completions.**  The worker is gone, the shutdown
has returned and waits for an exporter that has returned nothing, and a later flush is requested
that nobody will ever take. -/
theorem orphans : ∃ shown, ∃ s : System Nat, System.Reaches (.start narrowConfig) shown s ∧
    (∀ o, s.machine.workerStep o = none) ∧ s.threads.all Thread.isOver = true ∧
      (s.threads.map fun th => (th.result, th.result.map s.machine.outcome?)) =
        [(some 0, some (some true)), (some 1, some none), (some 3, some none)] ∧
      s.machine.answers = [] ∧
      ∀ after t, System.Reaches s after t → t.machine.outcome? 3 = none := by
  obtain ⟨shown, s, h, gone, returned, outcomes, answers, pending, th, known, flush, result⟩ :=
    System.exists_reaches (s := .start narrowConfig) (P := fun (s, _) =>
      s.machine.worker.phase.isGone = true ∧ s.threads.all Thread.isOver = true ∧
        (s.threads.map fun th => (th.result, th.result.map s.machine.outcome?)) =
          [(some 0, some (some true)), (some 1, some none), (some 3, some none)] ∧
        s.machine.answers = [] ∧ s.machine.outcome? 3 = none ∧
        ∃ th ∈ s.threads, th.call = .flush ∧ th.result = some 3)
      (overlapping .panicked 22 ++ [.begin .flush] ++ List.replicate 3 (.advance 2 {}))
      (by decide +kernel)
  have idle := h.flow.sized.idle_of_isGone gone
  refine ⟨shown, s, h, Machine.workerStep_of_isGone gone idle, returned, outcomes, answers, ?_⟩
  intro after t later
  exact h.lost gone known flush result pending later

end ProfilePipeline.Batch
