import Mathlib.Tactic.Common
import ProfilePipeline.Batch.Threads

/-!
# What a step can do

The steps of the batch processor turned into relations, one rule per branch, so that a property of
every step is proved rule by rule and nothing else has to look into the step functions.

**The cycle.**  `Machine.Turn` has a rule for each way the worker's cycle can go on, with the
conditions under which it does; `Machine.turn_of_phaseStep` says that there is no other.

**Chores.**  `Chore.Touches` is what a chore leaves alone and what it may add; no chore takes a
record out of the queue or looks at the batch.

**Everything else.**  `System.Stride` has a rule for each way the whole system can go on.
-/

namespace ProfilePipeline.Batch

open Completion (Token)

variable {ρ : Type}

/-! ## What is shown -/

/-- The records that the queue took. -/
def accepted (shown : List (Event ρ)) : List ρ :=
  shown.filterMap fun
    | .accepted r => some r
    | _ => none

/-- The batches that the exporter was called with. -/
def handed (shown : List (Event ρ)) : List (List ρ) :=
  shown.filterMap fun
    | .handed batch => some batch
    | _ => none

/-- The batches of which the export is over. -/
def exported (shown : List (Event ρ)) : List (List ρ) :=
  shown.filterMap fun
    | .exported batch _ => some batch
    | _ => none

lemma accepted_append (shown events : List (Event ρ)) :
    accepted (shown ++ events) = accepted shown ++ accepted events :=
  List.filterMap_append

lemma handed_append (shown events : List (Event ρ)) :
    handed (shown ++ events) = handed shown ++ handed events :=
  List.filterMap_append

lemma exported_append (shown events : List (Event ρ)) :
    exported (shown ++ events) = exported shown ++ exported events :=
  List.filterMap_append

namespace Machine

/-! ## The cycle -/

/-- The ways in which the cycle of the worker goes on. -/
inductive Turn (o : Surroundings) (m : Machine ρ) : Machine ρ → List (Event ρ) → Prop where
  | start {nextExport : Nat} (phase : m.worker.phase = .starting)
      (reach : SteadyClock.after? o.now m.config.scheduleDelay = some nextExport) :
      Turn o m ((m.dueAt nextExport).goto .head) []
  | startNever (phase : m.worker.phase = .starting)
      (reach : SteadyClock.after? o.now m.config.scheduleDelay = none) :
      Turn o m (m.goto (.outOfTime o.now)) []
  | goOn (phase : m.worker.phase = .head) (going : m.continueWork = true) :
      Turn o m (m.goto .taking) []
  | quit (phase : m.worker.phase = .head) (going : m.continueWork = false) :
      Turn o m (m.goto .leaving) []
  | takeNothing (phase : m.worker.phase = .taking) (request : m.requested = none) :
      Turn o m (m.goto .filling) []
  | takeRequest {t : Token} (phase : m.worker.phase = .taking) (request : m.requested = some t) :
      Turn o m ({ m with requested := none }.goto (.counting t)) []
  | count {t : Token} (phase : m.worker.phase = .counting t) :
      Turn o m (m.goto (.draining t m.queue.length true)) []
  | drained {t : Token} {success : Bool} (phase : m.worker.phase = .draining t 0 success) :
      Turn o m (m.goto (.handing (.rest t success))) []
  | drainedEarly {t : Token} {remaining : Nat} {success : Bool}
      (phase : m.worker.phase = .draining t (remaining + 1) success) (queue : m.queue = []) :
      Turn o m (m.goto (.handing (.rest t success))) []
  | drain {t : Token} {remaining : Nat} {success : Bool} {r : ρ} {rest : List ρ}
      (phase : m.worker.phase = .draining t (remaining + 1) success) (queue : m.queue = r :: rest)
      (room : m.worker.batch.length + 1 < m.config.batchLimit) :
      Turn o m ((m.take r rest).goto (.draining t remaining success)) []
  | drainFull {t : Token} {remaining : Nat} {success : Bool} {r : ρ} {rest : List ρ}
      (phase : m.worker.phase = .draining t (remaining + 1) success) (queue : m.queue = r :: rest)
      (full : m.config.batchLimit ≤ m.worker.batch.length + 1) :
      Turn o m ((m.take r rest).goto (.handing (.chunk t remaining success))) []
  | pass {p : Purpose} (phase : m.worker.phase = .handing p) (batch : m.worker.batch = []) :
      Turn o m (m.resume true p) []
  | hand {p : Purpose} (phase : m.worker.phase = .handing p) (batch : m.worker.batch ≠ []) :
      Turn o m (m.goto (.exporting p)) [.handed m.worker.batch]
  | succeed {p : Purpose} (phase : m.worker.phase = .exporting p)
      (outcome : o.exported = .succeeded) :
      Turn o m (m.goto (.tallying p)) [.exported m.worker.batch o.exported]
  | fail {p : Purpose} (phase : m.worker.phase = .exporting p)
      (outcome : o.exported ≠ .succeeded) :
      Turn o m (m.goto (.gauging p false)) [.exported m.worker.batch o.exported]
  | tally {p : Purpose} (phase : m.worker.phase = .tallying p) :
      Turn o m (m.goto (.gauging p true))
        [.measured (.processed m.worker.batch.length false)]
  | gauge {p : Purpose} {success : Bool} (phase : m.worker.phase = .gauging p success) :
      Turn o m ({ m with worker := { m.worker with batch := [] } }.resume success p)
        [.measured (.queueSize m.queue.length)]
  | filledUp (phase : m.worker.phase = .filling)
      (full : m.config.batchLimit ≤ m.worker.batch.length) :
      Turn o m (m.goto .deciding) []
  | filledAll (phase : m.worker.phase = .filling) (queue : m.queue = [])
      (room : m.worker.batch.length < m.config.batchLimit) :
      Turn o m (m.goto .deciding) []
  | fill {r : ρ} {rest : List ρ} (phase : m.worker.phase = .filling) (queue : m.queue = r :: rest)
      (room : m.worker.batch.length < m.config.batchLimit) :
      Turn o m (m.take r rest) []
  | due (phase : m.worker.phase = .deciding)
      (why : m.config.batchLimit ≤ m.worker.batch.length ∨ m.isDue o.now = true) :
      Turn o m (m.goto (.handing .scheduled)) []
  | notDue (phase : m.worker.phase = .deciding)
      (room : m.worker.batch.length < m.config.batchLimit) (early : m.isDue o.now = false) :
      Turn o m (m.goto .checking) []
  | schedule {nextExport : Nat} (phase : m.worker.phase = .scheduling)
      (reach : SteadyClock.after? o.now m.config.scheduleDelay = some nextExport) :
      Turn o m ((m.dueAt nextExport).goto .checking) []
  | runOut (phase : m.worker.phase = .scheduling)
      (reach : SteadyClock.after? o.now m.config.scheduleDelay = none) :
      Turn o m (m.goto (.outOfTime o.now)) []
  | settle (phase : m.worker.phase = .checking) (queue : m.queue = [])
      (early : m.isDue o.now = false) : Turn o m (m.goto .announcing) []
  | again (phase : m.worker.phase = .checking)
      (why : m.queue ≠ [] ∨ m.isDue o.now = true) : Turn o m (m.goto .head) []
  | announce (phase : m.worker.phase = .announcing) :
      Turn o m ({ m with needed := some m.lacking }.goto .testing) []
  | sleep (phase : m.worker.phase = .testing) (signal : m.signaled = false)
      (short : m.queue.length < m.lacking) : Turn o m (m.goto .asleep) []
  | stayAwake (phase : m.worker.phase = .testing)
      (why : m.signaled = true ∨ m.lacking ≤ m.queue.length) :
      Turn o m ({ m with signaled := false }.goto .retracting) []
  | timeUp (phase : m.worker.phase = .asleep) (late : m.isDue o.now = true) :
      Turn o m (m.goto .waking) []
  | wake (phase : m.worker.phase = .waking) :
      Turn o m ({ m with signaled := false }.goto .retracting) []
  | retract (phase : m.worker.phase = .retracting) :
      Turn o m ({ m with needed := none }.goto .head) []
  | leave (phase : m.worker.phase = .leaving) (request : m.requested = none) :
      Turn o m ({ m with stopped := true, requested := none }.goto .finished) []
  | leaveRequest {t : Token} (phase : m.worker.phase = .leaving) (request : m.requested = some t) :
      Turn o m ({ m with stopped := true, requested := none }.goto (.answering t)) []
  | answer {t : Token} (phase : m.worker.phase = .answering t) :
      Turn o m { m with worker :=
        { m.worker with phase := .finished, chores := [.resolve t m.queue.isEmpty] } } []

/-- **The cycle goes on in no other way.** -/
theorem turn_of_phaseStep {o : Surroundings} {m m' : Machine ρ} {events : List (Event ρ)}
    (h : m.phaseStep o = some (m', events)) : Turn o m m' events := by
  rw [phaseStep] at h
  cases phase : m.worker.phase with
  | starting =>
      simp only [phase, Machine.schedule] at h
      split at h
      · cases h
        exact .start phase ‹_›
      · cases h
        exact .startNever phase ‹_›
  | head =>
      simp only [phase, Option.some.injEq, Prod.mk.injEq] at h
      obtain ⟨rfl, rfl⟩ := h
      cases going : m.continueWork with
      | true => exact .goOn phase going
      | false => exact .quit phase going
  | taking =>
      cases request : m.requested with
      | none =>
          simp only [phase, request] at h
          cases h
          exact .takeNothing phase request
      | some t =>
          simp only [phase, request] at h
          cases h
          exact .takeRequest phase request
  | counting t =>
      simp only [phase] at h
      cases h
      exact .count phase
  | draining t remaining success =>
      cases remaining with
      | zero =>
          simp only [phase] at h
          cases h
          exact .drained phase
      | succ remaining =>
          cases queue : m.queue with
          | nil =>
              simp only [phase, queue] at h
              cases h
              exact .drainedEarly phase queue
          | cons r rest =>
              simp only [phase, queue] at h
              cases h
              by_cases full : m.config.batchLimit ≤ m.worker.batch.length + 1
              · rw [if_pos (by simpa [isFull, take] using full)]
                exact .drainFull phase queue full
              · rw [if_neg (by simpa [isFull, take] using full)]
                exact .drain phase queue (by omega)
  | handing p =>
      simp only [phase] at h
      split at h
      · cases h
        exact .pass phase (List.isEmpty_iff.mp ‹_›)
      · cases h
        exact .hand phase fun batch => absurd (List.isEmpty_iff.mpr batch) ‹_›
  | exporting p =>
      simp only [phase] at h
      cases h
      split
      · exact .succeed phase ‹_›
      · exact .fail phase ‹_›
  | tallying p =>
      simp only [phase] at h
      cases h
      exact .tally phase
  | gauging p success =>
      simp only [phase] at h
      cases h
      exact .gauge phase
  | filling =>
      simp only [phase, isFull, decide_eq_true_eq] at h
      split at h
      · cases h
        exact .filledUp phase ‹_›
      · rename_i room
        cases queue : m.queue with
        | nil =>
            simp only [queue] at h
            cases h
            exact .filledAll phase queue (by omega)
        | cons r rest =>
            simp only [queue] at h
            cases h
            exact .fill phase queue (by omega)
  | deciding =>
      simp only [phase] at h
      cases h
      split
      · rename_i why
        exact .due phase (by simpa [isFull] using why)
      · rename_i why
        simp only [isFull, Bool.or_eq_true, decide_eq_true_eq, not_or, Bool.not_eq_true] at why
        exact .notDue phase (by omega) why.2
  | scheduling =>
      simp only [phase, Machine.schedule] at h
      split at h
      · cases h
        exact .schedule phase ‹_›
      · cases h
        exact .runOut phase ‹_›
  | checking =>
      simp only [phase] at h
      cases h
      split
      · rename_i why
        simp only [Bool.and_eq_true, List.isEmpty_iff, Bool.not_eq_eq_eq_not, Bool.not_true] at why
        exact .settle phase why.1 why.2
      · rename_i why
        refine .again phase ?_
        simpa [Classical.or_iff_not_imp_left] using why
  | announcing =>
      simp only [phase] at h
      cases h
      exact .announce phase
  | testing =>
      simp only [phase] at h
      split at h
      · rename_i why
        cases h
        simp only [Bool.and_eq_true, Bool.not_eq_eq_eq_not, Bool.not_true,
          decide_eq_true_eq] at why
        exact .sleep phase why.1 why.2
      · rename_i why
        cases h
        refine .stayAwake phase ?_
        simpa [Classical.or_iff_not_imp_left] using why
  | asleep =>
      simp only [phase] at h
      split at h
      · cases h
        exact .timeUp phase ‹_›
      · cases h
  | waking =>
      simp only [phase] at h
      cases h
      exact .wake phase
  | retracting =>
      simp only [phase] at h
      cases h
      exact .retract phase
  | leaving =>
      cases request : m.requested with
      | none =>
          simp only [phase, request] at h
          cases h
          exact .leave phase request
      | some t =>
          simp only [phase, request] at h
          cases h
          exact .leaveRequest phase request
  | answering t =>
      simp only [phase] at h
      cases h
      exact .answer phase
  | finished | dead | outOfTime =>
      simp only [phase] at h
      cases h

end Machine

/-! ## Chores -/

/-- What a chore leaves as it is, and what it may add. -/
structure Chore.Touches (m : Machine ρ) (e : Effect ρ) : Prop where
  config : e.machine.config = m.config
  needed : e.machine.needed = m.needed
  batch : e.machine.worker.batch = m.worker.batch
  chores : e.machine.worker.chores = m.worker.chores
  phase : e.machine.worker.phase = m.worker.phase ∨
    m.worker.phase = .asleep ∧ e.machine.worker.phase = .waking
  queue : e.machine.queue = m.queue ++ accepted e.events
  bounded : m.queue.length ≤ m.config.queueLimit → e.machine.queue.length ≤ m.config.queueLimit
  handed : handed e.events = []
  exported : exported e.events = []
  refused : ∀ r, .refused r ∈ e.events → m.config.queueLimit ≤ m.queue.length

namespace Chore

/-- A chore that has nothing to do with the queue. -/
lemma Touches.quiet {m : Machine ρ} {e : Effect ρ} (config : e.machine.config = m.config)
    (needed : e.machine.needed = m.needed) (queue : e.machine.queue = m.queue)
    (worker : e.machine.worker = m.worker) (accepted : accepted e.events = [])
    (handed : Batch.handed e.events = []) (exported : Batch.exported e.events = [])
    (refused : ∀ r, .refused r ∉ e.events) : Touches m e where
  config := config
  needed := needed
  batch := by rw [worker]
  chores := by rw [worker]
  phase := .inl (by rw [worker])
  queue := by rw [queue, accepted, List.append_nil]
  bounded h := by rwa [queue]
  handed := handed
  exported := exported
  refused r h := absurd h (refused r)

lemma touches_await (m : Machine ρ) (t : Token) (r : Reaction) : Touches m (m.await t r) := by
  rw [Machine.await]
  split
  · exact .quiet rfl rfl rfl rfl rfl rfl rfl (by simp)
  · exact .quiet rfl rfl rfl rfl rfl rfl rfl (by simp)

/-- Asking for a flush changes nothing but completions and the request. -/
lemma requestFlush_same (m : Machine ρ) :
    m.requestFlush.1.config = m.config ∧ m.requestFlush.1.needed = m.needed ∧
      m.requestFlush.1.queue = m.queue ∧ m.requestFlush.1.worker = m.worker := by
  rw [Machine.requestFlush]
  split
  · exact ⟨rfl, rfl, rfl, rfl⟩
  · split
    · exact ⟨rfl, rfl, rfl, rfl⟩
    · exact ⟨rfl, rfl, rfl, rfl⟩

/-- **What a chore does to records**: nothing, but for the one that offers a record to the
queue. -/
theorem touches_run (o : Surroundings) (m : Machine ρ) (c : Chore ρ) : Touches m (c.run o m) := by
  cases c with
  | resolve t success =>
      have events : ((resolve t success).run o m).events = [.resolved t success] ∨
          ((resolve t success).run o m).events = [] := by
        by_cases pending : m.outcome? t = none
        · exact .inl (if_pos pending)
        · exact .inr (if_neg pending)
      rcases events with events | events
      · exact .quiet rfl rfl rfl rfl (by rw [events]; rfl) (by rw [events]; rfl)
          (by rw [events]; rfl) (by simp [events])
      · exact .quiet rfl rfl rfl rfl (by rw [events]; rfl) (by rw [events]; rfl)
          (by rw [events]; rfl) (by simp [events])
  | call r success =>
      cases r <;> exact .quiet rfl rfl rfl rfl rfl rfl rfl (by simp [run])
  | halt => exact .quiet rfl rfl rfl rfl rfl rfl rfl (by simp [run])
  | raise => exact .quiet rfl rfl rfl rfl rfl rfl rfl (by simp [run])
  | notify =>
      by_cases asleep : m.worker.phase = .asleep
      · rw [run, if_pos asleep]
        exact ⟨rfl, rfl, rfl, rfl, .inr ⟨asleep, rfl⟩, (List.append_nil _).symm, id, rfl, rfl,
          by simp⟩
      · rw [run, if_neg asleep]
        exact .quiet rfl rfl rfl rfl rfl rfl rfl (by simp)
  | shutExporter flushed done =>
      rw [run]
      split
      · exact .quiet rfl rfl rfl rfl rfl rfl rfl (by simp)
      · exact .quiet rfl rfl rfl rfl rfl rfl rfl (by simp)
  | attach answer flushed done => exact touches_await m answer (.conclude flushed done)
  | enter r => exact .quiet rfl rfl rfl rfl rfl rfl rfl (by simp [run])
  | offer r =>
      by_cases room : m.queue.length < m.config.queueLimit
      · rw [run, if_pos room]
        refine ⟨rfl, rfl, rfl, rfl, .inl rfl, rfl, fun _ => ?_, rfl, rfl, by simp⟩
        rw [List.length_append, List.length_singleton]
        exact room
      · rw [run, if_neg room]
        refine ⟨rfl, rfl, rfl, rfl, .inl rfl, (List.append_nil _).symm, id, rfl, rfl, ?_⟩
        intro _ _
        exact Nat.not_lt.mp room
  | report => exact .quiet rfl rfl rfl rfl rfl rfl rfl (by simp [run])
  | readLength => exact .quiet rfl rfl rfl rfl rfl rfl rfl (by simp [run])
  | compare length => exact .quiet rfl rfl rfl rfl rfl rfl rfl (by simp [run])
  | claim =>
      rw [run]
      split
      · exact .quiet rfl rfl rfl rfl rfl rfl rfl (by simp)
      · exact .quiet rfl rfl rfl rfl rfl rfl rfl (by simp)
  | request done =>
      obtain ⟨config, needed, queue, worker⟩ := requestFlush_same m
      cases done with
      | none => exact .quiet config needed queue worker rfl rfl rfl (by simp [run])
      | some done => exact .quiet config needed queue worker rfl rfl rfl (by simp [run])
  | watch flushed done => exact touches_await m flushed (.stop flushed done)

/-- What holds of the phase after a chore as well, if it outlasts being woken. -/
lemma Touches.phase_after {P : Phase → Prop} {m : Machine ρ} {e : Effect ρ} (h : Touches m e)
    (before : P m.worker.phase) (wakes : P .asleep → P .waking) : P e.machine.worker.phase := by
  rcases h.phase with same | ⟨asleep, waking⟩
  · rwa [same]
  · rw [asleep] at before
    rw [waking]
    exact wakes before

lemma Touches.phase_before {P : Phase → Prop} {m : Machine ρ} {e : Effect ρ} (h : Touches m e)
    (after : P e.machine.worker.phase) (wakes : P .waking → P .asleep) : P m.worker.phase := by
  rcases h.phase with same | ⟨asleep, waking⟩
  · rwa [← same]
  · rw [waking] at after
    rw [asleep]
    exact wakes after

/-- Which chore changes what callers and worker share. -/
structure Shares (m : Machine ρ) (c : Chore ρ) (e : Effect ρ) : Prop where
  queue : (∃ r, c = offer r) ∨ e.machine.queue = m.queue
  signaled : c = raise ∨ e.machine.signaled = m.signaled
  requested : (∃ done, c = request done) ∨ e.machine.requested = m.requested
  continueWork : c = halt ∨ e.machine.continueWork = m.continueWork
  isShutdown : c = claim ∨ e.machine.isShutdown = m.isShutdown
  answers : (∃ flushed done, c = shutExporter flushed done) ∨ e.machine.answers = m.answers

lemma Shares.same {m : Machine ρ} {c : Chore ρ} {e : Effect ρ} (queue : e.machine.queue = m.queue)
    (signaled : e.machine.signaled = m.signaled) (requested : e.machine.requested = m.requested)
    (continueWork : e.machine.continueWork = m.continueWork)
    (isShutdown : e.machine.isShutdown = m.isShutdown) (answers : e.machine.answers = m.answers) :
    Shares m c e :=
  ⟨.inr queue, .inr signaled, .inr requested, .inr continueWork, .inr isShutdown, .inr answers⟩

lemma shares_await (m : Machine ρ) (c : Chore ρ) (t : Token) (r : Reaction) :
    Shares m c (m.await t r) := by
  rw [Machine.await]
  split
  · exact .same rfl rfl rfl rfl rfl rfl
  · exact .same rfl rfl rfl rfl rfl rfl

theorem shares_run (o : Surroundings) (m : Machine ρ) (c : Chore ρ) : Shares m c (c.run o m) := by
  cases c with
  | offer r =>
      rw [run]
      split
      · exact ⟨.inl ⟨r, rfl⟩, .inr rfl, .inr rfl, .inr rfl, .inr rfl, .inr rfl⟩
      · exact .same rfl rfl rfl rfl rfl rfl
  | raise => exact ⟨.inr rfl, .inl rfl, .inr rfl, .inr rfl, .inr rfl, .inr rfl⟩
  | halt => exact ⟨.inr rfl, .inr rfl, .inr rfl, .inl rfl, .inr rfl, .inr rfl⟩
  | claim =>
      rw [run]
      split
      · exact .same rfl rfl rfl rfl rfl rfl
      · exact ⟨.inr rfl, .inr rfl, .inr rfl, .inr rfl, .inl rfl, .inr rfl⟩
  | shutExporter flushed done =>
      rw [run]
      split
      · exact .same rfl rfl rfl rfl rfl rfl
      · exact ⟨.inr rfl, .inr rfl, .inr rfl, .inr rfl, .inr rfl, .inl ⟨flushed, done, rfl⟩⟩
  | call r success => cases r <;> exact .same rfl rfl rfl rfl rfl rfl
  | notify =>
      rw [run]
      split
      · exact .same rfl rfl rfl rfl rfl rfl
      · exact .same rfl rfl rfl rfl rfl rfl
  | attach | watch => exact shares_await ..
  | request done =>
      obtain ⟨queue, signaled, continueWork, isShutdown, answers⟩ :
          m.requestFlush.1.queue = m.queue ∧ m.requestFlush.1.signaled = m.signaled ∧
            m.requestFlush.1.continueWork = m.continueWork ∧
            m.requestFlush.1.isShutdown = m.isShutdown ∧
            m.requestFlush.1.answers = m.answers := by
        rw [Machine.requestFlush]
        split
        · exact ⟨rfl, rfl, rfl, rfl, rfl⟩
        · split
          · exact ⟨rfl, rfl, rfl, rfl, rfl⟩
          · exact ⟨rfl, rfl, rfl, rfl, rfl⟩
      cases done with
      | none =>
          exact ⟨.inr queue, .inr signaled, .inl ⟨none, rfl⟩, .inr continueWork, .inr isShutdown,
            .inr answers⟩
      | some done =>
          exact ⟨.inr queue, .inr signaled, .inl ⟨some done, rfl⟩, .inr continueWork,
            .inr isShutdown, .inr answers⟩
  | _ => exact .same rfl rfl rfl rfl rfl rfl

lemma isShutdown_claim (o : Surroundings) (m : Machine ρ) :
    (claim.run o m).machine.isShutdown = true := by
  rw [run]
  split
  · assumption
  · rfl

/-- A processor that is in service after a chore was so before. -/
lemma isShutdown_of_run {o : Surroundings} {m : Machine ρ} {c : Chore ρ}
    (up : (c.run o m).machine.isShutdown = false) : c ≠ claim ∧ m.isShutdown = false := by
  have down := isShutdown_claim o m
  rcases (shares_run o m c).isShutdown with rfl | same
  · cases down.symm.trans up
  · refine ⟨?_, same.symm.trans up⟩
    rintro rfl
    cases down.symm.trans up

/-- Only the exporter's shutdown panics. -/
lemma shutExporter_of_panicked {o : Surroundings} {m : Machine ρ} {c : Chore ρ}
    (h : (c.run o m).panicked = true) :
    ∃ flushed done, c = shutExporter flushed done ∧ o.shutdown = .panicked := by
  have await : ∀ {t r}, (m.await t r).panicked = false := by
    intro t r
    rw [Machine.await]
    split
    · rfl
    · rfl
  cases c with
  | shutExporter flushed done =>
      cases answer : o.shutdown with
      | panicked => exact ⟨flushed, done, rfl, rfl⟩
      | returned outcome =>
          rw [run, answer] at h
          cases h
  | attach => cases await.symm.trans h
  | watch => cases await.symm.trans h
  | call r => cases r <;> cases h
  | request done => cases done <;> cases h
  | offer | claim =>
      rw [run] at h
      split at h
      · cases h
      · cases h
  | _ => cases h

lemma chores_of_panicked {o : Surroundings} {m : Machine ρ} {c : Chore ρ}
    (h : (c.run o m).panicked = true) : (c.run o m).chores = [] := by
  obtain ⟨flushed, done, rfl, answer⟩ := shutExporter_of_panicked h
  rw [run, answer]

end Chore

/-! ## All steps -/

/-- Where a call stands after one of its chores. -/
def Thread.after (th : Thread ρ) (e : Effect ρ) (rest : List (Chore ρ)) : Thread ρ :=
  if e.panicked then { th with chores := [], result := none, panicked := true }
  else { th with chores := e.chores ++ rest, result := e.result.or th.result }

@[simp] lemma Thread.after_call (th : Thread ρ) (e : Effect ρ) (rest : List (Chore ρ)) :
    (th.after e rest).call = th.call := by
  rw [after]
  split
  · rfl
  · rfl

namespace System

/-- The ways in which the system goes on: with the worker's cycle, with a chore of the worker, with
a call that begins, or with a chore of a call. -/
inductive Stride (s : System ρ) : System ρ → List (Event ρ) → Prop where
  | turn {o : Surroundings} {m : Machine ρ} {events : List (Event ρ)}
      (idle : s.machine.worker.chores = []) (h : Machine.Turn o s.machine m events) :
      Stride s { s with machine := m } events
  | chore {o : Surroundings} {c : Chore ρ} {rest : List (Chore ρ)}
      (first : s.machine.worker.chores = c :: rest)
      (calm : (c.run o s.machine).panicked = false) :
      Stride s { s with machine := { (c.run o s.machine).machine with worker :=
          { (c.run o s.machine).machine.worker with
            chores := (c.run o s.machine).chores ++ rest } } }
        (c.run o s.machine).events
  | panic {o : Surroundings} {c : Chore ρ} {rest : List (Chore ρ)}
      (first : s.machine.worker.chores = c :: rest)
      (panicked : (c.run o s.machine).panicked = true) :
      Stride s { s with machine := { (c.run o s.machine).machine with worker :=
          { (c.run o s.machine).machine.worker with phase := .dead, chores := [] } } }
        (c.run o s.machine).events
  | begin {call : Call ρ}
      (known : ∀ answer success, call = .settle answer success → answer ∈ s.machine.answers) :
      Stride s { s with threads := s.threads ++ [.start call] } []
  | advance {o : Surroundings} {i : Nat} {th : Thread ρ} {c : Chore ρ} {rest : List (Chore ρ)}
      (found : s.threads[i]? = some th) (first : th.chores = c :: rest) :
      Stride s ⟨(c.run o s.machine).machine,
          s.threads.set i (th.after (c.run o s.machine) rest)⟩
        (c.run o s.machine).events

/-- **The system goes on in no other way.** -/
theorem stride_of_step {s t : System ρ} {choice : Choice ρ} {events : List (Event ρ)}
    (h : s.step choice = some (t, events)) : s.Stride t events := by
  cases choice with
  | work o =>
      simp only [step, Option.bind_eq_bind, Option.bind_eq_some_iff, Option.pure_def,
        Option.some.injEq, Prod.mk.injEq] at h
      obtain ⟨⟨m, shown⟩, hwork, rfl, rfl⟩ := h
      rw [Machine.workerStep] at hwork
      cases chores : s.machine.worker.chores with
      | nil =>
          simp only [chores] at hwork
          exact .turn chores (Machine.turn_of_phaseStep hwork)
      | cons c rest =>
          simp only [chores] at hwork
          cases hwork
          cases panicked : (c.run o s.machine).panicked with
          | true => exact .panic chores panicked
          | false => exact .chore chores panicked
  | begin call =>
      cases call with
      | settle answer success =>
          simp only [step] at h
          split at h
          · rename_i known
            cases h
            refine .begin ?_
            rintro _ _ ⟨rfl, rfl⟩
            exact known
          · cases h
      | emit r =>
          cases h
          exact .begin nofun
      | flush =>
          cases h
          exact .begin nofun
      | shutdown =>
          cases h
          exact .begin nofun
  | advance i o =>
      simp only [step, Option.bind_eq_bind, Option.bind_eq_some_iff, Option.pure_def,
        Option.some.injEq, Prod.mk.injEq] at h
      obtain ⟨th, found, ⟨m, th', shown⟩, hstep, rfl, rfl⟩ := h
      rw [Thread.step] at hstep
      split at hstep
      · cases hstep
      · rename_i c rest first
        cases hstep
        exact .advance found first

lemma step_advance {s : System ρ} {o : Surroundings} {i : Nat} {th : Thread ρ} {c : Chore ρ}
    {rest : List (Chore ρ)} (found : s.threads[i]? = some th) (first : th.chores = c :: rest) :
    s.step (.advance i o) = some (⟨(c.run o s.machine).machine,
      s.threads.set i (th.after (c.run o s.machine) rest)⟩, (c.run o s.machine).events) := by
  simp only [step, found, Thread.step, first, Option.bind_eq_bind, Option.bind_some,
    Option.pure_def]
  rfl

section Threads

variable {s t : System ρ} {events : List (Event ρ)} {j : Nat} {th : Thread ρ}

/-- A call after a step was there before, has just begun, or has taken the step. -/
lemma Stride.thread_before (stride : s.Stride t events) (found : t.threads[j]? = some th) :
    s.threads[j]? = some th ∨ (∃ call, th = .start call) ∨
      ∃ o before c rest, s.threads[j]? = some before ∧ before.chores = c :: rest ∧
        th = before.after (c.run o s.machine) rest ∧ t.machine = (c.run o s.machine).machine := by
  cases stride with
  | turn | chore | panic => exact .inl found
  | begin =>
      rw [List.getElem?_append] at found
      split at found
      · exact .inl found
      · exact .inr (.inl ⟨_, List.mem_singleton.mp (List.mem_of_getElem? found)⟩)
  | @advance o i before c rest known first =>
      by_cases same : i = j
      · subst same
        obtain ⟨lt, -⟩ := List.getElem?_eq_some_iff.mp known
        rw [List.getElem?_set_self lt] at found
        exact .inr (.inr ⟨o, before, c, rest, known, first, (Option.some.inj found).symm, rfl⟩)
      · rw [List.getElem?_set_ne same] at found
        exact .inl found

/-- A call is still there after a step, or has taken the step. -/
lemma Stride.thread_after (stride : s.Stride t events) (found : s.threads[j]? = some th) :
    t.threads[j]? = some th ∨ ∃ o c rest, th.chores = c :: rest ∧
      t.threads[j]? = some (th.after (c.run o s.machine) rest) ∧
        t.machine = (c.run o s.machine).machine := by
  obtain ⟨lt, -⟩ := List.getElem?_eq_some_iff.mp found
  cases stride with
  | turn | chore | panic => exact .inl found
  | begin => exact .inl ((List.getElem?_append_left lt).trans found)
  | @advance o i other c rest known first =>
      by_cases same : i = j
      · subst same
        obtain rfl : other = th := Option.some.inj (known.symm.trans found)
        exact .inr ⟨o, c, rest, first, List.getElem?_set_self lt, rfl⟩
      · exact .inl ((List.getElem?_set_ne same).trans found)

end Threads

end System

/-! ## Runs by choice -/

namespace System

/-- The run in which the given choices are made, if all of them are possible. -/
def follow (s : System ρ) : List (Choice ρ) → Option (System ρ × List (Event ρ))
  | [] => some (s, [])
  | choice :: choices => do
    let (t, events) ← s.step choice
    let (u, more) ← t.follow choices
    return (u, events ++ more)

lemma Reaches.trans {s t u : System ρ} {shown events : List (Event ρ)} (h : Reaches s shown t)
    (h' : Reaches t events u) : Reaches s (shown ++ events) u := by
  induction h' with
  | refl => rwa [List.append_nil]
  | step before next ih =>
      rw [← List.append_assoc]
      exact ih.step next

lemma reaches_of_follow {s t : System ρ} {choices : List (Choice ρ)} {shown : List (Event ρ)}
    (h : s.follow choices = some (t, shown)) : Reaches s shown t := by
  induction choices generalizing s shown with
  | nil =>
      cases h
      exact .refl _
  | cons choice choices ih =>
      simp only [follow, Option.bind_eq_bind, Option.bind_eq_some_iff, Option.pure_def,
        Option.some.injEq, Prod.mk.injEq] at h
      obtain ⟨⟨u, events⟩, hstep, ⟨v, more⟩, hmore, rfl, rfl⟩ := h
      have first : Reaches s events u := Reaches.step (.refl _) hstep
      exact first.trans (ih hmore)

/-- A run by choice that has been evaluated, as far as `P` looks at it. -/
lemma exists_reaches {s : System ρ} (choices : List (Choice ρ))
    {P : System ρ × List (Event ρ) → Prop} [DecidablePred P]
    (h : (s.follow choices).any (fun run => P run) = true) :
    ∃ shown t, Reaches s shown t ∧ P (t, shown) := by
  obtain ⟨⟨t, shown⟩, run, facts⟩ := (Option.any_eq_true _ _).mp h
  exact ⟨shown, t, reaches_of_follow run, of_decide_eq_true facts⟩

end System

end ProfilePipeline.Batch
