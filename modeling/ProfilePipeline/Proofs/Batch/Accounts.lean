import Mathlib.Tactic.Common
import ProfilePipeline.Proofs.Batch.Conduct
import ProfilePipeline.Proofs.Batch.Flow

/-!
# What the health metrics add up to

Whoever receives the measurements and adds up the counts knows what has become of every record.

**Emissions.**  An emission offers its record once.  If the queue refuses it, the call counts one
dropped record before it returns, so the sum of these counts lags behind by the calls that are about
to report (`System.reporting`) and by nothing else.

**Exports.**  Whatever else goes on meanwhile, an export shows its events in one fixed order: the
call of the exporter, its outcome, the count if it was a success, and the gauge (`Attempt.events`).
`Recounted` says so of a whole run, where the last export may have got as far as its phase tells.

**Runs.**  `System.Reaches.accounted` adds both up with the conservation of records.
-/

namespace ProfilePipeline.Batch

open Completion (weigh)

variable {ρ : Type}

/-! ## Sums -/

/-- Whether a measurement counts records that were dropped or, if not, exported. -/
def Metric.counts (dropped : Bool) (m : Metric) : Bool :=
  m.kind == .count && m.name == "processedProfiles" &&
    m.attributes.contains ("dropped", if dropped then "true" else "false")

lemma Metric.counts_processed (dropped d : Bool) (records : Nat) :
    (processed records d).counts dropped = (d == dropped) := by
  cases d <;> cases dropped <;> simp [counts, processed, processorType]

lemma Metric.counts_queueSize (dropped : Bool) (records : Nat) :
    (queueSize records).counts dropped = false := by
  simp [counts, queueSize]

namespace Event

/-- What an event adds to the sum of the counts. -/
def counted (dropped : Bool) : Event ρ → Nat
  | measured m => if m.counts dropped then m.value else 0
  | _ => 0

/-- The records of an export that succeeded in time. -/
def delivered : Event ρ → Nat
  | exported batch .succeeded => batch.length
  | _ => 0

/-- The records of an export that failed, took too long or panicked. -/
def lost : Event ρ → Nat
  | exported _ .succeeded => 0
  | exported batch _ => batch.length
  | _ => 0

/-- The records that the exporter was called with. -/
def records : Event ρ → Nat
  | handed batch => batch.length
  | _ => 0

/-- Whether an event belongs to an export.  All measurements do, but for the count of a record that
was dropped. -/
def isOfExport : Event ρ → Bool
  | handed _ | exported _ _ => true
  | measured m => m != .processed 1 true
  | _ => false

/-- Nothing else concerns what was exported. -/
lemma eq_zero_of_other {e : Event ρ} (other : e.isOfExport = false) :
    e.counted false = 0 ∧ e.delivered = 0 ∧ e.lost = 0 ∧ e.records = 0 := by
  cases e with
  | handed | exported => cases other
  | measured m =>
      have dropped : m = .processed 1 true := by simpa [isOfExport] using other
      refine ⟨?_, rfl, rfl, rfl⟩
      rw [dropped, counted, Metric.counts_processed]
      rfl
  | _ => exact ⟨rfl, rfl, rfl, rfl⟩

end Event

/-- The records that the queue was offered. -/
def offered (shown : List (Event ρ)) : List ρ :=
  shown.filterMap fun
    | .accepted r | .refused r => some r
    | _ => none

/-- The records that the queue refused. -/
def refused (shown : List (Event ρ)) : List ρ :=
  shown.filterMap fun
    | .refused r => some r
    | _ => none

/-- The events of all exports. -/
def ofExports (shown : List (Event ρ)) : List (Event ρ) := shown.filter Event.isOfExport

/-- It accepted or refused each of them. -/
lemma length_offered (shown : List (Event ρ)) :
    (offered shown).length = (accepted shown).length + (refused shown).length := by
  induction shown with
  | nil => rfl
  | cons e shown ih =>
      simp only [offered, accepted, refused, List.filterMap_cons] at ih ⊢
      cases e with
      | accepted r =>
          simp only [List.length_cons]
          omega
      | refused r =>
          simp only [List.length_cons]
          omega
      | _ => exact ih

lemma refused_append (shown events : List (Event ρ)) :
    refused (shown ++ events) = refused shown ++ refused events :=
  List.filterMap_append

lemma ofExports_append (shown events : List (Event ρ)) :
    ofExports (shown ++ events) = ofExports shown ++ ofExports events :=
  List.filter_append ..

/-- What has no weight may be left out. -/
lemma weigh_ofExports {w : Event ρ → Nat} (free : ∀ e, e.isOfExport = false → w e = 0)
    (shown : List (Event ρ)) : weigh w (ofExports shown) = weigh w shown := by
  induction shown with
  | nil => rfl
  | cons e shown ih =>
      rw [Completion.weigh_cons, ← ih, ofExports, List.filter_cons]
      split
      · rfl
      · rw [free e (Bool.eq_false_iff.mpr ‹_›), Nat.zero_add]
        rfl

lemma length_flatten_handed (shown : List (Event ρ)) :
    (handed shown).flatten.length = weigh Event.records shown := by
  induction shown with
  | nil => rfl
  | cons e shown ih =>
      rw [Completion.weigh_cons, ← ih]
      cases e with
      | handed batch => exact List.length_append
      | _ => exact (Nat.zero_add _).symm

/-! ## Emissions -/

namespace Chore

/-- The chores through which a record is offered. -/
def IsOfEmission : Chore ρ → Prop
  | enter _ | offer _ | report => True
  | _ => False

/-- One for a refusal that is about to be reported. -/
def reports : Chore ρ → Nat
  | report => 1
  | _ => 0

/-- One for a record that is about to be offered, or looked at first. -/
def enters : Chore ρ → Nat
  | enter _ | offer _ => 1
  | _ => 0

variable {o : Surroundings} {m : Machine ρ} {c : Chore ρ}

lemma weigh_others {chores : List (Chore ρ)} (others : ∀ c ∈ chores, ¬ c.IsOfEmission) :
    weigh reports chores = 0 ∧ weigh enters chores = 0 := by
  refine ⟨Completion.weigh_eq_zero_iff.mpr ?_, Completion.weigh_eq_zero_iff.mpr ?_⟩
  all_goals
    intro c mem
    cases c with
    | enter | offer | report => exact absurd trivial (others _ mem)
    | _ => rfl

/-- What other chores show has nothing to do with records. -/
def Unheard (events : List (Event ρ)) : Prop :=
  ∀ e ∈ events, e = .exporterShutdown ∨ ∃ t success, e = .resolved t success

/-- Other chores lead to none of these, and show nothing about records. -/
lemma run_other (other : ¬ c.IsOfEmission) :
    (∀ next ∈ (c.run o m).chores, ¬ next.IsOfEmission) ∧ Unheard (c.run o m).events := by
  have await : ∀ {t r}, (∀ next ∈ (m.await t r).chores, ¬ next.IsOfEmission) ∧
      Unheard (m.await t r).events := by
    intro t r
    obtain ⟨-, events, chores⟩ := await_cases m t r
    rw [events]
    refine ⟨?_, List.forall_mem_nil _⟩
    rcases chores with chores | ⟨success, chores⟩
    · rw [chores]
      exact List.forall_mem_nil _
    · rw [chores]
      exact List.forall_mem_singleton.mpr id
  have wakes : ∀ (p : Prop) [Decidable p],
      ∀ next ∈ (if p then [.raise, .notify] else [] : List (Chore ρ)), ¬ next.IsOfEmission := by
    intro p _
    split
    · exact List.forall_mem_cons.mpr ⟨id, List.forall_mem_singleton.mpr id⟩
    · exact List.forall_mem_nil _
  cases c with
  | enter | offer | report => exact absurd trivial other
  | resolve t success =>
      refine ⟨?_, ?_⟩
      · intro next mem
        obtain ⟨r, -, rfl⟩ := List.mem_map.mp mem
        exact id
      · intro e mem
        simp only [run] at mem
        split at mem
        · exact .inr ⟨t, success, List.mem_singleton.mp mem⟩
        · cases mem
  | call r success =>
      cases r with
      | stop =>
          refine ⟨?_, List.forall_mem_nil _⟩
          simp [run, IsOfEmission]
      | conclude => exact ⟨List.forall_mem_singleton.mpr id, List.forall_mem_nil _⟩
  | shutExporter flushed done =>
      rw [run]
      split
      · exact ⟨List.forall_mem_nil _, List.forall_mem_singleton.mpr (.inl rfl)⟩
      · exact ⟨List.forall_mem_singleton.mpr id, List.forall_mem_singleton.mpr (.inl rfl)⟩
  | attach | watch => exact await
  | readLength => exact ⟨List.forall_mem_singleton.mpr id, List.forall_mem_nil _⟩
  | compare length =>
      refine ⟨?_, List.forall_mem_nil _⟩
      rw [run]
      cases m.needed with
      | none => exact List.forall_mem_nil _
      | some needed => exact wakes (needed ≤ length)
  | claim =>
      rw [run]
      split
      · exact ⟨List.forall_mem_nil _, List.forall_mem_nil _⟩
      · exact ⟨List.forall_mem_singleton.mpr id, List.forall_mem_nil _⟩
  | request done =>
      cases done with
      | none => exact ⟨wakes _, List.forall_mem_nil _⟩
      | some done =>
          refine ⟨?_, List.forall_mem_nil _⟩
          exact List.forall_mem_append.mpr ⟨wakes _, List.forall_mem_singleton.mpr id⟩
  | halt | raise | notify => exact ⟨List.forall_mem_nil _, List.forall_mem_nil _⟩

namespace Unheard

variable {events : List (Event ρ)}

lemma counted (h : Unheard events) (dropped : Bool) : weigh (Event.counted dropped) events = 0 := by
  refine Completion.weigh_eq_zero_iff.mpr ?_
  intro e mem
  rcases h e mem with rfl | ⟨t, success, rfl⟩
  · rfl
  · rfl

lemma refused (h : Unheard events) : Batch.refused events = [] := by
  rw [Batch.refused, List.filterMap_eq_nil_iff]
  intro e mem
  rcases h e mem with rfl | ⟨t, success, rfl⟩
  · rfl
  · rfl

lemma offered (h : Unheard events) : Batch.offered events = [] := by
  rw [Batch.offered, List.filterMap_eq_nil_iff]
  intro e mem
  rcases h e mem with rfl | ⟨t, success, rfl⟩
  · rfl
  · rfl

end Unheard

/-- **A refusal is reported once**: by the chore that follows it, with a count of one. -/
lemma reports_run (o : Surroundings) (m : Machine ρ) (c : Chore ρ) :
    weigh reports (c.run o m).chores + weigh (Event.counted true) (c.run o m).events =
      c.reports + (refused (c.run o m).events).length := by
  have others : ¬ c.IsOfEmission → c.reports = 0 →
      weigh reports (c.run o m).chores + weigh (Event.counted true) (c.run o m).events =
        c.reports + (refused (c.run o m).events).length := by
    intro other free
    obtain ⟨chores, unheard⟩ := run_other (o := o) (m := m) other
    rw [(weigh_others chores).1, unheard.counted, unheard.refused, free]
    rfl
  cases c with
  | enter r =>
      rw [run]
      split
      · rfl
      · rfl
  | offer r =>
      rw [run]
      split
      · rfl
      · rfl
  | report => rfl
  | _ => exact others id rfl

/-- **A record is offered once.** -/
lemma enters_run (o : Surroundings) (m : Machine ρ) (c : Chore ρ) :
    weigh enters (c.run o m).chores + (offered (c.run o m).events).length ≤ c.enters := by
  have others : ¬ c.IsOfEmission →
      weigh enters (c.run o m).chores + (offered (c.run o m).events).length ≤ c.enters := by
    intro other
    obtain ⟨chores, unheard⟩ := run_other (o := o) (m := m) other
    rw [(weigh_others chores).2, unheard.offered]
    exact Nat.zero_le _
  cases c with
  | enter r =>
      rw [run]
      split
      · exact Nat.zero_le _
      · exact Nat.le_refl _
  | offer r =>
      rw [run]
      split
      · exact Nat.le_refl _
      · exact Nat.le_refl _
  | report => exact Nat.le_refl _
  | _ => exact others id

/-- No chore shows anything of an export. -/
lemma ofExports_run (o : Surroundings) (m : Machine ρ) (c : Chore ρ) :
    ofExports (c.run o m).events = [] := by
  have others : ¬ c.IsOfEmission → ofExports (c.run o m).events = [] := by
    intro other
    rw [ofExports, List.filter_eq_nil_iff]
    intro e mem
    rcases (run_other other).2 e mem with rfl | ⟨t, success, rfl⟩
    · exact Bool.false_ne_true
    · exact Bool.false_ne_true
  cases c with
  | enter r => rfl
  | offer r =>
      rw [run]
      split
      · rfl
      · rfl
  | report =>
      simp [ofExports, run, Event.isOfExport]
  | _ => exact others id

end Chore

/-- One for an emission. -/
def Thread.emits (th : Thread ρ) : Nat :=
  match th.call with
  | .emit _ => 1
  | _ => 0

namespace System

/-- The calls that have been refused and have not reported it. -/
def reporting (s : System ρ) : Nat := weigh (fun th => weigh Chore.reports th.chores) s.threads

/-- The emissions that have not offered their record yet. -/
def entering (s : System ρ) : Nat := weigh (fun th => weigh Chore.enters th.chores) s.threads

/-- The emissions that have begun. -/
def emissions (s : System ρ) : Nat := weigh Thread.emits s.threads

variable {s t : System ρ} {roles : List Role} {shown events : List (Event ρ)}

/-- What a step does to the chores of calls: it shows nothing about emissions and leaves them alone,
a call begins, or a call runs a chore. -/
lemma Stride.calls (h : s.Conduct roles shown) (stride : s.Stride t events) :
    (t.threads = s.threads ∧ weigh (Event.counted true) events = 0 ∧ refused events = [] ∧
        offered events = []) ∨
      (∃ call, t.threads = s.threads ++ [.start call] ∧ events = []) ∨
      ∃ o c, events = (c.run o s.machine).events ∧ t.emissions = s.emissions ∧
        ∀ w : Chore ρ → Nat, weigh (fun th => weigh w th.chores) t.threads + w c =
          weigh (fun th => weigh w th.chores) s.threads + weigh w (c.run o s.machine).chores := by
  have worker : ∀ {o : Surroundings} {c rest}, s.machine.worker.chores = c :: rest →
      Chore.Unheard (c.run o s.machine).events := by
    intro o c rest first
    refine (Chore.run_other ?_).2
    rcases h.worker_next first with ⟨u, success, -, rfl, -⟩ | ⟨flushed, done, -, ends⟩
    · exact id
    · cases c with
      | enter | offer | report => exact ends.elim
      | _ => exact id
  cases stride with
  | turn idle turn =>
      refine .inl ⟨rfl, ?_, ?_, ?_⟩
      · cases turn with
        | tally | gauge =>
            simp [Event.counted, Metric.counts_processed, Metric.counts_queueSize]
        | _ => rfl
      · cases turn <;> rfl
      · cases turn <;> rfl
  | @chore o c rest first | @panic o c rest first =>
      have unheard := worker (o := o) first
      exact .inl ⟨rfl, unheard.counted true, unheard.refused, unheard.offered⟩
  | begin => exact .inr (.inl ⟨_, rfl, rfl⟩)
  | @advance o i th c rest found first =>
      obtain ⟨lt, here⟩ := List.getElem?_eq_some_iff.mp found
      have after : ∀ w : Chore ρ → Nat, weigh w (th.after (c.run o s.machine) rest).chores + w c =
          weigh w th.chores + weigh w (c.run o s.machine).chores := by
        intro w
        rw [first, Thread.after, Completion.weigh_cons]
        split
        · rename_i panicked
          obtain ⟨flushed, done, rfl, -⟩ := Chore.shutExporter_of_panicked panicked
          obtain ⟨-, -, rfl⟩ := h.placed (List.mem_of_getElem? found) first
          rw [Chore.chores_of_panicked panicked]
          exact Nat.add_comm ..
        · rw [Completion.weigh_append]
          omega
      refine .inr (.inr ⟨o, c, rfl, ?_, ?_⟩)
      · have moved := Completion.Store.weigh_set Thread.emits s.threads i
          (th.after (c.run o s.machine) rest) lt
        simp only [here, Thread.emits, Thread.after_call] at moved
        exact Nat.add_right_cancel moved
      · intro w
        have moved := Completion.Store.weigh_set (fun th : Thread ρ => weigh w th.chores)
          s.threads i (th.after (c.run o s.machine) rest) lt
        have same := after w
        rw [here] at moved
        simp only
        omega

/-- Reports lag behind refusals by the calls that are about to report. -/
lemma Stride.reporting (h : s.Conduct roles shown) (stride : s.Stride t events) :
    weigh (Event.counted true) events + t.reporting = s.reporting + (refused events).length := by
  rcases stride.calls h with
    ⟨threads, counted, none, -⟩ | ⟨call, threads, rfl⟩ | ⟨o, c, rfl, -, moved⟩
  · rw [System.reporting, System.reporting, threads, counted, none]
    exact Nat.zero_add _
  · have free : weigh Chore.reports (Thread.start call).chores = 0 := by cases call <;> rfl
    simp [System.reporting, threads, free, refused]
  · have balance := Chore.reports_run o s.machine c
    have same := moved Chore.reports
    simp only [System.reporting]
    omega

/-- A step offers no record twice. -/
lemma Stride.entering (h : s.Conduct roles shown) (stride : s.Stride t events) :
    (offered events).length + t.entering + s.emissions ≤ s.entering + t.emissions := by
  rcases stride.calls h with ⟨threads, -, -, none⟩ | ⟨call, threads, rfl⟩ | ⟨o, c, rfl, same, moved⟩
  · simp only [System.entering, emissions, threads, none, List.length_nil]
    omega
  · have one : weigh Chore.enters (Thread.start call).chores = (Thread.start call).emits := by
      cases call <;> rfl
    simp only [System.entering, emissions, threads, Completion.weigh_append, Completion.weigh_cons,
      Completion.weigh_nil, one, offered, List.filterMap_nil, List.length_nil]
    omega
  · have balance := Chore.enters_run o s.machine c
    have weight := moved Chore.enters
    simp only [System.entering]
    rw [same]
    omega

end System

/-! ## Exports -/

/-- An export that is over, and how many records waited when it was. -/
structure Attempt (ρ : Type) where
  batch : List ρ
  outcome : ExportOutcome
  waiting : Nat

/-- **What an export shows**, in order. -/
def Attempt.events (a : Attempt ρ) : List (Event ρ) :=
  [.handed a.batch, .exported a.batch a.outcome] ++
    (if a.outcome = .succeeded then [.measured (.processed a.batch.length false)] else []) ++
    [.measured (.queueSize a.waiting)]

/-- The counts of an export are the records it delivered, and all its records were delivered or
lost. -/
lemma Attempt.weigh_events (a : Attempt ρ) :
    weigh (Event.counted false) a.events = weigh Event.delivered a.events ∧
      weigh Event.records a.events =
        weigh Event.delivered a.events + weigh Event.lost a.events := by
  have counts : (Metric.processed a.batch.length false).counts false = true :=
    Metric.counts_processed ..
  have gauge : (Metric.queueSize a.waiting).counts false = false := Metric.counts_queueSize ..
  have value : (Metric.processed a.batch.length false).value = a.batch.length := rfl
  obtain ⟨batch, outcome, waiting⟩ := a
  cases outcome with
  | succeeded =>
      simp [events, Event.counted, Event.delivered, Event.lost, Event.records, counts, gauge, value]
  | _ => simp [events, Event.counted, Event.delivered, Event.lost, Event.records, gauge]

/-- What the export that is going on has shown, by the phase of the worker. -/
inductive Begun (batch : List ρ) : Phase → List (Event ρ) → Prop where
  | none {phase : Phase} (outside : phase.exports = false) : Begun batch phase []
  | exporting (p : Purpose) : Begun batch (.exporting p) [.handed batch]
  | tallying (p : Purpose) :
      Begun batch (.tallying p) [.handed batch, .exported batch .succeeded]
  | succeeded (p : Purpose) : Begun batch (.gauging p true)
      [.handed batch, .exported batch .succeeded, .measured (.processed batch.length false)]
  | failed (p : Purpose) {outcome : ExportOutcome} (bad : outcome ≠ .succeeded) :
      Begun batch (.gauging p false) [.handed batch, .exported batch outcome]

lemma Begun.eq_nil {batch : List ρ} {phase : Phase} {events : List (Event ρ)}
    (h : Begun batch phase events) (outside : phase.exports = false) : events = [] := by
  cases h with
  | none => rfl
  | _ => cases outside

/-- The gauge ends an export. -/
lemma Begun.gauged {batch : List ρ} {p : Purpose} {success : Bool} {events : List (Event ρ)}
    (h : Begun batch (.gauging p success) events) (waiting : Nat) :
    ∃ outcome, events ++ [.measured (.queueSize waiting)] =
      (⟨batch, outcome, waiting⟩ : Attempt ρ).events := by
  cases h with
  | none outside => cases outside
  | succeeded => exact ⟨.succeeded, rfl⟩
  | @failed _ outcome bad =>
      refine ⟨outcome, ?_⟩
      rw [Attempt.events, if_neg bad]
      rfl

/-- **All exports of a run, one after the other**, the last one perhaps going on. -/
def Recounted (shown : List (Event ρ)) (m : Machine ρ) : Prop :=
  ∃ (attempts : List (Attempt ρ)) (begun : List (Event ρ)),
    ofExports shown = attempts.flatMap Attempt.events ++ begun ∧
      Begun m.worker.batch m.worker.phase begun ∧
      ∀ a ∈ attempts, a.batch ≠ [] ∧ a.waiting ≤ m.config.queueLimit

section Recounted

variable {s t : System ρ} {shown events : List (Event ρ)} {m m' : Machine ρ}

lemma Recounted.of_same (h : Recounted shown m) (config : m'.config = m.config)
    (none : ofExports events = [])
    (goes : ∀ begun, Begun m.worker.batch m.worker.phase begun →
      Begun m'.worker.batch m'.worker.phase begun) : Recounted (shown ++ events) m' := by
  obtain ⟨attempts, begun, trace, going, sizes⟩ := h
  refine ⟨attempts, begun, ?_, goes begun going, ?_⟩
  · rw [ofExports_append, none, List.append_nil, trace]
  · rwa [config]

/-- A step between exports. -/
lemma Recounted.outside (h : Recounted shown m) (config : m'.config = m.config)
    (none : ofExports events = []) (before : m.worker.phase.exports = false)
    (after : m'.worker.phase.exports = false) : Recounted (shown ++ events) m' := by
  refine h.of_same config none fun begun going => ?_
  rw [going.eq_nil before]
  exact .none after

/-- A step of an export that goes on. -/
lemma Recounted.goto (h : Recounted shown m) {phase : Phase} {e : Event ρ}
    (ofExport : e.isOfExport = true)
    (goes : ∀ begun, Begun m.worker.batch m.worker.phase begun →
      Begun m.worker.batch phase (begun ++ [e])) : Recounted (shown ++ [e]) (m.goto phase) := by
  obtain ⟨attempts, begun, trace, going, sizes⟩ := h
  have kept : ofExports [e] = [e] := List.filter_cons_of_pos ofExport
  refine ⟨attempts, begun ++ [e], ?_, goes begun going, sizes⟩
  rw [ofExports_append, trace, kept, List.append_assoc]

theorem Recounted.turn {o : Surroundings} (h : Recounted shown m) (sized : m.Sized)
    (turn : Machine.Turn o m m' events) : Recounted (shown ++ events) m' := by
  cases turn with
  | hand phase =>
      refine h.goto rfl fun begun going => ?_
      rw [going.eq_nil (by rw [phase]; rfl)]
      exact .exporting _
  | succeed phase outcome =>
      refine h.goto rfl fun begun going => ?_
      rw [phase] at going
      cases going with
      | none outside => cases outside
      | exporting =>
          rw [outcome]
          exact .tallying _
  | fail phase outcome =>
      refine h.goto rfl fun begun going => ?_
      rw [phase] at going
      cases going with
      | none outside => cases outside
      | exporting => exact .failed _ outcome
  | tally phase =>
      have ofExport :
          (Event.measured (.processed m.worker.batch.length false) : Event ρ).isOfExport = true := by
        simp [Event.isOfExport, Metric.processed]
      refine h.goto ofExport fun begun going => ?_
      rw [phase] at going
      cases going with
      | none outside => cases outside
      | tallying => exact .succeeded _
  | @gauge p success phase =>
      obtain ⟨attempts, begun, trace, going, sizes⟩ := h
      rw [phase] at going
      obtain ⟨outcome, ended⟩ := going.gauged m.queue.length
      have kept : ofExports [.measured (.queueSize m.queue.length)] =
          [(.measured (.queueSize m.queue.length) : Event ρ)] :=
        List.filter_cons_of_pos (by simp [Event.isOfExport, Metric.processed, Metric.queueSize])
      refine ⟨attempts ++ [⟨m.worker.batch, outcome, m.queue.length⟩], [], ?_, ?_, ?_⟩
      · rw [ofExports_append, trace, kept, List.append_assoc, ended, List.flatMap_append]
        simp
      · exact .none (Machine.resume_exports ..)
      · rw [Machine.resume_config]
        intro a mem
        rcases List.mem_append.mp mem with mem | mem
        · exact sizes a mem
        · obtain rfl := List.mem_singleton.mp mem
          exact ⟨sized.something (by rw [phase]; rfl), sized.queue⟩
  | pass phase =>
      exact h.outside (Machine.resume_config ..) rfl (by rw [phase]; rfl)
        (Machine.resume_exports ..)
  | fill phase =>
      exact h.outside rfl rfl (by rw [phase]; rfl) (by rw [Machine.take, phase]; rfl)
  -- The other rules move the worker between phases outside of an export.
  | _ => exact h.outside rfl rfl (by simp [Phase.exports, *]) rfl

theorem Recounted.stride (h : Recounted shown s.machine) (sized : s.machine.Sized)
    (stride : s.Stride t events) : Recounted (shown ++ events) t.machine := by
  have touched : ∀ {o : Surroundings} {c : Chore ρ},
      Recounted (shown ++ (c.run o s.machine).events) (c.run o s.machine).machine := by
    intro o c
    have touches := Chore.touches_run o s.machine c
    refine h.of_same touches.config (Chore.ofExports_run o s.machine c) fun begun going => ?_
    rw [touches.batch]
    refine touches.phase_after (P := fun phase => Begun s.machine.worker.batch phase begun) going ?_
    intro asleep
    rw [asleep.eq_nil rfl]
    exact .none rfl
  cases stride with
  | turn idle turn => exact h.turn sized turn
  | chore => exact touched
  | @panic o c rest first panicked =>
      have touches := Chore.touches_run o s.machine c
      refine h.outside touches.config (Chore.ofExports_run o s.machine c) ?_ rfl
      exact sized.exports_of_busy (by rw [first]; exact List.cons_ne_nil _ _)
  | begin =>
      rw [List.append_nil]
      exact h
  | advance => exact touched

end Recounted

/-! ## Runs -/

/-- What the metrics of a run that has shown `shown` and led to `s` say. -/
structure System.Accounted (settings : Settings) (shown : List (Event ρ)) (s : System ρ) :
    Prop where
  /-- The counts of dropped records are the refusals, but for the calls that are about to report
  theirs. -/
  dropped : weigh (Event.counted true) shown + s.reporting = (refused shown).length
  /-- The counts of exported records are the records of the exports that succeeded in time. -/
  exported : weigh (Event.counted false) shown = weigh Event.delivered shown
  /-- Whatever reached the queue was dropped, delivered or lost, or is still on its way. -/
  records : (offered shown).length =
    weigh (Event.counted true) shown + s.reporting + weigh Event.delivered shown +
      weigh Event.lost shown + s.machine.worker.batch.length + s.machine.queue.length
  /-- No emission reaches the queue twice. -/
  once : (offered shown).length + s.entering ≤ s.emissions
  /-- Every export has one gauge, after its count if it has one. -/
  attempts : ∃ attempts : List (Attempt ρ), ofExports shown = attempts.flatMap Attempt.events ∧
    ∀ a ∈ attempts, a.batch ≠ [] ∧ a.waiting ≤ settings.maxQueueSize

namespace System

variable {config : Config} {shown : List (Event ρ)} {s : System ρ}

theorem Reaches.recounted (h : Reaches (start config) shown s) : Recounted shown s.machine := by
  induction h with
  | refl => exact ⟨[], [], rfl, .none rfl, List.forall_mem_nil _⟩
  | step before next ih => exact ih.stride before.flow.sized (stride_of_step next)

theorem Reaches.reporting (h : Reaches (start config) shown s) :
    weigh (Event.counted true) shown + s.reporting = (refused shown).length := by
  induction h with
  | refl => rfl
  | step before next ih =>
      obtain ⟨roles, conduct⟩ := before.conduct
      have balance := (stride_of_step next).reporting conduct
      rw [Completion.weigh_append, refused_append, List.length_append]
      omega

theorem Reaches.entering (h : Reaches (start config) shown s) :
    (offered shown).length + s.entering ≤ s.emissions := by
  induction h with
  | refl => exact Nat.le_refl _
  | step before next ih =>
      obtain ⟨roles, conduct⟩ := before.conduct
      have balance := (stride_of_step next).entering conduct
      rw [offered, List.filterMap_append, List.length_append, ← offered, ← offered]
      omega

/-- **The health metrics account for every record**, whatever exporter, callers and worker do,
whenever no export is going on. -/
theorem Reaches.accounted {settings : Settings} (built : settings.build = .ok config)
    (h : Reaches (start config) shown s) (outside : s.machine.worker.phase.exports = false) :
    s.Accounted settings shown := by
  obtain ⟨attempts, begun, trace, going, sizes⟩ := h.recounted
  rw [going.eq_nil outside, List.append_nil] at trace
  have attempted : ∀ {w : Event ρ → Nat}, (∀ e, e.isOfExport = false → w e = 0) →
      weigh w shown = weigh (fun a => weigh w a.events) attempts := by
    intro w free
    rw [← weigh_ofExports free, trace, Completion.weigh_flatMap]
  have counted := attempted fun e other => (Event.eq_zero_of_other other).1
  have delivered := attempted fun e other => (Event.eq_zero_of_other other).2.1
  have lost := attempted fun e other => (Event.eq_zero_of_other other).2.2.1
  have records := attempted fun e other => (Event.eq_zero_of_other other).2.2.2
  have handedOn :
      weigh Event.records shown = weigh Event.delivered shown + weigh Event.lost shown := by
    rw [records, delivered, lost, ← Completion.weigh_add]
    exact Completion.weigh_congr fun a _ => a.weigh_events.2
  refine ⟨h.reporting, ?_, ?_, h.entering, attempts, trace, ?_⟩
  · rw [counted, delivered]
    exact Completion.weigh_congr fun a _ => a.weigh_events.1
  · have kept := congrArg List.length h.flow.records
    rw [Machine.working_eq outside, List.length_append, List.length_append, length_flatten_handed,
      handedOn] at kept
    rw [length_offered, h.reporting]
    omega
  · have same := h.flow.same
    rw [← (Settings.build_limits built).1, ← same]
    exact sizes

end System

/-- The record that `crowd` had refused is reported, a flush delivers another one, and one more is
accepted. -/
def aftermath : List (Choice Nat) :=
  crowd ++ [.advance 2 {}, .begin .flush, .advance 4 {}, .advance 4 {}, .advance 4 {}] ++
  List.replicate 12 (.work {}) ++ [.begin (.emit 5), .advance 5 {}, .advance 5 {}]

theorem accounted_aftermath : ∃ shown s, narrow.build = .ok narrowConfig ∧
    System.Reaches (.start narrowConfig) shown s ∧ s.machine.worker.phase.exports = false ∧
      offered shown = [1, 2, 3, 4, 5] ∧ refused shown = [3] ∧ s.reporting = 0 ∧
      s.machine.queue = [5] ∧ weigh Event.delivered shown = 1 ∧ weigh Event.lost shown = 2 ∧
      s.Accounted narrow shown := by
  obtain ⟨shown, s, h, cleared, offers, refuses, reports, waits, delivers, loses⟩ :=
    System.exists_reaches (s := .start narrowConfig) (P := fun (s, shown) =>
      s.machine.worker.phase.exports = false ∧ offered shown = [1, 2, 3, 4, 5] ∧
        refused shown = [3] ∧ s.reporting = 0 ∧ s.machine.queue = [5] ∧
        weigh Event.delivered shown = 1 ∧ weigh Event.lost shown = 2) aftermath (by decide +kernel)
  exact ⟨shown, s, rfl, h, cleared, offers, refuses, reports, waits, delivers, loses,
    System.Reaches.accounted rfl h cleared⟩

end ProfilePipeline.Batch
