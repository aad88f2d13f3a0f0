import Mathlib.Data.List.Nodup
import Mathlib.Tactic.Common
import ProfilePipeline.Proofs.Batch.Steps

/-!
# Records on their way through the batch processor

Records come out of the queue in the order in which they went in, each in exactly one batch.

**Conservation.**  `Machine.Conserves` is a balance of one step: what was held and what was
accepted is what is handed on and what is still held.  A batch counts as handed on as soon as the
exporter is called with it, although the worker clears it later (`Machine.working`).

**Sizes.**  `Machine.Sized` is the invariant behind all bounds.  The batch is below its limit at the
head of every cycle, and only the phases between the filling of a batch and the end of its export
may find it full.

**Runs.**  `System.Reaches.flow` puts both together.
-/

namespace ProfilePipeline.Batch

variable {ρ : Type}

/-! ## Where records are -/

/-- The exporter has the batch, and the worker has not cleared it yet. -/
def Phase.exports : Phase → Bool
  | exporting _ | tallying _ | gauging _ _ => true
  | _ => false

/-- The phases that may find the batch full. -/
def Phase.mayBeFull : Phase → Bool
  | handing _ | exporting _ | tallying _ | gauging _ _ | filling | deciding => true
  | _ => false

/-- The branch of the cycle in which the worker sleeps. -/
def Phase.sleeps : Phase → Bool
  | announcing | testing | asleep | waking | retracting => true
  | _ => false

namespace Machine

/-- The records that the worker has collected and not handed on. -/
def working (m : Machine ρ) : List ρ := if m.worker.phase.exports then [] else m.worker.batch

/-- The batch of which the export is not over. -/
def inFlight (m : Machine ρ) : List (List ρ) :=
  match m.worker.phase with
  | .exporting _ => [m.worker.batch]
  | _ => []

lemma working_eq {m : Machine ρ} (h : m.worker.phase.exports = false) :
    m.working = m.worker.batch := by
  rw [working, h]
  rfl

lemma working_eq_nil {m : Machine ρ} (h : m.worker.phase.exports = true) : m.working = [] := by
  rw [working, h]
  rfl

lemma inFlight_eq_nil {m : Machine ρ} (h : m.worker.phase.exports = false) : m.inFlight = [] := by
  rw [inFlight]
  split
  · rename_i phase
    rw [phase] at h
    cases h
  · rfl

/-! ## After an export -/

section Resume

variable (m : Machine ρ) (success : Bool) (p : Purpose)

@[simp] lemma resume_config : (m.resume success p).config = m.config := by
  cases p <;> rfl

@[simp] lemma resume_queue : (m.resume success p).queue = m.queue := by
  cases p <;> rfl

@[simp] lemma resume_needed : (m.resume success p).needed = m.needed := by
  cases p <;> rfl

@[simp] lemma resume_batch : (m.resume success p).worker.batch = m.worker.batch := by
  cases p <;> rfl

@[simp] lemma resume_exports : (m.resume success p).worker.phase.exports = false := by
  cases p <;> rfl

end Resume

/-! ## Conservation -/

/-- The balance of a step that shows `events`. -/
structure Conserves (m m' : Machine ρ) (events : List (Event ρ)) : Prop where
  records : m.working ++ m.queue ++ accepted events =
    (handed events).flatten ++ (m'.working ++ m'.queue)
  batches : m.inFlight ++ handed events = exported events ++ m'.inFlight

/-- In a run every batch that was handed on is over, once, or in flight, after one more step too. -/
lemma Conserves.batches_append {m m' : Machine ρ} {shown events : List (Event ρ)}
    (h : Conserves m m' events) (before : handed shown = exported shown ++ m.inFlight) :
    handed (shown ++ events) = exported (shown ++ events) ++ m'.inFlight :=
  calc handed (shown ++ events)
      = exported shown ++ (m.inFlight ++ handed events) := by
        rw [handed_append, before, List.append_assoc]
    _ = exported (shown ++ events) ++ m'.inFlight := by
        rw [h.batches, exported_append, List.append_assoc]

/-- Nothing moves while no batch is with the exporter. -/
lemma Conserves.still {m m' : Machine ρ} (before : m.worker.phase.exports = false)
    (after : m'.worker.phase.exports = false)
    (held : m'.worker.batch ++ m'.queue = m.worker.batch ++ m.queue) : Conserves m m' [] where
  records := by
    rw [working_eq before, working_eq after, held]
    exact List.append_nil _
  batches := by
    rw [inFlight_eq_nil before, inFlight_eq_nil after]
    rfl

lemma take_held {m : Machine ρ} {r : ρ} {rest : List ρ} (queue : m.queue = r :: rest) :
    (m.take r rest).worker.batch ++ (m.take r rest).queue = m.worker.batch ++ m.queue := by
  rw [queue, take]
  exact List.append_assoc _ _ _

/-- **The worker neither loses nor repeats a record.** -/
theorem Turn.conserves {o : Surroundings} {m m' : Machine ρ} {events : List (Event ρ)}
    (h : Turn o m m' events) : Conserves m m' events := by
  cases h with
  | drain phase queue _ => exact .still (by rw [phase]; rfl) rfl (take_held queue)
  | drainFull phase queue _ => exact .still (by rw [phase]; rfl) rfl (take_held queue)
  | fill phase queue _ =>
      exact .still (by rw [phase]; rfl) (by rw [take, phase]; rfl) (take_held queue)
  | pass phase batch => exact .still (by rw [phase]; rfl) (resume_exports ..) (by simp)
  | hand phase batch =>
      refine ⟨?_, ?_⟩
      · rw [working_eq (by rw [phase]; rfl), working_eq_nil rfl]
        show _ ++ [] = [m.worker.batch].flatten ++ ([] ++ m.queue)
        simp
      · rw [inFlight_eq_nil (by rw [phase]; rfl)]
        rfl
  | succeed phase _ =>
      refine ⟨?_, ?_⟩
      · rw [working_eq_nil (by rw [phase]; rfl), working_eq_nil rfl]
        exact List.append_nil _
      · rw [inFlight, phase]
        rfl
  | fail phase _ =>
      refine ⟨?_, ?_⟩
      · rw [working_eq_nil (by rw [phase]; rfl), working_eq_nil rfl]
        exact List.append_nil _
      · rw [inFlight, phase]
        rfl
  | tally phase =>
      refine ⟨?_, ?_⟩
      · rw [working_eq_nil (by rw [phase]; rfl), working_eq_nil rfl]
        exact List.append_nil _
      · rw [inFlight, phase]
        rfl
  | gauge phase =>
      refine ⟨?_, ?_⟩
      · rw [working_eq_nil (by rw [phase]; rfl), working_eq (resume_exports ..)]
        simp [accepted, handed]
      · rw [inFlight_eq_nil (resume_exports ..), inFlight, phase]
        rfl
  -- The other rules only move the worker to another phase.
  | _ => exact .still (by simp [Phase.exports, *]) rfl rfl

/-! ## Sizes -/

/-- The bounds on queue, batch and announcement, and where the worker may be while it has
chores. -/
structure Sized (m : Machine ρ) : Prop where
  queue : m.queue.length ≤ m.config.queueLimit
  batch : m.worker.batch.length ≤ m.config.batchLimit
  room : m.worker.phase.mayBeFull = false → m.worker.batch.length < m.config.batchLimit
  something : m.worker.phase.exports = true → m.worker.batch ≠ []
  needed : ∀ n, m.needed = some n → 1 ≤ n ∧ n ≤ m.config.queueLimit
  chores : m.worker.chores ≠ [] →
    (m.worker.phase = .filling ∨ m.worker.phase = .finished) ∧
      m.worker.batch.length < m.config.batchLimit

lemma sized_start (config : Config) : Sized (start config : Machine ρ) where
  queue := Nat.zero_le _
  batch := Nat.zero_le _
  room _ := config.batchLimit_pos
  something h := nomatch h
  needed _ h := nomatch h
  chores h := absurd rfl h

lemma Sized.lacking {m : Machine ρ} (h : Sized m) (phase : m.worker.phase.mayBeFull = false) :
    1 ≤ m.lacking ∧ m.lacking ≤ m.config.queueLimit := by
  have room := h.room phase
  have le := m.config.batchLimit_le
  rw [Machine.lacking]
  omega

lemma Sized.of_same {m m' : Machine ρ} (h : Sized m) (config : m'.config = m.config)
    (queue : m'.queue = m.queue) (needed : m'.needed = m.needed) (worker : m'.worker = m.worker) :
    Sized m' where
  queue := by rw [config, queue]; exact h.queue
  batch := by rw [config, worker]; exact h.batch
  room := by rw [config, worker]; exact h.room
  something := by rw [worker]; exact h.something
  needed := by rw [config, needed]; exact h.needed
  chores := by rw [config, worker]; exact h.chores

lemma Sized.goto {m : Machine ρ} (h : Sized m) (idle : m.worker.chores = []) {p : Phase}
    (room : p.mayBeFull = false → m.worker.batch.length < m.config.batchLimit)
    (something : p.exports = true → m.worker.batch ≠ []) : Sized (m.goto p) where
  queue := h.queue
  batch := h.batch
  room := room
  something := something
  needed := h.needed
  chores busy := absurd idle busy

lemma Sized.dueAt {m : Machine ρ} (h : Sized m) (nextExport : Nat) : Sized (m.dueAt nextExport) :=
  ⟨h.queue, h.batch, h.room, h.something, h.needed, h.chores⟩

/-- A record moves from the queue into a batch that has room. -/
lemma Sized.take {m : Machine ρ} (h : Sized m) (idle : m.worker.chores = []) {r : ρ} {rest : List ρ}
    (queue : m.queue = r :: rest) {p : Phase}
    (fits : m.worker.batch.length + 1 ≤ m.config.batchLimit)
    (room : p.mayBeFull = false → m.worker.batch.length + 1 < m.config.batchLimit)
    (exports : p.exports = false) : Sized ((m.take r rest).goto p) where
  queue := by
    have before := h.queue
    rw [queue] at before
    exact Nat.le_of_succ_le before
  batch := by
    show (m.worker.batch ++ [r]).length ≤ _
    rw [List.length_append]
    exact fits
  room phase := by
    show (m.worker.batch ++ [r]).length < _
    rw [List.length_append]
    exact room phase
  something phase := absurd (exports.symm.trans phase) (by decide)
  needed := h.needed
  chores busy := absurd idle busy

/-- After an export the worker has an empty batch, whatever it goes on with. -/
lemma sized_resume {m : Machine ρ} (queue : m.queue.length ≤ m.config.queueLimit)
    (needed : ∀ n, m.needed = some n → 1 ≤ n ∧ n ≤ m.config.queueLimit)
    (idle : m.worker.chores = []) (empty : m.worker.batch = []) (success : Bool) (p : Purpose) :
    Sized (m.resume success p) where
  queue := by rw [resume_config, resume_queue]; exact queue
  batch := by rw [resume_batch, empty]; exact Nat.zero_le _
  room _ := by rw [resume_config, resume_batch, empty]; exact m.config.batchLimit_pos
  something phase := absurd ((resume_exports m success p).symm.trans phase) (by decide)
  needed := by rw [resume_config, resume_needed]; exact needed
  chores busy := by
    rw [resume_config, resume_batch, empty]
    refine ⟨?_, m.config.batchLimit_pos⟩
    cases p with
    | rest => exact .inl rfl
    | chunk => exact absurd idle busy
    | scheduled => exact absurd idle busy

/-- **The worker keeps to the sizes.** -/
theorem Sized.turn {o : Surroundings} {m m' : Machine ρ} {events : List (Event ρ)} (h : Sized m)
    (idle : m.worker.chores = []) (turn : Turn o m m' events) : Sized m' := by
  cases turn with
  | startNever phase | goOn phase | quit phase | takeNothing phase | count phase | drained phase
  | drainedEarly phase | runOut phase | again phase | sleep phase | timeUp phase | settle phase =>
      exact h.goto idle (fun _ => h.room (by rw [phase]; rfl)) nofun
  | start phase | schedule phase =>
      refine Sized.goto ?_ ?_ ?_ ?_
      · exact h.dueAt _
      · exact idle
      · exact fun _ => h.room (by rw [phase]; rfl)
      · exact nofun
  | takeRequest phase | stayAwake phase | wake phase | leave phase | leaveRequest phase =>
      refine Sized.goto ?_ ?_ ?_ ?_
      · exact h.of_same rfl rfl rfl rfl
      · exact idle
      · exact fun _ => h.room (by rw [phase]; rfl)
      · exact nofun
  | drain phase queue room => exact h.take idle queue (Nat.le_of_lt room) (fun _ => room) rfl
  | drainFull phase queue full =>
      exact h.take idle queue (h.room (by rw [phase]; rfl)) (fun e => nomatch e) rfl
  | pass phase batch => exact sized_resume h.queue h.needed idle batch true _
  | hand phase batch => exact h.goto idle nofun fun _ => batch
  | succeed phase | fail phase | tally phase =>
      exact h.goto idle nofun fun _ => h.something (by rw [phase]; rfl)
  | gauge phase =>
      refine sized_resume ?_ ?_ ?_ ?_ _ _
      · exact h.queue
      · exact h.needed
      · exact idle
      · rfl
  | filledUp phase | filledAll phase | due phase => exact h.goto idle nofun nofun
  | fill phase queue room =>
      rename_i r rest
      have stays : m.take r rest = (m.take r rest).goto .filling := by
        rw [Machine.goto, ← phase]
        rfl
      rw [stays]
      exact h.take idle queue room nofun rfl
  | notDue phase room => exact h.goto idle (fun _ => room) nofun
  | announce phase =>
      have roomy : m.worker.phase.mayBeFull = false := by rw [phase]; rfl
      have announced : Sized { m with needed := some m.lacking } := by
        refine ⟨h.queue, h.batch, h.room, h.something, ?_, h.chores⟩
        rintro n hn
        obtain rfl : m.lacking = n := Option.some.inj hn
        exact h.lacking roomy
      exact announced.goto idle (fun _ => h.room roomy) nofun
  | retract phase =>
      have silent : Sized { m with needed := none } :=
        ⟨h.queue, h.batch, h.room, h.something, nofun, h.chores⟩
      exact silent.goto idle (fun _ => h.room (by rw [phase]; rfl)) nofun
  | answer phase =>
      have room := h.room (by rw [phase]; rfl)
      exact ⟨h.queue, h.batch, fun _ => room, nofun, h.needed, fun _ => ⟨.inr rfl, room⟩⟩

/-- A chore that wakes the worker moves it between phases that are alike as far as records are
concerned. -/
lemma touches_phase {m : Machine ρ} {e : Effect ρ} (touches : Chore.Touches m e) :
    e.machine.worker.phase.mayBeFull = m.worker.phase.mayBeFull ∧
      e.machine.worker.phase.exports = m.worker.phase.exports ∧
      e.machine.inFlight = m.inFlight := by
  rcases touches.phase with same | ⟨asleep, waking⟩
  · rw [inFlight, inFlight, same, touches.batch]
    exact ⟨rfl, rfl, rfl⟩
  · rw [inFlight, inFlight, asleep, waking]
    exact ⟨rfl, rfl, rfl⟩

/-- A chore keeps to the sizes as well, wherever it comes from. -/
theorem Sized.touches {m : Machine ρ} {e : Effect ρ} (h : Sized m) (touches : Chore.Touches m e) :
    Sized e.machine := by
  obtain ⟨mayBeFull, exports, -⟩ := touches_phase touches
  obtain ⟨config, needed, batch, chores, phase, -, bounded, -, -, -⟩ := touches
  refine ⟨?_, ?_, ?_, ?_, ?_, ?_⟩
  · rw [config]
    exact bounded h.queue
  · rw [config, batch]
    exact h.batch
  · rw [config, batch, mayBeFull]
    exact h.room
  · rw [batch, exports]
    exact h.something
  · rw [config, needed]
    exact h.needed
  · rw [config, batch, chores]
    intro busy
    obtain ⟨place, room⟩ := h.chores busy
    refine ⟨?_, room⟩
    rcases phase with same | ⟨asleep, -⟩
    · rwa [same]
    · rw [asleep] at place
      rcases place with place | place <;> cases place

lemma conserves_touches {m : Machine ρ} {e : Effect ρ} (touches : Chore.Touches m e) :
    Conserves m e.machine e.events := by
  obtain ⟨-, exports, inFlight⟩ := touches_phase touches
  refine ⟨?_, ?_⟩
  · rw [working, working, exports, touches.batch, touches.queue, touches.handed]
    exact List.append_assoc _ _ _
  · rw [inFlight, touches.handed, touches.exported]
    exact List.append_nil _

/-! ## All steps -/

/-- While the worker has chores no batch is with the exporter. -/
lemma Sized.exports_of_busy {m : Machine ρ} (h : Sized m) (busy : m.worker.chores ≠ []) :
    m.worker.phase.exports = false := by
  rcases (h.chores busy).1 with phase | phase
  · rw [phase]
    rfl
  · rw [phase]
    rfl

/-- **Every step keeps to the sizes.** -/
theorem Sized.stride {s t : System ρ} {events : List (Event ρ)} (h : Sized s.machine)
    (stride : s.Stride t events) : Sized t.machine := by
  cases stride with
  | turn idle turn => exact h.turn idle turn
  | @chore o c rest first calm =>
      have touches := Chore.touches_run o s.machine c
      have after := h.touches touches
      have place := after.chores (by rw [touches.chores, first]; exact List.cons_ne_nil _ _)
      exact ⟨after.queue, after.batch, after.room, after.something, after.needed, fun _ => place⟩
  | @panic o c rest first panicked =>
      have touches := Chore.touches_run o s.machine c
      have after := h.touches touches
      have place := after.chores (by rw [touches.chores, first]; exact List.cons_ne_nil _ _)
      exact ⟨after.queue, after.batch, fun _ => place.2, nofun, after.needed, fun busy =>
        absurd rfl busy⟩
  | begin => exact h
  | advance => exact h.touches (Chore.touches_run _ s.machine _)

/-- **No step loses or repeats a record.** -/
theorem Sized.conserves {s t : System ρ} {events : List (Event ρ)} (h : Sized s.machine)
    (stride : s.Stride t events) : Conserves s.machine t.machine events := by
  cases stride with
  | turn idle turn => exact turn.conserves
  | @chore o c rest first calm =>
      have balance := conserves_touches (Chore.touches_run o s.machine c)
      exact ⟨balance.records, balance.batches⟩
  | @panic o c rest first panicked =>
      have touches := Chore.touches_run o s.machine c
      have balance := conserves_touches touches
      have exports : (c.run o s.machine).machine.worker.phase.exports = false := by
        rw [(touches_phase touches).2.1]
        exact h.exports_of_busy (by rw [first]; exact List.cons_ne_nil _ _)
      refine ⟨?_, ?_⟩
      · rw [balance.records, working_eq exports]
        rfl
      · rw [balance.batches, inFlight_eq_nil exports]
        rfl
  | begin => exact ⟨List.append_nil _, List.append_nil _⟩
  | advance => exact conserves_touches (Chore.touches_run _ s.machine _)

/-- A batch that is handed on is what the worker has collected. -/
lemma Sized.handed {s t : System ρ} {events : List (Event ρ)} (h : Sized s.machine)
    (stride : s.Stride t events) :
    ∀ batch ∈ handed events, 1 ≤ batch.length ∧ batch.length ≤ s.machine.config.batchLimit := by
  have nothing : ∀ {shown : List (Event ρ)}, Batch.handed shown = [] →
      ∀ batch ∈ Batch.handed shown,
        1 ≤ batch.length ∧ batch.length ≤ s.machine.config.batchLimit := by
    intro shown none batch hmem
    rw [none] at hmem
    exact absurd hmem (by simp)
  cases stride with
  | turn idle turn =>
      cases turn with
      | hand phase batch =>
          intro b hb
          obtain rfl : b = s.machine.worker.batch := by simpa [Batch.handed] using hb
          exact ⟨List.length_pos_iff.mpr batch, h.batch⟩
      | _ => exact nothing rfl
  | chore => exact nothing (Chore.touches_run _ s.machine _).handed
  | panic => exact nothing (Chore.touches_run _ s.machine _).handed
  | begin => exact nothing rfl
  | advance => exact nothing (Chore.touches_run _ s.machine _).handed

end Machine

namespace System

/-- A record is refused only while the queue is full. -/
lemma Stride.queueLimit_le {s t : System ρ} {events : List (Event ρ)} (stride : s.Stride t events)
    {r : ρ} (refused : .refused r ∈ events) :
    s.machine.config.queueLimit ≤ s.machine.queue.length := by
  cases stride with
  | turn idle turn =>
      cases turn <;> simp at refused
  | chore => exact (Chore.touches_run _ s.machine _).refused r refused
  | panic => exact (Chore.touches_run _ s.machine _).refused r refused
  | begin => exact absurd refused (by simp)
  | advance => exact (Chore.touches_run _ s.machine _).refused r refused

lemma Stride.config {s t : System ρ} {events : List (Event ρ)} (stride : s.Stride t events) :
    t.machine.config = s.machine.config := by
  cases stride with
  | turn idle turn =>
      cases turn with
      | pass => exact Machine.resume_config ..
      | gauge => exact Machine.resume_config ..
      | _ => rfl
  | chore => exact (Chore.touches_run _ s.machine _).config
  | panic => exact (Chore.touches_run _ s.machine _).config
  | begin => rfl
  | advance => exact (Chore.touches_run _ s.machine _).config

end System

/-! ## Runs -/

/-- What holds of a run that has shown `shown` and of the machine that it led to. -/
structure Flow (config : Config) (shown : List (Event ρ)) (m : Machine ρ) : Prop where
  same : m.config = config
  sized : m.Sized
  records : accepted shown = (handed shown).flatten ++ (m.working ++ m.queue)
  batches : handed shown = exported shown ++ m.inFlight
  sizes : ∀ batch ∈ handed shown, 1 ≤ batch.length ∧ batch.length ≤ config.batchLimit

lemma flow_start (config : Config) : Flow config [] (Machine.start config : Machine ρ) where
  same := rfl
  sized := Machine.sized_start config
  records := rfl
  batches := rfl
  sizes _ h := absurd h (by simp [handed])

lemma Flow.stride {config : Config} {shown events : List (Event ρ)} {s t : System ρ}
    (h : Flow config shown s.machine) (stride : s.Stride t events) :
    Flow config (shown ++ events) t.machine := by
  have balance := h.sized.conserves stride
  refine ⟨stride.config.trans h.same, h.sized.stride stride, ?_,
    balance.batches_append h.batches, ?_⟩
  · calc accepted (shown ++ events)
        = (handed shown).flatten ++ (s.machine.working ++ s.machine.queue ++ accepted events) := by
          rw [accepted_append, h.records, List.append_assoc]
      _ = (handed shown).flatten ++
          ((handed events).flatten ++ (t.machine.working ++ t.machine.queue)) := by
          rw [balance.records]
      _ = (handed (shown ++ events)).flatten ++ (t.machine.working ++ t.machine.queue) := by
          rw [handed_append, List.flatten_append, List.append_assoc]
  · rw [handed_append]
    intro batch hbatch
    rcases List.mem_append.mp hbatch with hbatch | hbatch
    · exact h.sizes batch hbatch
    · have size := h.sized.handed stride batch hbatch
      rwa [h.same] at size

theorem System.Reaches.flow {config : Config} {shown : List (Event ρ)} {s : System ρ}
    (h : System.Reaches (.start config) shown s) : Flow config shown s.machine := by
  induction h with
  | refl => exact flow_start config
  | step before next ih => exact ih.stride (System.stride_of_step next)

lemma Settings.build_limits {settings : Settings} {config : Config}
    (h : settings.build = .ok config) :
    config.queueLimit = settings.maxQueueSize ∧
      config.batchLimit = min settings.maxExportBatchSize settings.maxQueueSize := by
  rw [build] at h
  split at h
  · cases h
  · split at h
    · cases h
    · split at h
      · cases h
      · split at h
        · cases h
        · cases h
          exact ⟨rfl, rfl⟩

/-- A run that has shown `shown` and led to `s` has kept the records in order and within the
settings. -/
structure System.InOrder (settings : Settings) (shown : List (Event ρ)) (s : System ρ) : Prop where
  /-- What was accepted is what was handed on, then what the worker has collected, then what
  waits. -/
  records : accepted shown = (handed shown).flatten ++ (s.machine.working ++ s.machine.queue)
  /-- Every batch that was handed on is over, once, or in flight. -/
  batches : handed shown = exported shown ++ s.machine.inFlight
  /-- No record is in two batches. -/
  once : (accepted shown).Nodup → (handed shown).Pairwise List.Disjoint
  sizes : ∀ batch ∈ handed shown, 1 ≤ batch.length ∧
    batch.length ≤ min settings.maxExportBatchSize settings.maxQueueSize
  queue : s.machine.queue.length ≤ settings.maxQueueSize
  /-- Only a full queue refuses. -/
  refused : ∀ choice t events r, s.step choice = some (t, events) → .refused r ∈ events →
    s.machine.queue.length = settings.maxQueueSize
  /-- What the worker waits for, and announces, in the branch in which it sleeps. -/
  lacking : s.machine.worker.phase.sleeps = true →
    1 ≤ s.machine.lacking ∧ s.machine.lacking ≤ settings.maxQueueSize

/-- **First in, first out, and every record at most once**, whatever exporter, callers and worker
do. -/
theorem System.Reaches.inOrder {settings : Settings} {config : Config}
    (built : settings.build = .ok config) {shown : List (Event ρ)} {s : System ρ}
    (h : System.Reaches (.start config) shown s) : s.InOrder settings shown := by
  obtain ⟨queueLimit, batchLimit⟩ := Settings.build_limits built
  obtain ⟨same, sized, records, batches, sizes⟩ := h.flow
  have bounded := sized.queue
  rw [same, queueLimit] at bounded
  rw [batchLimit] at sizes
  refine ⟨records, batches, ?_, sizes, bounded, ?_, ?_⟩
  · intro distinct
    rw [records] at distinct
    exact (List.nodup_flatten.mp distinct.of_append_left).2
  · intro choice t events r next refused
    have full := (System.stride_of_step next).queueLimit_le refused
    rw [same, queueLimit] at full
    exact Nat.le_antisymm bounded full
  · intro sleeps
    have phase : s.machine.worker.phase.mayBeFull = false := by
      cases hphase : s.machine.worker.phase with
      | announcing | testing | asleep | waking | retracting => rfl
      | _ =>
          rw [hphase] at sleeps
          cases sleeps
    have lacking := sized.lacking phase
    rwa [same, queueLimit] at lacking

/-- A queue of two records, which is less than a batch would like to have. -/
def narrow : Settings := { maxQueueSize := 2, maxExportBatchSize := 5 }

/-- What the processor makes of it. -/
def narrowConfig : Config where
  scheduleDelay := 1000
  queueLimit := 2
  batchLimit := 2
  exporterTimeout := 30000
  batchLimit_pos := by decide
  batchLimit_le := by decide

/-- Three records, of which one is refused, an export that panics, and one record more. -/
def crowd : List (Choice Nat) :=
  [.begin (.emit 1), .advance 0 {}, .advance 0 {}, .begin (.emit 2), .advance 1 {}, .advance 1 {},
    .begin (.emit 3), .advance 2 {}, .advance 2 {}] ++
  List.replicate 8 (.work {}) ++ [.work { exported := .panicked }, .work {}] ++
  [.begin (.emit 4), .advance 3 {}, .advance 3 {}] ++ List.replicate 9 (.work {})

theorem inOrder_crowd : ∃ shown s, narrow.build = .ok narrowConfig ∧
    System.Reaches (.start narrowConfig) shown s ∧ accepted shown = [1, 2, 4] ∧
      handed shown = [[1, 2]] ∧ s.machine.worker.phase.sleeps = true ∧
      s.InOrder narrow shown := by
  obtain ⟨shown, s, h, accepts, hands, sleeps⟩ := System.exists_reaches (s := .start narrowConfig)
    (P := fun (s, shown) => accepted shown = [1, 2, 4] ∧ handed shown = [[1, 2]] ∧
      s.machine.worker.phase.sleeps = true) crowd (by decide +kernel)
  exact ⟨shown, s, rfl, h, accepts, hands, sleeps, System.Reaches.inOrder rfl h⟩

end ProfilePipeline.Batch
