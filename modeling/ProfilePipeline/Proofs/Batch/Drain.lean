import Mathlib.Tactic.Common
import ProfilePipeline.Proofs.Batch.Flow

/-!
# What one flush exports

A flush reads once how many records wait, and takes that many, while others go on emitting.

**Pieces.**  `pieces` is how a list is cut into batches, and `Cut` what that means: in order,
nothing lost, and only the last piece may be short.

**Progress.**  `Phase.progress?` is what a flush knows: how many records it has to take yet, and
whether all has gone well.  `Draining` is the invariant.  It is carried by one equation: what the
exporter was called with, and the pieces of what the flush has yet to hand on, are the pieces of
everything that the flush began with.

**Runs.**  `System.WithinFlush` is a run up to the end of a flush, in which everybody else may take
any steps in between, and `System.WithinFlush.exports_counted` the main result.
-/

namespace ProfilePipeline.Batch

open Completion (Token)

variable {ρ : Type}

/-! ## Pieces -/

/-- A list in pieces of the same length, of which only the last may be shorter. -/
def pieces (limit : Nat) (rs : List ρ) : List (List ρ) :=
  if _h : 0 < limit ∧ 0 < rs.length then rs.take limit :: pieces limit (rs.drop limit) else []
termination_by rs.length
decreasing_by
  rw [List.length_drop]
  omega

lemma pieces_nil (limit : Nat) : pieces limit ([] : List ρ) = [] := by
  rw [pieces, dif_neg]
  exact fun h => absurd h.2 (Nat.lt_irrefl 0)

lemma pieces_append {front : List ρ} (rs : List ρ) (pos : 0 < front.length) :
    pieces front.length (front ++ rs) = front :: pieces front.length rs := by
  rw [pieces, dif_pos ⟨pos, by rw [List.length_append]; omega⟩, List.take_left, List.drop_left]

lemma pieces_short {limit : Nat} {rs : List ρ} (pos : 0 < rs.length) (short : rs.length < limit) :
    pieces limit rs = [rs] := by
  rw [pieces, dif_pos ⟨by omega, pos⟩, List.take_of_length_le (Nat.le_of_lt short),
    List.drop_of_length_le (Nat.le_of_lt short), pieces_nil]

/-- Some pieces are a list, cut at every multiple of a length. -/
structure Cut (limit : Nat) (rs : List ρ) (chunks : List (List ρ)) : Prop where
  flatten : chunks.flatten = rs
  sizes : ∀ chunk ∈ chunks, 1 ≤ chunk.length ∧ chunk.length ≤ limit
  full : ∀ chunk ∈ chunks.dropLast, chunk.length = limit

theorem cut_pieces {limit : Nat} (pos : 0 < limit) (rs : List ρ) :
    Cut limit rs (pieces limit rs) := by
  induction rs using pieces.induct limit with
  | case1 rs h ih =>
      obtain ⟨flatten, sizes, full⟩ := ih
      rw [pieces, dif_pos h]
      refine ⟨?_, ?_, ?_⟩
      · rw [List.flatten_cons, flatten, List.take_append_drop]
      · refine List.forall_mem_cons.mpr ⟨?_, sizes⟩
        rw [List.length_take]
        omega
      · intro chunk mem
        -- The first piece is not the last one, so there are records behind it.
        cases rest : pieces limit (rs.drop limit) with
        | nil =>
            rw [rest] at mem
            cases mem
        | cons next more =>
            rw [rest, List.dropLast_cons_cons] at mem
            rw [rest] at full sizes flatten
            rcases List.mem_cons.mp mem with rfl | mem
            · have behind : 1 ≤ (rs.drop limit).length := by
                rw [← flatten, List.flatten_cons, List.length_append]
                have := (sizes next (List.mem_cons_self ..)).1
                omega
              rw [List.length_drop] at behind
              rw [List.length_take]
              omega
            · exact full chunk mem
  | case2 rs h =>
      obtain rfl : rs = [] := List.eq_nil_of_length_eq_zero (by omega)
      rw [pieces_nil]
      exact ⟨rfl, by simp, by simp⟩

/-! ## What became of the exports -/

/-- The batches of which the export is over, each with how it ended. -/
def results (shown : List (Event ρ)) : List (List ρ × ExportOutcome) :=
  shown.filterMap fun
    | .exported batch outcome => some (batch, outcome)
    | _ => none

lemma results_append (shown events : List (Event ρ)) :
    results (shown ++ events) = results shown ++ results events :=
  List.filterMap_append

lemma map_fst_results (shown : List (Event ρ)) : (results shown).map Prod.fst = exported shown := by
  rw [results, exported, List.map_filterMap]
  congr 1
  funext event
  cases event <;> rfl

/-- Whether all exports have succeeded. -/
def allSucceeded (shown : List (Event ρ)) : Bool :=
  (results shown).all fun result => result.2 = .succeeded

lemma allSucceeded_append (shown events : List (Event ρ)) :
    allSucceeded (shown ++ events) = (allSucceeded shown && allSucceeded events) := by
  rw [allSucceeded, results_append, List.all_append]
  rfl

lemma allSucceeded_of_exported {events : List (Event ρ)} (none : exported events = []) :
    allSucceeded events = true := by
  rw [← map_fst_results, List.map_eq_nil_iff] at none
  rw [allSucceeded, none]
  rfl

/-! ## How far a flush is -/

/-- What a flush knows while it goes on. -/
structure Progress where
  token : Token
  /-- How many records it has to take yet. -/
  toTake : Nat
  success : Bool

/-- The flush that a batch is exported for, the outcome of that export given. -/
def Purpose.progress? (success : Bool) : Purpose → Option Progress
  | chunk t remaining before => some ⟨t, remaining, success && before⟩
  | rest t before => some ⟨t, 0, success && before⟩
  | scheduled => none

lemma Purpose.progress?_of_true {p : Purpose} {t : Token} {toTake : Nat} {success : Bool}
    (h : p.progress? true = some ⟨t, toTake, success⟩) (b : Bool) :
    p.progress? b = some ⟨t, toTake, b && success⟩ := by
  cases p with
  | chunk =>
      cases h
      rfl
  | rest =>
      cases h
      rfl
  | scheduled => cases h

namespace Phase

/-- The flush that has counted the queue, as far as it has come. -/
def progress? : Phase → Option Progress
  | draining t remaining success => some ⟨t, remaining, success⟩
  | handing p | exporting p | tallying p => p.progress? true
  | gauging p success => p.progress? success
  | _ => none

/-- Whether the worker is in a flush that has counted the queue. -/
def flushes (p : Phase) : Bool := p.progress?.isSome

/-- How often the worker asks the queue for a record in its next step, if it is in a flush. -/
def pops : Phase → Nat
  | draining _ (_ + 1) _ => 1
  | _ => 0

/-- The length of a batch that is not handed on yet. -/
def Fits (limit length : Nat) : Phase → Prop
  | draining _ _ _ | handing (.rest _ _) => length < limit
  | handing (.chunk _ _ _) => length = limit
  | _ => True

end Phase

/-- A bound for the steps that a flush takes when the export of a batch is over. -/
def Purpose.toGo : Purpose → Nat
  | chunk _ remaining _ => 5 * remaining + 5
  | rest _ _ | scheduled => 0

/-- A bound for the steps that a flush still takes. -/
def Phase.toGo : Phase → Nat
  | draining _ remaining _ => 5 * remaining + 5
  | handing p => p.toGo + 4
  | exporting p => p.toGo + 3
  | tallying p => p.toGo + 2
  | gauging p _ => p.toGo + 1
  | _ => 0

/-- The account of a flush that began in `s`, with `toTake` records to take yet and at most `toGo`
steps to go. -/
structure Account (s : Machine ρ) (steps pops : Nat) (shown : List (Event ρ)) (m : Machine ρ)
    (toTake : Nat) (success : Bool) (toGo : Nat) : Prop where
  config : m.config = s.config
  /-- **What was handed on and what is yet to be.** -/
  chunks : handed shown ++ pieces s.config.batchLimit (m.working ++ m.queue.take toTake) =
    pieces s.config.batchLimit (s.worker.batch ++ s.queue)
  later : m.queue.drop toTake = accepted shown
  enough : toTake ≤ m.queue.length
  success : success = allSucceeded shown
  pops : pops + toTake = s.queue.length
  steps : steps + toGo ≤ 5 * s.queue.length + 5

/-- A flush that began in `s` is going on. -/
structure Draining (s : Machine ρ) (t : Token) (steps pops : Nat) (shown : List (Event ρ))
    (m : Machine ρ) (toTake : Nat) (success : Bool) : Prop where
  phase : m.worker.phase.progress? = some ⟨t, toTake, success⟩
  idle : m.worker.chores = []
  fits : m.worker.phase.Fits s.config.batchLimit m.worker.batch.length
  account : Account s steps pops shown m toTake success m.worker.phase.toGo

/-- A flush that began in `s` is over, and about to give its completion an outcome. -/
structure Drained (s : Machine ρ) (t : Token) (steps pops : Nat) (shown : List (Event ρ))
    (m : Machine ρ) (success : Bool) : Prop where
  phase : m.worker.phase = .filling
  chores : m.worker.chores = [.resolve t success]
  batch : m.worker.batch = []
  account : Account s steps pops shown m 0 success 0

/-! ## One step -/

namespace Account

variable {s m m' : Machine ρ} {steps pops toTake toGo toGo' : Nat} {shown events : List (Event ρ)}
  {success success' : Bool}

/-- A step that moves no records. -/
lemma still (h : Account s steps pops shown m toTake success toGo) (config : m'.config = m.config)
    (working : m'.working = m.working) (queue : m'.queue = m.queue)
    (accepted : accepted events = []) (handed : Batch.handed events = [])
    (exported : Batch.exported events = []) (less : toGo' + 1 ≤ toGo) :
    Account s (steps + 1) pops (shown ++ events) m' toTake success toGo' where
  config := config.trans h.config
  chunks := by
    rw [handed_append, handed, List.append_nil, working, queue]
    exact h.chunks
  later := by
    rw [accepted_append, accepted, List.append_nil, queue]
    exact h.later
  enough := by
    rw [queue]
    exact h.enough
  success := by
    rw [allSucceeded_append, allSucceeded_of_exported exported, Bool.and_true]
    exact h.success
  pops := h.pops
  steps := by
    have := h.steps
    omega

/-- A step of somebody else. -/
lemma touches {e : Effect ρ} (h : Account s steps pops shown m toTake success toGo)
    (touches : Chore.Touches m e) :
    Account s steps pops (shown ++ e.events) e.machine toTake success toGo := by
  obtain ⟨-, exports, -⟩ := Machine.touches_phase touches
  have working : e.machine.working = m.working := by
    rw [Machine.working, Machine.working, exports, touches.batch]
  refine ⟨touches.config.trans h.config, ?_, ?_, ?_, ?_, h.pops, h.steps⟩
  · rw [handed_append, touches.handed, List.append_nil, working, touches.queue,
      List.take_append_of_le_length h.enough]
    exact h.chunks
  · rw [accepted_append, touches.queue, List.drop_append_of_le_length h.enough, h.later]
  · rw [touches.queue, List.length_append]
    exact Nat.le_add_right_of_le h.enough
  · rw [allSucceeded_append, allSucceeded_of_exported touches.exported, Bool.and_true]
    exact h.success

/-- A record is taken. -/
lemma take {r : ρ} {queue : List ρ} {p : Phase}
    (h : Account s steps pops shown m (toTake + 1) success toGo) (found : m.queue = r :: queue)
    (before : m.worker.phase.exports = false) (after : p.exports = false)
    (less : toGo' + 1 ≤ toGo) :
    Account s (steps + 1) (pops + 1) (shown ++ []) ((m.take r queue).goto p) toTake success
      toGo' where
  config := h.config
  chunks := by
    have chunks := h.chunks
    rw [Machine.working_eq before, found, List.take_succ_cons] at chunks
    rw [List.append_nil, ← chunks, Machine.working_eq after]
    show _ ++ pieces _ (m.worker.batch ++ [r] ++ queue.take toTake) = _
    rw [List.append_assoc]
    rfl
  later := by
    rw [List.append_nil, ← h.later, found]
    rfl
  enough := by
    have enough := h.enough
    rw [found, List.length_cons] at enough
    exact Nat.le_of_succ_le_succ enough
  success := by
    rw [List.append_nil]
    exact h.success
  pops := by
    have := h.pops
    omega
  steps := by
    have := h.steps
    omega

/-- The batch is handed on. -/
lemma hand {p : Purpose} (h : Account s steps pops shown m toTake success toGo)
    (before : m.worker.phase.exports = false)
    (next : pieces s.config.batchLimit (m.worker.batch ++ m.queue.take toTake) =
      m.worker.batch :: pieces s.config.batchLimit (m.queue.take toTake))
    (less : toGo' + 1 ≤ toGo) :
    Account s (steps + 1) pops (shown ++ [.handed m.worker.batch]) (m.goto (.exporting p)) toTake
      success toGo' where
  config := h.config
  chunks := by
    have chunks := h.chunks
    rw [Machine.working_eq before, next] at chunks
    rw [handed_append, ← chunks, Machine.working_eq_nil rfl, List.append_assoc]
    rfl
  later := by
    rw [accepted_append, ← h.later]
    exact (List.append_nil _).symm
  enough := h.enough
  success := by
    rw [allSucceeded_append, ← h.success]
    exact (Bool.and_true _).symm
  pops := h.pops
  steps := by
    have := h.steps
    omega

/-- The export of the batch is over. -/
lemma finish {p : Purpose} {phase : Phase} {outcome : ExportOutcome}
    (h : Account s steps pops shown m toTake success toGo) (before : m.worker.phase = .exporting p)
    (after : phase.exports = true)
    (result : success' = (success && decide (outcome = .succeeded))) (less : toGo' + 1 ≤ toGo) :
    Account s (steps + 1) pops (shown ++ [.exported m.worker.batch outcome]) (m.goto phase) toTake
      success' toGo' where
  config := h.config
  chunks := by
    have chunks := h.chunks
    rw [Machine.working_eq_nil (by rw [before]; rfl)] at chunks
    rw [handed_append, ← chunks, Machine.working_eq_nil after]
    exact congrArg (· ++ _) (List.append_nil _)
  later := by
    rw [accepted_append, ← h.later]
    exact (List.append_nil _).symm
  enough := h.enough
  success := by
    rw [allSucceeded_append, ← h.success, result]
    exact congrArg (success && ·) (Bool.and_true _).symm
  pops := h.pops
  steps := by
    have := h.steps
    omega

end Account

/-- Where a flush that began in `s` stands. -/
inductive Course (s : Machine ρ) (t : Token) (steps pops : Nat) (shown : List (Event ρ))
    (m : Machine ρ) : Prop where
  | going {toTake : Nat} {success : Bool}
      (h : Draining s t steps pops shown m toTake success) : Course s t steps pops shown m
  | ended {success : Bool} (h : Drained s t steps pops shown m success) :
      Course s t steps pops shown m

namespace Draining

variable {s m m' : Machine ρ} {t : Token} {steps pops toTake : Nat} {shown events : List (Event ρ)}
  {success : Bool}

/-- The next piece is the batch. -/
lemma pieces_batch (h : Draining s t steps pops shown m toTake success) {p : Purpose}
    (phase : m.worker.phase = .handing p) (batch : m.worker.batch ≠ []) :
    pieces s.config.batchLimit (m.worker.batch ++ m.queue.take toTake) =
      m.worker.batch :: pieces s.config.batchLimit (m.queue.take toTake) := by
  have fits := h.fits
  have progress := h.phase
  have some := List.length_pos_iff.mpr batch
  rw [phase] at fits progress
  cases p with
  | chunk t' remaining before =>
      have full : m.worker.batch.length = s.config.batchLimit := fits
      rw [← full, pieces_append _ some]
  | rest t' before =>
      cases progress
      rw [List.take_zero, List.append_nil, pieces_nil]
      exact pieces_short some fits
  | scheduled => cases progress

/-- **A step of the worker.** -/
theorem turn {o : Surroundings} (h : Draining s t steps pops shown m toTake success)
    (turn : Machine.Turn o m m' events) :
    Course s t (steps + 1) (pops + m.worker.phase.pops) (shown ++ events) m' := by
  obtain ⟨progress, idle, fits, account⟩ := h
  cases turn with
  | drained phase =>
      have still : m.worker.phase.exports = false := by rw [phase]; rfl
      rw [phase] at progress fits account ⊢
      cases progress
      refine .going ⟨rfl, idle, fits, account.still rfl ?_ rfl rfl rfl rfl (Nat.le_refl _)⟩
      rw [Machine.working_eq still, Machine.working_eq rfl]
      rfl
  | drainedEarly phase queue =>
      rw [phase] at progress
      cases progress
      have enough := account.enough
      rw [queue] at enough
      cases enough
  | drain phase queue room =>
      have still : m.worker.phase.exports = false := by rw [phase]; rfl
      rw [phase] at progress account ⊢
      cases progress
      refine .going ⟨rfl, idle, ?_, account.take queue still rfl ?_⟩
      · show (m.worker.batch ++ [_]).length < _
        rw [List.length_append, ← account.config]
        exact room
      · show 5 * _ + 5 + 1 ≤ 5 * (_ + 1) + 5
        omega
  | drainFull phase queue full =>
      have still : m.worker.phase.exports = false := by rw [phase]; rfl
      rw [phase] at progress fits account ⊢
      cases progress
      refine .going ⟨rfl, idle, ?_, account.take queue still rfl ?_⟩
      · show (m.worker.batch ++ [_]).length = _
        rw [account.config] at full
        rw [List.length_append]
        exact Nat.le_antisymm fits full
      · show 5 * _ + 5 + 4 + 1 ≤ 5 * (_ + 1) + 5
        omega
  | @pass p phase batch =>
      have still : m.worker.phase.exports = false := by rw [phase]; rfl
      rw [phase] at progress fits account ⊢
      cases p with
      | chunk t' remaining before =>
          have full : m.worker.batch.length = s.config.batchLimit := fits
          rw [batch] at full
          exact absurd full.symm (Nat.ne_of_gt s.config.batchLimit_pos)
      | rest t' before =>
          cases progress
          refine .ended ⟨rfl, ?_, batch, account.still rfl ?_ rfl rfl rfl rfl ?_⟩
          · exact congrArg (fun success => [Chore.resolve t success]) (Bool.and_comm ..)
          · rw [Machine.working_eq still, Machine.working_eq rfl]
            rfl
          · exact Nat.succ_le_succ (Nat.zero_le _)
      | scheduled => cases progress
  | hand phase batch =>
      have next := pieces_batch ⟨progress, idle, fits, account⟩ phase batch
      have still : m.worker.phase.exports = false := by rw [phase]; rfl
      rw [phase] at progress account ⊢
      exact .going ⟨progress, idle, trivial, account.hand still next (Nat.le_refl _)⟩
  | succeed phase outcome =>
      rw [phase] at progress account ⊢
      refine .going ⟨progress, idle, trivial, account.finish phase rfl ?_ (Nat.le_refl _)⟩
      rw [outcome]
      exact (Bool.and_true _).symm
  | fail phase outcome =>
      rw [phase] at progress account ⊢
      refine .going ⟨Purpose.progress?_of_true progress false, idle, trivial,
        account.finish phase rfl ?_ (Nat.le_succ _)⟩
      rw [decide_eq_false outcome]
      exact (Bool.and_false _).symm
  | tally phase =>
      have away : m.worker.phase.exports = true := by rw [phase]; rfl
      rw [phase] at progress account ⊢
      refine .going ⟨progress, idle, trivial,
        account.still rfl ?_ rfl rfl rfl rfl (Nat.le_refl _)⟩
      rw [Machine.working_eq_nil away, Machine.working_eq_nil rfl]
  | @gauge p _ phase =>
      have away : m.working = [] := Machine.working_eq_nil (by rw [phase]; rfl)
      rw [phase] at progress account ⊢
      cases p with
      | chunk t' remaining before =>
          cases progress
          rw [Bool.and_comm] at account
          refine .going ⟨rfl, idle, s.config.batchLimit_pos,
            account.still rfl ?_ rfl rfl rfl rfl (Nat.le_refl _)⟩
          rw [away, Machine.working_eq rfl]
          rfl
      | rest t' before =>
          cases progress
          rw [Bool.and_comm] at account
          refine .ended ⟨rfl, rfl, rfl, account.still rfl ?_ rfl rfl rfl rfl (Nat.le_refl _)⟩
          rw [away, Machine.working_eq rfl]
          rfl
      | scheduled => cases progress
  -- In no other phase is there a flush that has counted the queue.
  | _ => exact absurd progress (by simp [Phase.progress?, *])

/-- **A step of somebody else.** -/
theorem touches {e : Effect ρ} (h : Draining s t steps pops shown m toTake success)
    (touches : Chore.Touches m e) :
    Draining s t steps pops (shown ++ e.events) e.machine toTake success := by
  obtain ⟨progress, idle, fits, account⟩ := h
  have same : e.machine.worker.phase = m.worker.phase := by
    rcases touches.phase with same | ⟨asleep, -⟩
    · exact same
    · rw [asleep] at progress
      cases progress
  refine ⟨?_, touches.chores.trans idle, ?_, ?_⟩
  · rw [same]
    exact progress
  · rw [same, touches.batch]
    exact fits
  · rw [same]
    exact account.touches touches

/-- **The worker is never stuck in a flush.** -/
theorem exists_workerStep (h : Draining s t steps pops shown m toTake success)
    (o : Surroundings) : ∃ m' events, m.workerStep o = some (m', events) := by
  have progress := h.phase
  rw [Machine.workerStep, h.idle]
  show ∃ m' events, m.phaseStep o = some (m', events)
  rw [Machine.phaseStep]
  cases phase : m.worker.phase with
  | draining t' remaining before =>
      cases remaining with
      | zero => exact ⟨_, _, rfl⟩
      | succ remaining =>
          cases queue : m.queue with
          | nil => exact ⟨_, _, rfl⟩
          | cons r rest => exact ⟨_, _, rfl⟩
  | handing p =>
      simp only
      split
      · exact ⟨_, _, rfl⟩
      · exact ⟨_, _, rfl⟩
  | exporting p => exact ⟨_, _, rfl⟩
  | tallying p => exact ⟨_, _, rfl⟩
  | gauging p before => exact ⟨_, _, rfl⟩
  | _ =>
      rw [phase] at progress
      cases progress

end Draining

namespace System

variable {s u v w : System ρ} {shown events : List (Event ρ)} {choice : Choice ρ}

/-- What everybody but the worker can do. -/
lemma touches_of_step (other : ∀ o, choice ≠ .work o) (next : v.step choice = some (w, events)) :
    ∃ e : Effect ρ, Chore.Touches v.machine e ∧ e.machine = w.machine ∧ e.events = events := by
  cases choice with
  | work o => exact absurd rfl (other o)
  | begin call =>
      obtain ⟨same, rfl⟩ : v.machine = w.machine ∧ events = [] := by
        cases call with
        | settle answer success =>
            simp only [step] at next
            split at next
            · cases next
              exact ⟨rfl, rfl⟩
            · cases next
        | emit r =>
            cases next
            exact ⟨rfl, rfl⟩
        | flush =>
            cases next
            exact ⟨rfl, rfl⟩
        | shutdown =>
            cases next
            exact ⟨rfl, rfl⟩
      exact ⟨{ machine := v.machine }, .quiet rfl rfl rfl rfl rfl rfl rfl (by simp), same, rfl⟩
  | advance i o =>
      simp only [step, Option.bind_eq_bind, Option.bind_eq_some_iff, Option.pure_def,
        Option.some.injEq, Prod.mk.injEq] at next
      obtain ⟨th, -, ⟨m, th', events⟩, hstep, rfl, rfl⟩ := next
      rw [Thread.step] at hstep
      split at hstep
      · cases hstep
      · rename_i c rest first
        cases hstep
        exact ⟨c.run o v.machine, Chore.touches_run o v.machine c, rfl, rfl⟩

/-! ## Runs -/

/-- **A run that ends no later than the flush that the worker is in**: how many steps the worker
has taken, how often it has asked the queue for a record, and what was shown.  Everybody else may
take any steps in between. -/
inductive WithinFlush (s : System ρ) : Nat → Nat → List (Event ρ) → System ρ → Prop where
  | refl : WithinFlush s 0 0 [] s
  | work {steps pops : Nat} {shown events : List (Event ρ)} {v w : System ρ} {o : Surroundings}
      (before : WithinFlush s steps pops shown v) (inside : v.machine.worker.phase.flushes = true)
      (next : v.step (.work o) = some (w, events)) :
      WithinFlush s (steps + 1) (pops + v.machine.worker.phase.pops) (shown ++ events) w
  | other {steps pops : Nat} {shown events : List (Event ρ)} {v w : System ρ} {choice : Choice ρ}
      (before : WithinFlush s steps pops shown v) (inside : v.machine.worker.phase.flushes = true)
      (foreign : ∀ o, choice ≠ .work o) (next : v.step choice = some (w, events)) :
      WithinFlush s steps pops (shown ++ events) w

/-- A flush begins to count. -/
lemma course_count {t : Token} {o : Surroundings}
    (counting : s.machine.worker.phase = .counting t) (idle : s.machine.worker.chores = [])
    (room : s.machine.worker.batch.length < s.machine.config.batchLimit)
    (count : s.step (.work o) = some (v, events)) :
    Course s.machine t 0 0 [] v.machine ∧ v.machine.inFlight = [] := by
  have still : s.machine.worker.phase.exports = false := by rw [counting]; rfl
  simp only [step, Machine.workerStep, idle, Machine.phaseStep, counting, Option.bind_eq_bind,
    Option.bind_some, Option.pure_def, Option.some.injEq, Prod.mk.injEq] at count
  obtain ⟨rfl, rfl⟩ := count
  refine ⟨.going ⟨rfl, idle, room, rfl, ?_, ?_, Nat.le_refl _, rfl, Nat.zero_add _, ?_⟩,
    Machine.inFlight_eq_nil rfl⟩
  · rw [Machine.working_eq rfl]
    show [] ++ pieces _ (_ ++ s.machine.queue.take s.machine.queue.length) = _
    rw [List.take_length, List.nil_append]
    rfl
  · exact List.drop_length
  · exact Nat.le_of_eq (Nat.zero_add _)

/-- **A run keeps the account.** -/
theorem WithinFlush.course {m : Machine ρ} {t : Token} {steps pops : Nat}
    (h : v.WithinFlush steps pops shown w) (start : Course m t 0 0 [] v.machine)
    (landed : v.machine.inFlight = []) :
    Course m t steps pops shown w.machine ∧
      handed shown = exported shown ++ w.machine.inFlight := by
  induction h with
  | refl => exact ⟨start, landed.symm⟩
  | @work steps pops shown events v' w' o before inside next ih =>
      obtain ⟨course, batches⟩ := ih
      cases course with
      | going h =>
          simp only [step, Machine.workerStep, h.idle, Option.bind_eq_bind,
            Option.bind_eq_some_iff, Option.pure_def, Option.some.injEq, Prod.mk.injEq] at next
          obtain ⟨⟨m', events⟩, hstep, rfl, rfl⟩ := next
          have turn := Machine.turn_of_phaseStep hstep
          exact ⟨h.turn turn, turn.conserves.batches_append batches⟩
      | ended h =>
          rw [h.phase] at inside
          cases inside
  | other before inside foreign next ih =>
      obtain ⟨course, batches⟩ := ih
      cases course with
      | going h =>
          obtain ⟨e, touches, machine, rfl⟩ := touches_of_step foreign next
          rw [← machine]
          exact ⟨.going (h.touches touches),
            (Machine.conserves_touches touches).batches_append batches⟩
      | ended h =>
          rw [h.phase] at inside
          cases inside

/-- What a flush has done that began in `s` and is over. -/
structure Exported (s : Machine ρ) (t : Token) (shown : List (Event ρ)) (m : Machine ρ)
    (success : Bool) : Prop where
  /-- The worker is about to give the completion its outcome, and then goes on with its cycle. -/
  answer : m.worker.phase = .filling ∧ m.worker.chores = [.resolve t success]
  /-- The flush has succeeded exactly if the export of every batch has. -/
  success : success = true ↔ ∀ result ∈ results shown, result.2 = .succeeded
  /-- What was in the batch and in the queue was handed on in pieces, nothing else was, and each
  piece was exported once, whatever became of those before. -/
  handed : handed shown = pieces s.config.batchLimit (s.worker.batch ++ s.queue)
  exported : (results shown).map Prod.fst = Batch.handed shown
  /-- Only the last piece may be short, and none is empty. -/
  cut : Cut s.config.batchLimit (s.worker.batch ++ s.queue) (Batch.handed shown)
  batch : m.worker.batch = []
  /-- Whatever was accepted since is still in the queue. -/
  queue : m.queue = accepted shown

/-- A run that ends no later than a flush that begins in `s`. -/
structure Flushes (s : System ρ) (t : Token) (steps pops : Nat) (shown : List (Event ρ))
    (e : System ρ) : Prop where
  steps : steps ≤ 5 * s.machine.queue.length + 5
  pops : pops ≤ s.machine.queue.length
  goesOn : e.machine.worker.phase.flushes = true →
    ∀ o, ∃ w events, e.step (.work o) = some (w, events)
  ended : e.machine.worker.phase.flushes = false →
    ∃ success, Exported s.machine t shown e.machine success

/-- **A flush exports what there was when it counted**, whatever becomes of the exports and
whatever others do meanwhile. -/
theorem WithinFlush.exports_counted {t : Token} {o : Surroundings} {e : System ρ} {steps pops : Nat}
    (counting : s.machine.worker.phase = .counting t) (idle : s.machine.worker.chores = [])
    (room : s.machine.worker.batch.length < s.machine.config.batchLimit)
    (count : s.step (.work o) = some (v, events)) (h : v.WithinFlush steps pops shown e) :
    Flushes s t steps pops shown e := by
  obtain ⟨start, landed⟩ := course_count counting idle room count
  obtain ⟨course, batches⟩ := h.course start landed
  cases course with
  | going h =>
      have account := h.account
      refine ⟨Nat.le_of_add_right_le account.steps, Nat.le.intro account.pops, ?_, ?_⟩
      · intro _ o
        obtain ⟨m', events, hstep⟩ := h.exists_workerStep o
        exact ⟨{ e with machine := m' }, events, by rw [step, hstep]; rfl⟩
      · intro ended
        rw [Phase.flushes, h.phase] at ended
        cases ended
  | @ended success h =>
      have account := h.account
      have handed : handed shown =
          pieces s.machine.config.batchLimit (s.machine.worker.batch ++ s.machine.queue) := by
        rw [← account.chunks, Machine.working_eq (by rw [h.phase]; rfl), h.batch, List.take_zero,
          List.nil_append, pieces_nil, List.append_nil]
      refine ⟨account.steps, Nat.le.intro account.pops, ?_, fun _ => ⟨success, ?_⟩⟩
      · intro inside
        rw [h.phase] at inside
        cases inside
      · refine ⟨⟨h.phase, h.chores⟩, ?_, handed, ?_, ?_, h.batch, account.later⟩
        · rw [account.success, allSucceeded, List.all_eq_true]
          simp only [decide_eq_true_eq]
        · rw [map_fst_results, batches, Machine.inFlight_eq_nil (by rw [h.phase]; rfl),
            List.append_nil]
        · rw [handed]
          exact cut_pieces s.machine.config.batchLimit_pos _

/-- A worker with batches of two, and a call that emits the record 4. -/
def small (phase : Phase) (batch queue : List Nat) (chores : List (Chore Nat)) : System Nat where
  machine := { config := narrowConfig, queue, worker := { phase, batch } }
  threads := [{ call := .emit 4, chores }]

/-- The first batch is full and its export panics, while somebody emits one more record; then the
rest is exported. -/
theorem exports_small : ∃ v shown e,
    (small (.counting 0) [1] [2, 3] [.offer 4]).step (.work {}) = some (v, []) ∧
      v.WithinFlush 10 2 shown e ∧ handed shown = [[1, 2], [3]] ∧ e.machine.queue = [4] ∧
      e.machine.worker.phase = .filling ∧
      Flushes (small (.counting 0) [1] [2, 3] [.offer 4]) 0 10 2 shown e := by
  have h : WithinFlush (small (.draining 0 2 true) [1] [2, 3] [.offer 4]) 1 1 []
      (small (.handing (.chunk 0 1 true)) [1, 2] [3] [.offer 4]) :=
    WithinFlush.refl.work (o := {}) rfl rfl
  have h : WithinFlush _ 2 1 _ (small (.exporting (.chunk 0 1 true)) [1, 2] [3] [.offer 4]) :=
    h.work (o := {}) rfl rfl
  have h : WithinFlush _ 2 1 _
      (small (.exporting (.chunk 0 1 true)) [1, 2] [3, 4] [.readLength]) :=
    h.other rfl (by nofun) (rfl : step _ (.advance 0 {}) = _)
  have h : WithinFlush _ 4 1 _ (small (.draining 0 1 false) [] [3, 4] [.readLength]) :=
    (h.work (o := { exported := .panicked }) rfl rfl).work (o := {}) rfl rfl
  have h : WithinFlush _ 6 2 _ (small (.handing (.rest 0 false)) [3] [4] [.readLength]) :=
    (h.work (o := {}) rfl rfl).work (o := {}) rfl rfl
  have h : WithinFlush _ 8 2 _ (small (.tallying (.rest 0 false)) [3] [4] [.readLength]) :=
    (h.work (o := {}) rfl rfl).work (o := {}) rfl rfl
  have h := (h.work (o := {}) rfl rfl).work (o := {}) rfl rfl
  exact ⟨_, _, _, rfl, h, rfl, rfl, rfl, h.exports_counted rfl rfl (by decide) (o := {}) rfl⟩

end System

end ProfilePipeline.Batch
