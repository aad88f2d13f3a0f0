import Mathlib.Data.List.Infix
import Mathlib.Tactic.Common
import ProfilePipeline.Proofs.Batch.Flush
import ProfilePipeline.Proofs.Batch.Winner

/-!
# Shutting down

The batch processor is shut down once, and only when it has handed on what it had accepted before.

**Draining.**  The flush that the winner waits for is tracked like any other (`Tracked`), and with
either outcome, because the worker does not stop before it is told to (`Machine.GoesOn`).  Whoever
knows its outcome therefore knows that the records are handed on, and only they tell the worker to
stop or shut the exporter down (`Drains`).

**The verdict.**  When both outcomes are there, the completion of the winner has been resolved by
what they come to, or somebody is about to do that (`System.Settling.finishes`).

**Runs.**  `System.Reaches.closes` is the main result.
-/

namespace ProfilePipeline.Batch

open Completion (Token Store)

variable {ρ : Type}

/-! ## A worker that goes on -/

namespace Machine

/-- A worker that is not told to stop does not. -/
def GoesOn (m : Machine ρ) : Prop :=
  m.continueWork = true → m.stopped = false ∧ m.worker.phase ≠ .leaving

variable {o : Surroundings} {m m' : Machine ρ} {events : List (Event ρ)}

lemma resume_ne_leaving {success : Bool} {p : Purpose} :
    (m.resume success p).worker.phase ≠ .leaving := by
  cases p <;> rintro ⟨⟩

lemma GoesOn.turn (h : m.GoesOn) (turn : Turn o m m' events) : m'.GoesOn := by
  intro on
  obtain ⟨running, stays⟩ := h (turn.steady.continueWork.symm.trans on)
  cases turn with
  | quit phase halted => cases halted.symm.trans on
  | leave phase | leaveRequest phase => exact absurd phase stays
  | pass | gauge => exact ⟨(resume_stopped ..).trans running, resume_ne_leaving⟩
  | fill => exact ⟨running, stays⟩
  | _ => exact ⟨running, by rintro ⟨⟩⟩

end Machine

namespace System

variable {s t : System ρ} {roles : List Role} {shown events : List (Event ρ)}

lemma Stride.continueWork (stride : s.Stride t events) (on : t.machine.continueWork = true) :
    s.machine.continueWork = true := by
  cases stride.moves with
  | idle steady => exact steady.continueWork.symm.trans on
  | @run o c rest ran =>
      rw [ran.machine] at on
      rcases (Chore.shares_run o s.machine c).continueWork with rfl | same
      · cases on
      · exact same.symm.trans on

lemma Stride.goesOn (stride : s.Stride t events) (h : s.machine.GoesOn) : t.machine.GoesOn := by
  intro on
  obtain ⟨running, stays⟩ := h (stride.continueWork on)
  have run : ∀ {o : Surroundings} {c : Chore ρ}, (c.run o s.machine).machine.stopped = false ∧
      (c.run o s.machine).machine.worker.phase ≠ .leaving := by
    intro o c
    refine ⟨(Chore.keeps_run o s.machine c).stopped.trans running, ?_⟩
    exact (Chore.touches_run o s.machine c).phase_after (P := (· ≠ .leaving)) stays nofun
  cases stride with
  | turn idle turn => exact h.turn turn on
  | chore => exact run
  | panic => exact ⟨run.1, by rintro ⟨⟩⟩
  | begin => exact ⟨running, stays⟩
  | advance => exact run

theorem Reaches.goesOn {config : Config} (h : Reaches (start config) shown s) :
    s.machine.GoesOn := by
  induction h with
  | refl => exact fun _ => ⟨rfl, by rintro ⟨⟩⟩
  | step before next ih => exact (stride_of_step next).goesOn ih

end System

/-! ## Draining -/

/-- By the time the exporter is shut down, the records `early` have been handed on. -/
def DrainedFirst (early : List ρ) (shown : List (Event ρ)) : Prop :=
  ∀ first last, shown = first ++ .exporterShutdown :: last → early <+: (handed first).flatten

section Drains

variable {early : List ρ} {shown events : List (Event ρ)} {m : Machine ρ} {flush? : Option Token}

lemma prefix_handed_append (h : early <+: (handed shown).flatten) :
    early <+: (handed (shown ++ events)).flatten := by
  rw [handed_append, List.flatten_append]
  exact h.trans (List.prefix_append ..)

lemma drainedFirst_of_eq_zero (none : exporterShutdowns shown = 0) : DrainedFirst early shown := by
  rintro first last rfl
  simp [exporterShutdowns] at none

lemma DrainedFirst.append (h : DrainedFirst early shown)
    (now : .exporterShutdown ∈ events → early <+: (handed shown).flatten) :
    DrainedFirst early (shown ++ events) := by
  intro first last split
  rcases List.append_eq_append_iff.mp split with ⟨more, rfl, rest⟩ | ⟨more, rfl, rest⟩
  · refine prefix_handed_append (now ?_)
    rw [rest]
    exact List.mem_append_right _ (List.mem_cons_self ..)
  · cases more with
    | nil =>
        rw [List.append_nil] at now
        refine now ?_
        rw [← rest.trans (List.nil_append _)]
        exact List.mem_cons_self ..
    | cons event more =>
        cases rest
        exact h first more rfl

/-- Only one chore shuts the exporter down. -/
lemma Chore.shutExporter_of_shown {o : Surroundings} {c : Chore ρ}
    (h : .exporterShutdown ∈ (c.run o m).events) : ∃ flushed done, c = .shutExporter flushed done := by
  have paid := Dues.paid_shutting o m c
  have pos : 0 < exporterShutdowns (c.run o m).events := List.countP_pos_iff.mpr ⟨_, h, rfl⟩
  rw [← paid] at pos
  cases c with
  | shutExporter flushed done => exact ⟨flushed, done, rfl⟩
  | call r => cases r <;> exact absurd pos (Nat.lt_irrefl 0)
  | _ => exact absurd pos (Nat.lt_irrefl 0)

/-- How far a shutdown that waits for the flush `flush?` has got with the records `early`. -/
structure Drains (early : List ρ) (shown : List (Event ρ)) (flush? : Option Token)
    (m : Machine ρ) : Prop where
  early_le : early <+: accepted shown
  going : m.continueWork = true → ∀ f, flush? = some f → ∀ b, Tracked early shown m f b
  halted : m.continueWork = false → early <+: (handed shown).flatten
  first : DrainedFirst early shown

/-- When the flush has an outcome, the records have been handed on. -/
lemma Drains.handed (h : Drains early shown flush? m) (goesOn : m.GoesOn) {f : Token} {b : Bool}
    (flush : flush? = some f) (outcome : m.outcome? f = some b) :
    early <+: (handed shown).flatten := by
  cases on : m.continueWork with
  | false => exact h.halted on
  | true =>
      have past := (h.going on f flush b).outcome outcome
      rwa [Machine.past, Machine.leftBehind, (goesOn on).1, if_neg Bool.false_ne_true,
        List.append_nil] at past

end Drains

namespace System

variable {s t u : System ρ} {roles : List Role} {shown events before after : List (Event ρ)}
  {i : Nat} {done : Token} {flush? : Option Token} {early : List ρ} {config : Config}

/-- Whoever tells the worker to stop or shuts the exporter down knows the outcome of the flush. -/
lemma Settling.handed (h : s.Settling roles shown i done flush?) (goesOn : s.machine.GoesOn)
    (drains : Drains early shown flush? s.machine) {c : Chore ρ} (holds : s.Holds c)
    (late : c = .halt ∨ ∃ flushed d, c = .shutExporter flushed d) :
    early <+: (handed shown).flatten := by
  have tells := h.tells.holds holds
  rcases late with rfl | ⟨flushed, d, rfl⟩
  · obtain ⟨f, b, flush, outcome⟩ := tells
    exact drains.handed goesOn flush outcome
  · obtain ⟨flush, -, b, outcome⟩ := tells
    exact drains.handed goesOn flush outcome

/-- **A step keeps to the order**: the records first, then the end of the worker and of the
exporter. -/
theorem Settling.drains {flush'? : Option Token} (h : s.Settling roles shown i done flush?)
    (flow : Flow config shown s.machine) (orderly : s.machine.Orderly) (goesOn : s.machine.GoesOn)
    (drains : Drains early shown flush? s.machine) (stride : s.Stride t events)
    (known : flush'? = flush? ∨
      flush? = none ∧ ∃ f, flush'? = some f ∧ s.Asks i f done t events) :
    Drains early (shown ++ events) flush'? t.machine := by
  have moves := stride.moves
  refine ⟨?_, ?_, ?_, drains.first.append ?_⟩
  · rw [accepted_append]
    exact drains.early_le.trans (List.prefix_append ..)
  · intro on f flush b
    have running := (goesOn (stride.continueWork on)).1
    have sound : s.machine.stopped = true → b = true := by
      intro stopped
      cases running.symm.trans stopped
    rcases known with rfl | ⟨-, g, asked, ⟨isNew, reply⟩, rfl, -⟩
    · have tracked := drains.going (stride.continueWork on) f flush b
      exact stride.tracked sound flow drains.early_le orderly h.conduct.fits (h.minded f flush).1 tracked
    · cases flush.symm.trans asked
      rw [List.append_nil]
      exact tracked_reply sound flow drains.early_le h.conduct.fits.machine orderly reply
  · intro off
    refine prefix_handed_append ?_
    cases moves with
    | idle steady => exact drains.halted (steady.continueWork.symm.trans off)
    | @run o c rest ran =>
        rw [ran.machine] at off
        rcases (Chore.shares_run o s.machine c).continueWork with rfl | same
        · exact h.handed goesOn drains ran.holds (.inl rfl)
        · exact drains.halted (same.symm.trans off)
  · intro now
    cases moves with
    | idle steady shown => exact absurd now shown
    | run ran =>
        rw [ran.shown] at now
        exact h.handed goesOn drains ran.holds (.inr (Chore.shutExporter_of_shown now))

/-- The winner has not handed anything on yet. -/
lemma Wins.drains (wins : s.Wins i t) (conduct : s.Conduct roles before) :
    Drains (accepted before) before none t.machine := by
  have halting := conduct.halting
  have shutting := conduct.shutting
  rw [wins.up, if_neg Bool.false_ne_true] at halting shutting
  obtain ⟨-, -, -, -, -, -, -, -, -, rfl⟩ := wins.eq
  have on : s.machine.continueWork = true := by
    by_contra off
    rw [if_neg off] at halting
    omega
  refine ⟨List.prefix_rfl, nofun, ?_, drainedFirst_of_eq_zero (by omega)⟩
  intro off
  cases on.symm.trans off

/-- **In a whole run the winner drains first.** -/
theorem Wins.reaches (wins : s.Wins i t) (h : Reaches (start config) before s)
    (h' : Reaches t after u) :
    ∃ roles flush?, u.Settling roles (before ++ after) i s.machine.store.size flush? ∧
      Drains (accepted before) (before ++ after) flush? u.machine := by
  obtain ⟨roles, conduct⟩ := h.conduct
  obtain ⟨-, -, -, -, -, -, -, choice, step, -⟩ := wins.eq
  have reached := h.step step
  rw [List.append_nil] at reached
  induction h' with
  | refl =>
      obtain ⟨roles, settling⟩ := wins.settling conduct
      rw [List.append_nil]
      exact ⟨roles, none, settling, wins.drains conduct⟩
  | step between next ih =>
      obtain ⟨roles, flush?, settling, drains⟩ := ih
      have here := reached.trans between
      have stride := stride_of_step next
      obtain ⟨more, flush'?, settling', known⟩ := settling.stride here.flow.sized stride
      rw [← List.append_assoc]
      exact ⟨_, flush'?, settling',
        settling.drains here.flow here.orderly.1 here.goesOn drains stride known⟩

end System

/-! ## The verdict -/

/-- A chore that will have the shutdown of `done` resolved. -/
def Chore.Finishes (flushed done : Token) (success : Bool) : Chore ρ → Prop
  | resolve t b => t = done ∧ b = success
  | call (.conclude f d) _ | attach _ f d => f = flushed ∧ d = done
  | _ => False

section Verdict

variable {m : Machine ρ} {flushed done : Token} {b : Bool}

lemma Machine.Concludes.unique {b' : Bool} (h : m.Concludes flushed b)
    (h' : m.Concludes flushed b') : b = b' := by
  obtain ⟨answer, c, d, answers, flush, outcome, rfl⟩ := h
  obtain ⟨answer', c', d', answers', flush', outcome', rfl⟩ := h'
  cases answers.symm.trans answers'
  cases flush.symm.trans flush'
  cases outcome.symm.trans outcome'
  rfl

/-- Whoever has the completion in custody, once the exporter was asked, will have it resolved. -/
lemma Chore.Tells.finishes {c : Chore ρ} (tells : c.Tells m (some flushed) done)
    (owed : 0 < (Dues.of done).chore c) (late : Dues.shutting.chore c = 0)
    (concludes : m.Concludes flushed b) : c.Finishes flushed done b := by
  cases c with
  | resolve t success =>
      have this : t = done := by
        by_contra other
        have free : (Dues.of done).chore (.resolve t success : Chore ρ) = 0 := if_neg other
        omega
      obtain ⟨f, ⟨⟩, concludes'⟩ := tells this
      exact ⟨this, concludes'.unique concludes⟩
  | call r success =>
      cases r with
      | stop => cases late
      | conclude f d =>
          obtain ⟨⟨⟩, rfl, -⟩ := tells
          exact ⟨rfl, rfl⟩
  | attach answer f d =>
      obtain ⟨⟨⟩, rfl, -⟩ := tells
      exact ⟨rfl, rfl⟩
  | shutExporter | watch => cases late
  | request d =>
      cases d with
      | none => cases owed
      | some d => cases late
  | _ => cases owed

end Verdict

namespace System

variable {s t u : System ρ} {roles : List Role} {shown events before after : List (Event ρ)}
  {i j : Nat} {done : Token} {flush? : Option Token} {config : Config} {th : Thread ρ}

/-- **When both outcomes are there, so is the verdict**, or somebody is about to give it. -/
theorem Settling.finishes {f : Token} {b : Bool} (h : s.Settling roles shown i done (some f))
    (whole : ¬ s.IsBroken i) (concludes : s.machine.Concludes f b) :
    s.machine.outcome? done = some b ∨ ∃ c, s.Holds c ∧ c.Finishes f done b := by
  have custody := h.custody.resolve_left whole
  cases outcome : s.machine.outcome? done with
  | some b' =>
      left
      obtain ⟨g, ⟨⟩, concludes'⟩ := h.tells.outcome b' outcome
      rw [concludes'.unique concludes]
  | none =>
      right
      rw [InCustody, if_pos outcome] at custody
      obtain ⟨answer, c, d, answers, flush, answered, rfl⟩ := concludes
      have asked : 1 ≤ exporterShutdowns shown := by
        have bound := h.conduct.answers
        rwa [answers] at bound
      have shutting : Dues.shutting.system s = 0 := by
        have sum := h.conduct.shutting
        rw [h.won.down, if_pos rfl] at sum
        omega
      rcases (Dues.of done).exists_of_pos (s := s) (by omega) with
        ⟨c, holds, owed⟩ | ⟨t, r, waits, -⟩
      · refine ⟨c, holds, (h.tells.holds holds).finishes owed ?_ ⟨answer, _, _, answers, flush, answered, rfl⟩⟩
        have le := Dues.shutting.le_system holds
        omega
      · -- Nothing waits any more, as both completions are resolved.
        have pending : s.machine.outcome? t = none := waits.outcome?
        have told := h.tells.waiting t r waits
        cases r with
        | stop g d =>
            obtain rfl : t = g := h.conduct.posted t _ waits
            obtain ⟨⟨⟩, -⟩ := told
            cases pending.symm.trans flush
        | conclude g d =>
            obtain ⟨-, -, answers', -⟩ := told
            cases answers.symm.trans answers'
            cases pending.symm.trans answered

/-! ## Calls that come too late -/

/-- A shutdown that loses does nothing in its only step. -/
lemma Won.loser_step (won : s.Won i done) (other : j ≠ i) (found : s.threads[j]? = some th)
    (shutdown : th.call = .shutdown) {o : Surroundings}
    (next : s.step (.advance j o) = some (t, events)) :
    events = [] ∧ t.machine = { s.machine with store := (s.machine.store.settled true).1 } := by
  rcases won.losers j th other found shutdown with claims | ⟨ended, -⟩
  · cases (step_advance found claims).symm.trans next
    rw [Chore.run, if_pos won.down]
    exact ⟨rfl, rfl⟩
  · simp [step, found, Thread.step, ended] at next

/-- An emission that begins when the processor is out of service. -/
lemma Stride.late_emit (stride : s.Stride t events) (down : s.machine.isShutdown = true) {n : Nat}
    (h : ∀ j th r, n ≤ j → s.threads[j]? = some th → th.call = .emit r →
      th.chores = [.enter r] ∨ th.chores = []) :
    ∀ j th r, n ≤ j → t.threads[j]? = some th → th.call = .emit r →
      th.chores = [.enter r] ∨ th.chores = [] := by
  intro j th r late found call
  rcases stride.thread_before found with same | ⟨new, rfl⟩ |
    ⟨o, old, c, rest, earlier, first, rfl, -⟩
  · exact h j th r late same call
  · have new : new = .emit r := call
    subst new
    exact .inl rfl
  · rcases h j old r late earlier ((old.after_call ..).symm.trans call) with enters | ended
    · cases first.symm.trans enters
      right
      rw [Thread.after, Chore.run, if_pos down]
      rfl
    · cases first.symm.trans ended

lemma Reaches.late_emit (h : Reaches t after u) (down : t.machine.isShutdown = true) :
    u.machine.isShutdown = true ∧ ∀ j th r, t.threads.length ≤ j → u.threads[j]? = some th →
      th.call = .emit r → th.chores = [.enter r] ∨ th.chores = [] := by
  induction h with
  | refl =>
      refine ⟨down, fun j th r late found => ?_⟩
      rw [List.getElem?_eq_none late] at found
      cases found
  | step between next ih =>
      have stride := stride_of_step next
      exact ⟨stride.down ih.1, stride.late_emit ih.1 ih.2⟩

/-- It has no effect at all. -/
lemma late_emit_step {r : ρ} (found : s.threads[j]? = some th)
    (stands : th.chores = [.enter r] ∨ th.chores = []) {o : Surroundings}
    (next : s.step (.advance j o) = some (t, events)) : events = [] ∧ t.machine = s.machine := by
  rcases stands with enters | ended
  · cases (step_advance found enters).symm.trans next
    exact ⟨rfl, rfl⟩
  · simp [step, found, Thread.step, ended] at next

/-! ## Runs -/

/-- The exporter's shutdown has not panicked. -/
def IsCalm (s : System ρ) : Prop :=
  s.machine.worker.phase ≠ .dead ∧ ∀ th ∈ s.threads, th.panicked = false

/-- **What a shutdown achieves** that wins in the call `i`, with the step from `s` to `t`, when the
run has then gone on to `u`.  It shows `before` up to its claim, and `after` since then. -/
structure ShutsDown (before : List (Event ρ)) (s : System ρ) (i : Nat) (t : System ρ)
    (after : List (Event ρ)) (u : System ρ) : Prop where
  /-- All records that were accepted before are handed on before the exporter is shut down. -/
  drains : DrainedFirst (accepted before) (before ++ after)
  /-- The call keeps to its completion, unless the exporter's shutdown panics in it. -/
  returns : ∃ th, u.threads[i]? = some th ∧ th.call = .shutdown ∧
    (th.result = some s.machine.store.size ∨ th.IsBroken)
  /-- The outcome is what those of the flush and of the exporter's shutdown come to. -/
  verdict : ∀ b, u.machine.outcome? s.machine.store.size = some b →
    ∃ f, Waited i f s.machine.store.size t u ∧ u.machine.Concludes f b
  /-- When there are both, there is an outcome, or somebody is about to give it. -/
  resolves : u.IsCalm → ∀ f b, Waited i f s.machine.store.size t u → u.machine.Concludes f b →
    u.machine.outcome? s.machine.store.size = some b ∨
      ∃ c, u.Holds c ∧ c.Finishes f s.machine.store.size b
  /-- Every other shutdown does nothing and returns a success. -/
  losers : ∀ j th, j ≠ i → u.threads[j]? = some th → th.call = .shutdown → th.Loses u.machine ∧
    ∀ o v events, u.step (.advance j o) = some (v, events) →
      events = [] ∧ v.machine = { u.machine with store := (u.machine.store.settled true).1 }
  /-- Every emission that begins later does nothing. -/
  late : ∀ j th r, t.threads.length ≤ j → u.threads[j]? = some th → th.call = .emit r →
    ∀ o v events, u.step (.advance j o) = some (v, events) →
      events = [] ∧ v.machine = u.machine

/-- What holds of shutdowns in a run that has shown `shown` and led to `u`. -/
structure Closes (config : Config) (shown : List (Event ρ)) (u : System ρ) : Prop where
  once : exporterShutdowns shown ≤ 1
  /-- Nothing happens to the exporter before a call wins. -/
  unclaimed : u.machine.isShutdown = false → exporterShutdowns shown = 0
  claimed : u.machine.isShutdown = true → ∃ before s i t after, shown = before ++ after ∧
    Reaches (start config) before s ∧ s.Wins i t ∧ Reaches t after u
  won : ∀ before s i t after, shown = before ++ after → Reaches (start config) before s →
    s.Wins i t → Reaches t after u → ShutsDown before s i t after u

/-- **The batch processor is shut down once, and drained first**, however calls and worker meet. -/
theorem Reaches.closes (h : Reaches (start config) shown u) : u.Closes config shown := by
  obtain ⟨roles, conduct⟩ := h.conduct
  refine ⟨conduct.once, ?_, h.claimed, ?_⟩
  · intro up
    have shutting := conduct.shutting
    rw [up, if_neg Bool.false_ne_true] at shutting
    omega
  · rintro before s i t after rfl toWin wins fromWin
    obtain ⟨_, conduct'⟩ := toWin.conduct
    obtain ⟨_, settling⟩ := wins.settling conduct'
    obtain ⟨-, -, -, -, -, -, -, choice, step, -⟩ := wins.eq
    have reached := toWin.step step
    rw [List.append_nil] at reached
    obtain ⟨_, flush?, now, drains⟩ := wins.reaches toWin fromWin
    obtain ⟨-, emits⟩ := fromWin.late_emit settling.won.down
    refine ⟨drains.first, now.won.winner, ?_, ?_, ?_, ?_⟩
    · intro b outcome
      obtain ⟨_, flush'?, now, known⟩ := settling.reaches reached fromWin
      obtain ⟨f, rfl, concludes⟩ := now.tells.outcome b outcome
      rcases known with ⟨⟨⟩⟩ | ⟨-, g, ⟨⟩, waited⟩
      exact ⟨_, waited, concludes⟩
    · intro calm f b waited concludes
      obtain ⟨_, _, now⟩ := settling.of_waited reached waited
      refine now.finishes ?_ concludes
      rintro (dead | ⟨th, found, -, -, panicked⟩)
      · exact calm.1 dead
      · cases (calm.2 th (List.mem_of_getElem? found)).symm.trans panicked
    · intro j th other found shutdown
      refine ⟨now.won.losers j th other found shutdown, ?_⟩
      intro o v events next
      exact now.won.loser_step other found shutdown next
    · intro j th r later found call o v events next
      exact late_emit_step found (emits j th r later found call) next

end System

/-- A record, a flush, two shutdowns of which the first joins that flush, and a record that comes
too late. -/
def rivals : List (Choice Nat) :=
  [.begin (.emit 7)] ++ List.replicate 4 (.advance 0 {}) ++
  [.begin .flush, .advance 1 {}, .begin .shutdown, .begin .shutdown, .advance 2 {}, .advance 3 {},
    .advance 2 {}, .advance 2 {}, .advance 1 {}, .advance 1 {}] ++
  List.replicate 27 (.work {}) ++ [.begin (.emit 8), .advance 4 {}]

theorem closes_rivals : ∃ shown, ∃ s : System Nat, System.Reaches (.start narrowConfig) shown s ∧
    accepted shown = [7] ∧ handed shown = [[7]] ∧ exporterShutdowns shown = 1 ∧
      s.machine.worker.phase = .finished ∧ s.threads.all Thread.isOver = true ∧
      (s.threads.map fun th => th.result.bind s.machine.outcome?) =
        [none, some true, some true, some true, none] ∧
      s.Closes narrowConfig shown := by
  obtain ⟨shown, s, h, accepts, hands, once, ended, returned, outcomes⟩ :=
    System.exists_reaches (s := .start narrowConfig) (P := fun (s, shown) =>
      accepted shown = [7] ∧ handed shown = [[7]] ∧ exporterShutdowns shown = 1 ∧
        s.machine.worker.phase = .finished ∧ s.threads.all Thread.isOver = true ∧
        (s.threads.map fun th => th.result.bind s.machine.outcome?) =
          [none, some true, some true, some true, none]) rivals (by decide +kernel)
  exact ⟨shown, s, h, accepts, hands, once, ended, returned, outcomes, System.Reaches.closes h⟩

end ProfilePipeline.Batch
