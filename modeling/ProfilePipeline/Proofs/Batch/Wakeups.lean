import Mathlib.Data.List.Infix
import Mathlib.Tactic.Common
import ProfilePipeline.Proofs.Batch.Conduct
import ProfilePipeline.Proofs.Batch.Flow
import ProfilePipeline.Proofs.Batch.Requests

/-!
# No wake-up is lost

The worker goes to sleep in four separate steps: it announces how many records it waits for, looks
at the signal and at the queue, sleeps, and takes the announcement back.  Callers put something in
its way first and raise the signal afterwards, also in separate steps.

**Who wakes it.**  While the worker sleeps and the signal is down, whatever it should look at has
been put there by a call that has not raised the signal yet, and that will (`System.Wakeful`).  For
records that is a race: the call compares the length of the queue with the announcement, and both
are read after the push, as the announcement is made before the worker looks at the queue.

**What a reset forgets.**  Nothing: from the moment the worker resets the signal it is on its way to
the head of its cycle, and does not sleep again before it has looked at everything that was there
(`System.LooksAgain`).

`System.Reaches.attentive` is the main result.
-/

namespace ProfilePipeline.Batch

open Completion (Token)

variable {ρ : Type}

/-! ## Phases -/

/-- The worker has announced how many records it waits for. -/
def Phase.announces : Phase → Bool
  | testing | asleep | waking | retracting => true
  | _ => false

/-- The worker has been where it takes a request, and may sleep before it is there again. -/
def Phase.pastRequest : Phase → Bool
  | counting _ | draining _ _ _ | handing _ | exporting _ | tallying _ | gauging _ _ | filling
  | deciding | scheduling | checking | announcing | testing | asleep => true
  | _ => false

/-- The worker has looked whether to go on, and may sleep before it looks again. -/
def Phase.pastHead (p : Phase) : Bool := p = .taking || p.pastRequest

/-! ## Calls that are about to wake the worker -/

namespace Thread

/-- An emission on its way from its push to waking the worker. -/
def BringsRecord (m : Machine ρ) (th : Thread ρ) : Prop :=
  (∃ r, th.call = .emit r) ∧
    (th.chores = [.readLength] ∨ (∃ length, m.lacking ≤ length ∧ th.chores = [.compare length]) ∨
      th.chores = [.raise, .notify])

/-- A call that has requested the flush `t` and is about to wake the worker. -/
def BringsRequest (t : Token) (th : Thread ρ) : Prop :=
  th.call = .flush ∧ th.result = some t ∧ th.chores = [.raise, .notify] ∨
    th.call = .shutdown ∧ ∃ done, th.result = some done ∧
      th.chores = [.raise, .notify, .watch t done]

/-- A shutdown that has told the worker to stop and is about to wake it. -/
def BringsHalt (th : Thread ρ) : Prop :=
  th.call = .shutdown ∧ ∃ flushed done, th.result = some done ∧
    th.chores = [.raise, .notify, .shutExporter flushed done]

/-- A call that has raised the signal and is about to wake the worker. -/
def Notifies (th : Thread ρ) : Prop := ∃ rest, th.chores = .notify :: rest

end Thread

/-- **The invariant**: whatever the worker may miss while the signal is down has somebody who is
about to raise it. -/
structure System.Wakeful (s : System ρ) : Prop where
  announced : s.machine.worker.phase.announces = true → s.machine.needed = some s.machine.lacking
  records : s.machine.worker.phase = .asleep → s.machine.signaled = false →
    s.machine.lacking ≤ s.machine.queue.length → ∃ th ∈ s.threads, th.BringsRecord s.machine
  request : s.machine.worker.phase.pastRequest = true → s.machine.signaled = false →
    ∀ t, s.machine.requested = some t → ∃ th ∈ s.threads, th.BringsRequest t
  halt : s.machine.worker.phase.pastHead = true → s.machine.signaled = false →
    s.machine.continueWork = false →
      (∃ th ∈ s.threads, th.BringsHalt) ∨ ∃ rest, s.machine.worker.chores = .raise :: rest
  notified : s.machine.worker.phase = .asleep → s.machine.signaled = true →
    ∃ th ∈ s.threads, th.Notifies

/-! ## The cycle -/

namespace Machine

@[simp] lemma resume_signaled (m : Machine ρ) (success : Bool) (p : Purpose) :
    (m.resume success p).signaled = m.signaled := by
  cases p <;> rfl

@[simp] lemma resume_continueWork (m : Machine ρ) (success : Bool) (p : Purpose) :
    (m.resume success p).continueWork = m.continueWork := by
  cases p <;> rfl

@[simp] lemma resume_announces (m : Machine ρ) (success : Bool) (p : Purpose) :
    (m.resume success p).worker.phase.announces = false := by
  cases p <;> rfl

variable {o : Surroundings} {m m' : Machine ρ} {events : List (Event ρ)}

lemma lacking_eq (config : m'.config = m.config) (batch : m'.worker.batch = m.worker.batch) :
    m'.lacking = m.lacking := by
  rw [lacking, lacking, config, batch]

lemma Turn.announced (turn : Turn o m m' events)
    (h : m.worker.phase.announces = true → m.needed = some m.lacking) :
    m'.worker.phase.announces = true → m'.needed = some m'.lacking := by
  intro announces
  cases turn with
  | announce => rfl
  | sleep phase | stayAwake phase | timeUp phase | wake phase => exact h (by rw [phase]; rfl)
  | fill phase =>
      have filling : m.worker.phase.announces = true := announces
      rw [phase] at filling
      cases filling
  | pass | gauge =>
      rw [resume_announces] at announces
      cases announces
  | _ => cases announces

/-- The cycle does not pass by a request. -/
lemma Turn.request (turn : Turn o m m' events) (past : m'.worker.phase.pastRequest = true)
    (silent : m'.signaled = false) {t : Token} (request : m'.requested = some t) :
    m.worker.phase.pastRequest = true ∧ m.signaled = false ∧ m.requested = some t := by
  cases turn with
  | takeNothing phase none => cases none.symm.trans request
  | takeRequest => cases request
  | fill phase => exact ⟨past, silent, request⟩
  | pass phase | gauge phase =>
      rw [resume_signaled] at silent
      rw [resume_requested] at request
      exact ⟨by rw [phase]; rfl, silent, request⟩
  | count phase | drained phase | drainedEarly phase | drain phase | drainFull phase | hand phase
  | succeed phase | fail phase | tally phase | filledUp phase | filledAll phase | due phase
  | notDue phase | schedule phase | settle phase | announce phase | sleep phase =>
      exact ⟨by rw [phase]; rfl, silent, request⟩
  | _ => cases past

/-- The cycle does not go on if it is told to stop. -/
lemma Turn.halt (turn : Turn o m m' events) (past : m'.worker.phase.pastHead = true)
    (silent : m'.signaled = false) (stop : m'.continueWork = false) :
    m.worker.phase.pastHead = true ∧ m.signaled = false ∧ m.continueWork = false := by
  cases turn with
  | goOn phase going => cases going.symm.trans stop
  | fill phase => exact ⟨past, silent, stop⟩
  | pass phase | gauge phase =>
      rw [resume_signaled] at silent
      rw [resume_continueWork] at stop
      exact ⟨by rw [phase]; rfl, silent, stop⟩
  | takeNothing phase | takeRequest phase | count phase | drained phase | drainedEarly phase
  | drain phase | drainFull phase | hand phase | succeed phase | fail phase | tally phase
  | filledUp phase | filledAll phase | due phase | notDue phase | schedule phase | settle phase
  | announce phase | sleep phase => exact ⟨by rw [phase]; rfl, silent, stop⟩
  | _ => cases past

/-- The worker falls asleep when the signal is down and the queue is short. -/
lemma Turn.asleep (turn : Turn o m m' events) (asleep : m'.worker.phase = .asleep) :
    m'.signaled = false ∧ m'.queue.length < m'.lacking := by
  cases turn with
  | sleep phase signal short => exact ⟨signal, short⟩
  | fill phase =>
      have filling : m.worker.phase = .asleep := asleep
      rw [phase] at filling
      cases filling
  | @pass p => cases p <;> cases asleep
  | @gauge p => cases p <;> cases asleep
  | _ => cases asleep

end Machine

/-! ## Steps of calls and of the worker -/

/-- Where the signal is down after a chore, that chore has not raised it. -/
lemma Chore.silent_of_run {o : Surroundings} {m : Machine ρ} {c : Chore ρ}
    (silent : (c.run o m).machine.signaled = false) : c ≠ .raise ∧ m.signaled = false := by
  rcases (shares_run o m c).signaled with rfl | same
  · cases silent
  · refine ⟨?_, same.symm.trans silent⟩
    rintro rfl
    cases silent

lemma Chore.machine_request (o : Surroundings) (m : Machine ρ) (done : Option Token) :
    ((request done : Chore ρ).run o m).machine = m.requestFlush.1 := by
  cases done <;> rfl

namespace System

variable {s t : System ρ} {roles : List Role} {shown events : List (Event ρ)}

/-- Whoever is about to do something still is after a step of a call, unless it was that call. -/
lemma exists_mem_set {P Q : Thread ρ → Prop} {threads : List (Thread ρ)} {i : Nat}
    {th next : Thread ρ} (found : threads[i]? = some th) (h : ∃ x ∈ threads, P x)
    (others : ∀ x, P x → Q x) (self : P th → Q next) : ∃ x ∈ threads.set i next, Q x := by
  obtain ⟨x, mem, hx⟩ := h
  obtain ⟨j, hj⟩ := List.mem_iff_getElem?.mp mem
  obtain ⟨lt, -⟩ := List.getElem?_eq_some_iff.mp found
  by_cases same : i = j
  · subst same
    obtain rfl : th = x := Option.some.inj (found.symm.trans hj)
    exact ⟨next, List.mem_set lt next, self hx⟩
  · refine ⟨x, List.mem_of_getElem? (i := j) ?_, others x hx⟩
    exact (List.getElem?_set_ne same).trans hj

/-- A worker that has chores is neither asleep nor about to be. -/
lemma busy_run {o : Surroundings} {c : Chore ρ} {rest : List (Chore ρ)} (sized : s.machine.Sized)
    (first : s.machine.worker.chores = c :: rest) :
    (c.run o s.machine).machine.worker.phase = s.machine.worker.phase ∧
      (s.machine.worker.phase = .filling ∨ s.machine.worker.phase = .finished) := by
  have busy := (sized.chores (by rw [first]; exact List.cons_ne_nil _ _)).1
  refine ⟨?_, busy⟩
  rcases (Chore.touches_run o s.machine c).phase with same | ⟨asleep, -⟩
  · exact same
  · rw [asleep] at busy
    rcases busy with busy | busy <;> cases busy

/-- The worker's cycle keeps the invariant. -/
lemma Wakeful.turn (h : s.Wakeful) {o : Surroundings} {m : Machine ρ}
    (idle : s.machine.worker.chores = []) (turn : Machine.Turn o s.machine m events) :
    Wakeful { s with machine := m } where
  announced := turn.announced h.announced
  records asleep _ enough := absurd enough (Nat.not_le.mpr (turn.asleep asleep).2)
  request past silent u request := by
    obtain ⟨past, silent, request⟩ := turn.request past silent request
    exact h.request past silent u request
  halt past silent stop := by
    obtain ⟨past, silent, stop⟩ := turn.halt past silent stop
    rcases h.halt past silent stop with brings | ⟨rest, first⟩
    · exact .inl brings
    · cases idle.symm.trans first
  notified asleep loud := by cases (turn.asleep asleep).1.symm.trans loud

/-- A chore of the worker keeps the invariant. -/
lemma Wakeful.chore (h : s.Wakeful) (conduct : s.Conduct roles shown) (sized : s.machine.Sized)
    {o : Surroundings} {c : Chore ρ} {rest : List (Chore ρ)}
    (first : s.machine.worker.chores = c :: rest) :
    Wakeful { s with machine := { (c.run o s.machine).machine with worker :=
      { (c.run o s.machine).machine.worker with chores := (c.run o s.machine).chores ++ rest } } } := by
  have shares := Chore.shares_run o s.machine c
  have next := conduct.worker_next first
  obtain ⟨phase, busy⟩ := busy_run (o := o) sized first
  have awake : (c.run o s.machine).machine.worker.phase ≠ .asleep := by
    intro asleep
    rw [← phase, asleep] at busy
    rcases busy with busy | busy <;> cases busy
  refine ⟨?_, fun asleep => absurd asleep awake, ?_, ?_, fun asleep => absurd asleep awake⟩
  · intro announces
    have before : s.machine.worker.phase.announces = true := phase ▸ announces
    rcases busy with busy | busy <;> rw [busy] at before <;> cases before
  · intro past silent u request
    rcases shares.requested with ⟨done, rfl⟩ | same
    · rcases next with ⟨_, _, _, ⟨⟩, _⟩ | ⟨_, _, -, impossible⟩
      exact impossible.elim
    · exact h.request (phase ▸ past) (Chore.silent_of_run silent).2 u (same.symm.trans request)
  · intro past silent stop
    rcases shares.continueWork with rfl | same
    · rcases next with ⟨_, _, _, ⟨⟩, _⟩ | ⟨_, _, -, ends⟩
      have ends : rest = _ := ends
      subst ends
      exact .inr ⟨_, rfl⟩
    · rcases h.halt (phase ▸ past) (Chore.silent_of_run silent).2 (same.symm.trans stop) with
        brings | ⟨later, raises⟩
      · exact .inl brings
      · rw [first] at raises
        cases raises
        exact absurd rfl (Chore.silent_of_run silent).1

/-- A call that begins keeps the invariant. -/
lemma Wakeful.begin (h : s.Wakeful) (th : Thread ρ) :
    Wakeful { s with threads := s.threads ++ [th] } := by
  have still : ∀ {P : Thread ρ → Prop}, (∃ x ∈ s.threads, P x) → ∃ x ∈ s.threads ++ [th], P x := by
    rintro P ⟨x, mem, hx⟩
    exact ⟨x, List.mem_append_left _ mem, hx⟩
  refine ⟨h.announced, ?_, ?_, ?_, ?_⟩
  · exact fun asleep silent enough => still (h.records asleep silent enough)
  · exact fun past silent u request => still (h.request past silent u request)
  · exact fun past silent stop => (h.halt past silent stop).imp_left still
  · exact fun asleep loud => still (h.notified asleep loud)

section Advance

variable {o : Surroundings} {i : Nat} {th : Thread ρ} {c : Chore ρ} {rest : List (Chore ρ)}

lemma exists_after {P : Thread ρ → Prop} (found : s.threads[i]? = some th)
    (hp : P (th.after (c.run o s.machine) rest)) :
    ∃ x ∈ s.threads.set i (th.after (c.run o s.machine) rest), P x := by
  obtain ⟨lt, -⟩ := List.getElem?_eq_some_iff.mp found
  exact ⟨_, List.mem_set lt _, hp⟩

/-- A worker that sleeps after a step of a call has slept before. -/
lemma asleep_of_run (asleep : (c.run o s.machine).machine.worker.phase = .asleep) :
    s.machine.worker.phase = .asleep := by
  exact (Chore.touches_run o s.machine c).phase_before (P := (· = .asleep)) asleep nofun

lemma Wakeful.records_advance (h : s.Wakeful) (conduct : s.Conduct roles shown)
    (found : s.threads[i]? = some th) (first : th.chores = c :: rest)
    (asleep : (c.run o s.machine).machine.worker.phase = .asleep)
    (silent : (c.run o s.machine).machine.signaled = false)
    (enough : (c.run o s.machine).machine.lacking ≤ (c.run o s.machine).machine.queue.length) :
    ∃ x ∈ s.threads.set i (th.after (c.run o s.machine) rest),
      x.BringsRecord (c.run o s.machine).machine := by
  have touches := Chore.touches_run o s.machine c
  have lacking := Machine.lacking_eq touches.config touches.batch
  have before := asleep_of_run asleep
  obtain ⟨other, silent⟩ := Chore.silent_of_run silent
  have still : (c.run o s.machine).machine.queue = s.machine.queue →
      ∃ x ∈ s.threads.set i (th.after (c.run o s.machine) rest),
        x.BringsRecord (c.run o s.machine).machine := by
    intro same
    rw [lacking, same] at enough
    refine exists_mem_set found (h.records before silent enough) ?_ ?_
    · intro x brings
      rw [Thread.BringsRecord, lacking]
      exact brings
    · rintro ⟨call, chores | ⟨length, enough, chores⟩ | chores⟩
      · cases first.symm.trans chores
        exact ⟨call, .inr (.inl ⟨_, lacking ▸ enough, rfl⟩)⟩
      · cases first.symm.trans chores
        have announced := h.announced (by rw [before]; rfl)
        refine ⟨call, .inr (.inr ?_)⟩
        simp [Thread.after, Chore.run, announced, enough]
      · cases first.symm.trans chores
        exact absurd rfl other
  rcases (Chore.shares_run o s.machine c).queue with ⟨r, rfl⟩ | same
  · by_cases room : s.machine.queue.length < s.machine.config.queueLimit
    · obtain ⟨call, rfl⟩ := conduct.placed (List.mem_of_getElem? found) first
      refine exists_after found ⟨?_, .inl ?_⟩
      · simpa [Thread.after, Chore.run, room] using call
      · simp [Thread.after, Chore.run, room]
    · refine still ?_
      rw [Chore.run, if_neg room]
  · exact still same

lemma Wakeful.request_advance (h : s.Wakeful) (conduct : s.Conduct roles shown)
    (found : s.threads[i]? = some th) (first : th.chores = c :: rest)
    (past : (c.run o s.machine).machine.worker.phase.pastRequest = true)
    (silent : (c.run o s.machine).machine.signaled = false) {u : Token}
    (request : (c.run o s.machine).machine.requested = some u) :
    ∃ x ∈ s.threads.set i (th.after (c.run o s.machine) rest), x.BringsRequest u := by
  obtain ⟨other, silent⟩ := Chore.silent_of_run silent
  have before : s.machine.worker.phase.pastRequest = true :=
    (Chore.touches_run o s.machine c).phase_before (P := (·.pastRequest = true)) past nofun
  have still : s.machine.requested = some u →
      ∃ x ∈ s.threads.set i (th.after (c.run o s.machine) rest), x.BringsRequest u := by
    intro request
    refine exists_mem_set found (h.request before silent u request) (fun _ brings => brings) ?_
    rintro (⟨-, -, chores⟩ | ⟨-, done, -, chores⟩)
    · cases first.symm.trans chores
      exact absurd rfl other
    · cases first.symm.trans chores
      exact absurd rfl other
  rcases (Chore.shares_run o s.machine c).requested with ⟨done, rfl⟩ | same
  · have placed := conduct.placed (List.mem_of_getElem? found) first
    rw [Chore.machine_request] at request
    obtain ⟨⟨m, v, isNew⟩, hq⟩ : ∃ q, s.machine.requestFlush = q := ⟨_, rfl⟩
    have reply := s.machine.replies_requestFlush
    rw [hq] at reply request
    cases reply with
    | late => exact still request
    | join => exact still request
    | new =>
        cases request
        cases done with
        | none =>
            obtain ⟨call, -, rfl⟩ := placed
            refine exists_after found (.inl ?_)
            simpa [Thread.after, Chore.run, hq] using call
        | some done =>
            obtain ⟨call, result, rfl⟩ := placed
            refine exists_after found (.inr ?_)
            simpa [Thread.after, Chore.run, hq, result] using call
  · exact still (same.symm.trans request)

lemma Wakeful.halt_advance (h : s.Wakeful) (conduct : s.Conduct roles shown)
    (found : s.threads[i]? = some th) (first : th.chores = c :: rest)
    (past : (c.run o s.machine).machine.worker.phase.pastHead = true)
    (silent : (c.run o s.machine).machine.signaled = false)
    (stop : (c.run o s.machine).machine.continueWork = false) :
    (∃ x ∈ s.threads.set i (th.after (c.run o s.machine) rest), x.BringsHalt) ∨
      ∃ later, (c.run o s.machine).machine.worker.chores = .raise :: later := by
  have touches := Chore.touches_run o s.machine c
  obtain ⟨other, silent⟩ := Chore.silent_of_run silent
  have before : s.machine.worker.phase.pastHead = true :=
    touches.phase_before (P := (·.pastHead = true)) past nofun
  rcases (Chore.shares_run o s.machine c).continueWork with rfl | same
  · obtain ⟨call, flushed, done, result, rfl⟩ := conduct.placed (List.mem_of_getElem? found) first
    exact .inl (exists_after found ⟨call, flushed, done, result, rfl⟩)
  · rcases h.halt before silent (same.symm.trans stop) with brings | ⟨later, raises⟩
    · refine .inl (exists_mem_set found brings (fun _ brings => brings) ?_)
      rintro ⟨-, flushed, done, -, chores⟩
      cases first.symm.trans chores
      exact absurd rfl other
    · exact .inr ⟨later, touches.chores.trans raises⟩

lemma Wakeful.notified_advance (h : s.Wakeful) (conduct : s.Conduct roles shown)
    (found : s.threads[i]? = some th) (first : th.chores = c :: rest)
    (asleep : (c.run o s.machine).machine.worker.phase = .asleep)
    (loud : (c.run o s.machine).machine.signaled = true) :
    ∃ x ∈ s.threads.set i (th.after (c.run o s.machine) rest), x.Notifies := by
  have before := asleep_of_run asleep
  rcases (Chore.shares_run o s.machine c).signaled with rfl | same
  · obtain ⟨later, rfl⟩ := conduct.placed (List.mem_of_getElem? found) first
    exact exists_after found ⟨later, rfl⟩
  · refine exists_mem_set found (h.notified before (same.symm.trans loud)) (fun _ x => x) ?_
    rintro ⟨later, chores⟩
    cases first.symm.trans chores
    rw [Chore.run, if_pos before] at asleep
    cases asleep

/-- **A step of a call keeps the invariant.** -/
lemma Wakeful.advance (h : s.Wakeful) (conduct : s.Conduct roles shown)
    (found : s.threads[i]? = some th) (first : th.chores = c :: rest) :
    Wakeful ⟨(c.run o s.machine).machine, s.threads.set i (th.after (c.run o s.machine) rest)⟩ := by
  refine ⟨?_, ?_, ?_, ?_, ?_⟩
  · have touches := Chore.touches_run o s.machine c
    intro announces
    rw [touches.needed, Machine.lacking_eq touches.config touches.batch]
    exact h.announced (touches.phase_before (P := (·.announces = true)) announces fun _ => rfl)
  · exact h.records_advance conduct found first
  · exact fun past silent _ => h.request_advance conduct found first past silent
  · exact h.halt_advance conduct found first
  · exact h.notified_advance conduct found first

end Advance

lemma wakeful_start (config : Config) : (start config : System ρ).Wakeful where
  announced h := by cases h
  records h := by cases h
  request h := by cases h
  halt h := by cases h
  notified h := by cases h

/-- **Every step keeps the invariant.** -/
theorem Wakeful.stride (h : s.Wakeful) (conduct : s.Conduct roles shown) (sized : s.machine.Sized)
    (stride : s.Stride t events) : t.Wakeful := by
  cases stride with
  | turn idle turn => exact h.turn idle turn
  | chore first calm => exact h.chore conduct sized first
  | panic =>
      refine ⟨?_, ?_, ?_, ?_, ?_⟩
      · rintro ⟨⟩
      · rintro ⟨⟩
      · rintro ⟨⟩
      · rintro ⟨⟩
      · rintro ⟨⟩
  | begin => exact h.begin _
  | advance found first => exact h.advance conduct found first

theorem Reaches.wakeful {config : Config} (h : Reaches (start config) shown s) : s.Wakeful := by
  induction h with
  | refl => exact wakeful_start config
  | step before next ih =>
      obtain ⟨roles, conduct⟩ := before.conduct
      exact ih.stride conduct before.flow.sized (stride_of_step next)

end System

/-! ## After a reset -/

/-- The worker leaves its cycle as soon as it gets to its head. -/
def Phase.leaves : Phase → Bool
  | retracting | head | leaving | answering _ | finished | dead => true
  | _ => false

/-- The worker is on its way to where it takes a request. -/
def Phase.headsForRequest : Phase → Bool
  | retracting | head | taking | leaving => true
  | _ => false

/-- The worker has found the queue empty and is about to sleep. -/
def Phase.fallsAsleep : Phase → Bool
  | announcing | testing | asleep => true
  | _ => false

/-- The worker has looked at the records `early` when it has filled its batch, and before it
sleeps. -/
structure Machine.HasLooked (early : List ρ) (shown : List (Event ρ)) (m : Machine ρ) : Prop where
  filled : m.worker.phase = .deciding → m.config.batchLimit ≤ m.worker.batch.length ∨
    early <+: (handed shown).flatten ++ m.working
  sleeping : m.worker.phase.fallsAsleep = true → early <+: (handed shown).flatten ++ m.working

/-- What has become of everything that was there in `t`, by the time of `u`. -/
structure System.LooksAgain (early : List ρ) (t : System ρ) (shown : List (Event ρ)) (u : System ρ) :
    Prop where
  /-- Told to stop, the worker does. -/
  halt : t.machine.continueWork = false → u.machine.worker.phase.leaves = true
  /-- A request is taken before the worker goes on to anything else. -/
  request : ∀ q, t.machine.requested = some q → u.machine.requested = some q →
    u.machine.worker.phase.headsForRequest = true
  /-- Records are taken, as many as there is room for, in every cycle, and all before it sleeps. -/
  records : u.machine.HasLooked early shown

namespace System

variable {s t : System ρ} {roles : List Role} {shown events : List (Event ρ)}

lemma Stride.leaves (stride : s.Stride t events) (stop : s.machine.continueWork = false)
    (leaves : s.machine.worker.phase.leaves = true) :
    t.machine.continueWork = false ∧ t.machine.worker.phase.leaves = true := by
  have run : ∀ {o : Surroundings} {c : Chore ρ},
      (c.run o s.machine).machine.continueWork = false ∧
        (c.run o s.machine).machine.worker.phase.leaves = true := by
    intro o c
    refine ⟨?_, ?_⟩
    · rcases (Chore.shares_run o s.machine c).continueWork with rfl | same
      · rfl
      · exact same.trans stop
    · exact (Chore.touches_run o s.machine c).phase_after (P := (·.leaves = true)) leaves nofun
  cases stride with
  | turn idle turn =>
      refine ⟨turn.steady.continueWork.trans stop, ?_⟩
      cases turn with
      | goOn phase going => cases going.symm.trans stop
      | quit | retract | leave | leaveRequest | answer => rfl
      | _ => exact absurd leaves (by simp [Phase.leaves, *])
  | chore => exact run
  | panic => exact ⟨run.1, rfl⟩
  | begin => exact ⟨stop, leaves⟩
  | advance => exact run

lemma Stride.headsForRequest (stride : s.Stride t events) (fits : s.Fits roles)
    (sized : s.machine.Sized) {q : Token} (old : roles[q]? = some .flush)
    (h : s.machine.requested = some q → s.machine.worker.phase.headsForRequest = true) :
    t.machine.requested = some q → t.machine.worker.phase.headsForRequest = true := by
  have run : ∀ {o : Surroundings} {c : Chore ρ}, (c.run o s.machine).machine.requested = some q →
      (c.run o s.machine).machine.worker.phase.headsForRequest = true := by
    intro o c request
    rcases (Chore.keeps_run o s.machine c).requested with same | ⟨-, -, new, -⟩
    · have heads := h (same.symm.trans request)
      exact (Chore.touches_run o s.machine c).phase_after (P := (·.headsForRequest = true)) heads
        nofun
    · obtain rfl : s.machine.store.size = q := Option.some.inj (new.symm.trans request)
      exact absurd (fits.machine.lt_of_role old) (Nat.lt_irrefl _)
  intro request
  cases stride with
  | turn idle turn =>
      cases turn with
      | goOn | quit | again | retract => rfl
      | takeNothing phase none => cases none.symm.trans request
      | takeRequest | leave | leaveRequest => cases request
      | pass phase | gauge phase =>
          rw [Machine.resume_requested] at request
          exact absurd (h request) (by simp [Phase.headsForRequest, *])
      | _ => exact absurd (h request) (by simp [Phase.headsForRequest, *])
  | chore => exact run request
  | @panic o c rest first panicked =>
      have heads := run request
      obtain ⟨phase, busy⟩ := busy_run (o := o) sized first
      rw [phase] at heads
      rcases busy with busy | busy <;> rw [busy] at heads <;> cases heads
  | begin => exact h request
  | advance => exact run request

lemma Stride.hasLooked {config : Config} {early : List ρ} (stride : s.Stride t events)
    (flow : Flow config shown s.machine) (early_le : early <+: accepted shown)
    (h : s.machine.HasLooked early shown) : t.machine.HasLooked early (shown ++ events) := by
  have everything : s.machine.queue = [] → s.machine.worker.phase.exports = false →
      early <+: (handed shown).flatten ++ s.machine.worker.batch := by
    intro empty exports
    have all := flow.records ▸ early_le
    rwa [empty, List.append_nil, Machine.working_eq exports] at all
  have run : ∀ {o : Surroundings} {c : Chore ρ},
      (c.run o s.machine).machine.HasLooked early (shown ++ (c.run o s.machine).events) := by
    intro o c
    have touches := Chore.touches_run o s.machine c
    have working : (c.run o s.machine).machine.working = s.machine.working := by
      rw [Machine.working, Machine.working, (Machine.touches_phase touches).2.1, touches.batch]
    refine ⟨?_, ?_⟩
    · intro deciding
      rw [handed_append, touches.handed, List.append_nil, working, touches.config, touches.batch]
      exact h.filled (touches.phase_before (P := (· = .deciding)) deciding (by rintro ⟨⟩))
    · intro sleepy
      rw [handed_append, touches.handed, List.append_nil, working]
      exact h.sleeping
        (touches.phase_before (P := (·.fallsAsleep = true)) sleepy (by rintro ⟨⟩))
  cases stride with
  | turn idle turn =>
      cases turn with
      | filledUp phase full => exact ⟨fun _ => .inl full, by rintro ⟨⟩⟩
      | filledAll phase queue =>
          refine ⟨fun _ => .inr ?_, by rintro ⟨⟩⟩
          rw [List.append_nil]
          exact everything queue (by rw [phase]; rfl)
      | fill phase =>
          refine ⟨fun deciding => ?_, fun sleepy => ?_⟩
          · cases phase.symm.trans deciding
          · have filling : s.machine.worker.phase.fallsAsleep = true := sleepy
            rw [phase] at filling
            cases filling
      | settle phase queue =>
          refine ⟨by rintro ⟨⟩, fun _ => ?_⟩
          rw [List.append_nil]
          exact everything queue (by rw [phase]; rfl)
      | announce phase | sleep phase =>
          have before := h.sleeping (by rw [phase]; rfl)
          rw [Machine.working_eq (by rw [phase]; rfl)] at before
          refine ⟨by rintro ⟨⟩, fun _ => ?_⟩
          rw [List.append_nil]
          exact before
      | @pass p => cases p <;> exact ⟨by rintro ⟨⟩, by rintro ⟨⟩⟩
      | @gauge p => cases p <;> exact ⟨by rintro ⟨⟩, by rintro ⟨⟩⟩
      | _ => exact ⟨by rintro ⟨⟩, by rintro ⟨⟩⟩
  | @chore o c rest first calm => exact ⟨run.filled, run.sleeping⟩
  | panic => exact ⟨by rintro ⟨⟩, by rintro ⟨⟩⟩
  | begin =>
      rw [List.append_nil]
      exact h
  | advance => exact run

/-- The signal is only reset by a worker that is about to start its cycle again. -/
lemma Stride.retracting (stride : s.Stride t events) (loud : s.machine.signaled = true)
    (silent : t.machine.signaled = false) : t.machine.worker.phase = .retracting := by
  have run : ∀ {o : Surroundings} {c : Chore ρ},
      (c.run o s.machine).machine.signaled ≠ false := by
    intro o c silent
    cases loud.symm.trans (Chore.silent_of_run silent).2
  cases stride with
  | turn idle turn =>
      cases turn with
      | stayAwake | wake => rfl
      | pass | gauge =>
          rw [Machine.resume_signaled] at silent
          cases loud.symm.trans silent
      | _ => cases loud.symm.trans silent
  | chore => exact absurd silent run
  | panic => exact absurd silent run
  | begin => cases loud.symm.trans silent
  | advance => exact absurd silent run

section Runs

variable {u : System ρ} {later : List (Event ρ)}

lemma Reaches.leaves (h : Reaches t later u) (stop : t.machine.continueWork = false)
    (leaves : t.machine.worker.phase.leaves = true) :
    u.machine.continueWork = false ∧ u.machine.worker.phase.leaves = true := by
  induction h with
  | refl => exact ⟨stop, leaves⟩
  | step between next ih => exact (stride_of_step next).leaves ih.1 ih.2

lemma Reaches.headsForRequest {config : Config} (h : Reaches (start config) shown t)
    (h' : Reaches t later u) (fits : t.Fits roles) {q : Token} (old : roles[q]? = some .flush)
    (heads : t.machine.worker.phase.headsForRequest = true) :
    ∃ roles, u.Fits roles ∧ roles[q]? = some .flush ∧
      (u.machine.requested = some q → u.machine.worker.phase.headsForRequest = true) := by
  induction h' with
  | refl => exact ⟨roles, fits, old, fun _ => heads⟩
  | step between next ih =>
      obtain ⟨roles, fits, old, heads⟩ := ih
      have stride := stride_of_step next
      obtain ⟨more, after⟩ := fits.stride stride
      have sized := (h.trans between).flow.sized
      exact ⟨_, after, role_append old, stride.headsForRequest fits sized old heads⟩

lemma Reaches.hasLooked {config : Config} (h : Reaches (start config) shown t)
    (h' : Reaches t later u) (looked : t.machine.HasLooked (accepted shown) shown) :
    u.machine.HasLooked (accepted shown) (shown ++ later) := by
  induction h' with
  | refl => rwa [List.append_nil]
  | step between next ih =>
      rw [← List.append_assoc]
      refine (stride_of_step next).hasLooked (h.trans between).flow ?_ ih
      rw [accepted_append]
      exact List.prefix_append ..

/-- **A reset forgets nothing.** -/
theorem Reaches.looksAgain {config : Config} (h : Reaches (start config) shown t)
    (retracting : t.machine.worker.phase = .retracting) (h' : Reaches t later u) :
    LooksAgain (accepted shown) t (shown ++ later) u := by
  refine ⟨?_, ?_, ?_⟩
  · intro stop
    exact (h'.leaves stop (by rw [retracting]; rfl)).2
  · intro q requested again
    obtain ⟨-, roles, fits⟩ := h.orderly
    have old := fits.machine.requested q requested
    obtain ⟨-, -, -, heads⟩ := h.headsForRequest h' fits old (by rw [retracting]; rfl)
    exact heads again
  · refine h.hasLooked h' ⟨fun deciding => ?_, fun sleepy => ?_⟩
    · cases retracting.symm.trans deciding
    · rw [retracting] at sleepy
      cases sleepy

end Runs

end System

/-! ## Runs -/

/-- The worker waits for the signal, and the signal is down. -/
def Machine.IsBlocked (m : Machine ρ) : Prop := m.worker.phase = .asleep ∧ m.signaled = false

/-- **No wake-up is lost** in a run that has shown `shown` and led to `s`. -/
structure System.Attentive (shown : List (Event ρ)) (s : System ρ) : Prop where
  /-- Enough records for the worker have a call that pushed one and is going to wake it. -/
  records : s.machine.IsBlocked → s.machine.lacking ≤ s.machine.queue.length →
    ∃ th ∈ s.threads, th.BringsRecord s.machine
  request : s.machine.IsBlocked → ∀ q, s.machine.requested = some q →
    ∃ th ∈ s.threads, th.BringsRequest q
  halt : s.machine.IsBlocked → s.machine.continueWork = false → ∃ th ∈ s.threads, th.BringsHalt
  /-- A worker that sleeps although the signal is up is about to be notified. -/
  notified : s.machine.worker.phase = .asleep → s.machine.signaled = true →
    ∃ th ∈ s.threads, th.Notifies
  /-- What was there at a reset is looked at in the next cycle. -/
  reset : ∀ choice t events, s.step choice = some (t, events) → s.machine.signaled = true →
    t.machine.signaled = false → ∀ later u, Reaches t later u →
      LooksAgain (accepted (shown ++ events)) t (shown ++ events ++ later) u

/-- **No wake-up is lost**, whatever the order in which worker and callers take their steps. -/
theorem System.Reaches.attentive {config : Config} {shown : List (Event ρ)} {s : System ρ}
    (h : Reaches (start config) shown s) : s.Attentive shown := by
  have wakeful := h.wakeful
  refine ⟨?_, ?_, ?_, wakeful.notified, ?_⟩
  · rintro ⟨asleep, silent⟩ enough
    exact wakeful.records asleep silent enough
  · rintro ⟨asleep, silent⟩ q request
    exact wakeful.request (by rw [asleep]; rfl) silent q request
  · rintro ⟨asleep, silent⟩ stop
    rcases wakeful.halt (by rw [asleep]; rfl) silent stop with brings | ⟨rest, first⟩
    · exact brings
    · obtain ⟨-, busy⟩ := busy_run (o := {}) h.flow.sized first
      rw [asleep] at busy
      rcases busy with busy | busy <;> cases busy
  · intro choice t events next loud silent later u h'
    have retracting := (stride_of_step next).retracting loud silent
    exact (h.step next).looksAgain retracting h'

/-- The worker is asleep with an empty batch when two records arrive, and neither emission has read
the length of the queue yet. -/
def unannounced : List (Choice Nat) :=
  List.replicate 8 (.work {}) ++
  [.begin (.emit 1), .advance 0 {}, .advance 0 {}, .begin (.emit 2), .advance 1 {}, .advance 1 {}]

theorem attentive_unannounced : ∃ shown, ∃ s : System Nat, System.Reaches (.start narrowConfig) shown s ∧
    s.machine.IsBlocked ∧ s.machine.lacking ≤ s.machine.queue.length ∧ s.Attentive shown := by
  obtain ⟨shown, s, h, asleep, silent, enough⟩ := System.exists_reaches (s := .start narrowConfig)
    (P := fun (s, _) => s.machine.worker.phase = .asleep ∧ s.machine.signaled = false ∧
      s.machine.lacking ≤ s.machine.queue.length) unannounced (by decide +kernel)
  exact ⟨shown, s, h, ⟨asleep, silent⟩, enough, System.Reaches.attentive h⟩

end ProfilePipeline.Batch
