import Mathlib.Data.List.Infix
import Mathlib.Tactic.Common
import ProfilePipeline.Proofs.Batch.Flow
import ProfilePipeline.Proofs.Batch.Requests

/-!
# What a flush achieves

A flush that succeeds has handed on all records that were accepted before it was asked for, with one
exception.  An emission may look whether the processor is shut down, then be overtaken by the
shutdown and the flush that belongs to it, and only then put its record into the queue.  If the
worker takes the record while it is stopping, it takes it for good (`Machine.leftBehind`), and a
flush that finds the queue empty afterwards succeeds all the same (`flush_straggler`).

**Pledges.**  A flush that has counted the queue pledges to hand on the batch and that much of the
queue (`Phase.pledge?`).  `Tracked` says that the records in question are within the pledge, and
`System.Stride.tracked` that they stay there until the flush is over.

**Runs.**  `System.Reaches.flushed` is the main result, and `System.Reaches.flushed_running` what it
comes to while the worker has not stopped.
-/

namespace ProfilePipeline.Batch

open Completion (Token Store)

variable {ρ : Type}

/-! ## Pledges -/

/-- The flush that a batch is exported for, and how much of the queue it has to take yet. -/
def Purpose.pledge? : Purpose → Option (Token × Nat)
  | chunk t remaining _ => some (t, remaining)
  | rest t _ => some (t, 0)
  | scheduled => none

/-- The flush that has counted the queue, and how much of it it has to take yet. -/
def Phase.pledge? : Phase → Option (Token × Nat)
  | draining t remaining _ => some (t, remaining)
  | handing p | exporting p | tallying p | gauging p _ => p.pledge?
  | _ => none

namespace Machine

/-- What a worker that has stopped keeps in its batch. -/
def leftBehind (m : Machine ρ) : List ρ := if m.stopped then m.working else []

/-- The records that are out of reach: handed on, or left behind. -/
def past (shown : List (Event ρ)) (m : Machine ρ) : List ρ :=
  (handed shown).flatten ++ m.leftBehind

end Machine

/-- How far a flush has got with the records `early`, if it ends with the outcome `success`. -/
structure Tracked (early : List ρ) (shown : List (Event ρ)) (m : Machine ρ) (t : Token)
    (success : Bool) : Prop where
  pledge : ∀ n, m.worker.phase.pledge? = some (t, n) →
    early <+: (handed shown).flatten ++ (m.working ++ m.queue.take n)
  resolving : .resolve t success ∈ m.worker.chores → early <+: m.past shown
  outcome : m.outcome? t = some success → early <+: m.past shown

/-! ## What is out of reach stays there -/

namespace System

variable {s t : System ρ} {events : List (Event ρ)}

/-- A worker that has stopped keeps its batch. -/
lemma Stride.stopped (stride : s.Stride t events) (orderly : s.machine.Orderly)
    (stopped : s.machine.stopped = true) :
    t.machine.stopped = true ∧ t.machine.working = s.machine.working ∧ handed events = [] := by
  obtain ⟨ended, -⟩ := orderly.ended stopped
  have exports : s.machine.worker.phase.exports = false := by
    cases phase : s.machine.worker.phase with
    | exporting | tallying | gauging =>
        rw [phase] at ended
        cases ended
    | _ => rfl
  have touched : ∀ {e : Effect ρ}, Chore.Touches s.machine e → Chore.Keeps s.machine e →
      e.machine.stopped = true ∧ e.machine.working = s.machine.working := by
    intro e touches keeps
    refine ⟨keeps.stopped.trans stopped, ?_⟩
    rw [Machine.working, Machine.working, (Machine.touches_phase touches).2.1, touches.batch]
  cases stride with
  | turn idle turn =>
      cases turn with
      | answer phase =>
          refine ⟨stopped, ?_, rfl⟩
          rw [Machine.working_eq exports]
          rfl
      | _ => exact absurd ended (by simp [Phase.isOver, *])
  | @chore o c rest first calm =>
      obtain ⟨stopped, working⟩ := touched (Chore.touches_run o s.machine c)
        (Chore.keeps_run o s.machine c)
      exact ⟨stopped, working, (Chore.touches_run o s.machine c).handed⟩
  | @panic o c rest first panicked =>
      have touches := Chore.touches_run o s.machine c
      obtain ⟨stopped, -⟩ := touched touches (Chore.keeps_run o s.machine c)
      refine ⟨stopped, ?_, touches.handed⟩
      rw [Machine.working_eq exports]
      exact touches.batch
  | begin => exact ⟨stopped, rfl, rfl⟩
  | @advance o i th c rest found first =>
      obtain ⟨stopped, working⟩ := touched (Chore.touches_run o s.machine c)
        (Chore.keeps_run o s.machine c)
      exact ⟨stopped, working, (Chore.touches_run o s.machine c).handed⟩

/-- **What is out of reach stays there.** -/
theorem Stride.past (stride : s.Stride t events) (orderly : s.machine.Orderly)
    (shown : List (Event ρ)) : s.machine.past shown <+: t.machine.past (shown ++ events) := by
  rw [Machine.past, Machine.past, Machine.leftBehind, handed_append, List.flatten_append,
    List.append_assoc]
  cases stopped : s.machine.stopped with
  | false =>
      refine ⟨(handed events).flatten ++ t.machine.leftBehind, ?_⟩
      rw [if_neg (by decide), List.append_nil]
  | true =>
      obtain ⟨still, working, none⟩ := stride.stopped orderly stopped
      rw [if_pos rfl, Machine.leftBehind, if_pos still, working, none]
      exact List.prefix_rfl

end System

/-! ## One step of a flush -/

section Track

variable {early : List ρ} {shown : List (Event ρ)} {m m' : Machine ρ} {t : Token} {b : Bool}

/-- The worker goes on with nothing to resolve, and perhaps with a pledge. -/
lemma Tracked.idle (outcome : m'.outcome? t = some b → early <+: m'.past shown)
    (idle : m'.worker.chores = [])
    (pledge : ∀ n, m'.worker.phase.pledge? = some (t, n) →
      early <+: (handed shown).flatten ++ (m'.working ++ m'.queue.take n)) :
    Tracked early shown m' t b where
  pledge := pledge
  resolving mem := by
    rw [idle] at mem
    cases mem
  outcome := outcome

/-- The worker is done with a pledge and has the flush to resolve. -/
lemma Tracked.resolved {u : Token} {success : Bool}
    (outcome : m'.outcome? t = some b → early <+: m'.past shown)
    (phase : m'.worker.phase.pledge? = none) (chores : m'.worker.chores = [.resolve u success])
    (past : u = t → success = b → early <+: m'.past shown) : Tracked early shown m' t b where
  pledge n hn := by
    rw [phase] at hn
    cases hn
  resolving mem := by
    rw [chores] at mem
    cases List.mem_singleton.mp mem
    exact past rfl rfl
  outcome := outcome

/-- After an export, with an empty batch. -/
lemma Tracked.resume {success : Bool} {p : Purpose}
    (outcome : m.outcome? t = some b → early <+: (m.resume success p).past shown)
    (idle : m.worker.chores = []) (empty : m.worker.batch = [])
    (pledge : ∀ n, p.pledge? = some (t, n) → early <+: (handed shown).flatten ++ m.queue.take n) :
    Tracked early shown (m.resume success p) t b := by
  cases p with
  | chunk u remaining before =>
      refine .idle outcome idle ?_
      intro n hn
      rw [Machine.working_eq rfl]
      show early <+: _ ++ (m.worker.batch ++ m.queue.take n)
      rw [empty]
      exact pledge n hn
  | rest u before =>
      refine .resolved outcome rfl rfl ?_
      rintro rfl -
      have all := pledge 0 rfl
      rw [List.take_zero, List.append_nil] at all
      exact all.trans (List.prefix_append ..)
  | scheduled =>
      refine .idle outcome idle ?_
      rintro _ ⟨⟩

/-- **The cycle of the worker keeps a pledge** until the flush is over.  Only a worker that has
stopped resolves a flush without having kept one, and then it looks at the queue. -/
theorem Tracked.turn {config : Config} {o : Surroundings} {events : List (Event ρ)}
    (h : Tracked early shown m t b) (sound : m.stopped = true → b = true)
    (flow : Flow config shown m) (early_le : early <+: accepted shown)
    (orderly : m.Orderly) (idle : m.worker.chores = [])
    (past : m.past shown <+: m'.past (shown ++ events)) (turn : Machine.Turn o m m' events) :
    Tracked early (shown ++ events) m' t b := by
  have outcome : m.outcome? t = some b → early <+: m'.past (shown ++ events) := by
    intro resolved
    exact (h.outcome resolved).trans past
  have pledge := h.pledge
  have everything := flow.records ▸ early_le
  cases turn with
  | start | startNever | goOn | quit | takeNothing | takeRequest | filledUp | filledAll | due
  | notDue | schedule | runOut | settle | again | announce | sleep | stayAwake | timeUp | wake
  | retract | leave | leaveRequest =>
      refine .idle outcome idle ?_
      rintro _ ⟨⟩
  | fill phase =>
      refine .idle outcome idle ?_
      intro n hn
      have taken : m.worker.phase.pledge? = some (t, n) := hn
      rw [phase] at taken
      cases taken
  | count phase =>
      rw [Machine.working_eq (by rw [phase]; rfl)] at everything
      refine .idle outcome idle ?_
      rintro _ ⟨⟩
      rw [Machine.working_eq rfl, List.append_nil]
      show early <+: _ ++ (m.worker.batch ++ m.queue.take m.queue.length)
      rwa [List.take_length]
  | drained phase =>
      rw [phase, Machine.working_eq (by rw [phase]; rfl)] at pledge
      refine .idle outcome idle ?_
      rintro _ ⟨⟩
      rw [Machine.working_eq rfl, List.append_nil]
      exact pledge 0 rfl
  | @drainedEarly _ remaining _ phase queue =>
      rw [phase, Machine.working_eq (by rw [phase]; rfl), queue] at pledge
      refine .idle outcome idle ?_
      rintro _ ⟨⟩
      rw [Machine.working_eq rfl, List.append_nil]
      exact pledge (remaining + 1) rfl
  | @drain _ remaining _ r rest phase queue | @drainFull _ remaining _ r rest phase queue =>
      rw [phase, Machine.working_eq (by rw [phase]; rfl), queue] at pledge
      refine .idle outcome idle ?_
      rintro _ ⟨⟩
      rw [Machine.working_eq rfl, List.append_nil]
      show early <+: _ ++ ((m.worker.batch ++ [r]) ++ rest.take remaining)
      rw [List.append_assoc]
      exact pledge (remaining + 1) rfl
  | pass phase batch =>
      rw [phase, Machine.working_eq (by rw [phase]; rfl), batch] at pledge
      rw [List.append_nil] at outcome ⊢
      exact .resume outcome idle batch pledge
  | hand phase batch =>
      rw [phase, Machine.working_eq (by rw [phase]; rfl)] at pledge
      refine .idle outcome idle ?_
      intro n hn
      rw [Machine.working_eq_nil rfl, handed_append, List.flatten_append]
      show early <+: _ ++ [m.worker.batch].flatten ++ ([] ++ m.queue.take n)
      rw [List.flatten_singleton, List.nil_append, List.append_assoc]
      exact pledge n hn
  | succeed phase | fail phase | tally phase =>
      rw [phase, Machine.working_eq_nil (by rw [phase]; rfl)] at pledge
      refine .idle outcome idle ?_
      intro n hn
      rw [Machine.working_eq_nil rfl, handed_append]
      show early <+: ((handed shown) ++ []).flatten ++ ([] ++ m.queue.take n)
      rw [List.append_nil]
      exact pledge n hn
  | gauge phase =>
      rw [phase, Machine.working_eq_nil (by rw [phase]; rfl)] at pledge
      refine .resume (m := { m with worker := { m.worker with batch := [] } }) outcome idle rfl ?_
      intro n hn
      rw [handed_append]
      show early <+: ((handed shown) ++ []).flatten ++ m.queue.take n
      rw [List.append_nil]
      exact pledge n hn
  | answer phase =>
      have stopped := orderly.answering _ phase
      rw [Machine.working_eq (by rw [phase]; rfl)] at everything
      refine .resolved outcome rfl rfl ?_
      rintro - empty
      rw [sound stopped] at empty
      rw [List.isEmpty_iff.mp empty, List.append_nil] at everything
      rw [Machine.past, Machine.leftBehind, List.append_nil, if_pos stopped, Machine.working_eq rfl]
      exact everything

/-- A step that takes nothing out of the queue leaves a pledge as it is. -/
lemma Tracked.chore {events : List (Event ρ)} (h : Tracked early shown m t b)
    (past : m.past shown <+: m'.past (shown ++ events))
    (pledge : ∀ n, m'.worker.phase.pledge? = some (t, n) →
      m.worker.phase.pledge? = some (t, n))
    (working : m'.working = m.working) (queue : m'.queue = m.queue ++ accepted events)
    (handed : Batch.handed events = [])
    (resolving : .resolve t b ∈ m'.worker.chores → .resolve t b ∈ m.worker.chores)
    (outcome : m'.outcome? t = some b →
      m.outcome? t = some b ∨ .resolve t b ∈ m.worker.chores) :
    Tracked early (shown ++ events) m' t b where
  pledge n hn := by
    have longer : m.queue.take n <+: m'.queue.take n := by
      rw [queue]
      exact List.IsPrefix.take (List.prefix_append ..) n
    rw [working, handed_append, handed, List.append_nil]
    refine (h.pledge n (pledge n hn)).trans ?_
    exact (List.prefix_append_right_inj _).mpr ((List.prefix_append_right_inj _).mpr longer)
  resolving mem := (h.resolving (resolving mem)).trans past
  outcome success := by
    rcases outcome success with success | mem
    · exact (h.outcome success).trans past
    · exact (h.resolving mem).trans past

end Track

/-- A chore that wakes the worker concerns no pledge. -/
lemma pledge?_touches {m : Machine ρ} {e : Effect ρ} (touches : Chore.Touches m e) :
    e.machine.worker.phase.pledge? = m.worker.phase.pledge? := by
  rcases touches.phase with same | ⟨asleep, waking⟩
  · rw [same]
  · rw [asleep, waking]
    rfl

namespace System

variable {s t : System ρ} {roles : List Role} {early : List ρ} {shown events : List (Event ρ)}
  {u : Token} {b : Bool}

/-- **A step keeps track of a flush.** -/
theorem Stride.tracked {config : Config} (stride : s.Stride t events)
    (sound : s.machine.stopped = true → b = true) (flow : Flow config shown s.machine)
    (early_le : early <+: accepted shown) (orderly : s.machine.Orderly) (fits : s.Fits roles)
    (role : roles[u]? = some .flush) (h : Tracked early shown s.machine u b) :
    Tracked early (shown ++ events) t.machine u b := by
  have past := stride.past orderly shown
  have old := fits.machine.lt_of_role role
  cases stride with
  | turn idle turn => exact h.turn sound flow early_le orderly idle past turn
  | @chore o c rest first calm =>
      have touches := Chore.touches_run o s.machine c
      obtain ⟨-, exports, -⟩ := Machine.touches_phase touches
      obtain ⟨more, he⟩ := fits.chore o first
      refine h.chore past ?_ ?_ touches.queue touches.handed ?_ ?_
      · intro n hn
        exact (pledge?_touches touches).symm.trans hn
      · show (if _ then _ else _) = _
        rw [Machine.working, exports, touches.batch]
      · exact mem_chores_of_resolve first he (role_append role)
      · intro success
        rcases Chore.outcome_run o s.machine c old with same | ⟨found, rfl, after⟩
        · exact .inl (same.symm.trans success)
        · obtain rfl : found = b := Option.some.inj (after.symm.trans success)
          refine .inr ?_
          rw [first]
          exact List.mem_cons_self ..
  | @panic o c rest first panicked =>
      have touches := Chore.touches_run o s.machine c
      have exports := flow.sized.exports_of_busy (by rw [first]; exact List.cons_ne_nil _ _)
      refine h.chore past ?_ ?_ touches.queue touches.handed ?_ ?_
      · rintro _ ⟨⟩
      · rw [Machine.working_eq exports]
        exact touches.batch
      · rintro ⟨⟩
      · intro success
        rcases Chore.outcome_run o s.machine c old with same | ⟨found, rfl, after⟩
        · exact .inl (same.symm.trans success)
        · cases panicked
  | begin =>
      rw [List.append_nil]
      exact h
  | @advance o i th c rest found first =>
      have touches := Chore.touches_run o s.machine c
      obtain ⟨-, exports, -⟩ := Machine.touches_phase touches
      have hc := fits.next found first
      refine h.chore past ?_ ?_ touches.queue touches.handed ?_ ?_
      · intro n hn
        exact (pledge?_touches touches).symm.trans hn
      · rw [Machine.working, Machine.working, exports, touches.batch]
      · intro mem
        rw [← touches.chores]
        exact mem
      · intro success
        rcases Chore.outcome_run o s.machine c old with same | ⟨found, rfl, -⟩
        · exact .inl (same.symm.trans success)
        · exact absurd role hc.not_flush

end System

/-! ## Runs -/

/-- Where a call for a flush stands that began when the records `early` had been accepted. -/
structure Flushing (early : List ρ) (shown : List (Event ρ)) (m : Machine ρ) (th : Thread ρ) :
    Prop where
  call : th.call = .flush
  early_le : early <+: accepted shown
  stage : th.chores = [.request none] ∧ th.result = none ∨
    ∃ t, th.result = some t ∧ (∀ c ∈ th.chores, c = .raise ∨ c = .notify) ∧
      Tracked early shown m t true

lemma token?_of_pledge? {p : Phase} {t : Token} {n : Nat} (h : p.pledge? = some (t, n)) :
    p.token? = some t := by
  have purpose : ∀ {p : Purpose}, p.pledge? = some (t, n) → p.token? = some t := by
    intro p h
    cases p with
    | chunk =>
        cases h
        rfl
    | rest =>
        cases h
        rfl
    | scheduled => cases h
  cases p with
  | draining =>
      cases h
      rfl
  | handing => exact purpose h
  | exporting => exact purpose h
  | tallying => exact purpose h
  | gauging => exact purpose h
  | _ => cases h

/-- The completion that a request is given is not one that the worker owes. -/
lemma Machine.Replies.not_owes {m m' : Machine ρ} {t : Token} {isNew : Bool} {roles : List Role}
    (reply : m.Replies (m', t, isNew)) (fits : m.Fits roles) (orderly : m.Orderly) :
    ¬ m.Owes t := by
  cases reply with
  | late => exact fun owed => absurd (fits.lt_of_owes owed) (Nat.lt_irrefl _)
  | join running requested => exact orderly.untaken t requested
  | new => exact fun owed => absurd (fits.lt_of_owes owed) (Nat.lt_irrefl _)

/-- **A flush is tracked from its request on**, whether it is new, joins another, or comes too
late. -/
theorem tracked_reply {config : Config} {early : List ρ} {shown : List (Event ρ)}
    {m m' : Machine ρ} {t : Token} {isNew b : Bool} {roles : List Role}
    (sound : m.stopped = true → b = true) (flow : Flow config shown m)
    (early_le : early <+: accepted shown) (fits : m.Fits roles) (orderly : m.Orderly)
    (reply : m.Replies (m', t, isNew)) : Tracked early shown m' t b := by
  have worker : m'.worker = m.worker := by
    cases reply <;> rfl
  have free := reply.not_owes fits orderly
  refine ⟨?_, ?_, ?_⟩
  · intro n hn
    rw [worker] at hn
    exact absurd (.inl (token?_of_pledge? hn)) free
  · intro mem
    rw [worker] at mem
    exact absurd (.inr ⟨b, mem⟩) free
  · intro success
    cases reply with
    | late stopped =>
        have outcome := Store.outcome?_settled m.store m.queue.isEmpty m.store.size
        rw [if_pos rfl] at outcome
        rw [sound stopped] at success
        have empty : m.queue.isEmpty = true := Option.some.inj (outcome.symm.trans success)
        have everything := flow.records ▸ early_le
        rw [List.isEmpty_iff.mp empty, List.append_nil] at everything
        show early <+: _ ++ (if m.stopped then m.working else [])
        rwa [if_pos stopped]
    | join running requested =>
        rw [orderly.pending t requested] at success
        cases success
    | new =>
        have outcome := Store.outcome?_fresh m.store m.store.size
        rw [Store.outcome?_of_size_le (Nat.le_refl _)] at outcome
        cases outcome.symm.trans success

namespace System

variable {config : Config} {s t : System ρ} {roles : List Role} {early : List ρ}
  {shown events : List (Event ρ)} {th : Thread ρ}

/-- A step of others. -/
lemma Stride.flushing_other (stride : s.Stride t events) (flow : Flow config shown s.machine)
    (orderly : s.machine.Orderly) (fits : s.Fits roles) (known : th ∈ s.threads)
    (h : Flushing early shown s.machine th) : Flushing early (shown ++ events) t.machine th := by
  refine ⟨h.call, ?_, ?_⟩
  · rw [accepted_append]
    exact h.early_le.trans (List.prefix_append ..)
  · rcases h.stage with begun | ⟨u, result, chores, tracked⟩
    · exact .inl begun
    · obtain ⟨role, owner, given⟩ := (fits.threads th known).result u result
      rw [h.call] at owner
      cases owner
      have tracked := stride.tracked (fun _ => rfl) flow h.early_le orderly fits given tracked
      exact .inr ⟨u, result, chores, tracked⟩

/-- A step of the call itself. -/
lemma flushing_self (flow : Flow config shown s.machine) (orderly : s.machine.Orderly)
    (fits : s.Fits roles) {i : Nat} (found : s.threads[i]? = some th) {o : Surroundings}
    {c : Chore ρ} {rest : List (Chore ρ)} (first : th.chores = c :: rest)
    (h : Flushing early shown s.machine th) :
    Flushing early (shown ++ (c.run o s.machine).events) (c.run o s.machine).machine
      (th.after (c.run o s.machine) rest) := by
  have other := (Stride.advance (o := o) found first).flushing_other flow orderly fits
    (List.mem_of_getElem? found) h
  rcases other.stage with ⟨chores, result⟩ | ⟨u, result, chores, tracked⟩
  · obtain ⟨rfl, rfl⟩ : c = .request none ∧ rest = [] := by
      rw [first] at chores
      cases chores
      exact ⟨rfl, rfl⟩
    have reply := s.machine.replies_requestFlush
    refine ⟨h.call, other.early_le, .inr ⟨s.machine.requestFlush.2.1, rfl, ?_, ?_⟩⟩
    · intro c hc
      have wakes : c ∈ (if s.machine.requestFlush.2.2 then [.raise, .notify] else []) ++ [] := hc
      rw [List.append_nil] at wakes
      split at wakes
      · simpa using wakes
      · cases wakes
    · show Tracked early (shown ++ []) s.machine.requestFlush.1 _ true
      rw [List.append_nil]
      exact tracked_reply (fun _ => rfl) flow h.early_le fits.machine orderly reply
  · rw [first] at chores
    obtain ⟨now, later⟩ := List.forall_mem_cons.mp chores
    rcases now with rfl | rfl
    · exact ⟨h.call, other.early_le, .inr ⟨u, result, later, tracked⟩⟩
    · exact ⟨h.call, other.early_le, .inr ⟨u, result, later, tracked⟩⟩

/-- **A step keeps track of a call for a flush.** -/
theorem Stride.flushing (stride : s.Stride t events) (flow : Flow config shown s.machine)
    (orderly : s.machine.Orderly) (fits : s.Fits roles) {i : Nat} (found : s.threads[i]? = some th)
    (h : Flushing early shown s.machine th) :
    ∃ th', t.threads[i]? = some th' ∧ Flushing early (shown ++ events) t.machine th' := by
  have other := stride.flushing_other flow orderly fits (List.mem_of_getElem? found) h
  obtain ⟨lt, -⟩ := List.getElem?_eq_some_iff.mp found
  cases stride with
  | turn => exact ⟨th, found, other⟩
  | chore => exact ⟨th, found, other⟩
  | panic => exact ⟨th, found, other⟩
  | begin => exact ⟨th, (List.getElem?_append_left lt).trans found, other⟩
  | @advance o j th' c rest found' first =>
      by_cases same : j = i
      · subst same
        obtain rfl : th' = th := Option.some.inj (found'.symm.trans found)
        refine ⟨th'.after (c.run o s.machine) rest, ?_, flushing_self flow orderly fits found first h⟩
        exact List.getElem?_set_self lt
      · exact ⟨th, (List.getElem?_set_ne same).trans found, other⟩

/-- A call for a flush that begins now. -/
lemma flushing_start (before : List (Event ρ)) (m : Machine ρ) :
    Flushing (accepted before) before m (.start .flush) :=
  ⟨rfl, List.prefix_rfl, .inl ⟨rfl, rfl⟩⟩

theorem Reaches.flushing {before after : List (Event ρ)} (h : Reaches (start config) before s)
    (h' : Reaches { s with threads := s.threads ++ [.start .flush] } after t) :
    ∃ th, t.threads[s.threads.length]? = some th ∧
      Flushing (accepted before) (before ++ after) t.machine th := by
  have begun : Reaches (start config) before
      { s with threads := s.threads ++ [.start .flush] } := by
    have begins : s.step (.begin .flush) =
        some ({ s with threads := s.threads ++ [.start .flush] }, []) := rfl
    have next := h.step begins
    rwa [List.append_nil] at next
  clear h
  generalize hb : ({ s with threads := s.threads ++ [.start .flush] } : System ρ) = b at begun h'
  induction h' with
  | refl =>
      subst hb
      refine ⟨.start .flush, List.getElem?_concat_length, ?_⟩
      rw [List.append_nil]
      exact flushing_start before s.machine
  | step between next ih =>
      obtain ⟨th, found, flushing⟩ := ih
      have reached := begun.trans between
      obtain ⟨orderly, roles, fits⟩ := reached.orderly
      rw [← List.append_assoc]
      exact (stride_of_step next).flushing reached.flow orderly fits found flushing

/-- **What a successful flush has achieved.**  All records that were accepted before it began have
been handed on, or are left behind by a worker that has stopped. -/
theorem Reaches.flushed {before after : List (Event ρ)} (h : Reaches (start config) before s)
    (h' : Reaches { s with threads := s.threads ++ [.start .flush] } after t)
    (found : t.threads[s.threads.length]? = some th) {u : Token} (result : th.result = some u)
    (success : t.machine.outcome? u = some true) :
    accepted before <+: (handed (before ++ after)).flatten ++ t.machine.leftBehind := by
  obtain ⟨th', found', flushing⟩ := h.flushing h'
  obtain rfl : th = th' := Option.some.inj (found.symm.trans found')
  rcases flushing.stage with ⟨-, none⟩ | ⟨u', result', -, tracked⟩
  · rw [none] at result
    cases result
  · obtain rfl : u = u' := Option.some.inj (result.symm.trans result')
    exact tracked.outcome success

/-- While the worker has not stopped, a successful flush leaves nothing behind. -/
theorem Reaches.flushed_running {before after : List (Event ρ)}
    (h : Reaches (start config) before s)
    (h' : Reaches { s with threads := s.threads ++ [.start .flush] } after t)
    (found : t.threads[s.threads.length]? = some th) {u : Token} (result : th.result = some u)
    (success : t.machine.outcome? u = some true) (running : t.machine.stopped = false) :
    accepted before <+: (handed (before ++ after)).flatten := by
  have all := h.flushed h' found result success
  rwa [Machine.leftBehind, running, if_neg (by decide), List.append_nil] at all

end System

/-! ## The exception -/

/-- An emission that has seen a processor in service is overtaken by a shutdown: its record gets
into the queue when the flush of the shutdown is over and before the worker looks whether to go
on. -/
def straggler : List (Choice Nat) :=
  [.begin (.emit 7), .advance 0 {}, .begin .shutdown] ++ List.replicate 5 (.advance 1 {}) ++
  List.replicate 14 (.work {}) ++ List.replicate 3 (.advance 0 {}) ++
  List.replicate 10 (.work {})

/-- **A successful flush may leave a record behind**, even when the emission of that record is over
before the flush begins. -/
theorem flush_straggler : ∃ before after s t, System.Reaches (.start narrowConfig) before s ∧
    System.Reaches { s with threads := s.threads ++ [.start .flush] } after t ∧
      accepted before = [7] ∧ s.threads.all Thread.isOver = true ∧
      (t.threads[s.threads.length]?.bind Thread.result) = some 3 ∧
      t.machine.outcome? 3 = some true ∧ handed (before ++ after) = [] ∧
      t.machine.leftBehind = [7] := by
  obtain ⟨before, s, h, accepts, returned, flushes⟩ :=
    System.exists_reaches (s := .start narrowConfig) (P := fun (s, before) =>
      accepted before = [7] ∧ s.threads.all Thread.isOver = true ∧
        (System.follow { s with threads := s.threads ++ [.start .flush] } [.advance 2 {}]).any
          (fun run => (run.1.threads[s.threads.length]?.bind Thread.result) = some 3 ∧
            run.1.machine.outcome? 3 = some true ∧ handed (before ++ run.2) = [] ∧
            run.1.machine.leftBehind = [7]) = true) straggler (by decide +kernel)
  obtain ⟨after, t, h', result, succeeds, nothing, left⟩ := System.exists_reaches _ flushes
  exact ⟨before, after, s, t, h, h', accepts, returned, result, succeeds, nothing, left⟩

end ProfilePipeline.Batch
