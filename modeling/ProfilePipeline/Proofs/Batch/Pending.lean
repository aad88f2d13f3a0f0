import Mathlib.Tactic.Common
import ProfilePipeline.Proofs.Batch.Conduct
import ProfilePipeline.Proofs.Batch.Flow
import ProfilePipeline.Proofs.Batch.Requests

/-!
# No flush is forgotten

A flush that has no outcome yet is the one that is requested or the one that the worker has taken.
This holds from the moment in which a call is given its completion (`Machine.Replies.minds`), at
every step (`System.Stride.minds`), and whatever becomes of the worker: when a panic of the
exporter's shutdown ends it, it has just resolved the flush that it had taken, and when it runs out
of time it has taken none.

A worker that has come to its end in the usual way has left nothing pending
(`Machine.IsOver.resolved`).
-/

namespace ProfilePipeline.Batch

open Completion (Token Store)

variable {ρ : Type}

namespace Machine

/-- A flush that has no outcome is requested, or the worker owes it. -/
def Minds (m : Machine ρ) (t : Token) : Prop :=
  m.outcome? t = none → m.requested = some t ∨ m.Owes t

/-- The worker has come to its end, and not by a panic. -/
def IsOver (m : Machine ρ) : Prop := m.worker.phase = .finished ∧ m.worker.chores = []

/-- A worker at its end has said so. -/
def Signed (m : Machine ρ) : Prop := m.worker.phase = .finished → m.stopped = true

variable {o : Surroundings} {m m' : Machine ρ} {events : List (Event ρ)} {t : Token}

/-- At its end the worker has forgotten no flush. -/
lemma IsOver.resolved (ended : m.IsOver) (signed : m.Signed) (orderly : m.Orderly)
    (h : m.Minds t) : m.outcome? t ≠ none := by
  obtain ⟨phase, idle⟩ := ended
  obtain ⟨-, none⟩ := orderly.ended (signed phase)
  intro pending
  rcases h pending with request | token | ⟨success, mem⟩
  · cases none.symm.trans request
  · rw [phase] at token
    cases token
  · rw [idle] at mem
    cases mem

/-! ## The cycle -/

lemma owes_resume_of_token {p : Purpose} {success : Bool} (h : p.token? = some t) :
    (m.resume success p).Owes t := by
  cases p with
  | chunk => exact .inl h
  | rest u before =>
      cases h
      exact .inr ⟨before && success, List.mem_singleton.mpr rfl⟩
  | scheduled => cases h

/-- What the worker has taken it keeps until it resolves it. -/
lemma Turn.owes (turn : Turn o m m' events) (h : m.worker.phase.token? = some t) : m'.Owes t := by
  cases turn with
  | count phase | drained phase | drainedEarly phase | drain phase | drainFull phase | hand phase
  | succeed phase | fail phase | tally phase =>
      rw [phase] at h
      exact .inl h
  | pass phase | gauge phase =>
      rw [phase] at h
      exact owes_resume_of_token h
  | answer phase =>
      rw [phase] at h
      cases h
      exact .inr ⟨m.queue.isEmpty, List.mem_singleton.mpr rfl⟩
  | _ => simp [Phase.token?, *] at h

/-- A request stays until the worker takes it. -/
lemma Turn.requested (turn : Turn o m m' events) (h : m.requested = some t) :
    m'.requested = some t ∨ m'.Owes t := by
  cases turn with
  | takeRequest phase request | leaveRequest phase request =>
      cases request.symm.trans h
      exact .inr (.inl rfl)
  | leave phase request => cases request.symm.trans h
  | pass | gauge =>
      left
      rw [resume_requested]
      exact h
  | _ => exact .inl h

lemma resume_ne_finished {success : Bool} {p : Purpose} :
    (m.resume success p).worker.phase ≠ .finished := by
  cases p <;> rintro ⟨⟩

lemma Signed.turn (h : m.Signed) (orderly : m.Orderly) (turn : Turn o m m' events) : m'.Signed := by
  intro phase'
  cases turn with
  | leave => rfl
  | answer phase => exact orderly.answering _ phase
  | pass | gauge => exact absurd phase' resume_ne_finished
  | fill => exact h phase'
  | _ => cases phase'

/-- The completion that a request is given is requested, or has its outcome. -/
lemma Replies.minds {isNew : Bool} (reply : m.Replies (m', t, isNew)) : m'.Minds t := by
  intro pending
  cases reply with
  | late =>
      have outcome := Store.outcome?_settled m.store m.queue.isEmpty m.store.size
      rw [if_pos rfl] at outcome
      cases outcome.symm.trans pending
  | join running requested => exact .inl requested
  | new => exact .inl rfl

/-- Before the worker stops it is requested. -/
lemma Replies.asks {isNew : Bool} (reply : m.Replies (m', t, isNew)) (running : m.stopped = false) :
    m'.requested = some t := by
  cases reply with
  | late stopped => cases running.symm.trans stopped
  | join _ requested => exact requested
  | new => rfl

end Machine

/-! ## What the worker owes -/

lemma Farewell.eq_of_resolve {flushed done q : Token} {success : Bool} {chores : List (Chore ρ)}
    (h : Farewell flushed done chores) (mem : .resolve q success ∈ chores) : q = done := by
  cases h with
  | signals h => cases h <;> simp at mem
  | resolve =>
      cases List.mem_singleton.mp mem
      rfl
  | _ => simp at mem

namespace System

variable {s t : System ρ} {roles : List Role} {shown events : List (Event ρ)} {q : Token}

/-- The worker is busy with a flush, or has nothing to do but to resolve it. -/
lemma Conduct.owes_cases (conduct : s.Conduct roles shown) (sized : s.machine.Sized)
    (role : roles[q]? = some .flush) (owed : s.machine.Owes q) :
    s.machine.worker.chores = [] ∧ s.machine.worker.phase.token? = some q ∨
      ∃ success, s.machine.worker.chores = [.resolve q success] := by
  rcases owed with token | ⟨success, mem⟩
  · left
    refine ⟨?_, token⟩
    by_contra busy
    rcases (sized.chores busy).1 with phase | phase
    · rw [phase] at token
      cases token
    · rw [phase] at token
      cases token
  · right
    have stands := conduct.worker
    generalize s.machine.worker.chores = chores at stands mem
    cases stands with
    | resolve =>
        cases List.mem_singleton.mp mem
        exact ⟨success, rfl⟩
    | farewell shutdown h =>
        rw [h.eq_of_resolve mem] at role
        cases role.symm.trans shutdown
    | idle => cases mem

/-- The worker owes one flush at a time. -/
theorem Conduct.owes_unique (conduct : s.Conduct roles shown) (sized : s.machine.Sized) {r : Token}
    (role : roles[q]? = some .flush) (role' : roles[r]? = some .flush) (h : s.machine.Owes q)
    (h' : s.machine.Owes r) : q = r := by
  rcases conduct.owes_cases sized role h with ⟨idle, token⟩ | ⟨success, one⟩
  · rcases conduct.owes_cases sized role' h' with ⟨-, token'⟩ | ⟨success', one'⟩
    · exact Option.some.inj (token.symm.trans token')
    · cases idle.symm.trans one'
  · rcases conduct.owes_cases sized role' h' with ⟨idle, -⟩ | ⟨success', one'⟩
    · cases idle.symm.trans one
    · cases one.symm.trans one'
      rfl

/-- If the worker has a chore and owes a flush, the chore is to resolve it. -/
lemma Conduct.resolves_owed (conduct : s.Conduct roles shown) (sized : s.machine.Sized)
    (role : roles[q]? = some .flush) (owed : s.machine.Owes q) {o : Surroundings} {c : Chore ρ}
    {rest : List (Chore ρ)} (first : s.machine.worker.chores = c :: rest) :
    (c.run o s.machine).machine.outcome? q ≠ none := by
  have old := conduct.fits.machine.lt_of_role role
  rcases conduct.owes_cases sized role owed with ⟨idle, -⟩ | ⟨success, one⟩
  · cases idle.symm.trans first
  · cases first.symm.trans one
    intro pending
    have after : ((Chore.resolve q success).run o s.machine).machine.outcome? q = _ :=
      Store.outcome?_resolve s.machine.store q success q
    rw [if_pos ⟨rfl, old, Chore.pending_of_run pending⟩] at after
    cases after.symm.trans pending

/-! ## Steps -/

/-- **No step forgets a flush.** -/
theorem Stride.minds (stride : s.Stride t events) (conduct : s.Conduct roles shown)
    (sized : s.machine.Sized) (role : roles[q]? = some .flush) (h : s.machine.Minds q) :
    t.machine.Minds q := by
  have requested : ∀ {o : Surroundings} {c : Chore ρ}, s.machine.requested = some q →
      (c.run o s.machine).machine.requested = some q :=
    fun request => (Chore.keeps_run _ s.machine _).asked request
  intro pending
  cases stride with
  | turn idle turn =>
      rw [Machine.outcome?, turn.steady.store] at pending
      rcases h pending with request | token | ⟨success, mem⟩
      · exact turn.requested request
      · exact .inr (turn.owes token)
      · rw [idle] at mem
        cases mem
  | chore first calm =>
      rcases h (Chore.pending_of_run pending) with request | owed
      · exact .inl (requested request)
      · exact absurd pending (conduct.resolves_owed sized role owed first)
  | panic first panicked =>
      rcases h (Chore.pending_of_run pending) with request | owed
      · exact .inl (requested request)
      · exact absurd pending (conduct.resolves_owed sized role owed first)
  | begin => exact h pending
  | @advance o i th c rest found first =>
      have touches := Chore.touches_run o s.machine c
      rcases h (Chore.pending_of_run pending) with request | token | ⟨success, mem⟩
      · exact .inl (requested request)
      · exact .inr (.inl ((Machine.token?_touches touches).trans token))
      · exact .inr (.inr ⟨success, by rw [touches.chores]; exact mem⟩)

lemma Stride.signed (stride : s.Stride t events) (orderly : s.machine.Orderly)
    (h : s.machine.Signed) : t.machine.Signed := by
  have run : ∀ {o : Surroundings} {c : Chore ρ}, (c.run o s.machine).machine.Signed := by
    intro o c phase
    rw [(Chore.keeps_run o s.machine c).stopped]
    exact h ((Chore.touches_run o s.machine c).phase_before (P := (· = .finished)) phase nofun)
  cases stride with
  | turn idle turn => exact h.turn orderly turn
  | chore => exact run
  | panic => rintro ⟨⟩
  | begin => exact h
  | advance => exact run

theorem Reaches.signed {config : Config} (h : Reaches (start config) shown s) :
    s.machine.Signed := by
  induction h with
  | refl => rintro ⟨⟩
  | step before next ih => exact (stride_of_step next).signed before.orderly.1 ih

/-! ## Calls for a flush -/

/-- No call for a flush is forgotten. -/
def Mindful (s : System ρ) : Prop :=
  ∀ th ∈ s.threads, th.call = .flush → ∀ q, th.result = some q → s.machine.Minds q

lemma Conduct.role_of_flush (conduct : s.Conduct roles shown) {th : Thread ρ}
    (known : th ∈ s.threads) (call : th.call = .flush) (result : th.result = some q) :
    roles[q]? = some .flush := by
  obtain ⟨role, owner, given⟩ := (conduct.fits.threads th known).result q result
  rw [call] at owner
  cases owner
  exact given

/-- A call for a flush that has its completion after a step had it before, or has just asked. -/
lemma Stride.result_flush (stride : s.Stride t events) (conduct : s.Conduct roles shown)
    {th : Thread ρ} (known : th ∈ t.threads) (call : th.call = .flush)
    (result : th.result = some q) :
    (∃ old ∈ s.threads, old.call = .flush ∧ old.result = some q) ∨
      ∃ isNew, s.machine.Replies (t.machine, q, isNew) := by
  obtain ⟨j, found⟩ := List.mem_iff_getElem?.mp known
  rcases stride.thread_before found with same | ⟨new, rfl⟩ |
    ⟨o, old, c, rest, earlier, first, rfl, machine⟩
  · exact .inl ⟨th, List.mem_of_getElem? same, call, result⟩
  · cases result
  · have there := List.mem_of_getElem? earlier
    have flush : old.call = .flush := (old.after_call ..).symm.trans call
    rw [Thread.after] at result
    split at result
    · cases result
    · rcases Chore.result_run o s.machine c with none | rfl | rfl
      · rw [none] at result
        exact .inl ⟨old, there, flush, result⟩
      · cases flush.symm.trans (conduct.placed there first).1
      · cases result
        rw [machine]
        exact .inr ⟨_, s.machine.replies_requestFlush⟩

lemma Mindful.stride (h : s.Mindful) (stride : s.Stride t events) (conduct : s.Conduct roles shown)
    (sized : s.machine.Sized) : t.Mindful := by
  intro th known call q result
  rcases stride.result_flush conduct known call result with ⟨old, there, flush, earlier⟩ | ⟨_, reply⟩
  · exact stride.minds conduct sized (conduct.role_of_flush there flush earlier)
      (h old there flush q earlier)
  · exact reply.minds

/-- **In every reachable state no call for a flush is forgotten.** -/
theorem Reaches.mindful {config : Config} (h : Reaches (start config) shown s) : s.Mindful := by
  induction h with
  | refl => exact List.forall_mem_nil _
  | step before next ih =>
      obtain ⟨roles, conduct⟩ := before.conduct
      exact ih.stride (stride_of_step next) conduct before.flow.sized

end System

end ProfilePipeline.Batch
