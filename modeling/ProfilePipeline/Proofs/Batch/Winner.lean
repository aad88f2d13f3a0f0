import Mathlib.Tactic.Common
import ProfilePipeline.Proofs.Batch.Hearsay
import ProfilePipeline.Proofs.Batch.Pending

/-!
# The shutdown that wins

Any number of calls may try to shut the processor down, and one of them wins.  It asks for one flush
and hands the rest of its work on.

**Losers.**  Every other shutdown is over with its only step, and returns a success.

**Hearsay.**  `System.Tells` says of everybody that has a part of the work what `Chore.Tells` says
of one chore.

**Custody.**  One party at a time has to resolve the completion that the winner returned
(`Dues.of`), until it is resolved or a panic of the exporter's shutdown takes that party away.

**Runs.**  `System.Settling` puts this together, from the step that wins (`System.Wins.settling`)
to any later state (`System.Settling.reaches`).
-/

namespace ProfilePipeline.Batch

open Completion (Token Store weigh)

variable {ρ : Type}

/-! ## Winner and losers -/

/-- A shutdown that does not win. -/
def Thread.Loses (m : Machine ρ) (th : Thread ρ) : Prop :=
  th.chores = [.claim] ∨
    th.chores = [] ∧ ∃ t, th.result = some t ∧ m.outcome? t = some true

/-- The exporter's shutdown has panicked in this call. -/
def Thread.IsBroken (th : Thread ρ) : Prop :=
  th.chores = [] ∧ th.result = none ∧ th.panicked = true

/-- The call `i` has won, and its completion is `done`. -/
structure System.Won (i : Nat) (done : Token) (s : System ρ) : Prop where
  down : s.machine.isShutdown = true
  winner : ∃ th, s.threads[i]? = some th ∧ th.call = .shutdown ∧
    (th.result = some done ∨ th.IsBroken)
  losers : ∀ j th, j ≠ i → s.threads[j]? = some th → th.call = .shutdown → th.Loses s.machine

namespace System

variable {s t : System ρ} {roles : List Role} {shown events : List (Event ρ)} {i : Nat}
  {done : Token}

lemma Stride.down (stride : s.Stride t events) (down : s.machine.isShutdown = true) :
    t.machine.isShutdown = true := by
  cases stride.moves with
  | idle steady => exact steady.isShutdown.trans down
  | @run o c rest ran =>
      rw [ran.machine]
      rcases (Chore.shares_run o s.machine c).isShutdown with rfl | same
      · exact Chore.isShutdown_claim o s.machine
      · exact same.trans down

/-- A claim that comes too late. -/
lemma claim_late (o : Surroundings) {m : Machine ρ} (down : m.isShutdown = true) :
    (Chore.claim.run o m).chores = [] ∧ (Chore.claim.run o m).panicked = false ∧
      (Chore.claim.run o m).result = some m.store.size ∧
        (Chore.claim.run o m).machine.outcome? m.store.size = some true := by
  rw [Chore.run, if_pos down]
  refine ⟨rfl, rfl, rfl, ?_⟩
  have outcome := Store.outcome?_settled m.store true m.store.size
  rwa [if_pos rfl] at outcome

lemma Won.losers_stride (h : s.Won i done) (conduct : s.Conduct roles shown)
    (stride : s.Stride t events) {j : Nat} {th : Thread ρ} (other : j ≠ i)
    (found : t.threads[j]? = some th) (shutdown : th.call = .shutdown) : th.Loses t.machine := by
  have grows := conduct.grows stride
  rcases stride.thread_before found with same | ⟨call, rfl⟩ |
    ⟨o, before, c, rest, known, first, rfl, machine⟩
  · rcases h.losers j th other same shutdown with claims | ⟨ended, u, result, success⟩
    · exact .inl claims
    · exact .inr ⟨ended, u, result, grows.outcome _ _ success⟩
  · have call : call = .shutdown := shutdown
    subst call
    exact .inl rfl
  · have call : before.call = .shutdown := (before.after_call ..).symm.trans shutdown
    rcases h.losers j before other known call with claims | ⟨ended, -⟩
    · cases first.symm.trans claims
      obtain ⟨chores, calm, result, success⟩ := claim_late o h.down
      rw [machine, Thread.after, if_neg (by rw [calm]; exact Bool.false_ne_true)]
      refine .inr ⟨?_, s.machine.store.size, ?_, success⟩
      · simp only [chores, List.append_nil]
      · simp only [result, Option.some_or]
    · cases first.symm.trans ended

lemma Won.winner_stride (h : s.Won i done) (conduct : s.Conduct roles shown)
    (stride : s.Stride t events) : ∃ th, t.threads[i]? = some th ∧ th.call = .shutdown ∧
      (th.result = some done ∨ th.IsBroken) := by
  obtain ⟨th, found, call, returns⟩ := h.winner
  rcases stride.thread_after found with same | ⟨o, c, rest, first, found', -⟩
  · exact ⟨th, same, call, returns⟩
  · refine ⟨_, found', (th.after_call ..).trans call, ?_⟩
    · rw [Thread.after]
      split
      · exact .inr ⟨rfl, rfl, rfl⟩
      · rcases returns with result | ⟨ended, -⟩
        · left
          have placed := conduct.placed (List.mem_of_getElem? found) first
          rcases Chore.result_run o s.machine c with none | rfl | rfl
          · rw [none]
            exact result
          · cases placed.2.1.symm.trans result
          · cases placed.2.1.symm.trans result
        · cases first.symm.trans ended

/-- **A winner stays the winner**, and everybody else loses. -/
theorem Won.stride (h : s.Won i done) (conduct : s.Conduct roles shown)
    (stride : s.Stride t events) : t.Won i done where
  down := stride.down h.down
  winner := h.winner_stride conduct stride
  losers _ _ other found shutdown := h.losers_stride conduct stride other found shutdown

/-! ## Hearsay -/

section Tells

variable {flush? : Option Token}

/-- A completion that has another role is not the one of the shutdown. -/
lemma ne_of_role {u : Token} {role : Role} (given : roles[u]? = some role)
    (role_done : roles[done]? = some .shutdown) (other : role ≠ .shutdown) : u ≠ done := by
  rintro rfl
  exact other (Option.some.inj (given.symm.trans role_done))

lemma tells_start (fits : s.Fits roles) (role_done : roles[done]? = some .shutdown) {call : Call ρ}
    (known : ∀ answer success, call = .settle answer success → answer ∈ s.machine.answers)
    (m : Machine ρ) : ∀ c ∈ (Thread.start call).chores, c.Tells m flush? done := by
  intro c mem
  cases call with
  | settle answer success =>
      obtain rfl := List.mem_singleton.mp mem
      intro this
      have role := fits.machine.answers answer (known answer success rfl)
      exact absurd this (ne_of_role role role_done (by rintro ⟨⟩))
  | emit | flush | shutdown =>
      obtain rfl := List.mem_singleton.mp mem
      trivial

lemma Tells.holds (h : s.Tells flush? done) {c : Chore ρ} (holds : s.Holds c) :
    c.Tells s.machine flush? done := by
  rcases holds with mem | ⟨th, known, mem⟩
  · exact h.worker c mem
  · exact h.threads th known c mem

lemma Ran.grows {o : Surroundings} {c : Chore ρ} {rest : List (Chore ρ)}
    (ran : s.Ran t events o c rest) :
    (s.machine.Grows t.machine → s.machine.Grows (c.run o s.machine).machine) ∧
      (c.run o s.machine).machine.Grows t.machine := by
  rw [ran.machine]
  exact ⟨fun grows => ⟨grows.outcome, grows.answers⟩, fun _ _ h => h, fun _ h => h⟩

/-- The part of a step that everybody sees. -/
lemma Tells.shared (h : s.Tells flush? done) (conduct : s.Conduct roles shown)
    (role_done : roles[done]? = some .shutdown) (stride : s.Stride t events) :
    (∀ u r, t.machine.store.WaitsAt u r → r.Tells t.machine flush? done u) ∧
      ∀ success, t.machine.outcome? done = some success →
        ∃ f, flush? = some f ∧ t.machine.Concludes f success := by
  have grows := conduct.grows stride
  have old := conduct.fits.machine.lt_of_role role_done
  cases stride.moves with
  | idle steady =>
      refine ⟨fun u r waits => ?_, fun success outcome => ?_⟩
      · rw [steady.store] at waits
        exact (h.waiting u r waits).grow grows
      · rw [Machine.outcome?, steady.store] at outcome
        obtain ⟨f, flush, concludes⟩ := h.outcome success outcome
        exact ⟨f, flush, concludes.grow grows⟩
  | @run o c rest ran =>
      have tells := h.holds ran.holds
      obtain ⟨before, after⟩ := ran.grows
      refine ⟨fun u r waits => ?_, fun success outcome => ?_⟩
      · rw [ran.machine] at waits
        exact (tells.waits h.waiting (before grows) waits).grow after
      · rw [ran.machine] at outcome
        obtain ⟨f, flush, concludes⟩ := tells.resolves h.outcome old (before grows) outcome
        exact ⟨f, flush, concludes.grow after⟩

/-- What a chore puts on top of its stack. -/
lemma Tells.next (h : s.Tells flush? done) (conduct : s.Conduct roles shown) (won : s.Won i done)
    (stride : s.Stride t events) {o : Surroundings} {c : Chore ρ} {rest : List (Chore ρ)}
    (ran : s.Ran t events o c rest) (asked : ∀ d, c ≠ .request (some d)) :
    ∀ next ∈ (c.run o s.machine).chores, next.Tells t.machine flush? done := by
  intro next mem
  obtain ⟨before, after⟩ := ran.grows
  refine Chore.Tells.grow ?_ after
  refine (h.holds ran.holds).run h.waiting conduct.posted (before (conduct.grows stride)) won.down ?_
    asked next mem
  rintro f d rfl
  exact conduct.answers_nil (ran.le_system (w := .shutting))

end Tells

/-- Nobody but the winner asks. -/
lemma Won.not_ask (h : s.Won i done) (conduct : s.Conduct roles shown) {j : Nat} {th : Thread ρ}
    (found : s.threads[j]? = some th) (other : j ≠ i) {d : Token} :
    .request (some d) ∉ th.chores := by
  intro mem
  by_cases shutdown : th.call = .shutdown
  · rcases h.losers j th other found shutdown with claims | ⟨ended, -⟩
    · rw [claims] at mem
      simp at mem
    · rw [ended] at mem
      cases mem
  · exact (conduct.threads th (List.mem_of_getElem? found)).not_ask shutdown mem

lemma Conduct.worker_not_ask (conduct : s.Conduct roles shown) {d : Token} :
    .request (some d) ∉ s.machine.worker.chores := by
  have stands := conduct.worker
  generalize s.machine.worker.chores = chores at stands
  cases stands with
  | resolve => simp
  | farewell role h => exact h.not_ask
  | idle => simp

/-- Whoever asks is the winner, for its own completion. -/
lemma Won.eq_of_asks (h : s.Won i done) (conduct : s.Conduct roles shown) {j : Nat} {th : Thread ρ}
    {d : Token} {rest : List (Chore ρ)} (found : s.threads[j]? = some th)
    (first : th.chores = .request (some d) :: rest) : j = i ∧ d = done ∧ rest = [] := by
  obtain ⟨-, result, rfl⟩ := conduct.placed (List.mem_of_getElem? found) first
  have here : j = i := by
    by_contra other
    exact h.not_ask conduct found other (by rw [first]; exact List.mem_cons_self ..)
  subst here
  obtain ⟨winner, found', -, returns⟩ := h.winner
  obtain rfl : th = winner := Option.some.inj (found.symm.trans found')
  rcases returns with result' | ⟨ended, -⟩
  · exact ⟨rfl, Option.some.inj (result.symm.trans result'), rfl⟩
  · cases first.symm.trans ended

/-- What was there before the shutdown asks for its flush tells the right thing afterwards, as it
was about something else. -/
lemma tells_of_none {m : Machine ρ} {c : Chore ρ} (tells : c.Tells m none done)
    (other : ∀ d, c ≠ .request (some d)) (f : Token) : c.Tells m (some f) done := by
  cases c with
  | resolve u success =>
      intro this
      obtain ⟨g, ⟨⟩, -⟩ := tells this
  | call r success =>
      cases r with
      | stop => cases tells.1
      | conclude => cases tells.1
  | halt =>
      obtain ⟨g, success, ⟨⟩, -⟩ := tells
  | shutExporter => cases tells.1
  | attach => cases tells.1
  | request d =>
      cases d with
      | none => trivial
      | some d => exact absurd rfl (other d)
  | watch => cases tells.1
  | _ => trivial

/-- In this step the call `i` asks for the flush `f`, to go on with its shutdown after it. -/
structure Asks (s : System ρ) (i : Nat) (f done : Token) (t : System ρ) (events : List (Event ρ)) :
    Prop where
  reply : ∃ isNew, s.machine.Replies (t.machine, f, isNew)
  shown : events = []
  watches : ∃ th, t.threads[i]? = some th ∧ .watch f done ∈ th.chores

/-- **The shutdown that has won asks for its flush.** -/
lemma Tells.asks (h : s.Tells none done) (conduct : s.Conduct roles shown) (won : s.Won i done)
    (role_done : roles[done]? = some .shutdown) {o : Surroundings} {th : Thread ρ}
    (found : s.threads[i]? = some th) (first : th.chores = [.request (some done)]) :
    ∃ f, s.Asks i f done ⟨((.request (some done) : Chore ρ).run o s.machine).machine,
        s.threads.set i (th.after ((Chore.request (some done)).run o s.machine) [])⟩ [] ∧
      Tells (some f) done ⟨((.request (some done) : Chore ρ).run o s.machine).machine,
        s.threads.set i (th.after ((Chore.request (some done)).run o s.machine) [])⟩ := by
  have stride := Stride.advance (o := o) found first
  have grows := conduct.grows stride
  obtain ⟨waiting, outcome⟩ := h.shared conduct role_done stride
  have after : (th.after ((Chore.request (some done)).run o s.machine) []).chores =
      (if s.machine.requestFlush.2.2 then [.raise, .notify] else []) ++
        [.watch s.machine.requestFlush.2.1 done] := by
    simp [Thread.after, Chore.run]
  obtain ⟨lt, -⟩ := List.getElem?_eq_some_iff.mp found
  refine ⟨s.machine.requestFlush.2.1, ⟨?_, rfl, ?_⟩, ?_, ?_, ?_, ?_⟩
  · exact ⟨s.machine.requestFlush.2.2, s.machine.replies_requestFlush⟩
  · refine ⟨_, List.getElem?_set_self lt, ?_⟩
    rw [after]
    exact List.mem_append_right _ (List.mem_singleton.mpr rfl)
  · rw [(Chore.touches_run o s.machine _).chores]
    intro c mem
    refine tells_of_none ((h.worker c mem).grow grows) ?_ _
    rintro d rfl
    exact conduct.worker_not_ask mem
  · intro other known c mem
    obtain ⟨j, hj⟩ := List.mem_iff_getElem?.mp known
    by_cases here : i = j
    · subst here
      rw [List.getElem?_set_self lt] at hj
      obtain rfl := Option.some.inj hj
      rw [after] at mem
      rcases List.mem_append.mp mem with mem | mem
      · exact (Chore.isLight_of_wakes _ c mem).tells
      · obtain rfl := List.mem_singleton.mp mem
        exact ⟨rfl, rfl⟩
    · rw [List.getElem?_set_ne here] at hj
      refine tells_of_none ((h.threads other (List.mem_of_getElem? hj) c mem).grow grows) ?_ _
      rintro d rfl
      exact won.not_ask conduct hj (Ne.symm here) mem
  · intro u r waits
    have told := waiting u r waits
    cases r with
    | stop => cases told.1
    | conclude => cases told.1
  · intro success resolved
    obtain ⟨f, ⟨⟩, -⟩ := outcome success resolved

section Tells

variable {flush? : Option Token}

/-- **A step tells on what is known**, and the winner asks for its flush once. -/
theorem Tells.stride (h : s.Tells flush? done) (conduct : s.Conduct roles shown)
    (won : s.Won i done) (role_done : roles[done]? = some .shutdown) (stride : s.Stride t events) :
    t.Tells flush? done ∨
      flush? = none ∧ ∃ f, t.Tells (some f) done ∧ s.Asks i f done t events := by
  have grows := conduct.grows stride
  obtain ⟨waiting, outcome⟩ := h.shared conduct role_done stride
  have worker : ∀ c ∈ s.machine.worker.chores, c.Tells t.machine flush? done :=
    fun c mem => (h.worker c mem).grow grows
  have threads : ∀ th ∈ s.threads, ∀ c ∈ th.chores, c.Tells t.machine flush? done :=
    fun th known c mem => (h.threads th known c mem).grow grows
  have whole := stride
  cases stride with
  | turn idle turn =>
      refine .inl ⟨?_, threads, waiting, outcome⟩
      intro c mem
      rcases turn.chores idle with none | ⟨u, success, one, token⟩
      · rw [none] at mem
        cases mem
      · rw [one] at mem
        obtain rfl := List.mem_singleton.mp mem
        intro this
        have role := conduct.fits.machine.phase u token
        exact absurd this (ne_of_role role role_done (by rintro ⟨⟩))
  | @chore o c rest first calm =>
      have ran := ran_worker (o := o) first { (c.run o s.machine).machine.worker with
        chores := (c.run o s.machine).chores ++ rest } fun panicked => by
          cases calm.symm.trans panicked
      have asked : ∀ d, c ≠ .request (some d) := by
        rintro d rfl
        exact conduct.worker_not_ask (by rw [first]; exact List.mem_cons_self ..)
      refine .inl ⟨?_, threads, waiting, outcome⟩
      refine List.forall_mem_append.mpr ⟨h.next conduct won whole ran asked, ?_⟩
      intro later mem
      exact worker later (by rw [first]; exact List.mem_cons_of_mem _ mem)
  | panic => exact .inl ⟨List.forall_mem_nil _, threads, waiting, outcome⟩
  | begin known =>
      refine .inl ⟨worker, ?_, waiting, outcome⟩
      refine List.forall_mem_append.mpr ⟨threads, List.forall_mem_singleton.mpr ?_⟩
      exact tells_start conduct.fits role_done known _
  | @advance o j th c rest found first =>
      by_cases asks : ∃ d, c = .request (some d)
      · obtain ⟨d, rfl⟩ := asks
        obtain ⟨rfl, rfl, rfl⟩ := won.eq_of_asks conduct found first
        obtain ⟨rfl, -⟩ := (h.threads th (List.mem_of_getElem? found) _
          (by rw [first]; exact List.mem_cons_self ..) : Chore.Tells _ _ _ (.request (some d)))
        obtain ⟨f, asks, tells⟩ := h.asks conduct won role_done (o := o) found first
        exact .inr ⟨rfl, f, tells, asks⟩
      · have ran := ran_call (o := o) found first
        have next := h.next conduct won whole ran (fun d asked => asks ⟨d, asked⟩)
        refine .inl ⟨?_, ?_, waiting, outcome⟩
        · rw [(Chore.touches_run o s.machine c).chores]
          exact worker
        · intro other known
          rcases List.mem_or_eq_of_mem_set known with known | rfl
          · exact threads other known
          · rw [Thread.after]
            split
            · exact List.forall_mem_nil _
            · refine List.forall_mem_append.mpr ⟨next, ?_⟩
              intro later mem
              refine threads th (List.mem_of_getElem? found) later ?_
              rw [first]
              exact List.mem_cons_of_mem _ mem

end Tells

end System

/-! ## Custody -/

/-- Counts who has to resolve the completion `done`. -/
def Dues.of (done : Token) : Dues := { done := fun t => if t = done then 1 else 0 }

/-- A panic of the exporter's shutdown has taken away whoever would have gone on. -/
def System.IsBroken (i : Nat) (s : System ρ) : Prop :=
  s.machine.worker.phase = .dead ∨ ∃ th, s.threads[i]? = some th ∧ th.IsBroken

/-- Somebody has to resolve the completion, or has done so. -/
def System.InCustody (done : Token) (s : System ρ) : Prop :=
  (Dues.of done).system s + (if s.machine.outcome? done = none then 0 else 1) = 1

namespace System

variable {s t : System ρ} {roles : List Role} {shown events : List (Event ρ)} {i : Nat}
  {done : Token}

lemma Stride.isBroken (stride : s.Stride t events) (broken : s.IsBroken i) : t.IsBroken i := by
  rcases broken with dead | ⟨th, found, ended, panicked⟩
  · left
    have run : ∀ {o : Surroundings} {c : Chore ρ}, (c.run o s.machine).machine.worker.phase = .dead := by
      intro o c
      exact (Chore.touches_run o s.machine c).phase_after (P := (· = .dead)) dead nofun
    cases stride with
    | turn idle turn => cases turn <;> cases dead.symm.trans ‹_›
    | chore => exact run
    | panic => rfl
    | begin => exact dead
    | advance => exact run
  · right
    rcases stride.thread_after found with same | ⟨o, c, rest, first, -⟩
    · exact ⟨th, same, ended, panicked⟩
    · cases first.symm.trans ended

/-- Only the winner and the worker ever call the exporter's shutdown. -/
lemma Won.isBroken_of_panicked (won : s.Won i done) (conduct : s.Conduct roles shown)
    {o : Surroundings} {c : Chore ρ} {rest : List (Chore ρ)} (ran : s.Ran t events o c rest)
    (panicked : (c.run o s.machine).panicked = true) : t.IsBroken i := by
  rcases ran.panics panicked with dead | ⟨j, th, found, first, found'⟩
  · exact .inl dead
  · obtain ⟨f, d, rfl, -⟩ := Chore.shutExporter_of_panicked panicked
    obtain ⟨shutdown, -, -⟩ := conduct.placed (List.mem_of_getElem? found) first
    have here : j = i := by
      by_contra other
      rcases won.losers j th other found shutdown with claims | ⟨ended, -⟩
      · cases first.symm.trans claims
      · cases first.symm.trans ended
    subst here
    refine .inr ⟨_, found', ?_⟩
    rw [Thread.after, if_pos panicked]
    exact ⟨rfl, rfl, rfl⟩

/-- What a chore does to the completion of the shutdown. -/
lemma paid_of (done : Token) (o : Surroundings) {m : Machine ρ} (c : Chore ρ) (calm : (c.run o m).panicked = false) :
    (Dues.of done).paid o c = 0 ∨ ∃ success, c = .resolve done success := by
  cases c with
  | resolve u success =>
      by_cases this : u = done
      · exact .inr ⟨success, by rw [this]⟩
      · exact .inl (if_neg this)
  | call r => cases r <;> exact .inl rfl
  | shutExporter f d =>
      left
      rw [Dues.paid, if_neg]
      · rfl
      · intro panicked
        rw [Chore.run, panicked] at calm
        cases calm
  | _ => exact .inl rfl

/-- Whoever has the completion in custody resolves it, and nobody has it in custody any more. -/
lemma InCustody.resolve (h : s.InCustody done) (old : done < s.machine.store.size)
    {o : Surroundings} {success : Bool} (holds : s.Holds (.resolve done success)) :
    ((Chore.resolve done success).run o s.machine).machine.outcome? done = some success ∧
      (Dues.of done).system s = 1 := by
  have one : (Dues.of done).chore (.resolve done success : Chore ρ) = 1 := if_pos rfl
  have owed := (Dues.of done).le_system holds
  rw [InCustody] at h
  have pending : s.machine.outcome? done = none := by
    by_contra resolved
    rw [if_neg resolved] at h
    omega
  have after : ((Chore.resolve done success).run o s.machine).machine.outcome? done = _ :=
    Store.outcome?_resolve s.machine.store done success done
  rw [if_pos ⟨rfl, old, pending⟩] at after
  rw [if_pos pending] at h
  exact ⟨after, h⟩

/-- **The completion stays in custody**, unless the exporter panics. -/
theorem InCustody.stride (h : s.InCustody done) (conduct : s.Conduct roles shown)
    (won : s.Won i done) (role_done : roles[done]? = some .shutdown) (stride : s.Stride t events) :
    t.IsBroken i ∨ t.InCustody done := by
  have old := conduct.fits.machine.lt_of_role role_done
  have others : ∀ u, roles[u]? ≠ some .shutdown → (Dues.of done).done u = 0 := by
    intro u other
    refine if_neg ?_
    rintro rfl
    exact other role_done
  cases (Dues.of done).ledger conduct.fits others stride with
  | idle steady _ balance =>
      right
      rw [InCustody, balance, Machine.outcome?, steady.store]
      exact h
  | @run o c rest ran balance =>
      cases panicked : (c.run o s.machine).panicked with
      | true => exact .inl (won.isBroken_of_panicked conduct ran panicked)
      | false =>
          right
          have outcome : t.machine.outcome? done = (c.run o s.machine).machine.outcome? done := by
            rw [ran.machine]
            rfl
          have taken : (Dues.of done).incurred s.machine c = 0 := by
            cases c with
            | claim => exact if_pos won.down
            | _ => rfl
          rw [panicked, if_neg Bool.false_ne_true, taken] at balance
          rw [InCustody, outcome]
          by_cases resolves : ∃ success, c = .resolve done success
          · obtain ⟨success, rfl⟩ := resolves
            have paid : (Dues.of done).paid o (.resolve done success : Chore ρ) = 1 := if_pos rfl
            obtain ⟨after, owed⟩ := h.resolve old (o := o) ran.holds
            rw [after, if_neg (by rintro ⟨⟩)]
            omega
          · rw [InCustody] at h
            rcases paid_of done o c panicked with free | resolves'
            · rcases Chore.outcome_run o s.machine c old with same | ⟨success, resolves', -⟩
              · rw [same]
                omega
              · exact absurd ⟨success, resolves'⟩ resolves
            · exact absurd resolves' resolves

end System

/-! ## Before anybody wins -/

/-- A chore that has nothing to do with the shutdown of `done`. -/
structure Chore.IsFree (done : Token) (c : Chore ρ) : Prop where
  concluding : Dues.concluding.chore c = 0
  halting : Dues.halting.chore c = 0
  resolve : ∀ success, c ≠ .resolve done success

section Free

variable {m : Machine ρ} {c : Chore ρ} {done : Token}

lemma Chore.IsFree.tells (free : c.IsFree done) (flush? : Option Token) :
    c.Tells m flush? done := by
  obtain ⟨concluding, halting, resolve⟩ := free
  cases c with
  | resolve u success =>
      rintro rfl
      exact absurd rfl (resolve success)
  | call r => cases r <;> cases concluding
  | halt => cases halting
  | shutExporter | attach | watch => cases concluding
  | request d =>
      cases d with
      | none => trivial
      | some d => cases concluding
  | _ => trivial

lemma Chore.IsFree.weight (free : c.IsFree done) : (Dues.of done).chore c = 0 := by
  obtain ⟨concluding, -, resolve⟩ := free
  cases c with
  | resolve u success =>
      refine if_neg ?_
      rintro rfl
      exact resolve success rfl
  | call r => cases r <;> cases concluding
  | shutExporter | attach | watch => cases concluding
  | request d =>
      cases d with
      | none => rfl
      | some d => cases concluding
  | _ => rfl

end Free

namespace System

variable {s t : System ρ} {roles : List Role} {shown : List (Event ρ)} {i : Nat}

/-- While the processor is in service, nobody has anything to do with a shutdown to come. -/
lemma Conduct.free (conduct : s.Conduct roles shown) (up : s.machine.isShutdown = false) :
    (∀ c ∈ s.machine.worker.chores, c.IsFree s.machine.store.size) ∧
      (∀ th ∈ s.threads, ∀ c ∈ th.chores, c.IsFree s.machine.store.size) ∧
        ∀ u r, ¬ s.machine.store.WaitsAt u r := by
  have concluding := conduct.concluding
  have halting := conduct.halting
  rw [up, if_neg Bool.false_ne_true] at concluding halting
  simp only [Dues.system, Dues.machine, Nat.le_zero, Nat.add_eq_zero_iff,
    Completion.weigh_eq_zero_iff] at concluding halting
  refine ⟨fun c mem => ⟨?_, ?_, ?_⟩, fun th known c mem => ⟨?_, ?_, ?_⟩, fun u r waits => ?_⟩
  · exact concluding.1.1 c mem
  · exact halting.1.1.1 c mem
  · rintro success rfl
    rcases conduct.fits.machine.chores _ mem with (role | role) | ⟨_, _, ⟨⟩, role⟩
    · exact absurd (conduct.fits.machine.lt_of_role role) (Nat.lt_irrefl _)
    · exact absurd (conduct.fits.machine.lt_of_role role) (Nat.lt_irrefl _)
    · exact absurd (conduct.fits.machine.lt_of_role role) (Nat.lt_irrefl _)
  · exact Completion.weigh_eq_zero_iff.mp (concluding.2 th known) c mem
  · exact Completion.weigh_eq_zero_iff.mp (halting.1.2 th known) c mem
  · rintro success rfl
    rcases (conduct.fits.threads th known).chores _ mem with role | role
    · exact absurd (conduct.fits.machine.lt_of_role role) (Nat.lt_irrefl _)
    · exact absurd (conduct.fits.machine.lt_of_role role) (Nat.lt_irrefl _)
  · have le := Store.weight_le_of_waitsAt (w := Dues.concluding.reaction) waits
    have one : Dues.concluding.reaction r = 1 := by cases r <;> rfl
    omega

end System

/-! ## The claim -/

/-- The call `i` is the one that shuts the processor down: its next step leads from `s` to `t`. -/
structure System.Wins (s : System ρ) (i : Nat) (t : System ρ) : Prop where
  up : s.machine.isShutdown = false
  claims : ∃ th, s.threads[i]? = some th ∧ th.chores = [.claim]
  step : ∃ o events, s.step (.advance i o) = some (t, events)

/-- Everything about a shutdown that has won. -/
structure System.Settling (roles : List Role) (shown : List (Event ρ)) (i : Nat) (done : Token)
    (flush? : Option Token) (s : System ρ) : Prop where
  conduct : s.Conduct roles shown
  role : roles[done]? = some .shutdown
  won : s.Won i done
  tells : s.Tells flush? done
  custody : s.IsBroken i ∨ s.InCustody done
  minded : ∀ f, flush? = some f → roles[f]? = some .flush ∧ s.machine.Minds f

namespace System

variable {s t : System ρ} {roles : List Role} {shown events : List (Event ρ)} {i : Nat}

lemma Wins.eq (wins : s.Wins i t) : ∃ th next, s.threads[i]? = some th ∧
    th.chores = [.claim] ∧ next.call = th.call ∧
    next.chores = [.request (some s.machine.store.size)] ∧
    next.result = some s.machine.store.size ∧
    ∃ choice, s.step choice = some (t, []) ∧
      t = ⟨{ s.machine with store := s.machine.store.fresh.1, isShutdown := true },
        s.threads.set i next⟩ := by
  obtain ⟨up, ⟨th, found, claims⟩, o, events, next⟩ := wins
  have whole := next
  simp only [System.step, found, Thread.step, claims, Chore.run, up, Option.bind_eq_bind,
    Option.bind_some, Option.pure_def, Bool.false_eq_true, if_false, List.append_nil,
    Option.some_or, Option.some.injEq, Prod.mk.injEq] at next
  obtain ⟨rfl, rfl⟩ := next
  refine ⟨th, { th with
    chores := [.request (some s.machine.store.size)], result := some s.machine.store.size },
    found, claims, rfl, rfl, rfl, _, whole, rfl⟩

/-- Only a call takes a processor out of service, and shows nothing. -/
lemma Stride.wins (stride : s.Stride t events) (conduct : s.Conduct roles shown)
    (up : s.machine.isShutdown = false) (down : t.machine.isShutdown = true) :
    events = [] ∧ ∃ i, s.Wins i t := by
  have worker : ∀ {o : Surroundings} {c : Chore ρ} {rest}, s.machine.worker.chores = c :: rest →
      (c.run o s.machine).machine.isShutdown ≠ true := by
    intro o c rest first down
    rcases (Chore.shares_run o s.machine c).isShutdown with rfl | same
    · rcases conduct.worker_next first with ⟨_, _, -, ⟨⟩, -⟩ | ⟨_, _, -, ends⟩
      exact ends
    · cases up.symm.trans (same.symm.trans down)
  cases stride with
  | turn idle turn => cases up.symm.trans (turn.steady.isShutdown.symm.trans down)
  | chore first => exact absurd down (worker first)
  | panic first => exact absurd down (worker first)
  | begin => cases up.symm.trans down
  | @advance o i th c rest found first =>
      rcases (Chore.shares_run o s.machine c).isShutdown with rfl | same
      · obtain ⟨-, -, rfl⟩ := conduct.placed (List.mem_of_getElem? found) first
        refine ⟨?_, i, up, ⟨th, found, first⟩, o, _, step_advance found first⟩
        rw [Chore.run, if_neg (by rw [up]; exact Bool.false_ne_true)]
      · cases up.symm.trans (same.symm.trans down)

/-- **A processor that is out of service was taken out of it by a winner.** -/
theorem Reaches.claimed {config : Config} (h : Reaches (start config) shown t)
    (down : t.machine.isShutdown = true) : ∃ before s i u after, shown = before ++ after ∧
      Reaches (start config) before s ∧ s.Wins i u ∧ Reaches u after t := by
  induction h with
  | refl => cases down
  | @step s t shown events choice reached next ih =>
      cases up : s.machine.isShutdown with
      | true =>
          obtain ⟨before, v, i, u, after, rfl, toWin, wins, fromWin⟩ := ih up
          exact ⟨before, v, i, u, after ++ events, List.append_assoc .., toWin, wins,
            fromWin.step next⟩
      | false =>
          obtain ⟨roles, conduct⟩ := reached.conduct
          obtain ⟨rfl, i, wins⟩ := (stride_of_step next).wins conduct up down
          exact ⟨shown, s, i, t, [], rfl, reached, wins, .refl t⟩

/-- The winner itself has its completion in custody at first. -/
lemma Wins.inCustody (wins : s.Wins i t) (conduct : s.Conduct roles shown) :
    t.InCustody s.machine.store.size := by
  obtain ⟨th, next, found, -, -, chores, -, -, -, rfl⟩ := wins.eq
  obtain ⟨lt, -⟩ := List.getElem?_eq_some_iff.mp found
  obtain ⟨worker, threads, waiting⟩ := conduct.free wins.up
  have pending : s.machine.store.fresh.1.outcome? s.machine.store.size = none := by
    rw [Store.outcome?_fresh]
    exact Store.outcome?_of_size_le (Nat.le_refl _)
  have none_worker : weigh (Dues.of s.machine.store.size).chore s.machine.worker.chores = 0 :=
    Completion.weigh_eq_zero_iff.mpr fun c mem => (worker c mem).weight
  have none_threads : weigh (Dues.of s.machine.store.size).thread s.threads = 0 :=
    Completion.weigh_eq_zero_iff.mpr fun other known =>
      Completion.weigh_eq_zero_iff.mpr fun c mem => (threads other known c mem).weight
  have none_waiting : s.machine.store.weight (Dues.of s.machine.store.size).reaction = 0 := by
    by_contra pos
    obtain ⟨u, r, waits, -⟩ := Store.exists_waitsAt_of_weight_pos (Nat.pos_of_ne_zero pos)
    exact waiting u r waits
  have moved := Store.weigh_set (Dues.of s.machine.store.size).thread s.threads i next lt
  have one : (Dues.of s.machine.store.size).thread next = 1 := by
    simp [Dues.thread, chores, Dues.of, Dues.chore, Dues.all]
  have zero : (Dues.of s.machine.store.size).thread s.threads[i] = 0 :=
    Completion.weigh_eq_zero_iff.mp none_threads _ (List.getElem_mem lt)
  simp only [InCustody, Dues.system, Dues.machine, Machine.outcome?, pending, if_true,
    Store.weight_fresh]
  omega

/-- At its beginning the winner has all of its work before it, and nobody else is concerned. -/
lemma Wins.settling (wins : s.Wins i t) (conduct : s.Conduct roles shown) :
    ∃ roles, t.Settling roles shown i s.machine.store.size none := by
  have custody := wins.inCustody conduct
  obtain ⟨th, next, found, claims, call, chores, result, choice, step, rfl⟩ := wins.eq
  obtain ⟨more, after⟩ := conduct.stride (stride_of_step step)
  rw [List.append_nil] at after
  obtain ⟨lt, -⟩ := List.getElem?_eq_some_iff.mp found
  have shutdown : next.call = .shutdown :=
    call.trans (conduct.placed (List.mem_of_getElem? found) claims).1
  obtain ⟨worker, threads, waiting⟩ := conduct.free wins.up
  have pending : s.machine.store.fresh.1.outcome? s.machine.store.size = none := by
    rw [Store.outcome?_fresh]
    exact Store.outcome?_of_size_le (Nat.le_refl _)
  refine ⟨roles ++ more, after, ?_, ⟨rfl, ?_, ?_⟩, ⟨?_, ?_, ?_, ?_⟩, .inr custody, nofun⟩
  · obtain ⟨role, owner, given⟩ := (after.fits.threads _ (List.mem_set lt _)).result _ result
    rw [shutdown] at owner
    cases owner
    exact given
  · exact ⟨next, List.getElem?_set_self lt, shutdown, .inl result⟩
  · intro j other different found' shutdown
    rw [List.getElem?_set_ne (Ne.symm different)] at found'
    exact .inl (conduct.unclaimed wins.up other (List.mem_of_getElem? found') shutdown)
  · exact fun c mem => (worker c mem).tells _
  · intro other known c mem
    rcases List.mem_or_eq_of_mem_set known with known | rfl
    · exact (threads other known c mem).tells _
    · rw [chores] at mem
      obtain rfl := List.mem_singleton.mp mem
      exact ⟨rfl, rfl⟩
  · exact fun u r waits => absurd (Store.waitsAt_fresh waits) (waiting u r)
  · intro success outcome
    cases pending.symm.trans outcome

/-- The call `i` has waited for the flush `flushed` on the way from `t` to `u`, on behalf of the
completion `done`. -/
def Waited (i : Nat) (flushed done : Token) (t u : System ρ) : Prop :=
  ∃ before after v th, Reaches t before v ∧ Reaches v after u ∧ v.threads[i]? = some th ∧
    .watch flushed done ∈ th.chores

variable {u : System ρ} {done : Token} {flush? : Option Token}

/-- **A step keeps everything about the shutdown that has won.** -/
theorem Settling.stride (h : s.Settling roles shown i done flush?) (sized : s.machine.Sized)
    (stride : s.Stride t events) :
    ∃ more flush'?, t.Settling (roles ++ more) (shown ++ events) i done flush'? ∧
      (flush'? = flush? ∨
        flush? = none ∧ ∃ f, flush'? = some f ∧ s.Asks i f done t events) := by
  obtain ⟨conduct, role, won, tells, custody, minded⟩ := h
  obtain ⟨more, after⟩ := conduct.stride stride
  have custody : t.IsBroken i ∨ t.InCustody done := by
    rcases custody with broken | custody
    · exact .inl (stride.isBroken broken)
    · exact custody.stride conduct won role stride
  have won' := won.stride conduct stride
  rcases tells.stride conduct won role stride with same | ⟨none, f, asked, asks⟩
  · refine ⟨more, flush?, ⟨after, role_append role, won', same, custody, ?_⟩, .inl rfl⟩
    intro f flush
    obtain ⟨given, minds⟩ := minded f flush
    exact ⟨role_append given, stride.minds conduct sized given minds⟩
  · refine ⟨more, some f, ⟨after, role_append role, won', asked, custody, ?_⟩,
      .inr ⟨none, f, rfl, asks⟩⟩
    rintro _ ⟨⟩
    obtain ⟨isNew, reply⟩ := asks.reply
    obtain ⟨th, found, watches⟩ := asks.watches
    exact ⟨((after.fits.threads th (List.mem_of_getElem? found)).chores _ watches).1, reply.minds⟩

/-- **In a whole run the winner asks for one flush**, and keeps to it. -/
theorem Settling.reaches {config : Config} (h : t.Settling roles shown i done flush?)
    (reached : Reaches (start config) shown t) (h' : Reaches t events u) :
    ∃ roles flush'?, u.Settling roles (shown ++ events) i done flush'? ∧
      (flush'? = flush? ∨ flush? = none ∧ ∃ f, flush'? = some f ∧ Waited i f done t u) := by
  induction h' with
  | refl => exact ⟨roles, flush?, by rwa [List.append_nil], .inl rfl⟩
  | @step u v before events choice between next ih =>
      obtain ⟨roles', flush'?, settling, known⟩ := ih
      have last : Reaches u events v := Reaches.step (.refl _) next
      have sized := (reached.trans between).flow.sized
      obtain ⟨more, flush''?, settling', known'⟩ := settling.stride sized (stride_of_step next)
      rw [List.append_assoc] at settling'
      refine ⟨_, flush''?, settling', ?_⟩
      rcases known with rfl | ⟨none, f, rfl, first, after, w, th, toWatch, fromWatch, found, watches⟩
      · rcases known' with same | ⟨none, f, asked, asks⟩
        · exact .inl same
        · obtain ⟨th, found, watches⟩ := asks.watches
          exact .inr ⟨none, f, asked, _, [], v, th, between.trans last, .refl _, found, watches⟩
      · rcases known' with rfl | ⟨⟨⟩, -⟩
        exact .inr ⟨none, f, rfl, first, _, w, th, toWatch, fromWatch.trans last, found, watches⟩

/-- The flush that the winner has waited for is the one that everybody knows of. -/
lemma Settling.of_waited {config : Config} (h : t.Settling roles shown i done flush?)
    (reached : Reaches (start config) shown t) {f : Token} (waited : Waited i f done t u) :
    ∃ roles shown, u.Settling roles shown i done (some f) := by
  obtain ⟨before, after, v, th, toWatch, fromWatch, found, watches⟩ := waited
  obtain ⟨roles', flush'?, settling, -⟩ := h.reaches reached toWatch
  obtain ⟨rfl, -⟩ : flush'? = some f ∧ done = done :=
    settling.tells.threads th (List.mem_of_getElem? found) _ watches
  obtain ⟨roles'', flush''?, settling', known⟩ :=
    settling.reaches (reached.trans toWatch) fromWatch
  rcases known with rfl | ⟨⟨⟩, -⟩
  exact ⟨roles'', _, settling'⟩

end System

end ProfilePipeline.Batch
