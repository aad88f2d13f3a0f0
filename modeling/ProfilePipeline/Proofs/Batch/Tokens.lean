import Mathlib.Tactic.Common
import ProfilePipeline.Proofs.Batch.Steps
import ProfilePipeline.Proofs.Completion.Store

/-!
# What completions are for

Every completion of the batch processor is made for one purpose, its role, and nobody confuses
them.  The roles of all completions form a list that only grows, like the typing of a store, and
`System.Fits` says that whatever is held anywhere is held in its role.  In particular the completion
of a flush is resolved by nobody but the worker.

A chore keeps to roles by `Chore.fits_run`, the cycle of the worker by `Machine.Fits.turn`, and
every step by `System.Fits.stride`.
-/

namespace ProfilePipeline.Batch

open Completion (Token Store)

variable {ρ : Type}

/-! ## Roles -/

/-- What a completion is made for: a flush, a shutdown, or the exporter's answer to being shut
down. -/
inductive Role where
  | flush
  | shutdown
  | answer
  deriving DecidableEq

/-- A role once given stays. -/
lemma role_append {roles more : List Role} {t : Token} {role : Role}
    (h : roles[t]? = some role) : (roles ++ more)[t]? = some role := by
  obtain ⟨lt, -⟩ := List.getElem?_eq_some_iff.mp h
  rw [List.getElem?_append_left lt]
  exact h

/-- The role of the completion that a call returns. -/
def Call.role? : Call ρ → Option Role
  | flush => some .flush
  | shutdown => some .shutdown
  | _ => none

/-- The flush that a purpose belongs to. -/
def Purpose.token? : Purpose → Option Token
  | chunk t _ _ | rest t _ => some t
  | scheduled => none

/-- The flush that the worker is busy with. -/
def Phase.token? : Phase → Option Token
  | counting t | draining t _ _ | answering t => some t
  | handing p | exporting p | tallying p | gauging p _ => p.token?
  | _ => none

/-- A reaction joins a flush and a shutdown. -/
def Reaction.Fits (roles : List Role) : Reaction → Prop
  | stop flushed done | conclude flushed done =>
    roles[flushed]? = some .flush ∧ roles[done]? = some .shutdown

/-- A chore of a call that returns a completion in the role `owner`.  It resolves no flush. -/
def Chore.Fits (roles : List Role) (owner : Option Role) : Chore ρ → Prop
  | resolve t _ => roles[t]? = some .shutdown ∨ roles[t]? = some .answer
  | call r _ => r.Fits roles
  | shutExporter flushed done | watch flushed done =>
    roles[flushed]? = some .flush ∧ roles[done]? = some .shutdown
  | attach answer flushed done =>
    roles[answer]? = some .answer ∧ roles[flushed]? = some .flush ∧
      roles[done]? = some .shutdown
  | request (some done) => roles[done]? = some .shutdown
  | request none => owner = some .flush
  | claim => owner = some .shutdown
  | _ => True

/-- A chore of the worker, which may resolve a flush. -/
def Chore.FitsWorker (roles : List Role) (c : Chore ρ) : Prop :=
  c.Fits roles none ∨ ∃ t success, c = .resolve t success ∧ roles[t]? = some .flush

/-- Everything that the machine holds, it holds in its role. -/
structure Machine.Fits (roles : List Role) (m : Machine ρ) : Prop where
  size : m.store.size = roles.length
  requested : ∀ t, m.requested = some t → roles[t]? = some .flush
  phase : ∀ t, m.worker.phase.token? = some t → roles[t]? = some .flush
  waiting : ∀ r, m.store.Waits r → r.Fits roles
  answers : ∀ t ∈ m.answers, roles[t]? = some .answer
  chores : ∀ c ∈ m.worker.chores, c.FitsWorker roles

/-- A call keeps to roles as well, and returns a completion in its own. -/
structure Thread.Fits (roles : List Role) (th : Thread ρ) : Prop where
  chores : ∀ c ∈ th.chores, c.Fits roles th.call.role?
  result : ∀ t, th.result = some t → ∃ role, th.call.role? = some role ∧ roles[t]? = some role

/-- **Everyone keeps to roles.** -/
structure System.Fits (roles : List Role) (s : System ρ) : Prop where
  machine : s.machine.Fits roles
  threads : ∀ th ∈ s.threads, th.Fits roles

/-- What a chore of a call in the role `owner` leaves behind. -/
structure Effect.Fits (roles : List Role) (owner : Option Role) (e : Effect ρ) : Prop where
  machine : e.machine.Fits roles
  chores : ∀ c ∈ e.chores, c.Fits roles owner
  result : ∀ t, e.result = some t → ∃ role, owner = some role ∧ roles[t]? = some role

/-- Only completions that exist have a role. -/
lemma Machine.Fits.lt_of_role {roles : List Role} {m : Machine ρ} (h : m.Fits roles) {t : Token}
    {role : Role} (given : roles[t]? = some role) : t < m.store.size := by
  rw [h.size]
  exact (List.getElem?_eq_some_iff.mp given).1

/-- The next chore of a call keeps to roles. -/
lemma System.Fits.next {roles : List Role} {s : System ρ} (h : s.Fits roles) {i : Nat}
    {th : Thread ρ} {c : Chore ρ} {rest : List (Chore ρ)} (found : s.threads[i]? = some th)
    (first : th.chores = c :: rest) : c.Fits roles th.call.role? := by
  refine (h.threads th (List.mem_of_getElem? found)).chores c ?_
  rw [first]
  exact List.mem_cons_self ..

/-- A chore of a call resolves no flush. -/
lemma Chore.Fits.not_flush {roles : List Role} {owner : Option Role} {t : Token} {success : Bool}
    (h : (resolve t success : Chore ρ).Fits roles owner) : roles[t]? ≠ some .flush := by
  rcases h with h | h
  · rw [h]
    rintro ⟨⟩
  · rw [h]
    rintro ⟨⟩

/-! ### New completions change no role -/

section Mono

variable {roles : List Role} (more : List Role)

lemma Reaction.Fits.mono {r : Reaction} (h : r.Fits roles) : r.Fits (roles ++ more) := by
  cases r with
  | stop => exact ⟨role_append h.1, role_append h.2⟩
  | conclude => exact ⟨role_append h.1, role_append h.2⟩

lemma Chore.Fits.mono {owner : Option Role} {c : Chore ρ} (h : c.Fits roles owner) :
    c.Fits (roles ++ more) owner := by
  cases c with
  | resolve t success =>
      rcases h with h | h
      · exact .inl (role_append h)
      · exact .inr (role_append h)
  | call r success => exact Reaction.Fits.mono more h
  | shutExporter => exact ⟨role_append h.1, role_append h.2⟩
  | watch => exact ⟨role_append h.1, role_append h.2⟩
  | attach => exact ⟨role_append h.1, role_append h.2.1, role_append h.2.2⟩
  | request done =>
      cases done with
      | none => exact h
      | some done =>
          have given : roles[done]? = some .shutdown := h
          exact role_append given
  | claim => exact h
  | _ => trivial

lemma Chore.FitsWorker.mono {c : Chore ρ} (h : c.FitsWorker roles) :
    c.FitsWorker (roles ++ more) := by
  rcases h with h | ⟨t, success, rfl, h⟩
  · exact .inl (h.mono more)
  · exact .inr ⟨t, success, rfl, role_append h⟩

lemma Thread.Fits.mono {th : Thread ρ} (h : th.Fits roles) : th.Fits (roles ++ more) where
  chores c hc := (h.chores c hc).mono more
  result t ht := by
    obtain ⟨role, owner, given⟩ := h.result t ht
    exact ⟨role, owner, role_append given⟩

end Mono

/-! ### New completions -/

namespace Machine

variable {roles : List Role} {m : Machine ρ}

/-- A machine with one completion more, in a role of its own. -/
lemma Fits.grow (h : m.Fits roles) {store : Store Reaction} (role : Role)
    (size : store.size = m.store.size + 1) (waiting : ∀ r, store.Waits r → m.store.Waits r) :
    Fits (roles ++ [role]) { m with store } where
  size := by rw [List.length_append, List.length_singleton, ← h.size]; exact size
  requested t ht := role_append (h.requested t ht)
  phase t ht := role_append (h.phase t ht)
  waiting r hr := (h.waiting r (waiting r hr)).mono _
  answers t ht := role_append (h.answers t ht)
  chores c hc := (h.chores c hc).mono _

lemma Fits.fresh (h : m.Fits roles) (role : Role) :
    Fits (roles ++ [role]) { m with store := m.store.fresh.1 } :=
  h.grow role (Store.size_fresh _) fun _ => Store.waits_fresh

lemma Fits.settled (h : m.Fits roles) (success : Bool) (role : Role) :
    Fits (roles ++ [role]) { m with store := (m.store.settled success).1 } :=
  h.grow role (Store.size_settled _ _) fun _ => Store.waits_settled

/-- The newest completion. -/
lemma Fits.role_size (h : m.Fits roles) (role : Role) :
    (roles ++ [role])[m.store.size]? = some role := by
  rw [h.size]
  exact List.getElem?_concat_length

/-- A machine that differs in nothing that holds completions. -/
lemma Fits.of_same (h : m.Fits roles) {m' : Machine ρ} (requested : m'.requested = m.requested)
    (store : m'.store = m.store) (answers : m'.answers = m.answers)
    (phase : m'.worker.phase.token? = m.worker.phase.token?)
    (chores : m'.worker.chores = m.worker.chores) : Fits roles m' where
  size := by rw [store]; exact h.size
  requested := by rw [requested]; exact h.requested
  phase := by rw [phase]; exact h.phase
  waiting := by rw [store]; exact h.waiting
  answers := by rw [answers]; exact h.answers
  chores := by rw [chores]; exact h.chores

/-! ### Requests -/

/-- The ways in which a request for a flush is answered. -/
inductive Replies (m : Machine ρ) : Machine ρ × Token × Bool → Prop where
  | late (stopped : m.stopped = true) :
      Replies m ({ m with store := (m.store.settled m.queue.isEmpty).1 }, m.store.size, false)
  | join {t : Token} (running : m.stopped = false) (requested : m.requested = some t) :
      Replies m (m, t, false)
  | new (running : m.stopped = false) (none : m.requested = none) :
      Replies m ({ m with store := m.store.fresh.1, requested := some m.store.size },
        m.store.size, true)

theorem replies_requestFlush (m : Machine ρ) : m.Replies m.requestFlush := by
  rw [requestFlush]
  split
  · exact .late ‹_›
  · have running : m.stopped = false := Bool.eq_false_iff.mpr ‹_›
    split
    · exact .join running ‹_›
    · exact .new running ‹_›

lemma Fits.reply (h : m.Fits roles) {m' : Machine ρ} {t : Token} {isNew : Bool}
    (reply : m.Replies (m', t, isNew)) :
    ∃ more, m'.Fits (roles ++ more) ∧ (roles ++ more)[t]? = some .flush := by
  cases reply with
  | late stopped => exact ⟨[.flush], h.settled _ _, h.role_size _⟩
  | join running requested =>
      refine ⟨[], ?_, ?_⟩
      · rw [List.append_nil]
        exact h
      · rw [List.append_nil]
        exact h.requested t requested
  | new running none =>
      refine ⟨[.flush], ?_, h.role_size _⟩
      have fresh := h.fresh .flush
      refine ⟨fresh.size, ?_, fresh.phase, fresh.waiting, fresh.answers, fresh.chores⟩
      rintro t ht
      obtain rfl : m.store.size = t := Option.some.inj ht
      exact h.role_size _

/-! ### The cycle -/

lemma Fits.goto (h : m.Fits roles) (p : Phase)
    (token : ∀ t, p.token? = some t → roles[t]? = some .flush) : (m.goto p).Fits roles where
  size := h.size
  requested := h.requested
  phase := token
  waiting := h.waiting
  answers := h.answers
  chores := h.chores

/-- A phase that is about no flush. -/
lemma Fits.goto_free (h : m.Fits roles) {p : Phase} (free : p.token? = none) :
    (m.goto p).Fits roles := by
  refine h.goto p ?_
  intro t ht
  rw [free] at ht
  cases ht

lemma Fits.unrequested (h : m.Fits roles) : Fits roles { m with requested := none } where
  size := h.size
  requested t ht := by cases ht
  phase := h.phase
  waiting := h.waiting
  answers := h.answers
  chores := h.chores

/-- A chore that resolves a flush. -/
lemma Fits.resolves (h : m.Fits roles) {p : Phase} {t : Token} {success : Bool}
    (role : roles[t]? = some .flush) (idle : p.token? = none) :
    Fits roles { m with worker :=
      { m.worker with phase := p, chores := [.resolve t success] } } where
  size := h.size
  requested := h.requested
  phase t ht := by
    rw [idle] at ht
    cases ht
  waiting := h.waiting
  answers := h.answers
  chores := by
    rintro c hc
    obtain rfl := List.mem_singleton.mp hc
    exact .inr ⟨t, success, rfl, role⟩

lemma Fits.resume (h : m.Fits roles) (success : Bool) {p : Purpose}
    (token : ∀ t, p.token? = some t → roles[t]? = some .flush) :
    (m.resume success p).Fits roles := by
  cases p with
  | chunk t remaining before => exact h.goto _ token
  | rest t before => exact h.resolves (token t rfl) rfl
  | scheduled => exact h.goto_free rfl

/-- **The cycle of the worker keeps to roles.** -/
theorem Fits.turn {o : Surroundings} {m' : Machine ρ} {events : List (Event ρ)} (h : m.Fits roles)
    (turn : Turn o m m' events) : m'.Fits roles := by
  cases turn with
  | startNever | goOn | quit | takeNothing | filledUp | filledAll | due | notDue | runOut | settle
  | again | sleep | timeUp => exact h.goto_free rfl
  | takeRequest phase request =>
      refine h.unrequested.goto _ ?_
      rintro _ ⟨⟩
      exact h.requested _ request
  | count phase | drained phase | drainedEarly phase | hand phase | succeed phase | fail phase
  | tally phase =>
      refine h.goto _ ?_
      intro t ht
      refine h.phase t ?_
      rw [phase]
      exact ht
  | start phase | drain phase | drainFull phase | schedule phase =>
      refine h.of_same rfl rfl rfl ?_ rfl
      rw [phase]
      rfl
  | fill phase queue => exact h.of_same rfl rfl rfl rfl rfl
  | pass phase =>
      refine h.resume _ ?_
      intro t ht
      refine h.phase t ?_
      rw [phase]
      exact ht
  | gauge phase =>
      have cleared : Fits roles { m with worker := { m.worker with batch := [] } } :=
        h.of_same rfl rfl rfl rfl rfl
      refine cleared.resume _ ?_
      intro t ht
      refine h.phase t ?_
      rw [phase]
      exact ht
  | announce | stayAwake | wake | retract =>
      refine Fits.goto_free ?_ rfl
      exact h.of_same rfl rfl rfl rfl rfl
  | leave =>
      refine Fits.goto_free ?_ rfl
      exact h.unrequested.of_same rfl rfl rfl rfl rfl
  | leaveRequest phase request =>
      refine Fits.goto ?_ _ ?_
      · exact h.unrequested.of_same rfl rfl rfl rfl rfl
      · rintro _ ⟨⟩
        exact h.requested _ request
  | answer phase =>
      refine h.resolves ?_ rfl
      refine h.phase _ ?_
      rw [phase]
      rfl

end Machine

/-! ### Chores -/

section Chores

variable {roles : List Role} {owner : Option Role} {m : Machine ρ}

/-- A chore that makes no completion and returns none. -/
lemma Effect.fits_quiet {e : Effect ρ} (machine : e.machine.Fits roles)
    (chores : ∀ c ∈ e.chores, c.Fits roles owner) (result : e.result = none) :
    ∃ more, e.Fits (roles ++ more) owner := by
  refine ⟨[], ?_⟩
  rw [List.append_nil]
  refine ⟨machine, chores, ?_⟩
  intro t ht
  rw [result] at ht
  cases ht

/-- A chore that sets nothing off either. -/
lemma Effect.fits_still {e : Effect ρ} (machine : e.machine.Fits roles) (chores : e.chores = [])
    (result : e.result = none) : ∃ more, e.Fits (roles ++ more) owner := by
  refine fits_quiet machine ?_ result
  rw [chores]
  exact List.forall_mem_nil _

lemma Machine.Fits.resolve (h : m.Fits roles) (t : Token) (success : Bool) :
    Machine.Fits roles { m with store := (m.store.resolve t success).1 } where
  size := (Store.size_resolve ..).trans h.size
  requested := h.requested
  phase := h.phase
  waiting r hr := h.waiting r (Store.waits_resolve hr)
  answers := h.answers
  chores := h.chores

/-- Whatever waits for a completion is called with its outcome. -/
lemma Machine.Fits.calls (h : m.Fits roles) (t : Token) (success : Bool) :
    ∀ c ∈ (m.store.resolve t success).2.map fun r => (Chore.call r success : Chore ρ),
      c.Fits roles owner := by
  intro c hc
  obtain ⟨r, hr, rfl⟩ := List.mem_map.mp hc
  exact h.waiting r (Store.waits_of_mem_resolve hr)

lemma Machine.Fits.await (h : m.Fits roles) (t : Token) {r : Reaction} (hr : r.Fits roles) :
    ∃ more, (m.await t r).Fits (roles ++ more) owner := by
  have machine : Machine.Fits roles { m with store := (m.store.register t r).1 } := by
    refine ⟨(Store.size_register ..).trans h.size, h.requested, h.phase, ?_, h.answers, h.chores⟩
    intro other hother
    rcases Store.waits_register hother with hother | rfl
    · exact h.waiting other hother
    · exact hr
  rw [Machine.await]
  split
  · rename_i store hstore
    rw [hstore] at machine
    exact Effect.fits_still machine rfl rfl
  · rename_i store success hstore
    rw [hstore] at machine
    exact Effect.fits_quiet machine (List.forall_mem_singleton.mpr hr) rfl

/-- The exporter's answer to being shut down is a new completion. -/
lemma Chore.fits_shutExporter (h : m.Fits roles) (o : Surroundings) {flushed done : Token}
    (hflushed : roles[flushed]? = some .flush) (hdone : roles[done]? = some .shutdown) :
    ∃ more, ((shutExporter flushed done).run o m).Fits (roles ++ more) owner := by
  -- It may have an outcome already or not.
  have answered : ∀ {store : Store Reaction}, Machine.Fits (roles ++ [.answer]) { m with store } →
      ∃ more, Effect.Fits (roles ++ more) owner
        { machine := { m with store, answers := m.answers ++ [m.store.size] }
          chores := [attach m.store.size flushed done]
          events := [.exporterShutdown] } := by
    intro store grown
    refine ⟨[.answer], ?_, ?_, by rintro _ ⟨⟩⟩
    · refine ⟨grown.size, grown.requested, grown.phase, grown.waiting, ?_, grown.chores⟩
      intro t ht
      rcases List.mem_append.mp ht with ht | ht
      · exact grown.answers t ht
      · obtain rfl := List.mem_singleton.mp ht
        exact h.role_size _
    · refine List.forall_mem_singleton.mpr ?_
      exact ⟨h.role_size _, role_append hflushed, role_append hdone⟩
  rw [run]
  split
  · exact Effect.fits_still h rfl rfl
  · rename_i outcome _
    cases outcome with
    | none => exact answered (h.fresh _)
    | some success => exact answered (h.settled success _)

lemma Chore.fits_claim (h : m.Fits roles) (o : Surroundings) :
    ∃ more, (claim.run o m).Fits (roles ++ more) (some .shutdown) := by
  have result : ∀ t, some m.store.size = some t →
      ∃ role, some Role.shutdown = some role ∧ (roles ++ [.shutdown])[t]? = some role := by
    rintro t ⟨⟩
    exact ⟨_, rfl, h.role_size _⟩
  refine ⟨[.shutdown], ?_⟩
  rw [run]
  split
  · exact ⟨h.settled true _, List.forall_mem_nil _, result⟩
  · refine ⟨?_, ?_, result⟩
    · exact (h.fresh .shutdown).of_same rfl rfl rfl rfl rfl
    · exact List.forall_mem_singleton.mpr (h.role_size _)

lemma Chore.fits_request (h : m.Fits roles) (o : Surroundings) {done : Option Token}
    (hc : (request done : Chore ρ).Fits roles owner) :
    ∃ more, ((request done).run o m).Fits (roles ++ more) owner := by
  obtain ⟨⟨m', t, isNew⟩, hq⟩ : ∃ q, m.requestFlush = q := ⟨_, rfl⟩
  have reply := m.replies_requestFlush
  rw [hq] at reply
  obtain ⟨more, machine, role⟩ := h.reply reply
  have wakes : ∀ c ∈ (if isNew then [raise, notify] else [] : List (Chore ρ)),
      c.Fits (roles ++ more) owner := by
    cases isNew with
    | true => exact List.forall_mem_cons.mpr ⟨trivial, List.forall_mem_singleton.mpr trivial⟩
    | false => exact List.forall_mem_nil _
  cases done with
  | none =>
      simp only [run, hq]
      refine ⟨more, machine, wakes, ?_⟩
      rintro _ ⟨⟩
      exact ⟨_, hc, role⟩
  | some done =>
      simp only [run, hq]
      have given : roles[done]? = some .shutdown := hc
      refine ⟨more, machine, List.forall_mem_append.mpr ⟨wakes, ?_⟩, by rintro _ ⟨⟩⟩
      exact List.forall_mem_singleton.mpr ⟨role, role_append given⟩

/-- **A chore keeps to roles.**  Which completion it resolves does not matter. -/
theorem Chore.fits_run (h : m.Fits roles) (o : Surroundings) {c : Chore ρ}
    (hc : (∀ t success, c ≠ .resolve t success) → c.Fits roles owner) :
    ∃ more, (c.run o m).Fits (roles ++ more) owner := by
  cases c with
  | resolve t success => exact Effect.fits_quiet (h.resolve t success) (h.calls t success) rfl
  | call r success =>
      have hr : r.Fits roles := hc (by rintro _ _ ⟨⟩)
      cases r with
      | stop flushed done =>
          refine Effect.fits_quiet h ?_ rfl
          refine List.forall_mem_cons.mpr ⟨trivial, List.forall_mem_cons.mpr ⟨trivial, ?_⟩⟩
          exact List.forall_mem_cons.mpr ⟨trivial, List.forall_mem_singleton.mpr hr⟩
      | conclude flushed done =>
          exact Effect.fits_quiet h (List.forall_mem_singleton.mpr (.inl hr.2)) rfl
  | halt => exact Effect.fits_still (h.of_same rfl rfl rfl rfl rfl) rfl rfl
  | raise => exact Effect.fits_still (h.of_same rfl rfl rfl rfl rfl) rfl rfl
  | notify =>
      refine Effect.fits_still ?_ rfl rfl
      rw [run]
      split
      · exact h.goto_free rfl
      · exact h
  | shutExporter flushed done =>
      obtain ⟨hflushed, hdone⟩ := hc (by rintro _ _ ⟨⟩)
      exact fits_shutExporter h o hflushed hdone
  | attach answer flushed done => exact h.await answer (r := .conclude flushed done) (hc (by rintro _ _ ⟨⟩)).2
  | enter r =>
      refine Effect.fits_quiet h ?_ rfl
      rw [run]
      split
      · exact List.forall_mem_nil _
      · exact List.forall_mem_singleton.mpr trivial
  | offer r =>
      have nothing : ∀ c ∈ ([readLength] : List (Chore ρ)), c.Fits roles owner :=
        List.forall_mem_singleton.mpr trivial
      rw [run]
      split
      · exact Effect.fits_quiet (h.of_same rfl rfl rfl rfl rfl) nothing rfl
      · exact Effect.fits_quiet h (List.forall_mem_singleton.mpr trivial) rfl
  | report => exact Effect.fits_still h rfl rfl
  | readLength => exact Effect.fits_quiet h (List.forall_mem_singleton.mpr trivial) rfl
  | compare length =>
      refine Effect.fits_quiet h ?_ rfl
      simp only [run]
      split
      · split
        · exact List.forall_mem_cons.mpr ⟨trivial, List.forall_mem_singleton.mpr trivial⟩
        · exact List.forall_mem_nil _
      · exact List.forall_mem_nil _
  | claim =>
      obtain rfl : owner = some .shutdown := hc (by rintro _ _ ⟨⟩)
      exact fits_claim h o
  | request done => exact fits_request h o (hc (by rintro _ _ ⟨⟩))
  | watch flushed done => exact h.await flushed (r := .stop flushed done) (hc (by rintro _ _ ⟨⟩))

end Chores

/-! ### Steps and runs -/

section Runs

variable {roles : List Role}

lemma Thread.Fits.after {th : Thread ρ} {c : Chore ρ} {rest : List (Chore ρ)} {e : Effect ρ}
    (h : th.Fits roles) (first : th.chores = c :: rest) (he : e.Fits roles th.call.role?) :
    (th.after e rest).Fits roles := by
  rw [Thread.after]
  split
  · exact ⟨List.forall_mem_nil _, by rintro _ ⟨⟩⟩
  · refine ⟨List.forall_mem_append.mpr ⟨he.chores, ?_⟩, ?_⟩
    · intro c hc
      refine h.chores c ?_
      rw [first]
      exact List.mem_cons_of_mem _ hc
    · intro t ht
      rcases Option.or_eq_some_iff.mp ht with ht | ⟨-, ht⟩
      · exact he.result t ht
      · exact h.result t ht

lemma Thread.fits_start (call : Call ρ)
    (known : ∀ answer success, call = .settle answer success → roles[answer]? = some .answer) :
    (Thread.start call).Fits roles := by
  refine ⟨?_, by rintro _ ⟨⟩⟩
  cases call with
  | emit r => exact List.forall_mem_singleton.mpr trivial
  | flush => exact List.forall_mem_singleton.mpr rfl
  | shutdown => exact List.forall_mem_singleton.mpr rfl
  | settle answer success => exact List.forall_mem_singleton.mpr (.inr (known answer success rfl))

namespace System

variable {s t : System ρ}

lemma fits_start (config : Config) : (start config : System ρ).Fits [] where
  machine :=
    { size := rfl
      requested := by rintro _ ⟨⟩
      phase := by rintro _ ⟨⟩
      waiting := by
        rintro r ⟨t, cell, found, -⟩
        cases found
      answers := List.forall_mem_nil _
      chores := List.forall_mem_nil _ }
  threads := List.forall_mem_nil _

/-- A chore of the worker belongs to no call.  Only if it resolves something, that may be a
flush. -/
lemma Fits.worker (h : s.Fits roles) {c : Chore ρ} {rest : List (Chore ρ)}
    (first : s.machine.worker.chores = c :: rest) (other : ∀ t success, c ≠ .resolve t success) :
    c.Fits roles none := by
  have hc : c.FitsWorker roles := h.machine.chores c (by rw [first]; exact List.mem_cons_self ..)
  rcases hc with hc | ⟨t, success, hc, -⟩
  · exact hc
  · exact absurd hc (other t success)

lemma Fits.chore (h : s.Fits roles) (o : Surroundings) {c : Chore ρ} {rest : List (Chore ρ)}
    (first : s.machine.worker.chores = c :: rest) :
    ∃ more, (c.run o s.machine).Fits (roles ++ more) none :=
  Chore.fits_run h.machine o (h.worker first)

/-- **Every step keeps to roles**, and may add completions. -/
theorem Fits.stride {events : List (Event ρ)} (h : s.Fits roles) (stride : s.Stride t events) :
    ∃ more, t.Fits (roles ++ more) := by
  cases stride with
  | turn idle turn =>
      refine ⟨[], ?_⟩
      rw [List.append_nil]
      exact ⟨h.machine.turn turn, h.threads⟩
  | @chore o c rest first calm =>
      obtain ⟨more, machine, chores, -⟩ := h.chore o first
      refine ⟨more, ?_, fun th hth => (h.threads th hth).mono more⟩
      refine ⟨machine.size, machine.requested, machine.phase, machine.waiting, machine.answers, ?_⟩
      refine List.forall_mem_append.mpr ⟨fun c hc => .inl (chores c hc), ?_⟩
      intro later hlater
      refine (h.machine.chores later ?_).mono more
      rw [first]
      exact List.mem_cons_of_mem _ hlater
  | @panic o c rest first panicked =>
      obtain ⟨more, machine, -, -⟩ := h.chore o first
      refine ⟨more, ?_, fun th hth => (h.threads th hth).mono more⟩
      exact ⟨machine.size, machine.requested, by rintro _ ⟨⟩, machine.waiting,
        machine.answers, List.forall_mem_nil _⟩
  | @begin call known =>
      refine ⟨[], ?_⟩
      rw [List.append_nil]
      refine ⟨h.machine, List.forall_mem_append.mpr ⟨h.threads, ?_⟩⟩
      refine List.forall_mem_singleton.mpr (Thread.fits_start call ?_)
      intro answer success hcall
      exact h.machine.answers answer (known answer success hcall)
  | @advance o i th c rest found first =>
      have hth := h.threads th (List.mem_of_getElem? found)
      have hc := h.next found first
      obtain ⟨more, he⟩ := Chore.fits_run h.machine o (c := c) fun _ => hc
      refine ⟨more, he.machine, ?_⟩
      intro other hother
      rcases List.mem_or_eq_of_mem_set hother with hother | rfl
      · exact (h.threads other hother).mono more
      · exact (hth.mono more).after first he

end System

end Runs

end ProfilePipeline.Batch
