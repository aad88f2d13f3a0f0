import Mathlib.Tactic.Common
import ProfilePipeline.Proofs.Batch.Tokens

/-!
# Where calls stand

The chores of a call are always what is left of one fixed sequence, and so are those of the worker.

**Stages.**  `Standing` lists how far a call can have come and with which completion.  The end of a
shutdown, after its flush, is the `Farewell`, which either the call itself or the worker goes
through.

**Who waits for what.**  The end of a shutdown waits for its own flush, then for the exporter's
answer (`Reaction.Belongs`), so nothing ever waits for the completion of a shutdown.

A chore leads from one stage to the next (`Standing.run`, `Farewell.run`) and leaves everything where
it belongs (`Machine.Posted.run`).
-/

namespace ProfilePipeline.Batch

open Completion (Token Store weigh)

variable {ρ : Type}

/-! ## Stages -/

/-- What is left of waking the worker before `rest`. -/
inductive Signals (rest : List (Chore ρ)) : List (Chore ρ) → Prop where
  | raise : Signals rest (.raise :: .notify :: rest)
  | notify : Signals rest (.notify :: rest)
  | ended : Signals rest rest

/-- What is left of a shutdown after its flush. -/
inductive Farewell (flushed done : Token) : List (Chore ρ) → Prop where
  | stop (success : Bool) : Farewell flushed done [.call (.stop flushed done) success]
  | halt : Farewell flushed done [.halt, .raise, .notify, .shutExporter flushed done]
  | signals {chores : List (Chore ρ)} (h : Signals [.shutExporter flushed done] chores) :
      Farewell flushed done chores
  | attach (answer : Token) : Farewell flushed done [.attach answer flushed done]
  | conclude (success : Bool) : Farewell flushed done [.call (.conclude flushed done) success]
  | resolve (success : Bool) : Farewell flushed done [.resolve done success]
  | ended : Farewell flushed done []

/-- The chores of whoever settles the exporter's answer. -/
def Chore.Settles : Chore ρ → Prop
  | resolve _ _ => True
  | call (.conclude _ _) _ => True
  | _ => False

/-- How far a call can have come: its completion, if it has one, and what it has left to do. -/
inductive Standing : Call ρ → Option Token → List (Chore ρ) → Prop where
  | enter (r : ρ) : Standing (.emit r) none [.enter r]
  | offer (r : ρ) : Standing (.emit r) none [.offer r]
  | report (r : ρ) : Standing (.emit r) none [.report]
  | readLength (r : ρ) : Standing (.emit r) none [.readLength]
  | compare (r : ρ) (length : Nat) : Standing (.emit r) none [.compare length]
  | emitted (r : ρ) {chores : List (Chore ρ)} (h : Signals [] chores) :
      Standing (.emit r) none chores
  | request : Standing .flush none [.request none]
  | requested (t : Token) {chores : List (Chore ρ)} (h : Signals [] chores) :
      Standing .flush (some t) chores
  | claim : Standing .shutdown none [.claim]
  | ask (done : Token) : Standing .shutdown (some done) [.request (some done)]
  | watch (flushed done : Token) {chores : List (Chore ρ)} (h : Signals [.watch flushed done] chores) :
      Standing .shutdown (some done) chores
  | farewell (flushed done : Token) {chores : List (Chore ρ)} (h : Farewell flushed done chores) :
      Standing .shutdown (some done) chores
  | panicked : Standing .shutdown none []
  | settle (answer : Token) (success : Bool) {chores : List (Chore ρ)}
      (h : ∀ c ∈ chores, c.Settles) : Standing (.settle answer success) none chores

def Thread.Stands (th : Thread ρ) : Prop := Standing th.call th.result th.chores

/-- The worker resolves a flush, or has been handed the end of a shutdown, or has no chores. -/
inductive WorkerStands (roles : List Role) : List (Chore ρ) → Prop where
  | resolve {t : Token} (success : Bool) (role : roles[t]? = some .flush) :
      WorkerStands roles [.resolve t success]
  | farewell {flushed done : Token} {chores : List (Chore ρ)}
      (role : roles[done]? = some .shutdown) (h : Farewell flushed done chores) :
      WorkerStands roles chores
  | idle : WorkerStands roles []

/-- What a reaction may wait for. -/
def Reaction.Belongs (roles : List Role) (t : Token) : Reaction → Prop
  | stop flushed _ => t = flushed
  | conclude _ _ => roles[t]? = some .answer

def Machine.Posted (roles : List Role) (m : Machine ρ) : Prop :=
  ∀ t r, m.store.WaitsAt t r → r.Belongs roles t

/-! ## One chore -/

section Chores

variable {roles : List Role} {m : Machine ρ} {o : Surroundings}

lemma Reaction.Belongs.mono (more : List Role) {t : Token} {r : Reaction} (h : r.Belongs roles t) :
    r.Belongs (roles ++ more) t := by
  cases r with
  | stop => exact h
  | conclude =>
      have given : roles[t]? = some .answer := h
      exact role_append given

lemma WorkerStands.mono (more : List Role) {chores : List (Chore ρ)}
    (h : WorkerStands roles chores) : WorkerStands (roles ++ more) chores := by
  cases h with
  | resolve success role => exact .resolve success (role_append role)
  | farewell role h => exact .farewell (role_append role) h
  | idle => exact .idle

/-- Nothing waits for a shutdown. -/
lemma Machine.Posted.resolve_shutdown (posted : m.Posted roles) (fits : m.Fits roles) {done : Token}
    (role : roles[done]? = some .shutdown) (success : Bool) :
    (m.store.resolve done success).2 = [] := by
  rw [List.eq_nil_iff_forall_not_mem]
  intro r hr
  have belongs := posted done r (Store.waitsAt_of_mem_resolve hr)
  cases r with
  | stop flushed other =>
      obtain rfl : done = flushed := belongs
      have flush := (fits.waiting _ (Store.waits_of_mem_resolve hr)).1
      cases role.symm.trans flush
  | conclude flushed other => cases role.symm.trans belongs

/-- Only the end of a shutdown waits for its flush. -/
lemma Machine.Posted.resolve_flush (posted : m.Posted roles) {t : Token}
    (role : roles[t]? = some .flush) (success : Bool) :
    ∀ r ∈ (m.store.resolve t success).2, ∃ done, r = .stop t done := by
  intro r hr
  have belongs := posted t r (Store.waitsAt_of_mem_resolve hr)
  cases r with
  | stop flushed done =>
      obtain rfl : t = flushed := belongs
      exact ⟨done, rfl⟩
  | conclude flushed done => cases role.symm.trans belongs

/-- Whoever settles something else does not end up with a shutdown that waits for its flush. -/
lemma Machine.Posted.settles (posted : m.Posted roles) (fits : m.Fits roles) {t : Token}
    (role : roles[t]? ≠ some .flush) (success : Bool) :
    ∀ c ∈ ((Chore.resolve t success).run o m).chores, c.Settles := by
  intro c hc
  obtain ⟨r, hr, rfl⟩ := List.mem_map.mp hc
  have belongs := posted t r (Store.waitsAt_of_mem_resolve hr)
  cases r with
  | stop flushed done =>
      obtain rfl : t = flushed := belongs
      exact absurd (fits.waiting _ (Store.waits_of_mem_resolve hr)).1 role
  | conclude => trivial

lemma waitsAt_await {t u : Token} {r k : Reaction}
    (h : (m.await t r).machine.store.WaitsAt u k) : m.store.WaitsAt u k ∨ u = t ∧ k = r := by
  rw [Machine.await] at h
  split at h
  · rename_i store hstore
    refine Store.waitsAt_register (s := m.store) ?_
    rw [hstore]
    exact h
  · rename_i store success hstore
    refine Store.waitsAt_register (s := m.store) ?_
    rw [hstore]
    exact h

/-- Only two chores leave something waiting. -/
theorem Chore.waitsAt_run {c : Chore ρ} {t : Token} {r : Reaction}
    (h : (c.run o m).machine.store.WaitsAt t r) :
    m.store.WaitsAt t r ∨ (∃ done, c = .watch t done ∧ r = .stop t done) ∨
      ∃ flushed done, c = .attach t flushed done ∧ r = .conclude flushed done := by
  cases c with
  | resolve u success => exact .inl (Store.waitsAt_resolve h)
  | call r success => cases r <;> exact .inl h
  | notify | offer =>
      rw [run] at h
      split at h
      · exact .inl h
      · exact .inl h
  | shutExporter flushed done =>
      rw [run] at h
      split at h
      · exact .inl h
      · rename_i outcome _
        cases outcome with
        | none => exact .inl (Store.waitsAt_fresh h)
        | some success => exact .inl (Store.waitsAt_settled h)
  | attach answer flushed done =>
      rcases waitsAt_await h with before | ⟨rfl, rfl⟩
      · exact .inl before
      · exact .inr (.inr ⟨flushed, done, rfl, rfl⟩)
  | claim =>
      rw [run] at h
      split at h
      · exact .inl (Store.waitsAt_settled h)
      · exact .inl (Store.waitsAt_fresh h)
  | request done =>
      have same : m.requestFlush.1.store.WaitsAt t r → m.store.WaitsAt t r := by
        intro h
        have reply := m.replies_requestFlush
        generalize m.requestFlush = q at reply h
        cases reply with
        | late => exact Store.waitsAt_settled h
        | join => exact h
        | new => exact Store.waitsAt_fresh h
      cases done with
      | none => exact .inl (same h)
      | some done => exact .inl (same h)
  | watch flushed done =>
      rcases waitsAt_await h with before | ⟨rfl, rfl⟩
      · exact .inl before
      · exact .inr (.inl ⟨done, rfl, rfl⟩)
  | _ => exact .inl h

/-- **A chore keeps everything where it belongs.** -/
theorem Machine.Posted.run (posted : m.Posted roles) {c : Chore ρ} {owner : Option Role}
    (hc : (∀ t success, c ≠ .resolve t success) → c.Fits roles owner) :
    (c.run o m).machine.Posted roles := by
  intro t r waits
  rcases Chore.waitsAt_run waits with before | ⟨done, rfl, rfl⟩ | ⟨flushed, done, rfl, rfl⟩
  · exact posted t r before
  · rfl
  · exact (hc (by rintro _ _ ⟨⟩)).1

/-- What has been waited for is called at once, or nothing is. -/
lemma await_cases (m : Machine ρ) (t : Token) (r : Reaction) :
    (m.await t r).result = none ∧ (m.await t r).events = [] ∧
      ((m.await t r).chores = [] ∨ ∃ success, (m.await t r).chores = [.call r success]) := by
  rw [Machine.await]
  split
  · exact ⟨rfl, rfl, .inl rfl⟩
  · exact ⟨rfl, rfl, .inr ⟨_, rfl⟩⟩

/-- Only the chores that ask for something return a completion. -/
lemma Chore.result_run (o : Surroundings) (m : Machine ρ) (c : Chore ρ) :
    (c.run o m).result = none ∨ c = .claim ∨ c = .request none := by
  cases c with
  | call r => cases r <;> exact .inl rfl
  | shutExporter | offer =>
      rw [run]
      split
      · exact .inl rfl
      · exact .inl rfl
  | attach => exact .inl (await_cases ..).1
  | watch => exact .inl (await_cases ..).1
  | claim => exact .inr (.inl rfl)
  | request done =>
      cases done with
      | none => exact .inr (.inr rfl)
      | some => exact .inl rfl
  | _ => exact .inl rfl

/-- Waking the worker goes on, unless it is over. -/
lemma Signals.run {c : Chore ρ} {rest chores : List (Chore ρ)} (h : Signals rest (c :: chores)) :
    (c.run o m).result = none ∧ Signals rest ((c.run o m).chores ++ chores) ∨
      rest = c :: chores := by
  cases h with
  | raise => exact .inl ⟨rfl, .notify⟩
  | notify => exact .inl ⟨rfl, .ended⟩
  | ended => exact .inr rfl

/-- **The end of a shutdown goes on**, unless the exporter panics. -/
theorem Farewell.run {flushed done : Token} {c : Chore ρ} {rest : List (Chore ρ)}
    (h : Farewell flushed done (c :: rest)) (posted : m.Posted roles) (fits : m.Fits roles)
    (role : roles[done]? = some .shutdown) (calm : (c.run o m).panicked = false) :
    Farewell flushed done ((c.run o m).chores ++ rest) := by
  cases h with
  | stop success => exact .halt
  | halt => exact .signals .raise
  | signals h =>
      rcases h.run (o := o) (m := m) with ⟨-, next⟩ | ended
      · exact .signals next
      · cases ended
        cases answer : o.shutdown with
        | panicked =>
            rw [Chore.run, answer] at calm
            cases calm
        | returned outcome =>
            rw [Chore.run, answer]
            exact .attach _
  | attach answer =>
      show Farewell flushed done ((m.await answer (.conclude flushed done)).chores ++ [])
      rcases (await_cases m answer (.conclude flushed done)).2.2 with none | ⟨success, one⟩
      · rw [none]
        exact .ended
      · rw [one]
        exact .conclude success
  | conclude success => exact .resolve _
  | resolve success =>
      show Farewell flushed done ((m.store.resolve done success).2.map _ ++ [])
      rw [posted.resolve_shutdown fits role]
      exact .ended

/-- What comes after a chore at the end of a shutdown. -/
def Chore.Ends (flushed done : Token) (rest : List (Chore ρ)) : Chore ρ → Prop
  | call (.stop f d) _ | call (.conclude f d) _ | shutExporter f d | attach _ f d =>
    f = flushed ∧ d = done ∧ rest = []
  | halt => rest = [.raise, .notify, .shutExporter flushed done]
  | raise => rest = [.notify, .shutExporter flushed done]
  | notify => rest = [.shutExporter flushed done]
  | resolve t _ => t = done ∧ rest = []
  | _ => False

lemma Farewell.ends {flushed done : Token} {c : Chore ρ} {rest : List (Chore ρ)}
    (h : Farewell flushed done (c :: rest)) : c.Ends flushed done rest := by
  cases h with
  | halt => rfl
  | signals h =>
      cases h with
      | raise => rfl
      | notify => rfl
      | ended => exact ⟨rfl, rfl, rfl⟩
  | stop | attach | conclude => exact ⟨rfl, rfl, rfl⟩
  | resolve => exact ⟨rfl, rfl⟩

lemma Farewell.not_ask {flushed done d : Token} {chores : List (Chore ρ)}
    (h : Farewell flushed done chores) : .request (some d) ∉ chores := by
  cases h with
  | signals h => cases h <;> simp
  | _ => simp

/-- Only a shutdown asks for the flush of a shutdown. -/
lemma Standing.not_ask {call : Call ρ} {result : Option Token} {d : Token}
    {chores : List (Chore ρ)} (h : Standing call result chores) (other : call ≠ .shutdown) :
    .request (some d) ∉ chores := by
  cases h with
  | emitted r h => cases h <;> simp
  | requested t h => cases h <;> simp
  | settle answer success h => exact fun mem => h _ mem
  | claim | ask | watch | farewell | panicked => exact absurd rfl other
  | _ => simp

/-- Which call a chore belongs to, and what comes after it. -/
def Chore.Placed (call : Call ρ) (result : Option Token) (rest : List (Chore ρ)) : Chore ρ → Prop
  | offer _ => (∃ r, call = .emit r) ∧ rest = []
  | raise => ∃ later, rest = .notify :: later
  | claim => call = .shutdown ∧ result = none ∧ rest = []
  | request none => call = .flush ∧ result = none ∧ rest = []
  | request (some done) | watch _ done | .call (.stop _ done) _ | shutExporter _ done
  | attach _ _ done => call = .shutdown ∧ result = some done ∧ rest = []
  | halt => call = .shutdown ∧ ∃ flushed done, result = some done ∧
      rest = [.raise, .notify, .shutExporter flushed done]
  | _ => True

lemma Farewell.placed {flushed done : Token} {c : Chore ρ} {rest : List (Chore ρ)}
    (h : Farewell flushed done (c :: rest)) : c.Placed .shutdown (some done) rest := by
  cases h with
  | halt => exact ⟨rfl, flushed, done, rfl, rfl⟩
  | signals h =>
      cases h with
      | raise => exact ⟨_, rfl⟩
      | notify => trivial
      | ended => exact ⟨rfl, rfl, rfl⟩
  | stop | attach => exact ⟨rfl, rfl, rfl⟩
  | conclude | resolve => trivial

theorem Standing.placed {call : Call ρ} {result : Option Token} {c : Chore ρ}
    {rest : List (Chore ρ)} (h : Standing call result (c :: rest)) : c.Placed call result rest := by
  have signals : ∀ {c : Chore ρ} {rest}, Signals [] (c :: rest) → c.Placed call result rest := by
    intro c rest h
    cases h with
    | raise => exact ⟨_, rfl⟩
    | notify => trivial
  cases h with
  | enter | report | readLength | compare => trivial
  | offer r => exact ⟨⟨r, rfl⟩, rfl⟩
  | emitted r h => exact signals h
  | request => exact ⟨rfl, rfl, rfl⟩
  | requested t h => exact signals h
  | claim => exact ⟨rfl, rfl, rfl⟩
  | ask => exact ⟨rfl, rfl, rfl⟩
  | watch flushed done h =>
      cases h with
      | raise => exact ⟨_, rfl⟩
      | notify => trivial
      | ended => exact ⟨rfl, rfl, rfl⟩
  | farewell flushed done h => exact h.placed
  | settle answer success h =>
      have settles := (List.forall_mem_cons.mp h).1
      cases c with
      | resolve => trivial
      | call r =>
          cases r with
          | stop => exact settles.elim
          | conclude => trivial
      | _ => exact settles.elim

/-- A shutdown that waits for its flush has left its end to whoever resolves that, or goes on with
it. -/
lemma Standing.run_watch (flushed done : Token) :
    Standing (.shutdown : Call ρ) (((Chore.watch flushed done).run o m).result.or (some done))
      (((Chore.watch flushed done).run o m).chores ++ []) := by
  obtain ⟨result, -, chores⟩ := await_cases m flushed (.stop flushed done)
  show Standing _ ((m.await flushed (.stop flushed done)).result.or _)
    ((m.await flushed (.stop flushed done)).chores ++ [])
  rw [result]
  rcases chores with none | ⟨success, one⟩
  · rw [none]
    exact .farewell flushed done .ended
  · rw [one]
    exact .farewell flushed done (.stop success)

/-- **A call goes on.** -/
theorem Standing.run {call : Call ρ} {result : Option Token} {c : Chore ρ} {rest : List (Chore ρ)}
    (h : Standing call result (c :: rest)) (posted : m.Posted roles) (fits : m.Fits roles)
    (hc : c.Fits roles call.role?)
    (role : call = .shutdown → ∀ done, result = some done → roles[done]? = some .shutdown)
    (calm : (c.run o m).panicked = false) :
    Standing call ((c.run o m).result.or result) ((c.run o m).chores ++ rest) := by
  have wakes : ∀ {isNew : Bool} {rest : List (Chore ρ)},
      Signals rest ((if isNew then [.raise, .notify] else []) ++ rest) := by
    intro isNew rest
    cases isNew with
    | true => exact .raise
    | false => exact .ended
  cases h with
  | enter r =>
      rw [Chore.run]
      split
      · exact .emitted r .ended
      · exact .offer r
  | offer r =>
      rw [Chore.run]
      split
      · exact .readLength r
      · exact .report r
  | report r => exact .emitted r .ended
  | readLength r => exact .compare r _
  | compare r length =>
      simp only [Chore.run]
      split
      · split
        · exact .emitted r .raise
        · exact .emitted r .ended
      · exact .emitted r .ended
  | emitted r h =>
      rcases h.run (o := o) (m := m) with ⟨result, next⟩ | ended
      · rw [result]
        exact .emitted r next
      · cases ended
  | request => exact .requested _ wakes
  | requested t h =>
      rcases h.run (o := o) (m := m) with ⟨result, next⟩ | ended
      · rw [result]
        exact .requested t next
      · cases ended
  | claim =>
      rw [Chore.run]
      split
      · exact .farewell m.store.size _ .ended
      · exact .ask _
  | ask done =>
      simp only [Chore.run, List.append_nil]
      exact .watch _ done wakes
  | watch flushed done h =>
      rcases h.run (o := o) (m := m) with ⟨result, next⟩ | ended
      · rw [result]
        exact .watch flushed done next
      · cases ended
        exact run_watch flushed done
  | farewell flushed done h =>
      have result : (c.run o m).result = none := by
        rcases Chore.result_run o m c with none | rfl | rfl
        · exact none
        · exact h.ends.elim
        · exact h.ends.elim
      rw [result]
      exact .farewell flushed done (h.run posted fits (role rfl done rfl) calm)
  | settle answer success h =>
      obtain ⟨now, later⟩ := List.forall_mem_cons.mp h
      cases c with
      | resolve t outcome =>
          have settles := posted.settles (o := o) fits hc.not_flush outcome
          exact .settle answer success (List.forall_mem_append.mpr ⟨settles, later⟩)
      | call r outcome =>
          cases r with
          | stop => exact now.elim
          | conclude => exact .settle answer success (List.forall_mem_cons.mpr ⟨trivial, later⟩)
      | _ => exact now.elim

end Chores

end ProfilePipeline.Batch
