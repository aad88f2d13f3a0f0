import Mathlib.Tactic.Common
import ProfilePipeline.Proofs.Batch.Calls
import ProfilePipeline.Proofs.Batch.Dues

/-!
# How everyone behaves

In every reachable state each call and the worker are at one of their stages, and everything waits
where it belongs.  With two sums of dues that makes `System.Conduct`: the worker is told to stop
once, and the exporter is shut down once, because the shutdown that won owes each of them once.

* `System.Conduct.stride` — a step keeps to all of it.
* `System.Reaches.conduct` — so it holds in every reachable state.
-/

namespace ProfilePipeline.Batch

open Completion (Token Store weigh)

variable {ρ : Type}

/-! ## Once -/

/-- How often the exporter was shut down. -/
def exporterShutdowns (shown : List (Event ρ)) : Nat :=
  shown.countP fun
    | .exporterShutdown => true
    | _ => false

lemma exporterShutdowns_append (shown events : List (Event ρ)) :
    exporterShutdowns (shown ++ events) = exporterShutdowns shown + exporterShutdowns events :=
  List.countP_append

lemma exporterShutdowns_eq_zero {events : List (Event ρ)} (h : .exporterShutdown ∉ events) :
    exporterShutdowns events = 0 := by
  rw [exporterShutdowns, List.countP_eq_zero]
  intro event mem
  cases event with
  | exporterShutdown => exact absurd mem h
  | _ => exact Bool.false_ne_true

namespace Dues

/-- Counts who has to tell the worker to stop. -/
def halting : Dues := { halt := 1 }

/-- Counts who has to shut the exporter down. -/
def shutting : Dues := { shut := 1 }

/-- Counts who has to draw the conclusion. -/
def concluding : Dues := { conclude := 1 }

lemma paid_shutting (o : Surroundings) (m : Machine ρ) (c : Chore ρ) :
    shutting.paid o c = exporterShutdowns (c.run o m).events := by
  cases c with
  | resolve t success =>
      simp only [paid, shutting, Chore.run]
      split
      · rfl
      · rfl
  | call r => cases r <;> rfl
  | shutExporter flushed done =>
      cases answer : o.shutdown with
      | panicked => simp [paid, shutting, Chore.run, answer, exporterShutdowns]
      | returned => simp [paid, shutting, Chore.run, answer, exporterShutdowns]
  | attach answer flushed done =>
      have none := (await_cases m answer (.conclude flushed done)).2.1
      simp [paid, Chore.run, none, exporterShutdowns]
  | watch flushed done =>
      have none := (await_cases m flushed (.stop flushed done)).2.1
      simp [paid, Chore.run, none, exporterShutdowns]
  | offer | claim =>
      simp only [paid, Chore.run]
      split
      · rfl
      · rfl
  | request done => cases done <;> rfl
  | _ => rfl

lemma paid_halting (o : Surroundings) (c : Chore ρ) : c = .halt ∨ halting.paid o c = 0 := by
  cases c with
  | halt => exact .inl rfl
  | call r => cases r <;> exact .inr rfl
  | shutExporter flushed done =>
      refine .inr ?_
      rw [paid]
      split
      · rfl
      · rfl
  | _ => exact .inr rfl

/-- What is taken on is taken on by the shutdown that wins. -/
lemma incurred_add {w : Dues} (one : w.halt + w.shut + w.conclude = 1) (free : ∀ t, w.done t = 0)
    (o : Surroundings) (m : Machine ρ) (c : Chore ρ) :
    w.incurred m c + (if m.isShutdown then 1 else 0) =
      if (c.run o m).machine.isShutdown then 1 else 0 := by
  rcases (Chore.shares_run o m c).isShutdown with rfl | same
  · simp only [incurred, Chore.run, all, free, one]
    split
    · simp [*]
    · simp [*]
  · rw [same]
    cases c with
    | claim =>
        simp only [Chore.run] at same
        split at same
        · simp [incurred, *]
        · exact absurd same.symm ‹_›
    | _ => exact Nat.zero_add _

end Dues

/-- **How everyone behaves** in a run that has shown `shown`. -/
structure System.Conduct (roles : List Role) (shown : List (Event ρ)) (s : System ρ) : Prop where
  fits : s.Fits roles
  posted : s.machine.Posted roles
  worker : WorkerStands roles s.machine.worker.chores
  threads : ∀ th ∈ s.threads, th.Stands
  unclaimed : s.machine.isShutdown = false →
    ∀ th ∈ s.threads, th.call = .shutdown → th.chores = [.claim]
  halting : Dues.halting.system s + (if s.machine.continueWork then 0 else 1) =
    if s.machine.isShutdown then 1 else 0
  shutting : Dues.shutting.system s + exporterShutdowns shown =
    if s.machine.isShutdown then 1 else 0
  concluding : Dues.concluding.system s ≤ if s.machine.isShutdown then 1 else 0
  answers : s.machine.answers.length ≤ exporterShutdowns shown

namespace System

variable {s t : System ρ} {roles : List Role} {shown events : List (Event ρ)}

lemma conduct_start (config : Config) : (start config : System ρ).Conduct [] [] where
  fits := fits_start config
  posted := by
    rintro t r ⟨cell, found, -⟩
    cases found
  worker := .idle
  threads := List.forall_mem_nil _
  unclaimed _ := List.forall_mem_nil _
  halting := rfl
  shutting := rfl
  concluding := Nat.le_refl _
  answers := Nat.le_refl _

lemma Conduct.once (h : s.Conduct roles shown) : exporterShutdowns shown ≤ 1 := by
  have sum := h.shutting
  split at sum
  · omega
  · omega

/-- What a call is about to do, it does where that belongs. -/
lemma Conduct.placed (h : s.Conduct roles shown) {th : Thread ρ} (known : th ∈ s.threads)
    {c : Chore ρ} {rest : List (Chore ρ)} (first : th.chores = c :: rest) :
    c.Placed th.call th.result rest := by
  have stands := h.threads th known
  rw [Thread.Stands, first] at stands
  exact stands.placed

/-- What the worker is about to do besides its cycle. -/
lemma Conduct.worker_next (h : s.Conduct roles shown) {c : Chore ρ} {rest : List (Chore ρ)}
    (first : s.machine.worker.chores = c :: rest) :
    (∃ u success, roles[u]? = some .flush ∧ c = .resolve u success ∧ rest = []) ∨
      ∃ flushed done, roles[done]? = some .shutdown ∧ c.Ends flushed done rest := by
  have stands := h.worker
  rw [first] at stands
  cases stands with
  | resolve success role => exact .inl ⟨_, success, role, rfl, rfl⟩
  | farewell role h => exact .inr ⟨_, _, role, h.ends⟩

/-- The exporter's shutdown is the last thing on its stack. -/
lemma Ran.eq_nil_of_panicked {o : Surroundings} {c : Chore ρ} {rest : List (Chore ρ)}
    (ran : s.Ran t events o c rest) (h : s.Conduct roles shown)
    (panicked : (c.run o s.machine).panicked = true) : rest = [] := by
  obtain ⟨flushed, done, rfl, -⟩ := Chore.shutExporter_of_panicked panicked
  rcases ran.next with first | ⟨th, known, first⟩
  · rcases h.worker_next first with ⟨_, _, _, ⟨⟩, _⟩ | ⟨_, _, -, -, -, last⟩
    exact last
  · exact (h.placed known first).2.2

/-- What is about to be run is owed. -/
lemma Ran.le_system {o : Surroundings} {c : Chore ρ} {rest : List (Chore ρ)} {w : Dues}
    (ran : s.Ran t events o c rest) : w.chore c ≤ w.system s :=
  w.le_system ran.holds

/-- What a step does to dues that a panic of the exporter does not drop. -/
lemma Conduct.balance (h : s.Conduct roles shown) (stride : s.Stride t events) {w : Dues}
    (free : ∀ t, w.done t = 0) :
    (s.machine.Steady t.machine ∧ exporterShutdowns events = 0 ∧ w.system t = w.system s) ∨
      ∃ o c rest, s.Ran t events o c rest ∧
        w.system t + w.paid o c = w.system s + w.incurred s.machine c := by
  cases w.ledger h.fits (fun t _ => free t) stride with
  | idle steady shown balance => exact .inl ⟨steady, exporterShutdowns_eq_zero shown, balance⟩
  | @run o c rest ran balance =>
      have dropped : (if (c.run o s.machine).panicked then weigh w.chore rest else 0) = 0 := by
        split
        · rw [ran.eq_nil_of_panicked h ‹_›]
          rfl
        · rfl
      refine .inr ⟨o, c, rest, ran, ?_⟩
      omega

/-- The worker is told to stop once. -/
lemma Conduct.halting_stride (h : s.Conduct roles shown) (stride : s.Stride t events) :
    Dues.halting.system t + (if t.machine.continueWork then 0 else 1) =
      if t.machine.isShutdown then 1 else 0 := by
  have sum := h.halting
  rcases h.balance (w := .halting) stride fun _ => rfl with
    ⟨steady, -, same⟩ | ⟨o, c, rest, ran, balance⟩
  · rwa [steady.continueWork, steady.isShutdown, same]
  · have incurred := Dues.incurred_add (w := .halting) rfl (fun _ => rfl) o s.machine c
    rw [ran.machine]
    rcases Dues.paid_halting o c with rfl | free
    · have one : Dues.halting.paid o (.halt : Chore ρ) = 1 := rfl
      have stopped : ((.halt : Chore ρ).run o s.machine).machine.continueWork = false := rfl
      have due := ran.le_system (w := .halting)
      have weight : Dues.halting.chore (.halt : Chore ρ) = 1 := rfl
      simp only [stopped, Bool.false_eq_true, if_false]
      split at sum
      · omega
      · split at sum
        · omega
        · omega
    · rcases (Chore.shares_run o s.machine c).continueWork with rfl | same
      · cases free
      · simp only [same]
        omega

/-- The exporter is shut down once. -/
lemma Conduct.shutting_stride (h : s.Conduct roles shown) (stride : s.Stride t events) :
    Dues.shutting.system t + exporterShutdowns (shown ++ events) =
      if t.machine.isShutdown then 1 else 0 := by
  have sum := h.shutting
  rw [exporterShutdowns_append]
  rcases h.balance (w := .shutting) stride fun _ => rfl with
    ⟨steady, none, same⟩ | ⟨o, c, rest, ran, balance⟩
  · rw [steady.isShutdown, none]
    omega
  · have incurred := Dues.incurred_add (w := .shutting) rfl (fun _ => rfl) o s.machine c
    have paid := Dues.paid_shutting o s.machine c
    rw [ran.machine, ran.shown]
    simp only
    omega

/-- There is one conclusion. -/
lemma Conduct.concluding_stride (h : s.Conduct roles shown) (stride : s.Stride t events) :
    Dues.concluding.system t ≤ if t.machine.isShutdown then 1 else 0 := by
  have bound := h.concluding
  rcases h.balance (w := .concluding) stride fun _ => rfl with
    ⟨steady, -, same⟩ | ⟨o, c, rest, ran, balance⟩
  · rwa [steady.isShutdown, same]
  · have incurred := Dues.incurred_add (w := .concluding) rfl (fun _ => rfl) o s.machine c
    rw [ran.machine]
    simp only
    omega

/-- The exporter has answered at most once. -/
lemma Conduct.answers_stride (h : s.Conduct roles shown) (stride : s.Stride t events) :
    t.machine.answers.length ≤ exporterShutdowns (shown ++ events) := by
  have bound := h.answers
  rw [exporterShutdowns_append]
  cases stride.moves with
  | idle steady =>
      rw [steady.answers]
      omega
  | @run o c rest ran =>
      rw [ran.machine, ran.shown]
      simp only
      rcases (Chore.shares_run o s.machine c).answers with ⟨flushed, done, rfl⟩ | same
      · rw [Chore.run]
        split
        · simp only
          omega
        · simp only [List.length_append, List.length_singleton, exporterShutdowns,
            List.countP_singleton, if_true]
          simp only [exporterShutdowns] at bound
          omega
      · rw [same]
        omega

/-! ## Steps and runs -/

/-- At most one shutdown waits for a flush. -/
lemma Conduct.resolve_flush (h : s.Conduct roles shown) {u : Token}
    (role : roles[u]? = some .flush) (success : Bool) :
    (s.machine.store.resolve u success).2 = [] ∨
      ∃ done, (s.machine.store.resolve u success).2 = [.stop u done] := by
  have kinds := h.posted.resolve_flush role success
  have moved := Store.weight_resolve Dues.shutting.reaction s.machine.store u success
  have sum := h.shutting
  have below : s.machine.store.weight Dues.shutting.reaction ≤ 1 := by
    simp only [Dues.system, Dues.machine] at sum
    split at sum
    · omega
    · omega
  cases reactions : (s.machine.store.resolve u success).2 with
  | nil => exact .inl rfl
  | cons first more =>
      rw [reactions] at kinds moved
      obtain ⟨⟨done, rfl⟩, later⟩ := List.forall_mem_cons.mp kinds
      cases more with
      | nil => exact .inr ⟨done, rfl⟩
      | cons second more =>
          obtain ⟨other, rfl⟩ := later second List.mem_cons_self
          have one : ∀ d, Dues.shutting.reaction (.stop u d) = 1 := fun _ => rfl
          simp only [Completion.weigh_cons, one] at moved
          omega

/-- The worker goes on with its chores. -/
lemma Conduct.worker_run (h : s.Conduct roles shown) {o : Surroundings} {c : Chore ρ}
    {rest : List (Chore ρ)} (first : s.machine.worker.chores = c :: rest)
    (calm : (c.run o s.machine).panicked = false) :
    WorkerStands roles ((c.run o s.machine).chores ++ rest) := by
  have stands := h.worker
  rw [first] at stands
  cases stands with
  | @resolve u success role =>
      show WorkerStands roles ((s.machine.store.resolve u success).2.map _ ++ [])
      rcases h.resolve_flush role success with none | ⟨done, one⟩
      · rw [none]
        exact .idle
      · have waiting : s.machine.store.Waits (.stop u done) := by
          have mem : .stop u done ∈ (s.machine.store.resolve u success).2 := by
            rw [one]
            exact List.mem_singleton.mpr rfl
          exact Store.waits_of_mem_resolve mem
        rw [one]
        exact .farewell (h.fits.machine.waiting _ waiting).2 (.stop success)
  | farewell role farewell =>
      exact .farewell role (farewell.run h.posted h.fits.machine role calm)

lemma stands_start (call : Call ρ) : (Thread.start call).Stands := by
  cases call with
  | emit r => exact .enter r
  | flush => exact .request
  | shutdown => exact .claim
  | settle answer success => exact .settle answer success (List.forall_mem_singleton.mpr trivial)

/-- A call goes on. -/
lemma Conduct.thread_run (h : s.Conduct roles shown) {o : Surroundings} {th : Thread ρ} {c : Chore ρ}
    {rest : List (Chore ρ)} (known : th ∈ s.threads) (first : th.chores = c :: rest) :
    (th.after (c.run o s.machine) rest).Stands := by
  have stands := h.threads th known
  have fits := h.fits.threads th known
  have hc := fits.chores c (by rw [first]; exact List.mem_cons_self ..)
  rw [Thread.Stands, first] at stands
  rw [Thread.after]
  split
  · rename_i panicked
    obtain ⟨flushed, done, rfl, -⟩ := Chore.shutExporter_of_panicked panicked
    have shutdown := (h.placed known first).1
    show Standing th.call none []
    rw [shutdown]
    exact .panicked
  · rename_i calm
    refine stands.run h.posted h.fits.machine hc ?_ (Bool.eq_false_iff.mpr calm)
    intro call done result
    obtain ⟨role, owner, given⟩ := fits.result done result
    rw [call] at owner
    cases owner
    exact given

lemma Conduct.posted_stride (h : s.Conduct roles shown) (stride : s.Stride t events) :
    t.machine.Posted roles := by
  cases stride with
  | turn idle turn =>
      intro u r waits
      rw [turn.steady.store] at waits
      exact h.posted u r waits
  | chore first calm => exact h.posted.run (h.fits.worker first)
  | panic first panicked => exact h.posted.run (h.fits.worker first)
  | begin => exact h.posted
  | advance found first => exact h.posted.run fun _ => h.fits.next found first

lemma Conduct.worker_stride (h : s.Conduct roles shown) (stride : s.Stride t events) :
    WorkerStands roles t.machine.worker.chores := by
  cases stride with
  | turn idle turn =>
      rcases turn.chores idle with none | ⟨u, success, one, token⟩
      · rw [none]
        exact .idle
      · rw [one]
        exact .resolve success (h.fits.machine.phase u token)
  | chore first calm => exact h.worker_run first calm
  | panic => exact .idle
  | begin => exact h.worker
  | advance =>
      rw [(Chore.touches_run ..).chores]
      exact h.worker

lemma Conduct.threads_stride (h : s.Conduct roles shown) (stride : s.Stride t events) :
    ∀ th ∈ t.threads, th.Stands := by
  intro th known
  obtain ⟨j, found⟩ := List.mem_iff_getElem?.mp known
  rcases stride.thread_before found with same | ⟨call, rfl⟩ |
    ⟨o, before, c, rest, earlier, first, rfl, -⟩
  · exact h.threads th (List.mem_of_getElem? same)
  · exact stands_start call
  · exact h.thread_run (List.mem_of_getElem? earlier) first

/-- Nobody is past its claim while the processor is in service. -/
lemma Conduct.unclaimed_stride (h : s.Conduct roles shown) (stride : s.Stride t events)
    (up : t.machine.isShutdown = false) :
    ∀ th ∈ t.threads, th.call = .shutdown → th.chores = [.claim] := by
  have before : s.machine.isShutdown = false := by
    cases stride.moves with
    | idle steady => exact steady.isShutdown.symm.trans up
    | run ran =>
        rw [ran.machine] at up
        exact (Chore.isShutdown_of_run up).2
  intro th known shutdown
  obtain ⟨j, found⟩ := List.mem_iff_getElem?.mp known
  rcases stride.thread_before found with same | ⟨call, rfl⟩ |
    ⟨o, old, c, rest, earlier, first, rfl, machine⟩
  · exact h.unclaimed before th (List.mem_of_getElem? same) shutdown
  · have call : call = .shutdown := shutdown
    subst call
    rfl
  · have claims := h.unclaimed before old (List.mem_of_getElem? earlier)
      ((old.after_call ..).symm.trans shutdown)
    cases first.symm.trans claims
    rw [machine] at up
    exact absurd rfl (Chore.isShutdown_of_run up).1

/-- **A step keeps to all of it.** -/
theorem Conduct.stride (h : s.Conduct roles shown) (stride : s.Stride t events) :
    ∃ more, t.Conduct (roles ++ more) (shown ++ events) := by
  obtain ⟨more, fits⟩ := h.fits.stride stride
  refine ⟨more, fits, ?_, (h.worker_stride stride).mono more, h.threads_stride stride,
    h.unclaimed_stride stride, h.halting_stride stride, h.shutting_stride stride,
    h.concluding_stride stride, h.answers_stride stride⟩
  intro u r waits
  exact (h.posted_stride stride u r waits).mono more

/-- **In every reachable state everyone behaves.** -/
theorem Reaches.conduct {config : Config} (h : Reaches (start config) shown s) :
    ∃ roles, s.Conduct roles shown := by
  induction h with
  | refl => exact ⟨[], conduct_start config⟩
  | step before next ih =>
      obtain ⟨roles, conduct⟩ := ih
      obtain ⟨more, after⟩ := conduct.stride (stride_of_step next)
      exact ⟨roles ++ more, after⟩

end System

end ProfilePipeline.Batch
