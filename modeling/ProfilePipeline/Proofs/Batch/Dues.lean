import Mathlib.Tactic.Common
import ProfilePipeline.Proofs.Batch.Tokens

/-!
# What a shutdown still has to do

A shutdown that has begun owes four things: it tells the worker to stop, it shuts the exporter down,
it draws a conclusion from both outcomes and it resolves its completion.  What it owes is handed
around.  The call has it while it asks for a flush and waits for it; then it waits in the store, and
whoever resolves the flush takes it over; and once more for the completion that the exporter
returned.

**Dues.**  `Dues` puts a weight on each of the four, so `Dues.system` counts what is owed anywhere.

**The balance.**  `Dues.run_balance` says of one chore what comes in (`Dues.incurred`) and what is
paid (`Dues.paid`).  Nothing else changes the sum, but for a panic that drops what was left.
-/

namespace ProfilePipeline.Batch

open Completion (Token Store weigh)

variable {ρ : Type}

/-! ## Chores that owe nothing -/

/-- A chore of an emission or of a flush that a caller asks for, or one that wakes the worker. -/
def Chore.IsLight : Chore ρ → Prop
  | enter _ | offer _ | report | readLength | compare _ | raise | notify | request none => True
  | _ => False

lemma Chore.isLight_of_wakes (p : Prop) [Decidable p] :
    ∀ c ∈ (if p then [.raise, .notify] else [] : List (Chore ρ)), c.IsLight := by
  split
  · exact List.forall_mem_cons.mpr ⟨trivial, List.forall_mem_singleton.mpr trivial⟩
  · exact List.forall_mem_nil _

/-- Only such chores come after it. -/
lemma Chore.IsLight.run {c : Chore ρ} (light : c.IsLight) (o : Surroundings) (m : Machine ρ) :
    ∀ next ∈ (c.run o m).chores, next.IsLight := by
  cases c with
  | enter r =>
      rw [Chore.run]
      split
      · exact List.forall_mem_nil _
      · exact List.forall_mem_singleton.mpr trivial
  | offer r =>
      rw [Chore.run]
      split
      · exact List.forall_mem_singleton.mpr trivial
      · exact List.forall_mem_singleton.mpr trivial
  | readLength => exact List.forall_mem_singleton.mpr trivial
  | compare length =>
      rw [Chore.run]
      cases m.needed with
      | none => exact List.forall_mem_nil _
      | some needed => exact isLight_of_wakes (needed ≤ length)
  | request done =>
      cases done with
      | none => exact isLight_of_wakes _
      | some => exact light.elim
  | report | raise | notify => exact List.forall_mem_nil _
  | _ => exact light.elim

/-! ## What is owed -/

/-- How much each part of what a shutdown owes counts. -/
structure Dues where
  halt : Nat := 0
  shut : Nat := 0
  conclude : Nat := 0
  done : Token → Nat := fun _ => 0

namespace Dues

variable (w : Dues)

/-- What a shutdown owes at its beginning. -/
def all (done : Token) : Nat := w.halt + w.shut + w.conclude + w.done done

def reaction : Reaction → Nat
  | .stop _ done => w.all done
  | .conclude _ done => w.conclude + w.done done

def chore : Chore ρ → Nat
  | .resolve t _ => w.done t
  | .call r _ => w.reaction r
  | .halt => w.halt
  | .shutExporter _ done => w.shut + w.conclude + w.done done
  | .attach _ _ done => w.conclude + w.done done
  | .request (some done) => w.all done
  | .watch _ done => w.all done
  | _ => 0

def thread (th : Thread ρ) : Nat := weigh w.chore th.chores

/-- What the machine owes: its worker, and whoever resolves what something waits for. -/
def machine (m : Machine ρ) : Nat := weigh w.chore m.worker.chores + m.store.weight w.reaction

/-- What is owed anywhere. -/
def system (s : System ρ) : Nat := w.machine s.machine + weigh w.thread s.threads

/-- What a chore takes on. -/
def incurred (m : Machine ρ) : Chore ρ → Nat
  | .claim => if m.isShutdown then 0 else w.all m.store.size
  | _ => 0

/-- What a chore pays.  A panic drops what would have come after the exporter's shutdown. -/
def paid (o : Surroundings) : Chore ρ → Nat
  | .call (.conclude _ _) _ => w.conclude
  | .halt => w.halt
  | .shutExporter _ done =>
    if o.shutdown = .panicked then w.shut + w.conclude + w.done done else w.shut
  | .resolve t _ => w.done t
  | _ => 0

/-! ## One chore -/

/-- What waits for a completion, or is called at once. -/
lemma await_balance {m : Machine ρ} {t : Token} (r : Reaction) (known : t < m.store.size) :
    weigh w.chore (m.await t r).chores + (m.await t r).machine.store.weight w.reaction =
      w.reaction r + m.store.weight w.reaction := by
  have moved := Store.weight_register_eq w.reaction r known
  rw [Machine.await]
  split
  · rename_i store hstore
    simp only [hstore, if_true] at moved
    simp only [Completion.weigh_nil]
    omega
  · rename_i store success hstore
    simp only [hstore, reduceCtorEq, if_false] at moved
    simp only [Completion.weigh_cons, Completion.weigh_nil, chore]
    omega

lemma weight_requestFlush (m : Machine ρ) :
    m.requestFlush.1.store.weight w.reaction = m.store.weight w.reaction := by
  have reply := m.replies_requestFlush
  generalize m.requestFlush = q at reply
  cases reply with
  | late => exact Store.weight_settled ..
  | join => rfl
  | new => exact Store.weight_fresh ..

lemma chore_light {c : Chore ρ} (light : c.IsLight) : w.chore c = 0 := by
  cases c with
  | resolve | call | halt | shutExporter | attach | watch => exact light.elim
  | request done =>
      cases done with
      | none => rfl
      | some => exact light.elim
  | _ => rfl

lemma weigh_light {chores : List (Chore ρ)} (light : ∀ c ∈ chores, c.IsLight) :
    weigh w.chore chores = 0 :=
  Completion.weigh_eq_zero_iff.mpr fun c mem => w.chore_light (light c mem)

lemma run_balance_light (o : Surroundings) (m : Machine ρ) {c : Chore ρ} (light : c.IsLight) :
    weigh w.chore (c.run o m).chores + (c.run o m).machine.store.weight w.reaction + w.paid o c =
      w.chore c + m.store.weight w.reaction + w.incurred m c := by
  have costs : (c.run o m).machine.store.weight w.reaction = m.store.weight w.reaction ∧
      w.paid o c = 0 ∧ w.incurred m c = 0 := by
    cases c with
    | resolve | call | halt | shutExporter | attach | claim | watch => exact light.elim
    | request done =>
        cases done with
        | none => exact ⟨w.weight_requestFlush m, rfl, rfl⟩
        | some => exact light.elim
    | notify | offer =>
        rw [Chore.run]
        split
        · exact ⟨rfl, rfl, rfl⟩
        · exact ⟨rfl, rfl, rfl⟩
    | _ => exact ⟨rfl, rfl, rfl⟩
  rw [w.weigh_light (light.run o m), w.chore_light light, costs.1, costs.2.1, costs.2.2]

/-- **What a chore owes is owed afterwards**, by what it puts on its stack or by the store, or is
paid. -/
theorem run_balance {roles : List Role} {owner : Option Role} {m : Machine ρ} (fits : m.Fits roles)
    (o : Surroundings) {c : Chore ρ} (hc : (∀ t success, c ≠ .resolve t success) → c.Fits roles owner) :
    weigh w.chore (c.run o m).chores + (c.run o m).machine.store.weight w.reaction + w.paid o c =
      w.chore c + m.store.weight w.reaction + w.incurred m c := by
  cases c with
  | resolve t success =>
      have moved := Store.weight_resolve w.reaction m.store t success
      have called : w.chore ∘ (fun r => (.call r success : Chore ρ)) = w.reaction := rfl
      simp only [Chore.run, Completion.weigh_map, called, chore, paid, incurred]
      omega
  | call r success =>
      cases r with
      | stop flushed done =>
          simp only [Chore.run, Completion.weigh_cons, Completion.weigh_nil, chore, reaction, all, paid,
            incurred]
          omega
      | conclude flushed done =>
          simp only [Chore.run, Completion.weigh_cons, Completion.weigh_nil, chore, reaction, paid,
            incurred]
          omega
  | halt =>
      simp only [Chore.run, Completion.weigh_nil, chore, paid, incurred]
      omega
  | shutExporter flushed done =>
      cases answer : o.shutdown with
      | panicked =>
          simp only [Chore.run, answer, Completion.weigh_nil, chore, paid, incurred, if_pos]
          omega
      | returned outcome =>
          cases outcome with
          | none =>
              have same := Store.weight_fresh w.reaction m.store
              simp only [Chore.run, answer, Completion.weigh_cons, Completion.weigh_nil, chore, paid,
                incurred, reduceCtorEq, if_false]
              omega
          | some success =>
              have same := Store.weight_settled w.reaction m.store success
              simp only [Chore.run, answer, Completion.weigh_cons, Completion.weigh_nil, chore, paid,
                incurred, reduceCtorEq, if_false]
              omega
  | attach answer flushed done =>
      have known := fits.lt_of_role (hc (by rintro _ _ ⟨⟩)).1
      exact w.await_balance (.conclude flushed done) known
  | claim =>
      cases down : m.isShutdown with
      | true =>
          have same := Store.weight_settled w.reaction m.store true
          simp only [Chore.run, down, if_true, Completion.weigh_nil, chore, paid, incurred]
          omega
      | false =>
          have same := Store.weight_fresh w.reaction m.store
          simp only [Chore.run, down, Bool.false_eq_true, if_false, Completion.weigh_cons,
            Completion.weigh_nil, chore, paid, incurred]
          have token : m.store.fresh.2 = m.store.size := rfl
          rw [token]
          omega
  | request done =>
      cases done with
      | none => exact w.run_balance_light o m trivial
      | some done =>
          have same := w.weight_requestFlush m
          simp only [Chore.run, Completion.weigh_append, w.weigh_light (Chore.isLight_of_wakes _),
            Completion.weigh_cons, Completion.weigh_nil, chore, paid, incurred]
          omega
  | watch flushed done =>
      have known := fits.lt_of_role (hc (by rintro _ _ ⟨⟩)).1
      exact w.await_balance (.stop flushed done) known
  | _ => exact w.run_balance_light o m trivial

end Dues

/-! ## One step -/

/-- What only chores change. -/
structure Machine.Steady (m m' : Machine ρ) : Prop where
  store : m'.store = m.store
  isShutdown : m'.isShutdown = m.isShutdown
  continueWork : m'.continueWork = m.continueWork
  answers : m'.answers = m.answers

namespace Machine.Turn

variable {o : Surroundings} {m m' : Machine ρ} {events : List (Event ρ)}

lemma steady (turn : Turn o m m' events) : Steady m m' := by
  have resume : ∀ (m : Machine ρ) success p, Steady m (m.resume success p) := by
    rintro m success (_ | _ | _)
    · exact ⟨rfl, rfl, rfl, rfl⟩
    · exact ⟨rfl, rfl, rfl, rfl⟩
    · exact ⟨rfl, rfl, rfl, rfl⟩
  cases turn with
  | pass => exact resume ..
  | @gauge p success phase =>
      have cleared := resume { m with worker := { m.worker with batch := [] } } success p
      exact ⟨cleared.store, cleared.isShutdown, cleared.continueWork, cleared.answers⟩
  | _ => exact ⟨rfl, rfl, rfl, rfl⟩

/-- The only chore that the cycle begins is to resolve the flush that the worker is busy with. -/
lemma chores (turn : Turn o m m' events) (idle : m.worker.chores = []) :
    m'.worker.chores = [] ∨
      ∃ t success, m'.worker.chores = [.resolve t success] ∧ m.worker.phase.token? = some t := by
  have resume : ∀ {m' : Machine ρ} {success : Bool} {p : Purpose}, m'.worker.chores = [] →
      p.token? = m.worker.phase.token? → (m'.resume success p).worker.chores = [] ∨
        ∃ t success', (m'.resume success p).worker.chores = [.resolve t success'] ∧
          m.worker.phase.token? = some t := by
    intro m' success p idle token
    cases p with
    | rest t before => exact .inr ⟨t, before && success, rfl, token.symm⟩
    | _ => exact .inl idle
  cases turn with
  | pass phase => exact resume idle (by rw [phase]; rfl)
  | gauge phase => exact resume idle (by rw [phase]; rfl)
  | answer phase => exact .inr ⟨_, _, rfl, by rw [phase]; rfl⟩
  | _ => exact .inl idle

lemma not_exporterShutdown (turn : Turn o m m' events) : .exporterShutdown ∉ events := by
  cases turn <;> simp

end Machine.Turn

/-- A step that runs the chore `c`, of the worker or of a call, with `rest` to do after it. -/
structure System.Ran (s t : System ρ) (events : List (Event ρ)) (o : Surroundings) (c : Chore ρ)
    (rest : List (Chore ρ)) : Prop where
  next : s.machine.worker.chores = c :: rest ∨ ∃ th ∈ s.threads, th.chores = c :: rest
  shown : events = (c.run o s.machine).events
  machine : t.machine = { (c.run o s.machine).machine with worker := t.machine.worker }
  panics : (c.run o s.machine).panicked = true → t.machine.worker.phase = .dead ∨
    ∃ (i : Nat) (th : Thread ρ), s.threads[i]? = some th ∧ th.chores = c :: rest ∧
      t.threads[i]? = some (th.after (c.run o s.machine) rest)

/-- A chore that the worker or a call has to do. -/
def System.Holds (s : System ρ) (c : Chore ρ) : Prop :=
  c ∈ s.machine.worker.chores ∨ ∃ th ∈ s.threads, c ∈ th.chores

section Ran

variable {s : System ρ} {o : Surroundings} {c : Chore ρ} {rest : List (Chore ρ)}

lemma System.ran_worker (first : s.machine.worker.chores = c :: rest) (worker : Worker ρ)
    (panics : (c.run o s.machine).panicked = true → worker.phase = .dead) :
    s.Ran { s with machine := { (c.run o s.machine).machine with worker } }
      (c.run o s.machine).events o c rest :=
  ⟨.inl first, rfl, rfl, fun panicked => .inl (panics panicked)⟩

lemma System.ran_call {i : Nat} {th : Thread ρ} (found : s.threads[i]? = some th)
    (first : th.chores = c :: rest) :
    s.Ran ⟨(c.run o s.machine).machine, s.threads.set i (th.after (c.run o s.machine) rest)⟩
      (c.run o s.machine).events o c rest := by
  obtain ⟨lt, -⟩ := List.getElem?_eq_some_iff.mp found
  refine ⟨.inr ⟨th, List.mem_of_getElem? found, first⟩, rfl, rfl, fun _ => .inr ?_⟩
  exact ⟨i, th, found, first, List.getElem?_set_self lt⟩

lemma System.Ran.holds {t : System ρ} {events : List (Event ρ)} (ran : s.Ran t events o c rest) :
    s.Holds c := by
  rcases ran.next with first | ⟨th, known, first⟩
  · exact .inl (by rw [first]; exact List.mem_cons_self ..)
  · exact .inr ⟨th, known, by rw [first]; exact List.mem_cons_self ..⟩

end Ran

/-- What a step does besides the cycle of the worker: nothing, or what one chore does. -/
inductive System.Moves (s t : System ρ) (events : List (Event ρ)) : Prop where
  | idle (steady : s.machine.Steady t.machine) (shown : .exporterShutdown ∉ events)
  | run {o : Surroundings} {c : Chore ρ} {rest : List (Chore ρ)} (ran : s.Ran t events o c rest)

theorem System.Stride.moves {s t : System ρ} {events : List (Event ρ)}
    (stride : s.Stride t events) : s.Moves t events := by
  cases stride with
  | turn idle turn => exact .idle turn.steady turn.not_exporterShutdown
  | chore first calm =>
      exact .run (System.ran_worker first _ fun panicked => by cases calm.symm.trans panicked)
  | panic first => exact .run (System.ran_worker first _ fun _ => rfl)
  | begin => exact .idle ⟨rfl, rfl, rfl, rfl⟩ List.not_mem_nil
  | advance found first => exact .run (System.ran_call found first)

namespace Dues

variable {s t : System ρ} {roles : List Role} {events : List (Event ρ)} (w : Dues)

/-- Whatever somebody has to do is owed. -/
lemma le_system {c : Chore ρ} (holds : s.Holds c) : w.chore c ≤ w.system s := by
  rw [system, machine]
  rcases holds with mem | ⟨th, known, mem⟩
  · have le := Completion.le_weigh_of_mem (w := w.chore) mem
    omega
  · have le := Completion.le_weigh_of_mem (w := w.chore) mem
    have le' := Completion.le_weigh_of_mem (w := w.thread) known
    rw [thread] at le'
    omega

/-- What is owed somebody has to do, or it waits. -/
lemma exists_of_pos (pos : 0 < w.system s) :
    (∃ c, s.Holds c ∧ 0 < w.chore c) ∨
      ∃ t r, s.machine.store.WaitsAt t r ∧ 0 < w.reaction r := by
  rw [system, machine] at pos
  by_cases worker : 0 < weigh w.chore s.machine.worker.chores
  · obtain ⟨c, mem, owed⟩ := Completion.exists_pos_of_weigh_pos worker
    exact .inl ⟨c, .inl mem, owed⟩
  · by_cases waiting : 0 < s.machine.store.weight w.reaction
    · exact .inr (Store.exists_waitsAt_of_weight_pos waiting)
    · obtain ⟨th, known, owed⟩ : ∃ th ∈ s.threads, 0 < w.thread th :=
        Completion.exists_pos_of_weigh_pos (by omega)
      obtain ⟨c, mem, owed⟩ := Completion.exists_pos_of_weigh_pos owed
      exact .inl ⟨c, .inr ⟨th, known, mem⟩, owed⟩

/-- What a call owes after a chore, unless a panic has dropped it. -/
lemma thread_after (o : Surroundings) (m : Machine ρ) (c : Chore ρ) (th : Thread ρ)
    (rest : List (Chore ρ)) :
    w.thread (th.after (c.run o m) rest) + (if (c.run o m).panicked then weigh w.chore rest else 0) =
      weigh w.chore (c.run o m).chores + weigh w.chore rest := by
  cases panicked : (c.run o m).panicked with
  | true =>
      rw [thread, Thread.after, if_pos panicked, if_pos rfl, Chore.chores_of_panicked panicked]
  | false =>
      rw [thread, Thread.after, panicked, if_neg Bool.false_ne_true, if_neg Bool.false_ne_true,
        Completion.weigh_append, Nat.add_zero]

/-- What a step does to what is owed: nothing, or what the chore does that it runs. -/
inductive Ledger (s t : System ρ) (events : List (Event ρ)) : Prop where
  | idle (steady : s.machine.Steady t.machine) (shown : .exporterShutdown ∉ events)
      (balance : w.system t = w.system s)
  | run {o : Surroundings} {c : Chore ρ} {rest : List (Chore ρ)} (ran : s.Ran t events o c rest)
      (balance : w.system t + w.paid o c +
          (if (c.run o s.machine).panicked then weigh w.chore rest else 0) =
        w.system s + w.incurred s.machine c)

/-- **The books balance at every step**, for dues that concern completions of shutdowns only. -/
theorem ledger (fits : s.Fits roles)
    (shutdowns : ∀ t, roles[t]? ≠ some .shutdown → w.done t = 0) (stride : s.Stride t events) :
    w.Ledger s t events := by
  cases stride with
  | turn idle turn =>
      refine .idle turn.steady turn.not_exporterShutdown ?_
      have chores := turn.chores idle
      have steady := turn.steady
      simp only [system, machine, steady.store, idle]
      rcases chores with chores | ⟨u, success, chores, token⟩
      · rw [chores]
      · have role := fits.machine.phase u token
        have free : w.done u = 0 := shutdowns u (by rw [role]; rintro ⟨⟩)
        simp only [chores, Completion.weigh_cons, Completion.weigh_nil, chore, free]
  | @chore o c rest first calm =>
      have balance := w.run_balance fits.machine o (fits.worker first)
      refine .run (System.ran_worker first _ fun panicked => by cases calm.symm.trans panicked) ?_
      simp only [calm, Bool.false_eq_true, if_false, system, machine, first,
        Completion.weigh_append, Completion.weigh_cons]
      omega
  | @panic o c rest first panicked =>
      have balance := w.run_balance fits.machine o (fits.worker first)
      have nothing : weigh w.chore (c.run o s.machine).chores = 0 := by
        rw [Chore.chores_of_panicked panicked]
        rfl
      refine .run (System.ran_worker first _ fun _ => rfl) ?_
      simp only [panicked, if_true, system, machine, first, Completion.weigh_cons,
        Completion.weigh_nil]
      omega
  | @begin call known =>
      refine .idle ⟨rfl, rfl, rfl, rfl⟩ (List.not_mem_nil) ?_
      have free : w.thread (Thread.start call : Thread ρ) = 0 := by
        cases call with
        | settle answer success =>
            have role := fits.machine.answers answer (known answer success rfl)
            have free : w.done answer = 0 := shutdowns answer (by rw [role]; rintro ⟨⟩)
            simp only [thread, Thread.start, Call.chores, Completion.weigh_cons,
              Completion.weigh_nil, chore, free]
        | _ => rfl
      simp only [system, Completion.weigh_append, Completion.weigh_cons, Completion.weigh_nil, free]
      omega
  | @advance o i th c rest found first =>
      obtain ⟨lt, here⟩ := List.getElem?_eq_some_iff.mp found
      have balance := w.run_balance fits.machine o fun _ => fits.next found first
      have moved := Store.weigh_set w.thread s.threads i (th.after (c.run o s.machine) rest) lt
      have chores := (Chore.touches_run o s.machine c).chores
      have before : w.thread th = w.chore c + weigh w.chore rest := by
        rw [thread, first, Completion.weigh_cons]
      have after := w.thread_after o s.machine c th rest
      rw [here] at moved
      refine .run (System.ran_call found first) ?_
      simp only [system, machine, chores]
      omega

end Dues

end ProfilePipeline.Batch
