import Mathlib.Logic.Relation
import ProfilePipeline.Proofs.Export.Calls
import ProfilePipeline.Proofs.Processing.Tally

/-!
# What a pipeline goes through

Whatever is done with a pipeline, it goes through small steps (`Advance`): something is only added
(`State.Grows`), a completion is resolved or a callback begun by somebody who may (`Task.claim?`), a
task of the stack is done, or a task panics and takes the rest of the stack with it.

* `State.Orderly` — those who are going to resolve a completion by themselves never hold the result
  of an aggregate.
* `State.Untouched` — nobody waits for a completion yet, nor is anybody about to.
* `State.Leads` — a pipeline gets from one state to another, with nothing left to be done.
-/

namespace ProfilePipeline.Processing

open Completion (Token Waiter Aggregate Ledger Store)

/-- The completion that a callback resolves sooner or later. -/
def Reaction.done? : Reaction → Option Token
  | forget _ _ => none
  | shutExporter _ _ done => some done
  | conclude _ done => some done

/-- The completion that a task resolves sooner or later by itself. -/
def Task.claim? : Task → Option Token
  | resolve t _ => some t
  | call (.member _) _ => none
  | call (.own k) _ => k.done?

/-- What is to be done at once if a callback was not kept. -/
def Task.calls (w : Waiter Reaction) (outcome : Option Bool) : List Task :=
  (outcome.map (Task.call w)).toList

lemma Task.mem_calls {w : Waiter Reaction} {outcome : Option Bool} {task : Task} :
    task ∈ Task.calls w outcome ↔ ∃ success, outcome = some success ∧ task = .call w success := by
  cases outcome with
  | none => simp [calls]
  | some success => simp [calls]

/-- Whoever claims a completion that is no aggregate's result is not about that aggregate. -/
lemma Task.concerns_of_claim? {task : Task} {g : Nat} {r t : Token} (claim : task.claim? = some t)
    (apart : r ≠ t) : task.concerns g r = false := by
  cases task with
  | resolve u success =>
      obtain rfl : u = t := Option.some.inj claim
      simp [concerns, counts, settles, Ne.symm apart]
  | call w success =>
      cases w with
      | member g' => simp [claim?] at claim
      | own k => rfl

namespace State

variable {s s' s'' : State} {t : Token} {n : Nat}

/-- The number of completions. -/
abbrev size (s : State) : Nat := s.exports.ledger.store.size

/-- A completion is there, and no aggregate gives it its outcome. -/
abbrev Free (s : State) (t : Token) : Prop := s.exports.ledger.Free t

/-- A completion is that of an export that a simple processor takes not to be over. -/
def Pending (s : State) (t : Token) : Prop :=
  ∃ (slot : Nat) (p : SimpleProcessor) (id : Nat),
    s.simples[slot]? = some p ∧ (id, t) ∈ p.pending

/-- A batch processor returned a completion for one of its machine's. -/
def Promised (s : State) (t : Token) : Prop :=
  ∃ (slot : Nat) (p : BatchProcessor) (mine : Token),
    s.batches[slot]? = some p ∧ (mine, t) ∈ p.promised

/-- **Somebody is going to resolve a completion by himself**: whoever knows its name, a batch
processor, or a callback. -/
inductive Claims (s : State) : Token → Prop
  | named {name : String} {t : Token} (mem : (name, t) ∈ s.exports.deferred) : Claims s t
  | promised {t : Token} (promised : s.Promised t) : Claims s t
  | waiting {u : Token} {k : Reaction} {t : Token} (mem : k ∈ s.exports.ledger.owners u)
      (done : k.done? = some t) : Claims s t

/-- **Something was only added.**  What is new from `n` on may have been gathered. -/
structure Grows (n : Nat) (s s' : State) : Prop where
  ledger : s.exports.ledger.Extends (fun t => s.Pending t ∨ n ≤ t) s'.exports.ledger
  pending : ∀ t, s'.Pending t → s.Pending t ∨ s.size ≤ t ∧ t < s'.size
  claims : ∀ t, s'.Claims t → s.Claims t ∨ s'.Free t

/-- **Nobody claims a completion that is the result of an aggregate.** -/
structure Orderly (s : State) (todo : List Task) : Prop where
  bounded : s.exports.ledger.Bounded
  pending : ∀ t, s.Pending t → t < s.size
  claims : ∀ t, s.Claims t → s.Free t
  todo : ∀ k success, .call (.own k) success ∈ todo → ∀ t, k.done? = some t → s.Free t

/-- Nobody waits for a completion yet, nor is anybody about to. -/
structure Untouched (s : State) (t : Token) : Prop where
  lt : t < s.size
  waiting : s.exports.ledger.store.waiting t = []
  pending : ¬ s.Pending t

/-! ## What is only added -/

lemma Grows.trans (h : s.Grows n s') (h' : s'.Grows n s'') : s.Grows n s'' where
  ledger := h.ledger.trans_of h'.ledger fun t lt => Or.imp_left fun pending =>
    (h.pending t pending).resolve_right fun ⟨le, _⟩ => Nat.not_lt.mpr le lt
  pending t pending := by
    rcases h'.pending t pending with pending | ⟨le, lt⟩
    · rcases h.pending t pending with pending | ⟨le, lt⟩
      · exact .inl pending
      · exact .inr ⟨le, Nat.lt_of_lt_of_le lt h'.ledger.size⟩
    · exact .inr ⟨Nat.le_trans h.ledger.size le, lt⟩
  claims t claims := by
    rcases h'.claims t claims with claims | free
    · rcases h.claims t claims with claims | free
      · exact .inl claims
      · exact .inr (h'.ledger.free free)
    · exact .inr free

lemma Grows.mono {m : Nat} (h : s.Grows m s') (le : n ≤ m) : s.Grows n s' where
  ledger := (Ledger.Extends.refl ..).trans_of h.ledger fun _ _ => Or.imp_right (Nat.le_trans le)
  pending := h.pending
  claims := h.claims

/-- Nothing was added that matters. -/
lemma Grows.of_le (ledger : s'.exports.ledger = s.exports.ledger)
    (deferred : s'.exports.deferred = s.exports.deferred)
    (pending : ∀ t, s'.Pending t → s.Pending t)
    (promised : ∀ t, s'.Promised t → s.Promised t) : s.Grows n s' where
  ledger := ledger ▸ .refl ..
  pending t mem := .inl (pending t mem)
  claims t claims := by
    refine .inl ?_
    cases claims with
    | named mem => exact .named (deferred ▸ mem)
    | promised mem => exact .promised (promised t mem)
    | waiting mem done => exact .waiting (ledger ▸ mem) done

/-- What exporters add. -/
lemma Grows.of_exports {exports : Export.State Reaction} (h : s.exports.Grows exports)
    (exports_eq : s'.exports = exports) (simples : s'.simples = s.simples)
    (batches : s'.batches = s.batches) : s.Grows n s' where
  ledger := exports_eq ▸ (Ledger.Extends.refl ..).trans_of h.ledger fun _ _ => False.elim
  pending t pending := .inl (by rwa [Pending, simples] at pending)
  claims t claims := by
    subst exports_eq
    cases claims with
    | named mem => exact (h.deferred _ mem).imp .named fun ⟨_, free⟩ => free
    | promised mem => exact .inl (.promised (by rwa [Promised, batches] at mem))
    | waiting mem done => exact .inl (.waiting (h.owners _ ▸ mem) done)

lemma Orderly.grows {todo : List Task} (h : s.Orderly todo) (grows : s.Grows n s') :
    s'.Orderly todo where
  bounded := grows.ledger.bounded h.bounded
  pending t pending := by
    rcases grows.pending t pending with pending | ⟨-, lt⟩
    · exact Nat.lt_of_lt_of_le (h.pending t pending) grows.ledger.size
    · exact lt
  claims t claims := by
    rcases grows.claims t claims with claims | free
    · exact grows.ledger.free (h.claims t claims)
    · exact free
  todo k success mem t done := grows.ledger.free (h.todo k success mem t done)

lemma Untouched.grows (h : s.Untouched t) (lt : t < n) (grows : s.Grows n s') :
    s'.Untouched t where
  lt := Nat.lt_of_lt_of_le h.lt grows.ledger.size
  waiting := by
    obtain ⟨more, eq, none, -⟩ := grows.ledger.waiting t h.lt
    rw [eq, none (not_or.mpr ⟨h.pending, Nat.not_le.mpr lt⟩), List.append_nil]
    exact h.waiting
  pending pending := by
    rcases grows.pending t pending with pending | ⟨le, -⟩
    · exact h.pending pending
    · exact Nat.not_lt.mpr le h.lt

/-! ## Tasks -/

/-- A simple processor changes, and takes no more exports to be pending. -/
lemma grows_modifySimple (slot : Nat) (f : SimpleProcessor → SimpleProcessor)
    (sub : ∀ p, ∀ e ∈ (f p).pending, e ∈ p.pending) : s.Grows n (s.modifySimple slot f) := by
  refine .of_le rfl rfl ?_ fun _ => id
  rintro t ⟨slot', p, id, found, mem⟩
  simp only [modifySimple, Array.getElem?_modify] at found
  split at found
  · obtain ⟨q, found', rfl⟩ := Option.map_eq_some_iff.mp found
    exact ⟨slot', q, id, found', sub q _ mem⟩
  · exact ⟨slot', p, id, found, mem⟩

/-- A callback is registered on a new completion. -/
lemma Grows.register (h : s.Grows n s') {u : Token} (new : s.size ≤ u) {k : Reaction}
    (free : ∀ t, k.done? = some t → s'.Free t) :
    s.Grows n (s'.withLedger (s'.exports.ledger.register u (.own k)).1) := by
  have extension := h.ledger.register new k
  have size : (s'.exports.ledger.register u (.own k)).1.store.size = s'.size :=
    Store.size_register ..
  have free' {t : Token} (free : s'.Free t) : (s'.exports.ledger.register u (.own k)).1.Free t :=
    ⟨size ▸ free.lt, free.apart⟩
  refine ⟨extension, fun t pending => ?_, fun t claims => ?_⟩
  · exact (h.pending t pending).imp_right fun ⟨le, lt⟩ => ⟨le, Nat.lt_of_lt_of_eq lt size.symm⟩
  · cases claims with
    | named mem => exact (h.claims t (.named mem)).imp_right free'
    | promised mem => exact (h.claims t (.promised mem)).imp_right free'
    | waiting mem done =>
        rcases Ledger.mem_owners_register.mp mem with mem | ⟨-, -, rfl⟩
        · exact (h.claims t (.waiting mem done)).imp_right free'
        · exact .inr (free' (free t done))

/-- A simple processor shuts its exporter down. -/
lemma grows_shutExporter (bounded : s.exports.ledger.Bounded) (slot : Nat) (flushed : Token)
    {done : Token} (free : s.Free done) :
    s.Grows n (s.shutExporter slot flushed done).1 ∧
      ∀ more, (s.shutExporter slot flushed done).2 = some more →
        ∀ new ∈ more, new.claim? = some done := by
  rw [shutExporter]
  split
  · exact ⟨.of_le rfl rfl (fun _ => id) fun _ => id, by simp⟩
  · rename_i p _
    have answered := Export.Exporter.answered_perform .shutdown p.exporter bounded
    have grows : s.Grows n (s.callExporter p.exporter .shutdown).1 :=
      .of_exports answered.grows rfl rfl rfl
    rcases called : s.callExporter p.exporter .shutdown with ⟨s', answer⟩
    rw [called] at grows
    cases answer with
    | panicked => exact ⟨grows, by simp⟩
    | returned u =>
        have new : s.size ≤ u := (answered.new u (congrArg Prod.snd called)).le
        have registered := grows.register (k := .conclude flushed done) new fun t same =>
          grows.ledger.free (Option.some.inj same ▸ free)
        dsimp only
        split
        · rename_i ledger register
          rw [register] at registered
          exact ⟨registered, by simp⟩
        · rename_i ledger success register
          rw [register] at registered
          exact ⟨registered, by simp [Task.claim?, Reaction.done?]⟩

/-- **What a callback of a processor does**: it adds something, and the tasks it sets off resolve
the completion it has to. -/
lemma grows_own (bounded : s.exports.ledger.Bounded) {k : Reaction} (success : Bool)
    (free : ∀ t, k.done? = some t → s.Free t) :
    s.Grows n (s.step (.call (.own k) success)).1 ∧
      ∀ more, (s.step (.call (.own k) success)).2 = some more →
        ∀ new ∈ more, new.claim? = k.done? ∧ k.done? ≠ none := by
  cases k with
  | forget slot id =>
      refine ⟨grows_modifySimple slot _ fun p e mem => (List.mem_filter.mp mem).1, ?_⟩
      rintro more ⟨⟩
      simp
  | shutExporter slot flushed done =>
      rw [step]
      split
      · have grows : s.Grows n { s with draining := s.draining.erase slot } :=
          .of_le rfl rfl (fun _ => id) fun _ => id
        obtain ⟨more, claims⟩ := { s with draining := s.draining.erase slot }.grows_shutExporter
          bounded slot flushed (free done rfl)
        refine ⟨grows.trans more, fun tasks made new mem => ⟨claims tasks made new mem, ?_⟩⟩
        simp [Reaction.done?]
      · exact ⟨.of_le rfl rfl (fun _ => id) fun _ => id, by simp⟩
  | conclude flushed done =>
      refine ⟨.of_le rfl rfl (fun _ => id) fun _ => id, ?_⟩
      rintro more ⟨⟩
      simp [Task.claim?, Reaction.done?]

/-- **What a task does** that does not panic. -/
inductive Turn (n : Nat) (s : State) : Task → State → List Task → Prop
  | stale {t : Token} {success : Bool} (stale : s.outcome? t ≠ none ∨ s.size ≤ t) :
      Turn n s (.resolve t success) s []
  | resolved {t : Token} {success : Bool} (pending : s.outcome? t = none) (lt : t < s.size) :
      Turn n s (.resolve t success)
        (s.withLedger { s.exports.ledger with
          store := (s.exports.ledger.store.resolve t success).1 })
        ((s.exports.ledger.store.waiting t).map (.call · success))
  | absent {g : Nat} {success : Bool} (none : s.exports.ledger.aggregates[g]? = none) :
      Turn n s (.call (.member g) success) s []
  | counted {g : Nat} {success : Bool} {a counted : Aggregate}
      (found : s.exports.ledger.aggregates[g]? = some a)
      (tallied : counted = ⟨a.remaining - 1, a.failed || !success, a.result⟩) :
      Turn n s (.call (.member g) success)
        (s.withLedger { s.exports.ledger with
          aggregates := s.exports.ledger.aggregates.setIfInBounds g counted })
        (if a.remaining = 1 then [.resolve a.result (!counted.failed)] else [])
  | grown {k : Reaction} {success : Bool} {s' : State} {more : List Task} (grows : s.Grows n s')
      (made : ∀ new ∈ more, new.claim? = k.done? ∧ k.done? ≠ none) :
      Turn n s (.call (.own k) success) s' more

lemma turn_of_step {task : Task} {rest more : List Task} (h : s.Orderly (task :: rest))
    (eq : s.step task = (s', some more)) : s.Turn n task s' more := by
  cases task with
  | resolve t success =>
      simp only [step, Prod.mk.injEq, Option.some.injEq] at eq
      obtain ⟨rfl, rfl⟩ := eq
      by_cases pending : s.outcome? t = none
      · by_cases lt : t < s.size
        · rw [Store.resolve_snd]
          exact .resolved pending lt
        · have le := Nat.le_of_not_lt lt
          rw [Store.resolve_of_size_le success le]
          exact .stale (.inr le)
      · obtain ⟨found, known⟩ := Option.ne_none_iff_exists'.mp pending
        rw [Store.resolve_of_outcome? success known]
        exact .stale (.inl pending)
  | call w success =>
      cases w with
      | member g =>
          simp only [step, Prod.mk.injEq, Option.some.injEq] at eq
          obtain ⟨rfl, rfl⟩ := eq
          cases found : s.exports.ledger.aggregates[g]? with
          | none =>
              simp only [Ledger.count, found]
              exact .absent found
          | some a =>
              have made : s.Turn n (.call (.member g) success) _ _ := .counted found rfl
              simp only [Ledger.count, found, Aggregate.note, Aggregate.countDown, Aggregate.isLast,
                Aggregate.verdict, beq_iff_eq]
              by_cases last : a.remaining = 1
              · simpa only [last, if_true] using made
              · simpa only [last, if_false] using made
      | own k =>
          obtain ⟨grows, made⟩ := grows_own h.bounded success (h.todo k success List.mem_cons_self)
          rw [eq] at grows made
          exact .grown grows (made more rfl)

/-- A task that panics has added something, too. -/
lemma grows_of_panic {task : Task} {rest : List Task} (h : s.Orderly (task :: rest))
    (eq : s.step task = (s', none)) :
    s.Grows n s' ∧ ∃ k success, task = .call (.own k) success := by
  cases task with
  | resolve t success => simp [step] at eq
  | call w success =>
      cases w with
      | member g => simp [step] at eq
      | own k =>
          obtain ⟨grows, -⟩ : s.Grows n _ ∧ _ :=
            grows_own h.bounded success (h.todo k success List.mem_cons_self)
          rw [eq] at grows
          exact ⟨grows, k, success, rfl⟩

end State

/-! ## Small steps -/

variable {s s' : State} {t : Token} {n g : Nat} {task : Task}
  {todo todo' rest more : List Task}

/-- **A small step** of a pipeline with a stack of tasks. -/
inductive Advance (n : Nat) : State → List Task → State → List Task → Prop
  /-- Something is added. -/
  | grow {s s' : State} {todo : List Task} (grows : s.Grows n s') : Advance n s todo s' todo
  /-- Somebody resolves a completion, or calls back who does so later. -/
  | start {s : State} {task : Task} {t : Token} (claim : task.claim? = some t) (free : s.Free t) :
      Advance n s [] s [task]
  | step {s s' : State} {task : Task} {rest more : List Task}
      (eq : s.step task = (s', some more)) : Advance n s (task :: rest) s' (more ++ rest)
  /-- What is left to be done is lost. -/
  | panic {s s' : State} {task : Task} {rest : List Task} (eq : s.step task = (s', none)) :
      Advance n s (task :: rest) s' []

namespace State

/-- What a task that is not a processor's own leaves of a ledger: completions and the results of
aggregates stay, and nobody is registered. -/
structure Keeps (l l' : Ledger Reaction) : Prop where
  size : l'.store.size = l.store.size
  outcome? : ∀ (t : Token) (success : Bool), l.outcome? t = some success →
    l'.outcome? t = some success
  aggregates_size : l'.aggregates.size = l.aggregates.size
  results : ∀ (g : Nat) (a : Aggregate), l'.aggregates[g]? = some a →
    ∃ old, l.aggregates[g]? = some old ∧ a.result = old.result
  waiting : ∀ t, ∀ w ∈ l'.store.waiting t, w ∈ l.store.waiting t

lemma keeps_resolve (l : Ledger Reaction) (t : Token) (success : Bool) :
    Keeps l { l with store := (l.store.resolve t success).1 } where
  size := Store.size_resolve ..
  outcome? u found known := by
    refine (Store.outcome?_resolve ..).trans ((if_neg ?_).trans known)
    rintro ⟨rfl, -, pending⟩
    exact absurd (known.symm.trans pending) (by simp)
  aggregates_size := rfl
  results _ a found := ⟨a, found, rfl⟩
  waiting _ _ mem :=
    Store.mem_waiting.mpr (Store.waitsAt_resolve (Store.mem_waiting.mp mem))

lemma keeps_count {l : Ledger Reaction} {a counted : Aggregate} (found : l.aggregates[g]? = some a)
    (same : counted.result = a.result) :
    Keeps l { l with aggregates := l.aggregates.setIfInBounds g counted } where
  size := rfl
  outcome? _ _ known := known
  aggregates_size := Array.size_setIfInBounds
  results g' a' found' := by
    rw [Array.getElem?_setIfInBounds] at found'
    split at found'
    · rename_i here
      subst here
      split at found'
      · obtain rfl := Option.some.inj found'
        exact ⟨a, found, same⟩
      · exact absurd found' (by simp)
    · exact ⟨a', found', rfl⟩
  waiting _ _ mem := mem

lemma Keeps.free {l l' : Ledger Reaction} (h : Keeps l l') (free : l.Free t) : l'.Free t where
  lt := Nat.lt_of_lt_of_eq free.lt h.size.symm
  apart g a found := by
    obtain ⟨old, found', result⟩ := h.results g a found
    exact result ▸ free.apart g old found'

/-- What is left to be done may only be callbacks that waited. -/
lemma Orderly.keep {l : Ledger Reaction} (h : s.Orderly todo) (keeps : Keeps s.exports.ledger l)
    (called : ∀ k success, .call (.own k) success ∈ todo' →
      .call (.own k) success ∈ todo ∨ ∃ u, .own k ∈ s.exports.ledger.store.waiting u) :
    (s.withLedger l).Orderly todo' where
  bounded := by
    refine ⟨fun g a found => ?_, fun t g mem => ?_⟩
    · obtain ⟨old, found', result⟩ := keeps.results g a found
      exact Nat.lt_of_lt_of_eq (result ▸ h.bounded.results g old found') keeps.size.symm
    · exact Nat.lt_of_lt_of_eq (h.bounded.members t g (keeps.waiting t _ mem))
        keeps.aggregates_size.symm
  pending t pending := Nat.lt_of_lt_of_eq (h.pending t pending) keeps.size.symm
  claims t claims := by
    refine keeps.free (h.claims t ?_)
    cases claims with
    | named mem => exact .named mem
    | promised mem => exact .promised mem
    | waiting mem done =>
        exact .waiting (Ledger.mem_owners.mpr (keeps.waiting _ _ (Ledger.mem_owners.mp mem))) done
  todo k success mem t done := by
    rcases called k success mem with mem | ⟨u, mem⟩
    · exact keeps.free (h.todo k success mem t done)
    · exact keeps.free (h.claims t (.waiting (Ledger.mem_owners.mpr mem) done))

lemma Orderly.tail (h : s.Orderly (task :: rest)) : s.Orderly rest :=
  { h with todo := fun k success mem => h.todo k success (List.mem_cons_of_mem _ mem) }

lemma Orderly.turn (h : s.Orderly (task :: rest)) (turn : s.Turn n task s' more) :
    s'.Orderly (more ++ rest) := by
  cases turn with
  | stale => exact h.tail
  | absent => exact h.tail
  | resolved pending lt =>
      refine h.keep (keeps_resolve ..) fun k success mem => ?_
      rcases List.mem_append.mp mem with mem | mem
      · obtain ⟨w, waits, same⟩ := List.mem_map.mp mem
        obtain ⟨rfl, -⟩ := Task.call.inj same
        exact .inr ⟨_, waits⟩
      · exact .inl (List.mem_cons_of_mem _ mem)
  | counted found tallied =>
      refine h.keep (keeps_count found (by rw [tallied])) fun k success mem => .inl ?_
      rcases List.mem_append.mp mem with mem | mem
      · split at mem <;> simp at mem
      · exact List.mem_cons_of_mem _ mem
  | @grown k success _ _ grows made =>
      have tail := h.tail.grows grows
      refine { tail with todo := fun k' b mem t done => ?_ }
      rcases List.mem_append.mp mem with mem | mem
      · have same := (made _ mem).1
        exact grows.ledger.free (h.todo k success List.mem_cons_self t (same ▸ done))
      · exact tail.todo k' b mem t done

/-- **Every small step keeps order.** -/
theorem Orderly.advance (h : s.Orderly todo) (advance : Advance n s todo s' todo') :
    s'.Orderly todo' := by
  cases advance with
  | grow grows => exact h.grows grows
  | start claim free =>
      refine { h with todo := fun k success mem t done => ?_ }
      obtain rfl := List.mem_singleton.mp mem
      obtain rfl := Option.some.inj (claim.symm.trans done)
      exact free
  | step eq => exact h.turn (turn_of_step (n := n) h eq)
  | panic eq =>
      have kept := h.grows (grows_of_panic (n := n) h eq).1
      exact { kept with todo := fun _ _ mem => absurd mem List.not_mem_nil }

lemma Orderly.calls {k : Reaction} (h : s.Orderly []) (claim : k.done? = some t) (free : s.Free t)
    (outcome : Option Bool) : s.Orderly (Task.calls (.own k) outcome) := by
  cases outcome with
  | none => exact h
  | some success => exact h.advance (n := 0) (.start claim free)

/-- A small step adds something, or leaves all completions where they are. -/
lemma grows_or_keeps (orderly : s.Orderly todo) (advance : Advance n s todo s' todo') :
    s.Grows n s' ∨ ∃ l, Keeps s.exports.ledger l ∧ s' = s.withLedger l := by
  have same (s : State) : s.Grows n s := .of_le rfl rfl (fun _ => id) fun _ => id
  cases advance with
  | grow grows => exact .inl grows
  | start => exact .inl (same s)
  | panic eq => exact .inl (grows_of_panic orderly eq).1
  | step eq =>
      cases turn_of_step orderly eq with
      | stale => exact .inl (same s)
      | absent => exact .inl (same s)
      | resolved pending lt => exact .inr ⟨_, keeps_resolve .., rfl⟩
      | counted found tallied => exact .inr ⟨_, keeps_count found (by rw [tallied]), rfl⟩
      | grown grows made => exact .inl grows

/-- What is there is there to stay. -/
lemma size_le_of_advance (orderly : s.Orderly todo) (advance : Advance n s todo s' todo') :
    s.size ≤ s'.size := by
  rcases grows_or_keeps orderly advance with grows | ⟨l, keeps, rfl⟩
  · exact grows.ledger.size
  · exact Nat.le_of_eq keeps.size.symm

/-- What is no aggregate's result stays so. -/
lemma free_of_advance (orderly : s.Orderly todo) (advance : Advance n s todo s' todo')
    (free : s.Free t) : s'.Free t := by
  rcases grows_or_keeps orderly advance with grows | ⟨l, keeps, rfl⟩
  · exact grows.ledger.free free
  · exact keeps.free free

/-- Outcomes are there to stay. -/
lemma outcome?_of_advance {success : Bool} (orderly : s.Orderly todo)
    (advance : Advance n s todo s' todo') (known : s.outcome? t = some success) :
    s'.outcome? t = some success := by
  rcases grows_or_keeps orderly advance with grows | ⟨l, keeps, rfl⟩
  · have lt : t < s.size := by
      by_contra ge
      have none := Store.outcome?_of_size_le (Nat.le_of_not_lt ge)
      exact absurd (known.symm.trans none) (by simp)
    exact (grows.ledger.outcome? t lt).trans known
  · exact keeps.outcome? t success known

/-! ## Courses -/

/-- A pipeline gets somewhere in small steps. -/
abbrev Advances (n : Nat) : State × List Task → State × List Task → Prop :=
  Relation.ReflTransGen fun before after => Advance n before.1 before.2 after.1 after.2

lemma Orderly.advances {after : State × List Task} (h : s.Orderly todo)
    (advances : Advances n (s, todo) after) : after.1.Orderly after.2 := by
  induction advances with
  | refl => exact h
  | tail _ advance ih => exact ih.advance advance

/-- **A pipeline gets from one state to another**; both times nothing is left to be done. -/
structure Leads (n : Nat) (s s' : State) : Prop where
  orderly : s'.Orderly []
  advances : Advances n (s, []) (s', [])

lemma Leads.refl (h : s.Orderly []) : s.Leads n s := ⟨h, .refl⟩

lemma advance_mono {m : Nat} (h : Advance m s todo s' todo') (le : n ≤ m) :
    Advance n s todo s' todo' := by
  cases h with
  | grow grows => exact .grow (grows.mono le)
  | start claim free => exact .start claim free
  | step eq => exact .step eq
  | panic eq => exact .panic eq

lemma Leads.mono {m : Nat} (h : s.Leads m s') (le : n ≤ m) : s.Leads n s' :=
  ⟨h.orderly, Relation.ReflTransGen.mono (fun _ _ advance => advance_mono advance le) _ _
    h.advances⟩

lemma Leads.trans {s'' : State} (h : s.Leads n s') (h' : s'.Leads n s'') : s.Leads n s'' :=
  ⟨h'.orderly, h.advances.trans h'.advances⟩

lemma leads_of_advances (h : s.Orderly []) (advances : Advances n (s, []) (s', [])) :
    s.Leads n s' :=
  ⟨h.advances advances, advances⟩

lemma leads_of_grows (h : s.Orderly []) (grows : s.Grows n s') : s.Leads n s' :=
  ⟨h.grows grows, .single (.grow grows)⟩

/-- What every small step keeps is kept. -/
theorem Leads.keeps (Kept : State → List Task → Prop) (h : s.Leads n s') (orderly : s.Orderly [])
    (kept : Kept s [])
    (step : ∀ {s s' : State} {todo todo' : List Task}, s.Orderly todo → Kept s todo →
      Advance n s todo s' todo' → Kept s' todo') : Kept s' [] := by
  suffices all : ∀ after, Advances n (s, []) after → Kept after.1 after.2 from all _ h.advances
  intro after advances
  induction advances with
  | refl => exact kept
  | tail before advance ih => exact step (orderly.advances before) ih advance

lemma Leads.size_le (h : s.Leads n s') (orderly : s.Orderly []) : s.size ≤ s'.size := by
  refine h.keeps (fun s'' _ => s.size ≤ s''.size) orderly (Nat.le_refl _) ?_
  intro s₁ s₂ todo todo' orderly le advance
  exact Nat.le_trans le (size_le_of_advance orderly advance)

lemma Leads.free (h : s.Leads n s') (orderly : s.Orderly []) (free : s.Free t) : s'.Free t :=
  h.keeps (fun s _ => s.Free t) orderly free
    fun orderly free advance => free_of_advance orderly advance free

lemma Leads.outcome? {success : Bool} (h : s.Leads n s') (orderly : s.Orderly [])
    (known : s.outcome? t = some success) : s'.outcome? t = some success :=
  h.keeps (fun s _ => s.outcome? t = some success) orderly known
    fun orderly known advance => outcome?_of_advance orderly advance known

/-- A completion that is untouched stays untouched until somebody registers. -/
lemma Leads.untouched (h : s.Leads n s') (orderly : s.Orderly []) (untouched : s.Untouched t)
    (lt : t < n) : s'.Untouched t := by
  refine h.keeps (fun s _ => s.Untouched t) orderly untouched ?_
  intro s₁ s₂ todo todo' orderly untouched advance
  rcases grows_or_keeps orderly advance with grows | ⟨l, keeps, rfl⟩
  · exact untouched.grows lt grows
  · refine ⟨Nat.lt_of_lt_of_eq untouched.lt keeps.size.symm, ?_, untouched.pending⟩
    refine List.eq_nil_iff_forall_not_mem.mpr fun w mem => absurd (keeps.waiting t w mem) ?_
    simp [untouched.waiting]

end State

end ProfilePipeline.Processing
