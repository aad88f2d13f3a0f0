import Mathlib.Tactic.Common
import ProfilePipeline.Proofs.Completion.Counting

/-!
# Aggregates are exact

Threads do what they like with completions, callbacks and aggregates, except that nobody resolves
the result of one aggregate by hand.  Then its count and its notes are kept by every task
(`Tally.step`) and by every new thread (`Tally.begin`), and whoever resolves the result was the last
to count down (`Performed`).  So at every moment of a run the result is resolved at most once
(`Held.run`), and when nothing is going on it says of the members what it should (`Tally.exact`,
`Threads.ofAll_exact`).
-/

namespace ProfilePipeline.Completion

section

variable {g : Nat} {r : Token} {s s' : State} {todo todo' rest more : List Task} {a : Aggregate}
  {members : List Token}

/-! ## Steps -/

/-- What the others leave alone. -/
structure Spared (g : Nat) (r : Token) (s s' : State) (made : List Task) : Prop where
  made : ∀ new ∈ made, ¬ new.Concerns g r
  found : s'.ledger.aggregates[g]? = s.ledger.aggregates[g]?
  outcome? : ∀ t < s.ledger.store.size, s'.ledger.outcome? t = s.ledger.outcome? t
  waits : ∀ t, s'.ledger.store.WaitsAt t (.member g) ↔ s.ledger.store.WaitsAt t (.member g)
  weight : s'.ledger.store.weight (Waiter.counts g) = s.ledger.store.weight (Waiter.counts g)

lemma Spared.of_store {made : List Task} (idle : ∀ new ∈ made, ¬ new.Concerns g r)
    (found : s'.ledger.aggregates[g]? = s.ledger.aggregates[g]?)
    (store : s'.ledger.store = s.ledger.store) : Spared g r s s' made where
  made := idle
  found := found
  outcome? t _ := by rw [Ledger.outcome?, store]; rfl
  waits t := by rw [store]
  weight := by rw [store]

/-- Whoever else is registered does not matter. -/
lemma spared_register {t : Token} {w : Waiter Note} (lt : t < s.ledger.store.size)
    (other : w.counts g = 0) : Spared g r s (s.register t w).1 (s.register t w).2 := by
  have apart : Waiter.member g ≠ w := by
    rintro rfl
    simp [Waiter.counts] at other
  cases known : s.ledger.store.outcome? t with
  | some success =>
      have now : s.register t w = (s, [.call w success]) := by
        simp only [State.register, Ledger.register, Store.register_of_outcome? _ known]
      rw [now]
      refine .of_store ?_ rfl rfl
      simpa [Task.Concerns, Task.counts, Task.concludes] using other
  | none =>
      have kept := Store.weight_register_eq (Waiter.counts g) w lt
      constructor
      · simp [State.register, Ledger.register, Store.register_snd _ known]
      · rfl
      · exact fun u _ => Store.outcome?_register ..
      · intro u
        refine (Store.waitsAt_register_iff lt known).trans ?_
        simp [apart]
      · simp only [State.register, Ledger.register]
        rw [Store.register_snd _ known, if_pos rfl] at kept
        omega

/-- Whether a task resolves a completion by its handle. -/
def Task.meddles (r : Token) (s : State) : Task → Bool
  | .act (.resolve of _) => s.token? of == some r
  | _ => false

/-- A task that is none of its own spares an aggregate, unless it resolves a completion. -/
lemma spared_step {task : Task} (counted : Counted g r s (task :: rest) a)
    (bounds : InBounds s (task :: rest)) (idle : ¬ task.Concerns g r)
    (fair : task.meddles r s = false)
    (late : ∀ t success, task = .resolve t success → s.ledger.outcome? t ≠ none) :
    Spared g r s (s.step task).1 (s.step task).2 := by
  have fits := bounds.tasks task List.mem_cons_self
  cases task with
  | resolve t success =>
      obtain ⟨found, known⟩ := Option.ne_none_iff_exists'.mp (late t success rfl)
      have same : s.ledger.store.resolve t success = (s.ledger.store, []) :=
        Store.resolve_of_outcome? success known
      refine .of_store ?_ rfl ?_
      · simp [State.step, same]
      · simp [State.step, same]
  | call callback success =>
      cases callback with
      | own note =>
          refine .of_store ?_ rfl rfl
          simp [State.step]
      | member g' =>
          have other : g' ≠ g := by
            simpa using idle
          refine .of_store ?_ ?_ rfl
          · simpa [State.step] using other
          · exact (getElem?_modifyAggregate ..).trans (if_neg other)
  | countDown g' =>
      have other : g' ≠ g := by simpa using idle
      refine .of_store ?_ ?_ rfl
      · simp only [State.step]
        split
        · split <;> simp [other]
        · simp
      · exact (getElem?_modifyAggregate ..).trans (if_neg other)
  | conclude g' =>
      have other : g' ≠ g := by simpa using idle
      refine .of_store ?_ rfl rfl
      simp only [State.step]
      split
      · rename_i a' found
        simpa using counted.alone g' a' other found
      · simp
  | enlist t g' =>
      have other : g' ≠ g := by simpa using idle
      exact spared_register fits.1 (by simpa [Waiter.counts] using other)
  | act act =>
      cases act with
      | resolve of success =>
          refine .of_store ?_ rfl rfl
          simp only [State.step]
          split
          · rename_i t found
            have apart : t ≠ r := by
              simpa [Task.meddles, State.token?, found] using fair
            simpa using apart
          · simp
      | watch of label acts =>
          simp only [State.step]
          split
          · rename_i t found
            exact spared_register (bounds.handles.token? found) rfl
          · exact .of_store (by simp) rfl rfl

/-- What an aggregate is about existed when it was made. -/
structure Known (g : Nat) (r : Token) (members : List Token) (s : State) : Prop where
  aggregate : g < s.ledger.aggregates.size
  result : r < s.ledger.store.size
  members : ∀ t ∈ members, t < s.ledger.store.size

/-- The two sides of an aggregate. -/
structure Tally (g : Nat) (r : Token) (members : List Token) (s : State) (todo : List Task)
    (a : Aggregate) : Prop where
  known : Known g r members s
  counted : Counted g r s todo a
  informed : Informed g members s todo a.failed

lemma Tally.spared (h : Tally g r members s todo a) (spared : Spared g r s s' more)
    (known : Known g r members s') (alike : Alike g r todo todo')
    (alone : ∀ (g' : Nat) (a' : Aggregate), g' ≠ g → s'.ledger.aggregates[g']? = some a' →
      a'.result ≠ r) : Tally g r members s' todo' a where
  known := known
  counted := h.counted.frame alike spared.found alone (spared.outcome? r h.known.result)
    spared.weight
  informed := h.informed.frame alike (fun t mem => spared.outcome? t (h.known.members t mem))
    spared.waits

/-- **Every task keeps the tally**, unless it meddles with the result. -/
theorem Tally.step {task : Task} (h : Tally g r members s (task :: rest) a)
    (bounds : InBounds s (task :: rest)) (fair : task.meddles r s = false) :
    ∃ a', Tally g r members (s.step task).1 ((s.step task).2 ++ rest) a' := by
  have fits := bounds.tasks task List.mem_cons_self
  have known : Known g r members (s.step task).1 := by
    refine ⟨?_, ?_, ?_⟩
    · rw [(s.step_aggregates task).1]
      exact h.known.aggregate
    · rw [(s.step_frame task).2]
      exact h.known.result
    · rw [(s.step_frame task).2]
      exact h.known.members
  have others : ¬ task.Concerns g r →
      (∀ t success, task = .resolve t success → s.ledger.outcome? t ≠ none) →
      ∃ a', Tally g r members (s.step task).1 ((s.step task).2 ++ rest) a' := by
    intro idle late
    have spared := spared_step h.counted bounds idle fair late
    exact ⟨a, h.spared spared known (.replace idle spared.made) (h.counted.alone_step task)⟩
  cases task with
  | resolve t success =>
      cases pending : s.ledger.outcome? t with
      | none => exact ⟨a, known, h.counted.resolve fits pending, h.informed.resolve fits pending⟩
      | some found =>
          refine others ?_ (by rintro _ _ ⟨rfl, rfl⟩; simp [pending])
          -- Nobody is about to resolve the result again.
          have concluding := h.counted.concluding
          have apart : t ≠ r := by
            rintro rfl
            simp only [weigh_cons, Task.concludes, pending, ↓reduceIte, reduceCtorEq] at concluding
            split at concluding <;> omega
          simpa using apart
  | call callback success =>
      cases callback with
      | own note =>
          refine others ?_ (by simp)
          simp
      | member g' =>
          by_cases own : g' = g
          · subst own
            exact ⟨_, known, h.counted.call, h.informed.call⟩
          · refine others ?_ (by simp)
            simpa using own
  | countDown g' =>
      by_cases own : g' = g
      · subst own
        have made : (s.step (.countDown g')).2 = if a.isLast then [.conclude g'] else [] := by
          simp [State.step, h.counted.found]
        rw [made]
        refine ⟨_, known, h.counted.countDown, ?_⟩
        refine h.informed.keep (fun _ => rfl) (fun _ => Iff.rfl) (fun t => ?_) fun success => ?_
        · split <;> simp
        · split <;> simp
      · refine others ?_ (by simp)
        simpa using own
  | conclude g' =>
      by_cases own : g' = g
      · subst own
        have made : (s.step (.conclude g')).2 = [.resolve r a.verdict] := by
          simp [State.step, h.counted.found, h.counted.result]
        rw [made]
        refine ⟨_, known, h.counted.conclude, ?_⟩
        refine h.informed.keep (fun _ => rfl) (fun _ => Iff.rfl) (fun t => ?_) fun success => ?_
        · simp
        · simp
      · refine others ?_ (by simp)
        simpa using own
  | enlist t g' =>
      by_cases own : g' = g
      · subst own
        exact ⟨a, known, h.counted.enlist fits.1, h.informed.enlist fits.1⟩
      · refine others ?_ (by simp)
        simpa using own
  | act act =>
      refine others ?_ (by simp)
      simp

/-- So does whoever begins a step of a program. -/
theorem Tally.begin (h : Tally g r members s todo a) (step : Step) :
    Tally g r members (s.begin step).1 (todo ++ (s.begin step).2) a := by
  have begun := s.begun step
  generalize (s.begin step).1 = s' at begun
  generalize (s.begin step).2 = more at begun
  have add : Spared g r s s' more → s.ledger.store.size ≤ s'.ledger.store.size →
      s.ledger.aggregates.size ≤ s'.ledger.aggregates.size →
      (∀ (g' : Nat) (a' : Aggregate), g' ≠ g → s'.ledger.aggregates[g']? = some a' →
        a'.result ≠ r) → Tally g r members s' (todo ++ more) a := by
    intro spared store aggregates alone
    have known : Known g r members s' :=
      ⟨Nat.lt_of_lt_of_le h.known.aggregate aggregates, Nat.lt_of_lt_of_le h.known.result store,
        fun t mem => Nat.lt_of_lt_of_le (h.known.members t mem) store⟩
    exact h.spared spared known
      ((Alike.add spared.made).trans (.of_perm List.perm_append_comm)) alone
  have kept : ∀ t < s.ledger.store.size, s'.ledger.outcome? t = s.ledger.outcome? t :=
    fun t lt => begun.outcome? lt
  cases begun with
  | acts ledger acts =>
      refine add (.of_store ?_ (by rw [ledger]) (by rw [ledger])) ?_ ?_ ?_
      · simp
      · simp [ledger]
      · simp [ledger]
      · rw [ledger]
        exact h.counted.alone
  | fresh store aggregates =>
      refine add ⟨by simp, by rw [aggregates], kept, ?_, ?_⟩ ?_ ?_ ?_
      · intro t
        simp [store, ← Store.mem_waiting, Store.waiting_fresh]
      · simp [store, Store.weight_fresh]
      · simp [store]
      · simp [aggregates]
      · rw [aggregates]
        exact h.counted.alone
  | settled success store aggregates =>
      refine add ⟨by simp, by rw [aggregates], kept, ?_, ?_⟩ ?_ ?_ ?_
      · intro t
        simp [store, ← Store.mem_waiting, Store.waiting_settled]
      · simp [store, Store.weight_settled]
      · simp [store]
      · simp [aggregates]
      · rw [aggregates]
        exact h.counted.alone
  | opened tokens named store aggregates =>
      have lt := h.known.aggregate
      have apart : s.ledger.aggregates.size ≠ g := Nat.ne_of_gt lt
      refine add ⟨?_, ?_, kept, ?_, ?_⟩ ?_ ?_ ?_
      · intro new mem
        obtain ⟨t, -, rfl⟩ := List.mem_map.mp mem
        simpa using apart
      · rw [aggregates, Array.getElem?_push, if_neg (Nat.ne_of_lt lt)]
      · intro t
        simp [store, ← Store.mem_waiting, Store.waiting_fresh]
      · simp [store, Store.weight_fresh]
      · simp [store]
      · simp [aggregates]
      · intro g' a' other found
        rw [aggregates, Array.getElem?_push] at found
        split at found
        · cases found
          exact Nat.ne_of_gt h.known.result
        · exact h.counted.alone g' a' other found

/-! ## Who resolves the result -/

namespace Task

/-- One for a callback that decides to resolve the result of an aggregate. -/
def decides (g : Nat) : Task → Nat
  | conclude g' => if g' = g then 1 else 0
  | _ => 0

/-- One for a task that resolves a completion. -/
def resolves (r : Token) : Task → Nat
  | resolve t _ => if t = r then 1 else 0
  | _ => 0

lemma concludes_eq (g : Nat) (r : Token) (task : Task) :
    task.concludes g r = task.decides g + task.resolves r := by
  cases task <;> simp [concludes, decides, resolves]

end Task

/-- Nothing but a decision leads to a resolution, unless somebody meddles. -/
lemma resolves_step {task : Task} (h : Counted g r s todo a) (fair : task.meddles r s = false) :
    weigh (Task.resolves r) (s.step task).2 = task.decides g := by
  have registered : ∀ t w, weigh (Task.resolves r) (s.register t w).2 = 0 := by
    intro t w
    simp only [State.register, Ledger.register]
    split <;> simp [Task.resolves]
  cases task with
  | resolve t success =>
      simp only [State.step]
      rw [weigh_calls _ (fun _ => 0) success (fun _ => rfl)]
      exact weigh_eq_zero_iff.mpr fun _ _ => rfl
  | call callback success =>
      cases callback with
      | member g' => rfl
      | own note =>
          simp only [State.step, weigh_map]
          exact weigh_eq_zero_iff.mpr fun _ _ => rfl
  | countDown g' =>
      simp only [State.step]
      split
      · split <;> simp [Task.resolves, Task.decides]
      · simp [Task.decides]
  | conclude g' =>
      by_cases own : g' = g
      · subst own
        simp [State.step, h.found, h.result, Task.resolves, Task.decides]
      · simp only [State.step, Task.decides, if_neg own]
        split
        · rename_i a' found
          simp [Task.resolves, h.alone g' a' own found]
        · simp
  | enlist t g' => exact registered t _
  | act act =>
      cases act with
      | resolve of success =>
          simp only [State.step, Task.decides]
          split
          · rename_i t found
            have apart : t ≠ r := by simpa [Task.meddles, State.token?, found] using fair
            simp [Task.resolves, apart]
          · simp
      | watch of label acts =>
          simp only [State.step, Task.decides]
          split
          · exact registered _ _
          · simp

/-- What has been done to resolve the result. -/
structure Performed (g : Nat) (r : Token) (s : State) (todo ran : List Task) : Prop where
  resolved : weigh (Task.resolves r) ran = if s.ledger.outcome? r = none then 0 else 1
  decided : weigh (Task.decides g) ran = weigh (Task.resolves r) todo + weigh (Task.resolves r) ran

lemma Performed.step {task : Task} {ran : List Task} (h : Performed g r s (task :: rest) ran)
    (tally : Tally g r members s (task :: rest) a) (fair : task.meddles r s = false) :
    Performed g r (s.step task).1 ((s.step task).2 ++ rest) (ran ++ [task]) := by
  have decided := h.decided
  have made := resolves_step tally.counted fair
  rw [weigh_cons] at decided
  constructor
  · rw [weigh_append, h.resolved, weigh_cons, weigh_nil]
    by_cases own : ∃ success, task = .resolve r success
    · obtain ⟨success, rfl⟩ := own
      have concluding := tally.counted.concluding
      have pending : s.ledger.outcome? r = none := by
        by_contra known
        simp only [weigh_cons, Task.concludes, known, ↓reduceIte] at concluding
        split at concluding <;> omega
      have after : (s.step (.resolve r success)).1.ledger.outcome? r = some success :=
        (Store.outcome?_resolve ..).trans (if_pos ⟨rfl, tally.known.result, pending⟩)
      simp [pending, after, Task.resolves]
    · have still := (s.step_outcome? task r).resolve_right own
      have other : task.resolves r = 0 := by
        cases task with
        | resolve t success =>
            have apart : t ≠ r := by
              rintro rfl
              exact own ⟨success, rfl⟩
            simp [Task.resolves, apart]
        | _ => rfl
      simp [still, other]
  · simp only [weigh_append, weigh_cons, weigh_nil]
    omega

/-! ## Runs -/

/-- All that is true of an aggregate at any moment. -/
structure Held (g : Nat) (r : Token) (members : List Token) (c : Threads) (ran : List Task) :
    Prop where
  bounds : InBounds c.state c.todo
  tally : ∃ a, Tally g r members c.state c.todo a
  performed : Performed g r c.state c.todo ran

lemma Tally.of_perm (h : Tally g r members s todo a) (perm : todo.Perm todo') :
    Tally g r members s todo' a where
  known := h.known
  counted := h.counted.frame (.of_perm perm) rfl h.counted.alone rfl rfl
  informed := h.informed.frame (r := r) (.of_perm perm) (fun _ _ => rfl) fun _ => Iff.rfl

lemma Performed.of_perm {ran : List Task} (h : Performed g r s todo ran) (perm : todo.Perm todo') :
    Performed g r s todo' ran where
  resolved := h.resolved
  decided := by rw [h.decided, weigh_perm _ perm]

lemma Performed.begin {ran : List Task} (h : Performed g r s todo ran)
    (lt : r < s.ledger.store.size) (step : Step) :
    Performed g r (s.begin step).1 (todo ++ (s.begin step).2) ran where
  resolved := by rw [(s.begun step).outcome? lt, h.resolved]
  decided := by
    have idle : weigh (Task.resolves r) (s.begin step).2 = 0 := by
      have begun := s.begun step
      generalize (s.begin step).1 = s' at begun
      generalize (s.begin step).2 = more at begun
      cases begun with
      | acts | opened =>
          rw [weigh_map]
          exact weigh_eq_zero_iff.mpr fun _ _ => rfl
      | fresh | settled => rfl
    rw [weigh_append, idle, h.decided]
    rfl

/-- **Nothing that threads do breaks it**, unless somebody meddles with the result. -/
theorem Held.run {c d : Threads} {earlier ran : List Task} (h : Held g r members c earlier)
    (run : Threads.Runs (fun s task => !task.meddles r s) c ran d) :
    Held g r members d (earlier ++ ran) := by
  induction run with
  | refl =>
      rw [List.append_nil]
      exact h
  | start before step ih =>
      obtain ⟨a, tally⟩ := ih.tally
      refine ⟨?_, ⟨a, ?_⟩, ?_⟩ <;> rw [Threads.todo_start]
      · exact ih.bounds.begin step
      · exact tally.begin step
      · exact ih.performed.begin tally.known.result step
  | @advance ran d before thread fair ih =>
      rcases d.advance_cases thread with ⟨idle, same⟩ | ⟨task, rest, next, todo, replaced, state⟩
      · rw [idle, same, Option.toList_none, List.append_nil]
        exact ih
      · obtain ⟨a, tally⟩ := ih.tally
        have fair : task.meddles r d.state = false := by simpa using fair task next
        have bounds := ih.bounds.of_perm todo
        obtain ⟨a', after⟩ := (tally.of_perm todo).step bounds fair
        have performed := (ih.performed.of_perm todo).step (tally.of_perm todo) fair
        rw [next, Option.toList_some, ← List.append_assoc]
        refine ⟨?_, ⟨a', ?_⟩, ?_⟩ <;> rw [state]
        · exact bounds.step.of_perm replaced.symm
        · exact after.of_perm replaced.symm
        · exact performed.of_perm replaced.symm

/-! ## Beginning and end -/

lemma Task.Fits.not_concerns {task : Task} (h : task.Fits s) :
    ¬ task.Concerns s.ledger.aggregates.size s.ledger.store.size := by
  cases task with
  | call callback success =>
      cases callback with
      | member g' => simpa using Nat.ne_of_lt h
      | own note => simp
  | act => simp
  | enlist t g' => simpa using Nat.ne_of_lt h.2
  | resolve | countDown | conclude => simpa using Nat.ne_of_lt h

lemma weigh_enlist (g : Nat) (r : Token) (tokens : List Token) :
    weigh (Task.counts g) (tokens.map (.enlist · g)) = tokens.length ∧
      weigh (Task.concludes g r) (tokens.map (.enlist · g)) = 0 := by
  induction tokens with
  | nil => simp
  | cons t tokens ih =>
      obtain ⟨counts, concludes⟩ := ih
      simp [counts, concludes, Task.counts, Task.concludes, Nat.add_comm]

/-- Nobody knows of an aggregate before it is made. -/
lemma InBounds.weight_counts (bounds : InBounds s todo) :
    s.ledger.store.weight (Waiter.counts s.ledger.aggregates.size) = 0 := by
  by_contra waits
  obtain ⟨t, k, waiting, counted⟩ := Store.exists_waitsAt_of_weight_pos (Nat.pos_of_ne_zero waits)
  cases k with
  | member g' =>
      have lt := bounds.waiters t g' waiting
      simp [Waiter.counts, Nat.ne_of_lt lt] at counted
  | own note => simp [Waiter.counts] at counted

/-- A new aggregate counts on all of its members, and all of them are to be enlisted. -/
theorem Tally.start (bounds : InBounds s todo) {tokens : List Token} (ne : tokens ≠ [])
    (exist : ∀ t ∈ tokens, t < s.ledger.store.size)
    (store : s'.ledger.store = s.ledger.store.fresh.1)
    (aggregates : s'.ledger.aggregates =
      s.ledger.aggregates.push ⟨tokens.length, false, s.ledger.store.size⟩) :
    Tally s.ledger.aggregates.size s.ledger.store.size tokens s'
      (todo ++ tokens.map (.enlist · s.ledger.aggregates.size))
      ⟨tokens.length, false, s.ledger.store.size⟩ := by
  have some : tokens.length ≠ 0 := by simpa using ne
  have idle : ∀ task ∈ todo, ¬ task.Concerns s.ledger.aggregates.size s.ledger.store.size :=
    fun task mem => (bounds.tasks task mem).not_concerns
  obtain ⟨counts, concludes⟩ := weigh_of_not_concerns idle
  obtain ⟨enlists, quiet⟩ := weigh_enlist s.ledger.aggregates.size s.ledger.store.size tokens
  have pending : s'.ledger.outcome? s.ledger.store.size = none := by
    rw [Ledger.outcome?, store, Store.outcome?_fresh, Store.outcome?_of_size_le (Nat.le_refl _)]
  have nobody : ∀ t, ¬ s'.ledger.store.WaitsAt t (.member s.ledger.aggregates.size) := by
    intro t waits
    rw [store] at waits
    exact Nat.lt_irrefl _ (bounds.waiters t _ (Store.waitsAt_fresh waits))
  have foreign : ∀ task ∈ todo ++ tokens.map (.enlist · s.ledger.aggregates.size),
      task.Concerns s.ledger.aggregates.size s.ledger.store.size →
        ∃ t ∈ tokens, .enlist t s.ledger.aggregates.size = task := by
    intro task mem concerns
    rcases List.mem_append.mp mem with old | new
    · exact absurd concerns (idle task old)
    · exact List.mem_map.mp new
  refine ⟨⟨?_, ?_, ?_⟩, ⟨?_, rfl, ?_, ?_, ?_, ?_⟩, ⟨?_, ?_, ?_, ?_, ?_, ?_⟩⟩
  · simp [aggregates]
  · simp [store]
  · simpa [store] using fun t mem => Nat.lt_succ_of_lt (exist t mem)
  · rw [aggregates, Array.getElem?_push_size]
  · intro g' a' other found
    rw [aggregates, Array.getElem?_push, if_neg other] at found
    exact Nat.ne_of_lt (bounds.results a' (Array.mem_of_getElem? found))
  · simp [counts, enlists, store, Store.weight_fresh, bounds.weight_counts]
  · rw [weigh_append, concludes, quiet, pending, if_pos rfl, if_neg some]
  · rintro success (mem | known)
    · obtain ⟨t, -, other⟩ := foreign _ mem (concerns_resolve success)
      cases other
    · rw [pending] at known
      cases known
  · simp
  · intro t mem failure
    exact .inr (.inl (List.mem_append_right _ (List.mem_map.mpr ⟨t, mem, rfl⟩)))
  · intro t mem _
    exact .inl (List.mem_append_right _ (List.mem_map.mpr ⟨t, mem, rfl⟩))
  · intro t mem
    obtain ⟨u, member, same⟩ := foreign _ mem (concerns_enlist t)
    cases same
    exact member
  · exact fun t waits => absurd waits (nobody t)
  · intro success mem
    obtain ⟨t, -, other⟩ := foreign _ mem (concerns_call success)
    cases other

end

/-- What a completion for a list of others says of them. -/
structure Exact (s : State) (r : Token) (members : List Token) : Prop where
  pending : s.ledger.outcome? r = none ↔ ∃ t ∈ members, s.ledger.outcome? t = none
  success : s.ledger.outcome? r = some true ↔ ∀ t ∈ members, s.ledger.outcome? t = some true
  failure : s.ledger.outcome? r = some false ↔
    (∀ t ∈ members, s.ledger.outcome? t ≠ none) ∧ ∃ t ∈ members, s.ledger.outcome? t = some false

/-- Nothing is to be done for an aggregate: no member is to be enlisted, and no callback of it is
going on. -/
def Threads.Idle (c : Threads) (g : Nat) (r : Token) : Prop :=
  ∀ task ∈ c.todo, ¬ task.Concerns g r

/-- When nothing is going on, the count is that of the members which are pending, and the note says
whether one has failed. -/
theorem Tally.exact {g : Nat} {r : Token} {members : List Token} {c : Threads} {a : Aggregate}
    (h : Tally g r members c.state c.todo a) (idle : c.Idle g r) : Exact c.state r members := by
  obtain ⟨counts, concludes⟩ := weigh_of_not_concerns idle
  have missing := h.counted.missing
  have concluding := h.counted.concluding
  rw [counts, Nat.zero_add] at missing
  rw [concludes, Nat.zero_add] at concluding
  have unresolved : c.state.ledger.outcome? r = none ↔ a.remaining ≠ 0 := by
    constructor
    · rintro pending zero
      simp [pending, zero] at concluding
    · intro nonzero
      exact (h.counted.early nonzero).2
  have waiting : a.remaining ≠ 0 ↔ ∃ t ∈ members, c.state.ledger.outcome? t = none := by
    rw [missing]
    constructor
    · intro nonzero
      obtain ⟨t, k, waits, counted⟩ :=
        Store.exists_waitsAt_of_weight_pos (Nat.pos_of_ne_zero nonzero)
      cases k with
      | own note => simp [Waiter.counts] at counted
      | member g' =>
          have same : g' = g := by
            by_contra other
            simp [Waiter.counts, other] at counted
          subst same
          exact ⟨t, h.informed.waiting t waits, waits.outcome?⟩
    · rintro ⟨t, mem, pending⟩
      rcases h.informed.watched t mem pending with enlist | waits
      · exact absurd (concerns_enlist t) (idle _ enlist)
      · have counted := Store.weight_le_of_waitsAt (w := Waiter.counts g) waits
        simp only [Waiter.counts, ↓reduceIte] at counted
        omega
  have noted : a.failed = true ↔ ∃ t ∈ members, c.state.ledger.outcome? t = some false := by
    constructor
    · exact h.informed.blamed
    · rintro ⟨t, mem, failure⟩
      rcases h.informed.told t mem failure with noted | enlist | call
      · exact noted
      · exact absurd (concerns_enlist t) (idle _ enlist)
      · exact absurd (concerns_call false) (idle _ call)
  have known : ∀ success, c.state.ledger.outcome? r = some success ↔
      a.remaining = 0 ∧ a.failed = !success := by
    intro success
    constructor
    · intro known
      refine ⟨?_, ?_⟩
      · by_contra nonzero
        rw [unresolved.mpr nonzero] at known
        cases known
      · rw [h.counted.verdict success (.inr known), Aggregate.verdict, Bool.not_not]
    · rintro ⟨zero, failed⟩
      cases outcome : c.state.ledger.outcome? r with
      | none => exact absurd zero (unresolved.mp outcome)
      | some found =>
          rw [h.counted.verdict found (.inr outcome), Aggregate.verdict, failed, Bool.not_not]
  have settled : a.remaining = 0 ↔ ∀ t ∈ members, c.state.ledger.outcome? t ≠ none := by
    rw [← not_iff_not, ← ne_eq, waiting]
    simp
  constructor
  · rw [unresolved, waiting]
  · rw [known, settled, Bool.not_true, ← Bool.not_eq_true, noted]
    constructor
    · rintro ⟨all, none⟩ t mem
      cases outcome : c.state.ledger.outcome? t with
      | none => exact absurd outcome (all t mem)
      | some success =>
          cases success with
          | true => rfl
          | false => exact absurd ⟨t, mem, outcome⟩ none
    · intro all
      refine ⟨fun t mem => by simp [all t mem], ?_⟩
      rintro ⟨t, mem, failure⟩
      simp [all t mem] at failure
  · rw [known, settled, Bool.not_false, noted]

namespace State

lemma begin_ofAll_nil {s : State} {members : List Nat} (none : members.filterMap s.token? = []) :
    s.begin (.ofAll members) = (s.hand (s.ledger.settled true), []) := by
  rw [begin, none]

lemma begin_ofAll {s : State} {members : List Nat} (some : members.filterMap s.token? ≠ []) :
    s.begin (.ofAll members) =
      (s.hand ((s.ledger.opened (members.filterMap s.token?).length).1, s.ledger.store.size),
        (members.filterMap s.token?).map (.enlist · s.ledger.aggregates.size)) := by
  rw [begin]
  split
  · rename_i none
    exact absurd none some
  · rfl

end State

namespace Threads

/-- An outcome stays, whatever threads do. -/
lemma Runs.outcome? {allowed : State → Task → Bool} {c d : Threads} {ran : List Task}
    (run : Runs allowed c ran d) (bounds : InBounds c.state c.todo) {t : Token} {success : Bool}
    (known : c.state.ledger.outcome? t = some success) :
    d.state.ledger.outcome? t = some success := by
  induction run with
  | refl => exact known
  | start before step ih => exact (State.begin_turn _ step).outcome?_mono ih
  | @advance ran d before thread fair ih =>
      rcases d.advance_cases thread with ⟨-, same⟩ | ⟨task, rest, -, -, -, state⟩
      · rw [same]
        exact ih
      · rw [state]
        exact (State.step_turn (before.inBounds bounds).handles task).outcome?_mono ih

/-- When no thread has anything to do, nothing is to be done for an aggregate. -/
lemma idle_of_isQuiet {c : Threads} (quiet : c.isQuiet = true) (g : Nat) (r : Token) :
    c.Idle g r := by
  intro task mem
  obtain ⟨stack, mem, here⟩ := List.mem_flatten.mp mem
  have empty := List.all_eq_true.mp quiet stack mem
  rw [List.isEmpty_iff.mp empty] at here
  cases here

/-- A thread that asks for an aggregate has its members enlisted. -/
lemma held_start {c : Threads} (bounds : InBounds c.state c.todo) {members : List Nat}
    (some : members.filterMap c.state.token? ≠ []) :
    Held c.state.ledger.aggregates.size c.state.ledger.store.size
      (members.filterMap c.state.token?) (c.start (.ofAll members)) [] := by
  have exist : ∀ t ∈ members.filterMap c.state.token?, t < c.state.ledger.store.size := by
    intro t mem
    obtain ⟨of, -, found⟩ := List.mem_filterMap.mp mem
    exact bounds.handles.token? found
  have within := bounds.begin (.ofAll members)
  rw [State.begin_ofAll some] at within
  have tally : Tally c.state.ledger.aggregates.size c.state.ledger.store.size
      (members.filterMap c.state.token?)
      (c.state.hand ((c.state.ledger.opened (members.filterMap c.state.token?).length).1,
        c.state.ledger.store.size))
      (c.todo ++ (members.filterMap c.state.token?).map (.enlist · c.state.ledger.aggregates.size))
      ⟨(members.filterMap c.state.token?).length, false, c.state.ledger.store.size⟩ :=
    Tally.start bounds some exist rfl rfl
  have nonzero : (members.filterMap c.state.token?).length ≠ 0 := by simpa using some
  obtain ⟨quiet, pending⟩ := tally.counted.early nonzero
  rw [weigh_congr fun task _ => task.concludes_eq _ _, weigh_add, Nat.add_eq_zero_iff] at quiet
  constructor
  · rw [todo_start, start, State.begin_ofAll some]
    exact within
  · rw [todo_start, start, State.begin_ofAll some]
    exact ⟨_, tally⟩
  · rw [todo_start, start, State.begin_ofAll some]
    exact ⟨by simp [pending], by simp [quiet.2]⟩

/-- **Aggregates are exact.**  Threads have come to `before` in any way; one of them asks for a
completion of `members`, of which some may be resolved and some may occur more than once.  Then
threads go on in any order, but nobody resolves that completion by hand.

Whenever nothing is to be done for the aggregate, the completion says of its members what it should.
It is resolved at most once at any time, and when nothing is to be done by exactly one callback, or
by none if it is pending.  Without members it is a success at once. -/
theorem ofAll_exact {earlier ran : List Task} {before after : Threads} {members : List Nat}
    (reached : Runs (fun _ _ => true) ⟨{}, []⟩ earlier before)
    (run : Runs (fun s task => !task.meddles before.state.ledger.store.size s)
      (before.start (.ofAll members)) ran after) :
    let r := before.state.ledger.store.size
    let g := before.state.ledger.aggregates.size
    let tokens := members.filterMap before.state.token?
    (after.Idle g r → Exact after.state r tokens ∧
      (tokens ≠ [] → weigh (Task.decides g) ran =
        if after.state.ledger.outcome? r = none then 0 else 1)) ∧
    (tokens ≠ [] → weigh (Task.resolves r) ran =
      if after.state.ledger.outcome? r = none then 0 else 1) ∧
    (tokens = [] → after.state.ledger.outcome? r = some true) := by
  have bounds := reached.inBounds inBounds_empty
  have started :
      InBounds (before.start (.ofAll members)).state (before.start (.ofAll members)).todo := by
    rw [todo_start]
    exact bounds.begin _
  by_cases none : members.filterMap before.state.token? = []
  · have known : after.state.ledger.outcome? before.state.ledger.store.size = some true := by
      refine run.outcome? started ?_
      rw [start, State.begin_ofAll_nil none]
      exact (Store.outcome?_settled ..).trans (if_pos rfl)
    refine ⟨fun _ => ⟨⟨?_, ?_, ?_⟩, fun some => absurd none some⟩, fun some => absurd none some,
      fun _ => known⟩
    · simp [known, none]
    · simp [known, none]
    · simp [known, none]
  · have held := held_start bounds none
    obtain ⟨-, ⟨a, tally⟩, performed⟩ := held.run run
    rw [List.nil_append] at performed
    refine ⟨fun idle => ⟨tally.exact idle, fun _ => ?_⟩, fun _ => performed.resolved,
      fun empty => absurd empty none⟩
    have quiet := (weigh_of_not_concerns idle).2
    have decided := performed.decided
    rw [weigh_congr fun task _ => task.concludes_eq _ _, weigh_add, Nat.add_eq_zero_iff] at quiet
    rw [quiet.2, Nat.zero_add, performed.resolved] at decided
    exact decided

/-- Two completions, a clone of the first, and one that has failed. -/
def gathered : Threads where
  state := {
    ledger := { store := ⟨#[.pending [], .pending [], .resolved false]⟩ }
    handles := #[0, 1, 0, 2] }
  tasks := [[], [], [], []]

/-- Two threads resolve members while a third one is enlisting them, and all three count down in
between each other. -/
def crossing : List Move :=
  [.advance 4, .advance 4, .start (.resolve 1 true), .start (.resolve 2 true), .advance 5, .advance 5,
    .advance 4, .advance 6, .advance 6, .advance 5, .advance 6, .advance 4, .advance 4, .advance 6,
    .advance 5, .advance 4, .advance 6, .advance 4, .advance 4, .advance 4, .advance 6, .advance 6,
    .advance 6]

/-- Where they end. -/
def crossed : Threads where
  state := {
    ledger := {
      store := ⟨#[.resolved true, .resolved true, .resolved false, .resolved false]⟩
      aggregates := #[⟨0, true, 3⟩] }
    handles := #[0, 1, 0, 2, 3] }
  tasks := List.replicate 7 []

theorem ofAll_exact_crossing : ∃ ran,
    Runs (fun _ _ => true) ⟨{}, []⟩ [] gathered ∧
      Runs (fun s task => !task.meddles 3 s) (gathered.start (.ofAll [0, 1, 2, 0, 3])) ran crossed ∧
      crossed.isQuiet = true ∧ crossed.state.ledger.outcome? 3 = some false ∧
      Exact crossed.state 3 [0, 1, 0, 0, 2] ∧ weigh (Task.decides 0) ran = 1 := by
  have reached : Runs (fun _ _ => true) ⟨{}, []⟩ [] gathered :=
    runs_of_play [.start .new, .start .new, .start (.clone 0), .start (.settled false)] rfl
  have run : Runs (fun s task => !task.meddles 3 s) (gathered.start (.ofAll [0, 1, 2, 0, 3]))
      [.enlist 0 0, .enlist 1 0, .act (.resolve 1 true), .resolve 1 true, .enlist 0 0,
        .act (.resolve 2 true), .resolve 0 true, .call (.member 0) true, .call (.member 0) true,
        .enlist 0 0, .call (.member 0) true, .countDown 0, .countDown 0, .countDown 0,
        .call (.member 0) true, .enlist 2 0, .call (.member 0) false, .countDown 0, .countDown 0,
        .conclude 0, .resolve 3 false] crossed := runs_of_play crossing rfl
  have quiet := (ofAll_exact reached run).1 (idle_of_isQuiet rfl _ _)
  exact ⟨_, reached, run, rfl, rfl, quiet.1, quiet.2 (by decide)⟩

end Threads

end ProfilePipeline.Completion
