import Mathlib.Tactic.Common
import ProfilePipeline.Proofs.Completion.Threads

/-!
# How an aggregate counts

A callback of a member takes three steps: it notes a failure, counts down, and, if it was the last
to do so, reads the note and resolves the result.  Any number of them may be going on at once, while
other members are still being enlisted.

**Counting.**  Whoever has yet to count down is found somewhere: it is about to be enlisted, waits
in the store, is about to be called, or has noted its outcome.  The count says how many these are,
so it becomes zero once, when nobody is left (`Counted`).

**Notes.**  A failure is noted before the member that failed counts down.  So when the count is zero
the note says whether a member failed (`Informed`).

Each of the aggregate's own tasks keeps both, and the tasks of others leave them as they are
(`Counted.frame`, `Informed.frame`).
-/

namespace ProfilePipeline.Completion

/-- One for a callback that counts down an aggregate. -/
def Waiter.counts (g : Nat) : Waiter Note → Nat
  | member g' => if g' = g then 1 else 0
  | own _ => 0

namespace Task

/-- One for a task that has yet to count down an aggregate. -/
def counts (g : Nat) : Task → Nat
  | enlist _ g' | countDown g' => if g' = g then 1 else 0
  | call callback _ => callback.counts g
  | _ => 0

/-- One for a task that is about to resolve the result of an aggregate. -/
def concludes (g : Nat) (r : Token) : Task → Nat
  | conclude g' => if g' = g then 1 else 0
  | resolve t _ => if t = r then 1 else 0
  | _ => 0

/-- Whether a task is part of what an aggregate does. -/
def Concerns (g : Nat) (r : Token) (task : Task) : Prop := task.counts g + task.concludes g r ≠ 0

section

variable {g g' : Nat} {r t : Token} {success : Bool}

@[simp] lemma concerns_resolve_iff : (resolve t success).Concerns g r ↔ t = r := by
  simp [Concerns, counts, concludes]

@[simp] lemma concerns_member_iff : (call (.member g') success).Concerns g r ↔ g' = g := by
  simp [Concerns, counts, concludes, Waiter.counts]

@[simp] lemma concerns_countDown_iff : (countDown g').Concerns g r ↔ g' = g := by
  simp [Concerns, counts, concludes]

@[simp] lemma concerns_conclude_iff : (conclude g').Concerns g r ↔ g' = g := by
  simp [Concerns, counts, concludes]

@[simp] lemma concerns_enlist_iff : (enlist t g').Concerns g r ↔ g' = g := by
  simp [Concerns, counts, concludes]

/-- An aggregate has nothing to do with the callbacks of programs. -/
@[simp] lemma not_concerns_own (note : Note) : ¬ (call (.own note) success).Concerns g r := by
  simp [Concerns, counts, concludes, Waiter.counts]

@[simp] lemma not_concerns_act (a : Act) : ¬ (act a).Concerns g r := by
  simp [Concerns, counts, concludes]

end

end Task

/-- An aggregate and what is left to be done for it.  The result is resolved, or about to be, once
the count is zero. -/
structure Counted (g : Nat) (r : Token) (s : State) (todo : List Task) (a : Aggregate) : Prop where
  found : s.ledger.aggregates[g]? = some a
  result : a.result = r
  /-- No other aggregate has this result. -/
  alone : ∀ (g' : Nat) (a' : Aggregate), g' ≠ g → s.ledger.aggregates[g']? = some a' → a'.result ≠ r
  missing : a.remaining =
    weigh (Task.counts g) todo + s.ledger.store.weight (Waiter.counts g)
  concluding : weigh (Task.concludes g r) todo + (if s.ledger.outcome? r = none then 0 else 1) =
    if a.remaining = 0 then 1 else 0
  verdict : ∀ success, .resolve r success ∈ todo ∨ s.ledger.outcome? r = some success →
    success = a.verdict

/-- What is known of the members of an aggregate, and who is about to tell. -/
structure Informed (g : Nat) (members : List Token) (s : State) (todo : List Task)
    (failed : Bool) : Prop where
  blamed : failed = true → ∃ t ∈ members, s.ledger.outcome? t = some false
  told : ∀ t ∈ members, s.ledger.outcome? t = some false →
    failed = true ∨ .enlist t g ∈ todo ∨ .call (.member g) false ∈ todo
  watched : ∀ t ∈ members, s.ledger.outcome? t = none →
    .enlist t g ∈ todo ∨ s.ledger.store.WaitsAt t (.member g)
  enlisted : ∀ t, .enlist t g ∈ todo → t ∈ members
  waiting : ∀ t, s.ledger.store.WaitsAt t (.member g) → t ∈ members
  called : ∀ success, .call (.member g) success ∈ todo →
    ∃ t ∈ members, s.ledger.outcome? t = some success

/-! ## Tasks of others -/

/-- Two lists of tasks in which an aggregate has the same to do. -/
structure Alike (g : Nat) (r : Token) (todo todo' : List Task) : Prop where
  counts : weigh (Task.counts g) todo' = weigh (Task.counts g) todo
  concludes : weigh (Task.concludes g r) todo' = weigh (Task.concludes g r) todo
  mem : ∀ task : Task, task.Concerns g r → (task ∈ todo' ↔ task ∈ todo)

section

variable {g : Nat} {r : Token} {s s' : State} {todo todo' rest more : List Task} {a : Aggregate}
  {members : List Token} {failed : Bool}

lemma weigh_of_not_concerns (idle : ∀ task ∈ todo, ¬ task.Concerns g r) :
    weigh (Task.counts g) todo = 0 ∧ weigh (Task.concludes g r) todo = 0 := by
  constructor
  · refine weigh_eq_zero_iff.mpr fun task mem => ?_
    have := idle task mem
    simp only [Task.Concerns] at this
    omega
  · refine weigh_eq_zero_iff.mpr fun task mem => ?_
    have := idle task mem
    simp only [Task.Concerns] at this
    omega

lemma Alike.add (idle : ∀ task ∈ more, ¬ task.Concerns g r) : Alike g r todo (more ++ todo) := by
  obtain ⟨counts, concludes⟩ := weigh_of_not_concerns idle
  refine ⟨by simp [counts], by simp [concludes], fun task concerns => ?_⟩
  rw [List.mem_append]
  exact or_iff_right fun mem => idle task mem concerns

lemma Alike.symm (alike : Alike g r todo todo') : Alike g r todo' todo :=
  ⟨alike.counts.symm, alike.concludes.symm, fun task concerns => (alike.mem task concerns).symm⟩

lemma Alike.trans {todo'' : List Task} (alike : Alike g r todo todo') (h : Alike g r todo' todo'') :
    Alike g r todo todo'' :=
  ⟨h.counts.trans alike.counts, h.concludes.trans alike.concludes, fun task concerns =>
    (h.mem task concerns).trans (alike.mem task concerns)⟩

lemma Alike.of_perm (perm : todo.Perm todo') : Alike g r todo todo' :=
  ⟨weigh_perm _ perm.symm, weigh_perm _ perm.symm, fun _ _ => perm.mem_iff.symm⟩

/-- A task of others leaves tasks of others. -/
lemma Alike.replace {task : Task} (idle : ¬ task.Concerns g r)
    (others : ∀ new ∈ more, ¬ new.Concerns g r) : Alike g r (task :: rest) (more ++ rest) := by
  have one : Alike g r rest ([task] ++ rest) := Alike.add (by simpa using idle)
  exact one.symm.trans (.add others)

lemma concerns_enlist (t : Token) : (Task.enlist t g).Concerns g r := by simp

lemma concerns_call (success : Bool) : (Task.call (.member g) success).Concerns g r := by simp

lemma concerns_resolve (success : Bool) : (Task.resolve r success).Concerns g r := by simp

/-- What others do does not matter. -/
lemma Counted.frame (h : Counted g r s todo a) (alike : Alike g r todo todo')
    (found : s'.ledger.aggregates[g]? = s.ledger.aggregates[g]?)
    (alone : ∀ (g' : Nat) (a' : Aggregate), g' ≠ g → s'.ledger.aggregates[g']? = some a' →
      a'.result ≠ r)
    (outcome? : s'.ledger.outcome? r = s.ledger.outcome? r)
    (weight : s'.ledger.store.weight (Waiter.counts g) = s.ledger.store.weight (Waiter.counts g)) :
    Counted g r s' todo' a where
  found := found.trans h.found
  result := h.result
  alone := alone
  missing := by rw [alike.counts, weight, h.missing]
  concluding := by rw [alike.concludes, outcome?, h.concluding]
  verdict success := by
    rw [alike.mem _ (concerns_resolve success), outcome?]
    exact h.verdict success

lemma Informed.frame (h : Informed g members s todo failed) (alike : Alike g r todo todo')
    (outcome? : ∀ t ∈ members, s'.ledger.outcome? t = s.ledger.outcome? t)
    (waits : ∀ t, s'.ledger.store.WaitsAt t (.member g) ↔ s.ledger.store.WaitsAt t (.member g)) :
    Informed g members s' todo' failed where
  blamed noted := by
    obtain ⟨t, mem, known⟩ := h.blamed noted
    exact ⟨t, mem, (outcome? t mem).trans known⟩
  told t mem known := by
    rw [outcome? t mem] at known
    rw [alike.mem _ (concerns_enlist t), alike.mem _ (concerns_call false)]
    exact h.told t mem known
  watched t mem pending := by
    rw [outcome? t mem] at pending
    rw [alike.mem _ (concerns_enlist t), waits]
    exact h.watched t mem pending
  enlisted t mem := h.enlisted t ((alike.mem _ (concerns_enlist t)).mp mem)
  waiting t waiting := h.waiting t ((waits t).mp waiting)
  called success mem := by
    obtain ⟨t, mem, known⟩ := h.called success ((alike.mem _ (concerns_call success)).mp mem)
    exact ⟨t, mem, (outcome? t mem).trans known⟩

/-! ## Its own tasks -/

/-- As long as the count is not zero nobody resolves the result. -/
lemma Counted.early (h : Counted g r s todo a) (missing : a.remaining ≠ 0) :
    weigh (Task.concludes g r) todo = 0 ∧ s.ledger.outcome? r = none := by
  have none := h.concluding
  rw [if_neg missing, Nat.add_eq_zero_iff] at none
  refine ⟨none.1, ?_⟩
  by_contra known
  simp [known] at none

lemma Counted.early_verdict (h : Counted g r s todo a) (missing : a.remaining ≠ 0)
    (success : Bool) :
    ¬ (.resolve r success ∈ todo ∨ s.ledger.outcome? r = some success) := by
  obtain ⟨none, pending⟩ := h.early missing
  rintro (mem | known)
  · have := weigh_eq_zero_iff.mp none _ mem
    simp [Task.concludes] at this
  · rw [pending] at known
    cases known

lemma getElem?_modifyAggregate (s : State) (g g' : Nat) (f : Aggregate → Aggregate) :
    (s.modifyAggregate g f).ledger.aggregates[g']? =
      if g = g' then s.ledger.aggregates[g']?.map f else s.ledger.aggregates[g']? :=
  Array.getElem?_modify

@[simp] lemma outcome?_modifyAggregate (s : State) (g : Nat) (f : Aggregate → Aggregate)
    (t : Token) : (s.modifyAggregate g f).ledger.outcome? t = s.ledger.outcome? t := rfl

/-- Other aggregates keep their results. -/
lemma Counted.alone_step (h : Counted g r s todo a) (task : Task) (g' : Nat) (a' : Aggregate)
    (other : g' ≠ g) (found : (s.step task).1.ledger.aggregates[g']? = some a') :
    a'.result ≠ r := by
  obtain ⟨before, known, same⟩ := (s.step_aggregates task).2 g' a' found
  rw [same]
  exact h.alone g' before other known

/-- A member that is called notes its outcome. -/
lemma Counted.call {success : Bool} (h : Counted g r s (.call (.member g) success :: rest) a) :
    Counted g r (s.modifyAggregate g (·.note success)) (.countDown g :: rest) (a.note success) := by
  have missing := h.missing
  simp only [weigh_cons, Task.counts, Waiter.counts, ↓reduceIte] at missing
  have nonzero : a.remaining ≠ 0 := by omega
  refine ⟨?_, h.result, h.alone_step (.call (.member g) success), ?_, h.concluding, ?_⟩
  · simp [getElem?_modifyAggregate, h.found]
  · simp only [weigh_cons, Task.counts, ↓reduceIte]
    exact missing
  · intro success' told
    refine absurd ?_ (h.early_verdict nonzero success')
    simpa using told

/-- It counts down; whoever counts down to zero is to resolve the result. -/
lemma Counted.countDown (h : Counted g r s (.countDown g :: rest) a) :
    Counted g r (s.modifyAggregate g (·.countDown))
      ((if a.isLast then [.conclude g] else []) ++ rest) a.countDown := by
  have missing := h.missing
  simp only [weigh_cons, Task.counts, ↓reduceIte] at missing
  have nonzero : a.remaining ≠ 0 := by omega
  obtain ⟨nobody, pending⟩ := h.early nonzero
  refine ⟨?_, h.result, h.alone_step (.countDown g), ?_, ?_, ?_⟩
  · simp [getElem?_modifyAggregate, h.found]
  · have idle : weigh (Task.counts g) (if a.isLast then [.conclude g] else []) = 0 := by
      split <;> simp [Task.counts]
    rw [weigh_append, idle]
    change a.remaining - 1 =
      0 + weigh (Task.counts g) rest + s.ledger.store.weight (Waiter.counts g)
    omega
  · simp only [weigh_cons, Task.concludes, Nat.zero_add] at nobody
    rw [weigh_append, nobody, outcome?_modifyAggregate, pending, Aggregate.isLast,
      Aggregate.countDown]
    by_cases last : a.remaining = 1
    · simp [last, Task.concludes]
    · have more : a.remaining - 1 ≠ 0 := by omega
      simp [last, more]
  · rintro success (mem | known)
    · refine absurd (.inl ?_) (h.early_verdict nonzero success)
      rcases List.mem_append.mp mem with mem | mem
      · split at mem <;> simp at mem
      · exact List.mem_cons_of_mem _ mem
    · exact absurd (.inr known) (h.early_verdict nonzero success)

/-- It resolves the result by what was noted. -/
lemma Counted.conclude (h : Counted g r s (.conclude g :: rest) a) :
    Counted g r s (.resolve r a.verdict :: rest) a := by
  refine ⟨h.found, h.result, h.alone, ?_, ?_, ?_⟩
  · simpa [Task.counts] using h.missing
  · simpa [Task.concludes] using h.concluding
  · rintro success (mem | known)
    · rcases List.mem_cons.mp mem with new | mem
      · cases new
        rfl
      · exact h.verdict success (.inl (List.mem_cons_of_mem _ mem))
    · exact h.verdict success (.inr known)

lemma weigh_calls (w : Task → Nat) (v : Waiter Note → Nat) (success : Bool)
    (same : ∀ k, w (.call k success) = v k) (waiters : List (Waiter Note)) :
    weigh w (waiters.map (.call · success)) = weigh v waiters := by
  rw [weigh_map]
  exact weigh_congr fun k _ => same k

/-- A completion that is resolved hands on to its members' callbacks. -/
lemma Counted.resolve {t : Token} {success : Bool}
    (h : Counted g r s (.resolve t success :: rest) a)
    (lt : t < s.ledger.store.size) (pending : s.ledger.outcome? t = none) :
    Counted g r (s.step (.resolve t success)).1 ((s.step (.resolve t success)).2 ++ rest) a := by
  have after : ∀ u, (s.step (.resolve t success)).1.ledger.outcome? u =
      if u = t then some success else s.ledger.outcome? u := fun u =>
    (Store.outcome?_resolve ..).trans (if_congr (and_iff_left ⟨lt, pending⟩) rfl rfl)
  have counts := weigh_calls (Task.counts g) (Waiter.counts g) success (fun _ => rfl)
    (s.ledger.store.resolve t success).2
  have idle : weigh (Task.concludes g r) ((s.ledger.store.resolve t success).2.map
      (.call · success)) = 0 := by
    rw [weigh_calls _ (fun _ => 0) success (fun _ => rfl)]
    exact weigh_eq_zero_iff.mpr fun _ _ => rfl
  refine ⟨h.found, h.result, h.alone, ?_, ?_, ?_⟩
  · have moved := Store.weight_resolve (Waiter.counts g) s.ledger.store t success
    have missing := h.missing
    simp only [weigh_cons, Task.counts, Nat.zero_add] at missing
    simp only [State.step, weigh_append, counts]
    omega
  · have concluding := h.concluding
    rw [after]
    simp only [State.step, weigh_append, idle, weigh_cons, Task.concludes] at concluding ⊢
    by_cases here : r = t
    · subst here
      simp only [pending, ↓reduceIte, reduceCtorEq] at concluding ⊢
      omega
    · have elsewhere : ¬ t = r := fun e => here e.symm
      simpa [here, elsewhere] using concluding
  · rintro success' (mem | known)
    · refine h.verdict success' (.inl ?_)
      rcases List.mem_append.mp mem with mem | mem
      · simp [State.step] at mem
      · exact List.mem_cons_of_mem _ mem
    · rw [after] at known
      split at known
      · rename_i here
        obtain rfl := Option.some.inj known
        refine h.verdict success (.inl ?_)
        simp [here]
      · exact h.verdict success' (.inr known)

/-- A member that is enlisted waits, or is called at once. -/
lemma Counted.enlist {t : Token} (h : Counted g r s (.enlist t g :: rest) a)
    (lt : t < s.ledger.store.size) :
    Counted g r (s.register t (.member g)).1 ((s.register t (.member g)).2 ++ rest) a := by
  have missing := h.missing
  have concluding := h.concluding
  simp only [weigh_cons, Task.counts, ↓reduceIte] at missing
  simp only [weigh_cons, Task.concludes, Nat.zero_add] at concluding
  cases known : s.ledger.store.outcome? t with
  | some success =>
      have now : s.register t (.member g) = (s, [.call (.member g) success]) := by
        simp only [State.register, Ledger.register, Store.register_of_outcome? _ known]
      rw [now]
      refine ⟨h.found, h.result, h.alone, ?_, ?_, ?_⟩
      · simpa [Task.counts, Waiter.counts] using missing
      · simpa [Task.concludes] using concluding
      · rintro success' (mem | known)
        · exact h.verdict success' (.inl (by simpa using mem))
        · exact h.verdict success' (.inr known)
  | none =>
      have later : (s.register t (.member g)).2 = [] := by
        simp only [State.register, Ledger.register, Store.register_snd _ known]
      have kept := Store.weight_register_eq (Waiter.counts g) (.member g) lt
      simp only [Store.register_snd _ known, Waiter.counts, ↓reduceIte] at kept
      have outcome? : (s.register t (.member g)).1.ledger.outcome? r = s.ledger.outcome? r :=
        Store.outcome?_register ..
      rw [later, List.nil_append]
      refine ⟨h.found, h.result, h.alone, ?_, ?_, ?_⟩
      · simp only [State.register, Ledger.register]
        omega
      · rw [outcome?]
        exact concluding
      · rw [outcome?]
        rintro success' (mem | known)
        · exact h.verdict success' (.inl (List.mem_cons_of_mem _ mem))
        · exact h.verdict success' (.inr known)

/-- A task that neither enlists members nor calls them leaves what is known as it is. -/
lemma Informed.keep (h : Informed g members s todo failed)
    (outcome? : ∀ t, s'.ledger.outcome? t = s.ledger.outcome? t)
    (waits : ∀ t, s'.ledger.store.WaitsAt t (.member g) ↔ s.ledger.store.WaitsAt t (.member g))
    (enlists : ∀ t, .enlist t g ∈ todo' ↔ .enlist t g ∈ todo)
    (calls : ∀ success, .call (.member g) success ∈ todo' ↔ .call (.member g) success ∈ todo) :
    Informed g members s' todo' failed where
  blamed := by simpa only [outcome?] using h.blamed
  told := by simpa only [outcome?, enlists, calls] using h.told
  watched := by simpa only [outcome?, enlists, waits] using h.watched
  enlisted := by simpa only [enlists] using h.enlisted
  waiting := by simpa only [waits] using h.waiting
  called := by simpa only [outcome?, calls] using h.called

lemma Informed.call {success : Bool}
    (h : Informed g members s (.call (.member g) success :: rest) failed) :
    Informed g members (s.modifyAggregate g (·.note success)) (.countDown g :: rest)
      (failed || !success) where
  blamed noted := by
    cases success with
    | false => exact h.called false (by simp)
    | true => exact h.blamed (by simpa using noted)
  told t mem known := by
    rcases h.told t mem known with noted | enlist | call
    · exact .inl (by simp [noted])
    · exact .inr (.inl (by simpa using enlist))
    · rcases List.mem_cons.mp call with same | call
      · cases same
        exact .inl (by simp)
      · exact .inr (.inr (by simp [call]))
  watched t mem pending := by
    rcases h.watched t mem pending with enlist | waits
    · exact .inl (by simpa using enlist)
    · exact .inr waits
  enlisted t mem := h.enlisted t (by simpa using mem)
  waiting := h.waiting
  called success' mem := h.called success' (List.mem_cons_of_mem _ (by simpa using mem))

lemma Informed.resolve {t : Token} {success : Bool}
    (h : Informed g members s (.resolve t success :: rest) failed)
    (lt : t < s.ledger.store.size) (pending : s.ledger.outcome? t = none) :
    Informed g members (s.step (.resolve t success)).1
      ((s.step (.resolve t success)).2 ++ rest) failed := by
  have after : ∀ u, (s.step (.resolve t success)).1.ledger.outcome? u =
      if u = t then some success else s.ledger.outcome? u := fun u =>
    (Store.outcome?_resolve ..).trans (if_congr (and_iff_left ⟨lt, pending⟩) rfl rfl)
  have keeps : ∀ u found, s.ledger.outcome? u = some found →
      (s.step (.resolve t success)).1.ledger.outcome? u = some found := by
    intro u found known
    rw [after, if_neg, known]
    rintro rfl
    simp [pending] at known
  have waits : ∀ u, (s.step (.resolve t success)).1.ledger.store.WaitsAt u (.member g) ↔
      u ≠ t ∧ s.ledger.store.WaitsAt u (.member g) := fun u => Store.waitsAt_resolve_iff
  have made : ∀ task, task ∈ (s.step (.resolve t success)).2 ↔
      ∃ k, s.ledger.store.WaitsAt t k ∧ .call k success = task := by
    simp [State.step, Store.resolve_snd, Store.mem_waiting]
  have kept : ∀ task ∈ rest, task ∈ (s.step (.resolve t success)).2 ++ rest :=
    fun task mem => List.mem_append_right _ mem
  constructor
  · intro noted
    obtain ⟨u, mem, known⟩ := h.blamed noted
    exact ⟨u, mem, keeps u false known⟩
  · intro u mem known
    rw [after] at known
    split at known
    · -- A member has just failed: its callback is on its way, or it is yet to be enlisted.
      rename_i here
      obtain rfl := Option.some.inj known
      subst here
      rcases h.watched u mem pending with enlist | waiting
      · exact .inr (.inl (kept _ (by simpa using enlist)))
      · exact .inr (.inr (List.mem_append_left _ ((made _).mpr ⟨_, waiting, rfl⟩)))
    · rcases h.told u mem known with noted | enlist | call
      · exact .inl noted
      · exact .inr (.inl (kept _ (by simpa using enlist)))
      · exact .inr (.inr (kept _ (by simpa using call)))
  · intro u mem known
    rw [after] at known
    split at known
    · cases known
    · rename_i elsewhere
      rcases h.watched u mem known with enlist | waiting
      · exact .inl (kept _ (by simpa using enlist))
      · exact .inr ((waits u).mpr ⟨elsewhere, waiting⟩)
  · intro u mem
    rcases List.mem_append.mp mem with new | old
    · obtain ⟨k, -, other⟩ := (made _).mp new
      cases other
    · exact h.enlisted u (List.mem_cons_of_mem _ old)
  · intro u waiting
    exact h.waiting u ((waits u).mp waiting).2
  · intro success' mem
    rcases List.mem_append.mp mem with new | old
    · obtain ⟨k, waiting, same⟩ := (made _).mp new
      cases same
      exact ⟨t, h.waiting t waiting, by simp [after]⟩
    · obtain ⟨u, mem, known⟩ := h.called success' (List.mem_cons_of_mem _ old)
      exact ⟨u, mem, keeps u success' known⟩

lemma Informed.enlist {t : Token} (h : Informed g members s (.enlist t g :: rest) failed)
    (lt : t < s.ledger.store.size) :
    Informed g members (s.register t (.member g)).1 ((s.register t (.member g)).2 ++ rest)
      failed := by
  have member : t ∈ members := h.enlisted t List.mem_cons_self
  cases known : s.ledger.store.outcome? t with
  | some success =>
      have now : s.register t (.member g) = (s, [.call (.member g) success]) := by
        simp only [State.register, Ledger.register, Store.register_of_outcome? _ known]
      rw [now]
      refine ⟨h.blamed, ?_, ?_, ?_, h.waiting, ?_⟩
      · intro u mem failure
        rcases h.told u mem failure with noted | enlist | call
        · exact .inl noted
        · rcases List.mem_cons.mp enlist with same | enlist
          · cases same
            obtain rfl : success = false := Option.some.inj (known.symm.trans failure)
            exact .inr (.inr (by simp))
          · exact .inr (.inl (by simp [enlist]))
        · have later : .call (.member g) false ∈ rest := by simpa using call
          exact .inr (.inr (List.mem_append_right _ later))
      · intro u mem pending
        rcases h.watched u mem pending with enlist | waits
        · rcases List.mem_cons.mp enlist with same | enlist
          · cases same
            exact absurd (known.symm.trans pending) (by simp)
          · exact .inl (by simp [enlist])
        · exact .inr waits
      · intro u mem
        exact h.enlisted u (List.mem_cons_of_mem _ (by simpa using mem))
      · intro success' mem
        rcases List.mem_append.mp mem with new | old
        · cases List.mem_singleton.mp new
          exact ⟨t, member, known⟩
        · exact h.called success' (List.mem_cons_of_mem _ old)
  | none =>
      have later : (s.register t (.member g)).2 = [] := by
        simp only [State.register, Ledger.register, Store.register_snd _ known]
      have outcome? : ∀ u, (s.register t (.member g)).1.ledger.outcome? u = s.ledger.outcome? u :=
        fun u => Store.outcome?_register ..
      have waits : ∀ u, (s.register t (.member g)).1.ledger.store.WaitsAt u (.member g) ↔
          s.ledger.store.WaitsAt u (.member g) ∨ u = t := by
        intro u
        refine (Store.waitsAt_register_iff lt known).trans ?_
        simp
      rw [later, List.nil_append]
      refine ⟨?_, ?_, ?_, ?_, ?_, ?_⟩
      · simpa only [outcome?] using h.blamed
      · intro u mem failure
        rw [outcome?] at failure
        rcases h.told u mem failure with noted | enlist | call
        · exact .inl noted
        · rcases List.mem_cons.mp enlist with same | enlist
          · cases same
            exact absurd (known.symm.trans failure) (by simp)
          · exact .inr (.inl enlist)
        · exact .inr (.inr (by simpa using call))
      · intro u mem pending
        rw [outcome?] at pending
        rw [waits]
        rcases h.watched u mem pending with enlist | waiting
        · rcases List.mem_cons.mp enlist with same | enlist
          · cases same
            exact .inr (.inr rfl)
          · exact .inl enlist
        · exact .inr (.inl waiting)
      · intro u mem
        exact h.enlisted u (List.mem_cons_of_mem _ mem)
      · intro u waiting
        rcases (waits u).mp waiting with waiting | rfl
        · exact h.waiting u waiting
        · exact member
      · intro success' mem
        simpa only [outcome?] using h.called success' (List.mem_cons_of_mem _ mem)

end

end ProfilePipeline.Completion
