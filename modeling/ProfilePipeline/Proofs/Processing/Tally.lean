import ProfilePipeline.Proofs.Completion.Gathering
import ProfilePipeline.Processing.Cascade

/-!
# An aggregate while a pipeline runs

What is left to be done stands on a stack.  An aggregate is spread over the ledger and that stack:
members that are not resolved yet have a callback waiting, and others a callback on the stack until
it has been counted.  `Tally` is the balance of all this.  It is kept by every task
(`Tally.resolve`, `Tally.count`, `Tally.count_other`) and by whatever only adds to the ledger
(`Tally.extend`, `Tally.register`).

Where nothing is left to be done, the result has the verdict of the members (`Tally.exact`).
-/

namespace ProfilePipeline.Processing

open Completion (Token Waiter Aggregate Ledger Store)

namespace Task

/-- Whether a task counts a member of an aggregate. -/
def counts (g : Nat) : Task → Bool
  | resolve _ _ => false
  | call w _ => w.isMember g

/-- Whether a task counts a member that failed. -/
def countsFailure (g : Nat) : Task → Bool
  | resolve _ _ => false
  | call w success => w.isMember g && !success

/-- Whether a task gives a completion its outcome. -/
def settles (r : Token) : Task → Bool
  | resolve t _ => t == r
  | call _ _ => false

/-- Whether a task is about an aggregate and its result. -/
def concerns (g : Nat) (r : Token) (task : Task) : Bool := task.counts g || task.settles r

/-- Tasks that are about something else neither count a member nor settle the result. -/
lemma idle {g : Nat} {r : Token} {tasks : List Task}
    (h : ∀ task ∈ tasks, task.concerns g r = false) :
    tasks.countP (·.counts g) = 0 ∧ tasks.any (·.countsFailure g) = false ∧
      ∀ success, .resolve r success ∉ tasks := by
  refine ⟨?_, ?_, ?_⟩
  · rw [List.countP_eq_zero]
    intro task mem counts
    exact absurd (h task mem) (by simp [concerns, counts])
  · rw [List.any_eq_false]
    intro task mem failure
    refine absurd (h task mem) ?_
    cases task with
    | resolve t success => simp [countsFailure] at failure
    | call w success =>
        have member : w.isMember g = true := by
          simp only [countsFailure, Bool.and_eq_true] at failure
          exact failure.1
        simp [concerns, counts, member]
  · intro success mem
    exact absurd (h _ mem) (by simp [concerns, settles])

end Task

variable {g : Nat} {r : Token} {ms : List Token} {l l' : Ledger Reaction} {a : Aggregate}
  {task : Task} {todo rest more : List Task}

/-- **The balance of an aggregate** with members `ms` and the result `r`. -/
structure Tally (g : Nat) (r : Token) (ms : List Token) (l : Ledger Reaction) (todo : List Task)
    (a : Aggregate) : Prop where
  found : l.aggregates[g]? = some a
  result : a.result = r
  /-- No other aggregate has the same result. -/
  alone : ∀ (g' : Nat) (a' : Aggregate), g' ≠ g → l.aggregates[g']? = some a' → a'.result ≠ r
  lt : r < l.store.size
  members : ∀ t ∈ ms, t < r
  watched : ∀ t, (l.store.waiting t).countP (·.isMember g) =
    if l.outcome? t = none then ms.count t else 0
  remaining : a.remaining = l.missing ms + todo.countP (·.counts g)
  failed : (a.failed || todo.any (·.countsFailure g)) = l.anyFailed ms
  /-- The result is resolved once nobody is missing, as the aggregate has it. -/
  outcome : l.outcome? r = some (!a.failed) ∧ a.remaining = 0 ∨
    l.outcome? r = none ∧ (a.remaining = 0 → .resolve r (!a.failed) ∈ todo)
  decided : ∀ success, .resolve r success ∈ todo → a.remaining = 0 ∧ success = !a.failed

namespace Tally

/-- **Where nothing is left to be done**, the result is as the members are. -/
theorem exact (h : Tally g r ms l [] a) : l.outcome? r = l.verdict? ms := by
  have remaining := h.remaining
  have failed := h.failed
  rw [List.countP_nil, Nat.add_zero] at remaining
  rw [List.any_nil, Bool.or_false] at failed
  rw [Ledger.verdict?, ← remaining, ← failed]
  rcases h.outcome with ⟨known, none⟩ | ⟨pending, due⟩
  · rw [known, if_pos none]
  · rw [pending, if_neg fun none => absurd (due none) List.not_mem_nil]

/-- Gathering begins a tally. -/
lemma begin (gathered : l.Gathered ms l') (bounded : l.Bounded)
    (lt : ∀ t ∈ ms, t < l.store.size) :
    Tally l.aggregates.size l.store.size ms l' []
      ⟨l.missing ms, l.anyFailed ms, l.store.size⟩ := by
  have old : ∀ t ∈ ms, l'.outcome? t = l.outcome? t := fun t mem =>
    (gathered.outcome? t).trans (if_neg (Nat.ne_of_lt (lt t mem)))
  have verdict : l'.outcome? l.store.size = l.verdict? ms :=
    (gathered.outcome? _).trans (if_pos rfl)
  have none : ms.count l.store.size = 0 :=
    List.count_eq_zero.mpr fun mem => Nat.lt_irrefl _ (lt _ mem)
  refine ⟨?_, rfl, ?_, ?_, lt, ?_, ?_, ?_, ?_, ?_⟩
  · simp [gathered.aggregates]
  · intro g' a' other found
    rw [gathered.aggregates, Array.getElem?_push, if_neg other] at found
    exact Nat.ne_of_lt (bounded.results g' a' found)
  · exact gathered.size ▸ Nat.lt_succ_self _
  · intro t
    have before : (l.store.waiting t).countP (·.isMember l.aggregates.size) = 0 := by
      rw [List.countP_eq_zero]
      intro w mem member
      cases w with
      | own k => simp at member
      | member g =>
          obtain rfl : g = l.aggregates.size := by simpa using member
          exact Nat.lt_irrefl _ (bounded.members t _ mem)
    rw [gathered.waiting, List.countP_append, before, gathered.outcome?, Nat.zero_add]
    by_cases here : t = l.store.size
    · subst here
      simp [none]
    · rw [if_neg here]
      split <;> simp [List.countP_replicate]
  · simp [Ledger.missing_congr old]
  · simp [Ledger.anyFailed_congr old]
  · rw [verdict, Ledger.verdict?]
    split
    · rename_i zero
      exact .inl ⟨rfl, zero⟩
    · rename_i some
      exact .inr ⟨rfl, fun zero => absurd zero some⟩
  · simp

/-- Only some tasks of a stack matter. -/
lemma restack {todo' : List Task} (h : Tally g r ms l todo a)
    (counts : todo'.countP (·.counts g) = todo.countP (·.counts g))
    (failures : todo'.any (·.countsFailure g) = todo.any (·.countsFailure g))
    (settles : ∀ success, .resolve r success ∈ todo' ↔ .resolve r success ∈ todo) :
    Tally g r ms l todo' a :=
  { h with
    remaining := counts ▸ h.remaining
    failed := failures ▸ h.failed
    outcome := h.outcome.imp_right fun ⟨pending, due⟩ =>
      ⟨pending, fun none => (settles _).mpr (due none)⟩
    decided := fun success mem => h.decided success ((settles success).mp mem) }

/-- Tasks that are about something else do not matter. -/
lemma idle_iff (others : ∀ new ∈ more, new.concerns g r = false) :
    Tally g r ms l (more ++ rest) a ↔ Tally g r ms l rest a := by
  obtain ⟨counts, failures, settles⟩ := Task.idle others
  have counts : (more ++ rest).countP (·.counts g) = rest.countP (·.counts g) := by
    rw [List.countP_append, counts, Nat.zero_add]
  have failures : (more ++ rest).any (·.countsFailure g) = rest.any (·.countsFailure g) := by
    rw [List.any_append, failures, Bool.false_or]
  have settles (success : Bool) : .resolve r success ∈ more ++ rest ↔ .resolve r success ∈ rest :=
    List.mem_append.trans (or_iff_right (settles success))
  exact ⟨fun h => h.restack counts.symm failures.symm fun success => (settles success).symm,
    fun h => h.restack counts failures settles⟩

lemma cons_iff (other : task.concerns g r = false) :
    Tally g r ms l (task :: rest) a ↔ Tally g r ms l rest a := by
  have others : ∀ new ∈ [task], new.concerns g r = false := List.forall_mem_singleton.mpr other
  exact idle_iff others

/-- Tasks that are about something else come and go. -/
lemma swap (h : Tally g r ms l (task :: rest) a) (other : task.concerns g r = false)
    (others : ∀ new ∈ more, new.concerns g r = false) : Tally g r ms l (more ++ rest) a :=
  (idle_iff others).mpr ((cons_iff other).mp h)

/-- **What only adds to the ledger** leaves the tally as it is. -/
lemma extend {P : Token → Prop} (h : Tally g r ms l todo a) (ext : l.Extends P l') :
    Tally g r ms l' todo a := by
  have lt : g < l.aggregates.size := (Array.getElem?_eq_some_iff.mp h.found).1
  have old : ∀ t ∈ ms, l'.outcome? t = l.outcome? t := fun t mem =>
    ext.outcome? t (Nat.lt_trans (h.members t mem) h.lt)
  have result := ext.outcome? r h.lt
  refine ⟨?_, h.result, ?_, Nat.lt_of_lt_of_le h.lt ext.size, h.members, ?_, ?_, ?_, ?_, h.decided⟩
  · rw [ext.aggregates g lt]
    exact h.found
  · intro g' a' other found
    by_cases old : g' < l.aggregates.size
    · rw [ext.aggregates g' old] at found
      exact h.alone g' a' other found
    · have := (ext.results g' a' (Nat.le_of_not_lt old) found).1
      exact Nat.ne_of_gt (Nat.lt_of_lt_of_le h.lt this)
  · intro t
    by_cases old : t < l.store.size
    · obtain ⟨more, eq, -, new⟩ := ext.waiting t old
      have none : more.countP (·.isMember g) = 0 := by
        rw [List.countP_eq_zero]
        intro w mem member
        obtain ⟨g', rfl, le, -⟩ := new w mem
        obtain rfl : g' = g := by simpa using member
        exact absurd lt (Nat.not_lt.mpr le)
      rw [eq, List.countP_append, none, ext.outcome? t old]
      exact h.watched t
    · have le := Nat.le_of_not_lt old
      have none : (l'.store.waiting t).countP (·.isMember g) = 0 := by
        rw [List.countP_eq_zero]
        intro w mem member
        cases w with
        | own k => simp at member
        | member g' =>
            obtain rfl : g' = g := by simpa using member
            exact absurd lt (Nat.not_lt.mpr (ext.members t _ le mem).1)
      have absent : ms.count t = 0 := List.count_eq_zero.mpr fun mem =>
        old (Nat.lt_trans (h.members t mem) h.lt)
      simp [none, absent]
  · rw [Ledger.missing_congr old]
    exact h.remaining
  · rw [Ledger.anyFailed_congr old]
    exact h.failed
  · rw [result]
    exact h.outcome

/-- Somebody's own callback waits, which the aggregate has nothing to do with. -/
lemma register (h : Tally g r ms l todo a) (t : Token) (k : Reaction) :
    Tally g r ms (l.register t (.own k)).1 todo a := by
  have outcome (u : Token) : (l.register t (.own k)).1.outcome? u = l.outcome? u :=
    Store.outcome?_register ..
  refine { h with
    lt := Nat.lt_of_lt_of_eq h.lt (Store.size_register ..).symm
    watched := fun u => ?_
    remaining := by rw [Ledger.missing_congr fun u _ => outcome u, h.remaining]
    failed := by rw [Ledger.anyFailed_congr fun u _ => outcome u, h.failed]
    outcome := by rw [outcome]; exact h.outcome }
  rw [outcome, ← h.watched u]
  rcases l.waiting_register_own t k u with same | ⟨-, more⟩
  · rw [same]
  · simp [more]

/-! ## Tasks -/

section

variable {t : Token} {success : Bool}

/-- A completion that is given an outcome again keeps it. -/
lemma resolve_stale (h : Tally g r ms l (.resolve t success :: rest) a)
    (stale : l.outcome? t ≠ none ∨ l.store.size ≤ t) : Tally g r ms l rest a := by
  refine { h with
    remaining := by simpa [Task.counts] using h.remaining
    failed := by simpa [Task.countsFailure] using h.failed
    outcome := h.outcome.imp_right fun ⟨pending, due⟩ => ⟨pending, fun none => ?_⟩
    decided := fun success mem => h.decided success (List.mem_cons_of_mem _ mem) }
  rcases List.mem_cons.mp (due none) with same | mem
  · obtain ⟨rfl, -⟩ := Task.resolve.inj same
    exact absurd stale (by simpa [pending] using h.lt)
  · exact mem

/-- **A completion gets its outcome**, and its callbacks are to be called. -/
lemma resolve (h : Tally g r ms l (.resolve t success :: rest) a) (pending : l.outcome? t = none)
    (lt : t < l.store.size) :
    Tally g r ms { l with store := (l.store.resolve t success).1 }
      ((l.store.waiting t).map (.call · success) ++ rest) a := by
  have outcome (u : Token) : Ledger.outcome? { l with store := (l.store.resolve t success).1 } u =
      if u = t then some success else l.outcome? u := by
    have pending : l.store.outcome? t = none := pending
    exact (Store.outcome?_resolve ..).trans (by simp [lt, pending, Ledger.outcome?])
  have moved :
      ((l.store.waiting t).map (Task.call · success)).countP (·.counts g) = ms.count t := by
    have watched := h.watched t
    rw [if_pos pending] at watched
    rw [List.countP_map, ← watched]
    rfl
  have failing : ((l.store.waiting t).map (Task.call · success)).any (·.countsFailure g) =
      (decide (t ∈ ms) && !success) := by
    have watched := h.watched t
    rw [if_pos pending] at watched
    have some : (l.store.waiting t).any (·.isMember g) = decide (t ∈ ms) := by
      rw [Bool.eq_iff_iff, decide_eq_true_iff, ← List.count_pos_iff, ← watched, List.countP_pos_iff,
        List.any_eq_true]
    rw [List.any_map, ← some]
    cases success <;> simp [Function.comp_def, Task.countsFailure]
  have nothing (b : Bool) : .resolve r b ∉ (l.store.waiting t).map (Task.call · success) := by simp
  refine ⟨h.found, h.result, h.alone, ?_, h.members, ?_, ?_, ?_, ?_, ?_⟩
  · exact (Store.size_resolve ..).symm ▸ h.lt
  · intro u
    rw [Store.waiting_resolve, outcome]
    by_cases here : u = t
    · simp [here]
    · rw [if_neg here, if_neg here]
      exact h.watched u
  · have remaining := h.remaining
    rw [List.countP_cons_of_neg (by simp [Task.counts]),
      Ledger.missing_of_settled pending outcome] at remaining
    rw [remaining, List.countP_append, moved, Nat.add_assoc]
  · have failed := h.failed
    rw [List.any_cons, Task.countsFailure, Bool.false_or] at failed
    rw [Ledger.anyFailed_of_settled pending outcome, ← failed, List.any_append, failing]
    exact Bool.or_left_comm .. ▸ (Bool.or_comm ..)
  · rw [outcome]
    split
    · subst_vars
      obtain ⟨none, rfl⟩ := h.decided success List.mem_cons_self
      exact .inl ⟨rfl, none⟩
    · rename_i apart
      refine h.outcome.imp_right (And.imp_right fun due none => ?_)
      refine List.mem_append_right _ ((List.mem_cons.mp (due none)).resolve_left ?_)
      rintro ⟨⟩
      exact apart rfl
  · intro b mem
    exact h.decided b (List.mem_cons_of_mem _ ((List.mem_append.mp mem).resolve_left (nothing b)))

/-- **A member is counted.**  The last one has the result resolved. -/
lemma count (h : Tally g r ms l (.call (.member g) success :: rest) a) {counted : Aggregate}
    (eq : counted = ⟨a.remaining - 1, a.failed || !success, r⟩) :
    Tally g r ms { l with aggregates := l.aggregates.setIfInBounds g counted }
      ((if a.remaining = 1 then [.resolve r (!counted.failed)] else []) ++ rest) counted := by
  have lt : g < l.aggregates.size := (Array.getElem?_eq_some_iff.mp h.found).1
  have remaining := h.remaining
  rw [List.countP_cons_of_pos (by simp [Task.counts])] at remaining
  have failed := h.failed
  rw [List.any_cons, Task.countsFailure, Completion.Waiter.isMember_member, BEq.rfl,
    Bool.true_and] at failed
  obtain ⟨pending, -⟩ := h.outcome.resolve_left fun ⟨_, zero⟩ => by omega
  have undecided (b : Bool) : .resolve r b ∉ rest := fun mem => by
    have := (h.decided b (List.mem_cons_of_mem _ mem)).1
    omega
  subst eq
  refine ⟨?_, rfl, ?_, h.lt, h.members, h.watched, ?_, ?_, .inr ⟨pending, ?_⟩, ?_⟩
  · simp [lt]
  · intro g' a' other found
    rw [Array.getElem?_setIfInBounds_ne (Ne.symm other)] at found
    exact h.alone g' a' other found
  · have none : (if a.remaining = 1 then [Task.resolve r !(a.failed || !success)] else []).countP
        (·.counts g) = 0 := by
      split <;> simp [Task.counts]
    rw [List.countP_append, none, Nat.zero_add]
    exact Nat.sub_eq_of_eq_add (remaining.trans (Nat.add_assoc ..).symm)
  · have none : (if a.remaining = 1 then [Task.resolve r !(a.failed || !success)] else []).any
        (·.countsFailure g) = false := by
      split <;> simp [Task.countsFailure]
    rw [List.any_append, none, Bool.false_or, Bool.or_assoc]
    exact failed
  · intro zero
    have last : a.remaining = 1 := by
      dsimp only at zero
      omega
    simp [last]
  · intro b mem
    rcases List.mem_append.mp mem with mem | mem
    · split at mem
      · rename_i last
        obtain ⟨-, rfl⟩ := Task.resolve.inj (List.mem_singleton.mp mem)
        exact ⟨Nat.sub_eq_zero_of_le (Nat.le_of_eq last), rfl⟩
      · exact absurd mem List.not_mem_nil
    · exact absurd mem (undecided b)

/-- A member of another aggregate is counted. -/
lemma count_other {g' : Nat} (counted : Aggregate) (h : Tally g r ms l todo a) (other : g' ≠ g)
    (same : ∀ a', l.aggregates[g']? = some a' → counted.result = a'.result) :
    Tally g r ms { l with aggregates := l.aggregates.setIfInBounds g' counted } todo a := by
  refine { h with found := ?_, alone := ?_ }
  · rw [Array.getElem?_setIfInBounds_ne other]
    exact h.found
  · intro g'' a' apart found
    by_cases here : g' = g''
    · subst here
      obtain ⟨lt, -⟩ := Array.getElem?_eq_some_iff.mp found
      have lt : g' < l.aggregates.size := by simpa using lt
      have found' : l.aggregates[g']? = some l.aggregates[g'] := Array.getElem?_eq_getElem lt
      obtain rfl : a' = counted := by simpa [lt, eq_comm] using found
      rw [same _ found']
      exact h.alone g' _ apart found'
    · rw [Array.getElem?_setIfInBounds_ne here] at found
      exact h.alone g'' a' apart found

end

end Tally

end ProfilePipeline.Processing
