import Mathlib.Data.List.Nodup
import ProfilePipeline.Proofs.Processing.Trail

/-!
# Aggregates that lose no member

As long as no task panics, every aggregate is in balance (`Tally.turn`).  A panic takes everything
with it that is left to be done on the stack, callbacks of aggregates included.  An aggregate over
completions that were untouched when it was made is safe from that (`State.Watched`): its callbacks
are the first to be called, so at any time at most one task is about it, the next one, and those
tasks do not panic.

* **`State.Watched.advance`** — every small step keeps such an aggregate in balance.
* `State.Watched.exact` — so, whatever happens, its result is as its members are.
-/

namespace ProfilePipeline.Processing

open Completion (Token Waiter Aggregate Ledger Store)

variable {s s' : State} {t : Token} {n g : Nat} {r : Token} {ms : List Token} {task : Task}
  {todo todo' rest more : List Task}

namespace Tally

variable {a : Aggregate}

/-- Those who claim a completion are not about the result of an aggregate. -/
lemma concerns_claim (h : Tally g r ms s.exports.ledger todo a) (free : s.Free t)
    (claim : task.claim? = some t) : task.concerns g r = false :=
  Task.concerns_of_claim? claim (h.result ▸ free.apart g a h.found)

/-- **Every task that does not panic keeps the balance.** -/
theorem turn (h : Tally g r ms s.exports.ledger (task :: rest) a)
    (orderly : s.Orderly (task :: rest)) (turn : s.Turn n task s' more) :
    ∃ a', Tally g r ms s'.exports.ledger (more ++ rest) a' := by
  cases turn with
  | stale stale => exact ⟨a, h.resolve_stale stale⟩
  | resolved pending lt => exact ⟨a, h.resolve pending lt⟩
  | @absent g' success none =>
      have apart : g' ≠ g := by
        rintro rfl
        exact absurd (none.symm.trans h.found) (by simp)
      have other : Task.concerns g r (.call (.member g') success) = false := by
        simpa [Task.concerns, Task.counts, Task.settles] using apart
      exact ⟨a, (cons_iff other).mp h⟩
  | @counted g' success a' counted found tallied =>
      by_cases own : g' = g
      · subst own
        obtain rfl : a' = a := Option.some.inj (found.symm.trans h.found)
        have result := h.result
        subst result
        exact ⟨counted, h.count tallied⟩
      · have other : Task.concerns g r (.call (.member g') success) = false := by
          simpa [Task.concerns, Task.counts, Task.settles] using own
        have made : ∀ new ∈ (if a'.remaining = 1 then [Task.resolve a'.result !counted.failed]
            else []), new.concerns g r = false := by
          intro new mem
          split at mem
          · obtain rfl := List.mem_singleton.mp mem
            exact Task.concerns_of_claim? rfl (Ne.symm (h.alone g' a' own found))
          · exact absurd mem List.not_mem_nil
        have h := h.count_other counted own fun a'' found' => by
          rw [tallied, Option.some.inj (found.symm.trans found')]
        exact ⟨a, h.swap other made⟩
  | @grown k success _ _ grows made =>
      refine ⟨a, (h.extend grows.ledger).swap rfl fun new mem => ?_⟩
      obtain ⟨claim, some⟩ := made new mem
      obtain ⟨t, done⟩ := Option.ne_none_iff_exists'.mp some
      exact h.concerns_claim (orderly.todo k success List.mem_cons_self t done) (claim.trans done)

end Tally

/-! ## Aggregates as long as nobody panics -/

/-- **A completion gathers others**: it is the result of an aggregate in balance, or there was
nothing to gather. -/
def Gathers (r : Token) (ms : List Token) (s : State) (todo : List Task) : Prop :=
  ms = [] ∧ s.outcome? r = some true ∨ ∃ g a, Tally g r ms s.exports.ledger todo a

namespace Gathers

/-- What only adds something keeps aggregates. -/
lemma grows {P : Token → Prop} (h : Gathers r ms s todo) (lt : r < s.size)
    (ext : s.exports.ledger.Extends P s'.exports.ledger) : Gathers r ms s' todo := by
  rcases h with ⟨none, success⟩ | ⟨g, a, tally⟩
  · exact .inl ⟨none, (ext.outcome? r lt).trans success⟩
  · exact .inr ⟨g, a, tally.extend ext⟩

/-- So do tasks that do not panic. -/
lemma step (h : Gathers r ms s (task :: rest)) (orderly : s.Orderly (task :: rest))
    (eq : s.step task = (s', some more)) : Gathers r ms s' (more ++ rest) := by
  rcases h with ⟨none, success⟩ | ⟨g, a, tally⟩
  · exact .inl ⟨none, State.outcome?_of_advance (n := 0) orderly (.step eq) success⟩
  · exact .inr ⟨g, tally.turn (n := 0) orderly (State.turn_of_step orderly eq)⟩

/-- So does somebody who begins to resolve a completion that he may resolve. -/
lemma start (h : Gathers r ms s []) (claim : task.claim? = some t) (free : s.Free t) :
    Gathers r ms s [task] := by
  rcases h with same | ⟨g, a, tally⟩
  · exact .inl same
  · exact .inr ⟨g, a, (Tally.cons_iff (tally.concerns_claim free claim)).mpr tally⟩

/-- So does a callback that is called at once. -/
lemma calls {k : Reaction} (h : Gathers r ms s []) (outcome : Option Bool)
    (claim : k.done? = some t) (free : s.Free t) :
    Gathers r ms s (Task.calls (.own k) outcome) := by
  cases outcome with
  | none => exact h
  | some success => exact h.start claim free

/-- So do callbacks of processors that wait. -/
lemma register (h : Gathers r ms s todo) (t : Token) (k : Reaction)
    (ledger : s'.exports.ledger = (s.exports.ledger.register t (.own k)).1) :
    Gathers r ms s' todo := by
  rcases h with ⟨none, success⟩ | ⟨g, a, tally⟩
  · refine .inl ⟨none, Eq.trans ?_ success⟩
    rw [State.outcome?, ledger]
    exact Store.outcome?_register ..
  · exact .inr ⟨g, a, ledger ▸ tally.register t k⟩

/-- **A completion that has its outcome has gathered all of them.** -/
lemma members (h : Gathers r ms s todo) (known : s.outcome? r ≠ none) :
    ∀ t ∈ ms, s.outcome? t ≠ none := by
  rcases h with ⟨rfl, -⟩ | ⟨g, a, tally⟩
  · simp
  · rcases tally.outcome with ⟨-, zero⟩ | ⟨pending, -⟩
    · have remaining := tally.remaining
      exact Ledger.missing_eq_zero_iff.mp (by omega)
    · exact absurd pending known

/-- **Where nothing is left to be done**, a completion stands as those do that it gathers. -/
lemma sums (h : Gathers r ms s []) : s.exports.ledger.Sums r ms := by
  rcases h with ⟨rfl, success⟩ | ⟨g, a, tally⟩
  · exact Ledger.sums_of_verdict? success
  · exact Ledger.sums_of_verdict? tally.exact

end Gathers

/-- Whoever gathers completions gets one that gathers them. -/
lemma gathers_ofAll (orderly : s.Orderly []) (lt : ∀ t ∈ ms, t < s.size) :
    Gathers (s.exports.ofAll ms).2 ms { s with exports := (s.exports.ofAll ms).1 } [] := by
  by_cases none : ms = []
  · subst none
    exact .inl ⟨rfl, (Store.outcome?_settled ..).trans (if_pos rfl)⟩
  · obtain ⟨gathered, result⟩ := Ledger.gathered_ofAll lt none
    have result : (s.exports.ofAll ms).2 = s.size := result
    rw [result]
    exact .inr ⟨_, _, .begin gathered orderly.bounded lt⟩

namespace State

/-- What is below the top of a stack. -/
lemma mem_tail_append {tasks : List Task} {new : Task} (h : new ∈ (tasks ++ rest).tail) :
    new ∈ tasks.tail ∨ new ∈ rest := by
  cases tasks with
  | nil => exact .inr (List.mem_of_mem_tail h)
  | cons task tasks => exact List.mem_append.mp h

/-- **An aggregate over completions that were untouched.** -/
structure Watched (g : Nat) (r : Token) (ms : List Token) (s : State) (todo : List Task) :
    Prop where
  tally : ∃ a, Tally g r ms s.exports.ledger todo a
  nodup : ms.Nodup
  first : ∀ t ∈ ms, s.outcome? t = none →
    ∃ others, s.exports.ledger.store.waiting t = .member g :: others
  top : ∀ task ∈ todo.tail, task.concerns g r = false

/-- The callbacks of an aggregate come first, one for each completion. -/
lemma Watched.others_idle (h : Watched g r ms s todo) (pending : s.outcome? t = none)
    (success : Bool) :
    ∀ new ∈ ((s.exports.ledger.store.waiting t).map (Task.call · success)).tail,
      new.concerns g r = false := by
  obtain ⟨a, tally⟩ := h.tally
  have watched := tally.watched t
  rw [if_pos (show s.exports.ledger.outcome? t = none from pending)] at watched
  intro new mem
  rw [← List.map_tail] at mem
  obtain ⟨w, waits, rfl⟩ := List.mem_map.mp mem
  suffices other : w.isMember g = false by simp [Task.concerns, Task.counts, Task.settles, other]
  by_cases member : t ∈ ms
  · obtain ⟨others, eq⟩ := h.first t member pending
    rw [eq] at waits
    rw [eq, List.count_eq_one_of_mem h.nodup member, List.countP_cons_of_pos (by simp),
      Nat.add_eq_right, List.countP_eq_zero] at watched
    exact Bool.eq_false_iff.mpr (watched w waits)
  · rw [List.count_eq_zero.mpr member, List.countP_eq_zero] at watched
    exact Bool.eq_false_iff.mpr (watched w (List.mem_of_mem_tail waits))

lemma Watched.grows (h : Watched g r ms s todo) (grows : s.Grows n s') :
    Watched g r ms s' todo := by
  obtain ⟨a, tally⟩ := h.tally
  refine ⟨⟨a, tally.extend grows.ledger⟩, h.nodup, fun t mem pending => ?_, h.top⟩
  have lt : t < s.size := Nat.lt_trans (tally.members t mem) tally.lt
  obtain ⟨others, first⟩ := h.first t mem ((grows.ledger.outcome? t lt).symm.trans pending)
  obtain ⟨more, eq, -⟩ := grows.ledger.waiting t lt
  exact ⟨others ++ more, by rw [eq, first, List.cons_append]⟩

lemma Watched.turn (h : Watched g r ms s (task :: rest)) (orderly : s.Orderly (task :: rest))
    (turn : s.Turn n task s' more) : Watched g r ms s' (more ++ rest) := by
  obtain ⟨a, tally⟩ := h.tally
  have idle : ∀ new ∈ rest, new.concerns g r = false := h.top
  have turned := tally.turn orderly turn
  -- At most the first of the tasks that are set off is about the aggregate.
  have top (made : ∀ new ∈ more.tail, new.concerns g r = false) :
      ∀ new ∈ (more ++ rest).tail, new.concerns g r = false := fun new mem =>
    (mem_tail_append mem).elim (made new) (idle new)
  cases turn with
  | stale => exact ⟨turned, h.nodup, h.first, top (by simp)⟩
  | absent => exact ⟨turned, h.nodup, h.first, top (by simp)⟩
  | counted => exact ⟨turned, h.nodup, h.first, top fun new mem => by split at mem <;> simp at mem⟩
  | @resolved t success pending lt =>
      refine ⟨turned, h.nodup, fun u mem unresolved => ?_, top (h.others_idle pending success)⟩
      have resolved := Store.outcome?_resolve s.exports.ledger.store t success u
      have unresolved : (s.exports.ledger.store.resolve t success).1.outcome? u = none :=
        unresolved
      have apart : u ≠ t := by
        rintro rfl
        rw [if_pos ⟨rfl, lt, pending⟩, unresolved] at resolved
        cases resolved
      rw [if_neg fun same => apart same.1, unresolved] at resolved
      obtain ⟨others, first⟩ := h.first u mem resolved.symm
      exact ⟨others, (Store.waiting_resolve ..).trans ((if_neg apart).trans first)⟩
  | @grown k success _ _ grows made =>
      refine ⟨turned, h.nodup, (h.grows grows).first, top fun new mem => ?_⟩
      obtain ⟨claim, some⟩ := made new (List.mem_of_mem_tail mem)
      obtain ⟨t, done⟩ := Option.ne_none_iff_exists'.mp some
      have free := orderly.todo k success List.mem_cons_self t done
      exact tally.concerns_claim free (claim.trans done)

/-- **Every small step keeps an aggregate in balance.** -/
theorem Watched.advance (h : Watched g r ms s todo) (orderly : s.Orderly todo)
    (advance : Advance n s todo s' todo') : Watched g r ms s' todo' := by
  cases advance with
  | grow grows => exact h.grows grows
  | start claim free =>
      obtain ⟨a, tally⟩ := h.tally
      have other := tally.concerns_claim free claim
      exact ⟨⟨a, (Tally.cons_iff other).mpr tally⟩, h.nodup, h.first,
        fun _ mem => absurd mem List.not_mem_nil⟩
  | step eq => exact h.turn orderly (turn_of_step (n := n) orderly eq)
  | @panic _ _ rest eq =>
      obtain ⟨grows, k, success, rfl⟩ := grows_of_panic (n := n) orderly eq
      have grown := h.grows grows
      obtain ⟨a, tally⟩ := grown.tally
      have idle : ∀ new ∈ Task.call (.own k) success :: rest, new.concerns g r = false :=
        List.forall_mem_cons.mpr ⟨rfl, h.top⟩
      rw [← List.append_nil (_ :: rest)] at tally
      exact ⟨⟨a, (Tally.idle_iff idle).mp tally⟩, h.nodup, grown.first,
        fun _ mem => absurd mem List.not_mem_nil⟩

/-- Untouched completions are gathered. -/
lemma watched_ofAll (orderly : s.Orderly []) (untouched : ∀ t ∈ ms, s.Untouched t)
    (nodup : ms.Nodup) (some : ms ≠ []) :
    Watched s.exports.ledger.aggregates.size (s.exports.ofAll ms).2 ms
      { s with exports := (s.exports.ofAll ms).1 } [] := by
  have lt : ∀ t ∈ ms, t < s.size := fun t mem => (untouched t mem).lt
  obtain ⟨gathered, result⟩ := Ledger.gathered_ofAll lt some
  have result : (s.exports.ofAll ms).2 = s.size := result
  rw [result]
  refine ⟨⟨_, .begin gathered orderly.bounded lt⟩, nodup, fun t mem pending => ?_,
    fun _ mem => absurd mem List.not_mem_nil⟩
  have pending : s.exports.ledger.outcome? t = none :=
    ((gathered.outcome? t).trans (if_neg (Nat.ne_of_lt (lt t mem)))).symm.trans pending
  refine ⟨[], (gathered.waiting t).trans ?_⟩
  rw [(untouched t mem).waiting, if_pos pending, List.count_eq_one_of_mem nodup mem]
  rfl

/-- Where nothing is left to be done, the result is as the members are. -/
lemma Watched.exact (h : Watched g r ms s []) : s.outcome? r = s.exports.ledger.verdict? ms := by
  obtain ⟨a, tally⟩ := h.tally
  exact tally.exact

lemma Leads.watched (h : s.Leads n s') (orderly : s.Orderly []) (watched : Watched g r ms s []) :
    Watched g r ms s' [] :=
  h.keeps (Watched g r ms) orderly watched
    fun orderly watched advance => watched.advance orderly advance

end State

end ProfilePipeline.Processing
