import ProfilePipeline.Proofs.Completion.Store
import ProfilePipeline.Completion.Aggregate

/-!
# Gathering completions in one go

`Ledger.ofAll` makes an aggregate of completions without being interrupted.  What it leaves behind
can be said without its loop: the count of those that are still missing, whether one has failed, and
one callback for each member without an outcome (`Ledger.gathered_ofAll`).

Most of what happens to a ledger only adds to it.  `Ledger.Extends P` says so: completions that were
there keep their outcomes and what waits for them, and aggregates are left alone; only completions
with the property `P` may get members of new aggregates waiting for them.  It is kept by everything
that makes new completions (`Ledger.Extends.fresh`, `Ledger.Extends.settled`,
`Ledger.Extends.ofAll`) and by callbacks that are registered on such (`Ledger.Extends.register`).
-/

namespace ProfilePipeline.Completion

/-- Whether a callback is that of a member of an aggregate. -/
def Waiter.isMember {κ : Type} (g : Nat) : Waiter κ → Bool
  | member h => h == g
  | own _ => false

@[simp] lemma Waiter.isMember_member {κ : Type} (g h : Nat) :
    (member h : Waiter κ).isMember g = (h == g) := rfl

@[simp] lemma Waiter.isMember_own {κ : Type} (g : Nat) (k : κ) : (own k).isMember g = false := rfl

/-- Somebody's own callback. -/
def Waiter.own? {κ : Type} : Waiter κ → Option κ
  | member _ => none
  | own k => some k

namespace Ledger

variable {κ : Type} {l l' l'' : Ledger κ} {ts : List Token}

/-! ## Own callbacks -/

/-- The own callbacks that wait for a completion, in the order in which they were registered. -/
def owners (l : Ledger κ) (t : Token) : List κ := (l.store.waiting t).filterMap Waiter.own?

lemma mem_owners {t : Token} {k : κ} : k ∈ l.owners t ↔ .own k ∈ l.store.waiting t := by
  rw [owners, List.mem_filterMap]
  constructor
  · rintro ⟨w, mem, own⟩
    cases w with
    | member g => exact absurd own (by simp [Waiter.own?])
    | own k' =>
        obtain rfl : k' = k := by simpa [Waiter.own?] using own
        exact mem
  · exact fun mem => ⟨_, mem, rfl⟩

lemma owners_congr {t : Token} (h : l'.store.waiting t = l.store.waiting t) :
    l'.owners t = l.owners t := by rw [owners, owners, h]

lemma owners_fresh (t : Token) : l.fresh.1.owners t = l.owners t :=
  owners_congr (Store.waiting_fresh ..)

lemma owners_settled (success : Bool) (t : Token) : (l.settled success).1.owners t = l.owners t :=
  owners_congr (Store.waiting_settled ..)

lemma owners_of_size_le {t : Token} (h : l.store.size ≤ t) : l.owners t = [] := by
  rw [owners, Store.waiting_of_size_le h]
  rfl

/-- A callback that is registered is not called at once exactly if there is no outcome. -/
lemma register_snd (l : Ledger κ) (t : Token) (w : Waiter κ) :
    (l.register t w).2 = l.outcome? t := by
  rw [register]
  cases known : l.outcome? t with
  | none => exact Store.register_snd _ known
  | some success => rw [Store.register_of_outcome? _ known]

lemma mem_owners_register {t u : Token} {k new : κ} :
    k ∈ (l.register t (.own new)).1.owners u ↔
      k ∈ l.owners u ∨ u = t ∧ (t < l.store.size ∧ l.outcome? t = none) ∧ k = new := by
  rw [mem_owners, mem_owners, Store.mem_waiting, Store.mem_waiting, register]
  by_cases lt : t < l.store.size
  · cases known : l.outcome? t with
    | none => simp [Store.waitsAt_register_iff lt known, lt]
    | some success => simp [Store.register_of_outcome? _ known]
  · simp [Store.register_of_size_le _ (Nat.le_of_not_lt lt), lt]

/-- A callback waits after those that wait already, or is not kept. -/
lemma waiting_register_own (l : Ledger κ) (t : Token) (k : κ) (u : Token) :
    (l.register t (.own k)).1.store.waiting u = l.store.waiting u ∨
      u = t ∧ (l.register t (.own k)).1.store.waiting u = l.store.waiting u ++ [.own k] := by
  by_cases lt : t < l.store.size
  · cases known : l.store.outcome? t with
    | none =>
        have waits := Store.waiting_register (.own k) lt known u
        by_cases here : u = t
        · exact .inr ⟨here, (waits.trans (if_pos here)).trans (by rw [here])⟩
        · exact .inl (waits.trans (if_neg here))
    | some success => exact .inl (by simp [register, Store.register_of_outcome? _ known])
  · exact .inl (by simp [register, Store.register_of_size_le _ (Nat.le_of_not_lt lt)])

/-! ## Members and what is known of them -/

/-- How many completions of a list have no outcome. -/
def missing (l : Ledger κ) (ts : List Token) : Nat := ts.countP fun t => (l.outcome? t).isNone

/-- Whether a completion of a list has failed. -/
def anyFailed (l : Ledger κ) (ts : List Token) : Bool := ts.any fun t => l.outcome? t == some false

/-- What a list of completions comes to, once all of them have an outcome. -/
def verdict? (l : Ledger κ) (ts : List Token) : Option Bool :=
  if l.missing ts = 0 then some (!l.anyFailed ts) else none

/-- **A completion stands as a list of others do**: it is resolved exactly if all of them are, and a
success exactly if all of them are. -/
structure Sums (l : Ledger κ) (r : Token) (ts : List Token) : Prop where
  resolved : l.outcome? r ≠ none ↔ ∀ t ∈ ts, l.outcome? t ≠ none
  success : l.outcome? r = some true ↔ ∀ t ∈ ts, l.outcome? t = some true

lemma missing_eq_zero_iff : l.missing ts = 0 ↔ ∀ t ∈ ts, l.outcome? t ≠ none := by
  simp [missing]

lemma anyFailed_iff : l.anyFailed ts = true ↔ ∃ t ∈ ts, l.outcome? t = some false := by
  simp [anyFailed]

/-- What has the verdict of others stands as they do. -/
lemma sums_of_verdict? {r : Token} (h : l.outcome? r = l.verdict? ts) : l.Sums r ts := by
  rw [verdict?] at h
  split at h
  · rename_i zero
    have all := missing_eq_zero_iff.mp zero
    refine ⟨⟨fun _ => all, fun _ => by simp [h]⟩, ?_⟩
    rw [h, Option.some.injEq, Bool.not_eq_true', ← Bool.not_eq_true, anyFailed_iff]
    constructor
    · intro none t mem
      cases known : l.outcome? t with
      | none => exact absurd known (all t mem)
      | some success =>
          cases success with
          | true => rfl
          | false => exact absurd ⟨t, mem, known⟩ none
    · rintro success ⟨t, mem, failed⟩
      exact absurd ((success t mem).symm.trans failed) (by simp)
  · rename_i some
    rw [← ne_eq, ne_eq, missing_eq_zero_iff] at some
    refine ⟨⟨fun known => absurd h known, fun all => absurd all some⟩, ?_⟩
    refine ⟨fun known => absurd (h.symm.trans known) (by simp), fun success => ?_⟩
    exact absurd (fun t mem => by simp [success t mem]) some

lemma missing_congr (h : ∀ t ∈ ts, l'.outcome? t = l.outcome? t) :
    l'.missing ts = l.missing ts :=
  List.countP_congr fun t mem => by rw [h t mem]

lemma anyFailed_congr (h : ∀ t ∈ ts, l'.outcome? t = l.outcome? t) :
    l'.anyFailed ts = l.anyFailed ts := by
  rw [Bool.eq_iff_iff, anyFailed_iff, anyFailed_iff]
  refine exists_congr fun t => and_congr_right fun mem => ?_
  rw [h t mem]

/-- A member that gets its outcome is not missing any more. -/
lemma missing_of_settled {t : Token} {success : Bool} (pending : l.outcome? t = none)
    (settled : ∀ u, l'.outcome? u = if u = t then some success else l.outcome? u) :
    l.missing ts = l'.missing ts + ts.count t := by
  induction ts with
  | nil => rfl
  | cons u ts ih =>
      rw [missing, missing] at ih
      rw [missing, missing, List.countP_cons, List.countP_cons, List.count_cons, settled u, ih]
      by_cases here : u = t
      · simp [here, pending]
        omega
      · simp [here]
        omega

lemma anyFailed_of_settled {t : Token} {success : Bool} (pending : l.outcome? t = none)
    (settled : ∀ u, l'.outcome? u = if u = t then some success else l.outcome? u) :
    l'.anyFailed ts = (l.anyFailed ts || (decide (t ∈ ts) && !success)) := by
  rw [Bool.eq_iff_iff]
  simp only [anyFailed_iff, settled, Bool.or_eq_true, Bool.and_eq_true, decide_eq_true_eq,
    Bool.not_eq_true']
  constructor
  · rintro ⟨u, mem, failed⟩
    split at failed
    · subst_vars
      exact .inr ⟨mem, by simpa using failed⟩
    · exact .inl ⟨u, mem, failed⟩
  · rintro (⟨u, mem, failed⟩ | ⟨mem, rfl⟩)
    · refine ⟨u, mem, ?_⟩
      rw [if_neg, failed]
      rintro rfl
      simp [pending] at failed
    · exact ⟨t, mem, by simp⟩

/-! ## What gathering leaves behind -/

/-- **Completions were gathered**: there is one more completion, with the verdict of the members so
far, and one more aggregate, with a callback for each member that has no outcome yet. -/
structure Gathered (l : Ledger κ) (ts : List Token) (l' : Ledger κ) : Prop where
  size : l'.store.size = l.store.size + 1
  aggregates : l'.aggregates = l.aggregates.push ⟨l.missing ts, l.anyFailed ts, l.store.size⟩
  outcome? : ∀ t, l'.outcome? t = if t = l.store.size then l.verdict? ts else l.outcome? t
  waiting : ∀ t, l'.store.waiting t = l.store.waiting t ++
    if l.outcome? t = none then List.replicate (ts.count t) (.member l.aggregates.size) else []

/-- Where gathering stands when the members `seen` out of `total` many are enlisted. -/
structure Enlisted (l : Ledger κ) (total : Nat) (seen : List Token) (l' : Ledger κ)
    (remaining : Nat) : Prop where
  bound : ∀ t ∈ seen, t < l.store.size
  size : l'.store.size = l.store.size + 1
  counted : remaining + seen.length = total + l.missing seen
  aggregates : l'.aggregates = l.aggregates.push ⟨remaining, l.anyFailed seen, l.store.size⟩
  outcome? : ∀ t, l'.outcome? t = if t = l.store.size then
    if remaining = 0 then some (!l.anyFailed seen) else none else l.outcome? t
  waiting : ∀ t, l'.store.waiting t = l.store.waiting t ++
    if l.outcome? t = none then List.replicate (seen.count t) (.member l.aggregates.size) else []

lemma enlisted_opened {total : Nat} (some : total ≠ 0) :
    l.Enlisted total [] (l.opened total).1 total where
  bound _ mem := absurd mem List.not_mem_nil
  size := Store.size_fresh _
  counted := rfl
  aggregates := rfl
  outcome? t := by
    have fresh : (l.opened total).1.outcome? t = l.outcome? t := Store.outcome?_fresh ..
    rw [fresh, if_neg some]
    split
    · rename_i here
      exact Store.outcome?_of_size_le (Nat.le_of_eq here.symm)
    · rfl
  waiting t := by
    have fresh : (l.opened total).1.store.waiting t = l.store.waiting t := Store.waiting_fresh ..
    simp [fresh]

section

variable {total remaining : Nat} {seen : List Token} {t : Token}

lemma missing_concat :
    l.missing (seen ++ [t]) = l.missing seen + if l.outcome? t = none then 1 else 0 := by
  simp [missing, List.countP_append, List.countP_cons]

lemma anyFailed_concat :
    l.anyFailed (seen ++ [t]) = (l.anyFailed seen || l.outcome? t == some false) := by
  simp [anyFailed]

lemma missing_le (l : Ledger κ) (seen : List Token) : l.missing seen ≤ seen.length :=
  List.countP_le_length

lemma Enlisted.bound_concat (h : l.Enlisted total seen l' remaining) (lt : t < l.store.size) :
    ∀ u ∈ seen ++ [t], u < l.store.size := by
  intro u mem
  rcases List.mem_append.mp mem with mem | mem
  · exact h.bound u mem
  · rwa [List.mem_singleton.mp mem]

/-- A member without an outcome gets a callback. -/
lemma Enlisted.enlist_pending (h : l.Enlisted total seen l' remaining) (lt : t < l.store.size)
    (pending : l.outcome? t = none) :
    l.Enlisted total (seen ++ [t]) (l'.enlist l.aggregates.size t) remaining := by
  have elsewhere : t ≠ l.store.size := Nat.ne_of_lt lt
  have pending' : l'.store.outcome? t = none := by
    have := h.outcome? t
    rw [if_neg elsewhere, pending] at this
    exact this
  have lt' : t < l'.store.size := h.size ▸ Nat.lt_succ_of_lt lt
  have enlist : l'.enlist l.aggregates.size t =
      { l' with store := (l'.store.register t (.member l.aggregates.size)).1 } := by
    simp only [enlist, register, Store.register_snd _ pending']
  have failed : l.anyFailed (seen ++ [t]) = l.anyFailed seen := by
    simp [anyFailed_concat, pending]
  rw [enlist]
  refine ⟨h.bound_concat lt, ?_, ?_, ?_, ?_, ?_⟩
  · rw [Store.size_register, h.size]
  · have := h.counted
    rw [missing_concat, if_pos pending, List.length_append, List.length_singleton]
    omega
  · rw [failed]
    exact h.aggregates
  · intro u
    rw [failed, ← h.outcome? u]
    exact Store.outcome?_register ..
  · intro u
    rw [Store.waiting_register _ lt' pending', h.waiting, h.waiting]
    split
    · subst_vars
      simp [pending, List.replicate_succ']
    · rename_i other
      have apart : seen.count u = (seen ++ [t]).count u := by
        simp [List.count_append, Ne.symm other]
      rw [apart]

/-- Nobody can wait for the result yet. -/
lemma Enlisted.waiting_result (h : l.Enlisted total seen l' remaining) :
    l'.store.waiting l.store.size = [] := by
  have none : seen.count l.store.size = 0 :=
    List.count_eq_zero.mpr fun mem => Nat.lt_irrefl _ (h.bound _ mem)
  rw [h.waiting, none, Store.waiting_of_size_le (Nat.le_refl _)]
  simp

/-- A member with an outcome counts at once, and the last one resolves the result. -/
lemma Enlisted.enlist_eq (h : l.Enlisted total seen l' remaining) {success : Bool}
    (known : l'.store.outcome? t = some success) :
    l'.enlist l.aggregates.size t =
      { store := if remaining = 1
          then (l'.store.resolve l.store.size !(l.anyFailed seen || !success)).1 else l'.store
        aggregates := l.aggregates.push
          ⟨remaining - 1, l.anyFailed seen || !success, l.store.size⟩ } := by
  have found : l'.aggregates[l.aggregates.size]? =
      some ⟨remaining, l.anyFailed seen, l.store.size⟩ := by simp [h.aggregates]
  have pushed : ∀ a b : Aggregate,
      (l.aggregates.push a).setIfInBounds l.aggregates.size b = l.aggregates.push b := by
    intro a b
    grind
  simp only [enlist, register, Store.register_of_outcome? _ known, count, found,
    Aggregate.isLast, Aggregate.note, Aggregate.countDown, Aggregate.verdict]
  by_cases last : remaining = 1 <;> simp [last, h.aggregates, pushed]

lemma Enlisted.enlist_resolved (h : l.Enlisted total seen l' remaining) (lt : t < l.store.size)
    (room : seen.length < total) {success : Bool} (known : l.outcome? t = some success) :
    l.Enlisted total (seen ++ [t]) (l'.enlist l.aggregates.size t) (remaining - 1) := by
  have known' : l'.store.outcome? t = some success := by
    have same := h.outcome? t
    rw [if_neg (Nat.ne_of_lt lt), known] at same
    exact same
  have counted := h.counted
  have enough := l.missing_le seen
  have nonzero : remaining ≠ 0 := by omega
  have failed : l.anyFailed (seen ++ [t]) = (l.anyFailed seen || !success) := by
    cases success <;> simp [anyFailed_concat, known]
  have missing : l.missing (seen ++ [t]) = l.missing seen := by simp [missing_concat, known]
  have others (u : Token) : l'.store.outcome? u =
      if u = l.store.size then none else l.outcome? u := by
    have same := h.outcome? u
    rwa [if_neg nonzero] at same
  rw [h.enlist_eq known']
  refine ⟨h.bound_concat lt, ?_, ?_, ?_, ?_, ?_⟩
  · simp only
    split
    · rw [Store.size_resolve, h.size]
    · exact h.size
  · rw [missing, List.length_append, List.length_singleton]
    omega
  · rw [failed]
  · intro u
    rw [failed]
    by_cases last : remaining = 1
    · have resolved (verdict : Bool) : (l'.store.resolve l.store.size verdict).1.outcome? u =
          if u = l.store.size then some verdict else l'.store.outcome? u := by
        rw [Store.outcome?_resolve]
        simp [others, h.size]
      simp only [last, ↓reduceIte, Ledger.outcome?, resolved, others]
      split <;> rfl
    · have more : remaining - 1 ≠ 0 := by omega
      simp only [last, more, ↓reduceIte]
      exact others u
  · intro u
    have kept : (if remaining = 1
          then (l'.store.resolve l.store.size !(l.anyFailed seen || !success)).1
          else l'.store).waiting u = l'.store.waiting u := by
      split
      · rw [Store.waiting_resolve, ite_eq_right_iff]
        rintro rfl
        exact h.waiting_result.symm
      · rfl
    simp only [kept, h.waiting u]
    split
    · rename_i pending
      have apart : t ≠ u := by
        rintro rfl
        simp [known] at pending
      simp [List.count_append, apart]
    · rfl

/-- Where gathering stands when the members `seen` are enlisted and `ts` are to come. -/
lemma Enlisted.foldl (lt : ∀ t ∈ ts, t < l.store.size) {seen : List Token} {remaining : Nat}
    {l' : Ledger κ} (h : l.Enlisted (seen.length + ts.length) seen l' remaining) :
    ∃ remaining', l.Enlisted (seen ++ ts).length (seen ++ ts)
      (ts.foldl (·.enlist l.aggregates.size) l') remaining' := by
  induction ts generalizing seen remaining l' with
  | nil => exact ⟨remaining, by simpa using h⟩
  | cons t ts ih =>
      have lt' := lt t List.mem_cons_self
      have total : seen.length + (t :: ts).length = (seen ++ [t]).length + ts.length := by
        simp only [List.length_cons, List.length_append, List.length_nil]
        omega
      have enlisted : ∃ remaining', l.Enlisted ((seen ++ [t]).length + ts.length) (seen ++ [t])
          (l'.enlist l.aggregates.size t) remaining' := by
        rw [← total]
        cases known : l.outcome? t with
        | none => exact ⟨_, h.enlist_pending lt' known⟩
        | some success =>
            refine ⟨_, h.enlist_resolved lt' ?_ known⟩
            simp
      obtain ⟨remaining', enlisted⟩ := enlisted
      have := ih (fun u mem => lt u (List.mem_cons_of_mem _ mem)) enlisted
      simpa using this

end

/-- **Gathering a list of completions**, none of which is yet to come. -/
theorem gathered_ofAll (lt : ∀ t ∈ ts, t < l.store.size) (some : ts ≠ []) :
    l.Gathered ts (l.ofAll ts).1 ∧ (l.ofAll ts).2 = l.store.size := by
  have opened : l.Enlisted ts.length [] (l.opened ts.length).1 ts.length :=
    enlisted_opened (by simpa using some)
  have begun : l.Enlisted (([] : List Token).length + ts.length) [] (l.opened ts.length).1
      ts.length := by rwa [List.length_nil, Nat.zero_add]
  obtain ⟨remaining, all⟩ := begun.foldl lt
  rw [List.nil_append] at all
  have counted : remaining = l.missing ts := by
    have := all.counted
    omega
  have ofAll : l.ofAll ts =
      (ts.foldl (·.enlist l.aggregates.size) (l.opened ts.length).1, l.store.size) := by
    cases ts with
    | nil => exact absurd rfl some
    | cons t ts => rfl
  rw [ofAll]
  refine ⟨⟨all.size, ?_, ?_, all.waiting⟩, rfl⟩
  · rw [all.aggregates, counted]
  · intro t
    rw [all.outcome?, verdict?, counted]

/-! ## Ledgers that only grow -/

/-- **A ledger has only grown.**  What was there is as it was, apart from members of new aggregates
that wait for completions with the property `P`. -/
structure Extends (P : Token → Prop) (l l' : Ledger κ) : Prop where
  size : l.store.size ≤ l'.store.size
  aggregates_size : l.aggregates.size ≤ l'.aggregates.size
  outcome? : ∀ t < l.store.size, l'.outcome? t = l.outcome? t
  aggregates : ∀ g < l.aggregates.size, l'.aggregates[g]? = l.aggregates[g]?
  waiting : ∀ t < l.store.size, ∃ more, l'.store.waiting t = l.store.waiting t ++ more ∧
    (¬ P t → more = []) ∧
      ∀ w ∈ more, ∃ g, w = .member g ∧ l.aggregates.size ≤ g ∧ g < l'.aggregates.size
  members : ∀ t g, l.store.size ≤ t → .member g ∈ l'.store.waiting t →
    l.aggregates.size ≤ g ∧ g < l'.aggregates.size
  results : ∀ g a, l.aggregates.size ≤ g → l'.aggregates[g]? = some a →
    l.store.size ≤ a.result ∧ a.result < l'.store.size

namespace Extends

variable {P Q : Token → Prop}

lemma refl (P : Token → Prop) (l : Ledger κ) : l.Extends P l where
  size := Nat.le_refl _
  aggregates_size := Nat.le_refl _
  outcome? _ _ := rfl
  aggregates _ _ := rfl
  waiting t _ := ⟨[], by simp⟩
  members t g le mem := by simp [Store.waiting_of_size_le le] at mem
  results g a le found := by simp [Array.getElem?_eq_none le] at found

/-- What waits for new completions does not matter to those who know the old ones. -/
lemma trans_of (h : l.Extends P l') (h' : l'.Extends Q l'')
    (sub : ∀ t < l.store.size, Q t → P t) : l.Extends P l'' where
  size := Nat.le_trans h.size h'.size
  aggregates_size := Nat.le_trans h.aggregates_size h'.aggregates_size
  outcome? t lt := (h'.outcome? t (Nat.lt_of_lt_of_le lt h.size)).trans (h.outcome? t lt)
  aggregates g lt :=
    (h'.aggregates g (Nat.lt_of_lt_of_le lt h.aggregates_size)).trans (h.aggregates g lt)
  waiting t lt := by
    obtain ⟨more, eq, none, new⟩ := h.waiting t lt
    obtain ⟨more', eq', none', new'⟩ := h'.waiting t (Nat.lt_of_lt_of_le lt h.size)
    refine ⟨more ++ more', by rw [eq', eq, List.append_assoc], ?_, ?_⟩
    · intro other
      rw [none other, none' fun mem => other (sub t lt mem), List.append_nil]
    · intro w mem
      rcases List.mem_append.mp mem with mem | mem
      · obtain ⟨g, rfl, lower, upper⟩ := new w mem
        exact ⟨g, rfl, lower, Nat.lt_of_lt_of_le upper h'.aggregates_size⟩
      · obtain ⟨g, rfl, lower, upper⟩ := new' w mem
        exact ⟨g, rfl, Nat.le_trans h.aggregates_size lower, upper⟩
  members t g le mem := by
    by_cases lt : t < l'.store.size
    · obtain ⟨more, eq, -, new⟩ := h'.waiting t lt
      rw [eq] at mem
      rcases List.mem_append.mp mem with mem | mem
      · obtain ⟨lower, upper⟩ := h.members t g le mem
        exact ⟨lower, Nat.lt_of_lt_of_le upper h'.aggregates_size⟩
      · obtain ⟨g', same, lower, upper⟩ := new _ mem
        cases same
        exact ⟨Nat.le_trans h.aggregates_size lower, upper⟩
    · obtain ⟨lower, upper⟩ := h'.members t g (Nat.le_of_not_lt lt) mem
      exact ⟨Nat.le_trans h.aggregates_size lower, upper⟩
  results g a le found := by
    by_cases lt : g < l'.aggregates.size
    · rw [h'.aggregates g lt] at found
      obtain ⟨lower, upper⟩ := h.results g a le found
      exact ⟨lower, Nat.lt_of_lt_of_le upper h'.size⟩
    · obtain ⟨lower, upper⟩ := h'.results g a (Nat.le_of_not_lt lt) found
      exact ⟨Nat.le_trans h.size lower, upper⟩

lemma trans (h : l.Extends P l') (h' : l'.Extends P l'') : l.Extends P l'' :=
  h.trans_of h' fun _ _ mem => mem

/-- Whatever adds a completion that nobody waits for. -/
lemma of_push {cell : Cell (Waiter κ)} (none : cell.waiting = []) :
    l.Extends P { l with store := ⟨l.store.cells.push cell⟩ } where
  size := by simp [Store.size]
  aggregates_size := Nat.le_refl _
  outcome? t lt := by
    have lt : t < l.store.cells.size := lt
    simp [Ledger.outcome?, Store.outcome?, Array.getElem?_push, Nat.ne_of_lt lt]
  aggregates _ _ := rfl
  waiting t _ := ⟨[], by simp [Store.waiting_push _ _ none]⟩
  members t g le mem := by simp [Store.waiting_push _ _ none, Store.waiting_of_size_le le] at mem
  results g a le found := by simp [Array.getElem?_eq_none le] at found

lemma fresh : l.Extends P l.fresh.1 := of_push rfl

lemma settled (success : Bool) : l.Extends P (l.settled success).1 := of_push rfl

/-- Somebody's own callback waits for a new completion. -/
lemma register (h : l.Extends P l') {t : Token} (new : l.store.size ≤ t) (k : κ) :
    l.Extends P (l'.register t (.own k)).1 := by
  have waiting := l'.waiting_register_own t k
  have size : (l'.register t (.own k)).1.store.size = l'.store.size := Store.size_register ..
  refine ⟨size ▸ h.size, h.aggregates_size, ?_, h.aggregates, ?_, ?_, size ▸ h.results⟩
  · intro u lt
    rw [← h.outcome? u lt]
    exact Store.outcome?_register ..
  · intro u lt
    have same : (l'.register t (.own k)).1.store.waiting u = l'.store.waiting u := by
      rcases waiting u with same | ⟨rfl, -⟩
      · exact same
      · exact absurd new (Nat.not_le.mpr lt)
    rw [same]
    exact h.waiting u lt
  · intro u g le mem
    refine h.members u g le ?_
    rcases waiting u with same | ⟨-, more⟩
    · rwa [same] at mem
    · simpa [more] using mem

end Extends

/-- The results of all aggregates are there, and so are the aggregates of all members. -/
structure Bounded (l : Ledger κ) : Prop where
  results : ∀ (g : Nat) (a : Aggregate), l.aggregates[g]? = some a → a.result < l.store.size
  members : ∀ t g, .member g ∈ l.store.waiting t → g < l.aggregates.size

/-- A completion is there, and no aggregate gives it its outcome. -/
structure Free (l : Ledger κ) (t : Token) : Prop where
  lt : t < l.store.size
  apart : ∀ (g : Nat) (a : Aggregate), l.aggregates[g]? = some a → a.result ≠ t

/-- A completion came into being, and nobody waits for it yet. -/
structure New (l l' : Ledger κ) (t : Token) : Prop where
  le : l.store.size ≤ t
  lt : t < l'.store.size
  waiting : l'.store.waiting t = []

section

variable {P : Token → Prop} {t : Token}

lemma Extends.bounded (h : l.Extends P l') (bounded : l.Bounded) : l'.Bounded where
  results g a found := by
    by_cases lt : g < l.aggregates.size
    · rw [h.aggregates g lt] at found
      exact Nat.lt_of_lt_of_le (bounded.results g a found) h.size
    · exact (h.results g a (Nat.le_of_not_lt lt) found).2
  members t g mem := by
    by_cases lt : t < l.store.size
    · obtain ⟨more, eq, -, new⟩ := h.waiting t lt
      rw [eq] at mem
      rcases List.mem_append.mp mem with mem | mem
      · exact Nat.lt_of_lt_of_le (bounded.members t g mem) h.aggregates_size
      · obtain ⟨_, same, -, upper⟩ := new _ mem
        cases same
        exact upper
    · exact (h.members t g (Nat.le_of_not_lt lt) mem).2

lemma Extends.free (h : l.Extends P l') (free : l.Free t) : l'.Free t where
  lt := Nat.lt_of_lt_of_le free.lt h.size
  apart g a found := by
    by_cases lt : g < l.aggregates.size
    · rw [h.aggregates g lt] at found
      exact free.apart g a found
    · exact Nat.ne_of_gt (Nat.lt_of_lt_of_le free.lt (h.results g a (Nat.le_of_not_lt lt) found).1)

/-- What is new stays without anybody who waits for it, unless it has the property. -/
lemma New.stays (h : l.New l' t) (ext : l'.Extends P l'') (other : ¬ P t) : l.New l'' t where
  le := h.le
  lt := Nat.lt_of_lt_of_le h.lt ext.size
  waiting := by
    obtain ⟨more, eq, none, -⟩ := ext.waiting t h.lt
    rw [eq, h.waiting, none other, List.append_nil]

lemma New.mono (h : l'.New l'' t) (size : l.store.size ≤ l'.store.size) : l.New l'' t :=
  ⟨Nat.le_trans size h.le, h.lt, h.waiting⟩

lemma new_fresh : l.New l.fresh.1 l.fresh.2 :=
  ⟨Nat.le_refl _, by simp [Ledger.fresh, Store.fresh, Store.size],
    (Store.waiting_fresh ..).trans (Store.waiting_of_size_le (Nat.le_refl _))⟩

lemma new_settled (success : Bool) : l.New (l.settled success).1 (l.settled success).2 :=
  ⟨Nat.le_refl _, by simp [Ledger.settled, Store.settled, Store.size],
    (Store.waiting_settled ..).trans (Store.waiting_of_size_le (Nat.le_refl _))⟩

/-- What is made by itself is free. -/
lemma free_fresh (bounded : l.Bounded) : l.fresh.1.Free l.fresh.2 :=
  ⟨new_fresh.lt, fun g a found => Nat.ne_of_lt (bounded.results g a found)⟩

end

/-- Gathering extends a ledger, where members may get somebody to wait for them. -/
lemma Gathered.extension {P : Token → Prop} (h : l.Gathered ts l') (allowed : ∀ t ∈ ts, P t)
    (lt : ∀ t ∈ ts, t < l.store.size) : l.Extends P l' where
  size := h.size ▸ Nat.le_succ _
  aggregates_size := by simp [h.aggregates]
  outcome? t lt := by rw [h.outcome?, if_neg (Nat.ne_of_lt lt)]
  aggregates g lt := by simp [h.aggregates, Array.getElem?_push, Nat.ne_of_lt lt]
  waiting t _ := by
    refine ⟨_, h.waiting t, ?_, ?_⟩
    · intro other
      have none : ts.count t = 0 := List.count_eq_zero.mpr fun mem => other (allowed t mem)
      simp [none]
    · intro w mem
      split at mem
      · exact ⟨_, List.eq_of_mem_replicate mem, Nat.le_refl _, by simp [h.aggregates]⟩
      · simp at mem
  members t g le mem := by
    have none : ts.count t = 0 :=
      List.count_eq_zero.mpr fun mem => absurd (lt t mem) (Nat.not_lt.mpr le)
    simp [h.waiting, none, Store.waiting_of_size_le le] at mem
  results g a le found := by
    rw [h.aggregates, Array.getElem?_push] at found
    split at found
    · cases found
      exact ⟨Nat.le_refl _, h.size ▸ Nat.lt_succ_self _⟩
    · simp [Array.getElem?_eq_none le] at found

lemma Gathered.owners (h : l.Gathered ts l') (t : Token) : l'.owners t = l.owners t := by
  rw [Ledger.owners, h.waiting]
  split <;> simp [Ledger.owners, Waiter.own?]

/-- Whoever gathers completions waits for them as an aggregate. -/
lemma owners_ofAll (lt : ∀ t ∈ ts, t < l.store.size) (t : Token) :
    (l.ofAll ts).1.owners t = l.owners t := by
  by_cases none : ts = []
  · subst none
    exact owners_settled true t
  · exact (gathered_ofAll lt none).1.owners t

/-- Whoever gathers completions gets one that nobody waits for. -/
lemma extends_ofAll {P : Token → Prop} (allowed : ∀ t ∈ ts, P t) (lt : ∀ t ∈ ts, t < l.store.size) :
    l.Extends P (l.ofAll ts).1 ∧ l.New (l.ofAll ts).1 (l.ofAll ts).2 := by
  by_cases none : ts = []
  · subst none
    exact ⟨.settled true, new_settled true⟩
  · obtain ⟨gathered, result⟩ := l.gathered_ofAll lt none
    refine ⟨gathered.extension allowed lt, ?_⟩
    rw [result]
    refine ⟨Nat.le_refl _, gathered.size ▸ Nat.lt_succ_self _, ?_⟩
    have apart : ts.count l.store.size = 0 :=
      List.count_eq_zero.mpr fun mem => Nat.lt_irrefl _ (lt _ mem)
    simp [gathered.waiting, apart, Store.waiting_of_size_le (Nat.le_refl _)]

end Ledger

end ProfilePipeline.Completion
