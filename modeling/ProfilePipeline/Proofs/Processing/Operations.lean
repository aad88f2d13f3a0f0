import ProfilePipeline.Proofs.Processing.Trail
import ProfilePipeline.Processing.Processor

/-!
# Everything that is done with a pipeline goes in small steps

Each operation of a pipeline, with all the callbacks that it sets off, leads from one orderly state
to another (`State.Leads`), and the completion it returns is one that nobody knows yet
(`State.Answered`): calls of exporters, simple and batch processors, those of somebody else, and
whatever is made of them (`Processor.answered_perform`, `Processor.leads_onEmit`).
-/

namespace ProfilePipeline.Processing

open Completion (Token Waiter Ledger Store)
open Export (Answer Exporter)

namespace State

variable {s s' s'' : State} {t : Token} {n slot : Nat}

/-- A call leads somewhere, and what it returns is new and untouched. -/
structure Answered (s : State) (result : State × Answer) : Prop where
  leads : s.Leads s.size result.1
  new : ∀ t, result.2 = .returned t → s.size ≤ t ∧ result.1.Untouched t

/-- What is new is not pending yet. -/
lemma Untouched.of_new (orderly : s.Orderly []) (new : s.exports.ledger.New s'.exports.ledger t)
    (pending : s'.Pending t → s.Pending t) : s'.Untouched t :=
  ⟨new.lt, new.waiting, fun pends =>
    Nat.not_lt.mpr new.le (orderly.pending t (pending pends))⟩

lemma Answered.frame {answer : Answer} (h : s'.Answered (s'', answer))
    (leads : s.Leads s.size s') (orderly : s.Orderly []) : s.Answered (s'', answer) := by
  have le := leads.size_le orderly
  exact ⟨leads.trans (h.leads.mono le),
    fun t returned => (h.new t returned).imp_left (Nat.le_trans le)⟩

/-! ## Exporters -/

/-- What exporters do, leaving processors alone. -/
lemma answered_of_exports {exports : Export.State Reaction} {answer : Answer}
    (orderly : s.Orderly []) (h : s.exports.Answered (exports, answer))
    (exports_eq : s'.exports = exports) (simples : s'.simples = s.simples)
    (batches : s'.batches = s.batches) : s.Answered (s', answer) where
  leads := leads_of_grows orderly (.of_exports h.grows exports_eq simples batches)
  new t returned := by
    subst exports_eq
    have new := h.new t returned
    exact ⟨new.le, .of_new orderly new (by simp only [Pending, simples, imp_self])⟩

lemma answered_settle (orderly : s.Orderly []) (success : Bool) : s.Answered (s.settle success) :=
  answered_of_exports orderly (Export.State.answered_settle success) rfl rfl rfl

/-- **A call of an exporter.** -/
lemma grows_callExporter (bounded : s.exports.ledger.Bounded) (e : Exporter) (c : Export.Call) :
    s.Grows n (s.callExporter e c).1 :=
  .of_exports (Exporter.answered_perform c e bounded).grows rfl rfl rfl

lemma answered_callExporter (orderly : s.Orderly []) (e : Exporter) (c : Export.Call) :
    s.Answered (s.callExporter e c) :=
  answered_of_exports orderly (Exporter.answered_perform c e orderly.bounded) rfl rfl rfl

/-! ## Stacks of tasks -/

/-- A stack of tasks runs in small steps. -/
lemma advances_run (s : State) (todo : List Task) : Advances n (s, todo) ((s.run todo).1, []) := by
  fun_induction run s todo with
  | case1 s => exact .refl
  | case2 s task tasks s' eq => exact .single (.panic eq)
  | case3 s task tasks s' more eq ih => exact .head (.step eq) ih

/-- **A task runs with everything it sets off.** -/
lemma leads_run {task : Task} (orderly : s.Orderly []) (claim : task.claim? = some t)
    (free : s.Free t) : s.Leads n (s.run [task]).1 := by
  have start : Advances n (s, []) (s, [task]) := .single (.start claim free)
  exact leads_of_advances orderly (start.trans (s.advances_run [task]))

/-- A callback is called at once, or not at all. -/
lemma leads_calls {k : Reaction} (orderly : s.Orderly []) (claim : k.done? = some t)
    (free : s.Free t) (outcome : Option Bool) :
    s.Leads n (s.run (Task.calls (.own k) outcome)).1 := by
  cases outcome with
  | none =>
      rw [Task.calls, Option.map_none, Option.toList_none, run]
      exact .refl orderly
  | some success => exact leads_run orderly claim free

/-- **A completion is resolved by somebody who may.** -/
lemma leads_resolve (orderly : s.Orderly []) (free : s.Free t) (success : Bool) :
    s.Leads n (s.resolve t success).1 := leads_run orderly rfl free

/-! ## Simple processors -/

/-- An export becomes pending. -/
lemma grows_pend (slot : Nat) {id : Nat} (h : s.Grows n s') (new : s.size ≤ t) (lt : t < s'.size) :
    s.Grows n (s'.modifySimple slot fun p => { p with pending := p.pending ++ [(id, t)] }) where
  ledger := h.ledger
  pending u := by
    rintro ⟨slot', p, id', found, mem⟩
    simp only [modifySimple, Array.getElem?_modify] at found
    split at found
    · obtain ⟨q, found', rfl⟩ := Option.map_eq_some_iff.mp found
      rcases List.mem_append.mp mem with mem | mem
      · exact h.pending u ⟨slot', q, id', found', mem⟩
      · obtain ⟨-, rfl⟩ := Prod.mk.inj (List.mem_singleton.mp mem)
        exact .inr ⟨new, lt⟩
    · exact h.pending u ⟨slot', p, id', found, mem⟩
  claims u claims := by
    cases claims with
    | named mem => exact h.claims u (.named mem)
    | promised mem => exact h.claims u (.promised mem)
    | waiting mem done => exact h.claims u (.waiting mem done)

/-- A simple processor exports a record. -/
lemma grows_emitSimple (orderly : s.Orderly []) (slot : Nat) (r : Record) :
    s.Grows n (s.emitSimple slot r) := by
  rw [emitSimple]
  split
  · exact .of_le rfl rfl (fun _ => id) fun _ => id
  · rename_i p _
    have answered := Exporter.answered_perform (.accept [r]) p.exporter orderly.bounded
    have grows := grows_callExporter (n := n) orderly.bounded p.exporter (.accept [r])
    rcases called : s.callExporter p.exporter (.accept [r]) with ⟨s', answer⟩
    rw [called] at grows
    cases answer with
    | panicked => exact grows
    | returned t =>
        have new := answered.new t (congrArg Prod.snd called)
        have size : t < s'.size := by
          have lt := new.lt
          rwa [show (p.exporter.perform (.accept [r]) s.exports).1 = s'.exports from
            congrArg (·.1.exports) called] at lt
        have grown := grows.trans (s'.grows_modifySimple slot
          (fun p => { p with nextId := p.nextId + 1 }) fun _ _ => id)
        have registered := grown.register (k := .forget slot p.nextId) new.le
          (by simp [Reaction.done?])
        dsimp only
        split
        · rename_i ledger success register
          rw [register] at registered
          exact registered
        · rename_i ledger register
          rw [register] at registered
          have kept : ledger.store.size = s'.size :=
            (congrArg (·.1.store.size) register).symm.trans (Store.size_register ..)
          exact grows_pend slot registered new.le (Nat.lt_of_lt_of_eq size kept.symm)

lemma leads_emitSimple (orderly : s.Orderly []) (slot : Nat) (r : Record) :
    s.Leads n (s.emitSimple slot r) := leads_of_grows orderly (grows_emitSimple orderly slot r)

/-- Completions are gathered. -/
lemma grows_ofAll {ts : List Token} (orderly : s.Orderly []) (lt : ∀ t ∈ ts, t < s.size)
    (allowed : ∀ t ∈ ts, s.Pending t ∨ n ≤ t) :
    s.Grows n { s with exports := (s.exports.ofAll ts).1 } ∧ s.size ≤ (s.exports.ofAll ts).2 ∧
      State.Untouched { s with exports := (s.exports.ofAll ts).1 } (s.exports.ofAll ts).2 := by
  obtain ⟨extension, new⟩ := Ledger.extends_ofAll allowed lt
  have owners := Ledger.owners_ofAll lt
  refine ⟨⟨extension, fun t => .inl, fun t claims => ?_⟩, new.le, .of_new orderly new id⟩
  cases claims with
  | named mem => exact .inl (.named mem)
  | promised mem => exact .inl (.promised mem)
  | waiting mem done => exact .inl (.waiting (owners _ ▸ mem) done)

/-- A simple processor waits for what is pending. -/
lemma grows_pendingExports {p : SimpleProcessor} (orderly : s.Orderly [])
    (pending : ∀ e ∈ p.pending, s.Pending e.2) :
    s.Grows n (s.pendingExports p).1 ∧ s.size ≤ (s.pendingExports p).2 ∧
      (s.pendingExports p).1.Untouched (s.pendingExports p).2 := by
  have pending : ∀ t ∈ p.pending.map Prod.snd, s.Pending t := List.forall_mem_map.mpr pending
  exact grows_ofAll orderly (fun t mem => orderly.pending t (pending t mem))
    fun t mem => .inl (pending t mem)

lemma answered_flushSimple (orderly : s.Orderly []) (slot : Nat) :
    s.Answered (s.flushSimple slot) := by
  rw [flushSimple]
  split
  · exact answered_settle orderly true
  · rename_i p found
    obtain ⟨grows, le, untouched⟩ := grows_pendingExports orderly
      fun e mem => ⟨slot, p, e.1, found, mem⟩
    refine ⟨leads_of_grows orderly grows, ?_⟩
    rintro t ⟨⟩
    exact ⟨le, untouched⟩

/-- A completion is made for somebody who is going to resolve it. -/
lemma grows_fresh (orderly : s.Orderly []) :
    s.Grows n (s.withLedger s.exports.ledger.fresh.1) ∧
      (s.withLedger s.exports.ledger.fresh.1).Untouched s.exports.ledger.fresh.2 ∧
      (s.withLedger s.exports.ledger.fresh.1).Free s.exports.ledger.fresh.2 := by
  refine ⟨⟨.fresh, fun t => .inl, fun t claims => ?_⟩, .of_new orderly Ledger.new_fresh id,
    Ledger.free_fresh orderly.bounded⟩
  cases claims with
  | named mem => exact .inl (.named mem)
  | promised mem => exact .inl (.promised mem)
  | waiting mem done =>
      rw [withLedger, Ledger.owners_fresh] at mem
      exact .inl (.waiting mem done)

/-- A simple processor notes that it is shut down, and makes the completion that it returns. -/
def close (s : State) (slot : Nat) : State × Token :=
  let s := s.modifySimple slot fun p => { p with isShutdown := true }
  (s.withLedger s.exports.ledger.fresh.1, s.exports.ledger.fresh.2)

/-- It gathers what is pending, in order to shut its exporter down afterwards. -/
def drain (s : State) (slot : Nat) (p : SimpleProcessor) : State × Token :=
  let (s, flushed) := s.pendingExports p
  ({ s with draining := slot :: s.draining }, flushed)

/-- Whoever waits for a completion that has its outcome is called at once. -/
lemma run_registered {ledger : Ledger Reaction} {outcome : Option Bool} {w : Waiter Reaction}
    (registered : s.exports.ledger.register t w = (ledger, outcome)) (done : Token) :
    (let s' := s.withLedger (s.exports.ledger.register t w).1
      let ran := s'.run (Task.calls w (s'.outcome? t))
      (ran.1, if ran.2 then Answer.panicked else .returned done)) =
      (((s.withLedger ledger).run (Task.calls w outcome)).1,
        if ((s.withLedger ledger).run (Task.calls w outcome)).2 then .panicked
        else .returned done) := by
  have known : State.outcome? (s.withLedger (s.exports.ledger.register t w).1) t =
      (s.exports.ledger.register t w).2 :=
    (Store.outcome?_register ..).trans (Ledger.register_snd ..).symm
  dsimp only
  rw [known, registered]

/-- **The first shutdown of a simple processor**: somebody waits for what is pending, or is called
at once. -/
lemma shutdownSimple_eq {p : SimpleProcessor} (found : s.simples[slot]? = some p)
    (first : p.isShutdown = false) {s₁ s₂ : State} {flushed done : Token}
    (closed : s.close slot = (s₁, done)) (drained : s₁.drain slot p = (s₂, flushed)) :
    s.shutdownSimple slot =
      let next := Waiter.own (.shutExporter slot flushed done)
      let s' := s₂.withLedger (s₂.exports.ledger.register flushed next).1
      let ran := s'.run (Task.calls next (s'.outcome? flushed))
      (ran.1, if ran.2 then .panicked else .returned done) := by
  obtain rfl : (s.close slot).1 = s₁ := congrArg Prod.fst closed
  obtain rfl : (s.close slot).2 = done := congrArg Prod.snd closed
  obtain rfl : ((s.close slot).1.drain slot p).1 = s₂ := congrArg Prod.fst drained
  obtain rfl : ((s.close slot).1.drain slot p).2 = flushed := congrArg Prod.snd drained
  simp only [shutdownSimple, found, first, Bool.false_eq_true, if_false]
  split
  · rename_i registered
    refine Eq.trans ?_ (run_registered (s := ((s.close slot).1.drain slot p).1) registered _).symm
    rw [Task.calls, Option.map_none, Option.toList_none, run]
    rfl
  · rename_i registered
    refine Eq.trans ?_ (run_registered (s := ((s.close slot).1.drain slot p).1) registered _).symm
    rw [Task.calls, Option.map_some, Option.toList_some]
    split
    · rename_i ran
      erw [ran]
      rfl
    · rename_i ran
      erw [ran]
      rfl

lemma grows_close (orderly : s.Orderly []) (slot : Nat) :
    s.Grows n (s.close slot).1 ∧ s.size ≤ (s.close slot).2 ∧
      (s.close slot).1.Untouched (s.close slot).2 ∧ (s.close slot).1.Free (s.close slot).2 := by
  have shut : s.Grows n (s.modifySimple slot fun p => { p with isShutdown := true }) :=
    grows_modifySimple slot _ fun _ _ => id
  obtain ⟨fresh, untouched, free⟩ := grows_fresh (n := n) (orderly.grows shut)
  exact ⟨shut.trans fresh, Nat.le_refl _, untouched, free⟩

lemma grows_drain {p : SimpleProcessor} (orderly : s.Orderly []) (slot : Nat)
    (pending : ∀ e ∈ p.pending, s.Pending e.2) :
    s.Grows n (s.drain slot p).1 ∧ s.size ≤ (s.drain slot p).2 := by
  obtain ⟨gathers, new, -⟩ := grows_pendingExports (n := n) orderly pending
  exact ⟨gathers.trans (.of_le rfl rfl (fun _ => id) fun _ => id), new⟩

/-- A simple processor is shut down. -/
lemma answered_shutdownSimple (orderly : s.Orderly []) (slot : Nat) :
    s.Answered (s.shutdownSimple slot) := by
  cases found : s.simples[slot]? with
  | none =>
      rw [shutdownSimple, found]
      exact answered_settle orderly true
  | some p =>
      cases first : p.isShutdown with
      | true =>
          rw [shutdownSimple, found]
          simp only [first]
          exact answered_settle orderly true
      | false =>
          have closes := grows_close (n := s.size) orderly slot
          have pending : ∀ e ∈ p.pending, (s.close slot).1.Pending e.2 := fun e mem =>
            ⟨slot, { p with isShutdown := true }, e.1,
              by simp [close, modifySimple, withLedger, Array.getElem?_modify, found], mem⟩
          rcases closed : s.close slot with ⟨s₁, done⟩
          rw [closed] at closes pending
          obtain ⟨closes, le, untouched, free⟩ := closes
          have orderly₁ := orderly.grows closes
          obtain ⟨drains, new⟩ := grows_drain (n := s₁.size) orderly₁ slot pending
          rcases drained : s₁.drain slot p with ⟨s₂, flushed⟩
          rw [drained] at drains new
          rw [shutdownSimple_eq found first closed drained]
          have registers := drains.register (k := .shutExporter slot flushed done) new
            fun t same => Option.some.inj same ▸ drains.ledger.free free
          have leads (outcome : Option Bool) := (leads_of_grows orderly₁ registers).trans
            (leads_calls (k := .shutExporter slot flushed done) (orderly₁.grows registers) rfl
              (registers.ledger.free free) outcome)
          refine ⟨(leads_of_grows orderly closes).trans ((leads _).mono closes.ledger.size), ?_⟩
          intro t returned
          dsimp only at returned
          split at returned
          · cases returned
          · cases returned
            exact ⟨le, (leads _).untouched orderly₁ untouched untouched.lt⟩

/-! ## Processors of somebody else -/

lemma answered_requestScripted (orderly : s.Orderly []) (slot : Nat) (request : Request) :
    s.Answered (s.requestScripted slot request) := by
  rw [requestScripted]
  split
  · exact answered_settle orderly true
  · split
    · exact answered_settle orderly true
    · exact answered_of_exports orderly (Export.State.answered_enact orderly.bounded ..) rfl rfl rfl

lemma leads_emitScripted (orderly : s.Orderly []) (slot : Nat) (span : SpanContext)
    (r : LiveRecord) : s.Leads n (s.emitScripted slot span r).1 := by
  rw [emitScripted]
  split
  · exact .refl orderly
  · have noted (name : String) (what : Export.Happening) :
        s.exports.Grows (s.exports.note name what) := .of_eq rfl rfl
    exact leads_of_grows orderly (.of_exports (noted _ _) rfl rfl rfl)

/-! ## Batch processors -/

/-- A batch processor changes, and has returned no more completions. -/
lemma grows_modifyBatch (slot : Nat) (f : BatchProcessor → BatchProcessor)
    (sub : ∀ p, s.batches[slot]? = some p → ∀ m ∈ (f p).promised, m ∈ p.promised) :
    s.Grows n (s.modifyBatch slot f) := by
  refine .of_le rfl rfl (fun _ => id) ?_
  rintro t ⟨slot', p, mine, found, mem⟩
  simp only [modifyBatch, Array.getElem?_modify] at found
  split at found
  · subst_vars
    obtain ⟨q, found', rfl⟩ := Option.map_eq_some_iff.mp found
    exact ⟨slot', q, mine, found', sub q found' _ mem⟩
  · exact ⟨slot', p, mine, found, mem⟩

/-- A step of the worker makes no completions for others. -/
lemma promised_step {p p' : BatchProcessor} {o : Batch.Surroundings} (h : p.step o = some p') :
    p'.promised = p.promised := by
  obtain ⟨_, -, rfl⟩ := Option.map_eq_some_iff.mp h
  rfl

/-- The worker of a batch processor may call the exporter. -/
lemma leads_driveOnce (orderly : s.Orderly []) (p : BatchProcessor) :
    s.Leads n (s.driveOnce p).1 ∧ (s.driveOnce p).1.batches = s.batches ∧
      ∀ p', (s.driveOnce p).2 = some p' → p'.promised = p.promised := by
  have called (c : Export.Call) : s.Leads n (s.callExporter p.exporter c).1 ∧
      (s.callExporter p.exporter c).1.batches = s.batches :=
    ⟨leads_of_grows orderly (grows_callExporter orderly.bounded p.exporter c), rfl⟩
  rw [driveOnce]
  split
  · exact ⟨.refl orderly, rfl, fun p' => promised_step⟩
  · obtain ⟨leads, batches⟩ := called .shutdown
    split
    · rename_i s' eq
      rw [eq] at leads batches
      exact ⟨leads, batches, fun p' => promised_step⟩
    · rename_i s' t eq
      rw [eq] at leads batches
      refine ⟨leads, batches, fun p' eq => ?_⟩
      obtain ⟨q, stepped, rfl⟩ := Option.map_eq_some_iff.mp eq
      rw [← promised_step stepped]
      split <;> rfl
  · rename_i records _
    obtain ⟨leads, batches⟩ := called (.accept records)
    split
    · split
      · exact ⟨.refl orderly, rfl, by simp⟩
      · exact ⟨.refl orderly, rfl, fun p' => promised_step⟩
    · split
      · rename_i s' eq
        rw [eq] at leads batches
        exact ⟨leads, batches, fun p' => promised_step⟩
      · rename_i s' t eq
        rw [eq] at leads batches
        refine ⟨leads, batches, ?_⟩
        rintro p' ⟨⟩
        rfl

/-- So it goes as far as it can. -/
lemma leads_drive (slot fuel : Nat) (s : State) (orderly : s.Orderly []) :
    s.Leads n (drive slot fuel s) := by
  induction fuel generalizing s with
  | zero => exact .refl orderly
  | succ fuel ih =>
      rw [drive]
      split
      · exact .refl orderly
      · rename_i p found
        obtain ⟨leads, batches, promised⟩ := leads_driveOnce orderly p
        split
        · rename_i s' eq
          rw [eq] at leads
          exact leads
        · rename_i s' p' eq
          rw [eq] at leads batches promised
          have changed : s'.Grows n (s'.modifyBatch slot fun _ => p') := by
            refine grows_modifyBatch slot _ fun q found' m mem => ?_
            have batches : s'.batches = s.batches := batches
            rw [batches, found] at found'
            obtain rfl := Option.some.inj found'
            rwa [promised p' rfl] at mem
          have leads := leads.trans (leads_of_grows leads.orderly changed)
          exact leads.trans (ih _ leads.orderly)

/-- Several completions are resolved, one after the other. -/
lemma leads_resolveEach (handed : List (Token × Bool)) {s : State} (orderly : s.Orderly [])
    (free : ∀ h ∈ handed, s.Free h.1) :
    s.Leads n (handed.foldl (fun (s : State) (t, success) => (s.resolve t success).1) s) := by
  induction handed generalizing s with
  | nil => exact .refl orderly
  | cons h handed ih =>
      have leads := leads_resolve (n := n) orderly (free h List.mem_cons_self) h.2
      refine leads.trans (ih leads.orderly fun h mem => ?_)
      exact leads.free orderly (free h (List.mem_cons_of_mem _ mem))

/-- Outcomes are passed on. -/
lemma leads_publish (orderly : s.Orderly []) (slot : Nat) : s.Leads n (s.publish slot) := by
  rw [publish]
  split
  · exact .refl orderly
  · rename_i p found
    have changed (keep : BatchProcessor → Token × Token → Bool) : s.Grows n
        (s.modifyBatch slot fun p => { p with promised := p.promised.filter (keep p) }) :=
      grows_modifyBatch slot _ fun q _ m mem => (List.mem_filter.mp mem).1
    have leads (keep : BatchProcessor → Token × Token → Bool) :=
      leads_of_grows orderly (changed keep)
    refine (leads _).trans (leads_resolveEach _ (leads _).orderly ?_)
    intro handed mem
    obtain ⟨⟨mine, t⟩, promised, eq⟩ := List.mem_filterMap.mp mem
    obtain ⟨success, -, rfl⟩ := Option.map_eq_some_iff.mp eq
    exact (changed _).ledger.free (orderly.claims t (.promised ⟨slot, p, mine, found, promised⟩))

lemma leads_hear (orderly : s.Orderly []) (slot : Nat) : s.Leads n (s.hear slot) := by
  rw [hear]
  split
  · exact .refl orderly
  · exact leads_of_grows orderly (grows_modifyBatch slot _ fun _ _ _ => id)

/-- **All batch processors go as far as they can.** -/
lemma leads_advanceBatches (orderly : s.Orderly []) : s.Leads n s.advanceBatches := by
  rw [advanceBatches]
  generalize List.range s.batches.size = slots
  induction slots generalizing s with
  | nil => exact .refl orderly
  | cons slot slots ih =>
      have hears := leads_hear (n := n) orderly slot
      have drives (fuel : Nat) := leads_drive (n := n) slot fuel _ hears.orderly
      have publishes (fuel : Nat) := leads_publish (n := n) (drives fuel).orderly slot
      have leads (fuel : Nat) := (hears.trans (drives fuel)).trans (publishes fuel)
      exact (leads _).trans (ih (leads _).orderly)

lemma leads_timeOutExports (orderly : s.Orderly []) : s.Leads n s.timeOutExports := by
  rw [timeOutExports]
  have changed : s.Grows n { s with batches := s.batches.map fun p =>
      if p.flight.isSome then
        ({ p with flight := none }.step { exported := .timedOut }).getD p
      else p } := by
    refine .of_le rfl rfl (fun _ => id) ?_
    rintro t ⟨slot, p, mine, found, mem⟩
    obtain ⟨q, found', rfl⟩ := Option.map_eq_some_iff.mp (Array.getElem?_map ▸ found)
    refine ⟨slot, q, mine, found', ?_⟩
    split at mem
    · cases stepped : { q with flight := none }.step { exported := .timedOut } with
      | none => rwa [stepped] at mem
      | some p' =>
          rw [stepped] at mem
          rwa [← promised_step stepped]
    · exact mem
  have leads := leads_of_grows orderly changed
  exact leads.trans (leads_advanceBatches leads.orderly)

/-- A completion is returned for one of the machine's. -/
lemma grows_promise (slot : Nat) (machine : Batch.Machine Record) (mine : Token)
    (h : s.Grows n s') (free : s'.Free t) :
    s.Grows n (s'.modifyBatch slot fun p =>
      { p with machine, promised := p.promised ++ [(mine, t)] }) where
  ledger := h.ledger
  pending := h.pending
  claims u claims := by
    cases claims with
    | named mem => exact h.claims u (.named mem)
    | waiting mem done => exact h.claims u (.waiting mem done)
    | promised promised =>
        obtain ⟨slot', p, mine', found, mem⟩ := promised
        simp only [modifyBatch, Array.getElem?_modify] at found
        split at found
        · obtain ⟨q, found', rfl⟩ := Option.map_eq_some_iff.mp found
          rcases List.mem_append.mp mem with mem | mem
          · exact h.claims u (.promised ⟨slot', q, mine', found', mem⟩)
          · obtain ⟨-, rfl⟩ := Prod.mk.inj (List.mem_singleton.mp mem)
            exact .inr free
        · exact h.claims u (.promised ⟨slot', p, mine', found, mem⟩)

lemma answered_callBatch (orderly : s.Orderly []) (slot : Nat) (call : Batch.Call Record) :
    s.Answered (s.callBatch slot call) := by
  rw [callBatch]
  split
  · exact answered_settle orderly true
  · rename_i p found
    split
    · exact ⟨.refl orderly, by simp⟩
    · rename_i machine mine _ _
      obtain ⟨fresh, untouched, free⟩ := grows_fresh orderly
      have promises := grows_promise (n := s.size) slot machine mine fresh free
      have leads := leads_of_grows orderly promises
      have publishes (n : Nat) := leads_publish (n := n) leads.orderly slot
      have untouched : State.Untouched ((s.withLedger s.exports.ledger.fresh.1).modifyBatch slot
          fun p => { p with machine, promised := p.promised ++ [(mine, s.size)] }) s.size :=
        ⟨untouched.lt, untouched.waiting, untouched.pending⟩
      refine ⟨leads.trans (publishes _), ?_⟩
      rintro t ⟨⟩
      exact ⟨Nat.le_refl _, (publishes _).untouched leads.orderly untouched untouched.lt⟩

/-- Catching a panic makes one more completion. -/
lemma contain_answered {answer : Answer} (orderly : s.Orderly []) (h : s.Answered (s', answer)) :
    s.Leads s.size { s' with exports := (s'.exports.contain answer).1 } ∧
      s.size ≤ (s'.exports.contain answer).2 ∧
      State.Untouched { s' with exports := (s'.exports.contain answer).1 }
        (s'.exports.contain answer).2 := by
  cases answer with
  | returned t => exact ⟨h.leads, h.new t rfl⟩
  | panicked =>
      have settled := (answered_settle h.leads.orderly false).frame h.leads orderly
      exact ⟨settled.leads, settled.new _ rfl⟩

end State

namespace Processor

variable {n : Nat}

mutual

/-- **A record goes through a processor.** -/
theorem leads_onEmit (span : SpanContext) : ∀ (p : Processor) (r : LiveRecord) {s : State},
    s.Orderly [] → s.Leads n (p.onEmit span r s).1
  | discard, _, _, orderly => .refl orderly
  | simple slot, _, _, orderly => State.leads_emitSimple orderly slot _
  | batch slot, _, _, orderly =>
      State.leads_of_grows orderly (State.grows_modifyBatch slot _ fun _ _ _ => id)
  | scripted slot, r, _, orderly => State.leads_emitScripted orderly slot span r
  | fanOut _ children, r, _, orderly => leads_onEmitEach span children r orderly

theorem leads_onEmitEach (span : SpanContext) : ∀ (ps : List Processor) (r : LiveRecord)
    {s : State}, s.Orderly [] → s.Leads n (onEmitEach span ps r s).1
  | [], _, _, orderly => .refl orderly
  | p :: ps, r, _, orderly => by
      have leads := leads_onEmit span p r orderly
      exact leads.trans (leads_onEmitEach span ps _ leads.orderly)

end

mutual

/-- **A flush or a shutdown of a processor.** -/
theorem answered_perform (request : Request) : ∀ (p : Processor) {s : State}, s.Orderly [] →
    s.Answered (p.perform request s)
  | discard, _, orderly => State.answered_settle orderly true
  | simple slot, _, orderly => by
      cases request with
      | flush => exact State.answered_flushSimple orderly slot
      | shutdown => exact State.answered_shutdownSimple orderly slot
  | batch slot, _, orderly => by
      cases request with
      | flush => exact State.answered_callBatch orderly slot .flush
      | shutdown => exact State.answered_callBatch orderly slot .shutdown
  | scripted slot, _, orderly => State.answered_requestScripted orderly slot request
  | fanOut _ children, s, orderly => by
      obtain ⟨leads, new⟩ := leads_performEach request children orderly
      obtain ⟨grows, le, untouched⟩ := State.grows_ofAll leads.orderly
        (fun t mem => (new t mem).2.lt) fun t mem => .inr (new t mem).1
      refine ⟨leads.trans (State.leads_of_grows leads.orderly grows), ?_⟩
      rintro t ⟨⟩
      exact ⟨Nat.le_trans (leads.size_le orderly) le, untouched⟩

theorem leads_performEach (request : Request) : ∀ (ps : List Processor) {s : State},
    s.Orderly [] → s.Leads s.size (performEach request ps s).1 ∧
      ∀ t ∈ (performEach request ps s).2,
        s.size ≤ t ∧ (performEach request ps s).1.Untouched t
  | [], _, orderly => ⟨.refl orderly, by simp [performEach]⟩
  | p :: ps, s, orderly => by
      have answered := answered_perform request p orderly
      obtain ⟨leads, le, untouched⟩ := State.contain_answered orderly answered
      obtain ⟨more, new⟩ := leads_performEach request ps leads.orderly
      have later := leads.size_le orderly
      refine ⟨leads.trans (more.mono later), fun t mem => ?_⟩
      rcases List.mem_cons.mp mem with rfl | mem
      · exact ⟨le, more.untouched leads.orderly untouched untouched.lt⟩
      · exact (new t mem).imp_left (Nat.le_trans later)

end

end Processor

end ProfilePipeline.Processing
