import ProfilePipeline.Proofs.Processing.Serving

/-!
# What is asked of a simple processor

Whatever a simple processor is asked to do, it goes on as its story says.

* **`Serving.emit`** — a record is exported, whether the exporter panics or not.
* **`Serving.flush`** — what is pending is gathered.
* **`Serving.shutdown`** — the first shutdown, which shuts the exporter down at once if nothing is
  pending.
* `Serving.again` — later ones, which succeed without effect.
-/

namespace ProfilePipeline.Processing

open Completion (Token Waiter Ledger Store)
open Export (Answer Exporter)

namespace State

variable {s s' s₁ start : State} {t : Token} {slot : Nat} {e : Exporter}
  {p p' : SimpleProcessor} {story : Story} {r : Record} {todo : List Task}

/-! ## Exports -/

/-- An export that panics leaves nothing to wait for. -/
lemma emitSimple_of_panicked (found : s.simples[slot]? = some p)
    (called : s.callExporter p.exporter (.accept [r]) = (s', .panicked)) :
    s.emitSimple slot r = s' := by
  simp only [emitSimple, found, called]

/-- An export that returns a completion is pending, unless it is over already. -/
lemma emitSimple_of_returned (found : s.simples[slot]? = some p)
    (called : s.callExporter p.exporter (.accept [r]) = (s₁, .returned t)) :
    s₁.Inward (s.emitSimple slot r) ∧ (s.emitSimple slot r).draining = s₁.draining ∧
      (s.emitSimple slot r).exports.ledger =
        (s₁.exports.ledger.register t (.own (.forget slot p.nextId))).1 ∧
      (s.emitSimple slot r).simples[slot]? = some { p with
        nextId := p.nextId + 1
        pending := p.pending ++ if s₁.outcome? t = none then [(p.nextId, t)] else [] } := by
  have found₁ : s₁.simples[slot]? = some p :=
    (congrArg (·.1.simples[slot]?) called).symm.trans found
  have known : s₁.outcome? t = _ := (Ledger.register_snd _ _ (.own (.forget slot p.nextId))).symm
  simp only [emitSimple, found, called, modifySimple, withLedger]
  split
  · rename_i ledger success registered
    rw [registered] at known ⊢
    exact ⟨⟨_, _, _, rfl⟩, rfl, rfl, by simp [Array.getElem?_modify, found₁, known]⟩
  · rename_i ledger registered
    rw [registered] at known ⊢
    exact ⟨⟨_, _, _, rfl⟩, rfl, rfl, by simp [Array.getElem?_modify, found₁, known]⟩

namespace Serving

/-- What every export keeps. -/
lemma exporting {answer : Answer} (h : Serving slot e start story p s [])
    (called : s.callExporter e (.accept [r]) = (s₁, answer)) (after : s₁.Inward s')
    (grows : s.Grows 0 s') (spares : Spares (·.done? ≠ none) s [] s' [])
    (draining : s'.draining = s.draining)
    (exported : Exported slot p'
      ((story.calls ++ [(Export.Call.accept [r], s, answer)]).filterMap Made.export?) s' [])
    (exporter : p'.exporter = p.exporter) (isShutdown : p'.isShutdown = p.isShutdown) :
    Serving slot e start { story with
      emitted := story.emitted ++ [r]
      calls := story.calls ++ [(.accept [r], s, answer)] } p' s' [] := by
  have performed : e.perform (.accept [r]) s.exports = (s₁.exports, answer) :=
    Prod.ext (congrArg (State.exports ∘ Prod.fst) called) (congrArg (fun made => made.2) called)
  have answered := Exporter.answered_perform (.accept [r]) e h.orderly.bounded
  rw [performed] at answered
  have left : (story.calls ++ [(Export.Call.accept [r], s, answer)]).filterMap Made.left? =
      story.left := by simp
  have done (v : Farewell) (mem : v ∈ story.farewell) := (h.farewell v mem).1.lt
  obtain ⟨gathers, farewell⟩ := h.grown grows
  have unnamed := h.unnamed_of_grows answered.grows
  refine ⟨h.orderly.grows grows, transcript_call h.transcript (.refl s) called after, ?_, ?_,
    exporter.trans h.exporter, isShutdown.trans h.isShutdown, exported, ?_, ?_, gathers, farewell,
    ?_, ?_⟩
  · simp [h.batches]
  · exact List.forall_mem_append.mpr ⟨h.plain, List.forall_mem_singleton.mpr (.inl rfl)⟩
  · rw [Story.left, left]
    exact h.stage.frame spares draining done fun v mem b => Iff.rfl
  · intro none
    have calm := (h.calm (left.symm.trans none)).accept [r]
    rw [performed] at calm
    exact calm.of_devices after.devices
  · rw [after.deferred]
    exact unnamed
  · exact fun v mem => List.forall_mem_append.mpr ⟨h.ended v mem, by simp⟩

/-- **A record is exported.** -/
theorem emit (h : Serving slot e start story p s []) (r : Record) :
    ∃ calls p', Serving slot e start { story with emitted := story.emitted ++ [r], calls } p'
      (s.emitSimple slot r) [] := by
  have grows := grows_emitSimple (n := 0) h.orderly slot r
  have answered := Exporter.answered_perform (.accept [r]) e h.orderly.bounded
  rcases performed : e.perform (.accept [r]) s.exports with ⟨exports, answer⟩
  rw [performed] at answered
  have called : s.callExporter e (.accept [r]) = ({ s with exports }, answer) := by
    rw [callExporter, performed]
  have called' := h.exporter.symm ▸ called
  cases answer with
  | panicked =>
      rw [emitSimple_of_panicked h.exported.found called'] at grows ⊢
      have spares (about : Reaction → Prop) : Spares about s [] { s with exports } [] :=
        .of_adds about (.of_exports answered.grows)
      refine ⟨_, p, h.exporting called (.refl _) grows (spares _) rfl ?_ rfl rfl⟩
      simpa [List.filterMap_cons] using h.exported.frame (spares _) h.exported.found rfl rfl
  | returned t =>
      have new := answered.new t rfl
      obtain ⟨after, draining, ledger, found⟩ :=
        emitSimple_of_returned h.exported.found called'
      have adds : s.Adds exports.ledger := .of_exports answered.grows
      have spares : Spares (·.done? ≠ none) s [] (s.emitSimple slot r) [] :=
        .of_register adds ledger (by simp [Reaction.done?]) (by simp)
      have exported := h.exported.begin adds new.le new.lt ledger found rfl rfl
      have more : (story.calls ++ [(Export.Call.accept [r], s, Answer.returned t)]).filterMap
          Made.export? = story.exports ++ [t] := by simp
      rw [← more] at exported
      exact ⟨_, _, h.exporting called after grows spares draining exported rfl rfl⟩

/-! ## Flushes -/

/-- What is only added inside, with nobody registering. -/
lemma adding (h : Serving slot e start story p s []) (inward : s.Inward s') (grows : s.Grows 0 s')
    (owners : ∀ t, s'.owners t = s.owners t) (simples : s'.simples = s.simples)
    (draining : s'.draining = s.draining) : Serving slot e start story p s' [] := by
  have adds : s.Adds s'.exports.ledger := ⟨grows.ledger.size, grows.ledger.outcome?, owners⟩
  have spares (about : Reaction → Prop) : Spares about s [] s' [] := .of_adds about adds
  have found : s'.simples[slot]? = some p := by rw [simples, h.exported.found]
  have done (v : Farewell) (mem : v ∈ story.farewell) := (h.farewell v mem).1.lt
  obtain ⟨gathers, farewell⟩ := h.grown grows
  exact { h with
    orderly := h.orderly.grows grows
    transcript := h.transcript.append Inward.trans inward
    exported := h.exported.frame (spares _) found rfl rfl
    stage := h.stage.frame (spares _) draining done fun v mem b => Iff.rfl
    calm := fun none => (h.calm none).of_devices inward.devices
    gathers := gathers
    farewell := farewell
    unnamed := fun v mem => inward.deferred ▸ h.unnamed v mem }

/-- The exports that are pending. -/
lemma pending (h : Serving slot e start story p s todo) :
    (∀ x ∈ p.pending, s.Pending x.2) ∧ ∀ t ∈ p.pending.map Prod.snd, t < s.size := by
  have pending : ∀ x ∈ p.pending, s.Pending x.2 := fun x mem =>
    ⟨slot, p, x.1, h.exported.found, mem⟩
  exact ⟨pending, List.forall_mem_map.mpr fun x mem => h.orderly.pending _ (pending x mem)⟩

/-- **What is pending is gathered.** -/
theorem flush (h : Serving slot e start story p s []) :
    ∃ t, (s.flushSimple slot).2 = .returned t ∧
      Serving slot e start { story with flushes := (t, p.pending.map Prod.snd) :: story.flushes } p
        (s.flushSimple slot).1 [] := by
  obtain ⟨pending, lt⟩ := h.pending
  obtain ⟨grows, -, untouched⟩ := grows_pendingExports (n := 0) h.orderly pending
  have owners := Ledger.owners_ofAll lt
  have gathers := gathers_ofAll h.orderly lt
  rw [flushSimple, h.exported.found]
  refine ⟨_, rfl, ?_⟩
  have added := h.adding ⟨_, _, _, rfl⟩ grows owners rfl rfl
  exact { added with
    gathers := List.forall_mem_cons.mpr ⟨⟨untouched.lt, gathers⟩, added.gathers⟩
    farewell := fun v mem => (added.farewell v mem).imp_right (List.mem_cons_of_mem _) }

/-! ## Shutdowns -/

/-- A later shutdown succeeds without effect. -/
theorem again (h : Serving slot e start story p s []) (asked : story.farewell.isSome) :
    s.shutdownSimple slot = s.settle true ∧
      Serving slot e start story p (s.settle true).1 [] := by
  have shut : p.isShutdown = true := h.isShutdown.trans asked
  have settled := Export.State.answered_settle (s := s.exports) true
  have grows : s.Grows 0 (s.settle true).1 := .of_exports settled.grows rfl rfl rfl
  refine ⟨?_, h.adding ⟨_, _, _, rfl⟩ grows settled.grows.owners rfl rfl⟩
  rw [shutdownSimple, h.exported.found]
  simp only [shut, if_true]

/-- The exporter was not shut down before anybody asked for it. -/
lemma not_shutdown (h : Serving slot e start story p s todo) (unleft : story.left = []) :
    ∀ made ∈ story.calls, made.1 ≠ .shutdown := by
  rintro ⟨c, found, answer⟩ mem rfl
  obtain ⟨-, u, rfl⟩ := (h.plain _ mem).resolve_left (by simp [Export.Call.operation])
  have left : u ∈ story.left := List.mem_filterMap.mpr ⟨_, mem, rfl⟩
  rw [unleft] at left
  exact absurd left List.not_mem_nil

/-- **How a shutdown begins**: what is pending is gathered, and the completion to be returned is
made. -/
structure Closing (slot : Nat) (p : SimpleProcessor) (v : Farewell) (s s' : State) : Prop where
  inward : s.Inward s'
  grows : s.Grows 0 s'
  found : s'.simples[slot]? = some { p with isShutdown := true }
  draining : s'.draining = slot :: s.draining
  owners : ∀ t, s'.owners t = s.owners t
  size_le : s.size ≤ v.flushed ∧ s.size ≤ v.done
  lt : v.flushed < s'.size
  free : s'.Free v.done
  pending : s'.outcome? v.done = none
  gathers : Gathers v.flushed v.members s' []

lemma closing (h : Serving slot e start story p s []) {flushed done : Token} {s₂ : State}
    (closed : s.close slot = (s₁, done)) (drained : s₁.drain slot p = (s₂, flushed)) :
    Closing slot p ⟨flushed, done, p.pending.map Prod.snd⟩ s s₂ := by
  obtain rfl : (s.close slot).1 = s₁ := congrArg Prod.fst closed
  obtain rfl : (s.close slot).2 = done := congrArg Prod.snd closed
  obtain rfl : ((s.close slot).1.drain slot p).1 = s₂ := congrArg Prod.fst drained
  obtain rfl : ((s.close slot).1.drain slot p).2 = flushed := congrArg Prod.snd drained
  obtain ⟨closes, le, untouched, free⟩ := grows_close (n := 0) h.orderly slot
  have found : (s.close slot).1.simples[slot]? = some { p with isShutdown := true } := by
    simp [close, modifySimple, withLedger, Array.getElem?_modify, h.exported.found]
  have pending : ∀ x ∈ p.pending, (s.close slot).1.Pending x.2 := fun x mem =>
    ⟨slot, _, x.1, found, mem⟩
  have orderly := h.orderly.grows closes
  have lt : ∀ t ∈ p.pending.map Prod.snd, t < (s.close slot).1.size :=
    List.forall_mem_map.mpr fun x mem => orderly.pending _ (pending x mem)
  obtain ⟨drains, new⟩ := grows_drain (n := 0) orderly slot pending
  obtain ⟨-, -, gathered⟩ := grows_pendingExports (n := 0) orderly pending
  have unresolved : (s.close slot).1.outcome? (s.close slot).2 = none :=
    (Store.outcome?_fresh ..).trans (Store.outcome?_of_size_le (Nat.le_refl _))
  exact {
    inward := ⟨_, _, _, rfl⟩
    grows := closes.trans drains
    found := found
    draining := rfl
    owners := fun t => (Ledger.owners_ofAll lt t).trans (Ledger.owners_fresh t)
    size_le := ⟨Nat.le_trans closes.ledger.size new, le⟩
    lt := gathered.lt
    free := drains.ledger.free free
    pending := (drains.ledger.outcome? _ untouched.lt).trans unresolved
    gathers := gathers_ofAll orderly lt }

/-- **The first shutdown begins**: somebody waits for what is pending, or is called at once. -/
lemma asking (h : Serving slot e start story p s []) (unasked : story.farewell = none)
    {v : Farewell} {s₂ : State} (closing : Closing slot p v s s₂)
    (eq : s' = s₂.withLedger (s₂.exports.ledger.register v.flushed (.own (v.next slot))).1) :
    Serving slot e start { story with
      flushes := (v.flushed, v.members) :: story.flushes
      farewell := some v } { p with isShutdown := true } s'
      (Task.calls (.own (v.next slot)) (s₂.outcome? v.flushed)) := by
  have inward : s.Inward s' := closing.inward.trans ⟨_, _, _, eq⟩
  have found : s'.simples[slot]? = some { p with isShutdown := true } := by
    rw [eq, withLedger, closing.found]
  have draining : s'.draining = slot :: s.draining := by rw [eq, withLedger, closing.draining]
  have ledger : s'.exports.ledger =
      (s₂.exports.ledger.register v.flushed (.own (v.next slot))).1 := by rw [eq, withLedger]
  obtain ⟨size, -, -⟩ := view_register ledger
  have grows : s.Grows 0 s' := eq ▸ closing.grows.register closing.size_le.1 fun t same =>
    Option.some.inj same ▸ closing.free
  have free : s'.Free v.done :=
    ⟨Nat.lt_of_lt_of_eq closing.free.lt size.symm, ledger ▸ closing.free.apart⟩
  have unasked' := h.stage.unasked unasked
  have spares : Spares (·.done? = none) s [] s'
      (Task.calls (.own (v.next slot)) (s₂.outcome? v.flushed)) := by
    have adds : s.Adds s₂.exports.ledger :=
      ⟨closing.grows.ledger.size, closing.grows.ledger.outcome?, closing.owners⟩
    refine .of_register adds ledger (by simp [Reaction.done?]) fun k b about => ?_
    have other : k ≠ v.next slot := by
      rintro rfl
      cases about
    simp [Task.mem_calls, other]
  refine { h with
    orderly := (h.orderly.grows grows).calls rfl free _
    transcript := h.transcript.append Inward.trans inward
    isShutdown := rfl
    exported := h.exported.frame spares found rfl rfl
    stage := unasked'.shutdown closing.owners closing.lt closing.pending ledger draining
    calm := fun none => (h.calm none).of_devices inward.devices
    gathers := List.forall_mem_cons.mpr ⟨⟨size ▸ closing.lt, ?_⟩, fun f mem => ?_⟩
    farewell := fun v' mem => ?_
    unnamed := fun v' mem named there => ?_
    ended := fun v' mem made there shut => ?_ }
  · exact (closing.gathers.register _ _ ledger).calls _ rfl free
  · obtain ⟨lt, gathers⟩ := (h.grown grows).1 f mem
    exact ⟨lt, gathers.calls _ rfl free⟩
  · cases Option.some.inj mem
    exact ⟨free, List.mem_cons_self⟩
  · cases Option.some.inj mem
    rw [inward.deferred] at there
    exact Nat.ne_of_lt
      (Nat.lt_of_lt_of_le (h.orderly.claims _ (.named there)).lt closing.size_le.2)
  · exact absurd shut (h.not_shutdown unasked'.unleft made there)

/-- **The first shutdown** returns a completion, and shuts the exporter down sooner or later. -/
theorem shutdown (h : Serving slot e start story p s []) (unasked : story.farewell = none) :
    ∃ v calls p', v.members = p.pending.map Prod.snd ∧
      (s.shutdownSimple slot).2 = .returned v.done ∧
      Serving slot e start { story with
        calls
        flushes := (v.flushed, v.members) :: story.flushes
        farewell := some v } p' (s.shutdownSimple slot).1 [] := by
  have first : p.isShutdown = false := by rw [h.isShutdown, unasked, Option.isSome_none]
  rcases closed : s.close slot with ⟨s₁, done⟩
  rcases drained : s₁.drain slot p with ⟨s₂, flushed⟩
  have closing := h.closing closed drained
  have shut := shutdownSimple_eq h.exported.found first closed drained
  dsimp only at shut
  obtain ⟨s', eq⟩ : ∃ s', s' = s₂.withLedger (s₂.exports.ledger.register flushed
      (.own (.shutExporter slot flushed done))).1 := ⟨_, rfl⟩
  have known : s'.outcome? flushed = s₂.outcome? flushed := by
    rw [eq]
    exact Store.outcome?_register ..
  rw [← eq, known] at shut
  obtain ⟨calls, p', calm, served⟩ := (h.asking unasked closing eq).run
  rw [shut]
  exact ⟨_, calls, p', rfl, by simp [calm], served⟩

end Serving

end State

end ProfilePipeline.Processing
