import Mathlib.Data.List.Induction
import ProfilePipeline.Proofs.Processing.Service

/-!
# Any schedule of uses and results

A simple processor is used, and its exporter resolves the completions that it returned, in any
order.  `State.Serves` is what holds at any time then: of the batches that the exporter received, of
the exports that are pending, of the completions that flushes and shutdowns returned, and of the
shutdown of the exporter.

* `State.use`, `State.follow` — what is done, one thing after the other.
* `Continues` — what each of them adds to the story of the processor.
* **`State.Fresh.serves`** — whatever is done to a new processor, it serves.
-/

namespace ProfilePipeline.Processing

open Completion (Token Waiter Ledger Store)
open Export (Answer Exporter)

/-- What may be done to a simple processor and its exporter. -/
inductive Use where
  | emit (span : SpanContext) (r : LiveRecord)
  | ask (request : Request)
  /-- One of the completions is resolved that exporters left to be resolved by name. -/
  | settle (nth : Nat) (success : Bool)

/-- The record that is emitted. -/
def Use.record? : Use → Option Record
  | emit _ r => some r.snapshot
  | _ => none

namespace State

variable {s start : State} {slot : Nat} {e : Exporter} {p : SimpleProcessor} {story : Story}
  {uses : List Use} {u : Use} {v : Farewell}

/-- **One use**, with the completion that it returns, or whether it panics. -/
def use (slot : Nat) (s : State) : Use → State × Option Answer
  | .emit span r =>
    let (s, _, panicked) := (Processor.simple slot).onEmit span r s
    (s, if panicked then some .panicked else none)
  | .ask request =>
    let (s, answer) := (Processor.simple slot).perform request s
    (s, some answer)
  | .settle nth success =>
    match s.exports.deferred[nth]? with
    | none => (s, none)
    | some (_, t) =>
      let (s, panicked) := s.resolve t success
      (s, if panicked then some .panicked else none)

lemma use_flush (slot : Nat) (s : State) :
    s.use slot (.ask .flush) = ((s.flushSimple slot).1, some (s.flushSimple slot).2) := rfl

lemma use_shutdown (slot : Nat) (s : State) :
    s.use slot (.ask .shutdown) = ((s.shutdownSimple slot).1, some (s.shutdownSimple slot).2) := rfl

/-- **A schedule of uses.** -/
def follow (slot : Nat) (s : State) (uses : List Use) : State :=
  uses.foldl (fun s u => (s.use slot u).1) s

lemma follow_concat (s : State) (uses : List Use) (u : Use) :
    s.follow slot (uses ++ [u]) = ((s.follow slot uses).use slot u).1 := by
  simp [follow]

/-- **What a use adds to the story**, and what it returns. -/
inductive Continues (p : SimpleProcessor) (story : Story) : Use → Option Answer → Story → Prop
  | emit {span : SpanContext} {r : LiveRecord} {calls : List Made} :
      Continues p story (.emit span r) none
        { story with emitted := story.emitted ++ [r.snapshot], calls }
  | flush {t : Token} : Continues p story (.ask .flush) (some (.returned t))
      { story with flushes := (t, p.pending.map Prod.snd) :: story.flushes }
  | shutdown {v : Farewell} {calls : List Made} (unasked : story.farewell = none)
      (members : v.members = p.pending.map Prod.snd) :
      Continues p story (.ask .shutdown) (some (.returned v.done)) { story with
        calls
        flushes := (v.flushed, v.members) :: story.flushes
        farewell := some v }
  | again {t : Token} (asked : story.farewell.isSome) :
      Continues p story (.ask .shutdown) (some (.returned t)) story
  | settle {nth : Nat} {success : Bool} {calls : List Made} :
      Continues p story (.settle nth success) none { story with calls }

namespace Continues

variable {story' : Story} {answer : Option Answer}

lemma emitted (h : Continues p story u answer story') :
    story'.emitted = story.emitted ++ u.record?.toList := by
  cases h <;> simp [Use.record?]

lemma calm (h : Continues p story u answer story') : answer ≠ some .panicked := by
  cases h <;> simp

lemma flushes_subset (h : Continues p story u answer story') :
    story.flushes ⊆ story'.flushes := by
  cases h <;> simp

lemma farewell_mono (h : Continues p story u answer story') (asked : story.farewell = some v) :
    story'.farewell = some v := by
  cases h with
  | shutdown unasked members => exact absurd (asked.symm.trans unasked) (by simp)
  | _ => exact asked

lemma asked_iff (h : Continues p story u answer story') :
    story'.farewell.isSome ↔ story.farewell.isSome ∨ u = .ask .shutdown := by
  cases h <;> simp [*]

lemma gathered (h : Continues p story (.ask .flush) answer story') :
    ∃ t, answer = some (.returned t) ∧ (t, p.pending.map Prod.snd) ∈ story'.flushes := by
  cases h
  exact ⟨_, rfl, List.mem_cons_self⟩

lemma parted (h : Continues p story (.ask .shutdown) answer story')
    (unasked : story.farewell = none) :
    ∃ v, answer = some (.returned v.done) ∧ v.members = p.pending.map Prod.snd ∧
      story'.farewell = some v := by
  cases h with
  | @shutdown v _ _ members => exact ⟨v, rfl, members, rfl⟩
  | again asked => simp [unasked] at asked

end Continues

/-- **Whatever is done, the processor goes on as its story says.** -/
theorem Serving.use (h : Serving slot e start story p s []) (u : Use) :
    ∃ story' p', Continues p story u (s.use slot u).2 story' ∧
      Serving slot e start story' p' (s.use slot u).1 [] := by
  cases u with
  | emit span r =>
      obtain ⟨calls, p', h⟩ := h.emit r.snapshot
      exact ⟨_, p', .emit, h⟩
  | ask request =>
      cases request with
      | flush =>
          obtain ⟨t, returned, h⟩ := h.flush
          rw [use_flush, returned]
          exact ⟨_, p, .flush, h⟩
      | shutdown =>
          rw [use_shutdown]
          cases asked : story.farewell with
          | none =>
              obtain ⟨v, calls, p', members, returned, h⟩ := h.shutdown asked
              rw [returned]
              exact ⟨_, p', .shutdown asked members, h⟩
          | some v =>
              have asked : story.farewell.isSome := by rw [asked, Option.isSome_some]
              obtain ⟨eq, h⟩ := h.again asked
              rw [eq]
              exact ⟨story, p, .again asked, h⟩
  | settle nth success =>
      rw [State.use]
      cases named : s.exports.deferred[nth]? with
      | none => exact ⟨_, p, .settle, h⟩
      | some d =>
          obtain ⟨calls, p', calm, h⟩ := h.resolve (List.mem_of_getElem? named) success
          simp only [calm, Bool.false_eq_true, if_false]
          exact ⟨_, p', .settle, h⟩

/-- **A story tells what was done.** -/
structure Told (slot : Nat) (start : State) (uses : List Use) (story : Story) : Prop where
  emitted : story.emitted = uses.filterMap Use.record?
  calm : ∀ before u, before ++ [u] <+: uses →
    ((start.follow slot before).use slot u).2 ≠ some .panicked
  flushes : ∀ before, before ++ [.ask .flush] <+: uses → ∃ t p,
    (start.follow slot before).simples[slot]? = some p ∧
      ((start.follow slot before).use slot (.ask .flush)).2 = some (.returned t) ∧
      (t, p.pending.map Prod.snd) ∈ story.flushes
  asked : story.farewell.isSome ↔ .ask .shutdown ∈ uses
  farewell : ∀ before, before ++ [.ask .shutdown] <+: uses → .ask .shutdown ∉ before → ∃ v p,
    (start.follow slot before).simples[slot]? = some p ∧
      ((start.follow slot before).use slot (.ask .shutdown)).2 = some (.returned v.done) ∧
      v.members = p.pending.map Prod.snd ∧ story.farewell = some v

lemma Told.concat {story' : Story} (h : Told slot start uses story)
    (found : (start.follow slot uses).simples[slot]? = some p)
    (continues : Continues p story u ((start.follow slot uses).use slot u).2 story') :
    Told slot start (uses ++ [u]) story' := by
  have last {before : List Use} {w : Use} (here : before ++ [w] <+: uses ++ [u]) :
      (before = uses ∧ w = u) ∨ before ++ [w] <+: uses := by
    refine (List.prefix_concat_iff.mp here).imp_left fun same => ?_
    exact (List.append_inj' same rfl).imp_right List.singleton_inj.mp
  refine ⟨?_, fun before w here => ?_, fun before here => ?_, ?_, fun before here first => ?_⟩
  · rw [continues.emitted, h.emitted, List.filterMap_append]
    rfl
  · rcases last here with ⟨rfl, rfl⟩ | here
    · exact continues.calm
    · exact h.calm before w here
  · rcases last here with ⟨rfl, rfl⟩ | here
    · obtain ⟨t, returned, mem⟩ := continues.gathered
      exact ⟨t, p, found, returned, mem⟩
    · obtain ⟨t, p, found, returned, mem⟩ := h.flushes before here
      exact ⟨t, p, found, returned, continues.flushes_subset mem⟩
  · simp [continues.asked_iff, h.asked, eq_comm]
  · rcases last here with ⟨rfl, rfl⟩ | here
    · have unasked : story.farewell = none := by simpa [← h.asked] using first
      obtain ⟨v, returned, members, asked⟩ := continues.parted unasked
      exact ⟨v, p, found, returned, members, asked⟩
    · obtain ⟨v, p, found, returned, members, asked⟩ := h.farewell before here first
      exact ⟨v, p, found, returned, members, continues.farewell_mono asked⟩

/-- **A simple processor was just built** for an exporter, and no callback of a processor waits. -/
structure Fresh (slot : Nat) (e : Exporter) (s : State) : Prop where
  reached : s.Reached
  found : s.simples[slot]? = some { exporter := e }
  draining : slot ∉ s.draining
  unawaited : ∀ t, s.owners t = []

/-- A story begins. -/
lemma Fresh.serving (h : Fresh slot e start)
    (calm : (start.callExporter e .shutdown).2 ≠ .panicked) :
    Serving slot e start {} { exporter := e } start [] where
  orderly := h.reached.orderly
  transcript := .done (.refl start)
  batches := rfl
  plain := by simp
  exporter := rfl
  isShutdown := rfl
  exported := by
    refine ⟨h.found, rfl, by simp, rfl, nofun, nofun, fun t k mem => ?_, nofun⟩
    rw [h.unawaited] at mem
    exact absurd mem List.not_mem_nil
  stage := by
    refine Unasked.mk rfl h.draining (fun t k mem => ?_) (by simp)
    rw [h.unawaited] at mem
    exact absurd mem List.not_mem_nil
  calm _ := calm
  gathers := by simp
  farewell := by simp
  unnamed := by simp
  ended := by simp

/-- **Every schedule has a story.** -/
lemma Fresh.told (h : Fresh slot e start)
    (calm : (start.callExporter e .shutdown).2 ≠ .panicked) (uses : List Use) :
    ∃ story p, Told slot start uses story ∧
      Serving slot e start story p (start.follow slot uses) [] := by
  induction uses using List.reverseRecOn with
  | nil =>
      refine ⟨{}, _, ⟨rfl, ?_, ?_, ?_, ?_⟩, h.serving calm⟩
      · simp
      · simp
      · simp
      · simp
  | append_singleton uses u ih =>
      obtain ⟨story, p, told, serving⟩ := ih
      obtain ⟨story', p', continues, serving'⟩ := serving.use u
      rw [follow_concat]
      exact ⟨story', p', told.concat serving.exported.found continues, serving'⟩

/-- **The shutdown of the exporter and the completion `done`**, where `ts` were pending.  The
exporter is shut down as soon as they are over, and the completion stands for them and for that. -/
structure Closes (s : State) (calls : List Made) (done : Token) (ts : List Token) : Prop where
  called : (∃ made ∈ calls, made.1 = .shutdown) ↔ ∀ t ∈ ts, s.outcome? t ≠ none
  ended : ∀ made ∈ calls, made.1 = .shutdown → ∀ t ∈ ts, made.2.1.outcome? t ≠ none
  resolved : s.outcome? done ≠ none ↔ ∃ u ∈ calls.filterMap Made.left?, s.outcome? u ≠ none
  success : s.outcome? done = some true ↔ (∀ t ∈ ts, s.outcome? t = some true) ∧
    ∃ u ∈ calls.filterMap Made.left?, s.outcome? u = some true

namespace Serving

/-- The exporter was shut down if one of its calls returned a completion for that. -/
lemma left_ne_nil_iff (h : Serving slot e start story p s []) :
    story.left ≠ [] ↔ ∃ made ∈ story.calls, made.1 = .shutdown := by
  constructor
  · intro some
    obtain ⟨u, mem⟩ := List.exists_mem_of_ne_nil _ some
    obtain ⟨⟨c, found, answer⟩, mem, left⟩ := List.mem_filterMap.mp mem
    cases c with
    | shutdown => exact ⟨_, mem, rfl⟩
    | _ => cases left
  · rintro ⟨made, mem, shut⟩ none
    exact h.not_shutdown none made mem shut

/-- The exporter is shut down once. -/
lemma once (h : Serving slot e start story p s []) : story.calls.countP Made.isShutdown ≤ 1 := by
  have counted : story.calls.countP Made.isShutdown = story.left.length := by
    rw [List.length_filterMap_eq_countP]
    refine List.countP_congr fun made mem => ?_
    rcases made with ⟨c, found, answer⟩
    rcases h.plain _ mem with accept | ⟨rfl, u, rfl⟩
    · cases c with
      | accept records => simp [Made.isShutdown]
      | flush | shutdown => cases accept
    · simp [Made.isShutdown]
  rw [counted]
  cases asked : story.farewell with
  | none => simp [(h.stage.unasked asked).unleft]
  | some v =>
      have once := (h.stage.parting asked).once
      omega

/-- **The first shutdown stands as it should.** -/
lemma parts (h : Serving slot e start story p s []) (asked : story.farewell = some v) :
    Closes s story.calls v.done v.members := by
  have parting := h.stage.parting asked
  have sums : s.exports.ledger.Sums v.flushed v.members :=
    (h.gathers _ (h.farewell v asked).2).2.sums
  refine ⟨?_, h.ended v asked, ?_, ?_⟩
  · rw [← h.left_ne_nil_iff, parting.left_iff]
    exact sums.resolved
  · constructor
    · intro known
      obtain ⟨b, known⟩ := Option.ne_none_iff_exists'.mp known
      obtain ⟨-, left, -, ⟨u, mem, known⟩, -⟩ := parting.outcome?_iff.mp known
      exact ⟨u, mem, by simp [known]⟩
    · rintro ⟨u, mem, known⟩
      obtain ⟨left, known⟩ := Option.ne_none_iff_exists'.mp known
      obtain ⟨flushed, ended⟩ :=
        Option.ne_none_iff_exists'.mp (parting.left_iff.mp (List.ne_nil_of_mem mem))
      have decides : s.Decides v story.left (flushed && left) :=
        ⟨flushed, left, ended, ⟨u, mem, known⟩, rfl⟩
      simp [parting.outcome?_iff.mpr decides]
  · rw [parting.outcome?_iff]
    refine Iff.trans ?_ (and_congr_left' sums.success)
    constructor
    · rintro ⟨flushed, left, ended, ⟨u, mem, known⟩, both⟩
      obtain ⟨rfl, rfl⟩ := Bool.and_eq_true_iff.mp both.symm
      exact ⟨ended, u, mem, known⟩
    · rintro ⟨ended, u, mem, known⟩
      exact ⟨true, true, ended, ⟨u, mem, known⟩, rfl⟩

end Serving

/-- **How a simple processor serves**: after a schedule of uses, with the calls of its exporter.
Where `before ++ [u] <+: uses`, the use `u` came right after `before`. -/
structure Serves (slot : Nat) (e : Exporter) (start : State) (uses : List Use)
    (calls : List Made) : Prop where
  /-- These are all calls of the exporter, and nothing else is seen outside. -/
  transcript : Transcript (placing e) Inward start calls (start.follow slot uses)
  batches : calls.filterMap Made.batch? = (uses.filterMap Use.record?).map ([·])
  plain : ∀ made ∈ calls, made.1 ≠ .flush
  calm : ∀ before u, before ++ [u] <+: uses →
    ((start.follow slot before).use slot u).2 ≠ some .panicked
  /-- Each export that did not panic is pending until it has an outcome, under its own number. -/
  pending : ∃ p, (start.follow slot uses).simples[slot]? = some p ∧
    (p.pending.map Prod.fst).Nodup ∧ p.pending.map Prod.snd =
      (calls.filterMap Made.export?).filter fun t => ((start.follow slot uses).outcome? t).isNone
  /-- The completion of a flush stands for what was pending then. -/
  flushes : ∀ before, before ++ [.ask .flush] <+: uses → ∃ t p,
    (start.follow slot before).simples[slot]? = some p ∧
      ((start.follow slot before).use slot (.ask .flush)).2 = some (.returned t) ∧
      (start.follow slot uses).exports.ledger.Sums t (p.pending.map Prod.snd)
  once : calls.countP Made.isShutdown ≤ 1
  unasked : .ask .shutdown ∉ uses → ∀ made ∈ calls, made.1 ≠ .shutdown
  shutdown : ∀ before, before ++ [.ask .shutdown] <+: uses → .ask .shutdown ∉ before → ∃ done p,
    (start.follow slot before).simples[slot]? = some p ∧
      ((start.follow slot before).use slot (.ask .shutdown)).2 = some (.returned done) ∧
      Closes (start.follow slot uses) calls done (p.pending.map Prod.snd)
  /-- A later shutdown only makes a completion that is a success. -/
  again : ∀ before, before ++ [.ask .shutdown] <+: uses → .ask .shutdown ∈ before → ∃ t,
    (start.follow slot before).use slot (.ask .shutdown) =
      (((start.follow slot before).settle true).1, some (.returned t)) ∧
    ((start.follow slot before).settle true).1.outcome? t = some true

/-- **Any schedule**: whatever is done to a new simple processor, and in whatever order its exporter
resolves completions, it serves. -/
theorem Fresh.serves (h : Fresh slot e start)
    (calm : (start.callExporter e .shutdown).2 ≠ .panicked) (uses : List Use) :
    ∃ calls, Serves slot e start uses calls := by
  obtain ⟨story, p, told, serving⟩ := h.told calm uses
  refine ⟨story.calls, serving.transcript, ?_, ?_, told.calm, ?_, ?_, ?_, ?_, ?_, ?_⟩
  · rw [serving.batches, told.emitted]
  · rintro ⟨c, found, answer⟩ mem rfl
    rcases serving.plain _ mem with accept | ⟨shut, -⟩
    · cases accept
    · cases shut
  · exact ⟨p, serving.exported.found, serving.exported.nodup, serving.exported.pending_eq⟩
  · intro before here
    obtain ⟨t, p, found, returned, mem⟩ := told.flushes before here
    exact ⟨t, p, found, returned, (serving.gathers _ mem).2.sums⟩
  · exact serving.once
  · intro unasked
    have unasked : story.farewell = none := by simpa [← told.asked] using unasked
    exact serving.not_shutdown (serving.stage.unasked unasked).unleft
  · intro before here first
    obtain ⟨v, p, found, returned, members, asked⟩ := told.farewell before here first
    exact ⟨v.done, p, found, returned, members ▸ serving.parts asked⟩
  · intro before here later
    obtain ⟨story, p, told, serving⟩ := h.told calm before
    obtain ⟨eq, -⟩ := serving.again (told.asked.mpr later)
    refine ⟨_, by rw [use_shutdown, eq]; rfl, ?_⟩
    exact (Store.outcome?_settled ..).trans (if_pos rfl)

/-- An exporter of which the first export and the shutdown are resolved later, and the second export
panics. -/
def leisurely : State where
  exports := { devices := #[.scripted {
    name := "leisurely"
    accept := { outcomes := [.defer, .panic] }
    shutdown := { outcomes := [.defer] } }] }
  simples := #[{ exporter := .device 0 }]

lemma fresh_leisurely : Fresh 0 (.device 0) leisurely where
  reached := by
    refine .single (.build rfl rfl (fun t => ?_) fun t => ?_)
    · rintro ⟨slot, p, id, found, mem⟩
      obtain ⟨lt, rfl⟩ := Array.getElem?_eq_some_iff.mp found
      simp [leisurely] at mem
    · rintro ⟨slot, p, mine, found, -⟩
      simp [leisurely] at found
  found := rfl
  draining := by simp [leisurely]
  unawaited t := Ledger.owners_of_size_le (Nat.zero_le t)

theorem Fresh.serves_leisurely : Fresh 0 (.device 0) leisurely ∧
    (leisurely.callExporter (.device 0) .shutdown).2 ≠ .panicked ∧
    ∃ calls, Serves 0 (.device 0) leisurely
      [.emit {} ⟨{}, {}, none⟩, .emit {} ⟨{}, {}, none⟩, .ask .flush, .ask .shutdown,
        .settle 0 true, .ask .shutdown, .settle 1 true] calls := by
  have calm : (leisurely.callExporter (.device 0) .shutdown).2 ≠ .panicked := by decide
  exact ⟨fresh_leisurely, calm, fresh_leisurely.serves calm _⟩

end State

end ProfilePipeline.Processing
