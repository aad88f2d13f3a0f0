import ProfilePipeline.Proofs.Provider.Bookkeeping

/-!
# From the builder to the processor

What a provider does with a program can be said without the provider: the processor gets the records
and the shutdowns that the program promises (`Usage.calls`), in that order and nothing else.

* `Usage.Standing` — what has reached the processor so far, and whether a shutdown has returned.
* `Standing.emit`, `Standing.shutdown` — the steps that reach it.
* **`Usage.delivers`** — every program gets what it is promised.

The first shutdown should be the only one that has an effect, and no record should get through
after it.  That is not so if it panics.  Of one processor alone nothing keeps a panic from whoever
called the provider, and the provider takes note of a shutdown only when it returns.  A record that
is emitted after a shutdown that has panicked is still delivered, and the next shutdown asks the
processor again (`Usage.brittle_late_record`).  For this reason the promise depends on the number of
shutdowns that panic; where that is none, it is the intended one.
-/

namespace ProfilePipeline

open Completion (Token)
open Export (Answer)
open Processing (Processor State)

variable {p b : Nat}

/-! ## Emitting and shutting down -/

namespace Provider

variable {provider : Provider}

/-- Until it is shut down, a provider passes what is emitted on to its processor. -/
lemma emit_open {profiler : Profiler} {scope : Scope} (h : provider.Hands profiler scope)
    (hopen : provider.closed = none) (pending : Pending) (freshId : List UInt8) (s : State) :
    (provider.emit profiler pending freshId s).1 =
      (provider.processor.onEmit (provider.live scope pending freshId).emission.span
        (provider.live scope pending freshId) s).1 := by
  obtain ⟨number, rfl, hnumber⟩ := h
  have hspan : (provider.live scope pending freshId).emission.span =
      (pending.context.getD {}).span := by
    rw [live, LiveRecord.emission_setAll]
    rfl
  rw [hspan, emit]
  simp [hnumber, hopen]

/-- Afterwards it drops it. -/
lemma emit_closed {t : Token} (hclosed : provider.closed = some t) (profiler : Profiler)
    (pending : Pending) (freshId : List UInt8) (s : State) :
    (provider.emit profiler pending freshId s).1 = s := by
  cases profiler <;> simp [emit, hclosed]

/-- **The first shutdown asks the processor**, and counts if the processor returns. -/
lemma shutdown_open (hopen : provider.closed = none) (s : State) :
    (∃ s', provider.processor.perform .shutdown s = (s', .panicked) ∧
      provider.shutdown s = (provider, s', .panicked)) ∨
    ∃ s' t, provider.processor.perform .shutdown s = (s', .returned t) ∧
      provider.shutdown s = ({ provider with closed := some t }, s', .returned t) := by
  rcases hperform : provider.processor.perform .shutdown s with ⟨s', answer⟩
  cases answer with
  | panicked => exact .inl ⟨s', rfl, by simp [shutdown, hopen, hperform]⟩
  | returned t => exact .inr ⟨s', t, rfl, by simp [shutdown, hopen, hperform]⟩

/-- Afterwards nothing is asked any more. -/
lemma shutdown_closed {t : Token} (hclosed : provider.closed = some t) (s : State) :
    provider.shutdown s = (provider, s, .returned t) := by
  simp [shutdown, hclosed]

end Provider

/-! ## Calls of the processor -/

namespace Processing.Processor

variable (processor : Processor)

lemma serve_append (calls more : List PipelineCall) (s : State) :
    processor.serve (calls ++ more) s =
      ((processor.serve more (processor.serve calls s).1).1,
        (processor.serve calls s).2 ++ (processor.serve more (processor.serve calls s).1).2) := by
  induction calls generalizing s with
  | nil => simp [serve]
  | cons call calls ih => cases call <;> simp [serve, ih]

/-- Only a processor that stands for itself can panic when it is shut down. -/
lemma length_of_perform_panicked {number : Nat} {processors : List Processor} {s : State}
    (h : ((composite number processors).perform .shutdown s).2 = .panicked) :
    processors.length = 1 := by
  match processors with
  | [] => simp [composite, perform, Processing.State.settle, Export.State.settle] at h
  | [_] => rfl
  | _ :: _ :: _ => simp [composite, perform] at h

end Processing.Processor

/-- **Where the shutdown of a provider stands**, and what has reached the processor. -/
inductive Usage.Standing (setup : Setup) (u : Usage p b) (r : Running p b) : Prop where
  /-- No shutdown has returned.  How many more will panic is open, so the calls are the promised
  ones for any number that is large enough. -/
  | serving (hopen : r.provider.closed = none)
      (answers : r.answers = List.replicate u.shutdowns .panicked)
      (served : ∀ panics, u.shutdowns ≤ panics →
        setup.processor.serve (u.calls setup panics) setup.state = (r.state, r.answers))
  /-- One has, after `panics` that did not. -/
  | shut (panics : Nat) (t : Token) (hclosed : r.provider.closed = some t)
      (lt : panics < u.shutdowns)
      (answers : r.answers = List.replicate panics .panicked ++
        List.replicate (u.shutdowns - panics) (.returned t))
      (served : setup.processor.serve (u.calls setup panics) setup.state =
        (r.state, List.replicate panics .panicked ++ [.returned t]))

namespace Usage

variable {setup : Setup}

/-- A record is emitted: it reaches the processor unless a shutdown has returned. -/
lemma Standing.emit (h : setup.Busy) {u : Usage p b} (hu : u.Standing setup (u.run setup))
    (k : Fin b) (freshId : Vector UInt8 16) :
    (u.step (.emit k freshId)).Standing setup ((u.step (.emit k freshId)).run setup) := by
  cases hu with
  | serving hopen answers served =>
    refine .serving hopen answers ?_
    intro panics (hpanics : u.shutdowns ≤ panics)
    have hemit := Provider.emit_open (u.hands_builders h.isNoop k) hopen ((u.run setup).pending k)
      freshId.toList (u.run setup).state
    rw [live_eq_record, processor_run] at hemit
    rw [calls, if_pos hpanics, Processor.serve_append, served panics hpanics]
    simpa [Processor.serve, run, Running.step] using hemit.symm
  | shut panics t hclosed lt answers served =>
    refine .shut panics t hclosed lt answers ?_
    have hemit := Provider.emit_closed hclosed ((u.run setup).owner k)
      ((u.run setup).pending k) freshId.toList (u.run setup).state
    rw [calls, if_neg (Nat.not_le.mpr lt), List.append_nil, served]
    simpa [run, Running.step] using hemit.symm

/-- A shutdown of the provider in a program, by what the provider makes of it. -/
lemma run_shutdown {u : Usage p b} {provider : Provider} {s : State} {answer : Answer}
    (h : (u.run setup).provider.shutdown (u.run setup).state = (provider, s, answer)) :
    (u.step .shutdown).run setup =
      { u.run setup with provider, state := s, answers := (u.run setup).answers ++ [answer] } := by
  rw [run, Running.step, Running.shutdown, h]

/-- The provider is shut down: the processor is asked unless a shutdown has returned. -/
lemma Standing.shutdown {u : Usage p b} (hu : u.Standing setup (u.run setup)) :
    (u.step .shutdown).Standing setup ((u.step .shutdown).run setup) := by
  cases hu with
  | serving hopen answers served =>
    rcases Provider.shutdown_open hopen (u.run setup).state with
      ⟨s, hperform, hshutdown⟩ | ⟨s, t, hperform, hshutdown⟩
    · rw [run_shutdown hshutdown]
      rw [processor_run] at hperform
      refine .serving hopen ?_ ?_
      · simp [answers, shutdowns, List.replicate_succ']
      · intro panics (hpanics : u.shutdowns + 1 ≤ panics)
        rw [calls, if_pos (by omega), Processor.serve_append, served panics (by omega)]
        simp [Processor.serve, hperform]
    · rw [run_shutdown hshutdown]
      rw [processor_run] at hperform
      refine .shut u.shutdowns t rfl (Nat.lt_succ_self _) ?_ ?_
      · simp [answers, shutdowns]
      · rw [calls, if_pos (Nat.le_refl _), Processor.serve_append, served _ (Nat.le_refl _)]
        simp [Processor.serve, hperform, answers]
  | shut panics t hclosed lt answers served =>
    rw [run_shutdown (Provider.shutdown_closed hclosed (u.run setup).state)]
    refine .shut panics t hclosed (Nat.lt_succ_of_lt lt) ?_ ?_
    · have hlater : u.shutdowns + 1 - panics = u.shutdowns - panics + 1 := by omega
      simp [answers, shutdowns, hlater, List.replicate_succ']
    · rw [calls, if_neg (Nat.not_le.mpr lt), List.append_nil, served]

/-- Something else happens, whatever the provider has come to. -/
lemma Standing.elsewhere {u : Usage p b} (hu : u.Standing setup (u.run setup))
    (change : State → State) :
    (u.step (.elsewhere change)).Standing setup ((u.step (.elsewhere change)).run setup) := by
  cases hu with
  | serving hopen answers served =>
    refine .serving hopen answers ?_
    intro panics hpanics
    rw [calls, Processor.serve_append, served panics hpanics]
    simp [Processor.serve, run, Running.step]
  | shut panics t hclosed lt answers served =>
    refine .shut panics t hclosed lt answers ?_
    rw [calls, Processor.serve_append, served]
    simp [Processor.serve, run, Running.step]

/-- What reaches neither the processor nor the shutdown changes nothing about either. -/
lemma Standing.of_eq {p' b' : Nat} {u : Usage p b} {v : Usage p' b'}
    (hu : u.Standing setup (u.run setup))
    (hclosed : (v.run setup).provider.closed = (u.run setup).provider.closed)
    (hstate : (v.run setup).state = (u.run setup).state)
    (hanswers : (v.run setup).answers = (u.run setup).answers)
    (hshutdowns : v.shutdowns = u.shutdowns)
    (hcalls : ∀ panics, v.calls setup panics = u.calls setup panics) :
    v.Standing setup (v.run setup) := by
  cases hu with
  | serving hopen answers served =>
    refine .serving (hclosed.trans hopen) ?_ ?_
    · rw [hanswers, hshutdowns, answers]
    · intro panics hpanics
      rw [hcalls, hstate, hanswers, served panics (hshutdowns ▸ hpanics)]
  | shut panics t hshut lt answers served =>
    refine .shut panics t (hclosed.trans hshut) (hshutdowns ▸ lt) ?_ ?_
    · rw [hanswers, hshutdowns, answers]
    · rw [hcalls, hstate, served]

/-- **Where a provider stands after any program.** -/
lemma standing (h : setup.Busy) (u : Usage p b) : u.Standing setup (u.run setup) := by
  induction u with
  | start =>
    refine .serving rfl rfl ?_
    intro panics _
    rfl
  | profiler before scope ih =>
    obtain ⟨scopes, hscopes⟩ := (before.run setup).provider.profiler_fst scope
    refine ih.of_eq ?_ rfl rfl rfl fun _ => rfl
    simp [run, Running.profiler, hscopes]
  | builder before j ih => exact ih.of_eq rfl rfl rfl rfl fun _ => rfl
  | step before s ih =>
    cases s with
    | emit k freshId => exact ih.emit h k freshId
    | shutdown => exact ih.shutdown
    | elsewhere change => exact ih.elsewhere change
    | _ => exact ih.of_eq rfl rfl rfl rfl fun _ => rfl

/-- Shutdowns only panic where there is one processor. -/
lemma length_of_panicked (u : Usage p b) (h : .panicked ∈ (u.run setup).answers) :
    setup.builder.processors.length = 1 := by
  induction u with
  | start => simp [run, Running.start] at h
  | profiler before scope ih => exact ih h
  | builder before j ih => exact ih h
  | step before s ih =>
    cases s with
    | shutdown =>
      cases hclosed : (before.run setup).provider.closed with
      | some t =>
        rw [run_shutdown (Provider.shutdown_closed hclosed _)] at h
        exact ih (by simpa using h)
      | none =>
        rcases Provider.shutdown_open hclosed (before.run setup).state with
          ⟨s, hperform, -⟩ | ⟨s, t, -, hshutdown⟩
        · rw [processor_run] at hperform
          exact Processor.length_of_perform_panicked (congrArg Prod.snd hperform)
        · rw [run_shutdown hshutdown] at h
          exact ih (by simpa using h)
    | _ => exact ih h

end Usage

/-! ## Delivery -/

/-- **What a provider owes a program** if the first `panics` shutdowns panic. -/
structure Usage.Delivers (setup : Setup) (u : Usage p b) (panics : Nat) : Prop where
  /-- Those shutdowns panic, and all others return one and the same completion. -/
  answers : panics ≤ u.shutdowns ∧ ∃ t : Token, (u.run setup).answers =
    List.replicate panics .panicked ++ List.replicate (u.shutdowns - panics) (.returned t)
  /-- The processors end up as the calls that are promised leave them, and what the shutdowns
  among these calls come to is what the provider answered to the first ones. -/
  served : setup.processor.serve (u.calls setup panics) setup.state =
    ((u.run setup).state, (u.run setup).answers.take (panics + 1))

/-- Whatever a provider has come to, it has done what it owes. -/
lemma Usage.exists_delivers {setup : Setup} (h : setup.Busy) (u : Usage p b) :
    ∃ panics, u.Delivers setup panics := by
  cases u.standing h with
  | serving hopen answers served =>
    refine ⟨u.shutdowns, ⟨Nat.le_refl _, default, ?_⟩, ?_⟩
    · simp [answers]
    · rw [served _ (Nat.le_refl _), List.take_of_length_le (by simp [answers])]
  | shut panics t hclosed lt answers served =>
    refine ⟨panics, ⟨Nat.le_of_lt lt, t, answers⟩, ?_⟩
    obtain ⟨later, hlater⟩ : ∃ later, u.shutdowns - panics = later + 1 :=
      ⟨u.shutdowns - panics - 1, by omega⟩
    rw [served, answers, hlater, List.replicate_succ]
    simp [List.take_append]

/-- **From the builder to the processor.**  For every program over a provider with something to do
there is a number of shutdowns that panic, none if several processors are fanned out to.  What is
emitted before the shutdown after those reaches the processor, each record once, in order and as it
is promised, and nothing does afterwards.  The processor is shut down by each shutdown up to that
one, which returns, and never again; all later ones return the same completion.  The attributes of a
record and their total are those of an empty set with the limits of the moment, into which the
attributes set on the builder were put. -/
theorem Usage.delivers {setup : Setup} (h : setup.Busy) (u : Usage p b) :
    (∃ panics, u.Delivers setup panics ∧
        (setup.builder.processors.length ≠ 1 → panics = 0)) ∧
      ∀ (k : Fin b) (freshId : Vector UInt8 16),
        (u.record setup k freshId).snapshot =
          { u.emission setup k freshId with
            attributes := (u.bounded setup k).attributes
            totalAttributes := (u.bounded setup k).totalAdded } := by
  refine ⟨?_, u.snapshot_record setup⟩
  obtain ⟨panics, hdelivers⟩ := u.exists_delivers h
  refine ⟨panics, hdelivers, ?_⟩
  -- a panic among the answers would have come out of a processor that stands for itself
  intro hseveral
  by_contra hpanics
  obtain ⟨-, t, hanswers⟩ := hdelivers.answers
  refine hseveral (u.length_of_panicked ?_)
  rw [hanswers]
  exact List.mem_append_left _ (List.mem_replicate.mpr ⟨hpanics, rfl⟩)

/-- A processor alone whose first shutdown panics. -/
def Setup.brittle : Setup where
  builder := { processors := [.scripted 0] }
  number := 0
  state := { scripted := #[{ script := { name := "a", shutdown := { outcomes := [.panic] } } }] }

/-- Shuts the provider down and emits afterwards. -/
def Usage.late : Usage 1 1 :=
  ((((start.profiler { name := "x" }).builder 0).step .shutdown).step
    (.set 0 (.profileId (List.replicate 16 1)))).step (.emit 0 (Vector.replicate 16 0))

lemma Setup.busy_brittle : Setup.brittle.Busy :=
  ⟨.scripted 0, by simp [Setup.brittle], rfl⟩

/-- The processor gets its calls, of which one comes after a shutdown. -/
theorem Usage.delivers_late :
    Setup.brittle.Busy ∧ ∃ panics, late.Delivers Setup.brittle panics := by
  obtain ⟨panics, hdelivers, -⟩ := (delivers Setup.busy_brittle late).1
  exact ⟨Setup.busy_brittle, panics, hdelivers⟩

/-- **A provider that was shut down may still deliver**: when that shutdown has panicked, a record
that is emitted afterwards reaches the processor, although the first shutdown is meant to be the end
in any case. -/
theorem Usage.brittle_late_record :
    Setup.brittle.Busy ∧
      (late.run Setup.brittle).state.exports.events.toList.map (·.place) =
        ["a.shutdown", "a.on_emit"] ∧
      ¬ late.Delivers Setup.brittle 0 := by
  refine ⟨Setup.busy_brittle, rfl, ?_⟩
  intro hdelivers
  obtain ⟨-, t, hanswers⟩ := hdelivers.answers
  have hpanicked : (late.run Setup.brittle).answers = [.panicked] := rfl
  rw [hpanicked] at hanswers
  simp [late, shutdowns] at hanswers

end ProfilePipeline
