import ProfilePipeline.Proofs.Provider.Promise

/-!
# What a provider and its builders hold

After any program they hold what the program says, however its steps are mixed.

* `run_provider` — a provider never changes but for its clock, its limits, the profilers it handed
  out and whether it is shut down.
* `scope?_run`, **`hands_profilers`** — a profiler is the one of the scope first asked for with its
  identity, however many others there are.
* `pending_run`, `hands_builders` — a builder holds what was set since it emitted last and belongs
  to the profiler that it was made of.
* **`live_eq_record`** — what a provider makes of a builder is the record that is promised.
-/

namespace ProfilePipeline

open Export (Answer)
open Processing (Processor State)

variable {p b : Nat}

/-! ## Scopes and profilers -/

namespace Provider

variable {provider : Provider}

/-- A profiler is the one of a provider for a scope. -/
def Hands (provider : Provider) (profiler : Profiler) (scope : Scope) : Prop :=
  ∃ number, profiler = .of number ∧ provider.scopes[number]? = some scope

/-- The scope for which the profiler with an identity was first asked for. -/
def scope? (provider : Provider) (i : Scope.Identity) : Option Scope :=
  provider.scopes.find? (·.identity = i)

/-- **A profiler is asked for**: it was handed out before, or the scope is a new one. -/
lemma profiler_cases (h : provider.isNoop = false) (scope : Scope) :
    (∃ number first, provider.scope? scope.named.identity = some first ∧
      provider.scopes[number]? = some first ∧ provider.profiler scope = (provider, .of number)) ∨
    (provider.scope? scope.named.identity = none ∧
      provider.profiler scope = ({ provider with scopes := provider.scopes ++ [scope.named] },
        .of provider.scopes.length)) := by
  rw [profiler, if_neg (by simp [h])]
  cases hfind : provider.scopes.findIdx? (·.identity = scope.named.identity) with
  | some number =>
    obtain ⟨hlt, hidentity, hfirst⟩ := List.findIdx?_eq_some_iff_getElem.mp hfind
    refine .inl ⟨number, provider.scopes[number], ?_, List.getElem?_eq_getElem hlt, by simp [hfind]⟩
    refine List.find?_eq_some_iff_getElem.mpr ⟨hidentity, number, hlt, rfl, ?_⟩
    intro j hj
    simpa using hfirst j hj
  | none =>
    refine .inr ⟨?_, by simp [hfind]⟩
    rw [List.findIdx?_eq_none_iff] at hfind
    rw [scope?, List.find?_eq_none]
    intro scope hmem
    simpa using hfind scope hmem

lemma Hands.mono {provider' : Provider} {profiler : Profiler} {scope : Scope}
    (h : provider.Hands profiler scope) (hscopes : provider.scopes <+: provider'.scopes) :
    provider'.Hands profiler scope := by
  obtain ⟨number, rfl, hnumber⟩ := h
  obtain ⟨hlt, rfl⟩ := List.getElem?_eq_some_iff.mp hnumber
  exact ⟨number, rfl, List.prefix_iff_getElem?.mp hscopes number hlt⟩

/-- Whoever asks for a scope gets the profiler of the scope with its identity. -/
lemma hands_profiler (h : provider.isNoop = false) (scope : Scope) :
    ∃ first, (provider.profiler scope).1.scope? scope.named.identity = some first ∧
      (provider.profiler scope).1.Hands (provider.profiler scope).2 first := by
  rcases profiler_cases h scope with ⟨number, first, hknown, hnumber, heq⟩ | ⟨hnew, heq⟩
  · rw [heq]
    exact ⟨first, hknown, number, rfl, hnumber⟩
  · rw [heq]
    refine ⟨scope.named, ?_, provider.scopes.length, rfl, by simp⟩
    rw [scope?] at hnew
    simp [scope?, List.find?_append, hnew]

lemma scope?_profiler (h : provider.isNoop = false) (scope : Scope) (i : Scope.Identity) :
    (provider.profiler scope).1.scope? i =
      (provider.scope? i).or ([scope.named].find? (·.identity = i)) := by
  rcases profiler_cases h scope with ⟨number, first, hknown, -, heq⟩ | ⟨-, heq⟩
  · rw [heq]
    by_cases hi : scope.named.identity = i
    · simp [← hi, hknown]
    · simp [hi]
  · rw [heq]
    exact List.find?_append

lemma scopes_profiler (h : provider.isNoop = false) (scope : Scope) :
    provider.scopes <+: (provider.profiler scope).1.scopes := by
  rcases profiler_cases h scope with ⟨_, _, -, -, heq⟩ | ⟨-, heq⟩ <;> simp [heq]

lemma profiler_fst (provider : Provider) (scope : Scope) :
    ∃ scopes, (provider.profiler scope).1 = { provider with scopes } := by
  rw [profiler]
  split
  · exact ⟨_, rfl⟩
  · dsimp only
    split <;> exact ⟨_, rfl⟩

lemma shutdown_fst (provider : Provider) (s : State) :
    ∃ closed, (provider.shutdown s).1 = { provider with closed } := by
  rw [shutdown]
  split
  · exact ⟨_, rfl⟩
  · split <;> exact ⟨_, rfl⟩

end Provider

namespace Usage

variable {setup : Setup}

/-- The last change of the limits is the one that counts. -/
lemma change_limitsNow (u : Usage p b) (bounds : Limits) :
    (u.limitsNow setup).change bounds = setup.builder.limits.change bounds := by
  induction u with
  | start => rfl
  | profiler before scope ih => exact ih
  | builder before j ih => exact ih
  | step before s ih =>
    cases s with
    | limits bounds' =>
      rw [limitsNow]
      cases setup.builder.limits <;> rfl
    | _ => exact ih

/-- **What becomes of a provider**: its clock and its limits are those of the moment, profilers are
handed out and it is shut down; nothing else about it changes. -/
lemma run_provider (setup : Setup) (u : Usage p b) :
    ∃ scopes closed, (u.run setup).provider =
      { setup.provider with
        clock := u.clockNow setup, limits := u.limitsNow setup, scopes, closed } := by
  induction u with
  | start => exact ⟨[], none, rfl⟩
  | profiler before scope ih =>
    obtain ⟨scopes, closed, h⟩ := ih
    obtain ⟨scopes', h'⟩ := (before.run setup).provider.profiler_fst scope
    rw [h] at h'
    exact ⟨scopes', closed, by simpa [run, Running.profiler, h, clockNow, limitsNow] using h'⟩
  | builder before j ih => exact ih
  | step before s ih =>
    obtain ⟨scopes, closed, h⟩ := ih
    cases s with
    | limits bounds =>
      refine ⟨scopes, closed, ?_⟩
      simp [run, Running.step, h, clockNow, limitsNow, change_limitsNow]
    | shutdown =>
      obtain ⟨closed', h'⟩ := (before.run setup).provider.shutdown_fst (before.run setup).state
      rw [h] at h'
      refine ⟨scopes, closed', ?_⟩
      simpa [run, Running.step, Running.shutdown, h, clockNow, limitsNow] using h'
    | _ =>
      refine ⟨scopes, closed, ?_⟩
      simp [run, Running.step, Running.set, Running.emit, h, clockNow, limitsNow]

lemma processor_run (u : Usage p b) : (u.run setup).provider.processor = setup.processor := by
  obtain ⟨scopes, closed, h⟩ := u.run_provider setup
  rw [h]
  rfl

lemma isNoop_run (h : setup.provider.isNoop = false) (u : Usage p b) :
    (u.run setup).provider.isNoop = false := by
  obtain ⟨scopes, closed, hrun⟩ := u.run_provider setup
  rw [hrun]
  exact h

/-! ## Scopes -/

/-- The scope of a profiler is found by the identity of what was asked for. -/
lemma find_requested (u : Usage p b) (j : Fin p) :
    u.requested.toList.find? (·.identity = (u.asked j).identity) = some (u.scopeOf j) := by
  have hsome : (u.requested.toList.find? (·.identity = (u.asked j).identity)).isSome := by
    rw [List.find?_isSome]
    exact ⟨u.asked j, by simp [asked], by simp⟩
  obtain ⟨scope, hscope⟩ := Option.isSome_iff_exists.mp hsome
  rw [scopeOf, hscope, Option.getD_some]

/-- Asking for more profilers does not change the scopes of those that are there. -/
lemma scopeOf_castSucc (u : Usage p b) (scope : Scope) (j : Fin p) :
    (u.profiler scope).scopeOf j.castSucc = u.scopeOf j := by
  have hfind := u.find_requested j
  rw [scopeOf, asked_profiler_castSucc, requested, Vector.toList_push, List.find?_append, hfind]
  rfl

end Usage

namespace Running

lemma scopes_step (r : Running p b) (s : Usage.Step b) :
    (r.step s).provider.scopes = r.provider.scopes := by
  cases s with
  | shutdown =>
    obtain ⟨closed, h⟩ := r.provider.shutdown_fst r.state
    simp [step, shutdown, h]
  | _ => rfl

end Running

namespace Usage

variable {setup : Setup}

/-- **The scopes of a provider are the ones first asked for**, each with its identity. -/
lemma scope?_run (h : setup.provider.isNoop = false) (u : Usage p b) (i : Scope.Identity) :
    (u.run setup).provider.scope? i = u.requested.toList.find? (·.identity = i) := by
  induction u with
  | start => rfl
  | profiler before scope ih =>
    rw [requested, Vector.toList_push, List.find?_append, ← ih]
    exact Provider.scope?_profiler (before.isNoop_run h) scope i
  | builder before j ih => exact ih
  | step before s ih =>
    rw [requested, ← ih, run, Provider.scope?, Running.scopes_step]
    rfl

/-- **A profiler that was handed out is the one for its scope.** -/
lemma hands_profilers (h : setup.provider.isNoop = false) (u : Usage p b) (j : Fin p) :
    (u.run setup).provider.Hands ((u.run setup).handed j) (u.scopeOf j) := by
  induction u with
  | start => exact j.elim0
  | @profiler p b before scope ih =>
    -- the profiler that was just handed out, or one that was there and whose scope stays
    cases j using Fin.lastCases with
    | last =>
      obtain ⟨first, hfirst, hhands⟩ := Provider.hands_profiler (before.isNoop_run h) scope
      have hscope := (before.profiler scope).find_requested (Fin.last p)
      rw [asked_profiler_last, ← scope?_run h] at hscope
      obtain rfl := Option.some.inj (hfirst.symm.trans hscope)
      rw [run, Running.handed_profiler_last]
      exact hhands
    | cast j =>
      rw [scopeOf_castSucc, run, Running.handed_profiler_castSucc]
      exact (ih j).mono (Provider.scopes_profiler (before.isNoop_run h) scope)
  | builder before j ih => exact ih _
  | step before s ih =>
    rw [run, Running.handed_step]
    exact (ih j).mono (by simp [Running.scopes_step])

/-! ## Builders -/

/-- Nothing was set on a builder that was not made yet. -/
lemma since_of_le (u : Usage p b) {k : Nat} (hk : b ≤ k) : u.since k = [] := by
  induction u with
  | start => rfl
  | profiler before scope ih => exact ih hk
  | builder before j ih => exact ih (by omega)
  | step before s ih =>
    cases s with
    | set k' setting => rw [since, if_neg (by omega), ih hk]
    | emit k' freshId => rw [since, if_neg (by omega), ih hk]
    | _ => exact ih hk

/-- **A builder has the fields that were set since it emitted last.** -/
lemma pending_run (u : Usage p b) (k : Fin b) :
    (u.run setup).pending k = (u.since k).foldl Pending.set {} := by
  induction u with
  | start => exact k.elim0
  | profiler before scope ih => exact ih k
  | @builder p b before j ih =>
    cases k using Fin.lastCases with
    | last => simp [run, since, since_of_le]
    | cast k => simpa [run, since] using ih k
  | step before s ih =>
    have hk := ih k
    cases s with
    | set k' setting =>
      by_cases heq : k' = k
      · simp [run, Running.step, since, heq, hk]
      · simp [run, Running.step, since, heq, Fin.val_ne_of_ne heq, hk]
    | emit k' freshId =>
      by_cases heq : k' = k
      · simp [run, Running.step, since, heq]
      · simp [run, Running.step, since, heq, Fin.val_ne_of_ne heq, hk]
    | _ => exact hk

/-- **A builder belongs to the profiler for its scope.** -/
lemma hands_builders (h : setup.provider.isNoop = false) (u : Usage p b) (k : Fin b) :
    (u.run setup).provider.Hands ((u.run setup).owner k) (u.scope k) := by
  induction u with
  | start => exact k.elim0
  | profiler before scope ih =>
    exact (ih k).mono (Provider.scopes_profiler (before.isNoop_run h) scope)
  | @builder p b before j ih =>
    cases k using Fin.lastCases with
    | last =>
      rw [run, Running.owner_builder_last, scope_builder_last]
      exact before.hands_profilers h j
    | cast k =>
      rw [run, Running.owner_builder_castSucc, scope_builder_castSucc]
      exact ih k
  | step before s ih =>
    rw [run, Running.owner_step]
    exact (ih k).mono (by simp [Running.scopes_step])

/-! ## Records -/

/-- **What a provider fills in** for what was not set: each field is the one that is promised. -/
lemma emission_eq (u : Usage p b) (k : Fin b) (freshId : Vector UInt8 16)
    {provider : Provider} (hresource : provider.resource = setup.builder.resource)
    (hclock : provider.clock = u.clockNow setup) :
    provider.emission (u.scope k) ((u.since k).foldl Pending.set {}) freshId.toList =
      u.emission setup k freshId := by
  rw [Provider.emission, emission, hresource, hclock]
  congr 1
  · exact foldl_set (u.since k) (·.profileId.getD freshId.toList) _ (by rintro _ ⟨⟩ <;> rfl) {}
  · exact foldl_set (u.since k) (·.timestamp) _ (by rintro _ ⟨⟩ <;> rfl) {}
  · exact foldl_set (u.since k) (·.observed.getD (u.clockNow setup).now) _
      (by rintro _ ⟨⟩ <;> rfl) {}
  · exact foldl_set (u.since k) (fun pending => (pending.context.getD {}).span) _
      (by rintro _ ⟨⟩ <;> rfl) {}
  · exact foldl_set (u.since k) (·.payloadFormat) _ (by rintro _ ⟨⟩ <;> rfl) {}
  · exact foldl_set (u.since k) (·.payloadBytes) _ (by rintro _ ⟨⟩ <;> rfl) {}
  · exact foldl_set (u.since k) (·.payload) _ (by rintro _ ⟨⟩ <;> rfl) {}

/-- **What a provider makes of a builder is the record that is promised.** -/
lemma live_eq_record (u : Usage p b) (k : Fin b) (freshId : Vector UInt8 16) :
    (u.run setup).provider.live (u.scope k) ((u.run setup).pending k) freshId.toList =
      u.record setup k freshId := by
  obtain ⟨scopes, closed, h⟩ := u.run_provider setup
  rw [pending_run, h, Provider.live, LiveRecord.setAll_fresh, foldl_set_attributes,
    u.emission_eq k freshId rfl rfl]
  rfl

end Usage

end ProfilePipeline
