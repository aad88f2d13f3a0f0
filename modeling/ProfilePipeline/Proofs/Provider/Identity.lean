import Mathlib.Data.List.Nodup
import Mathlib.Tactic.Common
import ProfilePipeline.Proofs.Otlp.Origins
import ProfilePipeline.Proofs.Provider.Delivery

/-!
# Who gets which profiler

Profilers are told apart by name, version and schema, and a request without a name is one for
`unknown`.  What else a request brings counts only if it is the first with its identity.

**Requests.**  `ProfilerRequest.identity` reads the identity off a request, without making a scope;
`identity_named` says that it is the one of the scope that the provider looks for.

**Providers.**  `Provider.Distinct`: no two profilers have one identity.  So an identity determines
the profiler (`Provider.Hands.eq_iff`), where `Usage.hands_profilers` said that a profiler
determines its scope.

**Programs.**  **`Usage.tells_apart`** is the result, for any program that asks for profilers, with
anything else going on in between.
-/

namespace ProfilePipeline

variable {p b : Nat}

/-! ## Requests -/

namespace ScopeSetting

def version? : ScopeSetting → Option String
  | version v => some v
  | schemaUrl _ => none

def schemaUrl? : ScopeSetting → Option String
  | version _ => none
  | schemaUrl url => some url

/-- What settings say of a field last. -/
def last? (field : ScopeSetting → Option String) (settings : List ScopeSetting) : Option String :=
  settings.reverse.findSome? field

end ScopeSetting

namespace ProfilerRequest

/-- The name that is asked for. -/
def title : ProfilerRequest → String
  | ofScope scope => scope.name
  | built name _ => name
  | ofName name => name

/-- The version that is asked for, if one is. -/
def version? : ProfilerRequest → Option String
  | ofScope scope => scope.version
  | built _ settings => ScopeSetting.last? (·.version?) settings
  | ofName _ => none

/-- The schema that is asked for, if one is. -/
def schemaUrl? : ProfilerRequest → Option String
  | ofScope scope => scope.schemaUrl
  | built _ settings => ScopeSetting.last? (·.schemaUrl?) settings
  | ofName _ => none

/-- The attributes that a request brings. -/
def attributes : ProfilerRequest → Attributes
  | ofScope scope => scope.attributes
  | built _ _ | ofName _ => .empty

/-- **What is asked for**: name, version and schema, where no name stands for `unknown`. -/
def identity (r : ProfilerRequest) : Scope.Identity :=
  ⟨if r.title = "" then "unknown" else r.title, r.version?, r.schemaUrl?⟩

end ProfilerRequest

namespace Scope

/-- A field of a scope is as it was set last. -/
lemma foldl_set_field (read : Scope → Option String) (field : ScopeSetting → Option String)
    (hset : ∀ s setting, read (s.set setting) = (field setting).or (read s))
    (settings : List ScopeSetting) (s : Scope) :
    read (settings.foldl Scope.set s) = (ScopeSetting.last? field settings).or (read s) := by
  induction settings generalizing s with
  | nil => rfl
  | cons setting settings ih =>
      rw [List.foldl_cons, ih, hset]
      simp [ScopeSetting.last?, List.findSome?_append, Option.or_assoc]

/-- Settings leave the name and the attributes alone. -/
lemma foldl_set_rest (settings : List ScopeSetting) (s : Scope) :
    (settings.foldl Scope.set s).name = s.name ∧
      (settings.foldl Scope.set s).attributes = s.attributes := by
  induction settings generalizing s with
  | nil => exact ⟨rfl, rfl⟩
  | cons setting settings ih =>
      rw [List.foldl_cons]
      cases setting <;> exact ih _

lemma identity_named (s : Scope) :
    s.named.identity = ⟨if s.name = "" then "unknown" else s.name, s.version, s.schemaUrl⟩ := by
  by_cases hname : s.name = "" <;> simp [named, identity, unknownName, hname]

lemma attributes_named (s : Scope) : s.named.attributes = s.attributes := by
  rw [named]
  split <;> rfl

end Scope

namespace ProfilerRequest

/-- **A provider looks for what is asked for**, however it is asked for. -/
theorem identity_named (r : ProfilerRequest) : r.scope.named.identity = r.identity := by
  rw [Scope.identity_named]
  cases r with
  | ofScope scope => rfl
  | built name settings =>
      have hversion := Scope.foldl_set_field (·.version) (·.version?)
        (by rintro s ⟨⟩ <;> rfl) settings { name }
      have hschema := Scope.foldl_set_field (·.schemaUrl) (·.schemaUrl?)
        (by rintro s ⟨⟩ <;> rfl) settings { name }
      rw [Option.or_none] at hversion hschema
      rw [scope, (Scope.foldl_set_rest settings { name }).1, hversion, hschema]
      rfl
  | ofName name => rfl

lemma attributes_named (r : ProfilerRequest) : r.scope.named.attributes = r.attributes := by
  rw [Scope.attributes_named]
  cases r with
  | ofScope scope => rfl
  | built name settings => exact (Scope.foldl_set_rest settings { name }).2
  | ofName name => rfl

end ProfilerRequest

/-! ## Providers -/

namespace Provider

variable {provider : Provider}

/-- No two profilers of a provider have one identity. -/
def Distinct (provider : Provider) : Prop := (provider.scopes.map Scope.identity).Nodup

/-- **A profiler is made only for an identity that has none.** -/
lemma Distinct.profiler (h : provider.Distinct) (hbusy : provider.isNoop = false) (scope : Scope) :
    (provider.profiler scope).1.Distinct := by
  rcases profiler_cases hbusy scope with ⟨_, _, -, -, heq⟩ | ⟨hnew, heq⟩
  · rwa [heq]
  · have hfresh : scope.named.identity ∉ provider.scopes.map Scope.identity := by
      intro hmem
      obtain ⟨known, hknown, hidentity⟩ := List.mem_map.mp hmem
      rw [scope?, List.find?_eq_none] at hnew
      exact hnew known hknown (by simpa using hidentity)
    rw [heq, Distinct, List.map_append, List.nodup_append]
    refine ⟨h, by simp, ?_⟩
    rintro i hi j hj rfl
    obtain rfl : i = scope.named.identity := by simpa using hj
    exact hfresh hi

/-- **Two profilers are one exactly if their scopes have one identity.** -/
lemma Hands.eq_iff (h : provider.Distinct) {profiler other : Profiler} {s t : Scope}
    (hs : provider.Hands profiler s) (ht : provider.Hands other t) :
    profiler = other ↔ s.identity = t.identity := by
  obtain ⟨m, rfl, hm⟩ := hs
  obtain ⟨n, rfl, hn⟩ := ht
  constructor
  · intro heq
    obtain rfl : m = n := by simpa using heq
    rw [Option.some.inj (hm.symm.trans hn)]
  · intro hidentity
    have hms : (provider.scopes.map Scope.identity)[m]? = some s.identity := by simp [hm]
    have hnt : (provider.scopes.map Scope.identity)[n]? = some s.identity := by
      simp [hn, hidentity]
    have hlt := (List.getElem?_eq_some_iff.mp hms).1
    rw [(List.getElem?_inj hlt h).mp (hms.trans hnt.symm)]

end Provider

/-! ## Programs -/

namespace Usage

variable {setup : Setup} {u : Usage p b}

/-- The scopes that profilers were asked for with, as they were asked for. -/
def wanted : {p b : Nat} → Usage p b → Vector Scope p
  | _, _, start => .emptyWithCapacity 0
  | _, _, profiler before scope => before.wanted.push scope
  | _, _, builder before _ => before.wanted
  | _, _, step before _ => before.wanted

lemma requested_eq_map (u : Usage p b) : u.requested = u.wanted.map Scope.named := by
  induction u with
  | start => simp [requested, wanted]
  | profiler before scope ih => rw [requested, wanted, Vector.map_push, ih]
  | builder before j ih => exact ih
  | step before s ih => exact ih

lemma distinct_run (h : setup.provider.isNoop = false) (u : Usage p b) :
    (u.run setup).provider.Distinct := by
  induction u with
  | start => exact List.nodup_nil
  | profiler before scope ih => exact ih.profiler (before.isNoop_run h) scope
  | builder before j ih => exact ih
  | step before s ih =>
    rw [run, Provider.Distinct, Running.scopes_step]
    exact ih

lemma identity_scopeOf (u : Usage p b) (j : Fin p) :
    (u.scopeOf j).identity = (u.asked j).identity := by
  have hfound := List.find?_some (u.find_requested j)
  simpa using hfound

/-- **The scope of the profiler for a request.** -/
structure Carries (setup : Setup) (u : Usage p b) (requests : Vector ProfilerRequest p) (j : Fin p)
    (scope : Scope) : Prop where
  /-- It has the identity that is asked for. -/
  identity : scope.identity = requests[j].identity
  /-- Its attributes are those that the first request with this identity brought. -/
  attributes : ∃ first ≤ j, requests[first].identity = requests[j].identity ∧
    (∀ i < first, requests[i].identity ≠ requests[j].identity) ∧
      scope.attributes = requests[first].attributes
  /-- What is emitted reaches the processor as a record with this scope. -/
  emitted : (u.run setup).provider.closed = none → ∀ pending freshId s,
    ((u.run setup).provider.emit ((u.run setup).handed j) pending freshId s).1 =
      (setup.processor.onEmit ((u.run setup).provider.live scope pending freshId).emission.span
        ((u.run setup).provider.live scope pending freshId) s).1
  /-- Whatever processors set on a record, it keeps this scope. -/
  records : ∃ number, (u.run setup).handed j = .of number ∧
    ∀ record, (u.run setup).provider.Emits number record → record.scope = scope

/-- **What a provider makes of the requests of a program.** -/
structure TellsApart (setup : Setup) (u : Usage p b) (requests : Vector ProfilerRequest p) :
    Prop where
  /-- Two requests get the same profiler exactly if they ask for the same. -/
  same_iff : ∀ i j : Fin p, (u.run setup).handed i = (u.run setup).handed j ↔
    requests[i].identity = requests[j].identity
  carries : ∀ j : Fin p, ∃ scope, u.Carries setup requests j scope

variable {requests : Vector ProfilerRequest p}

lemma asked_eq (asks : u.wanted = requests.map ProfilerRequest.scope) (j : Fin p) :
    u.asked j = requests[j].scope.named := by
  simp [asked, requested_eq_map, asks]

lemma identity_scopeOf_eq (asks : u.wanted = requests.map ProfilerRequest.scope) (j : Fin p) :
    (u.scopeOf j).identity = requests[j].identity := by
  rw [identity_scopeOf, asked_eq asks, ProfilerRequest.identity_named]

/-- **The first request for an identity decides about the attributes.** -/
lemma attributes_scopeOf (asks : u.wanted = requests.map ProfilerRequest.scope) (j : Fin p) :
    ∃ first ≤ j, requests[first].identity = requests[j].identity ∧
      (∀ i < first, requests[i].identity ≠ requests[j].identity) ∧
        (u.scopeOf j).attributes = requests[first].attributes := by
  obtain ⟨hfound, i, hi, hscopeOf, hearlier⟩ :=
    List.find?_eq_some_iff_getElem.mp (u.find_requested j)
  have hip : i < p := by simpa using hi
  have hat : ∀ (k : Fin p) (_ : k.val < u.requested.toList.length),
      u.requested.toList[k.val] = requests[k].scope.named := by
    intro k _
    rw [← asked_eq asks k, Vector.getElem_toList]
    rfl
  -- looking for the scope that was asked for is looking for the identity of the request
  have hlook : ∀ (k : Fin p) (_ : k.val < u.requested.toList.length),
      decide (u.requested.toList[k.val].identity = (u.asked j).identity) =
        decide (requests[k].identity = requests[j].identity) := by
    intro k _
    rw [hat k, asked_eq asks j, ProfilerRequest.identity_named, ProfilerRequest.identity_named]
  refine ⟨⟨i, hip⟩, ?_, ?_, ?_, ?_⟩
  · by_contra hlt
    have hnot := hearlier j.val (Nat.not_le.mp hlt)
    rw [hlook j] at hnot
    exact absurd hnot (by simp)
  · rw [← hscopeOf, hlook ⟨i, hip⟩] at hfound
    exact of_decide_eq_true hfound
  · intro k hk
    have hnot := hearlier k.val hk
    rw [hlook k] at hnot
    simpa using hnot
  · rw [← hscopeOf, hat ⟨i, hip⟩, ProfilerRequest.attributes_named]

/-- **Profilers are told apart by name, version and schema**, whatever else is done with the
provider between the requests, and what a profiler emits has the attributes of the first request for it. -/
theorem tells_apart (h : setup.provider.isNoop = false)
    (asks : u.wanted = requests.map ProfilerRequest.scope) : u.TellsApart setup requests := by
  have hhands := fun j => u.hands_profilers h j
  refine ⟨?_, ?_⟩
  · intro i j
    rw [(hhands i).eq_iff (u.distinct_run h) (hhands j), identity_scopeOf_eq asks,
      identity_scopeOf_eq asks]
  · intro j
    refine ⟨u.scopeOf j, identity_scopeOf_eq asks j, attributes_scopeOf asks j, ?_, ?_⟩
    · intro hopen pending freshId s
      rw [← processor_run u]
      exact Provider.emit_open (hhands j) hopen pending freshId s
    · obtain ⟨number, hhanded, hnumber⟩ := hhands j
      exact ⟨number, hhanded, fun _ hemits => (hemits.origin hnumber).2⟩

/-- A provider with one processor. -/
def attended : Setup where
  builder := { processors := [.scripted 0] }
  number := 0
  state := { scripted := #[{ script := { name := "a" } }] }

/-- Four requests: without a name and with an attribute, by the name that stands for none, by a
builder whose version is set to an empty one in the end, and with an attribute that comes too
late. -/
def fourRequests : Vector ProfilerRequest 4 :=
  #v[.ofScope { attributes := .ofList [("k", .int 1)] }, .ofName "unknown",
    .built "" [.version "1", .version ""],
    .ofScope { name := "unknown", attributes := .ofList [("k", .int 2)] }]

/-- A program that makes these requests, and shuts the provider down before the last one. -/
def asking : Usage 4 0 :=
  (((((start.profiler { attributes := .ofList [("k", .int 1)] }).profiler
    { name := "unknown" }).profiler { version := some "" }).step .shutdown).profiler
    { name := "unknown", attributes := .ofList [("k", .int 2)] })

/-- All but the third request get the same profiler. -/
theorem tells_apart_asking :
    attended.provider.isNoop = false ∧
      asking.wanted = fourRequests.map ProfilerRequest.scope ∧
      ((asking.run attended).handed 0 = (asking.run attended).handed 3 ∧
        (asking.run attended).handed 1 ≠ (asking.run attended).handed 2) ∧
      asking.TellsApart attended fourRequests := by
  have hbusy : attended.provider.isNoop = false := rfl
  have asks : asking.wanted = fourRequests.map ProfilerRequest.scope := by
    simp [asking, wanted, fourRequests, ProfilerRequest.scope, Scope.set]
  have apart := tells_apart hbusy asks
  exact ⟨hbusy, asks, ⟨(apart.same_iff 0 3).mpr rfl, mt (apart.same_iff 1 2).mp (by decide)⟩, apart⟩

end Usage

end ProfilePipeline
