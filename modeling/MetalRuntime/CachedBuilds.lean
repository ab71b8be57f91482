import MetalRuntime.LruRefinement
import Mathlib.Logic.Function.Basic

/-!
# A cache filled outside its lock

`library_for` and `pipeline_for` share one protocol: a lookup under the lock, a build
outside it that may fail, and an insertion under the lock that keeps an earlier entry. Here
any number of calls run it on one cache, interleaved in any order with changes of the limit
and with clearing. A call is identified by a number, and `CacheStep` says once what a step
can do.
-/

namespace MetalRuntime

open Foundations

/-- An object behind a `shared_ptr`, with its identity. -/
structure Shared (Content : Type) where
  id : ℕ
  content : Content
  deriving DecidableEq

/-- The key of a request, and what building it yields or throws. The choice is whatever the
build depends on besides the request. -/
structure Builder (Request Choice Content : Type) where
  key : Request → ByteString
  build : Request → Choice → Except Failure Content

/-- Requests with one key build the same. -/
def Builder.Separates {Request Choice Content : Type} (builder : Builder Request Choice Content) :
    Prop :=
  ∀ request other, builder.key request = builder.key other →
    builder.build request = builder.build other

/-- Where a call stands. -/
inductive CallPhase (Request Content : Type)
  | notStarted
  | building (request : Request)
  | built (request : Request) (object : Shared Content)
  | ended

/-- A cache, the calls in progress on it, and the identity of the next object. -/
structure CacheSystem (Request Content : Type) where
  cache : LruCache ByteString (Shared Content)
  calls : ℕ → CallPhase Request Content
  nextObject : ℕ

/-- A step of some thread. -/
inductive CacheEvent (Request Choice : Type)
  | lookup (call : ℕ) (request : Request)
  | build (call : ℕ) (choice : Choice)
  | insert (call : ℕ)
  | setLimit (limit : ℕ)
  | clear

/-- What a step shows: a call that ended with what it returned or threw, a call that goes on,
or a change of the cache itself. -/
inductive CacheShown (Request Content : Type)
  | ended (call : ℕ) (request : Request) (outcome : Except Failure (Option (Shared Content)))
  | continued
  | administered (outcome : Except Failure Unit)

variable {Request Choice Content : Type}

namespace CacheSystem

/-- An empty cache of a limit, on which no call has started. -/
def initial (limit : ℕ) : CacheSystem Request Content := ⟨.create limit, fun _ => .notStarted, 0⟩

/-- The state after a call moved on. -/
def moveTo (s : CacheSystem Request Content) (call : ℕ) (phase : CallPhase Request Content) :
    CacheSystem Request Content :=
  { s with calls := Function.update s.calls call phase }

/-- The locked lookup; a hit ends the call. -/
def performLookup (builder : Builder Request Choice Content) (s : CacheSystem Request Content)
    (call : ℕ) (request : Request) :
    CacheShown Request Content × CacheSystem Request Content :=
  match s.cache.find (builder.key request) with
  | .error failure => (.ended call request (.error failure), s.moveTo call .ended)
  | .ok (some hit, cache) =>
    (.ended call request (.ok (some hit)), { s with cache }.moveTo call .ended)
  | .ok (none, cache) => (.continued, { s with cache }.moveTo call (.building request))

/-- The build outside the lock; a failure ends the call. -/
def performBuild (builder : Builder Request Choice Content) (s : CacheSystem Request Content)
    (call : ℕ) (request : Request) (choice : Choice) :
    CacheShown Request Content × CacheSystem Request Content :=
  match builder.build request choice with
  | .error failure => (.ended call request (.error failure), s.moveTo call .ended)
  | .ok content =>
    (.continued, { s with nextObject := s.nextObject + 1 }.moveTo call
      (.built request ⟨s.nextObject, content⟩))

/-- The locked insertion, which ends the call with what the cache returns. -/
def performInsert (builder : Builder Request Choice Content) (s : CacheSystem Request Content)
    (call : ℕ) (request : Request) (object : Shared Content) :
    CacheShown Request Content × CacheSystem Request Content :=
  match s.cache.insert (builder.key request) (some object) with
  | .error failure => (.ended call request (.error failure), s.moveTo call .ended)
  | .ok (result, cache) =>
    (.ended call request (.ok result), { s with cache }.moveTo call .ended)

/-- The next state after an event, if the event can happen. -/
def step (builder : Builder Request Choice Content) (s : CacheSystem Request Content) :
    CacheEvent Request Choice →
    Option (CacheShown Request Content × CacheSystem Request Content)
  | .lookup call request =>
    match s.calls call with
    | .notStarted => some (s.performLookup builder call request)
    | _ => none
  | .build call choice =>
    match s.calls call with
    | .building request => some (s.performBuild builder call request choice)
    | _ => none
  | .insert call =>
    match s.calls call with
    | .built request object => some (s.performInsert builder call request object)
    | _ => none
  | .setLimit limit =>
    match s.cache.setLimit limit with
    | .error failure => some (.administered (.error failure), s)
    | .ok cache => some (.administered (.ok ()), { s with cache })
  | .clear => some (.administered (.ok ()), { s with cache := s.cache.clear })

/-- The object that the cache holds for a key. -/
def contents (s : CacheSystem Request Content) (key : ByteString) : Option (Shared Content) :=
  (s.cache.entries.lookup key).bind Prod.fst

end CacheSystem

/-- What one step does to the calls and to the recency list that the cache refines. -/
inductive CacheStep (builder : Builder Request Choice Content) (s : CacheSystem Request Content)
    (reference : RecencyCache ByteString (Shared Content)) :
    CacheEvent Request Choice → CacheShown Request Content → (ℕ → CallPhase Request Content) →
    RecencyCache ByteString (Shared Content) → Prop
  /-- A hit returns the object of the list. -/
  | hit (call : ℕ) (request : Request) (object : Shared Content)
      (hlookup : reference.recent.lookup (builder.key request) = some object) :
      CacheStep builder s reference (.lookup call request)
        (.ended call request (.ok (some object))) (Function.update s.calls call .ended)
        (reference.find (builder.key request)).2
  /-- A miss goes on to build. -/
  | missed (call : ℕ) (request : Request) :
      CacheStep builder s reference (.lookup call request) .continued
        (Function.update s.calls call (.building request))
        (reference.find (builder.key request)).2
  /-- A failed build throws. -/
  | failed (call : ℕ) (request : Request) (choice : Choice) (failure : Failure)
      (hbuild : builder.build request choice = .error failure) :
      CacheStep builder s reference (.build call choice) (.ended call request (.error failure))
        (Function.update s.calls call .ended) reference
  /-- A build that succeeded makes a new object. -/
  | built (call : ℕ) (request : Request) (choice : Choice) (content : Content)
      (hbuild : builder.build request choice = .ok content) :
      CacheStep builder s reference (.build call choice) .continued
        (Function.update s.calls call (.built request ⟨s.nextObject, content⟩)) reference
  /-- An insertion returns what the list holds for the key afterwards. -/
  | inserted (call : ℕ) (request : Request) (object : Shared Content)
      (hphase : s.calls call = .built request object) :
      CacheStep builder s reference (.insert call)
        (.ended call request (.ok (some (reference.insert (builder.key request) object).1)))
        (Function.update s.calls call .ended)
        (reference.insert (builder.key request) object).2
  /-- A new limit truncates the list. -/
  | limited (limit : ℕ) :
      CacheStep builder s reference (.setLimit limit) (.administered (.ok ())) s.calls
        (reference.setLimit limit)
  /-- Clearing drops every pair. -/
  | cleared :
      CacheStep builder s reference .clear (.administered (.ok ())) s.calls reference.clear

namespace CacheSystem

variable {builder : Builder Request Choice Content} {s s' : CacheSystem Request Content}
  {reference : RecencyCache ByteString (Shared Content)} {event : CacheEvent Request Choice}
  {shown : CacheShown Request Content}

/-- Everything a step can do to a cache that refines a recency list. -/
theorem step_cases (hrefines : s.cache.Refines reference)
    (hstep : s.step builder event = some (shown, s')) :
    ∃ next, s'.cache.Refines next ∧ CacheStep builder s reference event shown s'.calls next := by
  cases event with
  | lookup call request =>
    cases hphase : s.calls call with
    | notStarted =>
      obtain ⟨cache, hfind, hnext⟩ := hrefines.find (builder.key request)
      simp only [step, hphase, performLookup, hfind, Option.some.injEq] at hstep
      cases hlookup : reference.recent.lookup (builder.key request) with
      | some object =>
        rw [RecencyCache.find, hlookup] at hstep
        cases hstep
        exact ⟨_, hnext, .hit call request object hlookup⟩
      | none =>
        rw [RecencyCache.find, hlookup] at hstep
        cases hstep
        exact ⟨_, hnext, .missed call request⟩
    | _ => simp [step, hphase] at hstep
  | build call choice =>
    cases hphase : s.calls call with
    | building request =>
      simp only [step, hphase, performBuild, Option.some.injEq] at hstep
      cases hbuild : builder.build request choice with
      | error failure =>
        rw [hbuild] at hstep
        cases hstep
        exact ⟨reference, hrefines, .failed call request choice failure hbuild⟩
      | ok content =>
        rw [hbuild] at hstep
        cases hstep
        exact ⟨reference, hrefines, .built call request choice content hbuild⟩
    | _ => simp [step, hphase] at hstep
  | insert call =>
    cases hphase : s.calls call with
    | built request object =>
      obtain ⟨cache, hinsert, hnext⟩ := hrefines.insert (builder.key request) object
      simp only [step, hphase, performInsert, hinsert, Option.some.injEq] at hstep
      cases hstep
      exact ⟨_, hnext, .inserted call request object hphase⟩
    | _ => simp [step, hphase] at hstep
  | setLimit limit =>
    obtain ⟨cache, hlimit, hnext⟩ := hrefines.setLimit limit
    simp only [step, hlimit, Option.some.injEq] at hstep
    cases hstep
    exact ⟨_, hnext, .limited limit⟩
  | clear =>
    cases Option.some.inj hstep
    exact ⟨_, hrefines.clear, .cleared⟩

/-- The invariant of the system: the cache refines a list in which every object was built for
a request with its key, and every object in flight was built for its own request. -/
structure Invariant (builder : Builder Request Choice Content)
    (s : CacheSystem Request Content) (reference : RecencyCache ByteString (Shared Content)) :
    Prop where
  refines : s.cache.Refines reference
  stored : ∀ key object, reference.recent.lookup key = some object →
    ∃ request choice, builder.key request = key ∧
      builder.build request choice = .ok object.content
  built : ∀ call request object, s.calls call = .built request object →
    ∃ choice, builder.build request choice = .ok object.content

/-- The initial state satisfies the invariant. -/
theorem initial_invariant (builder : Builder Request Choice Content) (limit : ℕ) :
    Invariant builder (initial limit) (.empty limit) where
  refines := LruCache.Refines.create limit
  stored := fun _ _ hlookup => by cases hlookup
  built := fun _ _ _ hphase => by cases hphase

/-- After a step, an object of the list was in the list before, or the key was absent and a
call in flight brought the object. -/
theorem lookup_of_cacheStep {calls : ℕ → CallPhase Request Content}
    {next : RecencyCache ByteString (Shared Content)}
    (hcase : CacheStep builder s reference event shown calls next) {key : ByteString}
    {object : Shared Content} (hlookup : next.recent.lookup key = some object) :
    reference.recent.lookup key = some object ∨ (reference.recent.lookup key = none ∧
      ∃ call request, s.calls call = .built request object ∧ builder.key request = key) := by
  have hlimited : ∀ {now before : Option (Shared Content)}, now = before ∨ now = none →
      now = some object → before = some object := by
    intro now before hnow hsome
    rcases hnow with rfl | rfl
    · exact hsome
    · cases hsome
  cases hcase with
  | hit => exact Or.inl ((RecencyList.lookup_touch _ key reference.recent).symm.trans hlookup)
  | missed => exact Or.inl ((RecencyList.lookup_touch _ key reference.recent).symm.trans hlookup)
  | failed => exact Or.inl hlookup
  | built => exact Or.inl hlookup
  | inserted call request inserted hphase =>
    by_cases hkey : key = builder.key request
    · subst hkey
      rw [RecencyCache.lookup_insert_self] at hlookup
      cases hold : reference.recent.lookup (builder.key request) with
      | some old =>
        rw [RecencyCache.insert_of_lookup hold] at hlookup
        exact Or.inl hlookup
      | none =>
        rw [RecencyCache.insert, hold] at hlookup
        cases hlookup
        exact Or.inr ⟨rfl, call, request, hphase, rfl⟩
    · exact Or.inl (hlimited (RecencyCache.lookup_insert_of_ne reference hkey inserted) hlookup)
  | limited limit =>
    exact Or.inl (hlimited (RecencyList.lookup_limited limit reference.recent key) hlookup)
  | cleared => cases hlookup

/-- A call in flight after a step was in flight before it, or the step built its object. -/
theorem built_of_cacheStep {calls : ℕ → CallPhase Request Content}
    {next : RecencyCache ByteString (Shared Content)}
    (hcase : CacheStep builder s reference event shown calls next) {call : ℕ} {request : Request}
    {object : Shared Content} (hcall : calls call = .built request object) :
    s.calls call = .built request object ∨
      ∃ choice, builder.build request choice = .ok object.content := by
  have hother : ∀ (other : ℕ) (phase : CallPhase Request Content),
      calls = Function.update s.calls other phase →
        s.calls call = .built request object ∨ phase = .built request object := by
    intro other phase hcalls
    rw [hcalls] at hcall
    by_cases heq : call = other
    · subst heq
      rw [Function.update_self] at hcall
      exact Or.inr hcall
    · rw [Function.update_of_ne heq] at hcall
      exact Or.inl hcall
  cases hcase with
  | limited => exact Or.inl hcall
  | cleared => exact Or.inl hcall
  | built _ _ choice content hbuild =>
    rcases hother _ _ rfl with hbefore | hbuilt
    · exact Or.inl hbefore
    · cases hbuilt
      exact Or.inr ⟨choice, hbuild⟩
  | _ =>
    rcases hother _ _ rfl with hbefore | hbuilt
    · exact Or.inl hbefore
    · cases hbuilt

/-- Each step keeps the invariant. -/
theorem step_invariant (hinv : Invariant builder s reference)
    (hstep : s.step builder event = some (shown, s')) :
    ∃ next, Invariant builder s' next ∧
      CacheStep builder s reference event shown s'.calls next := by
  obtain ⟨next, hrefines, hcase⟩ := step_cases hinv.refines hstep
  refine ⟨next, ⟨hrefines, ?_, ?_⟩, hcase⟩
  · intro key object hlookup
    rcases lookup_of_cacheStep hcase hlookup with hbefore | ⟨-, call, request, hphase, hkey⟩
    · exact hinv.stored key object hbefore
    · obtain ⟨choice, hbuild⟩ := hinv.built call request object hphase
      exact ⟨request, choice, hkey, hbuild⟩
  · intro call request object hcall
    rcases built_of_cacheStep hcase hcall with hbefore | hbuild
    · exact hinv.built call request object hbefore
    · exact hbuild

/-- Every schedule keeps the invariant. -/
theorem run_invariant {events : List (CacheEvent Request Choice)}
    {observations : List (CacheShown Request Content)} (hinv : Invariant builder s reference)
    (hrun : runSchedule (step builder) s events = some (observations, s')) :
    ∃ next, Invariant builder s' next := by
  refine runSchedule_invariant (fun s => ∃ next, Invariant builder s next) ?_ ⟨_, hinv⟩ hrun
  intro s event shown s' hbefore hstep
  obtain ⟨reference, hinv⟩ := hbefore
  obtain ⟨next, hnext, -⟩ := step_invariant hinv hstep
  exact ⟨next, hnext⟩

end CacheSystem

/-- What a step shows agrees with the build of the call's own request: a call returns an
object built for its request, throws what such a build throws, and the cache itself never
fails. -/
def CacheShown.Faithful (builder : Builder Request Choice Content) :
    CacheShown Request Content → Prop
  | .ended _ request (.ok returned) => ∃ object choice, returned = some object ∧
      builder.build request choice = .ok object.content
  | .ended _ request (.error failure) => ∃ choice, builder.build request choice = .error failure
  | .continued => True
  | .administered outcome => outcome = .ok ()

namespace CacheSystem

variable {builder : Builder Request Choice Content} {s s' : CacheSystem Request Content}
  {reference : RecencyCache ByteString (Shared Content)} {event : CacheEvent Request Choice}
  {shown : CacheShown Request Content} {events : List (CacheEvent Request Choice)}
  {observations : List (CacheShown Request Content)}

/-- An object of the list was built for every request with its key. -/
theorem built_of_lookup (hseparates : builder.Separates) (hinv : Invariant builder s reference)
    {request : Request} {object : Shared Content}
    (hlookup : reference.recent.lookup (builder.key request) = some object) :
    ∃ choice, builder.build request choice = .ok object.content := by
  obtain ⟨other, choice, hkey, hbuild⟩ := hinv.stored _ object hlookup
  rw [hseparates other request hkey] at hbuild
  exact ⟨choice, hbuild⟩

/-- If keys separate requests, each step shows a faithful outcome. -/
theorem faithful_of_step (hseparates : builder.Separates) (hinv : Invariant builder s reference)
    (hstep : s.step builder event = some (shown, s')) : shown.Faithful builder := by
  obtain ⟨next, -, hcase⟩ := step_invariant hinv hstep
  generalize s'.calls = calls at hcase
  cases hcase with
  | hit call request object hlookup =>
    obtain ⟨choice, hbuild⟩ := built_of_lookup hseparates hinv hlookup
    exact ⟨object, choice, rfl, hbuild⟩
  | missed => trivial
  | failed call request choice failure hbuild => exact ⟨choice, hbuild⟩
  | built => trivial
  | inserted call request object hphase =>
    cases hlookup : reference.recent.lookup (builder.key request) with
    | some old =>
      obtain ⟨choice, hbuild⟩ := built_of_lookup hseparates hinv hlookup
      rw [RecencyCache.insert_of_lookup hlookup]
      exact ⟨old, choice, rfl, hbuild⟩
    | none =>
      obtain ⟨choice, hbuild⟩ := hinv.built call request object hphase
      rw [RecencyCache.insert, hlookup]
      exact ⟨object, choice, rfl, hbuild⟩
  | limited => rfl
  | cleared => rfl

/-- If keys separate requests, everything that a schedule shows is faithful. -/
theorem run_faithful (hseparates : builder.Separates) (hinv : Invariant builder s reference)
    (hrun : runSchedule (step builder) s events = some (observations, s')) :
    ∀ shown ∈ observations, shown.Faithful builder := by
  refine runSchedule_observed (fun s => ∃ next, Invariant builder s next) _ ?_ ⟨_, hinv⟩ hrun
  intro s event shown s' hbefore hstep
  obtain ⟨reference, hinv⟩ := hbefore
  obtain ⟨next, hnext, -⟩ := step_invariant hinv hstep
  exact ⟨faithful_of_step hseparates hinv hstep, next, hnext⟩

/-- A step that ends a call with an exception leaves the cache as it was. -/
theorem cache_of_thrown {call : ℕ} {request : Request} {failure : Failure}
    (hstep : s.step builder event = some (.ended call request (.error failure), s')) :
    s'.cache = s.cache := by
  cases event with
  | lookup call request =>
    simp only [step, performLookup] at hstep
    split at hstep
    · split at hstep <;> cases hstep
      rfl
    · cases hstep
  | build call choice =>
    simp only [step, performBuild] at hstep
    split at hstep
    · split at hstep <;> cases hstep
      rfl
    · cases hstep
  | insert call =>
    simp only [step, performInsert] at hstep
    split at hstep
    · split at hstep <;> cases hstep
      rfl
    · cases hstep
  | setLimit limit =>
    simp only [step] at hstep
    split at hstep <;> cases hstep
  | clear => cases hstep

/-- A lookup that misses changes no entry. -/
theorem entries_of_find {cache next : LruCache ByteString (Shared Content)} {key : ByteString}
    {found : Option (Shared Content)} (hfind : cache.find key = .ok (found, next)) :
    next.entries = cache.entries := by
  unfold LruCache.find at hfind
  split at hfind
  · cases hfind
    rfl
  · obtain ⟨order, -, hrest⟩ := bind_eq_ok_iff.mp hfind
    cases hrest
    rfl

/-- A step after which its call goes on leaves the entries as they were. -/
theorem entries_of_continued (hstep : s.step builder event = some (.continued, s')) :
    s'.cache.entries = s.cache.entries := by
  cases event with
  | lookup call request =>
    simp only [step, performLookup] at hstep
    split at hstep
    · split at hstep <;> cases hstep
      rename_i hfind
      exact entries_of_find hfind
    · cases hstep
  | build call choice =>
    simp only [step, performBuild] at hstep
    split at hstep
    · split at hstep <;> cases hstep
      rfl
    · cases hstep
  | insert call =>
    simp only [step, performInsert] at hstep
    split at hstep
    · split at hstep <;> cases hstep
    · cases hstep
  | setLimit limit =>
    simp only [step] at hstep
    split at hstep <;> cases hstep
  | clear => cases hstep

/-- The cache holds what the list that it refines holds. -/
theorem contents_eq (hrefines : s.cache.Refines reference) (key : ByteString) :
    s.contents key = reference.recent.lookup key := by
  have hvalues := hrefines.represents.values key
  unfold contents
  cases hentry : s.cache.entries.lookup key with
  | none =>
    rw [hentry] at hvalues
    exact (Option.map_eq_none_iff.mp hvalues.symm).symm
  | some entry =>
    rw [hentry] at hvalues
    obtain ⟨object, hobject, heq⟩ := Option.map_eq_some_iff.mp hvalues.symm
    exact heq.symm.trans hobject.symm

/-- In every state that a schedule passes through, the cache holds an object for the key: the
key is neither evicted nor cleared. -/
def PresentThroughout (builder : Builder Request Choice Content) (key : ByteString) :
    CacheSystem Request Content → List (CacheEvent Request Choice) → Prop
  | s, [] => (s.contents key).isSome
  | s, event :: rest => (s.contents key).isSome ∧
      ∀ shown s', s.step builder event = some (shown, s') → PresentThroughout builder key s' rest

/-- A key that stays present keeps its object. -/
theorem contents_of_presentThroughout {key : ByteString} {object : Shared Content}
    (hinv : Invariant builder s reference) (hobject : s.contents key = some object)
    (hpresent : PresentThroughout builder key s events)
    (hrun : runSchedule (step builder) s events = some (observations, s')) :
    s'.contents key = some object := by
  induction events generalizing s reference observations with
  | nil =>
    cases hrun
    exact hobject
  | cons event rest ih =>
    obtain ⟨shown, middle, observations', hstep, hrest, rfl⟩ :=
      (runSchedule_cons_iff _ _ _ _ _ _).mp hrun
    obtain ⟨next, hnext, hcase⟩ := step_invariant hinv hstep
    have hlater := hpresent.2 shown middle hstep
    have hsome : (middle.contents key).isSome := by
      cases rest with
      | nil => exact hlater
      | cons => exact hlater.1
    obtain ⟨found, hfound⟩ := Option.isSome_iff_exists.mp hsome
    refine ih hnext ?_ hlater hrest
    rw [contents_eq hnext.refines] at hfound ⊢
    rw [contents_eq hinv.refines] at hobject
    rcases lookup_of_cacheStep hcase hfound with hbefore | ⟨habsent, -⟩
    · rw [hfound, ← hbefore, hobject]
    · cases habsent.symm.trans hobject

/-- After a step in which a call obtains an object, the cache holds that object for its key;
if it held an object before, it is that one. -/
theorem contents_of_obtained {call : ℕ} {request : Request} {object : Shared Content}
    (hinv : Invariant builder s reference)
    (hstep : s.step builder event = some (.ended call request (.ok (some object)), s')) :
    s'.contents (builder.key request) = some object ∧
      ∀ held, s.contents (builder.key request) = some held → held = object := by
  obtain ⟨next, hnext, hcase⟩ := step_invariant hinv hstep
  rw [contents_eq hnext.refines, contents_eq hinv.refines]
  generalize s'.calls = calls at hcase
  cases hcase with
  | hit call request object hlookup =>
    refine ⟨(RecencyList.lookup_touch _ _ reference.recent).trans hlookup, ?_⟩
    intro held hheld
    exact Option.some.inj (hheld.symm.trans hlookup)
  | inserted call request object hphase =>
    refine ⟨RecencyCache.lookup_insert_self reference _ object, ?_⟩
    intro held hheld
    rw [RecencyCache.insert_of_lookup hheld]

/-- Two calls with one key obtain the same object if the key stays present between the steps
at which they obtain it. -/
theorem same_object {key : ByteString} {event₁ event₂ : CacheEvent Request Choice}
    {s₁ s₂ s₃ : CacheSystem Request Content} {call₁ call₂ : ℕ} {request₁ request₂ : Request}
    {object₁ object₂ : Shared Content} (hinv : Invariant builder s reference)
    (hkey₁ : builder.key request₁ = key) (hkey₂ : builder.key request₂ = key)
    (hfirst : s.step builder event₁ = some (.ended call₁ request₁ (.ok (some object₁)), s₁))
    (hbetween : runSchedule (step builder) s₁ events = some (observations, s₂))
    (hpresent : PresentThroughout builder key s₁ events)
    (hsecond : s₂.step builder event₂ = some (.ended call₂ request₂ (.ok (some object₂)), s₃)) :
    object₁ = object₂ := by
  subst hkey₁
  obtain ⟨next, hnext, -⟩ := step_invariant hinv hfirst
  obtain ⟨last, hlast⟩ := run_invariant hnext hbetween
  have hheld := contents_of_presentThroughout hnext (contents_of_obtained hinv hfirst).1 hpresent
    hbetween
  rw [← hkey₂] at hheld
  exact (contents_of_obtained hlast hsecond).2 object₁ hheld

end CacheSystem

end MetalRuntime
