import MetalRuntime.LibraryCache
import MetalRuntime.Foundations.ReuseDistance

/-!
# Which requests are built again

A call of `library_for` or `pipeline_for` compiles exactly when its lookup misses. Which lookups
miss is decided by the calls that have returned an object so far, by the limits set and by the
clears, and by nothing else: a call that throws, or that is still building, does not count.
-/

namespace MetalRuntime

open Foundations

variable {Request Choice Content : Type}

/-- What a step adds to the history of the cache: a call that returns an object has used its
key. -/
def cacheUse (builder : Builder Request Choice Content) :
    CacheEvent Request Choice × CacheShown Request Content → Option (CacheUse ByteString)
  | (_, .ended _ request (.ok _)) => some (.used (builder.key request))
  | (.setLimit limit, _) => some (.limited limit)
  | (.clear, _) => some .cleared
  | _ => none

/-- The history of the cache over a run, newest first. -/
def cacheHistory (builder : Builder Request Choice Content)
    (events : List (CacheEvent Request Choice)) (observations : List (CacheShown Request Content)) :
    List (CacheUse ByteString) :=
  (events.zip observations).reverse.filterMap (cacheUse builder)

/-- An event that belongs to a call. -/
def CacheEvent.OfCall : CacheEvent Request Choice → Prop
  | .setLimit _ => False
  | .clear => False
  | _ => True

namespace CacheSystem

variable {builder : Builder Request Choice Content} {s s' : CacheSystem Request Content}
  {reference : RecencyCache ByteString (Shared Content)} {call : ℕ} {request : Request}
  {event : CacheEvent Request Choice} {shown : CacheShown Request Content}

/-- A lookup that the list answers ends its call. -/
theorem step_lookup_of_some (hrefines : s.cache.Refines reference)
    (hcall : s.calls call = .notStarted) {object : Shared Content}
    (hlookup : reference.recent.lookup (builder.key request) = some object) :
    ∃ s', s.step builder (.lookup call request) =
      some (.ended call request (.ok (some object)), s') := by
  obtain ⟨cache, hfind, -⟩ := hrefines.find (builder.key request)
  rw [RecencyCache.find, hlookup] at hfind
  simp only [step, hcall, performLookup, hfind]
  exact ⟨_, rfl⟩

/-- A lookup that the list does not answer goes on to build. -/
theorem step_lookup_of_none (hrefines : s.cache.Refines reference)
    (hcall : s.calls call = .notStarted)
    (hlookup : reference.recent.lookup (builder.key request) = none) :
    ∃ s', s.step builder (.lookup call request) = some (.continued, s') := by
  obtain ⟨cache, hfind, -⟩ := hrefines.find (builder.key request)
  rw [RecencyCache.find, hlookup] at hfind
  simp only [step, hcall, performLookup, hfind]
  exact ⟨_, rfl⟩

/-- A lookup that goes on to build was not answered by the list. -/
theorem lookup_of_missed (hrefines : s.cache.Refines reference)
    (hstep : s.step builder (.lookup call request) = some (.continued, s')) :
    reference.recent.lookup (builder.key request) = none := by
  cases hcall : s.calls call with
  | notStarted =>
    cases hlookup : reference.recent.lookup (builder.key request) with
    | none => rfl
    | some object =>
      obtain ⟨ended, hended⟩ := step_lookup_of_some hrefines hcall hlookup
      rw [hended] at hstep
      cases hstep
  | _ => simp [step, hcall] at hstep

/-- A step keeps the agreement of the list with the history of the cache. -/
theorem tracks_of_step {limit : ℕ} {history : List (CacheUse ByteString)}
    (hinv : Invariant builder s reference) (htracks : reference.Tracks limit history)
    (hstep : s.step builder event = some (shown, s')) :
    ∃ next, Invariant builder s' next ∧
      next.Tracks limit ((cacheUse builder (event, shown)).toList ++ history) := by
  obtain ⟨next, hnext, hcase⟩ := step_invariant hinv hstep
  refine ⟨next, hnext, ?_⟩
  generalize hcalls : s'.calls = calls at hcase
  cases hcase with
  | hit call request object hlookup => exact htracks.find_of_lookup hlookup
  | missed call request => exact htracks.find_of_absent (lookup_of_missed hinv.refines hstep)
  | failed => exact htracks
  | built => exact htracks
  | inserted call request object => exact htracks.insert (builder.key request) object
  | limited limit => exact htracks.setLimit limit
  | cleared => exact htracks.clear

/-- After every run the list agrees with the history of the cache. -/
theorem run_tracks {limit : ℕ} {events : List (CacheEvent Request Choice)}
    {observations : List (CacheShown Request Content)}
    (hrun : runSchedule (step builder) (initial limit) events = some (observations, s)) :
    ∃ reference, Invariant builder s reference ∧
      reference.Tracks limit (cacheHistory builder events observations) := by
  have hstart : ∃ reference, Invariant builder (initial limit) reference ∧
      reference.Tracks limit (List.filterMap (cacheUse builder) []) :=
    ⟨_, initial_invariant builder limit, RecencyCache.tracks_empty limit⟩
  have hlast := runSchedule_history (fun history s => ∃ reference, Invariant builder s reference ∧
    reference.Tracks limit (history.filterMap (cacheUse builder))) ?_ hstart hrun
  · rwa [List.append_nil] at hlast
  · intro history s event shown s' hbefore hstep
    obtain ⟨reference, hinv, htracks⟩ := hbefore
    obtain ⟨next, hnext, hlater⟩ := tracks_of_step hinv htracks hstep
    refine ⟨next, hnext, ?_⟩
    rw [List.filterMap_cons]
    cases huse : cacheUse builder (event, shown) <;> rwa [huse] at hlater

end CacheSystem

/-- A step of a call adds a use or nothing. -/
theorem cacheUse_of_call (builder : Builder Request Choice Content)
    {event : CacheEvent Request Choice} (shown : CacheShown Request Content) (h : event.OfCall) :
    cacheUse builder (event, shown) = none ∨ ∃ key, cacheUse builder (event, shown) =
      some (.used key) := by
  cases event with
  | setLimit limit => exact h.elim
  | clear => exact h.elim
  | _ =>
    cases shown with
    | ended call request outcome =>
      cases outcome with
      | error failure => exact Or.inl rfl
      | ok returned => exact Or.inr ⟨builder.key request, rfl⟩
    | continued => exact Or.inl rfl
    | administered outcome => exact Or.inl rfl

/-- A run of calls alone makes a history of uses. -/
theorem cacheHistory_of_calls {builder : Builder Request Choice Content}
    {events : List (CacheEvent Request Choice)} {observations : List (CacheShown Request Content)}
    (h : ∀ event ∈ events, event.OfCall) :
    ∃ keys : List ByteString, cacheHistory builder events observations = keys.map .used := by
  have hcalls : ∀ entry ∈ (events.zip observations).reverse, entry.1.OfCall := by
    intro entry hentry
    exact h entry.1 (List.of_mem_zip (List.mem_reverse.mp hentry)).1
  rw [cacheHistory]
  generalize (events.zip observations).reverse = entries at hcalls ⊢
  induction entries with
  | nil => exact ⟨[], rfl⟩
  | cons entry rest ih =>
    obtain ⟨hentry, hrest⟩ := List.forall_mem_cons.mp hcalls
    obtain ⟨keys, hkeys⟩ := ih hrest
    rcases cacheUse_of_call builder entry.2 hentry with hnone | ⟨key, hkey⟩
    · exact ⟨keys, by rw [List.filterMap_cons, hnone]; exact hkeys⟩
    · exact ⟨key :: keys, by rw [List.filterMap_cons, hkey]; exact congrArg _ hkeys⟩

/-- After every run of calls, limit changes and clears, interleaved in any way: the lookup of a
new call is answered from the cache exactly if its key was used by a call that returned and, at
every moment since, neither cleared nor pushed out, fewer other keys having been used since its
last use than the limit of that moment; otherwise the call goes on to build. Without limit
changes and clears this is the reuse distance of the key being below the limit. -/
theorem lookup_builds_unless_retained {builder : Builder Request Choice Content} {limit : ℕ}
    {events : List (CacheEvent Request Choice)} {observations : List (CacheShown Request Content)}
    {s : CacheSystem Request Content}
    (hrun : runSchedule (CacheSystem.step builder) (.initial limit) events =
      some (observations, s)) {call : ℕ} (hcall : s.calls call = .notStarted)
    (request : Request) :
    ((∃ object s', s.step builder (.lookup call request) =
        some (.ended call request (.ok (some object)), s')) ↔
      Retained limit (builder.key request) (cacheHistory builder events observations)) ∧
    ((∃ s', s.step builder (.lookup call request) = some (.continued, s')) ↔
      ¬ Retained limit (builder.key request) (cacheHistory builder events observations)) ∧
    ((∀ event ∈ events, event.OfCall) →
      (Retained limit (builder.key request) (cacheHistory builder events observations) ↔
        .used (builder.key request) ∈ cacheHistory builder events observations ∧
        Room limit (usedSince (builder.key request)
          (cacheHistory builder events observations)).card)) := by
  obtain ⟨reference, hinv, htracks⟩ := CacheSystem.run_tracks hrun
  have hpresent : (reference.recent.lookup (builder.key request)).isSome ↔
      Retained limit (builder.key request) (cacheHistory builder events observations) := by
    rw [AList.lookup_isSome, AList.mem_keys]
    exact htracks.present (builder.key request)
  refine ⟨?_, ?_, ?_⟩
  · rw [← hpresent]
    cases hlookup : reference.recent.lookup (builder.key request) with
    | some object =>
      obtain ⟨s', hstep⟩ := CacheSystem.step_lookup_of_some hinv.refines hcall hlookup
      exact ⟨fun _ => rfl, fun _ => ⟨object, s', hstep⟩⟩
    | none =>
      obtain ⟨s', hstep⟩ := CacheSystem.step_lookup_of_none hinv.refines hcall hlookup
      refine ⟨?_, fun h => by cases h⟩
      intro h
      obtain ⟨object, ended, hended⟩ := h
      cases hstep.symm.trans hended
  · rw [← hpresent]
    cases hlookup : reference.recent.lookup (builder.key request) with
    | some object =>
      obtain ⟨s', hstep⟩ := CacheSystem.step_lookup_of_some hinv.refines hcall hlookup
      refine ⟨?_, fun h => absurd rfl h⟩
      intro h
      obtain ⟨missed, hmissed⟩ := h
      cases hstep.symm.trans hmissed
    | none =>
      obtain ⟨s', hstep⟩ := CacheSystem.step_lookup_of_none hinv.refines hcall hlookup
      exact ⟨fun _ => Bool.false_ne_true, fun _ => ⟨s', hstep⟩⟩
  · intro hcalls
    obtain ⟨keys, hkeys⟩ := cacheHistory_of_calls hcalls
    rw [hkeys, retained_map_used_iff, List.mem_map_of_injective]
    intro key other h
    exact CacheUse.used.inj h

/-- A request for a source without macros. -/
def sourceRequest (source : String) : LibraryRequest := ⟨ascii source, {}⟩

/-- Three sources compiled one after the other. -/
def threeSources : List (CacheEvent LibraryRequest CompileResult) :=
  [.lookup 0 (sourceRequest "a"), .build 0 none, .insert 0,
    .lookup 1 (sourceRequest "b"), .build 1 none, .insert 1,
    .lookup 2 (sourceRequest "c"), .build 2 none, .insert 2]

/-- With room for two, the first is compiled again when it is asked for after the others. -/
theorem first_of_three_builds_again : ∃ observations s s',
    runSchedule (CacheSystem.step (libraryBuilder currentPlatform)) (.initial 2) threeSources =
      some (observations, s) ∧
    s.step (libraryBuilder currentPlatform) (.lookup 3 (sourceRequest "a")) =
      some (.continued, s') := by
  have hrun : runSchedule (CacheSystem.step (libraryBuilder currentPlatform)) (.initial 2)
    threeSources = some (_, _) := rfl
  obtain ⟨-, hbuilds, hdistance⟩ := lookup_builds_unless_retained hrun
    (show CacheSystem.calls _ 3 = .notStarted from rfl) (sourceRequest "a")
  have hcalls : ∀ event ∈ threeSources, event.OfCall := by simp [threeSources, CacheEvent.OfCall]
  have hnot : ¬ Room 2 (usedSince (libraryKey (ascii "a") {})
      [.used (libraryKey (ascii "c") {}), .used (libraryKey (ascii "b") {}),
        .used (libraryKey (ascii "a") {})]).card := by
    rw [Room]
    decide
  obtain ⟨s', hstep⟩ := hbuilds.mpr fun hretained => hnot ((hdistance hcalls).mp hretained).2
  exact ⟨_, _, s', hrun, hstep⟩

end MetalRuntime
