import MetalRuntime.Foundations.RecencyInclusion
import MetalRuntime.LruRefinement

/-!
# A larger cache never loses a hit

Two caches with fixed limits see the same accesses from empty. Each refines a recency list,
and the list of the smaller one stays included in the list of the larger one, so the keys in
the maps and the order in the lists do too.
-/

namespace MetalRuntime

open Foundations RecencyCache

variable {K V : Type} [DecidableEq K]

namespace LruCache

/-- An access as a step. -/
def access (cache : LruCache K V) (access : Access K V) : Option (Option V × LruCache K V) :=
  cache.step access.toOp

/-- Every key of one cache is in the other, in the same order of recency. -/
def KeysIncluded (small large : LruCache K V) : Prop :=
  (∀ key ∈ small.entries, key ∈ large.entries) ∧
    (small.order.map LruNode.key).Sublist (large.order.map LruNode.key)

/-- Two caches that refine recency lists, the first included in the second. -/
def RefineIncluded (small large : LruCache K V) : Prop :=
  ∃ reference reference' : RecencyCache K V, small.Refines reference ∧
    large.Refines reference' ∧ reference.Includes reference'

/-- Inclusion of the lists is inclusion of the caches. -/
theorem RefineIncluded.keysIncluded {small large : LruCache K V}
    (h : RefineIncluded small large) : small.KeysIncluded large := by
  obtain ⟨reference, reference', hsmall, hlarge, hincludes⟩ := h
  have horder : (small.order.map LruNode.key).Sublist (large.order.map LruNode.key) := by
    rw [hsmall.represents.order, hlarge.represents.order]
    exact hincludes.order
  refine ⟨?_, horder⟩
  intro key hkey
  rw [AList.mem_keys, hsmall.represents.linked.mem_keys_iff] at hkey
  rw [AList.mem_keys, hlarge.represents.linked.mem_keys_iff]
  exact horder.subset hkey

/-- An access to both caches keeps the inclusion, and a hit of the smaller one is a hit of the
larger one. -/
theorem RefineIncluded.access {small small' large : LruCache K V}
    (h : RefineIncluded small large) (access : Access K V) {result : Option V}
    (hstep : small.access access = some (result, small')) :
    ∃ result' large', large.access access = some (result', large') ∧
      (result.isSome → result'.isSome) ∧ RefineIncluded small' large' := by
  obtain ⟨reference, reference', hsmall, hlarge, hincludes⟩ := h
  obtain ⟨next, hperform, hnext⟩ := hsmall.perform access.toOp
  obtain ⟨next', hperform', hnext'⟩ := hlarge.perform access.toOp
  obtain ⟨hhit, hincluded⟩ := hincludes.perform access
  rw [LruCache.access, step, hperform] at hstep
  cases hstep
  refine ⟨_, next', ?_, hhit, _, _, hnext, hnext', hincluded⟩
  rw [LruCache.access, step, hperform']
  rfl

end LruCache

/-- Over every sequence of lookups, insertions and clears, from two empty caches whose limits
are ordered (0 is no limit), every key of the smaller cache is in the larger one in the same
order of recency, and every access that the smaller one serves the larger one serves too. -/
theorem larger_cache_keeps_hits {a b : ℕ} (ha : 1 ≤ a) (hab : a ≤ b ∨ b = 0)
    (accesses : List (Access K V)) :
    ∃ results small results' large,
      runSchedule LruCache.access (LruCache.create a) accesses = some (results, small) ∧
      runSchedule LruCache.access (LruCache.create b) accesses = some (results', large) ∧
      small.KeysIncluded large ∧
      List.Forall₂ (fun result result' => result.isSome → result'.isSome) results results' := by
  obtain ⟨results, small, -, hsmall, -⟩ :=
    (LruCache.Refines.create a).run (accesses.map (Access.toOp (K := K) (V := V)))
  rw [runSchedule_map] at hsmall
  have hcreate : LruCache.RefineIncluded (LruCache.create a : LruCache K V) (LruCache.create b) :=
    ⟨_, _, LruCache.Refines.create a, LruCache.Refines.create b, includes_empty ha hab⟩
  obtain ⟨results', large, hlarge, hhits, hincluded⟩ :=
    runSchedule_simulation LruCache.RefineIncluded
      (fun result result' : Option V => result.isSome → result'.isSome)
      (fun _ _ access _ _ h hstep => h.access access hstep) hcreate hsmall
  exact ⟨results, small, results', large, hsmall, hlarge, hincluded.keysIncluded, hhits⟩

/-- With one place and with two, on the same accesses: the key that the small cache still has
is in the large one, too. -/
theorem two_places_keep_hits : ∃ results small results' large,
    runSchedule LruCache.access (LruCache.create 1 : LruCache ℕ ℕ)
      [.insert 1 10, .insert 2 20, .find 2, .find 1] = some (results, small) ∧
    runSchedule LruCache.access (LruCache.create 2 : LruCache ℕ ℕ)
      [.insert 1 10, .insert 2 20, .find 2, .find 1] = some (results', large) ∧
    small.KeysIncluded large ∧
    List.Forall₂ (fun result result' => result.isSome → result'.isSome) results results' :=
  larger_cache_keeps_hits (by decide) (by decide) _

end MetalRuntime
