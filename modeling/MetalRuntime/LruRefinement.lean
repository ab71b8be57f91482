import MetalRuntime.LruCache

/-!
# The LRU cache refines a recency list

`Represents` relates a cache to the list of its pairs, most recent first. Each operation
returns what the operation on the list returns and keeps the relation, so a cache in use
behaves as the list does over every sequence of operations, without undefined behaviour.
-/

namespace MetalRuntime

open Foundations

variable {K V : Type} [DecidableEq K]

/-- The nodes of the cache carry the keys of the list in its order, and the map carries its
values, none of them null. -/
structure LruCache.Represents (cache : LruCache K V) (recent : RecencyList K V) : Prop where
  linked : Linked cache.order cache.entries
  fresh : ∀ node ∈ cache.order, node.id < cache.nextNode
  order : cache.order.map LruNode.key = recent.keys
  values : ∀ key, (cache.entries.lookup key).map Prod.fst = (recent.lookup key).map some

/-- Erasing a node from the list erases its key from the keys. -/
theorem Linked.map_key_erase {order : List (LruNode K)}
    {entries : AList fun _ : K => Option V × ℕ} (h : Linked order entries) {node : LruNode K}
    (hnode : node ∈ order) :
    (order.erase node).map LruNode.key = (order.map LruNode.key).erase node.key := by
  obtain ⟨before, after, rfl⟩ := List.append_of_mem hnode
  have hkeys := h.keys
  rw [List.map_append, List.map_cons, List.nodup_middle, List.nodup_cons, List.mem_append,
    not_or] at hkeys
  have hbefore : node ∉ before := fun hmem => hkeys.1.1 (List.mem_map_of_mem hmem)
  rw [List.erase_append_right _ hbefore, List.erase_cons_head, List.map_append, List.map_append,
    List.map_cons, List.erase_append_right _ hkeys.1.1, List.erase_cons_head]

namespace LruCache

variable {cache : LruCache K V} {recent : RecencyList K V}

namespace Represents

/-- An entry for each pair of the list. -/
theorem lookup_of_some (h : cache.Represents recent) {key : K} {value : V}
    (hvalue : recent.lookup key = some value) :
    ∃ iterator, cache.entries.lookup key = some (some value, iterator) := by
  have hentry := h.values key
  rw [hvalue] at hentry
  obtain ⟨⟨stored, iterator⟩, hlookup, heq⟩ := Option.map_eq_some_iff.mp hentry
  cases heq
  exact ⟨iterator, hlookup⟩

/-- No entry for a key that is not in the list. -/
theorem lookup_of_none (h : cache.Represents recent) {key : K}
    (hvalue : recent.lookup key = none) : cache.entries.lookup key = none := by
  have hentry := h.values key
  rw [hvalue] at hentry
  exact Option.map_eq_none_iff.mp hentry

/-- `find` returns the value of the list and moves its pair to the front. -/
theorem find (h : cache.Represents recent) (key : K) :
    ∃ next, cache.find key = .ok (recent.lookup key, next) ∧ next.limit = cache.limit ∧
      next.Represents (recent.touch key) := by
  cases hvalue : recent.lookup key with
  | none =>
    refine ⟨cache, ?_, rfl, ?_⟩
    · rw [LruCache.find, h.lookup_of_none hvalue]
    · rwa [RecencyList.touch_of_not_mem (AList.lookup_eq_none.mp hvalue)]
  | some value =>
    obtain ⟨iterator, hentry⟩ := h.lookup_of_some hvalue
    have hnode : (⟨iterator, key⟩ : LruNode K) ∈ cache.order :=
      (h.linked.entry ⟨iterator, key⟩).mpr ⟨some value, hentry⟩
    have hsplice := h.linked.splice_eq_ok hnode
    have hperm := (List.perm_cons_erase hnode).symm
    refine ⟨{ cache with order := ⟨iterator, key⟩ :: cache.order.erase ⟨iterator, key⟩ },
      ?_, rfl, ?_⟩
    · rw [LruCache.find, hentry]
      change (splice cache.order iterator >>= _) = _
      rw [hsplice]
      rfl
    · refine ⟨h.linked.perm hperm, fun node hmem => h.fresh node (hperm.mem_iff.mp hmem), ?_, ?_⟩
      · have hmem : key ∈ recent :=
          AList.lookup_isSome.mp (Option.isSome_iff_exists.mpr ⟨_, hvalue⟩)
        rw [RecencyList.keys_touch_of_mem hmem, List.map_cons, h.linked.map_key_erase hnode,
          h.order]
      · intro other
        rw [RecencyList.lookup_touch]
        exact h.values other

/-- `evict` truncates the list to the limit. -/
theorem evict (h : cache.Represents recent) :
    ∃ next, cache.evict = .ok next ∧ next.limit = cache.limit ∧
      next.Represents (recent.limited cache.limit) := by
  by_cases hlimit : cache.limit = 0
  · refine ⟨cache, ?_, rfl, ?_⟩
    · rw [LruCache.evict, if_pos hlimit]
    · rwa [RecencyList.limited, if_pos hlimit]
  · obtain ⟨kept, hloop, hlinked, hlookup⟩ := h.linked.evictLoop_eq_ok cache.limit
    refine ⟨{ cache with order := cache.order.take cache.limit, entries := kept }, ?_, rfl, ?_⟩
    · rw [LruCache.evict, if_neg hlimit, hloop]
      change Except.ok { cache with
        order := (cache.order.take cache.limit).reverse.reverse, entries := kept } = _
      rw [List.reverse_reverse]
    · rw [RecencyList.limited, if_neg hlimit]
      refine ⟨hlinked, fun node hnode => h.fresh node (List.mem_of_mem_take hnode), ?_, ?_⟩
      · rw [RecencyList.keys_keepFirst, ← h.order, List.map_take]
      · intro key
        rw [hlookup, RecencyList.lookup_keepFirst, List.map_take, h.order]
        by_cases hkey : key ∈ recent.keys.take cache.limit
        · rw [if_pos hkey, if_pos hkey]
          exact h.values key
        · rw [if_neg hkey, if_neg hkey]
          rfl

/-- A new pair at the front. -/
theorem pushFront (h : cache.Represents recent) {key : K} (hkey : recent.lookup key = none)
    (value : V) :
    Represents { cache with
      order := ⟨cache.nextNode, key⟩ :: cache.order
      entries := emplace cache.entries key (some value, cache.nextNode)
      nextNode := cache.nextNode + 1 } (recent.insert key value) := by
  have hentry := h.lookup_of_none hkey
  have hemplace : emplace cache.entries key (some value, cache.nextNode) =
      cache.entries.insert key (some value, cache.nextNode) := by
    rw [emplace, hentry, if_neg (by simp)]
  have hlinked : Linked (⟨cache.nextNode, key⟩ :: cache.order)
      (cache.entries.insert key (some value, cache.nextNode)) :=
    h.linked.cons (AList.lookup_eq_none.mp hentry)
      (fun other hother => Nat.ne_of_lt (h.fresh other hother)) (some value)
  rw [hemplace]
  refine ⟨hlinked, ?_, ?_, ?_⟩
  · intro node hnode
    rcases List.mem_cons.mp hnode with rfl | hnode
    · exact Nat.lt_succ_self _
    · exact Nat.lt_succ_of_lt (h.fresh node hnode)
  · have hnot : key ∉ recent.keys := AList.lookup_eq_none.mp hkey
    rw [AList.keys_insert, List.erase_of_not_mem hnot, List.map_cons, h.order]
  · intro other
    by_cases hother : other = key
    · subst hother
      rw [AList.lookup_insert, AList.lookup_insert]
      rfl
    · rw [AList.lookup_insert_ne hother, AList.lookup_insert_ne hother]
      exact h.values other

end Represents

/-- A cache that behaves as a recency list within a limit. -/
structure Refines (cache : LruCache K V) (reference : RecencyCache K V) : Prop where
  limit : cache.limit = reference.limit
  represents : cache.Represents reference.recent

/-- The cache just constructed. -/
def create (limit : ℕ) : LruCache K V := { limit }

/-- An operation of the cache; every inserted value is non-null. -/
def perform (cache : LruCache K V) :
    RecencyCache.Op K V → Except Failure (Option V × LruCache K V)
  | .find key => cache.find key
  | .insert key value => cache.insert key (some value)
  | .setLimit limit => do
    let cache ← cache.setLimit limit
    .ok (none, cache)
  | .clear => .ok (none, cache.clear)

namespace Refines

variable {reference : RecencyCache K V}

/-- The empty cache refines the empty list. -/
theorem create (limit : ℕ) : (create limit : LruCache K V).Refines (.empty limit) where
  limit := rfl
  represents := {
    linked := ⟨List.nodup_nil, List.nodup_nil, fun node => by simp [LruCache.create]⟩
    fresh := fun node hnode => absurd hnode List.not_mem_nil
    order := rfl
    values := fun _ => rfl }

/-- `find` refines the lookup in the list. -/
theorem find (h : cache.Refines reference) (key : K) :
    ∃ next, cache.find key = .ok ((reference.find key).1, next) ∧
      next.Refines (reference.find key).2 := by
  obtain ⟨next, hfind, hlimit, hrepresents⟩ := h.represents.find key
  exact ⟨next, hfind, hlimit.trans h.limit, hrepresents⟩

/-- `insert` of a non-null value refines the insertion into the list. -/
theorem insert (h : cache.Refines reference) (key : K) (value : V) :
    ∃ next, cache.insert key (some value) = .ok (some (reference.insert key value).1, next) ∧
      next.Refines (reference.insert key value).2 := by
  cases hvalue : reference.recent.lookup key with
  | some old =>
    obtain ⟨next, hfind, hnext⟩ := h.find key
    refine ⟨next, ?_, ?_⟩
    · have hold : (reference.find key).1 = some old := hvalue
      rw [LruCache.insert, hfind, RecencyCache.insert_of_lookup hvalue, hold]
      rfl
    · rwa [RecencyCache.insert_of_lookup hvalue]
  | none =>
    have hpushed := h.represents.pushFront hvalue value
    obtain ⟨next, hevict, hlimit, hrepresents⟩ := hpushed.evict
    have hfind : cache.find key = .ok (none, cache) := by
      rw [LruCache.find, h.represents.lookup_of_none hvalue]
    refine ⟨next, ?_, ?_⟩
    · rw [LruCache.insert, hfind]
      change (LruCache.evict _ >>= _) = _
      rw [hevict, RecencyCache.insert, hvalue]
      rfl
    · rw [RecencyCache.insert, hvalue]
      refine ⟨hlimit.trans h.limit, ?_⟩
      rw [← h.limit]
      exact hrepresents

/-- `set_limit` refines truncating the list. -/
theorem setLimit (h : cache.Refines reference) (limit : ℕ) :
    ∃ next, cache.setLimit limit = .ok next ∧ next.Refines (reference.setLimit limit) := by
  have hlimited : Represents { cache with limit } reference.recent :=
    ⟨h.represents.linked, h.represents.fresh, h.represents.order, h.represents.values⟩
  obtain ⟨next, hevict, hlimit, hrepresents⟩ := hlimited.evict
  exact ⟨next, hevict, hlimit, hrepresents⟩

/-- `clear` refines dropping every pair. -/
theorem clear (h : cache.Refines reference) : cache.clear.Refines reference.clear where
  limit := h.limit
  represents := {
    linked := ⟨List.nodup_nil, List.nodup_nil, fun node => by simp [LruCache.clear]⟩
    fresh := fun node hnode => absurd hnode List.not_mem_nil
    order := rfl
    values := fun _ => rfl }

/-- Every operation returns what the list returns, and the cache refines the list after it. -/
theorem perform (h : cache.Refines reference) (op : RecencyCache.Op K V) :
    ∃ next, cache.perform op = .ok ((reference.perform op).1, next) ∧
      next.Refines (reference.perform op).2 := by
  cases op with
  | find key => exact h.find key
  | insert key value => exact h.insert key value
  | setLimit limit =>
    obtain ⟨next, hlimit, hnext⟩ := h.setLimit limit
    refine ⟨next, ?_, hnext⟩
    rw [LruCache.perform, hlimit]
    rfl
  | clear => exact ⟨cache.clear, rfl, h.clear⟩

end Refines

/-- What holds of the two structures of a cache in every reachable state. -/
structure Coherent (cache : LruCache K V) : Prop where
  noDuplicates : (cache.order.map LruNode.key).Nodup
  sameKeys : ∀ key, key ∈ cache.order.map LruNode.key ↔ key ∈ cache.entries
  iterators : ∀ key value iterator, cache.entries.lookup key = some (value, iterator) →
    ⟨iterator, key⟩ ∈ cache.order ∧ ∀ node ∈ cache.order, node.id = iterator → node.key = key
  size_le : cache.limit ≠ 0 → cache.size ≤ cache.limit

/-- A cache that refines a list is coherent. -/
theorem Refines.coherent {reference : RecencyCache K V} (h : cache.Refines reference) :
    cache.Coherent where
  noDuplicates := h.represents.linked.keys
  sameKeys := fun key => (h.represents.linked.mem_keys_iff key).symm.trans AList.mem_keys.symm
  iterators := by
    intro key value iterator hentry
    have hnode := (h.represents.linked.entry ⟨iterator, key⟩).mpr ⟨value, hentry⟩
    exact ⟨hnode, fun node hmem hid =>
      congrArg LruNode.key (h.represents.linked.eq_of_id hmem hnode hid)⟩
  size_le := by
    intro hlimit
    have hwithin := reference.within (by rwa [← h.limit])
    rw [size, h.represents.linked.length_keys, h.limit]
    rwa [← h.represents.order, List.length_map] at hwithin

/-- An operation as a step; undefined behaviour is no step. -/
def step (cache : LruCache K V) (op : RecencyCache.Op K V) : Option (Option V × LruCache K V) :=
  (cache.perform op).toOption

end LruCache

/-- A sequence of operations returns what it returns on the list, and the cache refines the
list after it. -/
theorem LruCache.Refines.run {cache : LruCache K V} {reference : RecencyCache K V}
    (h : cache.Refines reference) (ops : List (RecencyCache.Op K V)) :
    ∃ results next final,
      runSchedule LruCache.step cache ops = some (results, next) ∧
      runSchedule (fun reference op => some (reference.perform op)) reference ops =
        some (results, final) ∧ next.Refines final := by
  induction ops generalizing cache reference with
  | nil => exact ⟨[], cache, reference, rfl, rfl, h⟩
  | cons op rest ih =>
    obtain ⟨next, hperform, hnext⟩ := h.perform op
    obtain ⟨results, last, final, hcache, hreference, hrefines⟩ := ih hnext
    have hstep : cache.step op = some ((reference.perform op).1, next) := by
      rw [step, hperform]
      rfl
    exact ⟨(reference.perform op).1 :: results, last, final,
      (runSchedule_cons_iff _ _ _ _ _ _).mpr ⟨_, next, results, hstep, hcache, rfl⟩,
      (runSchedule_cons_iff _ _ _ _ _ _).mpr ⟨_, _, results, rfl, hreference, rfl⟩, hrefines⟩

/-- Over every sequence of operations, from an empty cache of any limit, the cache has no
undefined behaviour, returns what the recency list returns and holds its pairs in its
order; its two structures stay coherent, and a key inserted next would be present. -/
theorem lruCache_refines_recencyCache (limit : ℕ) (ops : List (RecencyCache.Op K V)) :
    ∃ results cache reference,
      runSchedule LruCache.step (LruCache.create limit) ops = some (results, cache) ∧
      runSchedule (fun reference op => some (reference.perform op)) (RecencyCache.empty limit)
        ops = some (results, reference) ∧
      cache.Refines reference ∧ cache.Coherent ∧
      ∀ key value, ∃ result next,
        cache.insert key (some value) = .ok (result, next) ∧ key ∈ next.entries := by
  obtain ⟨results, cache, reference, hcache, hreference, hrefines⟩ :=
    (LruCache.Refines.create limit).run ops
  refine ⟨results, cache, reference, hcache, hreference, hrefines, hrefines.coherent, ?_⟩
  intro key value
  obtain ⟨next, hinsert, hnext⟩ := hrefines.insert key value
  refine ⟨_, next, hinsert, ?_⟩
  have hvalues := hnext.represents.values key
  rw [RecencyCache.lookup_insert_self] at hvalues
  obtain ⟨entry, hentry, -⟩ := Option.map_eq_some_iff.mp hvalues
  exact AList.lookup_isSome.mp (Option.isSome_iff_exists.mpr ⟨entry, hentry⟩)

end MetalRuntime
