import MetalRuntime.Foundations.Guards
import MetalRuntime.Foundations.RecencyList
import MetalRuntime.Foundations.Runs
import MetalRuntime.Values

/-!
# The LRU cache

`LruCache` of `lru.h`: a linked list of keys, most recently used first, and a hash map from
each key to its value and to an iterator into the list. Following an iterator that denotes
no node and reading the back of an empty list are undefined behaviour. The cache is shown
to refine a recency list, so neither ever happens.
-/

namespace MetalRuntime

open Foundations

/-- A node of the list of keys; an iterator denotes a node by its identity. -/
structure LruNode (K : Type) where
  id : ℕ
  key : K
  deriving DecidableEq

/-- The members of `LruCache`. A `shared_ptr` is an option, and the map has unique keys. -/
structure LruCache (K V : Type) where
  limit : ℕ
  order : List (LruNode K) := []
  entries : AList (fun _ : K => Option V × ℕ) := ∅
  nextNode : ℕ := 0

namespace LruCache

variable {K V : Type} [DecidableEq K]

/-- `order_.splice(order_.begin(), order_, iterator)`. -/
def splice (order : List (LruNode K)) (iterator : ℕ) : Except Failure (List (LruNode K)) :=
  match order.find? fun node => node.id = iterator with
  | some node => .ok (node :: order.eraseP fun node => node.id = iterator)
  | none => .error .undefinedBehavior

/-- `find`. -/
def find (cache : LruCache K V) (key : K) : Except Failure (Option V × LruCache K V) :=
  match cache.entries.lookup key with
  | none => .ok (none, cache)
  | some (value, iterator) => do
    let order ← splice cache.order iterator
    .ok (value, { cache with order })

/-- `entries_.emplace`, which leaves a present key alone. -/
def emplace (entries : AList fun _ : K => Option V × ℕ) (key : K) (entry : Option V × ℕ) :
    AList fun _ : K => Option V × ℕ :=
  if (entries.lookup key).isSome then entries else entries.insert key entry

/-- The loop of `evict`, over the nodes from the back of the list. -/
def evictLoop (limit : ℕ) : List (LruNode K) → AList (fun _ : K => Option V × ℕ) →
    Except Failure (List (LruNode K) × AList fun _ : K => Option V × ℕ)
  | [], entries =>
    if entries.keys.length > limit then .error .undefinedBehavior else .ok ([], entries)
  | back :: rest, entries =>
    if entries.keys.length > limit then evictLoop limit rest (entries.erase back.key)
    else .ok (back :: rest, entries)

/-- `evict`. -/
def evict (cache : LruCache K V) : Except Failure (LruCache K V) :=
  if cache.limit = 0 then .ok cache
  else do
    let (order, entries) ← evictLoop cache.limit cache.order.reverse cache.entries
    .ok { cache with order := order.reverse, entries }

/-- `insert`: returns the existing entry if the key is already present. -/
def insert (cache : LruCache K V) (key : K) (value : Option V) :
    Except Failure (Option V × LruCache K V) := do
  let (existing, cache) ← cache.find key
  match existing with
  | some existing => .ok (some existing, cache)
  | none => do
    let node : LruNode K := ⟨cache.nextNode, key⟩
    let cache ← evict { cache with
      order := node :: cache.order
      entries := emplace cache.entries key (value, node.id)
      nextNode := cache.nextNode + 1 }
    .ok (value, cache)

/-- `set_limit`; 0 disables eviction. -/
def setLimit (cache : LruCache K V) (limit : ℕ) : Except Failure (LruCache K V) :=
  evict { cache with limit }

/-- `size`. -/
def size (cache : LruCache K V) : ℕ := cache.entries.keys.length

/-- `clear`. -/
def clear (cache : LruCache K V) : LruCache K V := { cache with entries := ∅, order := [] }

end LruCache

/-- Erasing the first element with a projection is erasing the element itself, if only it has
that projection. -/
private theorem eraseP_eq_erase {α β : Type} [DecidableEq α] [DecidableEq β] (f : α → β)
    {elements : List α} {a : α} (hunique : ∀ other ∈ elements, f other = f a → other = a) :
    elements.eraseP (fun other => f other = f a) = elements.erase a := by
  induction elements with
  | nil => rfl
  | cons head rest ih =>
    by_cases hhead : head = a
    · subst hhead
      rw [List.erase_cons_head, List.eraseP_cons_of_pos (by simp)]
    · have hne : f head ≠ f a := fun heq => hhead (hunique head List.mem_cons_self heq)
      rw [List.erase_cons_tail (by simpa using hhead), List.eraseP_cons_of_neg (by simpa using hne),
        ih fun other hother => hunique other (List.mem_cons_of_mem head hother)]

/-- The map has exactly the keys of the list, and each entry's iterator denotes the node of
its own key. -/
structure Linked {K V : Type} [DecidableEq K] (order : List (LruNode K))
    (entries : AList fun _ : K => Option V × ℕ) : Prop where
  keys : (order.map LruNode.key).Nodup
  iterators : (order.map LruNode.id).Nodup
  entry : ∀ node, node ∈ order ↔ ∃ value, entries.lookup node.key = some (value, node.id)

namespace Linked

variable {K V : Type} [DecidableEq K] {order : List (LruNode K)}
  {entries : AList fun _ : K => Option V × ℕ}

/-- A key is in the map exactly when it is in the list. -/
theorem mem_keys_iff (h : Linked order entries) (key : K) :
    key ∈ entries.keys ↔ key ∈ order.map LruNode.key := by
  rw [← AList.mem_keys, ← AList.lookup_isSome, Option.isSome_iff_exists, List.mem_map]
  refine ⟨fun hkey => ?_, fun hkey => ?_⟩
  · obtain ⟨⟨value, iterator⟩, hvalue⟩ := hkey
    exact ⟨⟨iterator, key⟩, (h.entry ⟨iterator, key⟩).mpr ⟨value, hvalue⟩, rfl⟩
  · obtain ⟨node, hnode, rfl⟩ := hkey
    obtain ⟨value, hvalue⟩ := (h.entry node).mp hnode
    exact ⟨_, hvalue⟩

/-- The map and the list have the same size. -/
theorem length_keys (h : Linked order entries) : entries.keys.length = order.length := by
  have hperm := (List.perm_ext_iff_of_nodup entries.keys_nodup h.keys).mpr h.mem_keys_iff
  rw [hperm.length_eq, List.length_map]

/-- Nodes of the list with one identity are one node. -/
theorem eq_of_id (h : Linked order entries) {node other : LruNode K} (hnode : node ∈ order)
    (hother : other ∈ order) (hid : node.id = other.id) : node = other :=
  List.inj_on_of_nodup_map h.iterators hnode hother hid

/-- The list may be rearranged. -/
theorem perm (h : Linked order entries) {other : List (LruNode K)} (hperm : other.Perm order) :
    Linked other entries where
  keys := (hperm.map LruNode.key).nodup_iff.mpr h.keys
  iterators := (hperm.map LruNode.id).nodup_iff.mpr h.iterators
  entry := fun node => hperm.mem_iff.trans (h.entry node)

/-- The last node may be dropped from both. -/
theorem erase_last {rest : List (LruNode K)} {last : LruNode K}
    (h : Linked (rest ++ [last]) entries) : Linked rest (entries.erase last.key) where
  keys := by
    have hkeys := h.keys
    rw [List.map_append] at hkeys
    exact hkeys.of_append_left
  iterators := by
    have hiterators := h.iterators
    rw [List.map_append] at hiterators
    exact hiterators.of_append_left
  entry := by
    intro node
    have hkeys := h.keys
    rw [List.map_append, List.nodup_append] at hkeys
    refine ⟨fun hnode => ?_, fun hvalue => ?_⟩
    · have hne : node.key ≠ last.key := hkeys.2.2 node.key (List.mem_map_of_mem hnode) last.key
        List.mem_cons_self
      rw [AList.lookup_erase_ne hne]
      exact (h.entry node).mp (List.mem_append_left [last] hnode)
    · obtain ⟨value, hvalue⟩ := hvalue
      have hne : node.key ≠ last.key := by
        intro heq
        rw [heq, AList.lookup_erase] at hvalue
        cases hvalue
      rw [AList.lookup_erase_ne hne] at hvalue
      rcases List.mem_append.mp ((h.entry node).mpr ⟨value, hvalue⟩) with hnode | hnode
      · exact hnode
      · exact absurd (congrArg LruNode.key (List.mem_singleton.mp hnode)) hne

/-- A new node may be put at the front, with a new key and a new identity. -/
theorem cons (h : Linked order entries) {node : LruNode K} (hkey : node.key ∉ entries)
    (hid : ∀ other ∈ order, other.id ≠ node.id) (value : Option V) :
    Linked (node :: order) (entries.insert node.key (value, node.id)) where
  keys := by
    rw [List.map_cons, List.nodup_cons, ← h.mem_keys_iff]
    exact ⟨hkey, h.keys⟩
  iterators := by
    rw [List.map_cons, List.nodup_cons, List.mem_map]
    refine ⟨?_, h.iterators⟩
    intro hmem
    obtain ⟨other, hother, heq⟩ := hmem
    exact hid other hother heq
  entry := by
    intro other
    rw [List.mem_cons]
    by_cases hother : other.key = node.key
    · have hnot : other ∉ order := by
        intro hmem
        have hkeys := (h.mem_keys_iff other.key).mpr (List.mem_map_of_mem hmem)
        rw [hother] at hkeys
        exact hkey hkeys
      rw [hother, AList.lookup_insert]
      refine ⟨fun hmem => ?_, fun hvalue => ?_⟩
      · rcases hmem with rfl | hmem
        · exact ⟨value, rfl⟩
        · exact absurd hmem hnot
      · obtain ⟨_, heq⟩ := hvalue
        cases other
        cases node
        simp_all
    · rw [AList.lookup_insert_ne hother, ← h.entry other]
      refine ⟨fun hmem => ?_, Or.inr⟩
      rcases hmem with rfl | hmem
      · exact absurd rfl hother
      · exact hmem

/-- Splicing the node of an entry moves it to the front. -/
theorem splice_eq_ok (h : Linked order entries) {node : LruNode K} (hnode : node ∈ order) :
    LruCache.splice order node.id = .ok (node :: order.erase node) := by
  have hfind : order.find? (fun other => other.id = node.id) = some node := by
    cases hfound : order.find? fun other => other.id = node.id with
    | none =>
      have hnone := List.find?_eq_none.mp hfound node hnode
      simp at hnone
    | some found =>
      have hid : found.id = node.id := by simpa using List.find?_some hfound
      rw [h.eq_of_id (List.mem_of_find?_eq_some hfound) hnode hid]
  have herase := eraseP_eq_erase LruNode.id fun other hother => h.eq_of_id hother hnode
  rw [LruCache.splice, hfind, herase]

/-- The eviction loop keeps the first nodes of the list and their entries. -/
theorem evictLoop_eq_ok (h : Linked order entries) (limit : ℕ) :
    ∃ kept, LruCache.evictLoop limit order.reverse entries =
        .ok ((order.take limit).reverse, kept) ∧
      Linked (order.take limit) kept ∧
      ∀ key, kept.lookup key =
        if key ∈ (order.take limit).map LruNode.key then entries.lookup key else none := by
  induction order using List.reverseRecOn generalizing entries with
  | nil =>
    have hempty : entries.keys.length = 0 := h.length_keys
    refine ⟨entries, ?_, ?_, ?_⟩
    · rw [List.reverse_nil, LruCache.evictLoop, if_neg (by omega), List.take_nil,
        List.reverse_nil]
    · rwa [List.take_nil]
    · intro key
      rw [List.take_nil, List.map_nil, if_neg List.not_mem_nil, AList.lookup_eq_none,
        AList.mem_keys, List.length_eq_zero_iff.mp hempty]
      exact List.not_mem_nil
  | append_singleton rest last ih =>
    have hlength := h.length_keys
    rw [List.length_append, List.length_singleton] at hlength
    rw [List.reverse_append, List.reverse_singleton, List.singleton_append, LruCache.evictLoop]
    by_cases hfull : entries.keys.length > limit
    · have hkeys := h.keys
      rw [List.map_append, List.nodup_append] at hkeys
      obtain ⟨kept, hloop, hlinked, hlookup⟩ := ih h.erase_last
      rw [if_pos hfull, List.take_append_of_le_length (by omega)]
      refine ⟨kept, hloop, hlinked, ?_⟩
      intro key
      rw [hlookup]
      by_cases hkey : key ∈ (rest.take limit).map LruNode.key
      · rw [if_pos hkey, if_pos hkey, AList.lookup_erase_ne]
        obtain ⟨node, hnode, rfl⟩ := List.mem_map.mp hkey
        exact hkeys.2.2 node.key (List.mem_map_of_mem (List.mem_of_mem_take hnode)) last.key
          List.mem_cons_self
      · rw [if_neg hkey, if_neg hkey]
    · have hall : (rest ++ [last]).take limit = rest ++ [last] := by
        refine List.take_of_length_le ?_
        rw [List.length_append, List.length_singleton]
        omega
      rw [if_neg hfull, hall, List.reverse_append, List.reverse_singleton, List.singleton_append]
      refine ⟨entries, rfl, h, ?_⟩
      intro key
      by_cases hkey : key ∈ (rest ++ [last]).map LruNode.key
      · rw [if_pos hkey]
      · rw [if_neg hkey, AList.lookup_eq_none, AList.mem_keys, h.mem_keys_iff]
        exact hkey

end Linked

end MetalRuntime
