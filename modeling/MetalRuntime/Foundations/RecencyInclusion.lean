import MetalRuntime.Foundations.RecencyList

/-!
# A larger recency cache includes a smaller one

Two caches of different limits that see the same accesses come apart: one hits where the
other misses. What stays is that the keys of the smaller one are a sublist of the keys of
the larger one. For a new key, which both insert, this is kept because the smaller cache
evicts at least when the larger one does; a smaller cache with room has evicted nothing, so
it still equals the larger one.
-/

namespace Foundations

/-- Dropping the last elements keeps a sublist. -/
theorem sublist_dropLast {α : Type*} {xs ys : List α} (h : xs.Sublist ys) :
    xs.dropLast.Sublist ys.dropLast := by
  have hreverse := h.reverse.tail.reverse
  rwa [List.tail_reverse, List.tail_reverse, List.reverse_reverse, List.reverse_reverse]
    at hreverse

namespace RecencyList

variable {K V : Type*} [DecidableEq K]

/-- The keys after touching a key. -/
theorem keys_touch (key : K) (recent : RecencyList K V) :
    (touch key recent).keys =
      if key ∈ recent.keys then key :: recent.keys.erase key else recent.keys := by
  by_cases hkey : key ∈ recent.keys
  · rw [if_pos hkey, keys_touch_of_mem (AList.mem_keys.mpr hkey)]
  · rw [if_neg hkey, touch_of_not_mem fun hmem => hkey (AList.mem_keys.mp hmem)]

/-- Touching a key keeps a sublist, also where only the larger list holds the key. -/
theorem sublist_touch {small large : RecencyList K V} (h : small.keys.Sublist large.keys)
    (key : K) : (small.touch key).keys.Sublist (large.touch key).keys := by
  rw [keys_touch, keys_touch]
  by_cases hsmall : key ∈ small.keys
  · rw [if_pos hsmall, if_pos (h.subset hsmall)]
    exact (h.erase key).cons_cons key
  · rw [if_neg hsmall]
    by_cases hlarge : key ∈ large.keys
    · rw [if_pos hlarge]
      have herase := h.erase key
      rw [List.erase_of_not_mem hsmall] at herase
      exact herase.cons key
    · rwa [if_neg hlarge]

/-- Inserting a new key puts it before the others. -/
theorem keys_insert_of_not_mem {recent : RecencyList K V} {key : K} (hkey : key ∉ recent.keys)
    (value : V) : (recent.insert key value).keys = key :: recent.keys := by
  rw [AList.keys_insert, List.erase_of_not_mem hkey]

end RecencyList

namespace RecencyCache

variable {K V : Type*}

/-- The cache holds as many pairs as its limit allows. -/
def Full (cache : RecencyCache K V) : Prop :=
  cache.limit ≠ 0 ∧ cache.limit ≤ cache.recent.keys.length

/-- The keys of the smaller cache are among those of the larger one, in the same order; while
the smaller one has room, they are the same. -/
structure Includes (small large : RecencyCache K V) : Prop where
  positive : small.limit ≠ 0
  limits : large.limit = 0 ∨ small.limit ≤ large.limit
  order : small.recent.keys.Sublist large.recent.keys
  room : ¬ small.Full → small.recent.keys = large.recent.keys

/-- Two empty caches. -/
theorem includes_empty {a b : ℕ} (ha : 1 ≤ a) (hab : a ≤ b ∨ b = 0) :
    Includes (empty a : RecencyCache K V) (empty b) where
  positive := Nat.one_le_iff_ne_zero.mp ha
  limits := hab.symm
  order := List.Sublist.refl _
  room := fun _ => rfl

/-- A larger cache is full only when the smaller one is. -/
theorem Includes.full_of_full {small large : RecencyCache K V} (h : Includes small large)
    (hfull : large.Full) : small.Full := by
  by_contra hroom
  obtain ⟨hpositive, hlarge⟩ := hfull
  rw [← h.room hroom] at hlarge
  exact hroom ⟨h.positive, Nat.le_trans (h.limits.resolve_left hpositive) hlarge⟩

variable [DecidableEq K]

/-- With room, a new key is put before the others. -/
theorem keys_insert_of_room {cache : RecencyCache K V} {key : K}
    (hkey : key ∉ cache.recent.keys) (hroom : ¬ cache.Full) (value : V) :
    (cache.insert key value).2.recent.keys = key :: cache.recent.keys := by
  have hinsert := RecencyList.keys_insert_of_not_mem hkey value
  have hwithin : cache.limit ≠ 0 → (cache.recent.insert key value).keys.length ≤ cache.limit := by
    intro hlimit
    rw [hinsert]
    exact Nat.lt_of_not_le fun hle => hroom ⟨hlimit, hle⟩
  rw [insert, AList.lookup_eq_none.mpr fun hmem => hkey (AList.mem_keys.mp hmem)]
  change (RecencyList.limited cache.limit (cache.recent.insert key value)).keys = _
  rw [RecencyList.limited_eq_self hwithin, hinsert]

/-- Without room, the last key makes place for it. -/
theorem keys_insert_of_full {cache : RecencyCache K V} {key : K}
    (hkey : key ∉ cache.recent.keys) (hfull : cache.Full) (value : V) :
    (cache.insert key value).2.recent.keys = key :: cache.recent.keys.dropLast := by
  obtain ⟨hlimit, hle⟩ := hfull
  have hlength := Nat.le_antisymm (cache.within hlimit) hle
  obtain ⟨count, hcount⟩ := Nat.exists_eq_succ_of_ne_zero hlimit
  rw [insert, AList.lookup_eq_none.mpr fun hmem => hkey (AList.mem_keys.mp hmem)]
  change (RecencyList.limited cache.limit (cache.recent.insert key value)).keys = _
  rw [RecencyList.limited, if_neg hlimit, RecencyList.keys_keepFirst,
    RecencyList.keys_insert_of_not_mem hkey, hcount, List.take_succ_cons, List.dropLast_eq_take,
    hlength, hcount, Nat.succ_sub_one]

/-- Inserting does not change the limit. -/
theorem limit_insert (cache : RecencyCache K V) (key : K) (value : V) :
    (cache.insert key value).2.limit = cache.limit := by
  rw [insert]
  split <;> rfl

/-- Inserting a present key is looking it up. -/
theorem insert_of_mem {cache : RecencyCache K V} {key : K} (hkey : key ∈ cache.recent.keys)
    (value : V) : (cache.insert key value).2 = (cache.find key).2 := by
  obtain ⟨old, hold⟩ := Option.isSome_iff_exists.mp
    (AList.lookup_isSome.mpr (AList.mem_keys.mpr hkey))
  rw [insert_of_lookup hold]

/-- A full cache stays full when it drops a key for a new one. -/
theorem full_insert {cache : RecencyCache K V} {key : K} (hkey : key ∉ cache.recent.keys)
    (hfull : cache.Full) (value : V) : (cache.insert key value).2.Full := by
  obtain ⟨hlimit, hle⟩ := hfull
  rw [Full, limit_insert, keys_insert_of_full hkey ⟨hlimit, hle⟩, List.length_cons,
    List.length_dropLast]
  omega

/-- A new key before all but the last key of a smaller cache, where a larger cache inserts it
too, looks it up, or makes place for it. -/
theorem cons_dropLast_sublist_insert {cache : RecencyCache K V} {keys : List K} {key : K}
    (h : keys.Sublist cache.recent.keys) (hkey : key ∉ keys) (value : V) :
    (key :: keys.dropLast).Sublist (cache.insert key value).2.recent.keys := by
  by_cases hlarge : key ∈ cache.recent.keys
  · have herase := h.erase key
    rw [List.erase_of_not_mem hkey] at herase
    rw [insert_of_mem hlarge]
    change (key :: keys.dropLast).Sublist (cache.recent.touch key).keys
    rw [RecencyList.keys_touch, if_pos hlarge]
    exact ((List.dropLast_sublist keys).trans herase).cons_cons key
  · by_cases hfull : cache.Full
    · rw [keys_insert_of_full hlarge hfull]
      exact (sublist_dropLast h).cons_cons key
    · rw [keys_insert_of_room hlarge hfull]
      exact ((List.dropLast_sublist keys).trans h).cons_cons key

namespace Includes

variable {small large : RecencyCache K V}

/-- A hit of the smaller cache is a hit of the larger one. -/
theorem find_hit (h : Includes small large) {key : K} (hhit : (small.find key).1.isSome) :
    (large.find key).1.isSome := by
  have hmem := AList.mem_keys.mp (AList.lookup_isSome.mp hhit)
  exact AList.lookup_isSome.mpr (AList.mem_keys.mpr (h.order.subset hmem))

/-- Looking a key up keeps the inclusion, also where only the larger cache hits. -/
theorem find (h : Includes small large) (key : K) :
    Includes (small.find key).2 (large.find key).2 := by
  refine ⟨h.positive, h.limits, RecencyList.sublist_touch h.order key, ?_⟩
  intro hroom
  have hbefore : ¬ small.Full := by
    intro hfull
    refine hroom ⟨hfull.1, ?_⟩
    exact Nat.le_trans hfull.2 (Nat.le_of_eq (RecencyList.length_touch key small.recent).symm)
  change (small.recent.touch key).keys = (large.recent.touch key).keys
  rw [RecencyList.keys_touch, RecencyList.keys_touch, h.room hbefore]

/-- Inserting a key keeps the inclusion, whichever of the caches already hold the key. -/
theorem insert (h : Includes small large) (key : K) (value : V) :
    Includes (small.insert key value).2 (large.insert key value).2 := by
  by_cases hsmall : key ∈ small.recent.keys
  · rw [insert_of_mem hsmall, insert_of_mem (h.order.subset hsmall)]
    exact h.find key
  · have hlimits : (large.insert key value).2.limit = 0 ∨
        (small.insert key value).2.limit ≤ (large.insert key value).2.limit := by
      rw [limit_insert, limit_insert]
      exact h.limits
    by_cases hfull : small.Full
    · refine ⟨by rw [limit_insert]; exact h.positive, hlimits, ?_, ?_⟩
      · rw [keys_insert_of_full hsmall hfull]
        exact cons_dropLast_sublist_insert h.order hsmall value
      · intro hroom
        exact absurd (full_insert hsmall hfull value) hroom
    · have hlarge : key ∉ large.recent.keys := by rwa [← h.room hfull]
      have hsame : (small.insert key value).2.recent.keys =
          (large.insert key value).2.recent.keys := by
        rw [keys_insert_of_room hsmall hfull, h.room hfull,
          keys_insert_of_room hlarge fun hbig => hfull (h.full_of_full hbig)]
      refine ⟨by rw [limit_insert]; exact h.positive, hlimits, ?_, fun _ => hsame⟩
      rw [hsame]

end Includes

/-- An access to a cache of fixed limit. -/
inductive Access (K V : Type*)
  | find (key : K)
  | insert (key : K) (value : V)
  | clear

/-- The operation of an access. -/
def Access.toOp : Access K V → Op K V
  | .find key => .find key
  | .insert key value => .insert key value
  | .clear => .clear

/-- Every access keeps the inclusion, and what the smaller cache returns is not missing from
the larger one. -/
theorem Includes.perform {small large : RecencyCache K V} (h : Includes small large)
    (access : Access K V) :
    ((small.perform access.toOp).1.isSome → (large.perform access.toOp).1.isSome) ∧
      Includes (small.perform access.toOp).2 (large.perform access.toOp).2 := by
  cases access with
  | find key => exact ⟨h.find_hit, h.find key⟩
  | insert key value => exact ⟨fun _ => rfl, h.insert key value⟩
  | clear => exact ⟨id, ⟨h.positive, h.limits, List.Sublist.refl _, fun _ => rfl⟩⟩

end RecencyCache

end Foundations
