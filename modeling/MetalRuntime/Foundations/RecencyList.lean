import Mathlib.Data.List.AList

/-!
# Recency lists

A finite map whose keys are kept most recent first. Using a key moves its pair to the front,
and a positive limit keeps only that many pairs. This is the reference for a cache that
evicts its least recently used entry: `RecencyCache` carries its bound as a field, so no
operation can leave it with too many entries.
-/

namespace Foundations

variable {K V : Type*}

/-- Pairs with distinct keys, most recently used first. -/
abbrev RecencyList (K V : Type*) := AList fun _ : K => V

namespace RecencyList

/-- The first pairs of a list. -/
def keepFirst (count : ℕ) (recent : RecencyList K V) : RecencyList K V where
  entries := recent.entries.take count
  nodupKeys := by
    refine List.Nodup.sublist ?_ recent.nodupKeys
    exact (List.take_sublist count recent.entries).map Sigma.fst

/-- What a limit keeps; the limit 0 keeps everything. -/
def limited (limit : ℕ) (recent : RecencyList K V) : RecencyList K V :=
  if limit = 0 then recent else keepFirst limit recent

/-- Keeping the first pairs keeps their keys. -/
theorem keys_keepFirst (count : ℕ) (recent : RecencyList K V) :
    (keepFirst count recent).keys = recent.keys.take count := List.map_take

/-- A positive limit bounds the number of pairs. -/
theorem length_limited_le {limit : ℕ} (hlimit : limit ≠ 0) (recent : RecencyList K V) :
    (limited limit recent).keys.length ≤ limit := by
  rw [limited, if_neg hlimit, keys_keepFirst]
  exact List.length_take_le limit recent.keys

/-- A limit keeps everything that is already within it. -/
theorem limited_eq_self {limit : ℕ} {recent : RecencyList K V}
    (hwithin : limit ≠ 0 → recent.keys.length ≤ limit) : limited limit recent = recent := by
  by_cases hlimit : limit = 0
  · rw [limited, if_pos hlimit]
  · rw [limited, if_neg hlimit]
    have hlength := hwithin hlimit
    rw [AList.keys, List.keys, List.length_map] at hlength
    exact AList.ext (List.take_of_length_le hlength)

variable [DecidableEq K]

/-- Move the pair of a key to the front, if there is one. -/
def touch (key : K) (recent : RecencyList K V) : RecencyList K V :=
  match recent.lookup key with
  | some value => recent.insert key value
  | none => recent

/-- Touching a key that is there moves it to the front. -/
theorem keys_touch_of_mem {key : K} {recent : RecencyList K V} (hkey : key ∈ recent) :
    (touch key recent).keys = key :: recent.keys.erase key := by
  obtain ⟨value, hvalue⟩ := Option.isSome_iff_exists.mp (AList.lookup_isSome.mpr hkey)
  rw [touch, hvalue]
  exact AList.keys_insert recent

/-- Touching a key that is not there does nothing. -/
theorem touch_of_not_mem {key : K} {recent : RecencyList K V} (hkey : key ∉ recent) :
    touch key recent = recent := by
  rw [touch, AList.lookup_eq_none.mpr hkey]

/-- Touching changes no value. -/
theorem lookup_touch (key other : K) (recent : RecencyList K V) :
    (touch key recent).lookup other = recent.lookup other := by
  unfold touch
  split
  · rename_i value hvalue
    by_cases hother : other = key
    · subst hother
      rw [AList.lookup_insert, hvalue]
    · rw [AList.lookup_insert_ne hother]
  · rfl

/-- Touching does not change the number of pairs. -/
theorem length_touch (key : K) (recent : RecencyList K V) :
    (touch key recent).keys.length = recent.keys.length := by
  by_cases hkey : key ∈ recent
  · rw [keys_touch_of_mem hkey]
    exact (List.perm_cons_erase (AList.mem_keys.mp hkey)).symm.length_eq
  · rw [touch_of_not_mem hkey]

/-- Looking up among the first pairs. -/
theorem lookup_keepFirst (count : ℕ) (recent : RecencyList K V) (key : K) :
    (keepFirst count recent).lookup key =
      if key ∈ recent.keys.take count then recent.lookup key else none := by
  by_cases hkey : key ∈ recent.keys.take count
  · rw [if_pos hkey]
    have hmem : key ∈ keepFirst count recent := by
      rw [AList.mem_keys, keys_keepFirst]
      exact hkey
    obtain ⟨value, hvalue⟩ := Option.isSome_iff_exists.mp (AList.lookup_isSome.mpr hmem)
    have hentry := List.mem_of_mem_take (AList.mem_lookup_iff.mp hvalue)
    rw [hvalue]
    exact (AList.mem_lookup_iff.mpr hentry).symm
  · rw [if_neg hkey, AList.lookup_eq_none, AList.mem_keys, keys_keepFirst]
    exact hkey

/-- A limit changes no value, it only drops pairs. -/
theorem lookup_limited (limit : ℕ) (recent : RecencyList K V) (key : K) :
    (limited limit recent).lookup key = recent.lookup key ∨
      (limited limit recent).lookup key = none := by
  by_cases hlimit : limit = 0
  · rw [limited, if_pos hlimit]
    exact Or.inl rfl
  · rw [limited, if_neg hlimit, lookup_keepFirst]
    by_cases hkey : key ∈ recent.keys.take limit
    · exact Or.inl (if_pos hkey)
    · exact Or.inr (if_neg hkey)

/-- A limit never drops the pair at the front. -/
theorem lookup_limited_insert (limit : ℕ) (recent : RecencyList K V) (key : K) (value : V) :
    (limited limit (recent.insert key value)).lookup key = some value := by
  by_cases hlimit : limit = 0
  · rw [limited, if_pos hlimit, AList.lookup_insert]
  · obtain ⟨count, rfl⟩ := Nat.exists_eq_succ_of_ne_zero hlimit
    rw [limited, if_neg hlimit, lookup_keepFirst, AList.keys_insert, List.take_succ_cons,
      if_pos List.mem_cons_self, AList.lookup_insert]

end RecencyList

/-- A recency list within its limit; the limit 0 is no limit. -/
structure RecencyCache (K V : Type*) where
  limit : ℕ
  recent : RecencyList K V
  within : limit ≠ 0 → recent.keys.length ≤ limit

namespace RecencyCache

/-- The empty cache of a limit. -/
def empty (limit : ℕ) : RecencyCache K V := ⟨limit, ∅, fun _ => Nat.zero_le limit⟩

/-- Truncate a list to a limit. -/
def ofLimited (limit : ℕ) (recent : RecencyList K V) : RecencyCache K V :=
  ⟨limit, recent.limited limit, fun hlimit => RecencyList.length_limited_le hlimit recent⟩

variable [DecidableEq K]

/-- Look a key up; a hit moves its pair to the front. -/
def find (cache : RecencyCache K V) (key : K) : Option V × RecencyCache K V :=
  (cache.recent.lookup key, ⟨cache.limit, cache.recent.touch key, fun hlimit =>
    Nat.le_trans (Nat.le_of_eq (RecencyList.length_touch key cache.recent)) (cache.within hlimit)⟩)

/-- Insert a pair at the front and truncate; a present key keeps its value and moves to the
front. -/
def insert (cache : RecencyCache K V) (key : K) (value : V) : V × RecencyCache K V :=
  match cache.recent.lookup key with
  | some old => (old, ofLimited cache.limit (cache.recent.touch key))
  | none => (value, ofLimited cache.limit (cache.recent.insert key value))

/-- Change the limit and truncate. -/
def setLimit (cache : RecencyCache K V) (limit : ℕ) : RecencyCache K V :=
  ofLimited limit cache.recent

/-- Drop every pair. -/
def clear (cache : RecencyCache K V) : RecencyCache K V := empty cache.limit

/-- An operation on a cache. -/
inductive Op (K V : Type*)
  | find (key : K)
  | insert (key : K) (value : V)
  | setLimit (limit : ℕ)
  | clear

/-- Perform an operation; changing the limit and clearing return nothing. -/
def perform (cache : RecencyCache K V) : Op K V → Option V × RecencyCache K V
  | .find key => cache.find key
  | .insert key value => Prod.map some id (cache.insert key value)
  | .setLimit limit => (none, cache.setLimit limit)
  | .clear => (none, cache.clear)

/-- Inserting a present key is a hit. -/
theorem insert_of_lookup {cache : RecencyCache K V} {key : K} {old : V}
    (hold : cache.recent.lookup key = some old) (value : V) :
    cache.insert key value = (old, (cache.find key).2) := by
  rw [insert, hold]
  simp only [ofLimited, find, Prod.mk.injEq, RecencyCache.mk.injEq, true_and]
  exact RecencyList.limited_eq_self fun hlimit =>
    Nat.le_trans (Nat.le_of_eq (RecencyList.length_touch key cache.recent)) (cache.within hlimit)

/-- A key just inserted is present with the value that the insertion returned. -/
theorem lookup_insert_self (cache : RecencyCache K V) (key : K) (value : V) :
    (cache.insert key value).2.recent.lookup key = some (cache.insert key value).1 := by
  cases hold : cache.recent.lookup key with
  | some old =>
    rw [insert_of_lookup hold]
    exact (RecencyList.lookup_touch key key cache.recent).trans hold
  | none =>
    rw [insert, hold]
    exact RecencyList.lookup_limited_insert cache.limit cache.recent key value

/-- Inserting changes no other value, it only drops pairs. -/
theorem lookup_insert_of_ne (cache : RecencyCache K V) {key other : K} (hother : other ≠ key)
    (value : V) :
    (cache.insert key value).2.recent.lookup other = cache.recent.lookup other ∨
      (cache.insert key value).2.recent.lookup other = none := by
  cases hold : cache.recent.lookup key with
  | some old =>
    rw [insert_of_lookup hold]
    exact Or.inl (RecencyList.lookup_touch key other cache.recent)
  | none =>
    rw [insert, hold]
    have hlimited := RecencyList.lookup_limited cache.limit (cache.recent.insert key value) other
    rwa [AList.lookup_insert_ne hother] at hlimited

/-- Inserting an absent key stores the value. -/
theorem insert_of_missing {cache : RecencyCache K V} {key : K}
    (hmissing : cache.recent.lookup key = none) (value : V) :
    (cache.insert key value).1 = value := by
  rw [insert, hmissing]

/-- What holds of all pairs holds of them after a lookup. -/
theorem forall_lookup_find {cache : RecencyCache K V} {P : K → V → Prop}
    (h : ∀ other value, cache.recent.lookup other = some value → P other value) (key : K) :
    ∀ other value, (cache.find key).2.recent.lookup other = some value → P other value := by
  intro other value hlookup
  rw [find, RecencyList.lookup_touch] at hlookup
  exact h other value hlookup

/-- It holds of them after an insertion as well, if it holds of what the insertion returns. -/
theorem forall_lookup_insert {cache : RecencyCache K V} {P : K → V → Prop} {key : K} {value : V}
    (h : ∀ other value, cache.recent.lookup other = some value → P other value)
    (hnew : P key (cache.insert key value).1) :
    ∀ other inserted, (cache.insert key value).2.recent.lookup other = some inserted →
      P other inserted := by
  intro other inserted hlookup
  by_cases hother : other = key
  · subst hother
    rw [lookup_insert_self] at hlookup
    cases hlookup
    exact hnew
  · rcases lookup_insert_of_ne cache hother value with hsame | hnone
    · exact h other inserted (hsame.symm.trans hlookup)
    · rw [hnone] at hlookup
      cases hlookup

end RecencyCache

end Foundations
