import MetalRuntime.Foundations.RecencyInclusion
import Mathlib.Data.Finset.Card

/-!
# How long a recency cache keeps a key

Whether a recency cache still holds a key can be read off its history, one key at a time and
without the list: it does if the key was used and, at every moment since its last use, fewer
other keys had been used since than the limit of that moment. For a limit that never changes
this is the reuse distance of the key.
-/

namespace Foundations

variable {K V : Type*}

/-- An event in the history of a cache: the use of a key, which is present afterwards, a new
limit, or clearing. Histories are newest first. -/
inductive CacheUse (K : Type*)
  | used (key : K)
  | limited (limit : ℕ)
  | cleared
  deriving DecidableEq

/-- The limit in force after a history. -/
def limitAfter (initial : ℕ) : List (CacheUse K) → ℕ
  | [] => initial
  | .limited limit :: _ => limit
  | .used _ :: earlier => limitAfter initial earlier
  | .cleared :: earlier => limitAfter initial earlier

/-- A history of uses leaves the limit as it was. -/
theorem limitAfter_map_used (initial : ℕ) (keys : List K) :
    limitAfter initial (keys.map .used) = initial := by
  induction keys with
  | nil => rfl
  | cons key rest ih => exact ih

/-- The first of the keys that a limit allows. -/
def limitKeys (limit : ℕ) (keys : List K) : List K :=
  if limit = 0 then keys else keys.take limit

/-- The first pairs that a limit allows have the first keys. -/
theorem RecencyList.keys_limited (limit : ℕ) (recent : RecencyList K V) :
    (recent.limited limit).keys = limitKeys limit recent.keys := by
  by_cases hlimit : limit = 0
  · rw [RecencyList.limited, if_pos hlimit, limitKeys, if_pos hlimit]
  · rw [RecencyList.limited, if_neg hlimit, limitKeys, if_neg hlimit, RecencyList.keys_keepFirst]

variable [DecidableEq K]

/-- The other keys used since the last use of a key. -/
def usedSince (key : K) : List (CacheUse K) → Finset K
  | [] => ∅
  | .used other :: earlier => if other = key then ∅ else insert other (usedSince key earlier)
  | .limited _ :: earlier => usedSince key earlier
  | .cleared :: earlier => usedSince key earlier

/-- A limit leaves room behind a number of other keys. -/
def Room (limit others : ℕ) : Prop := limit = 0 ∨ others < limit

/-- The key was used, and since then nothing was cleared and there was room for it behind the
other keys at every moment. -/
def Retained (initial : ℕ) (key : K) : List (CacheUse K) → Prop
  | [] => False
  | .used other :: earlier => other = key ∨ Retained initial key earlier ∧
      Room (limitAfter initial earlier) (usedSince key (.used other :: earlier)).card
  | .limited limit :: earlier =>
    Retained initial key earlier ∧ Room limit (usedSince key earlier).card
  | .cleared :: _ => False

/-- Using a key only adds to the other keys used since. -/
theorem usedSince_subset_used {key other : K} (hother : other ≠ key)
    (history : List (CacheUse K)) :
    usedSince key history ⊆ usedSince key (.used other :: history) := by
  rw [usedSince, if_neg hother]
  exact Finset.subset_insert other _

/-- Over a history of uses, a key is retained exactly if it was used and its reuse distance is
within the limit. -/
theorem retained_map_used_iff (initial : ℕ) (key : K) (keys : List K) :
    Retained initial key (keys.map .used) ↔
      key ∈ keys ∧ Room initial (usedSince key (keys.map .used)).card := by
  induction keys with
  | nil => exact ⟨fun h => h.elim, fun h => absurd h.1 List.not_mem_nil⟩
  | cons other rest ih =>
    rw [List.map_cons, Retained, limitAfter_map_used, ih]
    by_cases hother : other = key
    · subst hother
      simp only [true_or, List.mem_cons, usedSince, if_true, Finset.card_empty, true_and, true_iff,
        Room]
      exact (Nat.eq_zero_or_pos initial).imp id id
    · have hmember : key ∈ other :: rest ↔ key ∈ rest := by
        rw [List.mem_cons]
        exact or_iff_right fun heq => hother heq.symm
      rw [hmember, or_iff_right hother]
      constructor
      · intro h
        exact ⟨h.1.1, h.2⟩
      · intro h
        refine ⟨⟨h.1, h.2.imp id fun hroom => lt_of_le_of_lt ?_ hroom⟩, h.2⟩
        exact Finset.card_le_card (usedSince_subset_used hother _)

/-- The keys in front of a key. -/
def keysBefore (key : K) (keys : List K) : List K := keys.takeWhile fun other => other ≠ key

/-- The keys in front are as many as the position of the key. -/
theorem length_keysBefore (key : K) (keys : List K) :
    (keysBefore key keys).length = keys.idxOf key := by
  induction keys with
  | nil => rfl
  | cons other rest ih =>
    by_cases hother : other = key
    · subst hother
      simp [keysBefore]
    · rw [keysBefore, List.takeWhile_cons_of_pos (by simpa using hother),
        List.idxOf_cons_ne _ hother, List.length_cons, ← keysBefore, ih]

/-- Moving another key to the front puts it in front. -/
theorem keysBefore_cons_erase {key other : K} (hother : other ≠ key) (keys : List K) :
    keysBefore key (other :: keys.erase other) = other :: (keysBefore key keys).erase other := by
  have hrest : keysBefore key (keys.erase other) = (keysBefore key keys).erase other := by
    induction keys with
    | nil => rfl
    | cons first rest ih =>
      by_cases hkey : first = key
      · subst hkey
        rw [List.erase_cons_tail (by simpa using hother.symm)]
        simp [keysBefore]
      · have hbefore : keysBefore key (first :: rest) = first :: keysBefore key rest :=
          List.takeWhile_cons_of_pos (by simpa using hkey)
        rw [hbefore]
        by_cases hfirst : first = other
        · subst hfirst
          rw [List.erase_cons_head, List.erase_cons_head]
        · rw [List.erase_cons_tail (by simpa using hfirst),
            List.erase_cons_tail (by simpa using hfirst), ← ih]
          exact List.takeWhile_cons_of_pos (by simpa using hkey)
  rw [← hrest]
  exact List.takeWhile_cons_of_pos (by simpa using hother)

/-- A limit keeps a key exactly if it leaves room behind the keys in front. -/
theorem mem_limitKeys_iff (limit : ℕ) (key : K) (keys : List K) :
    key ∈ limitKeys limit keys ↔ key ∈ keys ∧ Room limit (keysBefore key keys).length := by
  by_cases hlimit : limit = 0
  · rw [limitKeys, if_pos hlimit]
    exact ⟨fun h => ⟨h, Or.inl hlimit⟩, fun h => h.1⟩
  · rw [limitKeys, if_neg hlimit, length_keysBefore]
    constructor
    · intro h
      have hkey := List.mem_of_mem_take h
      exact ⟨hkey, Or.inr ((List.mem_take_iff_idxOf_lt hkey).mp h)⟩
    · intro h
      exact (List.mem_take_iff_idxOf_lt h.1).mpr (h.2.resolve_left hlimit)

/-- A limit that keeps a key keeps the keys in front of it. -/
theorem keysBefore_limitKeys {limit : ℕ} {key : K} {keys : List K}
    (h : key ∈ limitKeys limit keys) :
    keysBefore key (limitKeys limit keys) = keysBefore key keys := by
  obtain ⟨hkey, hroom⟩ := (mem_limitKeys_iff limit key keys).mp h
  by_cases hlimit : limit = 0
  · rw [limitKeys, if_pos hlimit]
  · have hless := hroom.resolve_left hlimit
    rw [limitKeys, if_neg hlimit, keysBefore, ← List.take_takeWhile, ← keysBefore]
    exact List.take_of_length_le hless.le

namespace RecencyCache

/-- Inserting moves the key to the front, whether or not it was there. -/
theorem keys_insert (cache : RecencyCache K V) (key : K) (value : V) :
    (cache.insert key value).2.recent.keys =
      limitKeys cache.limit (key :: cache.recent.keys.erase key) := by
  cases hlookup : cache.recent.lookup key with
  | some old =>
    have hkey : key ∈ cache.recent := AList.lookup_isSome.mp (Option.isSome_of_eq_some hlookup)
    rw [insert, hlookup]
    exact (RecencyList.keys_limited _ _).trans
      (congrArg (limitKeys cache.limit) (RecencyList.keys_touch_of_mem hkey))
  | none =>
    rw [insert, hlookup]
    exact (RecencyList.keys_limited _ _).trans
      (congrArg (limitKeys cache.limit) (AList.keys_insert cache.recent))

/-- A cache agrees with a history: the limit in force, the keys that are retained, and the keys
in front of each of them. -/
structure Tracks (initial : ℕ) (history : List (CacheUse K)) (cache : RecencyCache K V) :
    Prop where
  limit : cache.limit = limitAfter initial history
  present : ∀ key, key ∈ cache.recent.keys ↔ Retained initial key history
  before : ∀ key ∈ cache.recent.keys,
    (keysBefore key cache.recent.keys).toFinset = usedSince key history

/-- The empty cache agrees with the empty history. -/
theorem tracks_empty (initial : ℕ) : (empty initial : RecencyCache K V).Tracks initial [] where
  limit := rfl
  present := fun _ => ⟨fun hkey => absurd hkey List.not_mem_nil, fun h => h.elim⟩
  before := fun _ hkey => absurd hkey List.not_mem_nil

namespace Tracks

variable {initial : ℕ} {history : List (CacheUse K)} {cache : RecencyCache K V}

/-- The keys in front of a key are as many as the other keys used since. -/
theorem length_keysBefore (h : cache.Tracks initial history) {key : K}
    (hkey : key ∈ cache.recent.keys) :
    (keysBefore key cache.recent.keys).length = (usedSince key history).card := by
  have hnodup : (keysBefore key cache.recent.keys).Nodup :=
    cache.recent.keys_nodup.sublist (List.takeWhile_sublist _)
  rw [← h.before key hkey, List.toFinset_card_of_nodup hnodup]

/-- Inserting a key is a use of it. -/
theorem insert (h : cache.Tracks initial history) (key : K) (value : V) :
    (cache.insert key value).2.Tracks initial (.used key :: history) := by
  have hkeys := keys_insert cache key value
  have hfront : ∀ other ≠ key, ∀ hother : other ∈ cache.recent.keys,
      (keysBefore other (key :: cache.recent.keys.erase key)).toFinset =
        usedSince other (.used key :: history) := by
    intro other hne hother
    rw [keysBefore_cons_erase hne.symm, usedSince, if_neg hne.symm, List.toFinset_cons,
      ← h.before other hother]
    ext used
    simp only [Finset.mem_insert, List.mem_toFinset]
    by_cases hused : used = key
    · simp only [hused, true_or]
    · simp only [hused, false_or, List.mem_erase_of_ne hused]
  have hlength : ∀ other ≠ key, ∀ hother : other ∈ cache.recent.keys,
      (keysBefore other (key :: cache.recent.keys.erase key)).length =
        (usedSince other (.used key :: history)).card := by
    intro other hne hother
    have hnodup : (key :: cache.recent.keys.erase key).Nodup := by
      refine List.nodup_cons.mpr ⟨?_, cache.recent.keys_nodup.erase key⟩
      exact fun hmem => absurd rfl ((List.Nodup.mem_erase_iff cache.recent.keys_nodup).mp hmem).1
    rw [← hfront other hne hother, List.toFinset_card_of_nodup]
    exact hnodup.sublist (List.takeWhile_sublist _)
  refine ⟨(limit_insert cache key value).trans h.limit, ?_, ?_⟩
  · intro other
    rw [hkeys, mem_limitKeys_iff, Retained]
    by_cases hne : other = key
    · subst hne
      simp only [List.mem_cons_self, true_and, true_or, iff_true]
      have hnone : keysBefore other (other :: cache.recent.keys.erase other) = [] := by
        simp [keysBefore]
      rw [hnone]
      exact Nat.eq_zero_or_pos cache.limit
    · rw [List.mem_cons, List.mem_erase_of_ne hne, or_iff_right hne,
        or_iff_right (fun heq => hne heq.symm), ← h.present, ← h.limit]
      constructor
      · intro hmem
        rw [← hlength other hne hmem.1]
        exact hmem
      · intro hmem
        rw [hlength other hne hmem.1]
        exact hmem
  · intro other hother
    rw [hkeys] at hother ⊢
    rw [keysBefore_limitKeys hother]
    obtain ⟨hmem, -⟩ := (mem_limitKeys_iff _ _ _).mp hother
    by_cases hne : other = key
    · subst hne
      simp [keysBefore, usedSince]
    · rw [List.mem_cons, List.mem_erase_of_ne hne, or_iff_right hne] at hmem
      exact hfront other hne hmem

/-- A hit is a use of its key. -/
theorem find_of_lookup (h : cache.Tracks initial history) {key : K} {value : V}
    (hlookup : cache.recent.lookup key = some value) :
    (cache.find key).2.Tracks initial (.used key :: history) := by
  have hinsert := h.insert key value
  rwa [insert_of_lookup hlookup] at hinsert

/-- A miss changes nothing. -/
theorem find_of_absent (h : cache.Tracks initial history) {key : K}
    (hlookup : cache.recent.lookup key = none) : (cache.find key).2.Tracks initial history := by
  have hsame : (cache.find key).2 = cache := by
    have htouch : cache.recent.touch key = cache.recent :=
      RecencyList.touch_of_not_mem (AList.lookup_eq_none.mp hlookup)
    simp only [find, htouch]
  rwa [hsame]

/-- A new limit drops the keys behind it. -/
theorem setLimit (h : cache.Tracks initial history) (limit : ℕ) :
    (cache.setLimit limit).Tracks initial (.limited limit :: history) := by
  have hkeys : (cache.setLimit limit).recent.keys = limitKeys limit cache.recent.keys :=
    RecencyList.keys_limited limit cache.recent
  refine ⟨rfl, ?_, ?_⟩
  · intro key
    rw [hkeys, mem_limitKeys_iff, Retained, ← h.present]
    refine and_congr_right fun hkey => ?_
    rw [h.length_keysBefore hkey]
  · intro key hkey
    rw [hkeys] at hkey ⊢
    rw [keysBefore_limitKeys hkey]
    exact h.before key ((mem_limitKeys_iff _ _ _).mp hkey).1

/-- Clearing drops every key. -/
theorem clear (h : cache.Tracks initial history) :
    cache.clear.Tracks initial (.cleared :: history) where
  limit := h.limit
  present := fun _ => ⟨fun hkey => absurd hkey List.not_mem_nil, fun hretained => hretained.elim⟩
  before := fun _ hkey => absurd hkey List.not_mem_nil

end Tracks

end RecencyCache

end Foundations
