import Chatterino.Qt.QString
import Mathlib.Data.List.AList

/-! # Recent chatters

A cache keeps its items in a list, the latest first, and a map finds them. The names of the users who were seen last
are kept in one, under their names in lower case.
-/

namespace Chatterino

/-- `cache::lru_cache`. -/
structure LruCache (K V : Type) (max_size : Nat) where
  cache_items : AList fun _ : K => V := ∅
  fits : cache_items.entries.length ≤ max_size := by exact Nat.zero_le _

namespace LruCache

variable {K V : Type} [DecidableEq K] {max_size : Nat}

def put (key : K) (value : V) (cache : LruCache K V max_size) : LruCache K V max_size :=
  let items := cache.cache_items.insert key value
  if hMany : max_size < items.entries.length then
    { cache_items := ⟨items.entries.dropLast, items.nodupKeys.sublist (List.dropLast_sublist _)⟩
      fits := by
        have hErased : (cache.cache_items.entries.kerase key).length ≤ _ := List.length_eraseP_le
        rw [List.length_dropLast, AList.entries_insert, List.length_cons]
        exact hErased.trans cache.fits }
  else { cache_items := items, fits := not_lt.mp hMany }

theorem take_eraseP {α : Type} (p : α → Bool) (n : Nat) (items : List α) :
    ((items.take (n + 1)).eraseP p).take n = (items.eraseP p).take n := by
  induction items generalizing n with
  | nil => simp
  | cons item items ih =>
    cases n with
    | zero => simp
    | succ n => cases hItem : p item <;> simp [hItem, ih, List.take_take]

theorem entries_put {cache : LruCache K V max_size} {items : List (Sigma fun _ : K => V)}
    (hItems : cache.cache_items.entries = items.take max_size) (key : K) (value : V) :
    (cache.put key value).cache_items.entries = (items.kinsert key value).take max_size := by
  have hTrimmed : (cache.put key value).cache_items.entries =
      (cache.cache_items.entries.kinsert key value).take max_size := by
    unfold put
    dsimp only
    split_ifs with hMany
    · have hErased : (cache.cache_items.entries.kerase key).length ≤ _ := List.length_eraseP_le
      have hFits := cache.fits
      rw [AList.entries_insert, List.length_cons] at hMany
      dsimp only
      rw [AList.entries_insert, List.kinsert_def, List.dropLast_eq_take, List.length_cons]
      congr 1
      omega
    · exact (List.take_of_length_le (not_lt.mp hMany)).symm
  rw [hTrimmed, hItems, List.kinsert_def, List.kinsert_def]
  cases max_size with
  | zero => rfl
  | succ n => exact congrArg (⟨key, value⟩ :: ·) (take_eraseP _ n items)

def putAll (recent : List (Sigma fun _ : K => V)) : LruCache K V max_size :=
  recent.foldr (fun item cache => cache.put item.1 item.2) {}

theorem entries_putAll (recent : List (Sigma fun _ : K => V)) :
    (putAll recent : LruCache K V max_size).cache_items.entries = recent.dedupKeys.take max_size := by
  induction recent with
  | nil => rw [List.dedupKeys, List.foldr_nil, List.take_nil]; rfl
  | cons item recent ih => exact entries_put ih item.1 item.2

theorem length_dedupKeys_le (items : List (Sigma fun _ : K => V)) : items.dedupKeys.length ≤ items.length := by
  induction items with
  | nil => exact le_rfl
  | cons item items ih => exact Nat.succ_le_succ (List.length_eraseP_le.trans ih)

end LruCache

def CHATTER_LIMIT : Nat := 2000

structure ChatterSet where
  items : LruCache QString QString CHATTER_LIMIT := {}

namespace ChatterSet

variable (toLower : QString → QString)

def addRecentChatter (userName : QString) (set : ChatterSet) : ChatterSet where
  items := set.items.put (toLower userName) userName

/-- The names of a set come in any order. -/
def updateOnlineChatters (lowerCaseUsernames : List QString) (set : ChatterSet) : ChatterSet where
  items := lowerCaseUsernames.foldl
    (fun tmp chatter =>
      match set.items.cache_items.lookup chatter with
      | some name => tmp.put chatter name
      | none => if lowerCaseUsernames.length < CHATTER_LIMIT then tmp.put chatter chatter else tmp) {}

def contains (userName : QString) (set : ChatterSet) : Bool := (set.items.cache_items.lookup (toLower userName)).isSome

/-- The items are the users who were seen last, the latest first, each with the name as it was written last. -/
theorem entries_foldr_addRecentChatter (recent : List QString) :
    (recent.foldr (addRecentChatter toLower) {}).items.cache_items.entries =
      (List.dedupKeys (recent.map fun name => ⟨toLower name, name⟩)).take CHATTER_LIMIT := by
  have hItems : (recent.foldr (addRecentChatter toLower) {}).items =
      LruCache.putAll (recent.map fun name => ⟨toLower name, name⟩) := by
    induction recent with
    | nil => rfl
    | cons name recent ih => exact congrArg (LruCache.put (toLower name) name) ih
  rw [hItems, LruCache.entries_putAll]

def kept (lowerCaseUsernames : List QString) (set : ChatterSet) (chatter : QString) : Option QString :=
  (set.items.cache_items.lookup chatter).or (if lowerCaseUsernames.length < CHATTER_LIMIT then some chatter else none)

/-- After an update the set has the users online who were in it, as they were, or all users online if they are few. -/
theorem lookup_updateOnlineChatters (set : ChatterSet) {lowerCaseUsernames : List QString}
    (hDistinct : lowerCaseUsernames.Nodup) (chatter : QString) :
    (set.updateOnlineChatters lowerCaseUsernames).items.cache_items.lookup chatter =
      if chatter ∈ lowerCaseUsernames then set.kept lowerCaseUsernames chatter else none := by
  let seen := lowerCaseUsernames.filterMap fun chatter =>
    (set.kept lowerCaseUsernames chatter).map fun name => (⟨chatter, name⟩ : Sigma fun _ : QString => QString)
  have hPut : (set.updateOnlineChatters lowerCaseUsernames).items = LruCache.putAll seen.reverse := by
    rw [LruCache.putAll, List.foldr_reverse, List.foldl_filterMap]
    refine congrArg (fun put => List.foldl put _ _) (funext₂ fun tmp chatter => ?_)
    rw [kept]
    cases set.items.cache_items.lookup chatter with
    | some name => rfl
    | none =>
      dsimp only
      split_ifs <;> rfl
  have hMem (chatter name : QString) : ⟨chatter, name⟩ ∈ seen ↔
      chatter ∈ lowerCaseUsernames ∧ set.kept lowerCaseUsernames chatter = some name := by
    simp [seen]
  have hKeys : seen.keys.Nodup := by
    rw [List.keys, List.map_filterMap]
    refine hDistinct.filterMap fun first second key hFirst hSecond => ?_
    simp only [Option.mem_def, Option.map_map, Option.map_eq_some_iff, Function.comp_apply] at hFirst hSecond
    obtain ⟨-, -, rfl⟩ := hFirst
    obtain ⟨-, -, rfl⟩ := hSecond
    rfl
  have hFits : seen.length ≤ CHATTER_LIMIT := by
    by_cases hFew : lowerCaseUsernames.length < CHATTER_LIMIT
    · exact (List.length_filterMap_le _ _).trans hFew.le
    · have hOld : seen.keys ⊆ set.items.cache_items.keys := by
        intro key hKey
        obtain ⟨⟨chatter, name⟩, hSeen, rfl⟩ := List.mem_map.mp hKey
        obtain ⟨-, hKept⟩ := (hMem chatter name).mp hSeen
        rw [kept, if_neg hFew, Option.or_none] at hKept
        exact AList.mem_keys.mp (AList.lookup_isSome.mp (hKept ▸ rfl))
      have hLength := (List.subperm_of_subset hKeys hOld).length_le
      rw [List.keys, List.length_map, AList.keys, List.keys, List.length_map] at hLength
      exact hLength.trans set.items.fits
  have hReversed : seen.reverse.NodupKeys := (List.perm_nodupKeys seen.reverse_perm).mpr hKeys
  have hAll : seen.reverse.dedupKeys.length ≤ CHATTER_LIMIT := (LruCache.length_dedupKeys_le _).trans (List.length_reverse.trans_le hFits)
  rw [hPut, AList.lookup, LruCache.entries_putAll, List.take_of_length_le hAll, List.dlookup_dedupKeys]
  ext name
  rw [← Option.mem_def, List.mem_dlookup_iff hReversed, List.mem_reverse, hMem]
  split_ifs with hOnline <;> simp [hOnline]

theorem lookup_updateOnlineChatters_two :
    (updateOnlineChatters [[1], [2]] {}).items.cache_items.lookup [1] = if [1] ∈ [[1], [2]] then kept [[1], [2]] {} [1] else none :=
  lookup_updateOnlineChatters {} (by decide) [1]

end ChatterSet

end Chatterino
