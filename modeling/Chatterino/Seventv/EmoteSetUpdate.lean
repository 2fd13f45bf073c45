import Chatterino.Seventv.SeventvEmotes

/-! # One simultaneous change of an emote set

What a dispatch says is to become of a set: its emotes without those that were pulled or updated,
the updated ones under their new names, and those that were pushed. Behind it stand the maps that the
signals go through, one signal after the other.
-/

namespace Chatterino.Seventv

open QString

variable {F ImageSet : Type}

structure EmoteSetChange (ImageSet : Type) where
  pushed : List (Emote ImageSet)
  updated : List EmoteUpdateDispatch
  /-- By their ids. -/
  pulled : List QString

def Dispatch.change (reading : EmoteReading F ImageSet) (kind : SeventvEmoteSetKind) (dispatch : Dispatch F) :
    EmoteSetChange ImageSet where
  pushed := dispatch.added.filterMap (addedEmote reading kind)
  updated := dispatch.updated
  pulled := dispatch.removed.map EmoteRemoveDispatch.emoteID

/-- The keys of a map are the names of its emotes, and their ids are distinct. -/
structure Named (map : EmoteMap ImageSet) : Prop where
  names : ∀ entry ∈ map.entries, entry.2.name = entry.1
  ids : (map.entries.map fun entry => entry.2.id).Nodup

def present (map : EmoteMap ImageSet) (id : QString) : Option (Emote ImageSet) :=
  (map.entries.find? fun entry => entry.2.id = id).map Sigma.snd

def renamed (map : EmoteMap ImageSet) (updated : List EmoteUpdateDispatch) : List (Emote ImageSet) :=
  updated.filterMap fun update => (present map update.emoteID).map fun emote => createUpdatedEmote emote update

def named (emotes : List (Emote ImageSet)) (name : QString) : Option (Emote ImageSet) :=
  emotes.find? fun emote => emote.name = name

namespace EmoteSetChange

/-- The emotes after the updates `done` and without the ids `gone`. -/
def stage (change : EmoteSetChange ImageSet) (map : EmoteMap ImageSet) (done : List EmoteUpdateDispatch)
    (gone : List QString) (name : QString) : Option (Emote ImageSet) :=
  (named change.pushed name).or ((named (renamed map done) name).or
    ((map.lookup name).filter fun emote =>
      emote.id ∉ done.map EmoteUpdateDispatch.emoteID ∧ emote.id ∉ gone))

def after (change : EmoteSetChange ImageSet) (map : EmoteMap ImageSet) : QString → Option (Emote ImageSet) :=
  change.stage map change.updated change.pulled

def kept (change : EmoteSetChange ImageSet) (map : EmoteMap ImageSet) : List (Emote ImageSet) :=
  (map.entries.map Sigma.snd).filter fun emote =>
    emote.id ∉ change.updated.map EmoteUpdateDispatch.emoteID ∧ emote.id ∉ change.pulled

/-- The resulting names are distinct, and so are the emotes that are pushed, updated and pulled. -/
structure WellFormed (change : EmoteSetChange ImageSet) (map : EmoteMap ImageSet) : Prop where
  names : ((change.pushed ++ renamed map change.updated ++ change.kept map).map Emote.name).Nodup
  updatedOnce : (change.updated.map EmoteUpdateDispatch.emoteID).Nodup
  updatedOnly : ∀ update ∈ change.updated,
    update.emoteID ∉ change.pulled ∧ update.emoteID ∉ change.pushed.map Emote.id
  pulledOnly : ∀ id ∈ change.pulled, id ∉ change.pushed.map Emote.id

/-- No updated emote has an old name that is taken before it is updated, by an emote that is pushed or by
one that is updated earlier. -/
def KeepsOldNames (change : EmoteSetChange ImageSet) (map : EmoteMap ImageSet) : Prop :=
  (∀ update ∈ change.updated, ∀ emote ∈ present map update.emoteID, emote.name ∉ change.pushed.map Emote.name) ∧
    change.updated.Pairwise fun earlier update =>
      (present map earlier.emoteID).isSome → ∀ emote ∈ present map update.emoteID, earlier.emoteName ≠ emote.name

end EmoteSetChange

variable {map : EmoteMap ImageSet} {emote : Emote ImageSet}

theorem mem_of_named {emotes : List (Emote ImageSet)} {name : QString} (h : named emotes name = some emote) :
    emote ∈ emotes ∧ emote.name = name := by
  have hName := List.find?_some h
  exact ⟨List.mem_of_find?_eq_some h, by simpa using hName⟩

theorem named_eq_none_iff {emotes : List (Emote ImageSet)} {name : QString} :
    named emotes name = none ↔ name ∉ emotes.map Emote.name := by
  simp [named, List.find?_eq_none]

theorem named_cons (emotes : List (Emote ImageSet)) (name : QString) :
    named (emote :: emotes) name = if emote.name = name then some emote else named emotes name := by
  rw [named, List.find?_cons]
  split
  · rename_i hName
    rw [if_pos (of_decide_eq_true hName)]
  · rename_i hName
    rw [if_neg (of_decide_eq_false hName)]
    rfl

theorem named_of_mem {emotes : List (Emote ImageSet)} (hNodup : (emotes.map Emote.name).Nodup)
    (hMem : emote ∈ emotes) : named emotes emote.name = some emote := by
  cases hNamed : named emotes emote.name with
  | none => exact absurd (List.mem_map_of_mem hMem) (named_eq_none_iff.mp hNamed)
  | some other =>
    obtain ⟨hOther, hName⟩ := mem_of_named hNamed
    exact congrArg some (List.inj_on_of_nodup_map hNodup hOther hMem hName)

theorem Named.name (h : Named map) {name : QString} (hEmote : map.lookup name = some emote) : emote.name = name :=
  h.names ⟨name, emote⟩ (AList.mem_lookup_iff.mp hEmote)

theorem present_eq_some {id : QString} (h : Named map) (hPresent : present map id = some emote) :
    map.lookup emote.name = some emote ∧ emote.id = id := by
  obtain ⟨entry, hEntry, rfl⟩ := Option.map_eq_some_iff.mp hPresent
  have hID := List.find?_some hEntry
  have hMem := List.mem_of_find?_eq_some hEntry
  rw [h.names entry hMem]
  exact ⟨AList.mem_lookup_iff.mpr hMem, by simpa using hID⟩

theorem present_of_lookup {name : QString} (h : Named map) (hEmote : map.lookup name = some emote) :
    present map emote.id = some emote := by
  have hMem := AList.mem_lookup_iff.mp hEmote
  cases hFound : map.entries.find? (fun entry => decide (entry.2.id = emote.id)) with
  | none => exact absurd (decide_eq_true rfl) (List.find?_eq_none.mp hFound ⟨name, emote⟩ hMem)
  | some entry =>
    have hID := List.find?_some hFound
    have hSame : entry = ⟨name, emote⟩ :=
      List.inj_on_of_nodup_map h.ids (List.mem_of_find?_eq_some hFound) hMem (by simpa using hID)
    rw [present, hFound, hSame]
    rfl

def Lacks (map : EmoteMap ImageSet) (id : QString) : Prop := ∀ name emote, map.lookup name = some emote → emote.id ≠ id

theorem updateEmote_of_lacks {update : EmoteUpdateDispatch} (h : Lacks map update.emoteID) :
    updateEmote update map = map := by
  rw [updateEmote]
  cases hFound : EmoteMap.findEmote update.emoteName update.emoteID map with
  | none => rfl
  | some entry =>
    obtain ⟨hEntry, hID⟩ := findEmote_eq_some hFound
    exact absurd hID (h entry.1 entry.2 hEntry)

theorem lookup_insert_erase (map : EmoteMap ImageSet) (oldName name : QString) (emote : Emote ImageSet) :
    ((map.erase oldName).insert emote.name emote).lookup name =
      if name = emote.name then some emote else if name = oldName then none else map.lookup name := by
  split
  · rename_i hNew
    rw [hNew, AList.lookup_insert]
  · rename_i hNew
    rw [AList.lookup_insert_ne hNew]
    split
    · rename_i hOld
      rw [hOld, AList.lookup_erase]
    · rename_i hOld
      rw [AList.lookup_erase_ne hOld]

theorem findEmote_of_unique {hint : QString} (hEmote : map.lookup emote.name = some emote)
    (hUnique : ∀ name other, map.lookup name = some other → other.id = emote.id → name = emote.name ∧ other = emote) :
    EmoteMap.findEmote hint emote.id map = some ⟨emote.name, emote⟩ := by
  cases hFound : EmoteMap.findEmote hint emote.id map with
  | none => exact absurd rfl (findEmote_eq_none hFound hEmote)
  | some entry =>
    obtain ⟨hEntry, hID⟩ := findEmote_eq_some hFound
    obtain ⟨name, other⟩ := entry
    obtain ⟨hName, hOther⟩ := hUnique name other hEntry hID
    obtain rfl : name = emote.name := hName
    obtain rfl : other = emote := hOther
    rfl

theorem Lacks.updateEmote {id : QString} (h : Lacks map id) (update : EmoteUpdateDispatch) :
    Lacks (updateEmote update map) id := by
  rw [Seventv.updateEmote]
  cases hFound : EmoteMap.findEmote update.emoteName update.emoteID map with
  | none => exact h
  | some entry =>
    intro name other hOther
    have hKept := h entry.1 entry.2 (findEmote_eq_some hFound).1
    dsimp only at hOther
    rw [lookup_insert_erase] at hOther
    split at hOther
    · obtain rfl := Option.some.inj hOther
      exact hKept
    · split at hOther
      · cases hOther
      · exact h name other hOther

theorem Lacks.removeEmote {id : QString} (h : Lacks map id) (removed : EmoteRemoveDispatch) :
    Lacks (removeEmote removed map) id := by
  rw [Seventv.removeEmote]
  cases EmoteMap.findEmote removed.emoteName removed.emoteID map with
  | none => exact h
  | some entry =>
    intro name other hOther
    dsimp only at hOther
    by_cases hName : name = entry.1
    · rw [hName, AList.lookup_erase] at hOther
      cases hOther
    · rw [AList.lookup_erase_ne hName] at hOther
      exact h name other hOther

theorem Lacks.foldl {id : QString} (h : Lacks map id) (updated : List EmoteUpdateDispatch)
    (removed : List EmoteRemoveDispatch) :
    Lacks (removed.foldl (fun m dispatch => Seventv.removeEmote dispatch m)
      (updated.foldl (fun m update => Seventv.updateEmote update m) map)) id := by
  induction updated generalizing map with
  | cons update updated ih => exact ih (h.updateEmote update)
  | nil =>
    induction removed generalizing map with
    | nil => exact h
    | cons dispatch removed ih => exact ih (h.removeEmote dispatch)

end Chatterino.Seventv

namespace Chatterino.Seventv

open QString EmoteSetChange

variable {F ImageSet : Type} {map m : EmoteMap ImageSet} {emote : Emote ImageSet} {change : EmoteSetChange ImageSet}
  {done rest : List EmoteUpdateDispatch} {gone : List QString}

namespace EmoteSetChange

theorem mem_renamed (h : emote ∈ renamed map done) :
    ∃ update ∈ done, emote.name = update.emoteName ∧
      ∃ old ∈ present map update.emoteID, emote = createUpdatedEmote old update := by
  obtain ⟨update, hUpdate, hSome⟩ := List.mem_filterMap.mp h
  obtain ⟨old, hOld, rfl⟩ := Option.map_eq_some_iff.mp hSome
  exact ⟨update, hUpdate, rfl, old, hOld, rfl⟩

theorem mem_stage {name : QString} (h : change.stage map done gone name = some emote) :
    emote ∈ change.pushed ∨ emote ∈ renamed map done ∨
      map.lookup name = some emote ∧ emote.id ∉ done.map EmoteUpdateDispatch.emoteID ∧ emote.id ∉ gone := by
  rw [stage, Option.or_eq_some_iff, Option.or_eq_some_iff, Option.filter_eq_some_iff] at h
  obtain hPushed | ⟨-, hRenamed | ⟨-, hOld, hKept⟩⟩ := h
  · exact Or.inl (mem_of_named hPushed).1
  · exact Or.inr (Or.inl (mem_of_named hRenamed).1)
  · exact Or.inr (Or.inr ⟨hOld, of_decide_eq_true hKept⟩)

theorem WellFormed.pushedNames (h : change.WellFormed map) : (change.pushed.map Emote.name).Nodup := by
  have hNames := h.names
  rw [List.append_assoc, List.map_append] at hNames
  exact hNames.of_append_left

theorem WellFormed.renamedNames (h : change.WellFormed map) :
    ((renamed map change.updated).map Emote.name).Nodup := by
  have hNames := h.names
  rw [List.append_assoc, List.map_append, List.map_append] at hNames
  exact hNames.of_append_right.of_append_left

theorem WellFormed.not_pushed (h : change.WellFormed map) (hMem : emote ∈ renamed map change.updated) :
    emote.name ∉ change.pushed.map Emote.name := by
  have hNames := h.names
  rw [List.append_assoc, List.map_append, List.map_append] at hNames
  intro hPushed
  exact (List.disjoint_of_nodup_append hNames) hPushed (List.mem_append_left _ (List.mem_map_of_mem hMem))

theorem WellFormed.id_ne (h : change.WellFormed map) (hNamed : Named map) {update : EmoteUpdateDispatch}
    (hUpdated : change.updated = done ++ update :: rest) (hMem : emote ∈ change.pushed ∨ emote ∈ renamed map done) :
    emote.id ≠ update.emoteID := by
  intro hID
  obtain hPushed | hRenamed := hMem
  · have hUpdate : update ∈ change.updated := hUpdated ▸ List.mem_append_right done List.mem_cons_self
    exact (h.updatedOnly update hUpdate).2 (hID ▸ List.mem_map_of_mem hPushed)
  · obtain ⟨earlier, hEarlier, -, old, hPresent, rfl⟩ := mem_renamed hRenamed
    have hOnce := h.updatedOnce
    rw [hUpdated, List.map_append, List.map_cons] at hOnce
    have hSame : earlier.emoteID = update.emoteID := ((present_eq_some hNamed hPresent).2).symm.trans hID
    have hIn : update.emoteID ∈ done.map EmoteUpdateDispatch.emoteID := hSame ▸ List.mem_map_of_mem hEarlier
    exact List.disjoint_of_nodup_append hOnce hIn List.mem_cons_self

theorem WellFormed.old_of_mem_stage (h : change.WellFormed map) (hNamed : Named map) {update : EmoteUpdateDispatch}
    (hUpdated : change.updated = done ++ update :: rest) {name : QString}
    (hStage : change.stage map done [] name = some emote) (hID : emote.id = update.emoteID) :
    map.lookup name = some emote ∧ present map update.emoteID = some emote := by
  obtain hPushed | hRenamed | ⟨hOld, -⟩ := mem_stage hStage
  · exact absurd hID (h.id_ne hNamed hUpdated (Or.inl hPushed))
  · exact absurd hID (h.id_ne hNamed hUpdated (Or.inr hRenamed))
  · exact ⟨hOld, hID ▸ present_of_lookup hNamed hOld⟩

theorem renamed_append (map : EmoteMap ImageSet) (done rest : List EmoteUpdateDispatch) :
    renamed map (done ++ rest) = renamed map done ++ renamed map rest := List.filterMap_append

theorem renamed_cons_some {update : EmoteUpdateDispatch} (hPresent : present map update.emoteID = some emote) :
    renamed map (update :: rest) = createUpdatedEmote emote update :: renamed map rest := by
  rw [renamed, List.filterMap_cons, hPresent]
  rfl

theorem renamed_cons_none {update : EmoteUpdateDispatch} (hPresent : present map update.emoteID = none) :
    renamed map (update :: rest) = renamed map rest := by
  rw [renamed, List.filterMap_cons, hPresent]
  rfl

theorem named_append (emotes others : List (Emote ImageSet)) (name : QString) :
    named (emotes ++ others) name = (named emotes name).or (named others name) := List.find?_append

theorem filter_append_of_ne {update : EmoteUpdateDispatch} {name : QString}
    (hNe : ∀ other, map.lookup name = some other → other.id ≠ update.emoteID) :
    ((map.lookup name).filter fun emote =>
      emote.id ∉ (done ++ [update]).map EmoteUpdateDispatch.emoteID ∧ emote.id ∉ []) =
      (map.lookup name).filter fun emote =>
        emote.id ∉ done.map EmoteUpdateDispatch.emoteID ∧ emote.id ∉ [] := by
  cases hOther : map.lookup name with
  | none => rfl
  | some other => simp [Option.filter_some, hNe other hOther]

theorem WellFormed.stage_append_some (h : change.WellFormed map) (hNamed : Named map) {update : EmoteUpdateDispatch}
    (hUpdated : change.updated = done ++ update :: rest) (hPresent : present map update.emoteID = some emote)
    (hPushed : emote.name ∉ change.pushed.map Emote.name)
    (hRenamed : emote.name ∉ (renamed map done).map Emote.name) (name : QString) :
    change.stage map (done ++ [update]) [] name =
      if name = update.emoteName then some (createUpdatedEmote emote update)
      else if name = emote.name then none else change.stage map done [] name := by
  obtain ⟨hLookup, hID⟩ := present_eq_some hNamed hPresent
  have hAll : renamed map change.updated =
      renamed map done ++ createUpdatedEmote emote update :: renamed map rest := by
    rw [hUpdated, renamed_append, renamed_cons_some hPresent]
  have hNotPushed : update.emoteName ∉ change.pushed.map Emote.name :=
    @WellFormed.not_pushed _ _ (createUpdatedEmote emote update) _ h (hAll ▸ List.mem_append_right _ List.mem_cons_self)
  have hNotRenamed : update.emoteName ∉ (renamed map done).map Emote.name := by
    have hNames := h.renamedNames
    rw [hAll, List.map_append, List.map_cons] at hNames
    exact fun hIn => List.disjoint_of_nodup_append hNames hIn List.mem_cons_self
  rw [stage, renamed_append, renamed_cons_some hPresent, named_append]
  change (named change.pushed name).or (((named (renamed map done) name).or
    (named [createUpdatedEmote emote update] name)).or _) = _
  split
  · rename_i hNew
    rw [hNew, named_eq_none_iff.mpr hNotPushed, named_eq_none_iff.mpr hNotRenamed]
    simp [named, createUpdatedEmote]
  · rename_i hNew
    have hNone : named [createUpdatedEmote emote update] name = none := by
      simpa [named, createUpdatedEmote] using Ne.symm hNew
    rw [hNone, Option.or_none]
    split
    · rename_i hOld
      rw [hOld, named_eq_none_iff.mpr hPushed, named_eq_none_iff.mpr hRenamed, hLookup]
      simp [hID]
    · rename_i hOld
      rw [filter_append_of_ne]
      · rfl
      · intro other hOther hSame
        have hPresentOther := present_of_lookup hNamed hOther
        rw [hSame, hPresent] at hPresentOther
        exact hOld (Option.some.inj hPresentOther ▸ (hNamed.name hOther).symm)

theorem stage_append_none (hNamed : Named map) {update : EmoteUpdateDispatch}
    (hPresent : present map update.emoteID = none) (name : QString) :
    change.stage map (done ++ [update]) [] name = change.stage map done [] name := by
  rw [stage, stage, renamed_append, renamed_cons_none hPresent, filter_append_of_ne]
  · change (named change.pushed name).or ((named (renamed map done ++ []) name).or _) = _
    rw [List.append_nil]
  · intro other hOther hSame
    have hPresentOther := present_of_lookup hNamed hOther
    rw [hSame, hPresent] at hPresentOther
    cases hPresentOther

variable (hStage : ∀ name, m.lookup name = change.stage map done [] name)

include hStage in
theorem WellFormed.stage_updateEmote (h : change.WellFormed map) (hNamed : Named map) {update : EmoteUpdateDispatch}
    (hUpdated : change.updated = done ++ update :: rest)
    (hFree : ∀ emote ∈ present map update.emoteID,
      emote.name ∉ change.pushed.map Emote.name ∧ emote.name ∉ (renamed map done).map Emote.name)
    (name : QString) :
    (updateEmote update m).lookup name = change.stage map (done ++ [update]) [] name := by
  have hOld {name : QString} {other : Emote ImageSet} (hOther : m.lookup name = some other)
      (hID : other.id = update.emoteID) : map.lookup name = some other ∧ present map update.emoteID = some other :=
    h.old_of_mem_stage hNamed hUpdated ((hStage name).symm.trans hOther) hID
  cases hPresent : present map update.emoteID with
  | none =>
    have hLacks : Lacks m update.emoteID := by
      intro name other hOther hID
      have hSome := (hOld hOther hID).2
      rw [hPresent] at hSome
      cases hSome
    rw [updateEmote_of_lacks hLacks, hStage, stage_append_none hNamed hPresent]
  | some emote =>
    obtain ⟨hPushed, hRenamed⟩ := hFree emote hPresent
    obtain ⟨hLookup, hID⟩ := present_eq_some hNamed hPresent
    have hEmote : m.lookup emote.name = some emote := by
      have hNotDone : update.emoteID ∉ done.map EmoteUpdateDispatch.emoteID := by
        have hOnce := h.updatedOnce
        rw [hUpdated, List.map_append, List.map_cons] at hOnce
        exact fun hIn => List.disjoint_of_nodup_append hOnce hIn List.mem_cons_self
      rw [hStage, stage, named_eq_none_iff.mpr hPushed, named_eq_none_iff.mpr hRenamed, hLookup]
      simp only [Option.none_or]
      rw [Option.filter_some, hID]
      simp [hNotDone]
    have hFound : EmoteMap.findEmote update.emoteName update.emoteID m = some ⟨emote.name, emote⟩ := by
      rw [← hID]
      apply findEmote_of_unique hEmote
      intro name other hOther hSame
      obtain ⟨hOldOther, hPresentOther⟩ := hOld hOther (hSame.trans hID)
      rw [hPresent] at hPresentOther
      obtain rfl := Option.some.inj hPresentOther
      exact ⟨(hNamed.name hOldOther).symm, rfl⟩
    rw [h.stage_append_some hNamed hUpdated hPresent hPushed hRenamed, updateEmote, hFound, ← hStage]
    exact lookup_insert_erase m emote.name name (createUpdatedEmote emote update)

include hStage in
theorem WellFormed.lacks_of_taken (h : change.WellFormed map) (hNamed : Named map) {update : EmoteUpdateDispatch}
    (hUpdated : change.updated = done ++ update :: rest) (hPresent : present map update.emoteID = some emote)
    (hTaken : emote.name ∈ change.pushed.map Emote.name ∨ emote.name ∈ (renamed map done).map Emote.name) :
    Lacks m update.emoteID := by
  intro name other hOther hID
  obtain ⟨hOld, hPresentOther⟩ := h.old_of_mem_stage hNamed hUpdated ((hStage name).symm.trans hOther) hID
  rw [hPresent] at hPresentOther
  obtain rfl := Option.some.inj hPresentOther
  rw [hStage, ← hNamed.name hOld, stage, Option.or_eq_some_iff, Option.or_eq_some_iff] at hOther
  obtain hPushed | ⟨hNone, hRenamed | ⟨hNone', -⟩⟩ := hOther
  · exact h.id_ne hNamed hUpdated (Or.inl (mem_of_named hPushed).1) hID
  · exact h.id_ne hNamed hUpdated (Or.inr (mem_of_named hRenamed).1) hID
  · obtain hIn | hIn := hTaken
    · exact named_eq_none_iff.mp hNone hIn
    · exact named_eq_none_iff.mp hNone' hIn

end EmoteSetChange

end Chatterino.Seventv
