import Chatterino.Seventv.EmoteSetUpdate

/-! # When a dispatch makes its change

The pushes, the updates and the pulls of a dispatch in a row. The outcome is the change that the dispatch
describes exactly if no updated emote has an old name that is taken before its turn.
-/

namespace Chatterino.Seventv

open QString EmoteSetChange

variable {F ImageSet : Type} {map m : EmoteMap ImageSet} {emote : Emote ImageSet} {change : EmoteSetChange ImageSet}
  {done rest : List EmoteUpdateDispatch} {gone : List QString}

theorem lookup_addEmotes (reading : EmoteReading F ImageSet) (kind : SeventvEmoteSetKind)
    (added : List (EmoteAddDispatch F)) (name : QString) (m : EmoteMap ImageSet)
    (hNodup : ((added.filterMap (addedEmote reading kind)).map Emote.name).Nodup) :
    (added.foldl (fun m dispatch => addEmote reading kind dispatch m) m).lookup name =
      (named (added.filterMap (addedEmote reading kind)) name).or (m.lookup name) := by
  induction added generalizing m with
  | nil => rfl
  | cons dispatch added ih =>
    rw [List.foldl_cons, List.filterMap_cons, addEmote]
    rw [List.filterMap_cons] at hNodup
    cases hAdded : addedEmote reading kind dispatch with
    | none =>
      rw [hAdded] at hNodup
      exact ih m hNodup
    | some emote =>
      rw [hAdded, List.map_cons] at hNodup
      obtain ⟨hNotMem, hRest⟩ := List.nodup_cons.mp hNodup
      dsimp only
      rw [ih _ hRest, named_cons]
      split
      · rename_i hName
        rw [← hName, named_eq_none_iff.mpr hNotMem, Option.none_or, AList.lookup_insert, Option.some_or]
      · rename_i hName
        rw [AList.lookup_insert_ne (Ne.symm hName)]

namespace EmoteSetChange

theorem WellFormed.pulled_ne (h : change.WellFormed map) (hNamed : Named map) {id : QString} (hPulled : id ∈ change.pulled)
    (hMem : emote ∈ change.pushed ∨ emote ∈ renamed map change.updated) : emote.id ≠ id := by
  rintro rfl
  obtain hPushed | hRenamed := hMem
  · exact h.pulledOnly emote.id hPulled (List.mem_map_of_mem hPushed)
  · obtain ⟨update, hUpdate, -, old, hPresent, rfl⟩ := mem_renamed hRenamed
    have hID : old.id = update.emoteID := (present_eq_some hNamed hPresent).2
    exact (h.updatedOnly update hUpdate).1 (hID ▸ hPulled)

theorem WellFormed.stage_gone_append (h : change.WellFormed map) (hNamed : Named map) {id : QString}
    (hPulled : id ∈ change.pulled) (name : QString) :
    change.stage map change.updated (gone ++ [id]) name =
      (change.stage map change.updated gone name).filter fun emote => emote.id ≠ id := by
  rw [stage, stage]
  cases hPushed : named change.pushed name with
  | some emote =>
    have hNe := h.pulled_ne hNamed hPulled (Or.inl (mem_of_named hPushed).1)
    simp [Option.filter_some, hNe]
  | none =>
    cases hRenamed : named (renamed map change.updated) name with
    | some emote =>
      have hNe := h.pulled_ne hNamed hPulled (Or.inr (mem_of_named hRenamed).1)
      simp [Option.filter_some, hNe]
    | none =>
      cases map.lookup name with
      | none => rfl
      | some emote =>
        simp only [Option.none_or, Option.filter_filter]
        congr 1
        funext emote
        simp [Bool.and_assoc]

theorem lookup_removeEmote {removed : EmoteRemoveDispatch}
    (hUnique : ∀ name name' emote emote', m.lookup name = some emote → m.lookup name' = some emote' →
      emote.id = removed.emoteID → emote'.id = removed.emoteID → name = name') (name : QString) :
    (removeEmote removed m).lookup name = (m.lookup name).filter fun emote => emote.id ≠ removed.emoteID := by
  cases hFound : EmoteMap.findEmote removed.emoteName removed.emoteID m with
  | none =>
    rw [removeEmote, hFound]
    cases hEmote : m.lookup name with
    | none => rfl
    | some emote =>
      have hNe := findEmote_eq_none hFound hEmote
      rw [Option.filter_some, if_pos (decide_eq_true hNe)]
  | some it =>
    obtain ⟨hIt, hID⟩ := findEmote_eq_some hFound
    rw [removeEmote, hFound]
    dsimp only
    by_cases hName : name = it.1
    · rw [hName, AList.lookup_erase, hIt, Option.filter_some, hID]
      simp
    · rw [AList.lookup_erase_ne hName]
      cases hEmote : m.lookup name with
      | none => rfl
      | some emote =>
        have hNe : emote.id ≠ removed.emoteID := fun hSame => hName (hUnique name it.1 emote it.2 hEmote hIt hSame hID)
        rw [Option.filter_some, if_pos (decide_eq_true hNe)]

theorem WellFormed.stage_removeEmote (h : change.WellFormed map) (hNamed : Named map)
    (hStage : ∀ name, m.lookup name = change.stage map change.updated gone name) {removed : EmoteRemoveDispatch}
    (hPulled : removed.emoteID ∈ change.pulled) (name : QString) :
    (removeEmote removed m).lookup name = change.stage map change.updated (gone ++ [removed.emoteID]) name := by
  have hOld {name : QString} {emote : Emote ImageSet} (hEmote : m.lookup name = some emote)
      (hID : emote.id = removed.emoteID) : map.lookup name = some emote := by
    rw [hStage] at hEmote
    obtain hPushed | hRenamed | ⟨hLookup, -⟩ := mem_stage hEmote
    · exact absurd hID (h.pulled_ne hNamed hPulled (Or.inl hPushed))
    · exact absurd hID (h.pulled_ne hNamed hPulled (Or.inr hRenamed))
    · exact hLookup
  rw [h.stage_gone_append hNamed hPulled, ← hStage]
  apply lookup_removeEmote
  intro name name' emote emote' hEmote hEmote' hID hID'
  have hLookup := hOld hEmote hID
  have hLookup' := hOld hEmote' hID'
  have hSame : emote = emote' := by
    have hPresent := present_of_lookup hNamed hLookup
    rw [hID, ← hID', present_of_lookup hNamed hLookup'] at hPresent
    exact (Option.some.inj hPresent).symm
  rw [← hNamed.name hLookup, ← hNamed.name hLookup', hSame]

theorem WellFormed.stage_removeEmotes (h : change.WellFormed map) (hNamed : Named map)
    (hStage : ∀ name, m.lookup name = change.stage map change.updated gone name) (removed : List EmoteRemoveDispatch)
    (hPulled : ∀ dispatch ∈ removed, dispatch.emoteID ∈ change.pulled) (name : QString) :
    (removed.foldl (fun m dispatch => removeEmote dispatch m) m).lookup name =
      change.stage map change.updated (gone ++ removed.map EmoteRemoveDispatch.emoteID) name := by
  induction removed generalizing m gone with
  | nil =>
    rw [List.map_nil, List.append_nil]
    exact hStage name
  | cons dispatch removed ih =>
    rw [List.foldl_cons, List.map_cons, List.append_cons]
    apply ih
    · exact h.stage_removeEmote hNamed hStage (hPulled dispatch List.mem_cons_self)
    · exact fun other hOther => hPulled other (List.mem_cons_of_mem dispatch hOther)

theorem keepsOldNames_iff : change.KeepsOldNames map ↔ ∀ done update rest, change.updated = done ++ update :: rest →
    ∀ emote ∈ present map update.emoteID,
      emote.name ∉ change.pushed.map Emote.name ∧ emote.name ∉ (renamed map done).map Emote.name := by
  constructor
  · rintro ⟨hPushed, hPairwise⟩ done update rest hUpdated emote hEmote
    refine ⟨hPushed update (hUpdated ▸ List.mem_append_right done List.mem_cons_self) emote hEmote, fun hIn => ?_⟩
    obtain ⟨taken, hTaken, hName⟩ := List.mem_map.mp hIn
    obtain ⟨earlier, hEarlier, hNew, old, hOld, -⟩ := mem_renamed hTaken
    rw [hUpdated, List.pairwise_append] at hPairwise
    exact hPairwise.2.2 earlier hEarlier update List.mem_cons_self (Option.isSome_iff_exists.mpr ⟨old, hOld⟩) emote
      hEmote (hNew.symm.trans hName)
  · intro h
    constructor
    · intro update hUpdate emote hEmote
      obtain ⟨done, rest, hUpdated⟩ := List.append_of_mem hUpdate
      exact (h done update rest hUpdated emote hEmote).1
    · rw [List.pairwise_iff_getElem]
      intro i j hi hj hLt hSome emote hEmote hName
      have hSplit : change.updated = change.updated.take j ++ change.updated[j] :: change.updated.drop (j + 1) := by
        rw [List.getElem_cons_drop, List.take_append_drop]
      apply (h _ _ _ hSplit emote hEmote).2
      obtain ⟨old, hOld⟩ := Option.isSome_iff_exists.mp hSome
      have hMem : change.updated[i] ∈ change.updated.take j := List.mem_take_iff_getElem.mpr ⟨i, by omega, rfl⟩
      have hRenamed : createUpdatedEmote old change.updated[i] ∈ renamed map (change.updated.take j) := by
        apply List.mem_filterMap.mpr
        exact ⟨change.updated[i], hMem, Option.map_eq_some_iff.mpr ⟨old, hOld, rfl⟩⟩
      exact List.mem_map.mpr ⟨_, hRenamed, hName⟩

theorem WellFormed.stage_updateEmotes (h : change.WellFormed map) (hNamed : Named map)
    (hKeeps : change.KeepsOldNames map) (hUpdated : change.updated = done ++ rest)
    (hStage : ∀ name, m.lookup name = change.stage map done [] name) (name : QString) :
    (rest.foldl (fun m update => updateEmote update m) m).lookup name = change.stage map change.updated [] name := by
  induction rest generalizing m done with
  | nil =>
    rw [hUpdated, List.append_nil]
    exact hStage name
  | cons update rest ih =>
    rw [List.foldl_cons]
    apply ih
    · rw [hUpdated, ← List.append_cons]
    · exact h.stage_updateEmote hStage hNamed hUpdated (keepsOldNames_iff.mp hKeeps done update rest hUpdated)

theorem WellFormed.after_updated (h : change.WellFormed map) {update : EmoteUpdateDispatch}
    (hUpdate : update ∈ change.updated) (hPresent : present map update.emoteID = some emote) :
    change.after map update.emoteName = some (createUpdatedEmote emote update) := by
  have hMem : createUpdatedEmote emote update ∈ renamed map change.updated :=
    List.mem_filterMap.mpr ⟨update, hUpdate, by rw [hPresent, Option.map_some]⟩
  have hPushed := named_eq_none_iff.mpr (h.not_pushed hMem)
  have hRenamed := named_of_mem h.renamedNames hMem
  rw [after, stage, show named change.pushed update.emoteName = none from hPushed,
    show named (renamed map change.updated) update.emoteName = _ from hRenamed]
  rfl

theorem WellFormed.free_of_after (h : change.WellFormed map) (hNamed : Named map)
    (hUpdated : change.updated = done ++ rest) (hStage : ∀ name, m.lookup name = change.stage map done [] name)
    (removed : List EmoteRemoveDispatch)
    (hAfter : ∀ name, (removed.foldl (fun m dispatch => removeEmote dispatch m)
      (rest.foldl (fun m update => updateEmote update m) m)).lookup name = change.after map name)
    (before : List EmoteUpdateDispatch) (update : EmoteUpdateDispatch) (later : List EmoteUpdateDispatch)
    (hRest : rest = before ++ update :: later) :
    ∀ emote ∈ present map update.emoteID, emote.name ∉ change.pushed.map Emote.name ∧
      emote.name ∉ (renamed map (done ++ before)).map Emote.name := by
  induction rest generalizing m done before with
  | nil => exact absurd (congrArg List.length hRest) (by simp)
  | cons first rest ih =>
    have hFirst : ∀ emote ∈ present map first.emoteID,
        emote.name ∉ change.pushed.map Emote.name ∧ emote.name ∉ (renamed map done).map Emote.name := by
      intro emote hEmote
      by_contra hTaken
      rw [not_and_or, not_not, not_not] at hTaken
      have hLacks := h.lacks_of_taken hStage hNamed hUpdated hEmote hTaken
      have hFinal := (hAfter first.emoteName).trans
        (h.after_updated (hUpdated ▸ List.mem_append_right done List.mem_cons_self) hEmote)
      exact hLacks.foldl (first :: rest) removed first.emoteName _ hFinal (present_eq_some hNamed hEmote).2
    cases before with
    | nil =>
      obtain ⟨rfl, -⟩ := List.cons.inj hRest
      rw [List.append_nil]
      exact hFirst
    | cons other before =>
      obtain ⟨rfl, hTail⟩ := List.cons.inj hRest
      rw [List.append_cons]
      apply ih
      · rw [hUpdated, ← List.append_cons]
      · exact h.stage_updateEmote hStage hNamed hUpdated hFirst
      · exact hAfter
      · exact hTail

end EmoteSetChange

/-- The signals of a dispatch make the change it describes exactly if the old name of each updated emote is
still its own at its turn. -/
theorem updatedMap_eq_after_iff (reading : EmoteReading F ImageSet) (kind : SeventvEmoteSetKind)
    (dispatch : Dispatch F) (map : EmoteMap ImageSet) (hNamed : Named map)
    (hWellFormed : (dispatch.change reading kind).WellFormed map) :
    (∀ name, (updatedMap reading kind dispatch map).lookup name = (dispatch.change reading kind).after map name) ↔
      (dispatch.change reading kind).KeepsOldNames map := by
  have hMap : updatedMap reading kind dispatch map =
      dispatch.removed.foldl (fun m removed => removeEmote removed m)
        (dispatch.updated.foldl (fun m update => updateEmote update m)
          (dispatch.added.foldl (fun m added => addEmote reading kind added m) map)) := by
    rw [updatedMap, Dispatch.onEmoteSetUpdate, List.foldl_append, List.foldl_append, List.foldl_map, List.foldl_map,
      List.foldl_map]
    rfl
  have hPushed (name : QString) :
      (dispatch.added.foldl (fun m added => addEmote reading kind added m) map).lookup name =
        (dispatch.change reading kind).stage map [] [] name := by
    rw [lookup_addEmotes reading kind dispatch.added name map hWellFormed.pushedNames, stage]
    cases map.lookup name with
    | none => rfl
    | some emote => rfl
  rw [hMap]
  constructor
  · intro hAfter
    rw [keepsOldNames_iff]
    exact fun done update rest hUpdated =>
      hWellFormed.free_of_after hNamed (List.nil_append _).symm hPushed dispatch.removed hAfter done update rest hUpdated
  · intro hKeeps name
    have hUpdates := hWellFormed.stage_updateEmotes hNamed hKeeps (List.nil_append _).symm hPushed
    exact hWellFormed.stage_removeEmotes hNamed hUpdates dispatch.removed
      (fun removed hRemoved => List.mem_map_of_mem hRemoved) name

section swap

def updatedElement (id oldName name : QString) : QJsonValue Nat :=
  .object [("key", .string (lit "emotes")), ("old_value", .object [("id", .string id), ("name", .string oldName)]),
    ("value", .object [("id", .string id), ("name", .string name)])]

def updatesOf (updated : List (QJsonValue Nat)) : Dispatch Nat :=
  .ofBody [("id", .string (lit "set")), ("updated", .array updated)]

def plainEmote (id name : QString) : Emote Unit := ⟨name, (), false, id, [], none⟩

def plainReading : EmoteReading Nat Unit := ⟨fun _ => 0, fun _ => (), fun _ => false, false⟩

def twoEmotes : EmoteMap Unit :=
  ((∅ : EmoteMap Unit).insert (lit "A") (plainEmote (lit "1") (lit "A"))).insert (lit "B") (plainEmote (lit "2") (lit "B"))

theorem named_twoEmotes : Named twoEmotes := ⟨by decide, by decide⟩

theorem updatedMap_eq_after_iff_chain :
    let dispatch := updatesOf [updatedElement (lit "2") (lit "B") (lit "C"), updatedElement (lit "1") (lit "A") (lit "B")]
    ∀ name, (updatedMap plainReading .Channel dispatch twoEmotes).lookup name =
      (dispatch.change plainReading .Channel).after twoEmotes name :=
  (updatedMap_eq_after_iff plainReading .Channel
    (updatesOf [updatedElement (lit "2") (lit "B") (lit "C"), updatedElement (lit "1") (lit "A") (lit "B")]) twoEmotes
    named_twoEmotes ⟨by decide, by decide, by decide, by decide⟩).mpr ⟨by decide, by decide⟩

theorem not_updatedMap_eq_after_swap :
    ¬∀ (dispatch : Dispatch Nat) (map : EmoteMap Unit), Named map →
      (dispatch.change plainReading .Channel).WellFormed map →
      ∀ name, (updatedMap plainReading .Channel dispatch map).lookup name =
        (dispatch.change plainReading .Channel).after map name := by
  intro h
  have hLost := h
    (updatesOf [updatedElement (lit "1") (lit "A") (lit "B"), updatedElement (lit "2") (lit "B") (lit "A")]) twoEmotes
    named_twoEmotes ⟨by decide, by decide, by decide, by decide⟩ (lit "A")
  exact absurd hLost (by decide)

end swap

end Chatterino.Seventv
