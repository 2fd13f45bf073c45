import Chatterino.Qt.QJson
import Mathlib.Data.Int.Bitwise
import Mathlib.Data.List.AList

/-! # Emote-set dispatches

The event API tells which emotes of a set were pushed, updated and pulled. Each of them becomes a
signal of its own, in this order.
-/

namespace Chatterino.Seventv

open QString

structure Dispatch (F : Type) where
  body : QJsonObject F
  id : QString
  actorName : QString

namespace Dispatch

variable {F : Type}

def ofBody (body : QJsonObject F) : Dispatch F where
  body := body
  id := (body.value "id").toString
  actorName := ((body.value "actor").toObject.value "display_name").toString

end Dispatch

structure EmoteAddDispatch (F : Type) where
  emoteSetID : QString
  actorName : QString
  emoteJson : QJsonObject F
  emoteID : QString

structure EmoteRemoveDispatch where
  emoteSetID : QString
  actorName : QString
  emoteName : QString
  emoteID : QString

structure EmoteUpdateDispatch where
  emoteSetID : QString
  actorName : QString
  emoteID : QString
  oldEmoteName : QString
  emoteName : QString

section

variable {F : Type}

namespace EmoteAddDispatch

def ofEmote (dispatch : Dispatch F) (emote : QJsonObject F) : EmoteAddDispatch F where
  emoteSetID := dispatch.id
  actorName := dispatch.actorName
  emoteJson := emote
  emoteID := (emote.value "id").toString

def validate (added : EmoteAddDispatch F) : Bool :=
  let emoteData := (added.emoteJson.value "data").toObject
  !added.emoteSetID.isEmpty && !added.emoteJson.isEmpty &&
    (added.emoteJson.contains "id" && added.emoteJson.contains "name" && added.emoteJson.contains "data") &&
    (emoteData.contains "name" && emoteData.contains "host" && emoteData.contains "owner")

end EmoteAddDispatch

namespace EmoteRemoveDispatch

def ofEmote (dispatch : Dispatch F) (emote : QJsonObject F) : EmoteRemoveDispatch where
  emoteSetID := dispatch.id
  actorName := dispatch.actorName
  emoteName := (emote.value "name").toString
  emoteID := (emote.value "id").toString

def validate (removed : EmoteRemoveDispatch) : Bool :=
  !removed.emoteSetID.isEmpty && !removed.emoteName.isEmpty && !removed.emoteID.isEmpty

end EmoteRemoveDispatch

namespace EmoteUpdateDispatch

def ofValues (dispatch : Dispatch F) (oldValue value : QJsonObject F) : EmoteUpdateDispatch where
  emoteSetID := dispatch.id
  actorName := dispatch.actorName
  emoteID := (value.value "id").toString
  oldEmoteName := (oldValue.value "name").toString
  emoteName := (value.value "name").toString

def validate (update : EmoteUpdateDispatch) : Bool :=
  !update.emoteSetID.isEmpty && !update.emoteID.isEmpty && !update.oldEmoteName.isEmpty &&
    !update.emoteName.isEmpty && update.oldEmoteName != update.emoteName

end EmoteUpdateDispatch

end

inductive EmoteSignal (F : Type) where
  | emoteAdded (added : EmoteAddDispatch F)
  | emoteUpdated (update : EmoteUpdateDispatch)
  | emoteRemoved (removed : EmoteRemoveDispatch)

namespace Dispatch

variable {F : Type}

def emoteChanges (key : String) (dispatch : Dispatch F) : List (QJsonObject F) :=
  ((dispatch.body.value key).toArray.map QJsonValue.toObject).filter fun change =>
    (change.value "key").toString = lit "emotes"

def added (dispatch : Dispatch F) : List (EmoteAddDispatch F) :=
  ((dispatch.emoteChanges "pushed").map fun pushed =>
    EmoteAddDispatch.ofEmote dispatch (pushed.value "value").toObject).filter EmoteAddDispatch.validate

def updated (dispatch : Dispatch F) : List EmoteUpdateDispatch :=
  ((dispatch.emoteChanges "updated").map fun updated =>
    EmoteUpdateDispatch.ofValues dispatch (updated.value "old_value").toObject
      (updated.value "value").toObject).filter EmoteUpdateDispatch.validate

def removed (dispatch : Dispatch F) : List EmoteRemoveDispatch :=
  ((dispatch.emoteChanges "pulled").map fun pulled =>
    EmoteRemoveDispatch.ofEmote dispatch (pulled.value "old_value").toObject).filter EmoteRemoveDispatch.validate

def onEmoteSetUpdate (dispatch : Dispatch F) : List (EmoteSignal F) :=
  dispatch.added.map .emoteAdded ++ dispatch.updated.map .emoteUpdated ++ dispatch.removed.map .emoteRemoved

end Dispatch

/-! ## Maps of 7TV emotes

Single emotes are added to a map, updated and removed. Images are made by a parameter; tooltips and
links are left out.
-/

structure Emote (ImageSet : Type) where
  name : QString
  images : ImageSet
  zeroWidth : Bool
  id : QString
  author : QString
  baseName : Option QString
deriving DecidableEq

abbrev EmoteMap (ImageSet : Type) := AList fun _ : QString => Emote ImageSet

inductive SeventvEmoteSetKind where
  | Global | Personal | Channel
deriving DecidableEq

structure EmoteReading (F ImageSet : Type) where
  /-- `toInt` of a value, zero if it is none. -/
  toInt : QJsonValue F → Int
  createImageSet : QJsonObject F → ImageSet
  isEmpty : ImageSet → Bool
  showUnlistedSevenTVEmotes : Bool

variable {F ImageSet : Type}

namespace EmoteMap

def findEmote (emoteNameHint emoteID : QString) (map : EmoteMap ImageSet) :
    Option (Sigma fun _ : QString => Emote ImageSet) :=
  let it := if emoteNameHint.isEmpty then none else (map.lookup emoteNameHint).map fun emote => ⟨emoteNameHint, emote⟩
  match it.filter fun entry => entry.2.id = emoteID with
  | some entry => some entry
  | none => map.entries.find? fun entry => entry.2.id = emoteID

end EmoteMap

def hasFlag (flags : Int) (bit : Nat) : Bool := flags.testBit bit

def isZeroWidthActive (reading : EmoteReading F ImageSet) (activeEmote : QJsonObject F) : Bool :=
  hasFlag (reading.toInt (activeEmote.value "flags")) 0

def checkEmoteVisibility (reading : EmoteReading F ImageSet) (emoteData : QJsonObject F) (kind : SeventvEmoteSetKind) :
    Bool :=
  if !(emoteData.value "listed").toBool false && !reading.showUnlistedSevenTVEmotes then false
  else if kind = .Personal && !(emoteData.value "state").toArray.any (QJsonValue.equals (lit "PERSONAL")) then false
  else !hasFlag (reading.toInt (emoteData.value "flags")) 24

def createEmote (reading : EmoteReading F ImageSet) (activeEmote emoteData : QJsonObject F) : Emote ImageSet :=
  let emoteName := (activeEmote.value "name").toString
  let baseEmoteName := (emoteData.value "name").toString
  { name := emoteName
    images := reading.createImageSet emoteData
    zeroWidth := isZeroWidthActive reading activeEmote
    id := (activeEmote.value "id").toString
    author := ((emoteData.value "owner").toObject.value "display_name").toString
    baseName := if emoteName ≠ baseEmoteName then some baseEmoteName else none }

def createUpdatedEmote (oldEmote : Emote ImageSet) (dispatch : EmoteUpdateDispatch) : Emote ImageSet :=
  let toNonAliased := oldEmote.baseName = some dispatch.emoteName
  { oldEmote with
    name := dispatch.emoteName
    baseName := if toNonAliased then none else some (oldEmote.baseName.getD oldEmote.name) }

def addedEmote (reading : EmoteReading F ImageSet) (kind : SeventvEmoteSetKind) (dispatch : EmoteAddDispatch F) :
    Option (Emote ImageSet) :=
  let emoteData := (dispatch.emoteJson.value "data").toObject
  if emoteData.isEmpty || !checkEmoteVisibility reading emoteData kind then none
  else
    let emote := createEmote reading dispatch.emoteJson emoteData
    if reading.isEmpty emote.images then none else some emote

def addEmote (reading : EmoteReading F ImageSet) (kind : SeventvEmoteSetKind) (dispatch : EmoteAddDispatch F)
    (map : EmoteMap ImageSet) : EmoteMap ImageSet :=
  match addedEmote reading kind dispatch with
  | none => map
  | some emote => map.insert emote.name emote

def updateEmote (dispatch : EmoteUpdateDispatch) (map : EmoteMap ImageSet) : EmoteMap ImageSet :=
  match EmoteMap.findEmote dispatch.emoteName dispatch.emoteID map with
  | none => map
  | some oldEmote =>
    let emote := createUpdatedEmote oldEmote.2 dispatch
    (map.erase oldEmote.2.name).insert emote.name emote

def removeEmote (dispatch : EmoteRemoveDispatch) (map : EmoteMap ImageSet) : EmoteMap ImageSet :=
  match EmoteMap.findEmote dispatch.emoteName dispatch.emoteID map with
  | none => map
  | some it => map.erase it.1

def handle (reading : EmoteReading F ImageSet) (kind : SeventvEmoteSetKind) (map : EmoteMap ImageSet) :
    EmoteSignal F → EmoteMap ImageSet
  | .emoteAdded added => addEmote reading kind added map
  | .emoteUpdated update => updateEmote update map
  | .emoteRemoved removed => removeEmote removed map

def updatedMap (reading : EmoteReading F ImageSet) (kind : SeventvEmoteSetKind) (dispatch : Dispatch F)
    (map : EmoteMap ImageSet) : EmoteMap ImageSet :=
  dispatch.onEmoteSetUpdate.foldl (handle reading kind) map

variable {map : EmoteMap ImageSet}

theorem findEmote_eq_some {hint emoteID : QString} {entry : Sigma fun _ : QString => Emote ImageSet}
    (h : EmoteMap.findEmote hint emoteID map = some entry) :
    map.lookup entry.1 = some entry.2 ∧ entry.2.id = emoteID := by
  unfold EmoteMap.findEmote at h
  dsimp only at h
  split at h
  · rename_i it hIt
    obtain rfl := Option.some.inj h
    obtain ⟨hHint, hID⟩ := Option.filter_eq_some_iff.mp hIt
    split at hHint
    · cases hHint
    · obtain ⟨emote, hEmote, rfl⟩ := Option.map_eq_some_iff.mp hHint
      exact ⟨hEmote, of_decide_eq_true hID⟩
  · have hID := List.find?_some h
    exact ⟨AList.mem_lookup_iff.mpr (List.mem_of_find?_eq_some h), by simpa using hID⟩

theorem findEmote_eq_none {hint emoteID name : QString} {emote : Emote ImageSet}
    (h : EmoteMap.findEmote hint emoteID map = none) (hEmote : map.lookup name = some emote) : emote.id ≠ emoteID := by
  unfold EmoteMap.findEmote at h
  dsimp only at h
  split at h
  · cases h
  · have hNot := List.find?_eq_none.mp h ⟨name, emote⟩ (AList.mem_lookup_iff.mp hEmote)
    exact fun hEq => hNot (decide_eq_true hEq)

end Chatterino.Seventv
