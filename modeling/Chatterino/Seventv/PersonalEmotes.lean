import Chatterino.Lib.Run
import Chatterino.Seventv.EmoteSetUpdate

/-! # Personal 7TV emotes

The sets of users are created, assigned and updated by the event API, and the set of the own account is
fetched as well. Whoever is assigned a set that is still empty is to be told of its emotes later.
-/

namespace Chatterino.Seventv

open Lib QString

variable {F ImageSet : Type}

def parseEmotes (reading : EmoteReading F ImageSet) (emoteSetEmotes : List (QJsonValue F))
    (kind : SeventvEmoteSetKind) : EmoteMap ImageSet :=
  emoteSetEmotes.foldl (fun emotes activeEmoteJson =>
    let activeEmote := activeEmoteJson.toObject
    let emoteData := (activeEmote.value "data").toObject
    if emoteData.isEmpty || !checkEmoteVisibility reading emoteData kind then emotes
    else
      let result := createEmote reading activeEmote emoteData
      if reading.isEmpty result.images then emotes else emotes.insert result.name result) ∅

def EmoteSignal.emoteSetID : EmoteSignal F → QString
  | .emoteAdded added => added.emoteSetID
  | .emoteUpdated update => update.emoteSetID
  | .emoteRemoved removed => removed.emoteSetID

def EmoteMap.isEmpty (map : EmoteMap ImageSet) : Bool := map.entries.isEmpty

def updatePersonal (reading : EmoteReading F ImageSet) (map : EmoteMap ImageSet) : EmoteSignal F → EmoteMap ImageSet
  | .emoteAdded added =>
    if (map.lookup (added.emoteJson.value "name").toString).isSome then map
    else addEmote reading .Personal added map
  | signal => handle reading .Personal map signal

structure SeventvPersonalEmotes (ImageSet : Type) where
  emoteSets_ : QString → Option (EmoteMap ImageSet) := fun _ => none
  userEmoteSets_ : QString → List QString := fun _ => []
  enabled_ : Bool

namespace SeventvPersonalEmotes

variable (emotes : SeventvPersonalEmotes ImageSet)

def emplace (id : QString) (map : EmoteMap ImageSet) : SeventvPersonalEmotes ImageSet :=
  if (emotes.emoteSets_ id).isSome then emotes
  else { emotes with emoteSets_ := Function.update emotes.emoteSets_ id (some map) }

def createEmoteSet (id : QString) : SeventvPersonalEmotes ImageSet := emotes.emplace id ∅

def append (userTwitchID emoteSetID : QString) : SeventvPersonalEmotes ImageSet :=
  { emotes with userEmoteSets_ :=
      Function.update emotes.userEmoteSets_ userTwitchID (emotes.userEmoteSets_ userTwitchID ++ [emoteSetID]) }

def assignUserToEmoteSet (emoteSetID userTwitchID : QString) :
    SeventvPersonalEmotes ImageSet × Option (EmoteMap ImageSet) :=
  if emoteSetID ∈ emotes.userEmoteSets_ userTwitchID then (emotes, none)
  else (emotes.append userTwitchID emoteSetID, emotes.emoteSets_ emoteSetID)

def updateEmoteSet (reading : EmoteReading F ImageSet) (signal : EmoteSignal F) : SeventvPersonalEmotes ImageSet :=
  match emotes.emoteSets_ signal.emoteSetID with
  | none => emotes
  | some map =>
    { emotes with
      emoteSets_ := Function.update emotes.emoteSets_ signal.emoteSetID (some (updatePersonal reading map signal)) }

def addEmoteSetForUser (emoteSetID : QString) (map : EmoteMap ImageSet) (userTwitchID : QString) :
    SeventvPersonalEmotes ImageSet := (emotes.emplace emoteSetID map).append userTwitchID emoteSetID

def getEmoteSetByID (emoteSetID : QString) : Option (EmoteMap ImageSet) :=
  if !emotes.enabled_ then none else emotes.emoteSets_ emoteSetID

def HasEmotes (id : QString) : Prop := ∃ map ∈ emotes.emoteSets_ id, map.isEmpty = false

instance (id : QString) : Decidable (emotes.HasEmotes id) :=
  inferInstanceAs (Decidable (∃ map ∈ emotes.emoteSets_ id, map.isEmpty = false))

end SeventvPersonalEmotes

structure LastPersonalEmoteAssignment where
  userName : QString
  emoteSetID : QString
  deriving DecidableEq

inductive CosmeticKind where
  | Badge | Paint | EmoteSet | INVALID
  deriving DecidableEq

structure EntitlementCreateDeleteDispatch where
  refID : QString
  kind : CosmeticKind
  userID : QString
  userName : QString

def EntitlementCreateDeleteDispatch.validate (entitlement : EntitlementCreateDeleteDispatch) : Bool :=
  !entitlement.userID.isEmpty && !entitlement.userName.isEmpty && !entitlement.refID.isEmpty &&
    entitlement.kind != .INVALID

structure EmoteSetCreateDispatch where
  emoteSetID : QString
  isPersonalOrCommercial : Bool

def EmoteSetCreateDispatch.validate (dispatch : EmoteSetCreateDispatch) : Bool := !dispatch.emoteSetID.isEmpty

structure PersonalEmoteSetAdded (ImageSet : Type) where
  userName : QString
  emoteSetID : QString
  emoteSet : EmoteMap ImageSet

structure Assignment where
  userName : QString
  emoteSetID : QString
  since : Nat
  deriving DecidableEq

structure PersonalEmoteState (ImageSet : Type) where
  personalEmotes : SeventvPersonalEmotes ImageSet
  /-- One for each connection. -/
  lastPersonalEmoteAssignment_ : Nat → Option LastPersonalEmoteAssignment := fun _ => none
  personalEmoteSetAdded : List (PersonalEmoteSetAdded ImageSet) := []
  /-- The fetched emotes of each set with the later updates applied. -/
  fetched : List (QString × EmoteMap ImageSet) := []
  /-- Assigned, and no emotes have arrived since. -/
  waiting : List Assignment := []
  /-- Assigned before the emotes arrived. -/
  due : List Assignment := []

inductive PersonalEmoteEvent (F : Type) where
  | emoteSetCreate (dispatch : EmoteSetCreateDispatch)
  | entitlementCreate (client : Nat) (entitlement : EntitlementCreateDeleteDispatch)
  /-- One of the signals of a dispatch. -/
  | emoteSetUpdate (signal : EmoteSignal F)
  /-- The signals of a dispatch for the set are through. -/
  | emoteSetUpdated (client : Nat) (id : QString)
  | fetched (emoteSetID : QString) (kind : SeventvEmoteSetKind) (emotes : List (QJsonValue F)) (userTwitchID : QString)

namespace PersonalEmoteState

variable (reading : EmoteReading F ImageSet) (state : PersonalEmoteState ImageSet)

def onEmoteSetCreate (dispatch : EmoteSetCreateDispatch) : PersonalEmoteState ImageSet :=
  if dispatch.validate && dispatch.isPersonalOrCommercial then
    { state with personalEmotes := state.personalEmotes.createEmoteSet dispatch.emoteSetID }
  else state

def onEntitlementCreate (client : Nat) (entitlement : EntitlementCreateDeleteDispatch) :
    PersonalEmoteState ImageSet :=
  match entitlement.kind with
  | .EmoteSet =>
    let assigned := state.personalEmotes.assignUserToEmoteSet entitlement.refID entitlement.userID
    let state := { state with personalEmotes := assigned.1 }
    match assigned.2 with
    | none => state
    | some set =>
      if set.isEmpty then
        { state with lastPersonalEmoteAssignment_ :=
            Function.update state.lastPersonalEmoteAssignment_ client (some ⟨entitlement.userName, entitlement.refID⟩) }
      else
        { state with
          lastPersonalEmoteAssignment_ := Function.update state.lastPersonalEmoteAssignment_ client none
          personalEmoteSetAdded := state.personalEmoteSetAdded ++ [⟨entitlement.userName, entitlement.refID, set⟩] }
  | _ => state

def flushLastPersonalEmoteAssignment (client : Nat) (id : QString) : PersonalEmoteState ImageSet :=
  match state.lastPersonalEmoteAssignment_ client with
  | none => state
  | some last =>
    let added :=
      if last.emoteSetID = id then
        (state.personalEmotes.getEmoteSetByID id).toList.map fun set => ⟨last.userName, id, set⟩
      else []
    { state with
      lastPersonalEmoteAssignment_ := Function.update state.lastPersonalEmoteAssignment_ client none
      personalEmoteSetAdded := state.personalEmoteSetAdded ++ added }

def arrived (id : QString) : PersonalEmoteState ImageSet :=
  if state.personalEmotes.HasEmotes id then
    { state with
      waiting := state.waiting.filter fun assignment => assignment.emoteSetID ≠ id
      due := state.due ++ state.waiting.filter fun assignment => assignment.emoteSetID = id }
  else state

def assigned (entitlement : EntitlementCreateDeleteDispatch) : PersonalEmoteState ImageSet :=
  if entitlement.kind = .EmoteSet ∧ ¬state.personalEmotes.HasEmotes entitlement.refID then
    { state with waiting :=
        state.waiting ++ [⟨entitlement.userName, entitlement.refID, state.personalEmoteSetAdded.length⟩] }
  else state

def step (state : PersonalEmoteState ImageSet) : PersonalEmoteEvent F → PersonalEmoteState ImageSet
  | .emoteSetCreate dispatch => state.onEmoteSetCreate dispatch
  | .entitlementCreate client entitlement =>
    if entitlement.validate then (state.assigned entitlement).onEntitlementCreate client entitlement else state
  | .emoteSetUpdate signal =>
    { state with
      personalEmotes := state.personalEmotes.updateEmoteSet reading signal
      fetched := state.fetched.map fun entry =>
        if entry.1 = signal.emoteSetID then (entry.1, updatePersonal reading entry.2 signal) else entry }
  | .emoteSetUpdated client id => (state.flushLastPersonalEmoteAssignment client id).arrived id
  | .fetched emoteSetID kind emotes userTwitchID =>
    let map := parseEmotes reading emotes kind
    let isNew := (state.personalEmotes.emoteSets_ emoteSetID).isNone
    let state : PersonalEmoteState ImageSet := { state with
      personalEmotes := state.personalEmotes.addEmoteSetForUser emoteSetID map userTwitchID
      fetched := state.fetched ++ [(emoteSetID, map)] }
    if isNew then state.arrived emoteSetID else state

def create (enabled : Bool) : PersonalEmoteState ImageSet where
  personalEmotes := { enabled_ := enabled }

def Contains (emotes map : EmoteMap ImageSet) : Prop :=
  ∀ name emote, map.lookup name = some emote → emotes.lookup name = some emote

def Notified (assignment : Assignment) : Prop :=
  ∃ added ∈ state.personalEmoteSetAdded.drop assignment.since, added.userName = assignment.userName ∧
    added.emoteSetID = assignment.emoteSetID ∧ added.emoteSet.isEmpty = false

structure OrderIndependent : Prop where
  assignedOnce : ∀ userID, (state.personalEmotes.userEmoteSets_ userID).Nodup
  contained : ∀ entry ∈ state.fetched, ∃ emotes ∈ state.personalEmotes.emoteSets_ entry.1, Contains emotes entry.2
  notified : ∀ assignment ∈ state.due, state.Notified assignment

def AssignsOnce (state : PersonalEmoteState ImageSet) : PersonalEmoteEvent F → Prop
  | .fetched emoteSetID _ _ userTwitchID => emoteSetID ∉ state.personalEmotes.userEmoteSets_ userTwitchID
  | _ => True

/-- The signal does to the fetched emotes what it does to the emotes of the set. -/
def Meets (emotes map : EmoteMap ImageSet) : EmoteSignal F → Prop
  | .emoteAdded added => ∀ emote ∈ addedEmote reading .Personal added, map.lookup emote.name = none →
      ∀ other ∈ emotes.lookup emote.name, other = emote
  | .emoteUpdated update => ∀ found ∈ EmoteMap.findEmote update.emoteName update.emoteID emotes,
      match EmoteMap.findEmote update.emoteName update.emoteID map with
      | none => map.lookup update.emoteName = none ∧ map.lookup found.2.name = none
      | some known => createUpdatedEmote found.2 update = createUpdatedEmote known.2 update ∧
          (found.2.name = known.2.name ∨ found.2.name = update.emoteName ∨ map.lookup found.2.name = none)
  | .emoteRemoved removed => ∀ found ∈ EmoteMap.findEmote removed.emoteName removed.emoteID emotes,
      ∀ known ∈ EmoteMap.findEmote removed.emoteName removed.emoteID map,
        found.1 = known.1 ∨ map.lookup found.1 = none

/-- A fetched set is new or has the fetched emotes, and what it has besides them is in the way of no update. -/
def KeepsFetched (state : PersonalEmoteState ImageSet) : PersonalEmoteEvent F → Prop
  | .fetched emoteSetID kind fetched _ =>
    ∀ emotes ∈ state.personalEmotes.emoteSets_ emoteSetID, Contains emotes (parseEmotes reading fetched kind)
  | .emoteSetUpdate signal => ∀ entry ∈ state.fetched, entry.1 = signal.emoteSetID →
      ∀ emotes ∈ state.personalEmotes.emoteSets_ entry.1, Meets reading emotes entry.2 signal
  | _ => True

/-- When emotes arrive, by a dispatch, each user who waits for them is the one that was assigned last, and with a
fetch, none is waiting. -/
def NotifiesWaiting (state : PersonalEmoteState ImageSet) : PersonalEmoteEvent F → Prop
  | .fetched emoteSetID kind fetched _ => state.personalEmotes.emoteSets_ emoteSetID = none →
      (parseEmotes reading fetched kind).isEmpty = false →
        ∀ assignment ∈ state.waiting, assignment.emoteSetID = emoteSetID → state.Notified assignment
  | .emoteSetUpdated client id => state.personalEmotes.HasEmotes id →
      ∀ assignment ∈ state.waiting, assignment.emoteSetID = id → state.Notified assignment ∨
        (state.personalEmotes.enabled_ ∧ state.lastPersonalEmoteAssignment_ client = some ⟨assignment.userName, id⟩)
  | _ => True

section

variable {reading} {emotes map : EmoteMap ImageSet}

theorem Contains.refl (map : EmoteMap ImageSet) : Contains map map := fun _ _ hEmote => hEmote

theorem Contains.insert (h : Contains emotes map) (name : QString) (emote : Emote ImageSet) :
    Contains (emotes.insert name emote) (map.insert name emote) := by
  intro other found hFound
  by_cases hName : other = name
  · rw [hName, AList.lookup_insert] at hFound ⊢
    exact hFound
  · rw [AList.lookup_insert_ne hName] at hFound ⊢
    exact h other found hFound

theorem Contains.insert_right_iff (h : Contains emotes map) (name : QString) (emote : Emote ImageSet) :
    Contains emotes (map.insert name emote) ↔ emotes.lookup name = some emote := by
  constructor
  · exact fun hContains => hContains name emote (AList.lookup_insert map)
  · intro hName other found hFound
    by_cases hOther : other = name
    · rw [hOther, AList.lookup_insert] at hFound
      rw [hOther, hName, hFound]
    · rw [AList.lookup_insert_ne hOther] at hFound
      exact h other found hFound

theorem addedEmote_name {added : EmoteAddDispatch F} {kind : SeventvEmoteSetKind} {emote : Emote ImageSet}
    (h : addedEmote reading kind added = some emote) : emote.name = (added.emoteJson.value "name").toString := by
  unfold addedEmote at h
  dsimp only at h
  split_ifs at h
  obtain rfl := Option.some.inj h
  rfl

theorem Contains.findEmote_eq_none (h : Contains emotes map) {hint emoteID : QString}
    (hNone : EmoteMap.findEmote hint emoteID emotes = none) : EmoteMap.findEmote hint emoteID map = none := by
  cases hFound : EmoteMap.findEmote hint emoteID map with
  | none => rfl
  | some found =>
    obtain ⟨hEmote, hID⟩ := findEmote_eq_some hFound
    exact absurd hID (Seventv.findEmote_eq_none hNone (h _ _ hEmote))

theorem Contains.lookup_eq_none (h : Contains emotes map) {hint emoteID name : QString} {emote : Emote ImageSet}
    (hNone : EmoteMap.findEmote hint emoteID map = none) (hEmote : emotes.lookup name = some emote)
    (hID : emote.id = emoteID) : map.lookup name = none := by
  cases hMap : map.lookup name with
  | none => rfl
  | some other =>
    have hSame := h name other hMap
    rw [hEmote] at hSame
    obtain rfl := Option.some.inj hSame
    exact absurd hID (Seventv.findEmote_eq_none hNone hMap)

theorem Contains.emoteAdded_iff (h : Contains emotes map) (added : EmoteAddDispatch F) :
    Contains (updatePersonal reading emotes (.emoteAdded added)) (updatePersonal reading map (.emoteAdded added)) ↔
      Meets reading emotes map (.emoteAdded added) := by
  simp only [updatePersonal, Meets, addEmote]
  cases hAdded : addedEmote reading .Personal added with
  | none =>
    rw [ite_self, ite_self]
    refine iff_of_true h ?_
    rintro _ ⟨⟩
  | some emote =>
    rw [← addedEmote_name hAdded]
    cases hMap : map.lookup emote.name with
    | some known =>
      rw [h _ _ hMap, Option.isSome_some, if_pos rfl, if_pos rfl]
      refine iff_of_true h fun other hOther hNone => ?_
      obtain rfl := Option.some.inj hOther
      rw [hMap] at hNone
      cases hNone
    | none =>
      rw [Option.isSome_none, if_neg Bool.false_ne_true]
      cases hEmotes : emotes.lookup emote.name with
      | none =>
        rw [Option.isSome_none, if_neg Bool.false_ne_true]
        refine iff_of_true (h.insert _ _) fun other hOther _ => ?_
        obtain rfl := Option.some.inj hOther
        rw [hEmotes]
        rintro _ ⟨⟩
      | some present =>
        rw [Option.isSome_some, if_pos rfl]
        refine (h.insert_right_iff _ _).trans ?_
        rw [hEmotes]
        constructor
        · intro hSame other hOther _ found hFound
          obtain rfl := Option.some.inj hOther
          rw [hEmotes] at hFound
          exact (Option.some.inj hFound).symm.trans (Option.some.inj hSame)
        · intro hMeets
          rw [hMeets emote rfl hMap present hEmotes]

theorem Contains.replace_left_iff (h : Contains emotes map) {update : EmoteUpdateDispatch} {old : Emote ImageSet}
    (hNone : EmoteMap.findEmote update.emoteName update.emoteID map = none) (hID : old.id = update.emoteID) :
    Contains ((emotes.erase old.name).insert update.emoteName (createUpdatedEmote old update)) map ↔
      map.lookup update.emoteName = none ∧ map.lookup old.name = none := by
  constructor
  · intro hContains
    have hNew : map.lookup update.emoteName = none :=
      hContains.lookup_eq_none hNone (AList.lookup_insert (emotes.erase old.name)) hID
    refine ⟨hNew, ?_⟩
    cases hOld : map.lookup old.name with
    | none => rfl
    | some other =>
      have hOther := hContains old.name other hOld
      have hNe : old.name ≠ update.emoteName := by
        intro hEq
        rw [hEq, hNew] at hOld
        cases hOld
      rw [AList.lookup_insert_ne hNe, AList.lookup_erase] at hOther
      cases hOther
  · rintro ⟨hNew, hOld⟩ name emote hEmote
    have hNeNew : name ≠ update.emoteName := by
      rintro rfl
      rw [hNew] at hEmote
      cases hEmote
    have hNeOld : name ≠ old.name := by
      rintro rfl
      rw [hOld] at hEmote
      cases hEmote
    rw [AList.lookup_insert_ne hNeNew, AList.lookup_erase_ne hNeOld]
    exact h name emote hEmote

theorem Contains.replace_iff (h : Contains emotes map) {update : EmoteUpdateDispatch} {old known : Emote ImageSet} :
    Contains ((emotes.erase old.name).insert update.emoteName (createUpdatedEmote old update))
        ((map.erase known.name).insert update.emoteName (createUpdatedEmote known update)) ↔
      createUpdatedEmote old update = createUpdatedEmote known update ∧
        (old.name = known.name ∨ old.name = update.emoteName ∨ map.lookup old.name = none) := by
  constructor
  · intro hContains
    have hNew := hContains update.emoteName _ (AList.lookup_insert (map.erase known.name))
    rw [AList.lookup_insert] at hNew
    refine ⟨Option.some.inj hNew, ?_⟩
    by_contra hNot
    rw [not_or, not_or] at hNot
    obtain ⟨hKnown, hName, hSome⟩ := hNot
    obtain ⟨other, hOther⟩ := Option.ne_none_iff_exists'.mp hSome
    have hLost := hContains old.name other (by
      rw [AList.lookup_insert_ne hName, AList.lookup_erase_ne hKnown, hOther])
    rw [AList.lookup_insert_ne hName, AList.lookup_erase] at hLost
    cases hLost
  · rintro ⟨hSame, hNames⟩ name emote hEmote
    by_cases hNew : name = update.emoteName
    · rw [hNew, AList.lookup_insert] at hEmote ⊢
      rw [hSame, hEmote]
    · rw [AList.lookup_insert_ne hNew] at hEmote ⊢
      have hKnown : name ≠ known.name := by
        rintro rfl
        rw [AList.lookup_erase] at hEmote
        cases hEmote
      rw [AList.lookup_erase_ne hKnown] at hEmote
      have hOld : name ≠ old.name := by
        rintro rfl
        rcases hNames with hName | hName | hName
        · exact hKnown hName
        · exact hNew hName
        · rw [hName] at hEmote
          cases hEmote
      rw [AList.lookup_erase_ne hOld]
      exact h name emote hEmote

theorem Contains.emoteUpdated_iff (h : Contains emotes map) (update : EmoteUpdateDispatch) :
    Contains (updatePersonal reading emotes (.emoteUpdated update)) (updatePersonal reading map (.emoteUpdated update)) ↔
      Meets reading emotes map (.emoteUpdated update) := by
  simp only [updatePersonal, handle, Meets, updateEmote]
  cases hFound : EmoteMap.findEmote update.emoteName update.emoteID emotes with
  | none =>
    rw [h.findEmote_eq_none hFound]
    refine iff_of_true h ?_
    rintro _ ⟨⟩
  | some found =>
    have hID := (findEmote_eq_some hFound).2
    cases hKnown : EmoteMap.findEmote update.emoteName update.emoteID map with
    | none =>
      refine (h.replace_left_iff hKnown hID).trans ⟨fun hNone other hOther => ?_, fun hAll => hAll found rfl⟩
      obtain rfl := Option.some.inj hOther
      exact hNone
    | some known =>
      refine h.replace_iff.trans ⟨fun hSame other hOther => ?_, fun hAll => hAll found rfl⟩
      obtain rfl := Option.some.inj hOther
      exact hSame

theorem Contains.emoteRemoved_iff (h : Contains emotes map) (removed : EmoteRemoveDispatch) :
    Contains (updatePersonal reading emotes (.emoteRemoved removed)) (updatePersonal reading map (.emoteRemoved removed)) ↔
      Meets reading emotes map (.emoteRemoved removed) := by
  simp only [updatePersonal, handle, Meets, removeEmote]
  cases hFound : EmoteMap.findEmote removed.emoteName removed.emoteID emotes with
  | none =>
    rw [h.findEmote_eq_none hFound]
    refine iff_of_true h ?_
    rintro _ ⟨⟩
  | some found =>
    obtain ⟨hEmote, hID⟩ := findEmote_eq_some hFound
    cases hKnown : EmoteMap.findEmote removed.emoteName removed.emoteID map with
    | none =>
      refine iff_of_true ?_ (fun _ _ => by rintro _ ⟨⟩)
      intro name emote hMap
      have hNe : name ≠ found.1 := by
        rintro rfl
        rw [h.lookup_eq_none hKnown hEmote hID] at hMap
        cases hMap
      dsimp only
      rw [AList.lookup_erase_ne hNe]
      exact h name emote hMap
    | some known =>
      constructor
      · intro hContains other hOther other' hOther'
        obtain rfl := Option.some.inj hOther
        obtain rfl := Option.some.inj hOther'
        by_cases hName : found.1 = known.1
        · exact .inl hName
        · refine .inr ?_
          cases hMap : map.lookup found.1 with
          | none => rfl
          | some emote =>
            have hLost := hContains found.1 emote ((AList.lookup_erase_ne hName).trans hMap)
            dsimp only at hLost
            rw [AList.lookup_erase] at hLost
            cases hLost
      · intro hMeets name emote hMap
        dsimp only at hMap ⊢
        have hKnownName : name ≠ known.1 := by
          rintro rfl
          rw [AList.lookup_erase] at hMap
          cases hMap
        rw [AList.lookup_erase_ne hKnownName] at hMap
        have hName : name ≠ found.1 := by
          rintro rfl
          rcases hMeets found rfl known rfl with hSame | hNone
          · exact hKnownName hSame
          · rw [hNone] at hMap
            cases hMap
        rw [AList.lookup_erase_ne hName]
        exact h name emote hMap

theorem Contains.updatePersonal_iff (h : Contains emotes map) (signal : EmoteSignal F) :
    Contains (updatePersonal reading emotes signal) (updatePersonal reading map signal) ↔
      Meets reading emotes map signal := by
  cases signal with
  | emoteAdded added => exact h.emoteAdded_iff added
  | emoteUpdated update => exact h.emoteUpdated_iff update
  | emoteRemoved removed => exact h.emoteRemoved_iff removed

end

variable {reading} {state}

@[simp] theorem personalEmotes_arrived (id : QString) : (state.arrived id).personalEmotes = state.personalEmotes := by
  unfold arrived
  split_ifs <;> rfl

@[simp] theorem fetched_arrived (id : QString) : (state.arrived id).fetched = state.fetched := by
  unfold arrived
  split_ifs <;> rfl

@[simp] theorem added_arrived (id : QString) :
    (state.arrived id).personalEmoteSetAdded = state.personalEmoteSetAdded := by
  unfold arrived
  split_ifs <;> rfl

def flushed (state : PersonalEmoteState ImageSet) (client : Nat) (id : QString) : List (PersonalEmoteSetAdded ImageSet) :=
  ((state.lastPersonalEmoteAssignment_ client).filter fun last => last.emoteSetID = id).toList.flatMap fun last =>
    (state.personalEmotes.getEmoteSetByID id).toList.map fun set => ⟨last.userName, id, set⟩

theorem flush_eq (client : Nat) (id : QString) :
    state.flushLastPersonalEmoteAssignment client id = { state with
      lastPersonalEmoteAssignment_ := Function.update state.lastPersonalEmoteAssignment_ client none
      personalEmoteSetAdded := state.personalEmoteSetAdded ++ state.flushed client id } := by
  unfold flushLastPersonalEmoteAssignment flushed
  cases hLast : state.lastPersonalEmoteAssignment_ client with
  | none =>
    have hSame : Function.update state.lastPersonalEmoteAssignment_ client none =
        state.lastPersonalEmoteAssignment_ := by rw [← hLast, Function.update_eq_self]
    simp [hSame]
  | some last =>
    by_cases hID : last.emoteSetID = id
    · simp [hID, Option.filter_some]
    · simp [hID, Option.filter_some]

theorem exists_mem_flushed_iff {client : Nat} {id userName : QString} (hEmotes : state.personalEmotes.HasEmotes id) :
    (∃ added ∈ state.flushed client id, added.userName = userName ∧ added.emoteSetID = id ∧
      added.emoteSet.isEmpty = false) ↔
      state.personalEmotes.enabled_ ∧ state.lastPersonalEmoteAssignment_ client = some ⟨userName, id⟩ := by
  obtain ⟨map, hMap, hNotEmpty⟩ := hEmotes
  unfold flushed SeventvPersonalEmotes.getEmoteSetByID
  constructor
  · rintro ⟨added, hAdded, hName, -, -⟩
    obtain ⟨last, hLast, hIn⟩ := List.mem_flatMap.mp hAdded
    rw [Option.mem_toList, Option.filter_eq_some_iff] at hLast
    obtain ⟨set, hSet, rfl⟩ := List.mem_map.mp hIn
    have hID : last.emoteSetID = id := of_decide_eq_true hLast.2
    refine ⟨?_, ?_⟩
    · by_contra hOff
      rw [if_pos (by simpa using hOff), Option.toList_none] at hSet
      cases hSet
    · rw [hLast.1, ← hName, ← hID]
  · rintro ⟨hOn, hLast⟩
    refine ⟨⟨userName, id, map⟩, List.mem_flatMap.mpr ⟨⟨userName, id⟩, ?_, ?_⟩, rfl, rfl, hNotEmpty⟩
    · rw [hLast, Option.mem_toList, Option.filter_eq_some_iff]
      exact ⟨rfl, decide_eq_true rfl⟩
    · rw [if_neg (by simpa using hOn), hMap]
      exact List.mem_singleton_self _

theorem onEntitlementCreate_spec (client : Nat) (entitlement : EntitlementCreateDeleteDispatch) :
    let after := state.onEntitlementCreate client entitlement
    (after.personalEmotes = state.personalEmotes ∨ after.personalEmotes =
      (state.personalEmotes.assignUserToEmoteSet entitlement.refID entitlement.userID).1) ∧
      after.fetched = state.fetched ∧ after.waiting = state.waiting ∧ after.due = state.due ∧
        ∃ more, after.personalEmoteSetAdded = state.personalEmoteSetAdded ++ more := by
  have hNone : state.personalEmoteSetAdded = state.personalEmoteSetAdded ++ [] := (List.append_nil _).symm
  unfold onEntitlementCreate
  cases entitlement.kind with
  | Badge | Paint | INVALID => exact ⟨.inl rfl, rfl, rfl, rfl, [], hNone⟩
  | EmoteSet =>
    dsimp only
    cases (state.personalEmotes.assignUserToEmoteSet entitlement.refID entitlement.userID).2 with
    | none => exact ⟨.inr rfl, rfl, rfl, rfl, [], hNone⟩
    | some set =>
      dsimp only
      split_ifs
      · exact ⟨.inr rfl, rfl, rfl, rfl, [], hNone⟩
      · exact ⟨.inr rfl, rfl, rfl, rfl, _, rfl⟩

theorem assigned_eq (entitlement : EntitlementCreateDeleteDispatch) :
    ∃ more, state.assigned entitlement = { state with waiting := state.waiting ++ more } ∧
      ∀ assignment ∈ more, assignment.since = state.personalEmoteSetAdded.length := by
  unfold assigned
  split_ifs
  · exact ⟨_, rfl, fun assignment hMem => by rw [List.mem_singleton.mp hMem]⟩
  · exact ⟨[], by rw [List.append_nil], fun assignment hMem => absurd hMem List.not_mem_nil⟩

theorem emoteSets_assignUserToEmoteSet (emotes : SeventvPersonalEmotes ImageSet) (emoteSetID userID : QString) :
    (emotes.assignUserToEmoteSet emoteSetID userID).1.emoteSets_ = emotes.emoteSets_ := by
  unfold SeventvPersonalEmotes.assignUserToEmoteSet
  split_ifs <;> rfl

theorem userEmoteSets_emplace (emotes : SeventvPersonalEmotes ImageSet) (id : QString) (map : EmoteMap ImageSet) :
    (emotes.emplace id map).userEmoteSets_ = emotes.userEmoteSets_ := by
  unfold SeventvPersonalEmotes.emplace
  split_ifs <;> rfl

theorem nodup_append_iff {emotes : SeventvPersonalEmotes ImageSet} (h : ∀ userID, (emotes.userEmoteSets_ userID).Nodup)
    (userID emoteSetID : QString) :
    (∀ other, ((emotes.append userID emoteSetID).userEmoteSets_ other).Nodup) ↔
      emoteSetID ∉ emotes.userEmoteSets_ userID := by
  have hConcat : (emotes.userEmoteSets_ userID ++ [emoteSetID]).Nodup ↔ emoteSetID ∉ emotes.userEmoteSets_ userID := by
    rw [← List.concat_eq_append, List.nodup_concat, and_iff_left (h userID)]
  unfold SeventvPersonalEmotes.append
  constructor
  · intro hAll
    have hUser := hAll userID
    dsimp only at hUser
    rw [Function.update_self] at hUser
    exact hConcat.mp hUser
  · intro hNot other
    dsimp only
    by_cases hOther : other = userID
    · rw [hOther, Function.update_self]
      exact hConcat.mpr hNot
    · rw [Function.update_of_ne hOther]
      exact h other

theorem nodup_assignUserToEmoteSet {emotes : SeventvPersonalEmotes ImageSet}
    (h : ∀ userID, (emotes.userEmoteSets_ userID).Nodup) (emoteSetID userID other : QString) :
    ((emotes.assignUserToEmoteSet emoteSetID userID).1.userEmoteSets_ other).Nodup := by
  unfold SeventvPersonalEmotes.assignUserToEmoteSet
  split_ifs with hMem
  · exact h other
  · exact (nodup_append_iff h userID emoteSetID).mpr hMem other

theorem assignedOnce_step_iff (h : ∀ userID, (state.personalEmotes.userEmoteSets_ userID).Nodup)
    (event : PersonalEmoteEvent F) :
    (∀ userID, ((state.step reading event).personalEmotes.userEmoteSets_ userID).Nodup) ↔ state.AssignsOnce event := by
  cases event with
  | emoteSetCreate dispatch =>
    refine iff_of_true (fun userID => ?_) trivial
    simp only [step, onEmoteSetCreate, SeventvPersonalEmotes.createEmoteSet]
    split_ifs
    · rw [userEmoteSets_emplace]
      exact h userID
    · exact h userID
  | entitlementCreate client entitlement =>
    refine iff_of_true (fun userID => ?_) trivial
    simp only [step]
    split_ifs
    · obtain ⟨more, hAssigned, -⟩ := @assigned_eq _ state entitlement
      rw [hAssigned]
      rcases (onEntitlementCreate_spec client entitlement).1 with hSame | hNew
      · rw [hSame]
        exact h userID
      · rw [hNew]
        exact nodup_assignUserToEmoteSet h _ _ userID
    · exact h userID
  | emoteSetUpdate signal =>
    refine iff_of_true (fun userID => ?_) trivial
    simp only [step, SeventvPersonalEmotes.updateEmoteSet]
    split <;> exact h userID
  | emoteSetUpdated client id =>
    refine iff_of_true (fun userID => ?_) trivial
    simp only [step]
    rw [personalEmotes_arrived, flush_eq]
    exact h userID
  | fetched emoteSetID kind emotes userTwitchID =>
    have hSets := userEmoteSets_emplace state.personalEmotes emoteSetID (parseEmotes reading emotes kind)
    have hAppend := nodup_append_iff (fun userID => hSets ▸ h userID) userTwitchID emoteSetID
    rw [hSets] at hAppend
    simp only [step]
    split_ifs
    · rw [personalEmotes_arrived]
      exact hAppend
    · exact hAppend

theorem emoteSets_emplace_of_some {emotes : SeventvPersonalEmotes ImageSet} {id : QString} {map : EmoteMap ImageSet}
    (h : emotes.emoteSets_ id = some map) (other : QString) (others : EmoteMap ImageSet) :
    (emotes.emplace other others).emoteSets_ id = some map := by
  unfold SeventvPersonalEmotes.emplace
  split_ifs with hThere
  · exact h
  · have hNe : id ≠ other := by
      rintro rfl
      exact hThere (by rw [h]; rfl)
    dsimp only
    rw [Function.update_of_ne hNe, h]

theorem emoteSets_emplace_of_none {emotes : SeventvPersonalEmotes ImageSet} {id : QString}
    (h : emotes.emoteSets_ id = none) (map : EmoteMap ImageSet) : (emotes.emplace id map).emoteSets_ id = some map := by
  unfold SeventvPersonalEmotes.emplace
  rw [if_neg (by rw [h]; exact Bool.false_ne_true)]
  dsimp only
  rw [Function.update_self]

theorem emoteSets_updateEmoteSet (emotes : SeventvPersonalEmotes ImageSet) (signal : EmoteSignal F) (id : QString) :
    (emotes.updateEmoteSet reading signal).emoteSets_ id =
      if id = signal.emoteSetID then (emotes.emoteSets_ id).map fun map => updatePersonal reading map signal
      else emotes.emoteSets_ id := by
  unfold SeventvPersonalEmotes.updateEmoteSet
  split_ifs with hID
  · rw [hID]
    cases hSet : emotes.emoteSets_ signal.emoteSetID with
    | none => exact hSet
    | some map => exact Function.update_self signal.emoteSetID _ _
  · cases emotes.emoteSets_ signal.emoteSetID with
    | none => rfl
    | some map => exact Function.update_of_ne hID _ _

def HasFetched (emotes : SeventvPersonalEmotes ImageSet) (entry : QString × EmoteMap ImageSet) : Prop :=
  ∃ map ∈ emotes.emoteSets_ entry.1, Contains map entry.2

theorem HasFetched.emplace {emotes : SeventvPersonalEmotes ImageSet} {entry : QString × EmoteMap ImageSet}
    (h : HasFetched emotes entry) (id : QString) (map : EmoteMap ImageSet) : HasFetched (emotes.emplace id map) entry := by
  obtain ⟨set, hSet, hContains⟩ := h
  exact ⟨set, emoteSets_emplace_of_some hSet id map, hContains⟩

theorem hasFetched_emplace_iff (emotes : SeventvPersonalEmotes ImageSet) (id : QString) (map : EmoteMap ImageSet) :
    HasFetched (emotes.emplace id map) (id, map) ↔ ∀ set ∈ emotes.emoteSets_ id, Contains set map := by
  cases hSet : emotes.emoteSets_ id with
  | none =>
    refine iff_of_true ⟨map, emoteSets_emplace_of_none hSet map, Contains.refl map⟩ ?_
    rintro _ ⟨⟩
  | some set =>
    unfold HasFetched
    rw [emoteSets_emplace_of_some hSet]
    simp only [Option.mem_def, Option.some.injEq, exists_eq_left', forall_eq']

theorem hasFetched_update_iff {emotes : SeventvPersonalEmotes ImageSet} {entry : QString × EmoteMap ImageSet}
    (h : HasFetched emotes entry) (signal : EmoteSignal F) :
    HasFetched (emotes.updateEmoteSet reading signal)
        (if entry.1 = signal.emoteSetID then (entry.1, updatePersonal reading entry.2 signal) else entry) ↔
      (entry.1 = signal.emoteSetID → ∀ set ∈ emotes.emoteSets_ entry.1, Meets reading set entry.2 signal) := by
  obtain ⟨set, hSet, hContains⟩ := h
  unfold HasFetched
  split_ifs with hID
  · rw [emoteSets_updateEmoteSet, if_pos hID, hSet]
    simp only [Option.map_some, Option.mem_def, Option.some.injEq, exists_eq_left', forall_eq', hID, true_implies]
    exact hContains.updatePersonal_iff signal
  · rw [emoteSets_updateEmoteSet, if_neg hID]
    exact iff_of_true ⟨set, hSet, hContains⟩ fun hEq => absurd hEq hID

theorem contained_step_iff (h : ∀ entry ∈ state.fetched, HasFetched state.personalEmotes entry)
    (event : PersonalEmoteEvent F) :
    (∀ entry ∈ (state.step reading event).fetched, HasFetched (state.step reading event).personalEmotes entry) ↔
      state.KeepsFetched reading event := by
  cases event with
  | emoteSetCreate dispatch =>
    refine iff_of_true ?_ trivial
    simp only [step, onEmoteSetCreate]
    split_ifs
    · exact fun entry hEntry => (h entry hEntry).emplace _ _
    · exact h
  | entitlementCreate client entitlement =>
    refine iff_of_true ?_ trivial
    simp only [step]
    split_ifs
    · obtain ⟨more, hAssigned, -⟩ := @assigned_eq _ state entitlement
      rw [hAssigned]
      obtain ⟨hEmotes, hFetched, -⟩ := onEntitlementCreate_spec client entitlement
      rw [hFetched]
      rcases hEmotes with hSame | hNew
      · rw [hSame]
        exact h
      · rw [hNew]
        unfold HasFetched
        rw [emoteSets_assignUserToEmoteSet]
        exact h
    · exact h
  | emoteSetUpdate signal =>
    simp only [step, KeepsFetched, List.forall_mem_map]
    exact forall₂_congr fun entry hEntry => hasFetched_update_iff (h entry hEntry) signal
  | emoteSetUpdated client id =>
    refine iff_of_true ?_ trivial
    simp only [step]
    rw [personalEmotes_arrived, fetched_arrived, flush_eq]
    exact h
  | fetched emoteSetID kind emotes userTwitchID =>
    have hAll : (∀ entry ∈ state.fetched ++ [(emoteSetID, parseEmotes reading emotes kind)],
        HasFetched (state.personalEmotes.addEmoteSetForUser emoteSetID (parseEmotes reading emotes kind) userTwitchID)
          entry) ↔ state.KeepsFetched reading (.fetched emoteSetID kind emotes userTwitchID) := by
      rw [List.forall_mem_append, List.forall_mem_singleton, and_iff_right]
      · exact hasFetched_emplace_iff state.personalEmotes emoteSetID _
      · exact fun entry hEntry => (h entry hEntry).emplace _ _
    simp only [step]
    split_ifs
    · rw [personalEmotes_arrived, fetched_arrived]
      exact hAll
    · exact hAll

theorem Notified.append {assignment : Assignment} (h : state.Notified assignment) {after : PersonalEmoteState ImageSet}
    {more : List (PersonalEmoteSetAdded ImageSet)}
    (hAdded : after.personalEmoteSetAdded = state.personalEmoteSetAdded ++ more) : after.Notified assignment := by
  obtain ⟨added, hMem, hSame⟩ := h
  refine ⟨added, ?_, hSame⟩
  rw [hAdded, List.drop_append]
  exact List.mem_append_left _ hMem

theorem notified_append_iff {assignment : Assignment} {after : PersonalEmoteState ImageSet}
    {more : List (PersonalEmoteSetAdded ImageSet)}
    (hAdded : after.personalEmoteSetAdded = state.personalEmoteSetAdded ++ more)
    (hSince : assignment.since ≤ state.personalEmoteSetAdded.length) :
    after.Notified assignment ↔ state.Notified assignment ∨ ∃ added ∈ more,
      added.userName = assignment.userName ∧ added.emoteSetID = assignment.emoteSetID ∧ added.emoteSet.isEmpty = false := by
  unfold Notified
  rw [hAdded, List.drop_append_of_le_length hSince]
  simp only [List.mem_append, or_and_right, exists_or]

def WaitingSince (state : PersonalEmoteState ImageSet) : Prop :=
  ∀ assignment ∈ state.waiting, assignment.since ≤ state.personalEmoteSetAdded.length

theorem WaitingSince.arrived (h : state.WaitingSince) (id : QString) : (state.arrived id).WaitingSince := by
  unfold WaitingSince PersonalEmoteState.arrived
  split_ifs
  · exact fun assignment hMem => h assignment (List.mem_of_mem_filter hMem)
  · exact h

theorem WaitingSince.append (h : state.WaitingSince) {after : PersonalEmoteState ImageSet}
    {more : List (PersonalEmoteSetAdded ImageSet)} (hWaiting : after.waiting = state.waiting)
    (hAdded : after.personalEmoteSetAdded = state.personalEmoteSetAdded ++ more) : after.WaitingSince := by
  intro assignment hMem
  rw [hWaiting] at hMem
  rw [hAdded, List.length_append]
  exact Nat.le_add_right_of_le (h assignment hMem)

theorem WaitingSince.assigned (h : state.WaitingSince) (entitlement : EntitlementCreateDeleteDispatch) :
    (state.assigned entitlement).WaitingSince := by
  obtain ⟨more, hAssigned, hSince⟩ := @assigned_eq _ state entitlement
  rw [hAssigned]
  intro assignment hMem
  rcases List.mem_append.mp hMem with hOld | hNew
  · exact h assignment hOld
  · exact Nat.le_of_eq (hSince assignment hNew)

theorem WaitingSince.step (h : state.WaitingSince) (event : PersonalEmoteEvent F) :
    (state.step reading event).WaitingSince := by
  cases event with
  | emoteSetCreate dispatch =>
    simp only [PersonalEmoteState.step, onEmoteSetCreate]
    split_ifs <;> exact h
  | entitlementCreate client entitlement =>
    simp only [PersonalEmoteState.step]
    split_ifs
    · obtain ⟨-, -, hWaiting, -, more, hAdded⟩ := @onEntitlementCreate_spec _ (state.assigned entitlement) client entitlement
      exact (h.assigned entitlement).append hWaiting hAdded
    · exact h
  | emoteSetUpdate signal => exact h
  | emoteSetUpdated client id =>
    simp only [PersonalEmoteState.step, flush_eq]
    apply WaitingSince.arrived
    exact h.append rfl rfl
  | fetched emoteSetID kind emotes userTwitchID =>
    simp only [PersonalEmoteState.step]
    split_ifs
    · apply WaitingSince.arrived
      exact h
    · exact h

theorem notified_arrived_iff (h : ∀ assignment ∈ state.due, state.Notified assignment) (id : QString) :
    (∀ assignment ∈ (state.arrived id).due, (state.arrived id).Notified assignment) ↔
      (state.personalEmotes.HasEmotes id → ∀ assignment ∈ state.waiting, assignment.emoteSetID = id →
        state.Notified assignment) := by
  have hSame : ∀ assignment, (state.arrived id).Notified assignment ↔ state.Notified assignment := by
    intro assignment
    unfold Notified
    rw [added_arrived]
  simp only [hSame]
  unfold PersonalEmoteState.arrived
  split_ifs with hEmotes
  · rw [List.forall_mem_append, and_iff_right h]
    simp only [List.mem_filter, decide_eq_true_eq, and_imp, hEmotes, true_implies]
  · exact iff_of_true h fun hHas => absurd hHas hEmotes

theorem hasEmotes_addEmoteSetForUser_iff {emotes : SeventvPersonalEmotes ImageSet} {emoteSetID : QString}
    (h : emotes.emoteSets_ emoteSetID = none) (map : EmoteMap ImageSet) (userTwitchID : QString) :
    (emotes.addEmoteSetForUser emoteSetID map userTwitchID).HasEmotes emoteSetID ↔ map.isEmpty = false := by
  have hSet : (emotes.addEmoteSetForUser emoteSetID map userTwitchID).emoteSets_ emoteSetID = some map :=
    emoteSets_emplace_of_none h map
  unfold SeventvPersonalEmotes.HasEmotes
  rw [hSet]
  simp only [Option.mem_def, Option.some.injEq, exists_eq_left']

theorem notified_step_iff (hSince : state.WaitingSince) (h : ∀ assignment ∈ state.due, state.Notified assignment)
    (event : PersonalEmoteEvent F) :
    (∀ assignment ∈ (state.step reading event).due, (state.step reading event).Notified assignment) ↔
      state.NotifiesWaiting reading event := by
  cases event with
  | emoteSetCreate dispatch =>
    refine iff_of_true ?_ trivial
    simp only [step, onEmoteSetCreate]
    split_ifs <;> exact h
  | entitlementCreate client entitlement =>
    refine iff_of_true ?_ trivial
    simp only [step]
    split_ifs
    · obtain ⟨-, -, -, hDue, more, hAdded⟩ := @onEntitlementCreate_spec _ (state.assigned entitlement) client entitlement
      obtain ⟨waiting, hAssigned, -⟩ := @assigned_eq _ state entitlement
      rw [hAssigned] at hDue hAdded ⊢
      rw [hDue]
      exact fun assignment hMem => (h assignment hMem).append hAdded
    · exact h
  | emoteSetUpdate signal => exact iff_of_true h trivial
  | emoteSetUpdated client id =>
    simp only [step, flush_eq]
    have hKept : ∀ assignment ∈ state.due, Notified { state with
        lastPersonalEmoteAssignment_ := Function.update state.lastPersonalEmoteAssignment_ client none
        personalEmoteSetAdded := state.personalEmoteSetAdded ++ state.flushed client id } assignment :=
      fun assignment hMem => (h assignment hMem).append rfl
    refine (notified_arrived_iff hKept id).trans ?_
    refine forall_congr' fun hEmotes => forall₂_congr fun assignment hMem => forall_congr' fun hID => ?_
    refine (notified_append_iff rfl (hSince assignment hMem)).trans (or_congr_right ?_)
    rw [hID]
    exact exists_mem_flushed_iff hEmotes
  | fetched emoteSetID kind emotes userTwitchID =>
    simp only [step, NotifiesWaiting]
    split_ifs with hNew
    · rw [Option.isNone_iff_eq_none] at hNew
      rw [notified_arrived_iff (by exact h)]
      dsimp only
      rw [hasEmotes_addEmoteSetForUser_iff hNew]
      exact ⟨fun hAll _ => hAll, fun hAll => hAll hNew⟩
    · exact iff_of_true h fun hNone => absurd (Option.isNone_iff_eq_none.mpr hNone) hNew

theorem orderIndependent_step_iff (hSince : state.WaitingSince) (h : state.OrderIndependent)
    (event : PersonalEmoteEvent F) : (state.step reading event).OrderIndependent ↔
      state.AssignsOnce event ∧ state.KeepsFetched reading event ∧ state.NotifiesWaiting reading event := by
  have hOnce := @assignedOnce_step_iff _ _ reading _ h.assignedOnce event
  have hContained := @contained_step_iff _ _ reading _ h.contained event
  have hNotified := @notified_step_iff _ _ reading _ hSince h.notified event
  constructor
  · exact fun hAfter => ⟨hOnce.mp hAfter.assignedOnce, hContained.mp hAfter.contained, hNotified.mp hAfter.notified⟩
  · rintro ⟨hAssigns, hKeeps, hNotifies⟩
    exact ⟨hOnce.mpr hAssigns, hContained.mpr hKeeps, hNotified.mpr hNotifies⟩

/-- Every state of a run is as if the order of the events did not matter, exactly if no event gets in the way of a
fetched set or of a user who waits. -/
theorem orderIndependent_iff (reading : EmoteReading F ImageSet) (enabled : Bool) (events : List (PersonalEmoteEvent F)) :
    (∀ reached, reached <+: events → (reached.foldl (step reading) (create enabled)).OrderIndependent) ↔
      AllSteps (step reading) (fun state event =>
        state.AssignsOnce event ∧ state.KeepsFetched reading event ∧ state.NotifiesWaiting reading event)
        (create enabled) events := by
  have hStart : (create enabled : PersonalEmoteState ImageSet).WaitingSince := by
    intro assignment hMem
    cases hMem
  have hSide : AllSteps (step reading) (fun state _ => state.WaitingSince) (create enabled) events :=
    AllSteps.of_invariant hStart fun state event h => h.step event
  refine AllSteps.forall_reached_iff hSide _ ?_ fun state event h hSide => orderIndependent_step_iff hSide h event
  refine ⟨fun userID => List.nodup_nil, fun entry hMem => ?_, fun assignment hMem => ?_⟩
  · cases hMem
  · cases hMem

/-- The own account's set is assigned by an entitlement before its emotes are fetched. -/
theorem not_orderIndependent_fetched_later :
    ¬∀ (reading : EmoteReading Unit Unit) (events : List (PersonalEmoteEvent Unit)),
      (events.foldl (step reading) (create true)).OrderIndependent := by
  intro hAll
  have hOnce := (hAll ⟨fun _ => 0, fun _ => (), fun _ => false, false⟩
    [.entitlementCreate 0 ⟨lit "s", .EmoteSet, lit "1", lit "forsen"⟩,
      .fetched (lit "s") .Personal [] (lit "1")]).assignedOnce (lit "1")
  exact absurd hOnce (by decide)

end PersonalEmoteState

end Chatterino.Seventv
