import Chatterino.Lib.Run
import Chatterino.Lib.ScannedSet
import Chatterino.Qt.QString
import Mathlib.Data.Finset.Erase
import Mathlib.Data.Finset.Insert
import Mathlib.Data.List.AList

/-! # 7TV topics of the open channels

A channel that learns its 7TV ids subscribes to them, and lets go of the ids it had unless another channel has
them. Where the ids are learned outside of the GUI thread, this is left to an update that is posted to it.
-/

namespace Chatterino.Seventv

open Lib QString

structure SeventvIDs where
  seventvUserID_ : QString := []
  seventvEmoteSetID_ : QString := []
deriving DecidableEq

structure PostedUpdate where
  channel : Nat
  oldUserID : Option QString
  oldEmoteSetID : Option QString

structure SeventvTopics where
  channels : AList fun _ : Nat => SeventvIDs := ∅
  subscribedUsers : Finset QString := ∅
  subscribedEmoteSets : Finset QString := ∅
  posted : List PostedUpdate := []

inductive TopicEvent where
  | create (channel : Nat)
  | updateSeventvData (channel : Nat) (newUserID newEmoteSetID : QString) (inGuiThread : Bool)
  | runPosted
  | destroy (channel : Nat)
deriving DecidableEq

namespace SeventvTopics

def subscribeUser (userID emoteSetID : QString) (topics : SeventvTopics) : SeventvTopics :=
  { topics with
    subscribedUsers := if userID.isEmpty then topics.subscribedUsers else insert userID topics.subscribedUsers
    subscribedEmoteSets :=
      if emoteSetID.isEmpty then topics.subscribedEmoteSets else insert emoteSetID topics.subscribedEmoteSets }

def dropSeventvChannel (userID emoteSetID : QString) (topics : SeventvTopics) : SeventvTopics :=
  -- empty values count as found
  let foundUser := userID.isEmpty || topics.channels.entries.any fun chan => chan.2.seventvUserID_ = userID
  let foundSet := emoteSetID.isEmpty || topics.channels.entries.any fun chan => chan.2.seventvEmoteSetID_ = emoteSetID
  { topics with
    subscribedUsers := if foundUser then topics.subscribedUsers else topics.subscribedUsers.erase userID
    subscribedEmoteSets := if foundSet then topics.subscribedEmoteSets else topics.subscribedEmoteSets.erase emoteSetID }

/-- The function that updateSeventvData runs in the GUI thread, for a channel that is still alive then. -/
def updateSubscriptions (update : PostedUpdate) (topics : SeventvTopics) : SeventvTopics :=
  match topics.channels.lookup update.channel with
  | none => topics
  | some ids =>
    let subscribed := topics.subscribeUser ids.seventvUserID_ ids.seventvEmoteSetID_
    if update.oldUserID.isSome || update.oldEmoteSetID.isSome then
      subscribed.dropSeventvChannel (update.oldUserID.getD []) (update.oldEmoteSetID.getD [])
    else subscribed

def replacedID (id newID : QString) : Option QString := if !id.isEmpty && id != newID then some id else none

def updateSeventvData (channel : Nat) (newUserID newEmoteSetID : QString) (inGuiThread : Bool)
    (topics : SeventvTopics) : SeventvTopics :=
  match topics.channels.lookup channel with
  | none => topics
  | some ids =>
    if ids.seventvUserID_ = newUserID ∧ ids.seventvEmoteSetID_ = newEmoteSetID then topics
    else
      let update := ⟨channel, replacedID ids.seventvUserID_ newUserID, replacedID ids.seventvEmoteSetID_ newEmoteSetID⟩
      let changed := { topics with channels := topics.channels.insert channel ⟨newUserID, newEmoteSetID⟩ }
      if inGuiThread then changed.updateSubscriptions update
      else { changed with posted := topics.posted ++ [update] }

def runPosted (topics : SeventvTopics) : SeventvTopics :=
  match topics.posted with
  | [] => topics
  | update :: posted => updateSubscriptions update { topics with posted := posted }

def destroy (channel : Nat) (topics : SeventvTopics) : SeventvTopics :=
  match topics.channels.lookup channel with
  | none => topics
  | some ids =>
    dropSeventvChannel ids.seventvUserID_ ids.seventvEmoteSetID_
      { topics with channels := topics.channels.erase channel }

def step (topics : SeventvTopics) : TopicEvent → SeventvTopics
  | .create channel => { topics with channels := topics.channels.insert channel {} }
  | .updateSeventvData channel newUserID newEmoteSetID inGuiThread =>
    topics.updateSeventvData channel newUserID newEmoteSetID inGuiThread
  | .runPosted => topics.runPosted
  | .destroy channel => topics.destroy channel

def Occurs (topics : SeventvTopics) : TopicEvent → Prop
  | .create channel => channel ∉ topics.channels ∧ ∀ update ∈ topics.posted, update.channel ≠ channel
  | .destroy channel => ∀ update ∈ topics.posted, update.channel ≠ channel
  | _ => True

instance (topics : SeventvTopics) (event : TopicEvent) : Decidable (topics.Occurs event) := by
  cases event <;> unfold Occurs <;> infer_instance

structure Follows (topics : SeventvTopics) : Prop where
  users : ∀ id, id ∈ topics.subscribedUsers ↔
    id ≠ [] ∧ ∃ channel ids, topics.channels.lookup channel = some ids ∧ ids.seventvUserID_ = id
  emoteSets : ∀ id, id ∈ topics.subscribedEmoteSets ↔
    id ≠ [] ∧ ∃ channel ids, topics.channels.lookup channel = some ids ∧ ids.seventvEmoteSetID_ = id

end SeventvTopics

inductive TopicKind where
  | user | emoteSet

namespace TopicKind

def pick {α : Type} (user emoteSet : α) : TopicKind → α
  | .user => user
  | .emoteSet => emoteSet

end TopicKind

namespace SeventvTopics

variable {topics : SeventvTopics} {kind : TopicKind}

def subscribed (kind : TopicKind) (topics : SeventvTopics) : Finset QString :=
  kind.pick topics.subscribedUsers topics.subscribedEmoteSets

def idOf (kind : TopicKind) (ids : SeventvIDs) : QString := kind.pick ids.seventvUserID_ ids.seventvEmoteSetID_

def nonEmpty (id : QString) : Option QString := if id.isEmpty then none else some id

theorem nonEmpty_eq_some {id x : QString} : nonEmpty id = some x ↔ id ≠ [] ∧ id = x := by
  cases id with
  | nil => simp [nonEmpty]
  | cons c id => simp [nonEmpty]

def held (kind : TopicKind) (channels : AList fun _ : Nat => SeventvIDs) (channel : Nat) : Option QString :=
  (channels.lookup channel).bind fun ids => nonEmpty (idOf kind ids)

def waiting (kind : TopicKind) (posted : List PostedUpdate) : List (Nat × Option QString) :=
  posted.map fun update => (update.channel, (kind.pick update.oldUserID update.oldEmoteSetID).bind nonEmpty)

def Tracks (kind : TopicKind) (topics : SeventvTopics) : Prop :=
  ScannedSet (held kind topics.channels) (topics.subscribed kind : Set QString) (waiting kind topics.posted)

theorem held_eq_some {channels : AList fun _ : Nat => SeventvIDs} {channel : Nat} {x : QString} :
    held kind channels channel = some x ↔ ∃ ids, channels.lookup channel = some ids ∧ idOf kind ids ≠ [] ∧ idOf kind ids = x := by
  simp only [held, Option.bind_eq_some_iff, nonEmpty_eq_some]

theorem held_insert (channels : AList fun _ : Nat => SeventvIDs) (channel : Nat) (ids : SeventvIDs) :
    held kind (channels.insert channel ids) = Function.update (held kind channels) channel (nonEmpty (idOf kind ids)) := by
  funext other
  rw [Function.update_apply]
  split
  · rename_i hOther
    rw [held, hOther, AList.lookup_insert, Option.bind_some]
  · rename_i hOther
    rw [held, AList.lookup_insert_ne hOther, held]

theorem held_erase (channels : AList fun _ : Nat => SeventvIDs) (channel : Nat) :
    held kind (channels.erase channel) = Function.update (held kind channels) channel none := by
  funext other
  rw [Function.update_apply]
  split
  · rename_i hOther
    rw [held, hOther, AList.lookup_erase, Option.bind_none]
  · rename_i hOther
    rw [held, AList.lookup_erase_ne hOther, held]

theorem coe_subscribeUser (userID emoteSetID : QString) :
    ((topics.subscribeUser userID emoteSetID).subscribed kind : Set QString) =
      acquire (nonEmpty (kind.pick userID emoteSetID)) (topics.subscribed kind) := by
  have hInsert (id : QString) (s : Finset QString) :
      ((if id.isEmpty then s else insert id s : Finset QString) : Set QString) = acquire (nonEmpty id) s := by
    ext x
    cases id with
    | nil => simp [acquire, nonEmpty]
    | cons c id => simp [acquire, nonEmpty, or_comm, eq_comm]
  cases kind with
  | user => exact hInsert userID _
  | emoteSet => exact hInsert emoteSetID _

theorem coe_dropSeventvChannel (userID emoteSetID : QString) :
    ((topics.dropSeventvChannel userID emoteSetID).subscribed kind : Set QString) =
      release (held kind topics.channels) (nonEmpty (kind.pick userID emoteSetID)) (topics.subscribed kind) := by
  have hErase (id : QString) (s : Finset QString) (getID : SeventvIDs → QString) (hGet : idOf kind = getID) :
      ((if (id.isEmpty || topics.channels.entries.any fun chan => getID chan.2 = id) = true then s
        else s.erase id : Finset QString) : Set QString) =
        release (held kind topics.channels) (nonEmpty id) s := by
    have hFound : (topics.channels.entries.any fun chan => getID chan.2 = id) = true ↔
        ∃ channel ids, topics.channels.lookup channel = some ids ∧ idOf kind ids = id := by
      simp only [List.any_eq_true, Sigma.exists, hGet, decide_eq_true_eq]
      exact exists₂_congr fun channel ids => and_congr_left fun _ => AList.mem_lookup_iff.symm
    ext x
    cases id with
    | nil => simp [release, nonEmpty]
    | cons c id =>
      rw [List.isEmpty_cons, Bool.false_or]
      have hHeld : (∃ channel, held kind topics.channels channel = some (c :: id)) ↔
          ∃ channel ids, topics.channels.lookup channel = some ids ∧ idOf kind ids = c :: id := by
        simp only [held_eq_some]
        refine exists₂_congr fun channel ids => and_congr_right fun _ => and_iff_right_of_imp fun hID => ?_
        rw [hID]
        exact List.cons_ne_nil c id
      split
      · rename_i hAny
        have hSome := hHeld.mpr (hFound.mp hAny)
        simp only [release, Set.mem_ofPred_eq, nonEmpty]
        refine (and_iff_left_of_imp fun _ hSame => ?_).symm
        obtain rfl := (nonEmpty_eq_some.mp hSame).2
        exact hSome
      · rename_i hAny
        have hNone := mt hHeld.mp (mt hFound.mpr hAny)
        simp only [release, Set.mem_ofPred_eq, Finset.coe_erase, Set.mem_sdiff, Set.mem_singleton_iff, nonEmpty_eq_some]
        refine and_congr_right fun _ => ?_
        constructor
        · rintro hNe ⟨-, hSame⟩
          exact absurd hSame.symm hNe
        · rintro hHolds rfl
          exact hNone (hHolds ⟨List.cons_ne_nil c id, rfl⟩)
  cases kind with
  | user => exact hErase userID _ SeventvIDs.seventvUserID_ rfl
  | emoteSet => exact hErase emoteSetID _ SeventvIDs.seventvEmoteSetID_ rfl

end SeventvTopics

end Chatterino.Seventv

namespace Chatterino.Seventv.SeventvTopics

open Lib QString

variable {topics : SeventvTopics} {kind : TopicKind} {channels : AList fun _ : Nat => SeventvIDs}
  {channel : Nat} {ids : SeventvIDs}

theorem nonEmpty_getD (id : Option QString) : nonEmpty (id.getD []) = id.bind nonEmpty := by
  cases id with
  | none => rfl
  | some id => rfl

theorem release_none (holds : Nat → Option QString) (s : Set QString) : release holds none s = s := by
  ext x
  constructor
  · exact And.left
  · intro hMem
    refine ⟨hMem, ?_⟩
    rintro ⟨⟩

theorem held_of_lookup (hLookup : channels.lookup channel = some ids) :
    held kind channels channel = nonEmpty (idOf kind ids) := by
  rw [held, hLookup, Option.bind_some]

theorem coe_updateSubscriptions (update : PostedUpdate) (hLookup : topics.channels.lookup update.channel = some ids) :
    ((topics.updateSubscriptions update).subscribed kind : Set QString) =
      release (held kind topics.channels) ((kind.pick update.oldUserID update.oldEmoteSetID).bind nonEmpty)
        (acquire (held kind topics.channels update.channel) (topics.subscribed kind)) := by
  have hSubscribed : ((topics.subscribeUser ids.seventvUserID_ ids.seventvEmoteSetID_).subscribed kind : Set QString) =
      acquire (held kind topics.channels update.channel) (topics.subscribed kind) := by
    rw [coe_subscribeUser, held_of_lookup hLookup, idOf]
  have hPick : nonEmpty (kind.pick (update.oldUserID.getD []) (update.oldEmoteSetID.getD [])) =
      (kind.pick update.oldUserID update.oldEmoteSetID).bind nonEmpty := by
    cases kind with
    | user => exact nonEmpty_getD _
    | emoteSet => exact nonEmpty_getD _
  rw [updateSubscriptions, hLookup]
  dsimp only
  split
  · rw [coe_dropSeventvChannel, hSubscribed, hPick]
    rfl
  · rename_i hNone
    rw [Bool.or_eq_true, not_or, Option.not_isSome_iff_eq_none, Option.not_isSome_iff_eq_none] at hNone
    rw [hSubscribed, ← hPick, hNone.1, hNone.2]
    cases kind with
    | user => exact (release_none _ _).symm
    | emoteSet => exact (release_none _ _).symm

theorem updateSubscriptions_channels (topics : SeventvTopics) (update : PostedUpdate) :
    (topics.updateSubscriptions update).channels = topics.channels ∧
      (topics.updateSubscriptions update).posted = topics.posted := by
  rw [updateSubscriptions]
  split
  · exact ⟨rfl, rfl⟩
  · dsimp only
    split
    · exact ⟨rfl, rfl⟩
    · exact ⟨rfl, rfl⟩

theorem replacedID_bind {id newID x : QString} (hHeld : nonEmpty id = some x) (hNew : nonEmpty newID ≠ some x) :
    (replacedID id newID).bind nonEmpty = some x := by
  obtain ⟨hID, rfl⟩ := nonEmpty_eq_some.mp hHeld
  have hChanged : (!id.isEmpty && id != newID) = true := by
    rw [Bool.and_eq_true, Bool.not_eq_true', List.isEmpty_eq_false_iff, bne_iff_ne]
    refine ⟨hID, ?_⟩
    rintro rfl
    exact hNew hHeld
  rw [replacedID, if_pos hChanged, Option.bind_some, hHeld]

/-- The sets track the channels, and every update that waits is for a channel that is alive. -/
structure Sound (topics : SeventvTopics) : Prop where
  tracks : ∀ kind, topics.Tracks kind
  alive : ∀ update ∈ topics.posted, update.channel ∈ topics.channels

theorem Sound.create (h : topics.Sound) (hNew : channel ∉ topics.channels) :
    (topics.step (.create channel)).Sound where
  tracks kind := by
    have hHeld : held kind (topics.channels.insert channel {}) = held kind topics.channels := by
      have hNone : held kind topics.channels channel = nonEmpty (idOf kind {}) := by
        rw [held, AList.lookup_eq_none.mpr hNew, Option.bind_none]
        cases kind with
        | user => rfl
        | emoteSet => rfl
      rw [held_insert, ← hNone, Function.update_eq_self]
    rw [Tracks, step, hHeld]
    exact h.tracks kind
  alive update hUpdate := (AList.mem_insert _).mpr (Or.inr (h.alive update hUpdate))

theorem Sound.updateSeventvData (h : topics.Sound) (newUserID newEmoteSetID : QString) (inGuiThread : Bool) :
    (topics.updateSeventvData channel newUserID newEmoteSetID inGuiThread).Sound := by
  rw [SeventvTopics.updateSeventvData]
  split
  · exact h
  · rename_i ids hLookup
    dsimp only
    split
    · exact h
    · let newIDs : SeventvIDs := ⟨newUserID, newEmoteSetID⟩
      have hOld (kind : TopicKind) (x : QString) (hHeld : held kind topics.channels channel = some x)
          (hNew : nonEmpty (idOf kind newIDs) ≠ some x) :
          (kind.pick (replacedID ids.seventvUserID_ newUserID)
            (replacedID ids.seventvEmoteSetID_ newEmoteSetID)).bind nonEmpty = some x := by
        rw [held_of_lookup hLookup] at hHeld
        cases kind with
        | user | emoteSet => exact replacedID_bind hHeld hNew
      have hAlive (update : PostedUpdate) (hUpdate : update ∈ topics.posted) :
          update.channel ∈ topics.channels.insert channel newIDs :=
        (AList.mem_insert _).mpr (Or.inr (h.alive update hUpdate))
      split
      · obtain ⟨hChannels, hPosted⟩ := updateSubscriptions_channels
          { topics with channels := topics.channels.insert channel newIDs }
          ⟨channel, replacedID ids.seventvUserID_ newUserID, replacedID ids.seventvEmoteSetID_ newEmoteSetID⟩
        constructor
        · intro kind
          rw [Tracks, coe_updateSubscriptions _ (AList.lookup_insert topics.channels), hChannels, hPosted]
          dsimp only
          rw [held_insert, Function.update_self]
          exact (h.tracks kind).replace (hOld kind)
        · rw [hChannels, hPosted]
          exact hAlive
      · constructor
        · intro kind
          rw [Tracks, held_insert, waiting, List.map_append]
          exact (h.tracks kind).postpone (hOld kind)
        · intro update hUpdate
          obtain hOldUpdate | hNewUpdate := List.mem_append.mp hUpdate
          · exact hAlive update hOldUpdate
          · rw [List.mem_singleton.mp hNewUpdate]
            exact (AList.mem_insert _).mpr (Or.inl rfl)

theorem Sound.runPosted (h : topics.Sound) : topics.runPosted.Sound := by
  rw [SeventvTopics.runPosted]
  split
  · exact h
  · rename_i update posted hPosted
    have hAlive := h.alive
    rw [hPosted] at hAlive
    obtain ⟨ids, hLookup⟩ := Option.isSome_iff_exists.mp (AList.lookup_isSome.mpr (hAlive update List.mem_cons_self))
    obtain ⟨hChannels, hRest⟩ := updateSubscriptions_channels { topics with posted := posted } update
    constructor
    · intro kind
      have hTracks := h.tracks kind
      rw [Tracks, hPosted] at hTracks
      have hSubscribed : ((updateSubscriptions update { topics with posted := posted }).subscribed kind : Set QString) =
          release (held kind topics.channels) ((kind.pick update.oldUserID update.oldEmoteSetID).bind nonEmpty)
            (acquire (held kind topics.channels update.channel) (topics.subscribed kind)) :=
        coe_updateSubscriptions update hLookup
      rw [Tracks, hChannels, hRest, hSubscribed]
      exact hTracks.passOn
    · rw [hChannels, hRest]
      exact fun other hOther => hAlive other (List.mem_cons_of_mem _ hOther)

theorem Sound.destroy (h : topics.Sound) (hWaits : ∀ update ∈ topics.posted, update.channel ≠ channel) :
    (topics.destroy channel).Sound := by
  rw [SeventvTopics.destroy]
  split
  · exact h
  · rename_i ids hLookup
    constructor
    · intro kind
      have hWaiting : ∀ update ∈ waiting kind topics.posted, update.1 ≠ channel := by
        intro update hUpdate
        obtain ⟨posted, hPosted, rfl⟩ := List.mem_map.mp hUpdate
        exact hWaits posted hPosted
      rw [Tracks, coe_dropSeventvChannel]
      change ScannedSet (held kind (topics.channels.erase channel)) (release (held kind (topics.channels.erase channel))
        (nonEmpty (idOf kind ids)) (topics.subscribed kind)) (waiting kind topics.posted)
      rw [held_erase, ← held_of_lookup hLookup]
      exact (h.tracks kind).leave hWaiting
    · intro update hUpdate
      exact AList.mem_erase.mpr ⟨hWaits update hUpdate, h.alive update hUpdate⟩

theorem Sound.step (h : topics.Sound) {event : TopicEvent} (hOccurs : topics.Occurs event) :
    (topics.step event).Sound := by
  cases event with
  | create channel => exact h.create hOccurs.1
  | updateSeventvData channel newUserID newEmoteSetID inGuiThread =>
    exact h.updateSeventvData newUserID newEmoteSetID inGuiThread
  | runPosted => exact h.runPosted
  | destroy channel => exact h.destroy hOccurs

theorem sound_init : Sound {} where
  tracks kind := by
    constructor
    · intro channel x hHeld
      cases hHeld
    · intro x hMem
      cases kind with
      | user | emoteSet => exact absurd hMem (Finset.notMem_empty x)
  alive update hUpdate := by cases hUpdate

theorem Sound.follows (h : topics.Sound) (hPosted : topics.posted = []) : topics.Follows := by
  have hKind (kind : TopicKind) (id : QString) : id ∈ topics.subscribed kind ↔
      id ≠ [] ∧ ∃ channel ids, topics.channels.lookup channel = some ids ∧ idOf kind ids = id := by
    have hTracks := h.tracks kind
    rw [Tracks, hPosted] at hTracks
    refine (hTracks.mem_iff id).trans ?_
    simp only [held_eq_some]
    constructor
    · rintro ⟨channel, ids, hLookup, hNe, rfl⟩
      exact ⟨hNe, channel, ids, hLookup, rfl⟩
    · rintro ⟨hNe, channel, ids, hLookup, rfl⟩
      exact ⟨channel, ids, hLookup, hNe, rfl⟩
  exact ⟨hKind .user, hKind .emoteSet⟩

def setUpdatedBySocket : List TopicEvent :=
  [.create 1, .create 2, .updateSeventvData 1 (lit "user") (lit "set") true,
    .updateSeventvData 2 (lit "user") (lit "set") true,
    .updateSeventvData 1 (lit "user") (lit "other set") false, .runPosted, .destroy 2]

end Chatterino.Seventv.SeventvTopics
