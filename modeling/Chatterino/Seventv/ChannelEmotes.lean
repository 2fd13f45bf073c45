import Chatterino.Seventv.SeventvTopics

/-! # The 7TV emotes of a channel

The set of a channel is switched at once, its emotes are stored when the answer to their request
arrives. What else switching does, the subscriptions, is not looked at here.
-/

namespace Chatterino.Seventv

open Lib QString

inductive EmoteRequest where
  | getEmoteSet (emoteSetID : QString)
  | loadChannelEmotes
  deriving DecidableEq

structure ChannelInfo where
  userID : QString
  emoteSetID : QString
  twitchConnectionIndex : Nat

structure UserConnectionUpdateDispatch where
  connectionIndex : Nat
  emoteSetID : QString

variable {EmoteMap : Type}

structure EmoteChannel (EmoteMap : Type) where
  ids : SeventvIDs := {}
  seventvUserTwitchConnectionIndex_ : Nat := 0
  seventvEmotes_ : EmoteMap
  requests : List EmoteRequest := []
  /-- The answers so far, with the sets they were for. No set has no emotes. -/
  answers : List (QString × EmoteMap)
  /-- The set whose emotes were stored last. -/
  storedFor : Option QString := some []

inductive EmoteChannelEvent (EmoteMap : Type) where
  | updateSeventvUser (dispatch : UserConnectionUpdateDispatch)
  /-- With the setting, and with what the cache holds for the room. -/
  | refreshSevenTVChannelEmotes (enabled : Bool) (cached : Option (QString × EmoteMap))
  /-- An answer to the set's request, none if it failed. -/
  | emoteSetAnswered (i : Nat) (emotes : Option EmoteMap)
  /-- An answer to a refresh, none if it failed or has no emotes. -/
  | channelEmotesAnswered (i : Nat) (result : Option (EmoteMap × ChannelInfo))

namespace EmoteChannel

variable (empty : EmoteMap) (channel : EmoteChannel EmoteMap)

def updateSeventvData (newUserID newEmoteSetID : QString) : EmoteChannel EmoteMap :=
  if channel.ids.seventvUserID_ = newUserID ∧ channel.ids.seventvEmoteSetID_ = newEmoteSetID then channel
  else { channel with ids := ⟨newUserID, newEmoteSetID⟩ }

def setSeventvEmotes (emoteSetID : Option QString) (map : EmoteMap) : EmoteChannel EmoteMap :=
  { channel with
    seventvEmotes_ := map
    answers := channel.answers ++ (emoteSetID.map fun id => (id, map)).toList
    storedFor := emoteSetID }

def request (request : EmoteRequest) : EmoteChannel EmoteMap :=
  { channel with requests := channel.requests ++ [request] }

def updateSeventvUser (dispatch : UserConnectionUpdateDispatch) : EmoteChannel EmoteMap :=
  if dispatch.connectionIndex ≠ channel.seventvUserTwitchConnectionIndex_ then channel
  else
    (channel.updateSeventvData channel.ids.seventvUserID_ dispatch.emoteSetID).request
      (.getEmoteSet dispatch.emoteSetID)

def refreshSevenTVChannelEmotes (enabled : Bool) (cached : Option (QString × EmoteMap)) :
    EmoteChannel EmoteMap :=
  if enabled then
    match cached with
    | some (emoteSetID, emoteMap) =>
      (channel.setSeventvEmotes (some emoteSetID) emoteMap).request .loadChannelEmotes
    | none => channel.request .loadChannelEmotes
  else channel.setSeventvEmotes none empty

def onEmoteSet (emoteSetID : QString) (emotes : Option EmoteMap) : EmoteChannel EmoteMap :=
  channel.setSeventvEmotes (some emoteSetID) (emotes.getD empty)

def onChannelEmotes (result : Option (EmoteMap × ChannelInfo)) : EmoteChannel EmoteMap :=
  match result with
  | none => channel
  | some (emoteMap, channelInfo) =>
    { (channel.setSeventvEmotes (some channelInfo.emoteSetID) emoteMap).updateSeventvData
        channelInfo.userID channelInfo.emoteSetID with
      seventvUserTwitchConnectionIndex_ := channelInfo.twitchConnectionIndex }

def answered (i : Nat) : EmoteChannel EmoteMap := { channel with requests := channel.requests.eraseIdx i }

def step (channel : EmoteChannel EmoteMap) : EmoteChannelEvent EmoteMap → EmoteChannel EmoteMap
  | .updateSeventvUser dispatch => channel.updateSeventvUser dispatch
  | .refreshSevenTVChannelEmotes enabled cached => channel.refreshSevenTVChannelEmotes empty enabled cached
  | .emoteSetAnswered i emotes =>
    match channel.requests[i]? with
    | some (.getEmoteSet emoteSetID) => (channel.answered i).onEmoteSet empty emoteSetID emotes
    | _ => channel
  | .channelEmotesAnswered i result =>
    match channel.requests[i]? with
    | some .loadChannelEmotes => (channel.answered i).onChannelEmotes result
    | _ => channel

def create (empty : EmoteMap) : EmoteChannel EmoteMap where
  seventvEmotes_ := empty
  answers := [([], empty)]

def HasOwnEmotes (channel : EmoteChannel EmoteMap) : Prop :=
  channel.requests = [] → channel.storedFor = some channel.ids.seventvEmoteSetID_ ∧
    (channel.ids.seventvEmoteSetID_, channel.seventvEmotes_) ∈ channel.answers

/-- An answer after which nothing is outstanding is for the set the channel has then, or changes nothing while the
emotes are those of its set. -/
def AnswersInTurn (channel : EmoteChannel EmoteMap) : EmoteChannelEvent EmoteMap → Prop
  | .updateSeventvUser _ => True
  | .refreshSevenTVChannelEmotes enabled _ => enabled ∨ channel.requests ≠ []
  | .emoteSetAnswered i _ => ∀ emoteSetID, channel.requests = [.getEmoteSet emoteSetID] → i = 0 →
      emoteSetID = channel.ids.seventvEmoteSetID_
  | .channelEmotesAnswered i result => channel.requests = [.loadChannelEmotes] → i = 0 → result.isNone →
      channel.storedFor = some channel.ids.seventvEmoteSetID_

def Answered (channel : EmoteChannel EmoteMap) : Prop :=
  ∀ emoteSetID ∈ channel.storedFor, (emoteSetID, channel.seventvEmotes_) ∈ channel.answers

variable {channel}

theorem updateSeventvData_eq (userID emoteSetID : QString) :
    channel.updateSeventvData userID emoteSetID = { channel with ids := ⟨userID, emoteSetID⟩ } := by
  unfold updateSeventvData
  split_ifs with hSame
  · rw [← hSame.1, ← hSame.2]
  · rfl

theorem answered_setSeventvEmotes (emoteSetID : Option QString) (map : EmoteMap) :
    (channel.setSeventvEmotes emoteSetID map).Answered := by
  intro id hStored
  have hEq : emoteSetID = some id := hStored
  subst hEq
  exact List.mem_append_right _ (List.mem_singleton_self _)

theorem Answered.step (h : channel.Answered) (event : EmoteChannelEvent EmoteMap) :
    (channel.step empty event).Answered := by
  cases event with
  | updateSeventvUser dispatch =>
    simp only [EmoteChannel.step, EmoteChannel.updateSeventvUser, updateSeventvData_eq]
    split_ifs <;> exact h
  | refreshSevenTVChannelEmotes enabled cached =>
    simp only [EmoteChannel.step, EmoteChannel.refreshSevenTVChannelEmotes]
    split_ifs
    · cases cached with
      | none => exact h
      | some cache => exact answered_setSeventvEmotes _ _
    · exact answered_setSeventvEmotes _ _
  | emoteSetAnswered i emotes =>
    simp only [EmoteChannel.step]
    split
    · exact answered_setSeventvEmotes _ _
    · exact h
  | channelEmotesAnswered i result =>
    simp only [EmoteChannel.step]
    split
    · cases result with
      | none => exact h
      | some result =>
        simp only [onChannelEmotes, updateSeventvData_eq]
        exact answered_setSeventvEmotes _ _
    · exact h

theorem eraseIdx_eq_nil_iff {request : EmoteRequest} {i : Nat} (hGet : channel.requests[i]? = some request) :
    (channel.answered i).requests = [] ↔ channel.requests = [request] ∧ i = 0 := by
  obtain ⟨hLt, hRequest⟩ := List.getElem?_eq_some_iff.mp hGet
  constructor
  · intro hNil
    have hLength := congrArg List.length hNil
    rw [answered, List.length_eraseIdx_of_lt hLt, List.length_nil] at hLength
    obtain rfl : i = 0 := by omega
    obtain ⟨only, hOnly⟩ := List.length_eq_one_iff.mp (show channel.requests.length = 1 by omega)
    refine ⟨?_, rfl⟩
    simp only [hOnly, List.getElem_cons_zero] at hRequest
    rw [hOnly, hRequest]
  · rintro ⟨hOnly, rfl⟩
    rw [answered, hOnly]
    rfl

theorem hasOwnEmotes_step_iff (hAnswered : channel.Answered) (h : channel.HasOwnEmotes)
    (event : EmoteChannelEvent EmoteMap) :
    (channel.step empty event).HasOwnEmotes ↔ channel.AnswersInTurn event := by
  have hIff (channel : EmoteChannel EmoteMap) (hAnswered : channel.Answered) : channel.HasOwnEmotes ↔
      (channel.requests = [] → channel.storedFor = some channel.ids.seventvEmoteSetID_) :=
    imp_congr_right fun _ => and_iff_left_of_imp fun hStored => hAnswered _ hStored
  have hStep := hIff _ (hAnswered.step empty event)
  rw [hIff _ hAnswered] at h
  rw [hStep]
  cases event with
  | updateSeventvUser dispatch =>
    simp only [EmoteChannel.step, EmoteChannel.updateSeventvUser, AnswersInTurn, iff_true]
    split_ifs
    · exact h
    · intro hNil
      simp [request] at hNil
  | refreshSevenTVChannelEmotes enabled cached =>
    simp only [EmoteChannel.step, EmoteChannel.refreshSevenTVChannelEmotes, AnswersInTurn]
    split_ifs with hEnabled
    · cases cached <;> simp [request, hEnabled]
    · simp [setSeventvEmotes, hEnabled]
  | emoteSetAnswered i emotes =>
    simp only [EmoteChannel.step, AnswersInTurn]
    split
    · rename_i emoteSetID hGet
      have hNil := eraseIdx_eq_nil_iff hGet
      constructor
      · intro hOwn id hRequests hi
        rw [hRequests, hi] at hGet
        cases hGet
        exact Option.some.inj (hOwn (hNil.mpr ⟨hRequests, hi⟩))
      · intro hTurn hEmpty
        obtain ⟨hRequests, hi⟩ := hNil.mp hEmpty
        exact congrArg some (hTurn emoteSetID hRequests hi)
    · rename_i hOther
      refine iff_of_true h fun id hRequests hi => absurd ?_ (hOther id)
      rw [hRequests, hi]
      rfl
  | channelEmotesAnswered i result =>
    simp only [EmoteChannel.step, AnswersInTurn]
    split
    · rename_i hGet
      have hNil := eraseIdx_eq_nil_iff hGet
      cases result with
      | none =>
        constructor
        · exact fun hOwn hRequests hi _ => hOwn (hNil.mpr ⟨hRequests, hi⟩)
        · intro hTurn hEmpty
          obtain ⟨hRequests, hi⟩ := hNil.mp hEmpty
          exact hTurn hRequests hi rfl
      | some result =>
        refine iff_of_true (fun _ => ?_) fun _ _ hNone => by cases hNone
        simp only [onChannelEmotes, updateSeventvData_eq]
        rfl
    · rename_i hOther
      refine iff_of_true h fun hRequests hi => absurd ?_ hOther
      rw [hRequests, hi]
      rfl

/-- In every state of a run the emotes are those of the set, exactly if the answers come in turn. -/
theorem hasOwnEmotes_iff_answersInTurn (empty : EmoteMap) (events : List (EmoteChannelEvent EmoteMap)) :
    (∀ reached, reached <+: events → (reached.foldl (step empty) (create empty)).HasOwnEmotes) ↔
      AllSteps (step empty) AnswersInTurn (create empty) events := by
  have hAnswered : (create empty).Answered := by
    intro id hStored
    cases hStored
    exact List.mem_singleton_self _
  have hSide : AllSteps (step empty) (fun channel _ => channel.Answered) (create empty) events :=
    AllSteps.of_invariant hAnswered fun channel event h => h.step empty event
  refine AllSteps.forall_reached_iff hSide _ ?_ ?_
  · exact fun _ => ⟨rfl, List.mem_singleton_self _⟩
  · exact fun channel event h hSide => hasOwnEmotes_step_iff empty hSide h event

theorem not_hasOwnEmotes_overtaken :
    ¬∀ (EmoteMap : Type) (empty : EmoteMap) (events : List (EmoteChannelEvent EmoteMap)),
      (events.foldl (step empty) (create empty)).HasOwnEmotes := by
  intro hAll
  have hOwn := hAll Nat 0 [.updateSeventvUser ⟨0, lit "A"⟩, .updateSeventvUser ⟨0, lit "B"⟩,
    .emoteSetAnswered 1 (some 2), .emoteSetAnswered 0 (some 1)] (by decide)
  exact absurd hOwn.1 (by decide)

end EmoteChannel

end Chatterino.Seventv
