import Chatterino.Common.DisabledMessages
import Chatterino.Common.FillIn
import Chatterino.Lib.Run

/-! # Recent messages of a channel

Live messages are appended, the history of a join is put in front and the history of a reconnect is filled in.
The requests run next to the connection, one at a time, and every message that is built is a new object.
-/

namespace Chatterino.Twitch

open Lib QString

inductive HistoryRequest where
  | loadRecentMessages
  | loadRecentMessagesReconnect
deriving DecidableEq, Repr

/-- The buffer of a channel, the objects its pointers lead to, and the requests that wait for an answer. -/
structure HistoryChannel where
  messages_ : LimitedQueue MessagePtr
  objects : MessagePtr → Message
  next : MessagePtr
  fresh : ∀ msg ∈ messages_.getSnapshot, msg < next
  loadingRecentMessages_ : Bool
  requests : List HistoryRequest

namespace HistoryChannel

def ofLimit (limit : Nat) : HistoryChannel where
  messages_ := .ofLimit limit
  objects _ := {}
  next := 0
  fresh _ hMsg := by cases hMsg
  loadingRecentMessages_ := false
  requests := []

def makeSystemMessage (text : QString) : Message :=
  { flags := {.System, .DoNotTriggerNotification}, messageText := text }

def built (channel : HistoryChannel) (messages : List Message) : List MessagePtr :=
  List.range' channel.next messages.length

def objectsWith (channel : HistoryChannel) (messages : List Message) (msg : MessagePtr) : Message :=
  if msg < channel.next then channel.objects msg else messages.getD (msg - channel.next) {}

theorem objectsWith_of_mem {channel : HistoryChannel} {messages : List Message} {msg : MessagePtr}
    (h : msg ∈ channel.messages_.getSnapshot) : channel.objectsWith messages msg = channel.objects msg :=
  if_pos (channel.fresh msg h)

theorem map_objectsWith_built (channel : HistoryChannel) (messages : List Message) :
    (channel.built messages).map (channel.objectsWith messages) = messages := by
  refine List.ext_getElem (by simp [built]) fun i _ hBound => ?_
  have hNew : ¬channel.next + i < channel.next := Nat.not_lt.mpr (Nat.le_add_right _ _)
  simp [built, objectsWith, hNew, hBound]

theorem lt_of_mem_built {channel : HistoryChannel} {messages : List Message} {msg : MessagePtr}
    (h : msg ∈ channel.built messages) : msg < channel.next + messages.length :=
  (List.mem_range'_1.mp h).2

theorem map_objectsWith_snapshot (channel : HistoryChannel) (messages : List Message) :
    channel.messages_.getSnapshot.map (channel.objectsWith messages) =
      channel.messages_.getSnapshot.map channel.objects :=
  List.map_congr_left fun _ hMsg => objectsWith_of_mem hMsg

def withBuilt (channel : HistoryChannel) (messages : List Message) (messages_ : LimitedQueue MessagePtr)
    (hMem : ∀ msg ∈ messages_.getSnapshot, msg ∈ channel.built messages ++ channel.messages_.getSnapshot) :
    HistoryChannel :=
  { channel with
    messages_ := messages_
    objects := channel.objectsWith messages
    next := channel.next + messages.length
    fresh := by
      intro msg hMsg
      rcases List.mem_append.mp (hMem msg hMsg) with hNew | hOld
      · exact lt_of_mem_built hNew
      · exact Nat.lt_add_right _ (channel.fresh msg hOld) }

def addMessage (message : Message) (channel : HistoryChannel) : HistoryChannel :=
  channel.withBuilt [message] (channel.messages_.pushBack channel.next).1 (by
    intro msg hMsg
    rw [LimitedQueue.getSnapshot_pushBack] at hMsg
    have hMem := List.drop_subset _ _ hMsg
    simpa [built, or_comm] using hMem)

def addSystemMessage (contents : QString) (channel : HistoryChannel) : HistoryChannel :=
  channel.addMessage (makeSystemMessage contents)

def addMessagesAtStart (messages : List Message) (channel : HistoryChannel) : HistoryChannel :=
  channel.withBuilt messages (channel.messages_.pushFront (channel.built messages)).1 (by
    intro msg hMsg
    rw [LimitedQueue.getSnapshot_pushFront] at hMsg
    exact ((LimitedQueue.rtake_sublist _ _).append (List.Sublist.refl _)).subset hMsg)

def fillInMissingMessages (messages : List Message) (channel : HistoryChannel) : HistoryChannel :=
  channel.withBuilt messages
    (FillIn.fillInMissingMessages (channel.objectsWith messages) channel.messages_ (channel.built messages)).1 (by
    intro msg hMsg
    have hSubperm := FillIn.subperm_fillInMissingMessages (channel.objectsWith messages) channel.messages_ (channel.built messages)
    exact (List.filter_sublist.append (List.Sublist.refl _)).subset (hSubperm.subset hMsg))

def request (loadTwitchMessageHistoryOnConnect : Bool) (kind : HistoryRequest) (channel : HistoryChannel) :
    HistoryChannel :=
  if !loadTwitchMessageHistoryOnConnect then channel
  else if channel.loadingRecentMessages_ then channel
  else { channel with loadingRecentMessages_ := true, requests := channel.requests ++ [kind] }

def loadRecentMessages (loadTwitchMessageHistoryOnConnect : Bool) (channel : HistoryChannel) : HistoryChannel :=
  channel.request loadTwitchMessageHistoryOnConnect .loadRecentMessages

def loadRecentMessagesReconnect (loadTwitchMessageHistoryOnConnect : Bool) (channel : HistoryChannel) :
    HistoryChannel :=
  channel.request loadTwitchMessageHistoryOnConnect .loadRecentMessagesReconnect

def noticed (errorCode : QString) (messages : List Message) (channel : HistoryChannel) : HistoryChannel :=
  if errorCode = lit "channel_not_joined" ∧ messages ≠ [] then
    channel.addSystemMessage (lit "Message history service recovering, there may be gaps in the message history.")
  else channel

def answered (i : Nat) (channel : HistoryChannel) : HistoryChannel :=
  { channel with requests := channel.requests.eraseIdx i }

def onLoaded (kind : HistoryRequest) (messages : List Message) (channel : HistoryChannel) : HistoryChannel :=
  match kind with
  | .loadRecentMessages => { channel.addMessagesAtStart messages with loadingRecentMessages_ := false }
  | .loadRecentMessagesReconnect => { channel.fillInMissingMessages messages with loadingRecentMessages_ := false }

def loaded (i : Nat) (errorCode : QString) (messages : List Message) (channel : HistoryChannel) : HistoryChannel :=
  match channel.requests[i]? with
  | some kind => ((channel.answered i).noticed errorCode messages).onLoaded kind messages
  | none => channel

def failed (i : Nat) (error : QString) (channel : HistoryChannel) : HistoryChannel :=
  match channel.requests[i]? with
  | some _ =>
    let text := lit "Message history service unavailable (Error: " ++ error ++ lit ")"
    { (channel.answered i).addSystemMessage text with loadingRecentMessages_ := false }
  | none => channel

end HistoryChannel

inductive HistoryEvent where
  | received (message : Message)
  | loadRecentMessages (loadTwitchMessageHistoryOnConnect : Bool)
  | loadRecentMessagesReconnect (loadTwitchMessageHistoryOnConnect : Bool)
  /-- The request at this place is answered with messages. -/
  | loaded (i : Nat) (errorCode : QString) (messages : List Message)
  | failed (i : Nat) (error : QString)
deriving DecidableEq

def HistoryChannel.step (channel : HistoryChannel) : HistoryEvent → HistoryChannel
  | .received message => channel.addMessage message
  | .loadRecentMessages enabled => channel.loadRecentMessages enabled
  | .loadRecentMessagesReconnect enabled => channel.loadRecentMessagesReconnect enabled
  | .loaded i errorCode messages => channel.loaded i errorCode messages
  | .failed i error => channel.failed i error

namespace HistoryChannel

def OneRequest (channel : HistoryChannel) : Prop :=
  channel.requests.length = if channel.loadingRecentMessages_ then 1 else 0

theorem OneRequest.step {channel : HistoryChannel} (h : channel.OneRequest) (event : HistoryEvent) :
    (channel.step event).OneRequest := by
  have hRequest (enabled : Bool) (kind : HistoryRequest) : (channel.request enabled kind).OneRequest := by
    unfold request
    split
    · exact h
    · split
      · exact h
      · rename_i hIdle
        simpa [OneRequest, hIdle] using h
  have hErased {i : Nat} {kind : HistoryRequest} (hKind : channel.requests[i]? = some kind) :
      (channel.requests.eraseIdx i).length = 0 := by
    have hLt := (List.getElem?_eq_some_iff.mp hKind).1
    rw [List.length_eraseIdx_of_lt hLt, h]
    split <;> rfl
  cases event with
  | received message => exact h
  | loadRecentMessages enabled => exact hRequest enabled _
  | loadRecentMessagesReconnect enabled => exact hRequest enabled _
  | loaded i errorCode messages =>
    rw [HistoryChannel.step, loaded]
    split
    · rename_i kind hKind
      have hRequests : ((channel.answered i).noticed errorCode messages).requests = channel.requests.eraseIdx i := by
        unfold noticed
        split <;> rfl
      cases kind with
      | loadRecentMessages | loadRecentMessagesReconnect => exact (congrArg List.length hRequests).trans (hErased hKind)
    · exact h
  | failed i error =>
    rw [HistoryChannel.step, failed]
    split
    · rename_i hKind
      exact hErased hKind
    · exact h

theorem oneRequest_of_run (limit : Nat) (events : List HistoryEvent) :
    (events.foldl step (ofLimit limit)).OneRequest :=
  foldl_invariant events rfl fun _ event h => h.step event

end HistoryChannel

namespace HistoryChannel

variable {channel : HistoryChannel}

def shown (channel : HistoryChannel) : List Message := channel.messages_.getSnapshot.map channel.objects

def messageIds (channel : HistoryChannel) : List QString := channel.shown.map Message.id

def OnceEach (ids : List QString) : Prop := ∀ id ∈ ids, id ≠ [] → ids.count id ≤ 1

instance (ids : List QString) : Decidable (OnceEach ids) := inferInstanceAs (Decidable (∀ id ∈ ids, _))

theorem onceEach_iff {ids : List QString} : OnceEach ids ↔ ∀ id ≠ [], ids.count id ≤ 1 := by
  refine ⟨fun h id hId => ?_, fun h id _ hId => h id hId⟩
  by_cases hMem : id ∈ ids
  · exact h id hMem hId
  · exact (List.count_eq_zero.mpr hMem).trans_le (Nat.zero_le _)

theorem OnceEach.sublist {ids ids' : List QString} (h : OnceEach ids) (hSub : ids'.Sublist ids) : OnceEach ids' :=
  onceEach_iff.mpr fun id hId => (hSub.count_le id).trans (onceEach_iff.mp h id hId)

theorem onceEach_append_iff {ids ids' : List QString} (h : OnceEach ids) (h' : OnceEach ids') :
    OnceEach (ids ++ ids') ↔ ∀ id ∈ ids, id ≠ [] → id ∉ ids' := by
  rw [onceEach_iff]
  constructor
  · intro hAll id hMem hId hMem'
    have hCount := hAll id hId
    have hPos := List.count_pos_iff.mpr hMem
    have hPos' := List.count_pos_iff.mpr hMem'
    rw [List.count_append] at hCount
    omega
  · intro hApart id hId
    rw [List.count_append]
    by_cases hMem : id ∈ ids
    · rw [List.count_eq_zero.mpr (hApart id hMem hId), Nat.add_zero]
      exact onceEach_iff.mp h id hId
    · rw [List.count_eq_zero.mpr hMem, Nat.zero_add]
      exact onceEach_iff.mp h' id hId

theorem onceEach_singleton (id : QString) : OnceEach [id] := fun _ _ _ => List.count_le_length

def ShownOnce (channel : HistoryChannel) : Prop := OnceEach channel.messageIds

instance (channel : HistoryChannel) : Decidable channel.ShownOnce := inferInstanceAs (Decidable (OnceEach _))

theorem shown_withBuilt {messages : List Message} {messages_ : LimitedQueue MessagePtr}
    {hMem : ∀ msg ∈ messages_.getSnapshot, msg ∈ channel.built messages ++ channel.messages_.getSnapshot} :
    (channel.withBuilt messages messages_ hMem).shown =
      messages_.getSnapshot.map (channel.objectsWith messages) := rfl

theorem map_rtake {α β : Type} (f : α → β) (l : List α) (n : Nat) : (l.rtake n).map f = (l.map f).rtake n := by
  rw [List.rtake, List.rtake, List.map_drop, List.length_map]

theorem shown_addMessage (message : Message) (channel : HistoryChannel) :
    (channel.addMessage message).shown = (channel.shown ++ [message]).rtake channel.messages_.limit := by
  have hNew : [channel.next].map (channel.objectsWith [message]) = [message] :=
    channel.map_objectsWith_built [message]
  rw [addMessage, shown_withBuilt, LimitedQueue.getSnapshot_pushBack, map_rtake, List.map_append,
    map_objectsWith_snapshot, hNew]
  rfl

theorem shown_addMessagesAtStart (messages : List Message) (channel : HistoryChannel) :
    (channel.addMessagesAtStart messages).shown = messages.rtake channel.messages_.space ++ channel.shown := by
  rw [addMessagesAtStart, shown_withBuilt, LimitedQueue.getSnapshot_pushFront, List.map_append, map_rtake,
    map_objectsWith_built, map_objectsWith_snapshot]
  rfl

def missing (channel : HistoryChannel) (messages : List Message) : List Message :=
  FillIn.missing id channel.shown messages

theorem map_missing (channel : HistoryChannel) (messages : List Message) :
    (FillIn.missing (channel.objectsWith messages) channel.messages_.getSnapshot (channel.built messages)).map
      (channel.objectsWith messages) = channel.missing messages := by
  have hIds : FillIn.existingMessageIds (channel.objectsWith messages) channel.messages_.getSnapshot =
      FillIn.existingMessageIds id channel.shown := by
    rw [shown, ← channel.map_objectsWith_snapshot messages, FillIn.existingMessageIds, FillIn.existingMessageIds,
      List.filter_map, List.map_map]
    rfl
  rw [missing, FillIn.missing, FillIn.missing, hIds]
  conv_rhs => rw [← channel.map_objectsWith_built messages, List.filter_map]
  rfl

theorem subperm_shown_fillInMissingMessages (messages : List Message) (channel : HistoryChannel) :
    (channel.fillInMissingMessages messages).shown.Subperm (channel.missing messages ++ channel.shown) := by
  have hSubperm := FillIn.subperm_fillInMissingMessages (channel.objectsWith messages) channel.messages_
    (channel.built messages)
  obtain ⟨l, hPerm, hSublist⟩ := hSubperm
  refine ⟨l.map (channel.objectsWith messages), hPerm.map _, ?_⟩
  have hMap := hSublist.map (channel.objectsWith messages)
  rwa [List.map_append, map_missing, map_objectsWith_snapshot] at hMap

theorem messageIds_addMessage (message : Message) (channel : HistoryChannel) :
    (channel.addMessage message).messageIds =
      (channel.messageIds ++ [message.id]).rtake channel.messages_.limit := by
  rw [messageIds, shown_addMessage, map_rtake, List.map_append]
  rfl

theorem messageIds_addMessagesAtStart (messages : List Message) (channel : HistoryChannel) :
    (channel.addMessagesAtStart messages).messageIds =
      (messages.rtake channel.messages_.space).map Message.id ++ channel.messageIds := by
  rw [messageIds, shown_addMessagesAtStart, List.map_append]
  rfl

theorem length_messageIds_le (channel : HistoryChannel) : channel.messageIds.length ≤ channel.messages_.limit := by
  rw [messageIds, shown, List.length_map, List.length_map]
  exact channel.messages_.length_getSnapshot_le

theorem ShownOnce.addMessage_iff (h : channel.ShownOnce) (message : Message) :
    (channel.addMessage message).ShownOnce ↔
      (message.id ≠ [] → message.id ∉ channel.messageIds.rtake (channel.messages_.limit - 1)) := by
  rw [ShownOnce, messageIds_addMessage]
  have hLength := channel.length_messageIds_le
  by_cases hLimit : 1 ≤ channel.messages_.limit
  · rw [CircularBuffer.rtake_append_of_le hLimit, List.length_singleton,
      onceEach_append_iff (h.sublist (LimitedQueue.rtake_sublist _ _)) (onceEach_singleton _)]
    constructor
    · intro hApart hId hMem
      exact hApart _ hMem hId (List.mem_singleton_self _)
    · intro hNew id hMem hId hSame
      rw [List.mem_singleton.mp hSame] at hMem hId
      exact hNew hId hMem
  · have hZero : channel.messages_.limit = 0 := by omega
    have hNil : channel.messageIds = [] := List.length_eq_zero_iff.mp (by omega)
    have hShown : OnceEach ((channel.messageIds ++ [message.id]).rtake channel.messages_.limit) := by
      rw [hZero, List.rtake_zero]
      exact fun _ hMem => absurd hMem List.not_mem_nil
    exact iff_of_true hShown (by simp [hNil])

theorem ShownOnce.addSystemMessage (h : channel.ShownOnce) (contents : QString) :
    (channel.addSystemMessage contents).ShownOnce :=
  (h.addMessage_iff _).mpr fun hId => absurd rfl hId

/-- What a request must not bring: put in front, a message that is there; filled in, one whose id a system
message has. -/
def FreshLoad (kind : HistoryRequest) (messages : List Message) (channel : HistoryChannel) : Prop :=
  match kind with
  | .loadRecentMessages => ∀ message ∈ messages.rtake channel.messages_.space,
      message.id ≠ [] → message.id ∉ channel.messageIds
  | .loadRecentMessagesReconnect => ∀ message ∈ messages, message.id ≠ [] →
      ∀ other ∈ channel.shown, other.flags.has .System → other.id ≠ message.id

instance (kind : HistoryRequest) (messages : List Message) : Decidable (FreshLoad kind messages channel) := by
  cases kind with
  | loadRecentMessages => exact List.decidableBAll _ _
  | loadRecentMessagesReconnect => exact List.decidableBAll _ _

theorem ShownOnce.addMessagesAtStart_iff (h : channel.ShownOnce) {messages : List Message}
    (hDistinct : OnceEach (messages.map Message.id)) :
    (channel.addMessagesAtStart messages).ShownOnce ↔ FreshLoad .loadRecentMessages messages channel := by
  have hSublist := (LimitedQueue.rtake_sublist messages channel.messages_.space).map Message.id
  rw [ShownOnce, messageIds_addMessagesAtStart, onceEach_append_iff (hDistinct.sublist hSublist) h, FreshLoad]
  exact List.forall_mem_map

theorem ShownOnce.fillInMissingMessages (h : channel.ShownOnce) {messages : List Message}
    (hDistinct : OnceEach (messages.map Message.id))
    (hFresh : FreshLoad .loadRecentMessagesReconnect messages channel) :
    (channel.fillInMissingMessages messages).ShownOnce := by
  have hMissing : ((channel.missing messages).map Message.id).Sublist (messages.map Message.id) :=
    List.filter_sublist.map _
  have hApart : OnceEach ((channel.missing messages).map Message.id ++ channel.messageIds) := by
    refine (onceEach_append_iff (hDistinct.sublist hMissing) h).mpr fun id hMem hId hOld => ?_
    obtain ⟨message, hMessage, rfl⟩ := List.mem_map.mp hMem
    obtain ⟨other, hOther, hSame⟩ := List.mem_map.mp hOld
    obtain ⟨hMessage, hExisting⟩ := List.mem_filter.mp hMessage
    have hNotSystem : ¬other.flags.has .System := fun hSystem => hFresh message hMessage hId other hOther hSystem hSame
    have hKept : other ∈ channel.shown.filter fun msg => !(msg.flags.has .System || msg.id.isEmpty) := by
      rw [List.mem_filter]
      simpa [hSame, hId] using And.intro hOther hNotSystem
    exact of_decide_eq_true hExisting (List.mem_map.mpr ⟨other, hKept, hSame⟩)
  have hCount := subperm_shown_fillInMissingMessages messages channel
  refine onceEach_iff.mpr fun id hId => ?_
  obtain ⟨l, hPerm, hSublist⟩ := hCount
  have hLe := (hSublist.map Message.id).count_le id
  rw [List.map_append, (hPerm.map Message.id).count_eq] at hLe
  exact hLe.trans (onceEach_iff.mp hApart id hId)

end HistoryChannel

end Chatterino.Twitch
