import Chatterino.YouTube.ChatActions

/-! # The order of the actions of a YouTube chat

What is left in the channel after a response is compared with its actions applied one after the
other.
-/

namespace Chatterino.YouTube

open Lib CircularBuffer Change QJsonObject

variable {F : Type}

def isFirst (entry : Place × ChatAction) : Bool := entry.1.2 = 0

theorem filterMap_zipIdx_succ {α β : Type} (f : α → Option β) (number k : Nat) (list : List α) :
    ((list.zipIdx (k + 1)).filterMap fun inner => (f inner.1).map fun b => ((number, inner.2), b)).filter
      (fun entry : Place × β => decide (entry.1.2 = 0)) = [] := by
  rw [List.filter_eq_nil_iff]
  intro entry hMem
  obtain ⟨inner, hInner, hEntry⟩ := List.mem_filterMap.mp hMem
  obtain ⟨b, -, rfl⟩ := Option.map_eq_some_iff.mp hEntry
  have hIndex := (List.mem_zipIdx hInner).1
  simp only [decide_eq_true_eq]
  omega

theorem filter_isFirst_cons (action : QJsonObject F) (number : Nat) (rest : List (QJsonObject F)) :
    (((action :: rest).zipIdx.filterMap fun inner =>
      (chatAction inner.1).map fun act => ((number, inner.2), act)).filter isFirst) =
      ((chatAction action).map fun act => ((number, 0), act)).toList := by
  have hRest := filterMap_zipIdx_succ (chatAction (F := F)) number 0 rest
  rw [List.zipIdx_cons, List.filterMap_cons]
  cases chatAction action with
  | none => exact hRest
  | some act => exact congrArg _ hRest

theorem exists_flattened (action : QJsonObject F) : ∃ rest, flattened action = unwrapped action :: rest := by
  unfold flattened unwrapped
  cases replayed action with
  | nil => exact ⟨[], rfl⟩
  | cons inner rest => exact ⟨rest.map QJsonValue.toObject, rfl⟩

def earlyActions (lcc : QJsonObject F) : List (Place × ChatAction) := (placedActions lcc).filter isFirst

theorem earlyActions_eq (lcc : QJsonObject F) :
    earlyActions lcc = (arrayAt "actions" lcc).zipIdx.flatMap fun entry =>
      ((chatAction (unwrapped entry.1.toObject)).map fun act => ((entry.2, 0), act)).toList := by
  rw [earlyActions, placedActions, List.filter_flatMap]
  congr 1
  funext entry
  obtain ⟨rest, hRest⟩ := exists_flattened entry.1.toObject
  rw [hRest, filter_isFirst_cons]

theorem foldl_push (entries : List (QJsonValue F × Nat)) (result : ChatPoll) :
    entries.foldl (fun result entry => result.push (entry.2, 0) (chatAction (unwrapped entry.1.toObject))) result =
      (entries.flatMap fun entry =>
        ((chatAction (unwrapped entry.1.toObject)).map fun act => ((entry.2, 0), act)).toList).foldl
          (fun result entry => result.push entry.1 (some entry.2)) result := by
  induction entries generalizing result with
  | nil => rfl
  | cons entry entries ih =>
    rw [List.foldl_cons, ih, List.flatMap_cons, List.foldl_append]
    cases chatAction (unwrapped entry.1.toObject) with
    | none => rfl
    | some act => rfl

theorem readActions_eq (lcc : QJsonObject F) :
    readActions lcc = (earlyActions lcc).foldl (fun result entry => result.push entry.1 (some entry.2)) {} := by
  rw [readActions, foldl_push, earlyActions_eq]

def ChatAction.target : ChatAction → Option QString
  | delete targetItemId => some targetItemId
  | _ => none

def changesOf (entries : List (Place × ChatAction)) : List ChatChange := entries.map fun entry => entry.2.change entry.1

theorem lists_foldl_push (entries : List (Place × ChatAction)) (result : ChatPoll) :
    let pushed := entries.foldl (fun result entry => result.push entry.1 (some entry.2)) result
    pushed.messages.map (fun entry => ChatMessage.ofItem entry.1 entry.2) =
        result.messages.map (fun entry => ChatMessage.ofItem entry.1 entry.2) ++ appended (changesOf entries) ∧
      pushed.deletedMessageIds = result.deletedMessageIds ++ entries.filterMap fun entry => entry.2.target := by
  induction entries generalizing result with
  | nil => exact ⟨(List.append_nil _).symm, (List.append_nil _).symm⟩
  | cons entry entries ih =>
    obtain ⟨place, action⟩ := entry
    obtain ⟨hMessages, hDeleted⟩ := ih (result.push place (some action))
    cases action with
    | add message =>
      refine ⟨hMessages.trans ?_, hDeleted⟩
      rw [ChatPoll.push, List.map_append, List.append_assoc]
      rfl
    | delete id =>
      refine ⟨hMessages, hDeleted.trans ?_⟩
      rw [ChatPoll.push, List.append_assoc]
      rfl
    | ban id => exact ⟨hMessages, hDeleted⟩

/-- The message is from before, or its item stands at the first place of an action in a response that
another one follows. -/
def isRead (lcc : QJsonObject F) (message : ChatMessage) : Bool :=
  message.place.all fun place => nextContinuation lcc ≠ [] && place.2 = 0

def readTargets (lcc : QJsonObject F) : List QString :=
  if nextContinuation lcc = [] then [] else (earlyActions lcc).filterMap fun entry => entry.2.target

def readMessages (lcc : QJsonObject F) : List ChatMessage := (appended (changes lcc)).filter (isRead lcc)

theorem appended_filter {lcc : QJsonObject F} (hNext : nextContinuation lcc ≠ [])
    (entries : List (Place × ChatAction)) :
    (appended (changesOf entries)).filter (isRead lcc) = appended (changesOf (entries.filter isFirst)) := by
  induction entries with
  | nil => rfl
  | cons entry entries ih =>
    obtain ⟨⟨number, inner⟩, action⟩ := entry
    cases action with
    | add message =>
      change ((ChatMessage.ofItem (number, inner) message) :: appended (changesOf entries)).filter (isRead lcc) = _
      have hRead : isRead lcc (.ofItem (number, inner) message) = decide (inner = 0) := by
        simp [isRead, ChatMessage.ofItem, hNext]
      by_cases hInner : inner = 0
      · rw [List.filter_cons_of_pos (by rw [hRead, hInner]; rfl), ih, List.filter_cons_of_pos (by simpa [isFirst])]
        rfl
      · rw [List.filter_cons_of_neg (by simpa [hRead]), ih, List.filter_cons_of_neg (by simpa [isFirst])]
    | delete id | ban id =>
      change (appended (changesOf entries)).filter (isRead lcc) = _
      rw [ih, List.filter_cons]
      split_ifs
      · rfl
      · rfl

theorem place_of_mem_appended {lcc : QJsonObject F} {message : ChatMessage} (h : message ∈ appended (changes lcc)) :
    ∃ place, message.place = some place := by
  obtain ⟨change, hChange, hItem⟩ := List.mem_filterMap.mp h
  obtain ⟨entry, -, rfl⟩ := List.mem_map.mp hChange
  obtain ⟨place, action⟩ := entry
  cases action with
  | add item =>
    cases hItem
    exact ⟨place, rfl⟩
  | delete id => cases hItem
  | ban id => cases hItem

theorem readMessages_of_end {lcc : QJsonObject F} (hNext : nextContinuation lcc = []) : readMessages lcc = [] := by
  rw [readMessages, List.filter_eq_nil_iff]
  intro message hMem
  obtain ⟨place, hPlace⟩ := place_of_mem_appended hMem
  simp [isRead, hPlace, hNext]

namespace ChatChannel

theorem exists_last {id : QString} {snapshot : List ChatMessage} (h : id ∈ snapshot.map chatMarking.id) :
    ∃ before x after, snapshot = before ++ x :: after ∧ x.id = id ∧ ∀ y ∈ after, y.id ≠ id := by
  induction snapshot with
  | nil => cases h
  | cons x later ih =>
    by_cases hLater : id ∈ later.map chatMarking.id
    · obtain ⟨before, y, after, rfl, hId, hLatest⟩ := ih hLater
      exact ⟨x :: before, y, after, rfl, hId, hLatest⟩
    · refine ⟨[], x, later, rfl, ?_, ?_⟩
      · exact ((List.mem_cons.mp h).resolve_right hLater).symm
      · exact fun y hy hEq => hLater (List.mem_map.mpr ⟨y, hy, hEq⟩)

theorem getSnapshot_disableMessage (id : QString) (channel : ChatChannel) :
    (channel.disableMessage id).messages_.getSnapshot =
      chatMarking.retractLast id channel.messages_.getSnapshot := by
  unfold disableMessage
  cases hFind : channel.findMessageByID id with
  | none =>
    have hNotMem : id ∉ channel.messages_.getSnapshot.map chatMarking.id := by
      intro hMem
      obtain ⟨before, x, after, hSplit, hId, hLatest⟩ := exists_last hMem
      have hFound : channel.findMessageByID id = some (before.length, x) := by
        refine scanBack_reverse_eq_some_iff.mpr ⟨before, after, rfl, hSplit, ?_, hId, hLatest, ?_⟩
        · rw [hSplit, List.length_append, List.length_cons]
          omega
        · exact fun _ _ => not_false
      rw [hFound] at hFind
      cases hFind
    exact (chatMarking.retractLast_of_not_mem hNotMem).symm
  | some found =>
    obtain ⟨index, x⟩ := found
    obtain ⟨before, after, rfl, hLast⟩ := scanBack_reverse_eq_some_iff.mp hFind
    have hLatest : id ∉ after.map chatMarking.id := by
      rintro hMem
      obtain ⟨y, hy, hEq⟩ := List.mem_map.mp hMem
      exact hLast.latest y hy hEq
    dsimp only
    rw [LimitedQueue.getSnapshot_set, hLast.split, chatMarking.retractLast_split hLast.found hLatest,
      List.set_append_right _ _ (le_refl _), Nat.sub_self, List.set_cons_zero]
    rfl

@[simp] theorem limit_disableMessage (id : QString) (channel : ChatChannel) :
    (channel.disableMessage id).messages_.limit = channel.messages_.limit := by
  unfold disableMessage
  split
  · rfl
  · rfl

theorem getSnapshot_addMessage (message : ChatMessage) (channel : ChatChannel) :
    (channel.addMessage message).messages_.getSnapshot =
      (channel.messages_.getSnapshot ++ [message]).rtake channel.messages_.limit :=
  channel.messages_.getSnapshot_pushBack message

theorem foldl_handleMessage (messages : List (Place × YouTubeMessage)) (channel : ChatChannel) :
    let handled := messages.foldl (fun channel entry => channel.handleMessage entry.1 entry.2) channel
    handled.messages_.limit = channel.messages_.limit ∧
      handled.messages_.getSnapshot = ((messages.map fun entry => ChatMessage.ofItem entry.1 entry.2).map
        Change.append).foldl (chatMarking.apply channel.messages_.limit) channel.messages_.getSnapshot := by
  induction messages generalizing channel with
  | nil => exact ⟨rfl, rfl⟩
  | cons entry messages ih =>
    obtain ⟨hLimit, hSnapshot⟩ := ih (channel.handleMessage entry.1 entry.2)
    refine ⟨hLimit, hSnapshot.trans ?_⟩
    rw [handleMessage, getSnapshot_addMessage]
    rfl

theorem foldl_disableMessage (ids : List QString) (channel : ChatChannel) :
    (ids.foldl (fun channel id => channel.disableMessage id) channel).messages_.getSnapshot =
      (ids.map Change.retract).foldl (chatMarking.apply channel.messages_.limit) channel.messages_.getSnapshot := by
  induction ids generalizing channel with
  | nil => rfl
  | cons id ids ih =>
    rw [List.foldl_cons, ih, getSnapshot_disableMessage, limit_disableMessage]
    rfl

theorem ok_readActions (lcc : QJsonObject F) : (readActions lcc).ok = false := by
  rw [readActions_eq]
  refine List.foldlRecOn (motive := fun result : ChatPoll => result.ok = false) _ _ rfl fun result hOk entry _ => ?_
  cases entry.2 with
  | add message => exact hOk
  | delete id => exact hOk
  | ban id => exact hOk

theorem onPoll_of_end (channel : ChatChannel) {doc : QJsonObject F}
    (hNext : nextContinuation (liveChatContinuation doc) = []) :
    channel.onPoll (poll (.finished doc)) = channel.addSystemMessage (endedText channel.targetIsChannel_) := by
  dsimp only [poll]
  split_ifs with hEmpty hEnd
  · rfl
  · rw [onPoll, ok_readActions]
    rfl
  · exact absurd (List.isEmpty_iff.mpr hNext) hEnd

theorem poll_of_next {doc : QJsonObject F} (hNext : nextContinuation (liveChatContinuation doc) ≠ []) :
    poll (.finished doc) =
      { readActions (liveChatContinuation doc) with
        nextContinuation := nextContinuation (liveChatContinuation doc)
        ok := true } := by
  dsimp only [poll]
  split_ifs with hEmpty hEnd
  · rw [List.isEmpty_iff.mp hEmpty] at hNext
    exact absurd rfl hNext
  · exact absurd (List.isEmpty_iff.mp hEnd) hNext
  · rfl

theorem getSnapshot_onPoll_of_next (channel : ChatChannel) {doc : QJsonObject F}
    (hNext : nextContinuation (liveChatContinuation doc) ≠ []) :
    (channel.onPoll (poll (.finished doc))).messages_.getSnapshot =
      (chatMarking.batch (readTargets (liveChatContinuation doc))
        (channel.messages_.getSnapshot ++ readMessages (liveChatContinuation doc))).rtake
          channel.messages_.limit := by
  obtain ⟨hMessages, hDeleted⟩ := lists_foldl_push (earlyActions (liveChatContinuation doc)) {}
  rw [← readActions_eq] at hMessages hDeleted
  obtain ⟨hLimit, hHandled⟩ := foldl_handleMessage (readActions (liveChatContinuation doc)).messages
    { channel with consecutiveFailures_ := 0 }
  have hRead : readMessages (liveChatContinuation doc) =
      appended (changesOf (earlyActions (liveChatContinuation doc))) :=
    appended_filter hNext _
  rw [poll_of_next hNext, onPoll, if_neg (by simp), foldl_disableMessage, hLimit, hHandled, hMessages, hDeleted,
    ← List.foldl_append, chatMarking.foldl_apply channel.messages_.length_getSnapshot_le, ← List.append_assoc,
    ← List.map_append, chatMarking.settled_batch, readTargets, if_neg hNext, hRead]
  rfl

theorem getSnapshot_onPoll (channel : ChatChannel) (doc : QJsonObject F) :
    (channel.onPoll (poll (.finished doc))).messages_.getSnapshot =
      ((chatMarking.batch (readTargets (liveChatContinuation doc))
        (channel.messages_.getSnapshot ++ readMessages (liveChatContinuation doc))).rtake channel.messages_.limit ++
          channel.ending (liveChatContinuation doc)).rtake channel.messages_.limit := by
  by_cases hNext : nextContinuation (liveChatContinuation doc) = []
  · rw [onPoll_of_end channel hNext, addSystemMessage, getSnapshot_addMessage, readTargets, if_pos hNext,
      readMessages_of_end hNext, List.append_nil, chatMarking.batch_nil, rtake_append_rtake, ending, if_pos hNext]
  · rw [getSnapshot_onPoll_of_next channel hNext, ending, if_neg hNext, List.append_nil, rtake_rtake, min_self]

theorem append_rtake_eq_iff {α : Type} {l l' e : List α} {n : Nat} :
    (l ++ e).rtake n = (l' ++ e).rtake n ↔ l.rtake (n - e.length) = l'.rtake (n - e.length) := by
  by_cases hLe : e.length ≤ n
  · rw [rtake_append_of_le hLe, rtake_append_of_le hLe, List.append_left_inj]
  · have hLt : n ≤ e.length := Nat.le_of_not_le hLe
    rw [rtake_append_of_length_le hLt, rtake_append_of_length_le hLt, Nat.sub_eq_zero_of_le hLt,
      List.rtake_zero, List.rtake_zero]
    exact iff_of_true rfl rfl

def room (channel : ChatChannel) (lcc : QJsonObject F) : Nat :=
  channel.messages_.limit - (channel.ending lcc).length

def history (channel : ChatChannel) (lcc : QJsonObject F) : List ChatChange :=
  channel.messages_.getSnapshot.map .append ++ changes lcc

def ReadsShown (channel : ChatChannel) (lcc : QJsonObject F) : Prop :=
  ∀ message ∈ (appended (changes lcc)).rtake (channel.room lcc), isRead lcc message = true

/-- A message that is not pushed out and not disabled before is hit by a later action exactly if it is
the newest with its id and a deletion of the id is read. -/
def HitsShown (channel : ChatChannel) (lcc : QJsonObject F) : Prop :=
  ∀ entry ∈ (followed (channel.history lcc)).rtake (channel.room lcc), .Disabled ∈ entry.1.flags ∨
    (chatMarking.isHit entry.1 true entry.2 ↔
      entry.1.id ∉ (appended entry.2).map ChatMessage.id ∧ entry.1.id ∈ readTargets lcc)

theorem appliesInOrder_iff_readsShown_and_hitsShown (channel : ChatChannel) (doc : QJsonObject F)
    (hPrior : ∀ message ∈ channel.messages_.getSnapshot, message.place = none) :
    channel.AppliesInOrder doc ↔
      channel.ReadsShown (liveChatContinuation doc) ∧ channel.HitsShown (liveChatContinuation doc) := by
  have hKeep (message : ChatMessage) (hMem : message ∈ channel.messages_.getSnapshot) :
      isRead (liveChatContinuation doc) message = true := by
    rw [isRead, hPrior message hMem]
    rfl
  have hBatch := @Marking.rtake_batch_eq_iff _ _ _ _ chatMarking (channel.room (liveChatContinuation doc))
    channel.messages_.getSnapshot (changes (liveChatContinuation doc)) (isRead (liveChatContinuation doc))
    (readTargets (liveChatContinuation doc)) (fun _ => rfl) hKeep
  rw [AppliesInOrder, getSnapshot_onPoll, inOrder,
    chatMarking.foldl_apply channel.messages_.length_getSnapshot_le, rtake_append_rtake, rtake_append_rtake,
    append_rtake_eq_iff]
  refine hBatch.trans (and_congr_right fun _ => forall₂_congr fun entry _ => or_congr_left ?_)
  exact ChatMessage.disabled_eq_self_iff
def textItem (id channelId : String) : QJsonValue Int :=
  .object [("addChatItemAction", .object [("item", .object [("liveChatTextMessageRenderer", .object
    [("id", .string (.lit id)), ("authorExternalChannelId", .string (.lit channelId))])])])]

def authorDeleted (channelId : String) : QJsonValue Int :=
  .object [("markChatItemsByAuthorAsDeletedAction", .object [("externalChannelId", .string (.lit channelId))])]

def replay (inner : List (QJsonValue Int)) : QJsonValue Int :=
  .object [("replayChatItemAction", .object [("actions", .array inner)])]

def response (actions : List (QJsonValue Int)) (continuations : List String) : QJsonObject Int :=
  [("continuationContents", .object [("liveChatContinuation", .object [("actions", .array actions),
    ("continuations", .array (continuations.map fun continuation => .object
      [("timedContinuationData", .object [("continuation", .string (.lit continuation))])]))])])]

theorem appliesInOrder_replay :
    (ChatChannel.mk (.ofLimit 2) true 0).AppliesInOrder (response [replay [textItem "m" "a"], textItem "n" "a"] ["c"]) ↔
      (ChatChannel.mk (.ofLimit 2) true 0).ReadsShown
          (liveChatContinuation (response [replay [textItem "m" "a"], textItem "n" "a"] ["c"])) ∧
        (ChatChannel.mk (.ofLimit 2) true 0).HitsShown
          (liveChatContinuation (response [replay [textItem "m" "a"], textItem "n" "a"] ["c"])) :=
  appliesInOrder_iff_readsShown_and_hitsShown _ _ (by decide)

theorem not_appliesInOrder_banned :
    (∀ message ∈ (ChatChannel.mk (.ofLimit 2) true 0).messages_.getSnapshot, message.place = none) ∧
      ¬(ChatChannel.mk (.ofLimit 2) true 0).AppliesInOrder (response [textItem "m" "a", authorDeleted "a"] ["c"]) := by
  refine ⟨by decide, ?_⟩
  unfold AppliesInOrder
  decide

end ChatChannel

end Chatterino.YouTube
