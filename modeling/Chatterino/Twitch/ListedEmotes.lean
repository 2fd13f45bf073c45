import Chatterino.Twitch.LiveUpdateNotices
import Mathlib.Data.List.Flatten

/-! # The emotes that the messages in a buffer list

What the buffer lists after a notice was appended and after one was merged into the last message, which may no
longer be there.
-/

namespace Chatterino.Twitch

open Lib QString

namespace LiveUpdateChannel

variable {channel : LiveUpdateChannel}

def namesIn (channel : LiveUpdateChannel) (messages : List MessagePtr) : List EmoteName :=
  messages.flatMap fun msg => (channel.objects msg).emoteNames

def listed (channel : LiveUpdateChannel) : List EmoteName := channel.namesIn channel.messages_.getSnapshot

def remaining (channel : LiveUpdateChannel) (replaced : Option MessagePtr) : List MessagePtr :=
  if replaced.isSome then channel.messages_.getSnapshot
  else channel.messages_.getSnapshot.rtake (channel.messages_.limit - 1)

/-- A notice is listed once, like each of the ones whose message remains, and the texts say so. -/
structure Shows (before : LiveUpdateChannel) (replaced : Option MessagePtr) (emoteName : QString)
    (after : LiveUpdateChannel) : Prop where
  given : after.listed.count ⟨emoteName, before.notices⟩ = 1
  earlier : ∀ name ∈ before.namesIn (before.remaining replaced), after.listed.count name = 1
  spelled : ∀ msg ∈ after.messages_.getSnapshot, ∀ name ∈ (after.objects msg).emoteNames,
    name.name <:+: (after.objects msg).messageText

structure Sound (channel : LiveUpdateChannel) : Prop where
  fresh : ∀ msg ∈ channel.messages_.getSnapshot, msg < channel.next
  lastFresh : ∀ msg ∈ channel.lastLiveUpdateMessage_, msg < channel.next
  nodup : channel.messages_.getSnapshot.Nodup
  listedOnce : channel.listed.Nodup
  old : ∀ name ∈ channel.listed, name.notice < channel.notices
  lastLists : ∀ last ∈ channel.lastLiveUpdateMessage_,
    (channel.objects last).emoteNames = channel.lastLiveUpdateEmoteNames_
  spelled : ∀ msg ∈ channel.messages_.getSnapshot, ∀ name ∈ (channel.objects msg).emoteNames,
    name.name <:+: (channel.objects msg).messageText

theorem sound_ofLimit (limit : Nat) : (ofLimit limit).Sound where
  fresh _ hMem := absurd hMem List.not_mem_nil
  lastFresh _ hMem := by cases hMem
  nodup := List.nodup_nil
  listedOnce := List.nodup_nil
  old _ hMem := absurd hMem List.not_mem_nil
  lastLists _ hMem := by cases hMem
  spelled _ hMem := absurd hMem List.not_mem_nil

theorem namesIn_append (messages messages' : List MessagePtr) :
    channel.namesIn (messages ++ messages') = channel.namesIn messages ++ channel.namesIn messages' :=
  List.flatMap_append

theorem namesIn_congr {other : LiveUpdateChannel} {messages : List MessagePtr}
    (h : ∀ msg ∈ messages, other.objects msg = channel.objects msg) :
    other.namesIn messages = channel.namesIn messages := by
  rw [namesIn, namesIn, List.flatMap_def, List.flatMap_def]
  exact congrArg List.flatten (List.map_congr_left fun msg hMem => congrArg ListingMessage.emoteNames (h msg hMem))

theorem Sound.update_of_mem (h : channel.Sound) {message : ListingMessage} {msg : MessagePtr}
    (hMem : msg ∈ channel.messages_.getSnapshot) :
    Function.update channel.objects channel.next message msg = channel.objects msg :=
  Function.update_of_ne (h.fresh msg hMem).ne _ _

theorem Sound.not_mem_next (h : channel.Sound) : channel.next ∉ channel.messages_.getSnapshot :=
  fun hMem => lt_irrefl _ (h.fresh _ hMem)

theorem getSnapshot_addMessage (message : ListingMessage) :
    (channel.addMessage message).messages_.getSnapshot =
      (channel.messages_.getSnapshot ++ [channel.next]).rtake channel.messages_.limit :=
  LimitedQueue.getSnapshot_pushBack _ _

theorem Sound.listed_addMessage (h : channel.Sound) (message : ListingMessage) (hLimit : 1 ≤ channel.messages_.limit) :
    (channel.addMessage message).listed =
      channel.namesIn (channel.messages_.getSnapshot.rtake (channel.messages_.limit - 1)) ++ message.emoteNames := by
  rw [listed, getSnapshot_addMessage, CircularBuffer.rtake_append_of_le hLimit, namesIn_append]
  congr 1
  · exact namesIn_congr fun msg hMem => h.update_of_mem (List.drop_subset _ _ hMem)
  · simp [namesIn, addMessage]

theorem listed_addMessage_of_limit_eq_zero (message : ListingMessage) (hLimit : channel.messages_.limit = 0) :
    (channel.addMessage message).listed = [] := by
  rw [listed, getSnapshot_addMessage, hLimit, List.rtake_zero]
  rfl

theorem sublist_listed (n : Nat) : (channel.namesIn (channel.messages_.getSnapshot.rtake n)).Sublist channel.listed := by
  rw [listed, namesIn, namesIn]
  exact (List.drop_sublist _ _).flatMap _

theorem Sound.sublist_listed_addMessage (h : channel.Sound) (message : ListingMessage) :
    (channel.addMessage message).listed.Sublist (channel.listed ++ message.emoteNames) := by
  rcases Nat.eq_zero_or_pos channel.messages_.limit with hZero | hLimit
  · rw [listed_addMessage_of_limit_eq_zero message hZero]
    exact List.nil_sublist _
  · rw [h.listed_addMessage message hLimit]
    exact (sublist_listed _).append (List.Sublist.refl _)

theorem Sound.addMessage (h : channel.Sound) {message : ListingMessage}
    (hNew : (channel.listed ++ message.emoteNames).Nodup)
    (hOld : ∀ name ∈ message.emoteNames, name.notice < channel.notices)
    (hSpelled : ∀ name ∈ message.emoteNames, name.name <:+: message.messageText) :
    (channel.addMessage message).Sound := by
  have hMem : ∀ msg ∈ (channel.addMessage message).messages_.getSnapshot,
      msg ∈ channel.messages_.getSnapshot ∨ msg = channel.next := by
    intro msg hMsg
    rw [getSnapshot_addMessage] at hMsg
    exact (List.mem_append.mp (List.drop_subset _ _ hMsg)).imp_right List.mem_singleton.mp
  have hListed := h.sublist_listed_addMessage message
  refine ⟨?_, fun msg hLast => (h.lastFresh msg hLast).trans (Nat.lt_succ_self _), ?_, hNew.sublist hListed, ?_, ?_, ?_⟩
  · intro msg hMsg
    rcases hMem msg hMsg with hMsg | rfl
    · exact (h.fresh msg hMsg).trans (Nat.lt_succ_self _)
    · exact Nat.lt_succ_self _
  · rw [getSnapshot_addMessage]
    refine List.Nodup.sublist (List.drop_sublist _ _) ?_
    exact List.nodup_append.mpr ⟨h.nodup, List.nodup_singleton _, fun msg hMsg other hOther hSame =>
      h.not_mem_next (List.mem_singleton.mp hOther ▸ hSame ▸ hMsg)⟩
  · intro name hName
    exact (List.mem_append.mp (hListed.subset hName)).elim (h.old name) (hOld name)
  · intro last hLast
    have hObject : Function.update channel.objects channel.next message last = channel.objects last :=
      Function.update_of_ne (h.lastFresh last hLast).ne _ _
    exact (congrArg ListingMessage.emoteNames hObject).trans (h.lastLists last hLast)
  · intro msg hMsg
    rcases hMem msg hMsg with hMsg | rfl
    · have hObject : (channel.addMessage message).objects msg = channel.objects msg := h.update_of_mem hMsg
      rw [hObject]
      exact h.spelled msg hMsg
    · have hObject : (channel.addMessage message).objects channel.next = message := Function.update_self _ _ _
      rw [hObject]
      exact hSpelled

section replaceLast

variable {last : MessagePtr} {isAdd : Bool} {platform : QString} {notice : EmoteName} {currentTime : Nat}

theorem objects_replaceLast : (channel.replaceLast isAdd platform notice currentTime last).objects channel.next =
    channel.replacement isAdd platform notice currentTime last := Function.update_self _ _ _

theorem spelled_replacement : ∀ name ∈ (channel.replacement isAdd platform notice currentTime last).emoteNames,
    name.name <:+: (channel.replacement isAdd platform notice currentTime last).messageText :=
  fun _ hName => @infix_liveUpdatesMessage isAdd platform _ _ currentTime _ hName

theorem Sound.namesIn_replaceLast (h : channel.Sound) {messages : List MessagePtr}
    (hMem : ∀ msg ∈ messages, msg ∈ channel.messages_.getSnapshot) :
    (channel.replaceLast isAdd platform notice currentTime last).namesIn messages = channel.namesIn messages :=
  namesIn_congr fun msg hMsg => h.update_of_mem (hMem msg hMsg)

theorem getSnapshot_replaceLast_of_not_mem (hMem : last ∉ channel.messages_.getSnapshot) :
    (channel.replaceLast isAdd platform notice currentTime last).messages_.getSnapshot =
      channel.messages_.getSnapshot :=
  congrArg (fun next => next.1.getSnapshot) (LimitedQueue.replaceItem_of_not_mem channel.next hMem)

theorem Sound.listed_replaceLast_of_not_mem (h : channel.Sound) (hMem : last ∉ channel.messages_.getSnapshot) :
    (channel.replaceLast isAdd platform notice currentTime last).listed = channel.listed := by
  rw [listed, getSnapshot_replaceLast_of_not_mem hMem]
  exact h.namesIn_replaceLast fun msg hMsg => hMsg

theorem getSnapshot_replaceLast (hMem : last ∈ channel.messages_.getSnapshot) :
    ∃ l r, channel.messages_.getSnapshot = l ++ last :: r ∧
      (channel.replaceLast isAdd platform notice currentTime last).messages_.getSnapshot = l ++ channel.next :: r := by
  obtain ⟨l, r, hSplit, hNotMem⟩ := List.eq_append_cons_of_mem hMem
  exact ⟨l, r, hSplit, LimitedQueue.getSnapshot_replaceItem_of_eq channel.next hSplit hNotMem⟩

theorem Sound.listed_replaceLast (h : channel.Sound) (hLast : channel.lastLiveUpdateMessage_ = some last)
    (hMem : last ∈ channel.messages_.getSnapshot) :
    (channel.replaceLast isAdd platform notice currentTime last).listed.Perm (notice :: channel.listed) := by
  obtain ⟨l, r, hSplit, hQueue⟩ := getSnapshot_replaceLast hMem
  have hLeft : (channel.replaceLast isAdd platform notice currentTime last).namesIn l = channel.namesIn l :=
    h.namesIn_replaceLast fun msg hMsg => hSplit ▸ List.mem_append_left _ hMsg
  have hRight : (channel.replaceLast isAdd platform notice currentTime last).namesIn r = channel.namesIn r :=
    h.namesIn_replaceLast fun msg hMsg => hSplit ▸ List.mem_append_right _ (List.mem_cons_of_mem _ hMsg)
  have hNames := h.lastLists last hLast
  have hAfter : (channel.replaceLast isAdd platform notice currentTime last).listed =
      channel.namesIn l ++ (channel.lastLiveUpdateEmoteNames_ ++ [notice]) ++ channel.namesIn r := by
    rw [listed, hQueue, ← List.singleton_append, namesIn_append, namesIn_append, hLeft, hRight, List.append_assoc]
    congr 2
    simp only [namesIn, List.flatMap_cons, List.flatMap_nil, List.append_nil, objects_replaceLast]
    rfl
  have hBefore : channel.listed =
      channel.namesIn l ++ channel.lastLiveUpdateEmoteNames_ ++ channel.namesIn r := by
    rw [listed, hSplit, ← List.singleton_append, namesIn_append, namesIn_append, List.append_assoc, ← hNames]
    simp [namesIn]
  rw [hAfter, hBefore]
  simp only [List.append_assoc, List.singleton_append]
  rw [← List.append_assoc, ← List.append_assoc]
  exact List.perm_middle

theorem mem_getSnapshot_replaceLast {msg : MessagePtr}
    (h : msg ∈ (channel.replaceLast isAdd platform notice currentTime last).messages_.getSnapshot) :
    msg ∈ channel.messages_.getSnapshot ∨ msg = channel.next :=
  ChannelMessages.mem_replaceItem h

theorem Sound.replaceLast (h : channel.Sound) (hLast : channel.lastLiveUpdateMessage_ = some last)
    (hNew : notice ∉ channel.listed) (hOld : notice.notice < channel.notices) :
    (channel.replaceLast isAdd platform notice currentTime last).Sound := by
  have hObject {msg : MessagePtr} (hMsg : msg ∈ channel.messages_.getSnapshot) :
      (channel.replaceLast isAdd platform notice currentTime last).objects msg = channel.objects msg :=
    h.update_of_mem hMsg
  have hListed : (channel.replaceLast isAdd platform notice currentTime last).listed.Subperm
      (notice :: channel.listed) := by
    by_cases hMem : last ∈ channel.messages_.getSnapshot
    · exact (h.listed_replaceLast hLast hMem).subperm
    · rw [h.listed_replaceLast_of_not_mem hMem]
      exact (List.sublist_cons_self _ _).subperm
  refine ⟨?_, ?_, ?_, ?_, ?_, ?_, ?_⟩
  · intro msg hMsg
    rcases mem_getSnapshot_replaceLast hMsg with hMsg | rfl
    · exact (h.fresh msg hMsg).trans (Nat.lt_succ_self _)
    · exact Nat.lt_succ_self _
  · rintro msg ⟨⟩
    exact Nat.lt_succ_self _
  · by_cases hMem : last ∈ channel.messages_.getSnapshot
    · obtain ⟨l, r, hSplit, hQueue⟩ := getSnapshot_replaceLast hMem
      have hNodup := hSplit ▸ h.nodup
      have hNext := hSplit ▸ h.not_mem_next
      rw [hQueue, List.nodup_middle]
      have hRest := (List.nodup_middle.mp hNodup)
      refine List.nodup_cons.mpr ⟨fun hIn => hNext ?_, (List.nodup_cons.mp hRest).2⟩
      simpa using (List.mem_append.mp hIn).imp_right Or.inr
    · rw [getSnapshot_replaceLast_of_not_mem hMem]
      exact h.nodup
  · obtain ⟨names, hPerm, hSublist⟩ := hListed
    exact hPerm.nodup_iff.mp ((List.nodup_cons.mpr ⟨hNew, h.listedOnce⟩).sublist hSublist)
  · intro name hName
    rcases List.mem_cons.mp (hListed.subset hName) with rfl | hName
    · exact hOld
    · exact h.old name hName
  · rintro _ ⟨⟩
    exact congrArg ListingMessage.emoteNames objects_replaceLast
  · intro msg hMsg
    rcases mem_getSnapshot_replaceLast hMsg with hMsg | rfl
    · rw [hObject hMsg]
      exact h.spelled msg hMsg
    · rw [objects_replaceLast]
      exact spelled_replacement

end replaceLast

end LiveUpdateChannel

end Chatterino.Twitch
