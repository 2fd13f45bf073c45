import Chatterino.Lib.Run
import Chatterino.Twitch.ListedEmotes

/-! # Live-update notices over a run

A notice is lost when the last message is alive but no longer in the buffer: the merged message then replaces
nothing. In every other state a notice is listed once, and so are the ones before it.
-/

namespace Chatterino.Twitch

open Lib QString

namespace LiveUpdateChannel

variable {channel : LiveUpdateChannel}

def ShowsNotice (channel : LiveUpdateChannel) : LiveUpdateEvent → Prop
  | .addOrReplaceLiveUpdatesAddRemove isEmoteAdd platform actor emoteName currentTime =>
    channel.Shows (channel.lastToReplace (operationFlag isEmoteAdd) platform actor currentTime) emoteName
      (channel.addOrReplaceLiveUpdatesAddRemove isEmoteAdd platform actor emoteName currentTime)
  | _ => True

def FindsLast (channel : LiveUpdateChannel) : LiveUpdateEvent → Prop
  | .addOrReplaceLiveUpdatesAddRemove isEmoteAdd platform actor _ currentTime =>
    1 ≤ channel.messages_.limit ∧
      ∀ last ∈ channel.lastToReplace (operationFlag isEmoteAdd) platform actor currentTime,
        last ∈ channel.messages_.getSnapshot
  | _ => True

section call

variable {isEmoteAdd : Bool} {platform actor emoteName : QString} {currentTime : Nat}

theorem call_of_some {last : MessagePtr}
    (h : channel.lastToReplace (operationFlag isEmoteAdd) platform actor currentTime = some last) :
    channel.addOrReplaceLiveUpdatesAddRemove isEmoteAdd platform actor emoteName currentTime =
      channel.counted.replaceLast isEmoteAdd platform ⟨emoteName, channel.notices⟩ currentTime last := by
  have hTry : channel.counted.tryReplaceLastLiveUpdateAddOrRemove isEmoteAdd platform actor
      ⟨emoteName, channel.notices⟩ currentTime =
        some (channel.counted.replaceLast isEmoteAdd platform ⟨emoteName, channel.notices⟩ currentTime last) :=
    congrArg (Option.map _) h
  rw [addOrReplaceLiveUpdatesAddRemove, hTry]

theorem call_of_none
    (h : channel.lastToReplace (operationFlag isEmoteAdd) platform actor currentTime = none) :
    channel.addOrReplaceLiveUpdatesAddRemove isEmoteAdd platform actor emoteName currentTime =
      (channel.counted.remembering platform actor ⟨emoteName, channel.notices⟩).addMessage
        (liveUpdatesMessage isEmoteAdd platform actor [⟨emoteName, channel.notices⟩] currentTime) := by
  have hTry : channel.counted.tryReplaceLastLiveUpdateAddOrRemove isEmoteAdd platform actor
      ⟨emoteName, channel.notices⟩ currentTime = none := congrArg (Option.map _) h
  rw [addOrReplaceLiveUpdatesAddRemove, hTry]
  cases isEmoteAdd with
  | true => rfl
  | false => rfl

theorem last_of_lastToReplace {op : MessageFlag} {last : MessagePtr}
    (h : channel.lastToReplace op platform actor currentTime = some last) :
    channel.lastLiveUpdateMessage_ = some last := by
  unfold lastToReplace at h
  split at h
  · cases h
  · split at h
    · cases h
    · rename_i last' hLock
      split at h
      · cases h
      · obtain rfl := Option.some.inj h
        exact (Option.filter_eq_some_iff.mp hLock).1

theorem Sound.counted (h : channel.Sound) : channel.counted.Sound :=
  { h with old := fun name hName => (h.old name hName).trans (Nat.lt_succ_self _) }

theorem Sound.notice_not_mem (h : channel.Sound) : (⟨emoteName, channel.notices⟩ : EmoteName) ∉ channel.listed :=
  fun hMem => lt_irrefl _ (h.old _ hMem)

def ownMessage (isEmoteAdd : Bool) (platform actor emoteName : QString) (currentTime : Nat)
    (channel : LiveUpdateChannel) : ListingMessage :=
  liveUpdatesMessage isEmoteAdd platform actor [⟨emoteName, channel.notices⟩] currentTime

theorem Sound.addMessage_remembering (h : channel.Sound) :
    ((channel.counted.remembering platform actor ⟨emoteName, channel.notices⟩).addMessage
      (channel.ownMessage isEmoteAdd platform actor emoteName currentTime)).Sound := by
  have hNodup : (channel.listed ++ [(⟨emoteName, channel.notices⟩ : EmoteName)]).Nodup :=
    (List.perm_append_singleton _ _).nodup_iff.mpr (List.nodup_cons.mpr ⟨h.notice_not_mem, h.listedOnce⟩)
  have hAdded : (channel.counted.addMessage
      (channel.ownMessage isEmoteAdd platform actor emoteName currentTime)).Sound := by
    refine h.counted.addMessage hNodup ?_ fun name hName => infix_liveUpdatesMessage hName
    intro name hName
    obtain rfl := List.mem_singleton.mp hName
    exact Nat.lt_succ_self _
  refine { hAdded with lastFresh := ?_, lastLists := ?_ }
  · rintro _ ⟨⟩
    exact Nat.lt_succ_self _
  · rintro _ ⟨⟩
    have hObject : Function.update channel.objects channel.next
        (channel.ownMessage isEmoteAdd platform actor emoteName currentTime) channel.next =
        channel.ownMessage isEmoteAdd platform actor emoteName currentTime := Function.update_self _ _ _
    exact congrArg ListingMessage.emoteNames hObject

theorem Sound.call (h : channel.Sound) :
    (channel.addOrReplaceLiveUpdatesAddRemove isEmoteAdd platform actor emoteName currentTime).Sound := by
  cases hLast : channel.lastToReplace (operationFlag isEmoteAdd) platform actor currentTime with
  | none =>
    rw [call_of_none hLast]
    exact h.addMessage_remembering
  | some last =>
    rw [call_of_some hLast]
    exact h.counted.replaceLast (last_of_lastToReplace hLast) h.notice_not_mem (Nat.lt_succ_self _)

theorem Sound.shows_replaceLast_iff (h : channel.Sound) {last : MessagePtr}
    (hLast : channel.lastLiveUpdateMessage_ = some last) :
    channel.Shows (some last) emoteName
        (channel.counted.replaceLast isEmoteAdd platform ⟨emoteName, channel.notices⟩ currentTime last) ↔
      1 ≤ channel.messages_.limit ∧ last ∈ channel.messages_.getSnapshot := by
  have hNew : (⟨emoteName, channel.notices⟩ : EmoteName) ∉ channel.counted.listed := h.notice_not_mem
  constructor
  · intro hShows
    have hMem : last ∈ channel.messages_.getSnapshot := by
      by_contra hMem
      have hGiven := hShows.given
      rw [h.counted.listed_replaceLast_of_not_mem hMem, List.count_eq_zero.mpr hNew] at hGiven
      cases hGiven
    exact ⟨(List.length_pos_of_mem hMem).trans_le channel.messages_.length_getSnapshot_le, hMem⟩
  · rintro ⟨-, hMem⟩
    have hPerm : (channel.counted.replaceLast isEmoteAdd platform ⟨emoteName, channel.notices⟩ currentTime
        last).listed.Perm (⟨emoteName, channel.notices⟩ :: channel.listed) :=
      h.counted.listed_replaceLast hLast hMem
    have hSound : (channel.counted.replaceLast isEmoteAdd platform ⟨emoteName, channel.notices⟩ currentTime
        last).Sound := h.counted.replaceLast hLast hNew (Nat.lt_succ_self _)
    refine ⟨?_, ?_, hSound.spelled⟩
    · exact List.count_eq_one_of_mem hSound.listedOnce (hPerm.mem_iff.mpr List.mem_cons_self)
    · intro name hName
      exact List.count_eq_one_of_mem hSound.listedOnce (hPerm.mem_iff.mpr (List.mem_cons_of_mem _ hName))

theorem Sound.shows_addMessage_iff (h : channel.Sound) :
    channel.Shows none emoteName
        ((channel.counted.remembering platform actor ⟨emoteName, channel.notices⟩).addMessage
          (channel.ownMessage isEmoteAdd platform actor emoteName currentTime)) ↔
      1 ≤ channel.messages_.limit := by
  constructor
  · intro hShows
    by_contra hLimit
    have hZero : (channel.counted.remembering platform actor ⟨emoteName, channel.notices⟩).messages_.limit = 0 :=
      Nat.eq_zero_of_not_pos hLimit
    have hGiven := hShows.given
    rw [listed_addMessage_of_limit_eq_zero _ hZero] at hGiven
    cases hGiven
  · intro hLimit
    have hListed : ((channel.counted.remembering platform actor ⟨emoteName, channel.notices⟩).addMessage
        (channel.ownMessage isEmoteAdd platform actor emoteName currentTime)).listed =
          channel.namesIn (channel.messages_.getSnapshot.rtake (channel.messages_.limit - 1)) ++
            [⟨emoteName, channel.notices⟩] := h.counted.listed_addMessage _ hLimit
    have hSound := @Sound.addMessage_remembering _ isEmoteAdd platform actor emoteName currentTime h
    refine ⟨?_, ?_, hSound.spelled⟩
    · refine List.count_eq_one_of_mem hSound.listedOnce ?_
      rw [hListed]
      exact List.mem_append_right _ (List.mem_singleton_self _)
    · intro name hName
      refine List.count_eq_one_of_mem hSound.listedOnce ?_
      rw [hListed]
      exact List.mem_append_left _ hName

theorem Sound.shows_call_iff (h : channel.Sound) :
    channel.Shows (channel.lastToReplace (operationFlag isEmoteAdd) platform actor currentTime) emoteName
        (channel.addOrReplaceLiveUpdatesAddRemove isEmoteAdd platform actor emoteName currentTime) ↔
      1 ≤ channel.messages_.limit ∧
        ∀ last ∈ channel.lastToReplace (operationFlag isEmoteAdd) platform actor currentTime,
          last ∈ channel.messages_.getSnapshot := by
  cases hLast : channel.lastToReplace (operationFlag isEmoteAdd) platform actor currentTime with
  | none =>
    rw [call_of_none hLast]
    refine h.shows_addMessage_iff.trans (and_iff_left ?_).symm
    rintro _ ⟨⟩
  | some last =>
    rw [call_of_some hLast]
    refine (h.shows_replaceLast_iff (last_of_lastToReplace hLast)).trans (and_congr_right' ?_)
    exact ⟨fun hMem _ hSame => Option.some.inj hSame ▸ hMem, fun hAll => hAll last rfl⟩

end call

theorem Sound.clearMessages (h : channel.Sound) : channel.clearMessages.Sound where
  fresh _ hMem := absurd hMem List.not_mem_nil
  lastFresh := h.lastFresh
  nodup := List.nodup_nil
  listedOnce := List.nodup_nil
  old _ hMem := absurd hMem List.not_mem_nil
  lastLists := h.lastLists
  spelled _ hMem := absurd hMem List.not_mem_nil

theorem Sound.step (h : channel.Sound) (event : LiveUpdateEvent) : (channel.step event).Sound := by
  cases event with
  | addOrReplaceLiveUpdatesAddRemove isEmoteAdd platform actor emoteName currentTime => exact h.call
  | addMessage message =>
    refine h.addMessage ?_ (fun _ hName => absurd hName List.not_mem_nil) fun _ hName => absurd hName List.not_mem_nil
    rw [List.append_nil]
    exact h.listedOnce
  | clearMessages => exact h.clearMessages
  | held msg =>
    rw [LiveUpdateChannel.step]
    split
    · exact { h with }
    · exact h
  | released msg => exact { h with }

theorem showsNotice_iff (h : channel.Sound) (event : LiveUpdateEvent) :
    channel.ShowsNotice event ↔ channel.FindsLast event := by
  cases event with
  | addOrReplaceLiveUpdatesAddRemove isEmoteAdd platform actor emoteName currentTime => exact h.shows_call_iff
  | _ => exact Iff.rfl

/-- Every call shows its notice in exactly the runs where a notice that is merged finds the last message in the
buffer. -/
theorem showsNotices_iff (limit : Nat) (events : List LiveUpdateEvent) :
    AllSteps step ShowsNotice (ofLimit limit) events ↔ AllSteps step FindsLast (ofLimit limit) events :=
  AllSteps.congr_of_invariant (sound_ofLimit limit) (fun _ event h => h.step event) fun _ event h =>
    showsNotice_iff h event

/-- The message of the first notice is evicted by others within a second, while a filtered view still holds it. -/
theorem not_showsNotices_evicted :
    ¬(∀ (limit : Nat) (events : List LiveUpdateEvent), 1 ≤ limit →
      AllSteps step ShowsNotice (ofLimit limit) events) := by
  intro h
  let call (emoteName : QString) (currentTime : Nat) : LiveUpdateEvent :=
    .addOrReplaceLiveUpdatesAddRemove true (lit "7TV") (lit "forsen") emoteName currentTime
  let message : ChannelMessage := { flags := ∅, loginName := lit "pajlada", messageText := lit "PogChamp", parseTime := 0 }
  let events := call (lit "FeelsDankMan") 43200000 :: .held 0 :: List.replicate 100 (.addMessage message)
  have hRun := h 100 (events ++ [call (lit "WideHard") 43201000]) (by decide)
  have hLast := (AllSteps.append_iff.mp hRun).2.1.given
  revert hLast
  decide +kernel

end LiveUpdateChannel

end Chatterino.Twitch
