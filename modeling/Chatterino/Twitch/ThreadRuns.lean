import Chatterino.Lib.Run
import Chatterino.Twitch.ThreadSteps

/-! # Reply threads over a run

The entry of a thread is removed when no reply is left, but the thread lives on if someone still holds it or its
last reply. A reply is then attached to no thread or to a second one.
-/

namespace Chatterino.Twitch

open Lib QString

namespace ThreadedChannel

variable {channel : ThreadedChannel}

def remaining (message : Message) (replyID parentID : Option QString) (channel : ThreadedChannel) : ThreadedChannel :=
  let built := channel.built .channel message replyID parentID
  let msg := (channel.inContext .channel replyID parentID).next
  built.withRoots (built.messages_.pushBack msg).1 built.parsed channel.held

def erasedThread (message : Message) (replyID parentID : Option QString) (channel : ThreadedChannel) :
    Option ThreadPtr :=
  (channel.built .channel message replyID parentID).erasedBy (channel.inContext .channel replyID parentID).next

section incoming

variable {message : Message} {replyID parentID : Option QString}

theorem Kept.remaining (h : channel.Kept) : (channel.remaining message replyID parentID).Kept := by
  obtain ⟨hKept, hExtends, hNew⟩ := h.built .channel message replyID parentID
  refine hKept.withRoots (fun msg hMsg => ?_) (fun msg hMsg => holds_of_mem_parsed hMsg) hExtends.held
  rw [LimitedQueue.getSnapshot_pushBack] at hMsg
  rcases List.mem_append.mp (List.drop_subset _ _ hMsg) with hOld | hLast
  · exact holds_of_mem_buffer hOld
  · rw [List.mem_singleton.mp hLast]
    exact hNew

theorem Kept.entry_of_erasedThread (h : channel.Kept) {thread : ThreadPtr}
    (hErased : channel.erasedThread message replyID parentID = some thread) :
    ∃ object, (channel.remaining message replyID parentID).threadObjects thread = some object ∧
      (channel.remaining message replyID parentID).threads_ object.rootMessageId_ = some thread := by
  obtain ⟨hKept, -, -⟩ := h.built .channel message replyID parentID
  obtain ⟨deleted, hDeleted, hFilter⟩ := Option.bind_eq_some_iff.mp hErased
  obtain ⟨hThread, -⟩ := Option.filter_eq_some_iff.mp hFilter
  have hMem : deleted ∈ (channel.built .channel message replyID parentID).messages_.getSnapshot := by
    rw [LimitedQueue.pushBack] at hDeleted
    dsimp only at hDeleted
    split at hDeleted
    · exact List.mem_of_mem_head? hDeleted
    · cases hDeleted
  have hHolds : (channel.built .channel message replyID parentID).Holds (.thread thread) :=
    (holds_of_mem_buffer hMem).target (by simp [refs, hThread])
  obtain ⟨object, hObject, -⟩ := hKept.sound.attached deleted thread hThread
  exact ⟨object, hObject, hKept.mapped thread object hHolds hObject⟩

theorem incoming_channel_of_none (hErased : channel.erasedThread message replyID parentID = none) :
    channel.incoming .channel message replyID parentID false = channel.remaining message replyID parentID := by
  have hAdd := addMessage_of_none hErased
  exact congrArg (fun next : ThreadedChannel => { next with held := channel.held }) hAdd

theorem incoming_channel_of_some {thread : ThreadPtr}
    (hErased : channel.erasedThread message replyID parentID = some thread) :
    channel.incoming .channel message replyID parentID false =
      (channel.remaining message replyID parentID).withThreads
        ((channel.remaining message replyID parentID).erasing thread) := by
  have hAdd := addMessage_of_some hErased
  exact congrArg (fun next : ThreadedChannel => { next with held := channel.held }) hAdd

theorem Kept.mapped_incoming_iff (h : channel.Kept) :
    (channel.incoming .channel message replyID parentID false).Mapped ↔
      ∀ thread ∈ channel.erasedThread message replyID parentID,
        (channel.remaining message replyID parentID).alive (.thread thread) = false := by
  have hRemaining := @Kept.remaining channel message replyID parentID h
  cases hErased : channel.erasedThread message replyID parentID with
  | none =>
    rw [incoming_channel_of_none hErased]
    refine iff_of_true hRemaining.mapped ?_
    rintro _ ⟨⟩
  | some thread =>
    obtain ⟨object, hObject, hEntry⟩ := h.entry_of_erasedThread hErased
    rw [incoming_channel_of_some hErased, hRemaining.mapped.erasing_iff hObject hEntry, ← hRemaining.sound.alive_iff,
      Bool.not_eq_true]
    exact ⟨fun hGone _ hSame => Option.some.inj hSame ▸ hGone, fun hAll => hAll thread rfl⟩

theorem Kept.incoming_ignored (h : channel.Kept) (sink : ReplySink) :
    (channel.incoming sink message replyID parentID true).Kept := by
  obtain ⟨hKept, hExtends, -⟩ := h.replyContext sink replyID parentID
  exact hKept.withRoots (fun msg hMsg => holds_of_mem_buffer hMsg) (fun msg hMsg => holds_of_mem_parsed hMsg)
    hExtends.held

theorem Kept.incoming_history (h : channel.Kept) :
    (channel.incoming .history message replyID parentID false).Kept := by
  obtain ⟨hKept, hExtends, hNew⟩ := h.built .history message replyID parentID
  refine hKept.withRoots (fun msg hMsg => holds_of_mem_buffer hMsg) (fun msg hMsg => ?_) hExtends.held
  rcases List.mem_append.mp hMsg with hParsed | hLast
  · exact holds_of_mem_parsed hParsed
  · rw [List.mem_singleton.mp hLast]
    exact hNew

theorem Kept.sound_incoming (h : channel.Kept) :
    (channel.incoming .channel message replyID parentID false).Sound := by
  have hRemaining := @Kept.remaining channel message replyID parentID h
  cases hErased : channel.erasedThread message replyID parentID with
  | none =>
    rw [incoming_channel_of_none hErased]
    exact hRemaining.sound
  | some thread =>
    rw [incoming_channel_of_some hErased]
    exact hRemaining.sound.withThreads fun _ _ hEntry => erasing_eq_some hEntry

end incoming

theorem Kept.addMessagesAtStart (h : channel.Kept) : channel.addMessagesAtStart.Kept := by
  refine h.withRoots (fun msg hMsg => ?_) (fun _ hMsg => absurd hMsg List.not_mem_nil) (List.Subset.refl _)
  rw [LimitedQueue.getSnapshot_pushFront] at hMsg
  rcases List.mem_append.mp hMsg with hNew | hOld
  · exact holds_of_mem_parsed ((LimitedQueue.rtake_sublist _ _).subset hNew)
  · exact holds_of_mem_buffer hOld

theorem Kept.fillInMissingMessages (h : channel.Kept) : channel.fillInMissingMessages.Kept := by
  refine h.withRoots (fun msg hMsg => ?_) (fun _ hMsg => absurd hMsg List.not_mem_nil) (List.Subset.refl _)
  have hSubperm := FillIn.subperm_fillInMissingMessages (fun msg => (channel.messageObjects msg).toMessage)
    channel.messages_ channel.parsed
  rcases List.mem_append.mp (hSubperm.subset hMsg) with hNew | hOld
  · exact holds_of_mem_parsed (List.filter_sublist.subset hNew)
  · exact holds_of_mem_buffer hOld

theorem Kept.hold (h : channel.Kept) {ref : ThreadRef} (hRef : channel.Holds ref) : (channel.hold ref).Kept :=
  ⟨h.sound.hold hRef, h.mapped.hold hRef⟩

theorem Kept.getOrCreateThread (h : channel.Kept) {message : MessagePtr}
    (hMessage : channel.Holds (.message message)) : (channel.getOrCreateThread message).Kept := by
  unfold ThreadedChannel.getOrCreateThread
  split
  · rename_i thread hLock
    exact h.hold (h.sound.alive_iff.mp (lockThread_eq_some hLock).2)
  · rename_i hLock
    exact ⟨h.sound.createThread hMessage, h.mapped.createThread h.sound hMessage hLock⟩

theorem Kept.released (h : channel.Kept) (ref : ThreadRef) :
    ({ channel with held := channel.held.erase ref } : ThreadedChannel).Kept :=
  h.withRoots (fun _ hMsg => holds_of_mem_buffer hMsg) (fun _ hMsg => holds_of_mem_parsed hMsg) List.erase_subset

theorem Sound.cleanUpReplyThreads (h : channel.Sound) : channel.cleanUpReplyThreads.Sound :=
  h.withThreads fun _ _ hEntry => (Option.filter_eq_some_iff.mp hEntry).1

theorem Kept.mapped_cleanUp_iff (h : channel.Kept) : channel.cleanUpReplyThreads.Mapped ↔
    ∀ thread < channel.next, channel.alive (.thread thread) → (channel.threadObjects thread).isSome →
      channel.liveCount thread none ≠ 0 := by
  constructor
  · intro hMapped thread _ hAlive hSome hCount
    obtain ⟨object, hObject⟩ := Option.isSome_iff_exists.mp hSome
    have hEntry := hMapped thread object (h.sound.alive_iff.mp hAlive) hObject
    have hKept := (Option.filter_eq_some_iff.mp hEntry).2
    simp [hCount] at hKept
  · intro hCounts thread object hThread hObject
    have hAlive := h.sound.alive_iff.mpr hThread
    have hCount := hCounts thread (h.sound.index_lt hThread) hAlive (Option.isSome_iff_exists.mpr ⟨object, hObject⟩)
    have hEntry := h.mapped thread object hThread hObject
    refine Option.filter_eq_some_iff.mpr ⟨hEntry, ?_⟩
    simp [hAlive, hCount]

section attaches

variable {sink : ReplySink} {message : Message} {replyID : QString} {parentID : Option QString}

theorem objects_incoming (replyID : Option QString) :
    (channel.incoming sink message replyID parentID false).messageObjects =
        (channel.built sink message replyID parentID).messageObjects ∧
      (channel.incoming sink message replyID parentID false).threadObjects =
        (channel.built sink message replyID parentID).threadObjects := by
  cases sink with
  | history => exact ⟨rfl, rfl⟩
  | channel =>
    cases hErased : channel.erasedThread message replyID parentID with
    | none =>
      rw [incoming_channel_of_none hErased]
      exact ⟨rfl, rfl⟩
    | some thread =>
      rw [incoming_channel_of_some hErased]
      exact ⟨rfl, rfl⟩

theorem Kept.attaches (h : channel.Kept) {thread : ThreadPtr} {object : MessageThread}
    (hAlive : channel.alive (.thread thread) = true) (hObject : channel.threadObjects thread = some object)
    (hId : object.rootMessageId_ = replyID) :
    ((channel.incoming sink message (some replyID) parentID false).messageObjects channel.next).replyThread =
        some thread ∧
      (channel.incoming sink message (some replyID) parentID false).threadObjects thread =
        some (object.addToThread channel.next) := by
  have hEntry := h.mapped thread object (h.sound.alive_iff.mp hAlive) hObject
  have hLock : channel.lockThread replyID = some thread :=
    Option.filter_eq_some_iff.mpr ⟨hId ▸ hEntry, hAlive⟩
  have hFound : channel.findThread sink replyID = (some thread, channel.hold (.thread thread)) := by
    rw [ThreadedChannel.findThread, hLock]
  have hContext : ∃ parent, channel.replyContext sink (some replyID) parentID =
      (some thread, parent, channel.hold (.thread thread)) := by
    rw [ThreadedChannel.replyContext, hFound]
    exact ⟨_, rfl⟩
  obtain ⟨parent, hContext⟩ := hContext
  obtain ⟨hMessages, hThreads⟩ := @objects_incoming channel sink message parentID (some replyID)
  rw [hMessages, hThreads, ThreadedChannel.built, hContext]
  constructor
  · exact (congrArg ThreadedMessage.replyThread (Function.update_self channel.next
      (parseThread message (some thread) parent) channel.messageObjects)).trans replyThread_parseThread
  · rw [threadObjects_makeIrcMessage, if_pos rfl]
    exact congrArg (Option.map (MessageThread.addToThread channel.next)) hObject

end attaches

/-- A root has one thread at most that is alive, the map has it, and the replies are listed in it once and in the
order in which they came. -/
structure OneThread (channel : ThreadedChannel) : Prop where
  mapped : ∀ thread object, channel.alive (.thread thread) = true → channel.threadObjects thread = some object →
    channel.threads_ object.rootMessageId_ = some thread
  unique : ∀ thread object other object', channel.alive (.thread thread) = true →
    channel.alive (.thread other) = true → channel.threadObjects thread = some object →
    channel.threadObjects other = some object' → object.rootMessageId_ = object'.rootMessageId_ → thread = other
  listed : ∀ msg thread, (channel.messageObjects msg).replyThread = some thread →
    ∃ object, channel.threadObjects thread = some object ∧ object.replies_.count msg = 1
  inOrder : ∀ thread object, channel.threadObjects thread = some object → object.replies_.Pairwise (· < ·)

theorem Sound.oneThread_iff_mapped (h : channel.Sound) : channel.OneThread ↔ channel.Mapped := by
  constructor
  · intro hOne thread object hThread hObject
    exact hOne.mapped thread object (h.alive_iff.mpr hThread) hObject
  · intro hMapped
    have hEntry {thread : ThreadPtr} {object : MessageThread} (hAlive : channel.alive (.thread thread) = true)
        (hObject : channel.threadObjects thread = some object) :
        channel.threads_ object.rootMessageId_ = some thread :=
      hMapped thread object (h.alive_iff.mp hAlive) hObject
    refine ⟨fun _ _ hAlive hObject => hEntry hAlive hObject, ?_, ?_, fun thread object hObject =>
      (h.inOrder thread object hObject).1⟩
    · intro thread object other object' hAlive hAlive' hObject hObject' hSame
      exact Option.some.inj ((hEntry hAlive hObject).symm.trans (hSame ▸ hEntry hAlive' hObject'))
    · intro msg thread hThread
      obtain ⟨object, hObject, hMem⟩ := h.attached msg thread hThread
      have hNodup : object.replies_.Nodup := (h.inOrder thread object hObject).1.imp fun hLt => hLt.ne
      exact ⟨object, hObject, List.count_eq_one_of_mem hNodup hMem⟩

/-- A later reply to a root whose thread is alive is attached to that thread. -/
def Attaches (channel : ThreadedChannel) : ThreadEvent → Prop
  | .incoming sink message (some replyID) parentID false =>
    ∀ thread object, channel.alive (.thread thread) = true → channel.threadObjects thread = some object →
      object.rootMessageId_ = replyID →
        ((channel.incoming sink message (some replyID) parentID false).messageObjects channel.next).replyThread =
            some thread ∧
          (channel.incoming sink message (some replyID) parentID false).threadObjects thread =
            some (object.addToThread channel.next)
  | _ => True

/-- A thread whose entry is removed is not alive any more. -/
def KeepsEntries (channel : ThreadedChannel) : ThreadEvent → Prop
  | .incoming .channel message replyID parentID false =>
    ∀ thread ∈ channel.erasedThread message replyID parentID,
      (channel.remaining message replyID parentID).alive (.thread thread) = false
  | .cleanUpReplyThreads =>
    ∀ thread < channel.next, channel.alive (.thread thread) → (channel.threadObjects thread).isSome →
      channel.liveCount thread none ≠ 0
  | _ => True

theorem Kept.step (h : channel.Kept) (event : ThreadEvent) :
    (channel.step event).Sound ∧ ((channel.step event).Mapped ↔ channel.KeepsEntries event) := by
  have hTrivial {other : ThreadedChannel} (hOther : other.Kept) : other.Sound ∧ (other.Mapped ↔ True) :=
    ⟨hOther.sound, iff_true_intro hOther.mapped⟩
  cases event with
  | incoming sink message replyID parentID ignored =>
    cases ignored with
    | true =>
      cases sink with
      | channel => exact hTrivial (@Kept.incoming_ignored channel message replyID parentID h .channel)
      | history => exact hTrivial (@Kept.incoming_ignored channel message replyID parentID h .history)
    | false =>
      cases sink with
      | channel => exact ⟨h.sound_incoming, h.mapped_incoming_iff⟩
      | history => exact hTrivial h.incoming_history
  | addMessagesAtStart => exact hTrivial h.addMessagesAtStart
  | fillInMissingMessages => exact hTrivial h.fillInMissingMessages
  | getOrCreateThread message =>
    refine hTrivial ?_
    rw [ThreadedChannel.step]
    split
    · rename_i hAlive
      exact h.getOrCreateThread (h.sound.alive_iff.mp hAlive)
    · exact h
  | cleanUpReplyThreads => exact ⟨h.sound.cleanUpReplyThreads, h.mapped_cleanUp_iff⟩
  | held ref =>
    refine hTrivial ?_
    rw [ThreadedChannel.step]
    split
    · rename_i hAlive
      exact h.hold (h.sound.alive_iff.mp hAlive)
    · exact h
  | released ref => exact hTrivial (h.released ref)

theorem Kept.attaches_step (h : channel.Kept) (event : ThreadEvent) : channel.Attaches event := by
  cases event with
  | incoming sink message replyID parentID ignored =>
    cases replyID with
    | none => trivial
    | some replyID =>
      cases ignored with
      | true => trivial
      | false => exact fun _ _ hAlive hObject hId => h.attaches hAlive hObject hId
  | _ => trivial

theorem kept_ofLimit (limit : Nat) : (ofLimit limit).Kept :=
  ⟨sound_ofLimit limit, fun _ _ _ hObject => by cases hObject⟩

/-- Threads stay unique in exactly the runs in which no entry of a thread that is alive is removed. -/
theorem oneThread_iff (limit : Nat) (events : List ThreadEvent) :
    ((∀ reached, reached <+: events → (reached.foldl step (ofLimit limit)).OneThread) ∧
        AllSteps step Attaches (ofLimit limit) events) ↔
      AllSteps step KeepsEntries (ofLimit limit) events := by
  have hKept : ∀ channel event, Kept channel → KeepsEntries channel event → Kept (channel.step event) :=
    fun channel event h hKeeps => ⟨(h.step event).1, (h.step event).2.mpr hKeeps⟩
  have hSide : AllSteps step (fun _ _ => True) (ofLimit limit) events :=
    AllSteps.of_forall_mem fun _ _ _ => trivial
  have hReached : (∀ reached, reached <+: events → (reached.foldl step (ofLimit limit)).OneThread) ↔
      AllSteps step KeepsEntries (ofLimit limit) events :=
    AllSteps.forall_reached_iff_of_strengthening hSide Kept OneThread (kept_ofLimit limit)
      (fun _ h => h.sound.oneThread_iff_mapped.mpr h.mapped)
      (fun channel event h _ hOne => (h.step event).2.mp ((h.step event).1.oneThread_iff_mapped.mp hOne))
      (fun channel event h _ hKeeps => hKept channel event h hKeeps)
  constructor
  · exact fun h => hReached.mp h.1
  · intro h
    exact ⟨hReached.mpr h, h.of_kept (kept_ofLimit limit) hKept fun channel event hChannel _ =>
      hChannel.attaches_step event⟩

/-- A reply is shown in another channel too when others evict it from the buffer, and its thread lives on. -/
theorem not_oneThread_evicted :
    ¬(∀ (limit : Nat) (events : List ThreadEvent), 1 ≤ limit →
      (∀ reached, reached <+: events → (reached.foldl step (ofLimit limit)).OneThread) ∧
        AllSteps step Attaches (ofLimit limit) events) := by
  intro h
  let message (id : QString) : Message := { id := id }
  let events : List ThreadEvent :=
    [.incoming .channel (message (lit "root")) none none false,
      .incoming .channel (message (lit "reply")) (some (lit "root")) (some (lit "root")) false,
      .held (.message 2)] ++
      List.replicate 100 (.incoming .channel (message (lit "other")) none none false)
  have hOne := (h 100 events (by decide)).1 events (List.prefix_refl _)
  have hMapped := hOne.mapped 1 ⟨lit "root", 0, [2]⟩ (by decide +kernel) (by decide +kernel)
  revert hMapped
  decide +kernel

end ThreadedChannel

end Chatterino.Twitch
