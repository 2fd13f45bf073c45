import Chatterino.Twitch.ReplyThreads

/-! # What a reply does to the threads

A reply finds its thread in the map or creates one, lists itself there, and may evict the first message of the
buffer, whose thread loses its entry if no other reply of it is alive.
-/

namespace Chatterino.Twitch

open Lib QString

namespace ThreadedChannel

variable {channel : ThreadedChannel} {ref : ThreadRef}

section makeIrcMessage

variable {message : Message} {thread : Option ThreadPtr} {parent : Option MessagePtr}

theorem replyThread_parseThread : (parseThread message thread parent).replyThread = thread := by
  cases thread <;> rfl

theorem replyParent_parseThread {msg : MessagePtr} (h : msg ∈ (parseThread message thread parent).replyParent) :
    msg ∈ parent := by
  cases thread with
  | none => cases h
  | some thread => exact h

theorem messageObjects_makeIrcMessage : (channel.makeIrcMessage message thread parent).messageObjects =
    Function.update channel.messageObjects channel.next (parseThread message thread parent) := rfl

theorem threadObjects_makeIrcMessage (other : ThreadPtr) :
    (channel.makeIrcMessage message thread parent).threadObjects other =
      if thread = some other then (channel.threadObjects other).map (MessageThread.addToThread channel.next)
      else channel.threadObjects other := rfl

theorem threadObjects_of_makeIrcMessage {other : ThreadPtr} {object' : MessageThread}
    (h : (channel.makeIrcMessage message thread parent).threadObjects other = some object') :
    ∃ object, channel.threadObjects other = some object ∧ object'.rootMessageId_ = object.rootMessageId_ ∧
      object'.rootMessage_ = object.rootMessage_ ∧
      (object'.replies_ = object.replies_ ∨ object'.replies_ = object.replies_ ++ [channel.next]) := by
  rw [threadObjects_makeIrcMessage] at h
  split at h
  · obtain ⟨object, hObject, rfl⟩ := Option.map_eq_some_iff.mp h
    exact ⟨object, hObject, rfl, rfl, .inr rfl⟩
  · exact ⟨object', h, rfl, rfl, .inl rfl⟩

theorem exists_threadObjects_makeIrcMessage {other : ThreadPtr} {object : MessageThread}
    (h : channel.threadObjects other = some object) :
    ∃ object', (channel.makeIrcMessage message thread parent).threadObjects other = some object' ∧
      object'.rootMessageId_ = object.rootMessageId_ ∧ object.replies_ ⊆ object'.replies_ ∧
      (thread = some other → channel.next ∈ object'.replies_) := by
  rw [threadObjects_makeIrcMessage, h]
  split
  · refine ⟨_, rfl, rfl, fun reply hReply => List.mem_append_left _ hReply, fun _ => ?_⟩
    exact List.mem_append_right _ (List.mem_singleton_self _)
  · rename_i hOther
    exact ⟨object, rfl, rfl, fun _ hReply => hReply, fun hSame => absurd hSame hOther⟩

theorem refs_makeIrcMessage {holder : ThreadRef} (hNe : holder ≠ .message channel.next) :
    (channel.makeIrcMessage message thread parent).refs holder = channel.refs holder := by
  cases holder with
  | message msg =>
    have hMsg : msg ≠ channel.next := fun hSame => hNe (congrArg _ hSame)
    rw [refs, refs, messageObjects_makeIrcMessage, Function.update_of_ne hMsg]
  | thread other =>
    rw [refs, refs, threadObjects_makeIrcMessage]
    split
    · cases channel.threadObjects other <;> rfl
    · rfl

theorem refs_makeIrcMessage_self {target : ThreadRef}
    (h : target ∈ (channel.makeIrcMessage message thread parent).refs (.message channel.next)) :
    (∃ other ∈ thread, target = .thread other) ∨ ∃ msg ∈ parent, target = .message msg := by
  rw [refs, messageObjects_makeIrcMessage, Function.update_self, replyThread_parseThread] at h
  rcases List.mem_append.mp h with hThread | hParent
  · obtain ⟨other, hOther, rfl⟩ := List.mem_map.mp hThread
    exact .inl ⟨other, Option.mem_toList.mp hOther, rfl⟩
  · obtain ⟨msg, hMsg, rfl⟩ := List.mem_map.mp hParent
    exact .inr ⟨msg, replyParent_parseThread (Option.mem_toList.mp hMsg), rfl⟩

structure Builds (channel : ThreadedChannel) (thread : Option ThreadPtr) (parent : Option MessagePtr) : Prop where
  thread : ∀ other ∈ thread, channel.Holds (.thread other) ∧ ∃ object, channel.threadObjects other = some object
  parent : ∀ msg ∈ parent, channel.Holds (.message msg)

theorem Builds.target (h : channel.Builds thread parent) {target : ThreadRef}
    (hTarget : target ∈ (channel.makeIrcMessage message thread parent).refs (.message channel.next)) :
    channel.Holds target := by
  rcases refs_makeIrcMessage_self hTarget with ⟨other, hOther, rfl⟩ | ⟨msg, hMsg, rfl⟩
  · exact (h.thread other hOther).1
  · exact h.parent msg hMsg

theorem Sound.holds_makeIrcMessage (h : channel.Sound) (hBuilds : channel.Builds thread parent) :
    (channel.makeIrcMessage message thread parent).Holds ref ↔
      ref = .message channel.next ∨ channel.Holds ref :=
  h.holds_created rfl (fun _ hNe => refs_makeIrcMessage hNe) (fun _ hTarget => hBuilds.target hTarget) roots_hold

theorem Sound.makeIrcMessage (h : channel.Sound) (hBuilds : channel.Builds thread parent) :
    (channel.makeIrcMessage message thread parent).Sound := by
  refine ⟨?_, ?_, ?_, ?_, ?_, ?_⟩
  · intro holder target hTarget
    rcases eq_or_ne holder (.message channel.next) with rfl | hNe
    · exact h.index_lt (hBuilds.target hTarget)
    · rw [refs_makeIrcMessage hNe] at hTarget
      exact h.older holder target hTarget
  · intro other hOther
    rcases List.mem_cons.mp (roots_hold.mem_iff.mp hOther) with rfl | hOther
    · exact Nat.lt_succ_self _
    · exact (h.rootsOld other hOther).trans (Nat.lt_succ_self _)
  · intro rootId other hEntry
    obtain ⟨object, hObject, hId⟩ := h.entries rootId other hEntry
    obtain ⟨object', hObject', hId', -, -⟩ := exists_threadObjects_makeIrcMessage hObject
    exact ⟨object', hObject', hId'.trans hId⟩
  · intro other object' hObject'
    obtain ⟨object, hObject, -⟩ := threadObjects_of_makeIrcMessage hObject'
    exact (h.threadsOld other object hObject).trans (Nat.lt_succ_self _)
  · intro msg other hThread
    rw [messageObjects_makeIrcMessage] at hThread
    rcases eq_or_ne msg channel.next with rfl | hNe
    · rw [Function.update_self, replyThread_parseThread] at hThread
      obtain ⟨-, object, hObject⟩ := hBuilds.thread other hThread
      obtain ⟨object', hObject', -, -, hListed⟩ := exists_threadObjects_makeIrcMessage hObject
      exact ⟨object', hObject', hListed hThread⟩
    · rw [Function.update_of_ne hNe] at hThread
      obtain ⟨object, hObject, hMem⟩ := h.attached msg other hThread
      obtain ⟨object', hObject', -, hReplies, -⟩ := exists_threadObjects_makeIrcMessage hObject
      exact ⟨object', hObject', hReplies hMem⟩
  · intro other object' hObject'
    obtain ⟨object, hObject, -, -, hReplies⟩ := threadObjects_of_makeIrcMessage hObject'
    obtain ⟨hOrder, hLt⟩ := h.inOrder other object hObject
    rcases hReplies with hReplies | hReplies
    · rw [hReplies]
      exact ⟨hOrder, fun reply hReply => (hLt reply hReply).trans (Nat.lt_succ_self _)⟩
    · rw [hReplies]
      constructor
      · refine List.pairwise_append.mpr ⟨hOrder, List.pairwise_singleton _ _, fun reply hReply next hNext => ?_⟩
        rw [List.mem_singleton.mp hNext]
        exact hLt reply hReply
      · intro reply hReply
        rcases List.mem_append.mp hReply with hReply | hReply
        · exact (hLt reply hReply).trans (Nat.lt_succ_self _)
        · rw [List.mem_singleton.mp hReply]
          exact Nat.lt_succ_self _

theorem Mapped.makeIrcMessage (h : channel.Mapped) (hSound : channel.Sound) (hBuilds : channel.Builds thread parent) :
    (channel.makeIrcMessage message thread parent).Mapped := by
  intro other object' hOther hObject'
  obtain ⟨object, hObject, hId, -⟩ := threadObjects_of_makeIrcMessage hObject'
  rcases (hSound.holds_makeIrcMessage hBuilds).mp hOther with hNew | hOther
  · cases hNew
  · rw [hId]
    exact h other object hOther hObject

end makeIrcMessage

end ThreadedChannel

namespace ThreadedChannel

variable {channel other : ThreadedChannel} {ref : ThreadRef}

theorem lockThread_eq_some {rootId : QString} {thread : ThreadPtr} (h : channel.lockThread rootId = some thread) :
    channel.threads_ rootId = some thread ∧ channel.alive (.thread thread) = true :=
  Option.filter_eq_some_iff.mp h

theorem holds_findMessageByID {sink : ReplySink} {id : QString} {msg : MessagePtr}
    (h : channel.findMessageByID sink id = some msg) :
    channel.Holds (.message msg) ∧ (channel.messageObjects msg).id = id := by
  cases sink with
  | channel =>
    have hMem := List.mem_of_find?_eq_some h
    exact ⟨holds_of_mem_buffer (List.mem_reverse.mp hMem), by simpa using List.find?_some h⟩
  | history =>
    have hMem := List.mem_of_find?_eq_some h
    exact ⟨holds_of_mem_parsed (List.mem_reverse.mp hMem), by simpa using List.find?_some h⟩

structure Extends (channel other : ThreadedChannel) : Prop where
  messages_ : other.messages_ = channel.messages_
  parsed : other.parsed = channel.parsed
  held : channel.held ⊆ other.held

theorem Extends.hold : channel.Extends (channel.hold ref) := ⟨rfl, rfl, List.subset_cons_self _ _⟩

theorem Extends.createThread {root : MessagePtr} : channel.Extends (channel.createThread root) :=
  ⟨rfl, rfl, List.subset_cons_self _ _⟩

structure Kept (channel : ThreadedChannel) : Prop where
  sound : channel.Sound
  mapped : channel.Mapped

theorem Kept.withRoots (h : channel.Kept) {messages_ : LimitedQueue MessagePtr} {parsed : List MessagePtr}
    {held : List ThreadRef} (hBuffer : ∀ msg ∈ messages_.getSnapshot, channel.Holds (.message msg))
    (hParsed : ∀ msg ∈ parsed, channel.Holds (.message msg)) (hHeld : held ⊆ channel.held) :
    (channel.withRoots messages_ parsed held).Kept := by
  have hRoots : ∀ root ∈ (channel.withRoots messages_ parsed held).roots, channel.Holds root := by
    intro root hRoot
    rcases List.mem_append.mp hRoot with hMessage | hRef
    · obtain ⟨msg, hMsg, rfl⟩ := List.mem_map.mp hMessage
      exact (List.mem_append.mp hMsg).elim (hBuffer msg) (hParsed msg)
    · exact Held.of_mem (List.mem_append_right _ (hHeld hRef))
  exact ⟨h.sound.withRoots hRoots, h.mapped.withRoots hRoots⟩

theorem Kept.findThread (h : channel.Kept) (sink : ReplySink) (replyID : QString) :
    (channel.findThread sink replyID).2.Kept ∧ channel.Extends (channel.findThread sink replyID).2 ∧
      ∀ thread ∈ (channel.findThread sink replyID).1, (channel.findThread sink replyID).2.Holds (.thread thread) ∧
        ∃ object, (channel.findThread sink replyID).2.threadObjects thread = some object := by
  unfold ThreadedChannel.findThread
  split
  · rename_i thread hLock
    obtain ⟨hEntry, hAlive⟩ := lockThread_eq_some hLock
    have hHolds := h.sound.alive_iff.mp hAlive
    refine ⟨⟨h.sound.hold hHolds, h.mapped.hold hHolds⟩, Extends.hold, ?_⟩
    rintro _ ⟨⟩
    obtain ⟨object, hObject, -⟩ := h.sound.entries replyID thread hEntry
    exact ⟨holds_hold_self, object, hObject⟩
  · rename_i hLock
    split
    · rename_i root hRoot
      obtain ⟨hHolds, hId⟩ := holds_findMessageByID hRoot
      refine ⟨⟨h.sound.createThread hHolds, h.mapped.createThread h.sound hHolds (hId ▸ hLock)⟩,
        Extends.createThread, ?_⟩
      rintro _ ⟨⟩
      exact ⟨(h.sound.holds_createThread hHolds).mpr (.inl rfl), _, Function.update_self _ _ _⟩
    · refine ⟨h, ⟨rfl, rfl, List.Subset.refl _⟩, ?_⟩
      rintro _ ⟨⟩

theorem holds_of_rootOf {thread : ThreadPtr} {root : MessagePtr}
    (hThread : channel.Holds (.thread thread)) (hRoot : channel.rootOf thread = some root) :
    channel.Holds (.message root) := by
  obtain ⟨object, hObject, rfl⟩ := Option.map_eq_some_iff.mp hRoot
  exact ThreadedChannel.holds_rootOf hThread hObject

theorem Sound.holds_findParent (h : channel.Sound) {sink : ReplySink} {replyID parentID : QString}
    {thread : Option ThreadPtr} {parent : MessagePtr} (hThread : ∀ other ∈ thread, channel.Holds (.thread other))
    (hParent : channel.findParent sink replyID parentID thread = some parent) : channel.Holds (.message parent) := by
  unfold findParent at hParent
  split at hParent
  · obtain ⟨other, hOther, hRoot⟩ := Option.bind_eq_some_iff.mp hParent
    exact holds_of_rootOf (hThread other hOther) hRoot
  · split at hParent
    · obtain ⟨other, hLock, hRoot⟩ := Option.bind_eq_some_iff.mp hParent
      exact holds_of_rootOf (h.alive_iff.mp (lockThread_eq_some hLock).2) hRoot
    · exact (holds_findMessageByID hParent).1

def inContext (sink : ReplySink) (replyID parentID : Option QString) (channel : ThreadedChannel) : ThreadedChannel :=
  (channel.replyContext sink replyID parentID).2.2

theorem Kept.replyContext (h : channel.Kept) (sink : ReplySink) (replyID parentID : Option QString) :
    (channel.inContext sink replyID parentID).Kept ∧ channel.Extends (channel.inContext sink replyID parentID) ∧
      (channel.inContext sink replyID parentID).Builds (channel.replyContext sink replyID parentID).1
        (channel.replyContext sink replyID parentID).2.1 := by
  unfold inContext ThreadedChannel.replyContext
  cases replyID with
  | none =>
    refine ⟨h, ⟨rfl, rfl, List.Subset.refl _⟩, ?_, ?_⟩
    · rintro _ ⟨⟩
    · rintro _ ⟨⟩
  | some replyID =>
    obtain ⟨hKept, hExtends, hThread⟩ := h.findThread sink replyID
    refine ⟨hKept, hExtends, hThread, ?_⟩
    intro parent hParent
    obtain ⟨parentID, -, hFound⟩ := Option.bind_eq_some_iff.mp hParent
    exact hKept.sound.holds_findParent (fun other hOther => (hThread other hOther).1) hFound

theorem built_eq (sink : ReplySink) (message : Message) (replyID parentID : Option QString) :
    channel.built sink message replyID parentID =
      (channel.inContext sink replyID parentID).makeIrcMessage message
        (channel.replyContext sink replyID parentID).1 (channel.replyContext sink replyID parentID).2.1 := rfl

theorem Kept.built (h : channel.Kept) (sink : ReplySink) (message : Message) (replyID parentID : Option QString) :
    (channel.built sink message replyID parentID).Kept ∧
      channel.Extends (channel.built sink message replyID parentID) ∧
      (channel.built sink message replyID parentID).Holds
        (.message (channel.inContext sink replyID parentID).next) := by
  obtain ⟨hKept, hExtends, hBuilds⟩ := h.replyContext sink replyID parentID
  rw [built_eq]
  refine ⟨⟨hKept.sound.makeIrcMessage hBuilds, hKept.mapped.makeIrcMessage hKept.sound hBuilds⟩, ?_, ?_⟩
  · exact ⟨hExtends.messages_, hExtends.parsed, List.Subset.trans hExtends.held (List.subset_cons_self _ _)⟩
  · exact (hKept.sound.holds_makeIrcMessage hBuilds).mpr (.inl rfl)

def withThreads (threads_ : QString → Option ThreadPtr) (channel : ThreadedChannel) : ThreadedChannel :=
  { channel with threads_ := threads_ }

theorem Sound.withThreads (h : channel.Sound) {threads_ : QString → Option ThreadPtr}
    (hFewer : ∀ rootId thread, threads_ rootId = some thread → channel.threads_ rootId = some thread) :
    (channel.withThreads threads_).Sound :=
  { h with entries := fun rootId thread hEntry => h.entries rootId thread (hFewer rootId thread hEntry) }

def erasing (thread : ThreadPtr) (channel : ThreadedChannel) (rootId : QString) : Option ThreadPtr :=
  if (channel.threadObjects thread).map MessageThread.rootMessageId_ = some rootId then none
  else channel.threads_ rootId

theorem eraseThread_eq (thread : ThreadPtr) :
    channel.eraseThread thread = channel.withThreads (channel.erasing thread) := by
  have hThreads : (channel.eraseThread thread).threads_ = channel.erasing thread := by
    funext rootId
    unfold eraseThread erasing
    cases channel.threadObjects thread with
    | none => rfl
    | some object =>
      rcases eq_or_ne rootId object.rootMessageId_ with rfl | hNe
      · exact (Function.update_self _ _ _).trans (if_pos rfl).symm
      · exact (Function.update_of_ne hNe _ _).trans (if_neg fun hSame => hNe (Option.some.inj hSame).symm).symm
  rw [← hThreads]
  unfold eraseThread
  cases channel.threadObjects thread with
  | none => rfl
  | some object => rfl

theorem erasing_eq_some {thread other : ThreadPtr} {rootId : QString}
    (h : channel.erasing thread rootId = some other) : channel.threads_ rootId = some other := by
  unfold erasing at h
  split at h
  · cases h
  · exact h

theorem Mapped.erasing_iff (h : channel.Mapped) {thread : ThreadPtr} {object : MessageThread}
    (hObject : channel.threadObjects thread = some object) (hEntry : channel.threads_ object.rootMessageId_ = some thread) :
    (channel.withThreads (channel.erasing thread)).Mapped ↔ ¬channel.Holds (.thread thread) := by
  constructor
  · intro hMapped hHolds
    have hErased : channel.erasing thread object.rootMessageId_ = none := by
      rw [erasing, hObject]
      exact if_pos rfl
    exact Option.some_ne_none thread ((hMapped thread object hHolds hObject).symm.trans hErased)
  · intro hGone other object' hOther hObject'
    have hEntry' := h other object' hOther hObject'
    refine (if_neg ?_).trans hEntry'
    intro hSame
    rw [hObject] at hSame
    rw [← Option.some.inj hSame, hEntry] at hEntry'
    exact hGone (Option.some.inj hEntry' ▸ hOther)

def erasedBy (msg : MessagePtr) (channel : ThreadedChannel) : Option ThreadPtr :=
  (channel.messages_.pushBack msg).2.bind fun deleted =>
    (channel.messageObjects deleted).replyThread.filter fun thread =>
      ((channel.pushed msg).hold (.message deleted)).liveCount thread (some deleted) = 0

theorem addMessage_of_none {msg : MessagePtr} (h : channel.erasedBy msg = none) :
    channel.addMessage msg = channel.pushed msg := by
  unfold addMessage
  split
  · rename_i deleted hDeleted
    rw [erasedBy, hDeleted, Option.bind_some] at h
    unfold messageRemovedFromStart
    split
    · rename_i thread hThread
      have hReply : (channel.messageObjects deleted).replyThread = some thread := hThread
      rw [hReply] at h
      rw [if_neg fun hCount => by simp [Option.filter, hCount] at h]
      rfl
    · rfl
  · rfl

theorem addMessage_of_some {msg : MessagePtr} {thread : ThreadPtr} (h : channel.erasedBy msg = some thread) :
    channel.addMessage msg = (channel.pushed msg).withThreads (channel.erasing thread) := by
  obtain ⟨deleted, hDeleted, hFilter⟩ := Option.bind_eq_some_iff.mp h
  obtain ⟨hThread, hCount⟩ := Option.filter_eq_some_iff.mp hFilter
  have hReply : ((channel.pushed msg).hold (.message deleted)).messageObjects deleted =
      channel.messageObjects deleted := rfl
  unfold addMessage
  rw [hDeleted]
  dsimp only
  rw [messageRemovedFromStart, hReply, hThread]
  dsimp only
  rw [if_pos (of_decide_eq_true hCount), eraseThread_eq]
  rfl

end ThreadedChannel

end Chatterino.Twitch
