import Chatterino.ChannelViews.HeldMessages
import Chatterino.Lib.Run

/-! # A view shows its filtered channel

The messages of a view are the last ones of its proxy. Each step is told apart that keeps this: what
clears the view leaves the proxy as it is, and a proxy with the smaller limit forgets messages that
the view still has.
-/

namespace Chatterino.ChannelView

open Lib

variable {MessagePtr Underlying : Type} {view : ChannelView MessagePtr Underlying} {l : List MessagePtr}

def Shows (view : ChannelView MessagePtr Underlying) : Prop :=
  view.messages_.getSnapshot = view.channel_.getMessageSnapshot.rtake view.messages_.limit

def Keeps (view : ChannelView MessagePtr Underlying) (length limit : Nat) : Prop :=
  view.messages_.limit ≤ limit ∨ length ≤ limit

section condition

variable [DecidableEq MessagePtr] (reading : MessageReading MessagePtr)

def KeepsShown (view : ChannelView MessagePtr Underlying) : ViewEvent MessagePtr Underlying → Prop
  | .messageAppended message _ =>
    view.shouldIncludeMessage reading message = true →
      view.Keeps (view.channel_.getMessageSnapshot.length +
        if view.channel_.lastDate_ ≠ view.surroundings.currentDate then 2 else 1) view.channel_.messages_.limit
  | .messageReplaced index prev replacement =>
    view.shouldIncludeMessage reading replacement = true →
      prev = replacement ∨ position index prev view.messages_.getSnapshot =
        inTail view.messages_.limit view.channel_.getMessageSnapshot.length
          (position index prev view.channel_.getMessageSnapshot)
  | .messagesCleared => view.messages_.getSnapshot = []
  | .setChannel _ snapshot =>
    view.Keeps (snapshot.filter (view.shouldIncludeMessage reading)).length view.surroundings.scrollbackSplitLimit
  | _ => True

end condition

/-- The view and the proxy were given the messages of a list, and each keeps the last ones. -/
structure Fed (view : ChannelView MessagePtr Underlying) (l : List MessagePtr) : Prop where
  shown : view.messages_.getSnapshot = l.rtake view.messages_.limit
  proxy : view.channel_.getMessageSnapshot = l.rtake view.channel_.messages_.limit

theorem Shows.fed (h : view.Shows) : view.Fed view.channel_.getMessageSnapshot where
  shown := h
  proxy := (CircularBuffer.rtake_of_length_le view.channel_.messages_.length_getSnapshot_le).symm

theorem Fed.shows_iff_keeps (h : view.Fed l) : view.Shows ↔ view.Keeps l.length view.channel_.messages_.limit := by
  rw [Shows, h.shown, h.proxy]
  exact rtake_eq_rtake_rtake_iff

theorem Fed.addMessage (h : view.Fed l) (message : MessagePtr) : (view.addMessage message).Fed (l ++ [message]) where
  shown := by
    have hLimit : (view.toViewMessages.messageAppended message).messages_.limit = view.messages_.limit := by simp
    change (view.toViewMessages.messageAppended message).messages_.getSnapshot = _
    rw [ViewMessages.messages_messageAppended, LimitedQueue.getSnapshot_pushBack, h.shown, rtake_append_rtake]
    exact congrArg _ hLimit.symm
  proxy := by
    change (view.channel_.addMessage message).getMessageSnapshot = _
    rw [ProxyChannel.getMessageSnapshot_addMessage, h.proxy, rtake_append_rtake]
    rfl

@[simp] theorem limit_addMessage (message : MessagePtr) (view : ChannelView MessagePtr Underlying) :
    (view.addMessage message).messages_.limit = view.messages_.limit := by
  simp [addMessage]

theorem shows_onMessageAppended_iff (reading : MessageReading MessagePtr) (h : view.Shows) (message dayMessage : MessagePtr) :
    (view.onMessageAppended reading message dayMessage).Shows ↔
      (view.shouldIncludeMessage reading message = true →
        view.Keeps (view.channel_.getMessageSnapshot.length +
          if view.channel_.lastDate_ ≠ view.surroundings.currentDate then 2 else 1) view.channel_.messages_.limit) := by
  unfold onMessageAppended
  split
  · rename_i hInclude
    rw [forall_prop_of_true hInclude]
    by_cases hDay : view.channel_.lastDate_ ≠ view.surroundings.currentDate
    · have hDated : Fed { view with
          channel_ := { view.channel_ with
            lastDate_ := view.surroundings.currentDate
            limit_lt := view.channel_.limit_lt } } view.channel_.getMessageSnapshot := ⟨h.fed.shown, h.fed.proxy⟩
      have hFed := (hDated.addMessage dayMessage).addMessage message
      rw [dayChanged, if_pos hDay, if_pos hDay, hFed.shows_iff_keeps, Keeps, limit_addMessage, limit_addMessage, Keeps]
      simp only [List.length_append, List.length_singleton]
      rfl
    · have hFed := h.fed.addMessage message
      rw [dayChanged, if_neg hDay, if_neg hDay, hFed.shows_iff_keeps, Keeps, limit_addMessage, Keeps]
      simp only [List.length_append, List.length_singleton]
      rfl
  · rename_i hExclude
    exact iff_of_true h fun hInclude => absurd hInclude hExclude

theorem foldl_copyMessage (reading : MessageReading MessagePtr) (snapshot : List MessagePtr)
    (view : ChannelView MessagePtr Underlying) :
    snapshot.foldl (copyMessage reading) view =
      { view with
        messages_ := (snapshot.filter (view.shouldIncludeMessage reading)).foldl
          (fun q msg => (q.pushBack msg).1) view.messages_
        channel_ := (snapshot.filter (view.shouldIncludeMessage reading)).foldl
          (fun channel msg => channel.addMessage msg) view.channel_ } := by
  induction snapshot generalizing view with
  | nil => rfl
  | cons msg snapshot ih =>
    rw [List.foldl_cons, ih, copyMessage, List.filter_cons]
    split
    · rfl
    · rfl

section setChannel

variable (reading : MessageReading MessagePtr) (underlyingChannel : Underlying) (snapshot : List MessagePtr)
  (view : ChannelView MessagePtr Underlying)

theorem messages_onSetChannel : (view.onSetChannel reading underlyingChannel snapshot).messages_ =
    (snapshot.filter (view.shouldIncludeMessage reading)).foldl (fun q msg => (q.pushBack msg).1)
      view.messages_.clear := by
  rw [onSetChannel, foldl_copyMessage]
  rfl

theorem channel_onSetChannel : (view.onSetChannel reading underlyingChannel snapshot).channel_ =
    (snapshot.filter (view.shouldIncludeMessage reading)).foldl (fun channel msg => channel.addMessage msg)
      (.ofLimit view.surroundings.scrollbackSplitLimit view.surroundings.currentDate view.surroundings.limit_lt) := by
  rw [onSetChannel, foldl_copyMessage]
  rfl

theorem limit_onSetChannel :
    (view.onSetChannel reading underlyingChannel snapshot).messages_.limit = view.messages_.limit := by
  rw [messages_onSetChannel, LimitedQueue.limit_foldl_pushBack, LimitedQueue.limit_clear]

theorem proxyLimit_onSetChannel : (view.onSetChannel reading underlyingChannel snapshot).channel_.messages_.limit =
    view.surroundings.scrollbackSplitLimit := by
  rw [channel_onSetChannel, ProxyChannel.messages_foldl_addMessage, LimitedQueue.limit_foldl_pushBack]
  rfl

theorem fed_onSetChannel : (view.onSetChannel reading underlyingChannel snapshot).Fed
    (snapshot.filter (view.shouldIncludeMessage reading)) where
  shown := by
    rw [limit_onSetChannel, messages_onSetChannel, LimitedQueue.getSnapshot_foldl_pushBack]
    rfl
  proxy := by
    rw [proxyLimit_onSetChannel, ProxyChannel.getMessageSnapshot, channel_onSetChannel,
      ProxyChannel.messages_foldl_addMessage, LimitedQueue.getSnapshot_foldl_pushBack]
    rfl

theorem shows_onSetChannel_iff : (view.onSetChannel reading underlyingChannel snapshot).Shows ↔
    view.Keeps (snapshot.filter (view.shouldIncludeMessage reading)).length
      view.surroundings.scrollbackSplitLimit := by
  rw [(fed_onSetChannel reading underlyingChannel snapshot view).shows_iff_keeps, Keeps, limit_onSetChannel,
    proxyLimit_onSetChannel, Keeps]

end setChannel

theorem Shows.addMessagesAtStart (h : view.Shows) (messages : List MessagePtr) :
    (view.addMessagesAtStart messages).Shows := by
  have hProxy := ProxyChannel.getMessageSnapshot_addMessagesAtStart messages view.channel_
  unfold ChannelView.addMessagesAtStart Shows
  dsimp only
  rw [hProxy]
  cases (view.channel_.addMessagesAtStart messages).2 with
  | none => exact h
  | some addedMessages =>
    have hSpace : view.messages_.space =
        view.messages_.limit - (view.channel_.getMessageSnapshot.rtake view.messages_.limit).length :=
      congrArg (view.messages_.limit - ·.length) h
    refine (view.messages_.getSnapshot_pushFront addedMessages).trans ?_
    rw [hSpace, show view.messages_.getSnapshot = _ from h]
    exact tail_prepend _ _ _

theorem Shows.of_messages_eq {next : ChannelView MessagePtr Underlying} (h : view.Shows)
    (hMessages : next.messages_ = view.messages_) (hChannel : next.channel_ = view.channel_) : next.Shows := by
  rw [Shows, hMessages, hChannel]
  exact h

theorem shows_onMessagesCleared_iff (h : view.Shows) :
    view.onMessagesCleared.Shows ↔ view.messages_.getSnapshot = [] := by
  rw [show view.messages_.getSnapshot = _ from h]
  exact eq_comm

section decidable

variable [DecidableEq MessagePtr] (reading : MessageReading MessagePtr)

theorem shows_onMessageReplaced_iff (h : view.Shows) (index : Nat) (prev replacement : MessagePtr) :
    (view.onMessageReplaced reading index prev replacement).Shows ↔
      (view.shouldIncludeMessage reading replacement = true →
        prev = replacement ∨ position index prev view.messages_.getSnapshot =
          inTail view.messages_.limit view.channel_.getMessageSnapshot.length
            (position index prev view.channel_.getMessageSnapshot)) := by
  have hProxy := ProxyChannel.getMessageSnapshot_replaceMessage index prev replacement view.channel_
  have hSignal := ProxyChannel.snd_replaceMessage index prev replacement view.channel_
  have hShown := ViewMessages.getSnapshot_messageReplaced index prev replacement view.toViewMessages
  have hLimit := ViewMessages.limit_messageReplaced index prev replacement view.toViewMessages
  unfold onMessageReplaced
  split
  · rename_i hInclude
    rw [forall_prop_of_true hInclude, ← tail_replace_iff h, Shows, hProxy]
    dsimp only
    split
    · rw [hShown, hLimit]
    · rename_i hNot
      have hAbsent : prev ∉ view.channel_.getMessageSnapshot := fun hMem => hNot (hSignal.mpr hMem)
      have hAbsent' : prev ∉ view.messages_.getSnapshot := fun hMem =>
        hAbsent (mem_of_mem_rtake (show prev ∈ List.rtake _ _ from h ▸ hMem))
      rw [position_eq_none_iff.mpr hAbsent, position_eq_none_iff.mpr hAbsent']
      rfl
  · rename_i hExclude
    exact iff_of_true h fun hInclude => absurd hInclude hExclude

theorem Shows.onFilledInMessages (h : view.Shows) (messages : List MessagePtr) :
    (view.onFilledInMessages reading messages).Shows := by
  unfold ChannelView.onFilledInMessages Shows
  dsimp only
  split
  · rw [ViewMessages.getSnapshot_messagesUpdated, ViewMessages.limit_messagesUpdated]
  · rename_i hNot
    rw [ProxyChannel.getMessageSnapshot_of_not_filled (Bool.eq_false_iff.mpr hNot)]
    exact h

theorem shows_step_iff (h : view.Shows) (event : ViewEvent MessagePtr Underlying) :
    (view.step reading event).Shows ↔ view.KeepsShown reading event := by
  cases event with
  | messageAppended message dayMessage => exact shows_onMessageAppended_iff reading h message dayMessage
  | messagesAddedAtStart messages =>
    refine iff_of_true ?_ trivial
    rw [step, onMessagesAddedAtStart]
    split
    · exact h
    · exact h.addMessagesAtStart _
  | messageReplaced index prev replacement => exact shows_onMessageReplaced_iff reading h index prev replacement
  | filledInMessages messages => exact iff_of_true (h.onFilledInMessages reading messages) trivial
  | messagesCleared => exact shows_onMessagesCleared_iff h
  | setChannel underlyingChannel snapshot => exact shows_onSetChannel_iff reading underlyingChannel snapshot view
  | setFilters channelFilters | surroundingsChange surroundings | clearSelection => exact iff_of_true h trivial
  | pause reason msecs now =>
    exact iff_of_true (h.of_messages_eq (ViewMessages.messages_updatePauses _) rfl) trivial
  | unpause reason => exact iff_of_true (h.of_messages_eq (ViewMessages.messages_unpause reason _) rfl) trivial
  | pauseTimeout => exact iff_of_true (h.of_messages_eq (ViewMessages.messages_updatePauses _) rfl) trivial
  | setSelection start endItem =>
    exact iff_of_true (h.of_messages_eq (ViewMessages.messages_setSelection start endItem _) rfl) trivial

end decidable

end Chatterino.ChannelView

namespace Chatterino.ChannelView

open Lib

variable {MessagePtr Underlying : Type} {view : ChannelView MessagePtr Underlying}
  {event : ViewEvent MessagePtr Underlying} {known : List MessagePtr} {message : MessagePtr}

def delivered : ViewEvent MessagePtr Underlying → List MessagePtr
  | .messageAppended message dayMessage => [dayMessage, message]
  | .messagesAddedAtStart messages => messages
  | .messageReplaced _ _ replacement => [replacement]
  | .filledInMessages messages => messages
  | .setChannel _ snapshot => snapshot
  | _ => []

def sinceCleared (known : List MessagePtr) (event : ViewEvent MessagePtr Underlying) : List MessagePtr :=
  match event with
  | .messagesCleared => []
  | .setChannel _ _ => delivered event
  | _ => known ++ delivered event

theorem mem_addMessage {added : MessagePtr} (h : message ∈ (view.addMessage added).channel_.getMessageSnapshot) :
    message ∈ view.channel_.getMessageSnapshot ∨ message = added := by
  change message ∈ (view.channel_.addMessage added).getMessageSnapshot at h
  rw [ProxyChannel.getMessageSnapshot_addMessage] at h
  exact (List.mem_append.mp (mem_of_mem_rtake h)).imp_right List.mem_singleton.mp

theorem mem_dayChanged {dayMessage : MessagePtr}
    (h : message ∈ (view.dayChanged dayMessage).channel_.getMessageSnapshot) :
    message ∈ view.channel_.getMessageSnapshot ∨ message = dayMessage := by
  unfold dayChanged at h
  split at h
  · exact mem_addMessage h
  · exact .inl h

theorem mem_addMessagesAtStart {messages : List MessagePtr}
    (h : message ∈ (view.addMessagesAtStart messages).channel_.getMessageSnapshot) :
    message ∈ view.channel_.getMessageSnapshot ∨ message ∈ messages := by
  have hPushed := view.channel_.messages_.getSnapshot_pushFront messages
  change message ∈ (view.channel_.messages_.pushFront messages).1.getSnapshot at h
  rw [hPushed, List.mem_append] at h
  exact h.symm.imp_right mem_of_mem_rtake

theorem mem_setAt {index : Option Nat} {replacement : MessagePtr} {l : List MessagePtr}
    (h : message ∈ setAt index replacement l) : message ∈ l ∨ message = replacement := by
  cases index with
  | none => exact .inl h
  | some i => exact List.mem_or_eq_of_mem_set h

theorem limit_addMessagesAtStart (messages : List MessagePtr) (view : ChannelView MessagePtr Underlying) :
    (view.addMessagesAtStart messages).messages_.limit = view.messages_.limit := by
  unfold addMessagesAtStart
  dsimp only
  cases (view.channel_.addMessagesAtStart messages).2 with
  | none => rfl
  | some addedMessages => rfl

def HoldsKnown (known : List MessagePtr) (view : ChannelView MessagePtr Underlying) : Prop :=
  view.messages_.limit = 0 ∨ ∀ message ∈ view.channel_.getMessageSnapshot, message ∈ known

theorem HoldsKnown.mem (h : view.HoldsKnown known) (hShows : view.Shows)
    (hMem : message ∈ view.messages_.getSnapshot) : message ∈ known := by
  rw [show view.messages_.getSnapshot = _ from hShows] at hMem
  obtain hLimit | hKnown := h
  · rw [hLimit, List.rtake_zero] at hMem
    cases hMem
  · exact hKnown message (mem_of_mem_rtake hMem)

section decidable

variable [DecidableEq MessagePtr] (reading : MessageReading MessagePtr)

theorem mem_step (h : message ∈ (view.step reading event).channel_.getMessageSnapshot) :
    message ∈ view.channel_.getMessageSnapshot ∨ message ∈ delivered event := by
  cases event with
  | messageAppended added dayMessage =>
    rw [step, onMessageAppended] at h
    split at h
    · obtain hOld | rfl := mem_addMessage h
      · obtain hOld | rfl := mem_dayChanged hOld
        · exact .inl hOld
        · exact .inr List.mem_cons_self
      · exact .inr (List.mem_cons_of_mem _ List.mem_cons_self)
    · exact .inl h
  | messagesAddedAtStart messages =>
    rw [step, onMessagesAddedAtStart] at h
    split at h
    · exact .inl h
    · exact (mem_addMessagesAtStart h).imp_right List.mem_of_mem_filter
  | messageReplaced index prev replacement =>
    rw [step, onMessageReplaced] at h
    split at h
    · have hReplaced := ProxyChannel.getMessageSnapshot_replaceMessage index prev replacement view.channel_
      rw [show ProxyChannel.getMessageSnapshot _ = _ from hReplaced] at h
      exact (mem_setAt h).imp_right List.mem_singleton.mpr
    · exact .inl h
  | filledInMessages messages => exact (FillIn.mem_fillInMissingMessages h).imp_right List.mem_of_mem_filter
  | setChannel underlyingChannel snapshot =>
    rw [step, (fed_onSetChannel reading underlyingChannel snapshot view).proxy] at h
    exact .inr (List.mem_of_mem_filter (mem_of_mem_rtake h))
  | messagesCleared => exact .inl h
  | setFilters channelFilters => exact .inl h
  | surroundingsChange surroundings => exact .inl h
  | pause reason msecs now => exact .inl h
  | unpause reason => exact .inl h
  | pauseTimeout => exact .inl h
  | setSelection start endItem => exact .inl h
  | clearSelection => exact .inl h

theorem limit_step (view : ChannelView MessagePtr Underlying) (event : ViewEvent MessagePtr Underlying) :
    (view.step reading event).messages_.limit = view.messages_.limit := by
  cases event with
  | messageAppended added dayMessage =>
    rw [step, onMessageAppended]
    split
    · rw [limit_addMessage, dayChanged]
      split
      · exact limit_addMessage _ _
      · rfl
    · rfl
  | messagesAddedAtStart messages =>
    rw [step, onMessagesAddedAtStart]
    split
    · rfl
    · exact limit_addMessagesAtStart _ _
  | messageReplaced index prev replacement =>
    rw [step, onMessageReplaced]
    split
    · dsimp only
      split
      · exact ViewMessages.limit_messageReplaced _ _ _ _
      · rfl
    · rfl
  | filledInMessages messages =>
    rw [step, onFilledInMessages]
    dsimp only
    split
    · exact ViewMessages.limit_messagesUpdated _ _
    · rfl
  | setChannel underlyingChannel snapshot => exact limit_onSetChannel _ _ _ _
  | messagesCleared => rfl
  | setFilters channelFilters => rfl
  | surroundingsChange surroundings => rfl
  | pause reason msecs now | pauseTimeout => exact congrArg LimitedQueue.limit (ViewMessages.messages_updatePauses _)
  | unpause reason => exact congrArg LimitedQueue.limit (ViewMessages.messages_unpause _ _)
  | setSelection start endItem => exact congrArg LimitedQueue.limit (ViewMessages.messages_setSelection _ _ _)
  | clearSelection => rfl

theorem HoldsKnown.step (h : view.HoldsKnown known) (hShows : view.Shows) (hOk : view.KeepsShown reading event) :
    (view.step reading event).HoldsKnown (sinceCleared known event) := by
  obtain hLimit | hKnown := h
  · exact .inl ((limit_step reading view event).trans hLimit)
  · have hDelivered : ∀ message ∈ (view.step reading event).channel_.getMessageSnapshot,
        message ∈ known ++ delivered event := fun message hMem =>
      List.mem_append.mpr ((mem_step reading hMem).imp_left (hKnown message))
    cases event with
    | messagesCleared =>
      obtain hLimit | hEmpty := rtake_eq_nil_iff.mp (hShows.symm.trans hOk)
      · exact .inl hLimit
      · refine .inr fun message hMem => ?_
        rw [show (view.step reading .messagesCleared).channel_.getMessageSnapshot = [] from hEmpty] at hMem
        cases hMem
    | setChannel underlyingChannel snapshot =>
      refine .inr fun message hMem => ?_
      rw [ChannelView.step, (fed_onSetChannel reading underlyingChannel snapshot view).proxy] at hMem
      exact List.mem_of_mem_filter (mem_of_mem_rtake hMem)
    | _ => exact .inr hDelivered

theorem HoldsKnown.run (h : view.HoldsKnown known) (hShows : view.Shows) {events : List (ViewEvent MessagePtr Underlying)}
    (hOk : AllSteps (ChannelView.step reading) (KeepsShown reading) view events) :
    (events.foldl (ChannelView.step reading) view).HoldsKnown (events.foldl sinceCleared known) := by
  induction events generalizing view known with
  | nil => exact h
  | cons event events ih =>
    exact ih (h.step reading hShows hOk.1) ((shows_step_iff reading hShows event).mpr hOk.1) hOk.2

/-- A view that is set to a channel shows the last messages of its proxy in every state of a run exactly if the run
meets the condition at each step. -/
theorem shows_iff (messagesLimit : Nat) (surroundings : ViewSurroundings)
    (channelFilters : Option (FilterSet MessagePtr Underlying)) (underlyingChannel : Underlying)
    (snapshot : List MessagePtr) (events : List (ViewEvent MessagePtr Underlying)) :
    let fresh := constructed messagesLimit surroundings channelFilters
    let start := fresh.onSetChannel reading underlyingChannel snapshot
    (∀ reached, reached <+: events →
      let view := reached.foldl (ChannelView.step reading) start
      view.messages_.getSnapshot = view.channel_.getMessageSnapshot.rtake view.messages_.limit ∧
        ∀ message ∈ view.messages_.getSnapshot, message ∈ reached.foldl sinceCleared snapshot) ↔
      fresh.KeepsShown reading (.setChannel underlyingChannel snapshot) ∧
        AllSteps (ChannelView.step reading) (KeepsShown reading) start events := by
  intro fresh start
  have hSide : AllSteps (ChannelView.step reading) (fun _ _ => True) start events := .of_forall_mem fun _ _ _ => trivial
  have hStart : start.Shows ↔ fresh.KeepsShown reading (.setChannel underlyingChannel snapshot) :=
    shows_onSetChannel_iff reading underlyingChannel snapshot fresh
  have hRun (hShows : start.Shows) := hSide.forall_reached_iff Shows hShows
    fun view event h _ => shows_step_iff reading h event
  constructor
  · intro h
    have hShows : start.Shows := (h [] List.nil_prefix).1
    exact ⟨hStart.mp hShows, (hRun hShows).mp fun reached hPrefix => (h reached hPrefix).1⟩
  · rintro ⟨hSet, hOk⟩ reached hPrefix
    have hShows := hStart.mpr hSet
    have hReached : Shows _ := (hRun hShows).mpr hOk reached hPrefix
    have hKnown : start.HoldsKnown snapshot := by
      refine .inr fun message hMem => ?_
      rw [(fed_onSetChannel reading underlyingChannel snapshot fresh).proxy] at hMem
      exact List.mem_of_mem_filter (mem_of_mem_rtake hMem)
    exact ⟨hReached, fun message hMem =>
      (hKnown.run reading hShows (hOk.of_isPrefix hPrefix)).mem hReached hMem⟩

/-- A message that was cleared comes back when another one is filled in. -/
theorem not_shows_cleared :
    ¬∀ (reading : MessageReading Nat) (messagesLimit : Nat) (surroundings : ViewSurroundings)
      (channelFilters : Option (FilterSet Nat Unit)) (snapshot : List Nat) (events : List (ViewEvent Nat Unit)),
      let start := (constructed messagesLimit surroundings channelFilters).onSetChannel reading () snapshot
      ∀ reached, reached <+: events →
        let view := reached.foldl (ChannelView.step reading) start
        view.messages_.getSnapshot = view.channel_.getMessageSnapshot.rtake view.messages_.limit ∧
          ∀ message ∈ view.messages_.getSnapshot, message ∈ reached.foldl sinceCleared snapshot := by
  intro h
  have hBack := h ⟨fun p => { id := [UInt16.ofNat p], serverReceivedTime := p }, fun _ => [], fun _ _ => false⟩ 10
    ⟨false, [], 0, 10, by decide⟩ none [] [.messageAppended 1 0, .messagesCleared, .filledInMessages [2]] _
    (List.prefix_refl _)
  exact absurd (hBack.2 1 (by decide)) (by decide)

end decidable

end Chatterino.ChannelView
