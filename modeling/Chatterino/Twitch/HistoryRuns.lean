import Chatterino.Twitch.RecentMessages

/-! # Histories over a run

Which answers and live messages keep every id in the buffer unique.
-/

namespace Chatterino.Twitch

open Lib QString

def HistoryEvent.Distinct : HistoryEvent → Prop
  | .loaded _ _ messages => HistoryChannel.OnceEach (messages.map Message.id)
  | _ => True

def Unnamed (message : Message) : Prop := message.flags.has .System → message.id = []

def HistoryEvent.SystemUnnamed : HistoryEvent → Prop
  | .received message => Unnamed message
  | .loaded _ _ messages => ∀ message ∈ messages, Unnamed message
  | _ => True

def HistoryEvent.InOrder : HistoryEvent → Prop
  | .loaded _ _ messages => FillIn.InTimeOrder id messages
  | _ => True

def HistoryEvent.liveId : HistoryEvent → Option QString
  | .received message => some message.id
  | _ => none

def LiveOnce (events : List HistoryEvent) : Prop :=
  HistoryChannel.OnceEach (events.filterMap HistoryEvent.liveId)

instance (events : List HistoryEvent) : Decidable (LiveOnce events) :=
  inferInstanceAs (Decidable (HistoryChannel.OnceEach _))

instance (event : HistoryEvent) : Decidable event.InOrder := by
  cases event with
  | loaded i errorCode messages => exact inferInstanceAs (Decidable (FillIn.InTimeOrder id _))
  | _ => exact isTrue trivial

instance (event : HistoryEvent) : Decidable event.Distinct := by
  cases event with
  | loaded i errorCode messages => exact inferInstanceAs (Decidable (HistoryChannel.OnceEach _))
  | _ => exact isTrue trivial

namespace HistoryChannel

variable {channel : HistoryChannel}

def Fresh (channel : HistoryChannel) : HistoryEvent → Prop
  | .received message =>
    message.id ≠ [] → message.id ∉ channel.messageIds.rtake (channel.messages_.limit - 1)
  | .loaded i errorCode messages =>
    ∀ kind ∈ channel.requests[i]?, FreshLoad kind messages (channel.noticed errorCode messages)
  | _ => True

instance (channel : HistoryChannel) (event : HistoryEvent) : Decidable (channel.Fresh event) := by
  cases event with
  | received message => exact inferInstanceAs (Decidable (_ → _))
  | loaded i errorCode messages => exact inferInstanceAs (Decidable (∀ kind ∈ channel.requests[i]?, _))
  | _ => exact isTrue trivial

theorem noticed_answered (i : Nat) (errorCode : QString) (messages : List Message) :
    (channel.answered i).noticed errorCode messages = (channel.noticed errorCode messages).answered i := by
  unfold noticed
  split
  · rfl
  · rfl

theorem shown_request (enabled : Bool) (kind : HistoryRequest) :
    (channel.request enabled kind).shown = channel.shown := by
  unfold request
  split
  · rfl
  · split
    · rfl
    · rfl

theorem ShownOnce.noticed (h : channel.ShownOnce) (errorCode : QString) (messages : List Message) :
    (channel.noticed errorCode messages).ShownOnce := by
  unfold HistoryChannel.noticed
  split
  · exact h.addSystemMessage _
  · exact h

theorem ShownOnce.request (h : channel.ShownOnce) (enabled : Bool) (kind : HistoryRequest) :
    (channel.request enabled kind).ShownOnce := by
  rwa [ShownOnce, messageIds, shown_request]

theorem ShownOnce.onLoaded (h : channel.ShownOnce) {kind : HistoryRequest} {messages : List Message}
    (hDistinct : OnceEach (messages.map Message.id)) (hFresh : FreshLoad kind messages channel) :
    (channel.onLoaded kind messages).ShownOnce := by
  cases kind with
  | loadRecentMessages => exact (h.addMessagesAtStart_iff hDistinct).mpr hFresh
  | loadRecentMessagesReconnect => exact h.fillInMissingMessages hDistinct hFresh

theorem ShownOnce.step (h : channel.ShownOnce) {event : HistoryEvent} (hDistinct : event.Distinct)
    (hFresh : channel.Fresh event) : (channel.step event).ShownOnce := by
  cases event with
  | received message => exact (h.addMessage_iff message).mpr hFresh
  | loadRecentMessages enabled => exact h.request enabled _
  | loadRecentMessagesReconnect enabled => exact h.request enabled _
  | loaded i errorCode messages =>
    rw [HistoryChannel.step, loaded]
    split
    · rename_i kind hKind
      rw [noticed_answered]
      have hOnce : ((channel.noticed errorCode messages).answered i).ShownOnce := h.noticed errorCode messages
      exact hOnce.onLoaded hDistinct (hFresh kind hKind)
    · exact h
  | failed i error =>
    rw [HistoryChannel.step, failed]
    split
    · exact h.addSystemMessage _
    · exact h

def SystemUnnamed (channel : HistoryChannel) : Prop := ∀ message ∈ channel.shown, Unnamed message

theorem unnamed_makeSystemMessage (text : QString) : Unnamed (makeSystemMessage text) := fun _ => rfl

theorem SystemUnnamed.addMessage (h : channel.SystemUnnamed) {message : Message} (hMessage : Unnamed message) :
    (channel.addMessage message).SystemUnnamed := by
  intro other hOther
  rw [shown_addMessage] at hOther
  rcases List.mem_append.mp (LimitedQueue.rtake_sublist _ _ |>.subset hOther) with hOld | hNew
  · exact h other hOld
  · rwa [List.mem_singleton.mp hNew]

theorem SystemUnnamed.request (h : channel.SystemUnnamed) (enabled : Bool) (kind : HistoryRequest) :
    (channel.request enabled kind).SystemUnnamed := by
  rwa [SystemUnnamed, shown_request]

theorem SystemUnnamed.noticed (h : channel.SystemUnnamed) (errorCode : QString) (messages : List Message) :
    (channel.noticed errorCode messages).SystemUnnamed := by
  unfold HistoryChannel.noticed
  split
  · exact h.addMessage (unnamed_makeSystemMessage _)
  · exact h

theorem SystemUnnamed.onLoaded (h : channel.SystemUnnamed) (kind : HistoryRequest) {messages : List Message}
    (hMessages : ∀ message ∈ messages, Unnamed message) : (channel.onLoaded kind messages).SystemUnnamed := by
  intro other hOther
  cases kind with
  | loadRecentMessages =>
    have hMem : other ∈ (channel.addMessagesAtStart messages).shown := hOther
    rw [shown_addMessagesAtStart] at hMem
    rcases List.mem_append.mp hMem with hNew | hOld
    · exact hMessages other ((LimitedQueue.rtake_sublist _ _).subset hNew)
    · exact h other hOld
  | loadRecentMessagesReconnect =>
    have hMem := (subperm_shown_fillInMissingMessages messages channel).subset hOther
    rcases List.mem_append.mp hMem with hNew | hOld
    · exact hMessages other (List.filter_sublist.subset hNew)
    · exact h other hOld

theorem SystemUnnamed.step (h : channel.SystemUnnamed) {event : HistoryEvent} (hEvent : event.SystemUnnamed) :
    (channel.step event).SystemUnnamed := by
  cases event with
  | received message => exact h.addMessage hEvent
  | loadRecentMessages enabled => exact h.request enabled _
  | loadRecentMessagesReconnect enabled => exact h.request enabled _
  | loaded i errorCode messages =>
    rw [HistoryChannel.step, loaded]
    split
    · rw [noticed_answered]
      have hNoticed : ((channel.noticed errorCode messages).answered i).SystemUnnamed := h.noticed errorCode messages
      exact hNoticed.onLoaded _ hEvent
    · exact h
  | failed i error =>
    rw [HistoryChannel.step, failed]
    split
    · exact SystemUnnamed.addMessage h (unnamed_makeSystemMessage _)
    · exact h

theorem ShownOnce.fresh_of_step (h : channel.ShownOnce) (hUnnamed : channel.SystemUnnamed) {event : HistoryEvent}
    (hDistinct : event.Distinct) (hNext : (channel.step event).ShownOnce) : channel.Fresh event := by
  cases event with
  | received message => exact (h.addMessage_iff message).mp hNext
  | loaded i errorCode messages =>
    intro kind hKind
    have hOnce := h.noticed errorCode messages
    rw [HistoryChannel.step, loaded, Option.mem_def.mp hKind, noticed_answered] at hNext
    cases kind with
    | loadRecentMessages => exact (hOnce.addMessagesAtStart_iff hDistinct).mp hNext
    | loadRecentMessagesReconnect =>
      intro message _ hId other hOther hSystem hSame
      exact hId (hSame.symm.trans (hUnnamed.noticed errorCode messages other hOther hSystem))
  | _ => trivial

theorem shownOnce_ofLimit (limit : Nat) : (ofLimit limit).ShownOnce := fun _ hMem => absurd hMem List.not_mem_nil

/-- Every id stays unique in a run whose live messages and answers bring nothing that is there; where system
messages have no ids, in no other run. -/
theorem shownOnce_of_run (limit : Nat) (events : List HistoryEvent)
    (hDistinct : ∀ event ∈ events, event.Distinct) :
    (AllSteps step Fresh (ofLimit limit) events →
      ∀ reached, reached <+: events → (reached.foldl step (ofLimit limit)).ShownOnce) ∧
    ((∀ event ∈ events, event.SystemUnnamed) →
      (∀ reached, reached <+: events → (reached.foldl step (ofLimit limit)).ShownOnce) →
        AllSteps step Fresh (ofLimit limit) events) := by
  have hStart := shownOnce_ofLimit limit
  have hSide : AllSteps step (fun _ event => event.Distinct) (ofLimit limit) events :=
    AllSteps.of_forall_mem fun event hMem _ => hDistinct event hMem
  constructor
  · intro hFresh reached hPrefix
    exact (hSide.and hFresh).invariant_reached hPrefix hStart fun channel event h hEvent => h.step hEvent.1 hEvent.2
  · intro hUnnamed
    have hSystem : AllSteps step (fun _ event => event.SystemUnnamed) (ofLimit limit) events :=
      AllSteps.of_forall_mem fun event hMem _ => hUnnamed event hMem
    refine (AllSteps.forall_reached_iff_of_strengthening (hSide.and hSystem)
      (fun channel => channel.ShownOnce ∧ channel.SystemUnnamed) ShownOnce
      ⟨hStart, fun _ hMem => absurd hMem List.not_mem_nil⟩ (fun _ h => h.1) ?_ ?_).mp
    · intro channel event h hEvent hNext
      exact h.1.fresh_of_step h.2 hEvent.1 hNext
    · intro channel event h hEvent hFresh
      exact ⟨h.1.step hEvent.1 hFresh, h.2.step hEvent.2⟩

theorem shownOnce_of_run_filledIn :
    let message (i : Nat) : Message := { id := [UInt16.ofNat i], serverReceivedTime := i }
    let events := [.loadRecentMessages true, .received (message 2), .loaded 0 [] [message 1],
      .loadRecentMessagesReconnect true, .received (message 4), .loaded 0 [] [message 2, message 3, message 4]]
    ((events.foldl step (ofLimit 1000)).messageIds = [[1], [2], [3], [4]]) ∧
      (events.foldl step (ofLimit 1000)).ShownOnce := by
  intro message events
  have hDistinct : ∀ event ∈ events, event.Distinct := by decide
  exact ⟨by decide, (shownOnce_of_run 1000 events hDistinct).1 (by decide) events (List.prefix_refl _)⟩

theorem not_shownOnce_joined :
    ¬(∀ (limit : Nat) (events : List HistoryEvent), LiveOnce events → (∀ event ∈ events, event.Distinct) →
      (∀ event ∈ events, event.InOrder) →
        ∀ reached, reached <+: events → (reached.foldl step (ofLimit limit)).ShownOnce) := by
  intro h
  let message : Message := { id := lit "885196de-cb67-427a-baa8-82f9b0fcd05f" }
  let events : List HistoryEvent := [.loadRecentMessages true, .received message, .loaded 0 [] [message]]
  have hTwice := h 1000 events (by decide) (by decide) (by decide) events (List.prefix_refl _)
  exact absurd hTwice (by decide)

end HistoryChannel

end Chatterino.Twitch
