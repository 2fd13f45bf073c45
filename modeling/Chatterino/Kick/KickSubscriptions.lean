import Chatterino.Kick.KickSharedSocket

/-! # Subscriptions and entries by chatroom

Only an answer to a request subscribes a chatroom.
-/

namespace Chatterino.Kick

open Lib KickConnectionState

namespace KickChatServer

variable {Slug : Type} {lower : Slug → Slug} {server server' server'' : KickChatServer Slug}
  {id : ChannelId} {channel : KickChannel Slug} {event : Event Slug} {r : Int}
  {f : KickChannel Slug → KickChannel Slug} {g : KickWebSocket → KickWebSocket}

structure Sheds (server server' : KickChatServer Slug) : Prop where
  entry : ∀ r i, server'.byChatroom_.lookup r = some i → server.byChatroom_.lookup r = some i
  subscription : ∀ r, Subscribed server' r → Subscribed server r

namespace Sheds

theorem refl (server : KickChatServer Slug) : Sheds server server := ⟨fun _ _ h => h, fun _ h => h⟩

theorem trans (h : Sheds server server') (h' : Sheds server' server'') : Sheds server server'' :=
  ⟨fun r i hEntry => h.entry r i (h'.entry r i hEntry),
    fun r hSubscribed => h.subscription r (h'.subscription r hSubscribed)⟩

theorem modify : Sheds server (server.modify i f) := ⟨fun _ _ h => h, fun _ h => h⟩

theorem onSocket (h : ∀ socket r, r ∈ (g socket).chatrooms → r ∈ socket.chatrooms) :
    Sheds server (server.onSocket g) where
  entry _ _ hEntry := hEntry
  subscription r := by
    rintro ⟨socket, hSocket, hMem⟩
    obtain ⟨old, hOld, rfl⟩ := Option.map_eq_some_iff.mp hSocket
    exact ⟨old, hOld, h old r hMem⟩

theorem unsubscribe {chatroomId : Int} : Sheds server (server.onSocket (·.unsubscribe chatroomId)) := by
  refine onSocket fun socket r hMem => ?_
  unfold KickWebSocket.unsubscribe at hMem
  split at hMem
  · exact List.mem_of_mem_filter hMem
  · exact hMem

theorem ensureConnected : Sheds server server.ensureConnected where
  entry _ _ hEntry := hEntry
  subscription r := by
    rintro ⟨socket, hSocket, hMem⟩
    obtain rfl := Option.some.inj hSocket
    unfold KickWebSocket.connect at hMem
    split at hMem
    · rcases hOld : server.socket_ with _ | old
      · rw [hOld] at hMem
        cases hMem
      · rw [hOld] at hMem
        exact ⟨old, hOld, hMem⟩
    · cases hMem

theorem eraseChatroom : Sheds server { server with byChatroom_ := server.byChatroom_.erase r } :=
  ⟨fun _ _ hEntry => (Registry.lookup_erase_eq_some.mp hEntry).1, fun _ h => h⟩

theorem disconnectIfIdle : Sheds server server.disconnectIfIdle := by
  unfold KickChatServer.disconnectIfIdle
  split
  · refine onSocket fun socket r hMem => ?_
    cases hMem
  · exact refl server

theorem report : Sheds server (server.pruneExpired.forEachChannel f) :=
  ⟨fun _ _ hEntry => (Registry.lookup_filter_eq_some.mp hEntry).1, fun _ h => h⟩

variable [DecidableEq Slug]

theorem leave : Sheds server (server.leave lower id channel) := by
  have hChatroom : Sheds server (server.leaveChatroom id channel) := by
    unfold leaveChatroom
    split
    · exact eraseChatroom.trans unsubscribe
    · exact refl server
  have hSlug (s : KickChatServer Slug) : Sheds s (s.leaveSlug lower id channel) := by
    unfold leaveSlug
    split
    · exact ⟨fun _ _ h => h, fun _ h => h⟩
    · exact refl s
  exact (hChatroom.trans (hSlug _)).trans disconnectIfIdle

omit [DecidableEq Slug] in
theorem connect : Sheds server (server.connect true id) := by
  obtain ⟨-, hSame⟩ | ⟨channel, -, -, hConnect⟩ := connect_cases server id
  · rw [hSame]
    exact refl server
  · rw [hConnect]
    exact ensureConnected.trans modify

theorem disconnect : Sheds server (server.disconnect lower id) := by
  rcases hLive : server.channels id with _ | channel
  · rw [disconnect_of_gone hLive]
    exact refl server
  · rw [disconnect_eq hLive]
    exact leave.trans modify

theorem step (hEvent : ∀ id info, event ≠ .resolved id info) :
    Sheds server (server.step lower true event) := by
  cases event with
  | getOrCreate slug =>
    rcases hFound : server.findBySlug lower (lower slug) with _ | existing
    · rw [KickChatServer.step, getOrCreate_of_new hFound]
      have hEnsured : Sheds server server.ensureConnected := ensureConnected
      exact ⟨fun _ _ h => h, hEnsured.subscription⟩
    · rw [KickChatServer.step, getOrCreate_of_found hFound]
      exact refl server
  | connect id => exact connect
  | disconnect id => exact disconnect
  | reconnect id => exact disconnect.trans modify
  | destroy id =>
    rcases hLive : server.channels id with _ | channel
    · rw [KickChatServer.step, destroy_of_gone hLive]
      exact refl server
    · rw [KickChatServer.step, destroy_eq hLive]
      refine trans ?_ disconnectIfIdle
      exact ⟨fun _ _ h => h, fun _ h => h⟩
  | setApi id => exact modify
  | established =>
    rw [KickChatServer.step]
    split
    · refine trans (onSocket ?_) report
      exact fun _ _ h => h
    · exact refl server
  | closed =>
    rw [KickChatServer.step]
    split
    · refine trans (onSocket fun _ _ hMem => ?_) report
      cases hMem
    · exact refl server
  | error =>
    rw [KickChatServer.step]
    split
    · refine trans (onSocket fun socket r hMem => ?_) report
      unfold KickWebSocket.onError at hMem
      split at hMem <;> exact hMem
    · exact refl server
  | pusherError code =>
    rw [KickChatServer.step]
    split
    · unfold handlePusherError
      split
      · refine report.trans (onSocket fun _ _ hMem => ?_)
        cases hMem
      · exact report
    · exact refl server
  | message chatroomId =>
    rw [KickChatServer.step, onMessage]
    split
    · exact refl server
    split
    · exact eraseChatroom.trans unsubscribe
    · exact refl server
  | resolved id info => exact absurd rfl (hEvent id info)
  | retryTimeout id delay =>
    obtain ⟨-, hSame⟩ | ⟨channel, -, -, ⟨-, hMoved⟩ | ⟨-, hRetried⟩⟩ :=
      retryTimeout_cases lower server id delay
    · rw [KickChatServer.step, hSame]
      exact refl server
    · rw [KickChatServer.step, hMoved]
      exact modify
    · rw [KickChatServer.step, hRetried]
      exact leave.trans (ensureConnected.trans ⟨fun _ _ h => h, fun _ h => h⟩)
  | reconnectTimeout id =>
    obtain ⟨-, hSame⟩ | ⟨channel, -, -, hConnect⟩ := reconnectTimeout_cases server id true
    · rw [KickChatServer.step, hSame]
      exact refl server
    · rw [KickChatServer.step, hConnect]
      exact modify.trans connect

end Sheds

end KickChatServer

structure KickChannel.Dormant {Slug : Type} (channel : KickChannel Slug) : Prop where
  state : channel.connectionState_ = Disconnected
  resolutions : channel.resolutions = 0
  reconnectTimers : channel.reconnectTimers = 0

namespace KickChatServer

variable {Slug : Type} {lower : Slug → Slug} {server : KickChatServer Slug} {id : ChannelId}
  {channel : KickChannel Slug} {event : Event Slug}

def Event.target : Event Slug → Option ChannelId
  | .connect id | .disconnect id | .reconnect id | .destroy id | .setApi id => some id
  | .resolved id _ | .retryTimeout id _ | .reconnectTimeout id => some id
  | _ => none

def Untouched (id : ChannelId) : Event Slug → Prop
  | .connect i => i ≠ id
  | .reconnect i => i ≠ id
  | _ => True

structure StaysDisconnected (server server' : KickChatServer Slug) (id : ChannelId) : Prop where
  state : ∀ channel, server'.channels id = some channel → channel.connectionState_ ≠ Connected
  entry : ∀ r, server'.byChatroom_.lookup r = some id → server.byChatroom_.lookup r = some id
  subscription : ∀ r, server'.byChatroom_.lookup r = some id → Subscribed server' r → Subscribed server r

variable [DecidableEq Slug]

def Outside (server : KickChatServer Slug) (id : ChannelId) : Prop :=
  id < server.nextChannel ∧ id ∉ server.bySlug_.refs

theorem Outside.step (h : Outside server id) (event : Event Slug) :
    Outside (server.step lower true event) id := by
  by_cases hCreate : ∀ slug, event ≠ .getOrCreate slug
  · have hContinues : Continues server (server.step lower true event) := continues_step hCreate
    exact ⟨hContinues.nextChannel.symm ▸ h.1, fun hMem => h.2 (hContinues.refs.subset hMem)⟩
  · obtain ⟨slug, rfl⟩ := not_forall_not.mp hCreate
    rcases hFound : server.findBySlug lower (lower slug) with _ | existing
    · rw [KickChatServer.step, getOrCreate_of_new hFound]
      refine ⟨Nat.lt_succ_of_lt h.1, fun hMem => ?_⟩
      obtain ⟨k, hLookup⟩ := Registry.mem_refs.mp hMem
      rcases Registry.lookup_insert_eq_some.mp hLookup with ⟨-, hSelf⟩ | ⟨-, hOld⟩
      · exact Nat.ne_of_gt h.1 hSelf
      · exact h.2 (Registry.mem_refs.mpr ⟨k, hOld⟩)
    · rw [KickChatServer.step, getOrCreate_of_found hFound]
      exact h

theorem Outside.channels_step (hWellFormed : WellFormed lower server) (h : Outside server id)
    (hTarget : event.target ≠ some id) :
    (server.step lower true event).channels id = server.channels id := by
  have hOther {j : ChannelId} (hEvent : event.target = some j) : id ≠ j := by
    rintro rfl
    exact hTarget hEvent
  have hReport (socket : Option KickWebSocket) {f : KickChannel Slug → KickChannel Slug} :
      (pruneExpired { server with socket_ := socket } |>.forEachChannel f).channels id = server.channels id :=
    (channels_report hWellFormed.nodup).trans (if_neg h.2)
  cases event with
  | getOrCreate slug =>
    rcases hFound : server.findBySlug lower (lower slug) with _ | existing
    · rw [KickChatServer.step, getOrCreate_of_new hFound]
      exact if_neg (Nat.ne_of_lt h.1)
    · rw [KickChatServer.step, getOrCreate_of_found hFound]
  | connect j =>
    obtain ⟨-, hSame⟩ | ⟨channel, -, -, hConnect⟩ := connect_cases server j
    · rw [KickChatServer.step, hSame]
    · rw [KickChatServer.step, hConnect]
      exact Heap.modify_of_ne (hOther rfl)
  | disconnect j =>
    rcases hLive : server.channels j with _ | channel
    · rw [KickChatServer.step, disconnect_of_gone hLive]
    · rw [KickChatServer.step, disconnect_eq hLive]
      refine (Heap.modify_of_ne (hOther rfl)).trans ?_
      rw [channels_leave]
  | reconnect j =>
    rcases hLive : server.channels j with _ | channel
    · rw [KickChatServer.step, reconnect_of_gone hLive]
    · rw [KickChatServer.step, reconnect_eq hLive]
      exact Heap.modify_of_ne (hOther rfl)
  | destroy j =>
    rcases hLive : server.channels j with _ | channel
    · rw [KickChatServer.step, destroy_of_gone hLive]
    · rw [KickChatServer.step, destroy_eq hLive, disconnectIfIdle]
      split <;> exact if_neg (hOther rfl)
  | setApi j => exact Heap.modify_of_ne (hOther rfl)
  | established | closed | error =>
    rw [KickChatServer.step]
    split
    · exact hReport _
    · rfl
  | pusherError code =>
    rw [KickChatServer.step]
    split
    · rw [handlePusherError]
      split <;> exact hReport server.socket_
    · rfl
  | message chatroomId =>
    rw [KickChatServer.step, onMessage]
    split
    · rfl
    split <;> rfl
  | resolved j info =>
    obtain ⟨-, hSame⟩ | ⟨channel, -, -, ⟨-, hFailed⟩ | ⟨-, hConnected⟩⟩ := resolved_cases server j info
    · rw [KickChatServer.step, hSame]
    · rw [KickChatServer.step, hFailed]
      exact Heap.modify_of_ne (hOther rfl)
    · rw [KickChatServer.step, hConnected]
      exact Heap.modify_of_ne (hOther rfl)
  | retryTimeout j delay =>
    obtain ⟨-, hSame⟩ | ⟨channel, -, -, ⟨-, hMoved⟩ | ⟨-, hRetried⟩⟩ :=
      retryTimeout_cases lower server j delay
    · rw [KickChatServer.step, hSame]
    · rw [KickChatServer.step, hMoved]
      exact Heap.modify_of_ne (hOther rfl)
    · rw [KickChatServer.step, hRetried]
      exact Heap.modify_of_ne (hOther rfl)
  | reconnectTimeout j =>
    obtain ⟨-, hSame⟩ | ⟨channel, -, -, hConnect⟩ := reconnectTimeout_cases server j true
    · rw [KickChatServer.step, hSame]
    · rw [KickChatServer.step, hConnect]
      obtain ⟨-, hSame⟩ | ⟨channel, -, -, hConnect⟩ := connect_cases (server.modify j fun channel =>
        { channel with reconnectTimers := channel.reconnectTimers - 1 }) j
      · rw [hSame]
        exact Heap.modify_of_ne (hOther rfl)
      · rw [hConnect]
        exact (Heap.modify_of_ne (hOther rfl)).trans (Heap.modify_of_ne (hOther rfl))

def IsDormant (server : KickChatServer Slug) (id : ChannelId) : Prop :=
  ∀ channel, server.channels id = some channel → channel.Dormant

theorem IsDormant.step (hWellFormed : WellFormed lower server) (hOutside : Outside server id)
    (h : IsDormant server id) (hUntouched : Untouched id event) :
    IsDormant (server.step lower true event) id := by
  by_cases hTarget : event.target = some id
  swap
  · intro channel hLive
    rw [hOutside.channels_step hWellFormed hTarget] at hLive
    exact h channel hLive
  have hSet {f : KickChannel Slug → KickChannel Slug} (hKeep : ∀ channel, channel.Dormant → (f channel).Dormant) :
      ∀ channel, server.channels.modify id f id = some channel → channel.Dormant := by
    intro channel hLive
    obtain ⟨old, hOld, rfl⟩ := Option.map_eq_some_iff.mp (Heap.modify_self.symm.trans hLive)
    exact hKeep old (h old hOld)
  cases event with
  | connect j | reconnect j => exact absurd (Option.some.inj hTarget) hUntouched
  | disconnect j =>
    obtain rfl := Option.some.inj hTarget
    rcases hLive : server.channels j with _ | channel
    · rw [KickChatServer.step, disconnect_of_gone hLive]
      exact h
    · rw [KickChatServer.step, disconnect_eq hLive]
      intro other hOther
      refine hSet (f := (·.setConnectionState Disconnected)) (fun _ hOld => ⟨rfl, hOld.2, hOld.3⟩) other ?_
      rw [← hOther, modify, channels_leave]
  | destroy j =>
    obtain rfl := Option.some.inj hTarget
    rcases hLive : server.channels j with _ | channel
    · rw [KickChatServer.step, destroy_of_gone hLive]
      exact h
    · intro other hOther
      rw [KickChatServer.step, destroy_eq hLive, disconnectIfIdle] at hOther
      split at hOther <;> cases (if_pos rfl).symm.trans hOther
  | setApi j =>
    obtain rfl := Option.some.inj hTarget
    exact hSet fun _ hOld => ⟨hOld.1, rfl, hOld.3⟩
  | resolved j info =>
    obtain rfl := Option.some.inj hTarget
    rw [KickChatServer.step, resolved_of_idle fun channel hLive => (h channel hLive).resolutions]
    exact h
  | retryTimeout j delay =>
    obtain rfl := Option.some.inj hTarget
    obtain ⟨-, hSame⟩ | ⟨channel, hLive, -, ⟨-, hMoved⟩ | ⟨hState, -⟩⟩ :=
      retryTimeout_cases lower server j delay
    · rw [KickChatServer.step, hSame]
      exact h
    · rw [KickChatServer.step, hMoved]
      exact hSet fun _ hOld => ⟨hOld.1, hOld.2, hOld.3⟩
    · cases hState.symm.trans (h channel hLive).state
  | reconnectTimeout j =>
    obtain rfl := Option.some.inj hTarget
    rw [KickChatServer.step, reconnectTimeout_of_idle fun channel hLive => (h channel hLive).reconnectTimers]
    exact h
  | _ => cases hTarget

theorem IsDormant.gains_nothing (h : IsDormant server id) (event : Event Slug) (r : Int)
    (hEntry : (server.step lower true event).byChatroom_.lookup r = some id) :
    server.byChatroom_.lookup r = some id ∧
      (Subscribed (server.step lower true event) r → Subscribed server r) := by
  by_cases hEvent : ∀ j info, event ≠ .resolved j info
  · have hSheds : Sheds server (server.step lower true event) := Sheds.step hEvent
    exact ⟨hSheds.entry r id hEntry, hSheds.subscription r⟩
  obtain ⟨j, info, rfl⟩ : ∃ j info, event = .resolved j info := by
    simpa using hEvent
  obtain ⟨-, hSame⟩ | ⟨channel, hLive, hPending, ⟨-, hFailed⟩ | ⟨-, hConnected⟩⟩ :=
    resolved_cases server j info
  · rw [KickChatServer.step, hSame] at hEntry ⊢
    exact ⟨hEntry, fun hSubscribed => hSubscribed⟩
  · rw [KickChatServer.step, hFailed] at hEntry ⊢
    exact ⟨hEntry, fun hSubscribed => hSubscribed⟩
  · rw [KickChatServer.step, hConnected] at hEntry ⊢
    rcases Registry.lookup_insert_eq_some.mp hEntry with ⟨-, rfl⟩ | ⟨hNe, hOld⟩
    · exact absurd (h channel hLive).resolutions hPending
    refine ⟨hOld, ?_⟩
    rintro ⟨socket, hSocket, hMem⟩
    obtain ⟨old, hOldSocket, rfl⟩ := Option.map_eq_some_iff.mp hSocket
    refine ⟨old, hOldSocket, ?_⟩
    unfold KickWebSocket.subscribe at hMem
    split at hMem
    · exact (List.mem_insert_iff.mp hMem).resolve_left hNe
    · exact hMem

end KickChatServer

end Chatterino.Kick
