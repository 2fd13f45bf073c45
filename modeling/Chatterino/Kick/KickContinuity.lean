import Chatterino.Kick.KickCallbacks

/-! # Steps that create no channel

Everything but the creation of a channel only continues the state: no new names, and no new
references except to channels that are alive.
-/

namespace Chatterino.Kick

open Lib KickConnectionState

/-- A connected socket is open, and only a connected socket has subscriptions. -/
structure KickWebSocket.Sound (socket : KickWebSocket) : Prop where
  opened : socket.isConnected_ = true → socket.socket_ = .Open
  chatrooms : socket.isConnected_ = false → socket.chatrooms = []

def KickWebSocket.Up (socket : KickWebSocket) : Prop :=
  socket.isConnected_ = true ∨ socket.socket_ = .Open

namespace KickWebSocket

variable {socket : KickWebSocket} {chatroomId : Int}

theorem sound_new : Sound {} := ⟨by rintro ⟨⟩, fun _ => rfl⟩

theorem sound_connect (h : socket.Sound) : socket.connect.Sound := by
  unfold connect
  split
  · exact h
  · exact ⟨fun _ => rfl, fun _ => rfl⟩

theorem sound_disconnect : socket.disconnect.Sound := ⟨by rintro ⟨⟩, fun _ => rfl⟩

theorem sound_subscribe (h : socket.Sound) : (socket.subscribe chatroomId).Sound := by
  unfold subscribe
  split
  · rename_i hConnected
    refine ⟨h.opened, ?_⟩
    intro hDown
    cases hConnected.symm.trans hDown
  · exact h

theorem sound_unsubscribe (h : socket.Sound) : (socket.unsubscribe chatroomId).Sound := by
  unfold unsubscribe
  split
  · rename_i hConnected
    refine ⟨h.opened, ?_⟩
    intro hDown
    cases hConnected.symm.trans hDown
  · exact h

theorem sound_onError (h : socket.Sound) : socket.onError.Sound := by
  unfold onError
  split
  · rename_i hOpening
    have hDown : socket.isConnected_ = false := by simpa using hOpening.2
    refine ⟨?_, fun _ => h.chatrooms hDown⟩
    intro hConnected
    cases hDown.symm.trans hConnected
  · exact h

theorem up_connect : socket.connect.Up := by
  unfold connect
  split
  · rename_i hConnected
    exact .inl hConnected
  · exact .inr rfl

theorem not_up_disconnect : ¬socket.disconnect.Up := by
  rintro (hConnected | hOpen)
  · cases hConnected
  · unfold disconnect at hOpen
    dsimp only at hOpen
    split at hOpen <;> cases hOpen

theorem up_subscribe : (socket.subscribe chatroomId).Up ↔ socket.Up := by
  unfold subscribe
  split <;> exact Iff.rfl

theorem up_unsubscribe : (socket.unsubscribe chatroomId).Up ↔ socket.Up := by
  unfold unsubscribe
  split <;> exact Iff.rfl

end KickWebSocket

namespace KickChatServer

variable {Slug : Type} {server server' server'' : KickChatServer Slug} {id i : ChannelId}
  {channel : KickChannel Slug} {f : KickChannel Slug → KickChannel Slug} {r : Int}

def Down (server : KickChatServer Slug) : Prop :=
  ∀ socket, server.socket_ = some socket → ¬socket.Up

theorem Down.isConnected (h : Down server) : server.isConnected = false := by
  unfold KickChatServer.isConnected
  rcases hSocket : server.socket_ with _ | socket
  · rfl
  · exact Bool.eq_false_iff.mpr fun hConnected => h socket hSocket (.inl hConnected)

theorem down_onSocket_iff {g : KickWebSocket → KickWebSocket} (h : ∀ socket, (g socket).Up ↔ socket.Up) :
    Down (server.onSocket g) ↔ Down server := by
  constructor
  · intro hDown socket hSocket
    exact fun hUp => hDown (g socket) (congrArg (Option.map g) hSocket) ((h socket).mpr hUp)
  · intro hDown socket hSocket
    obtain ⟨old, hOld, rfl⟩ := Option.map_eq_some_iff.mp hSocket
    exact fun hUp => hDown old hOld ((h old).mp hUp)

theorem not_down_of_connect {socket : KickWebSocket} (h : server.socket_ = some socket.connect) :
    ¬Down server := fun hDown => hDown _ h KickWebSocket.up_connect

theorem down_leave_iff [DecidableEq Slug] {lower : Slug → Slug} :
    Down (server.leave lower id channel) ↔
      (server.leaveChatroom id channel).byChatroom_ = ∅ ∨ Down server := by
  have hSocket : (server.leave lower id channel).socket_ = _ := socket_leave
  have hDown (s : KickChatServer Slug) (h : (server.leave lower id channel).socket_ = s.socket_) :
      Down (server.leave lower id channel) ↔ Down s := by
    unfold Down
    rw [h]
  by_cases hEmpty : (server.leaveChatroom id channel).byChatroom_ = ∅
  · rw [if_pos hEmpty] at hSocket
    refine iff_of_true ?_ (.inl hEmpty)
    intro socket h
    obtain ⟨old, -, rfl⟩ := Option.map_eq_some_iff.mp (hSocket.symm.trans h)
    exact KickWebSocket.not_up_disconnect
  · rw [if_neg hEmpty] at hSocket
    rw [hDown _ hSocket, or_iff_right hEmpty]
    by_cases hHolds : HoldsChatroom server id channel
    · rw [leaveChatroom_of_holds hHolds]
      exact down_onSocket_iff fun _ => KickWebSocket.up_unsubscribe
    · rw [leaveChatroom_of_not_holds hHolds]

structure Continues [DecidableEq Slug] (server server' : KickChatServer Slug) : Prop where
  nextChannel : server'.nextChannel = server.nextChannel
  refs : (Registry.refs server'.bySlug_).Sublist server.bySlug_.refs
  slug : ∀ k i, server'.bySlug_.lookup k = some i → server.bySlug_.lookup k = some i
  room : ∀ r i, server'.byChatroom_.lookup r = some i →
    server.byChatroom_.lookup r = some i ∨ server.channels i ≠ none
  live : ∀ i channel', server'.channels i = some channel' →
    ∃ channel, server.channels i = some channel ∧ channel'.channelSlug_ = channel.channelSlug_
  opened : server.socket_ ≠ none → server'.socket_ ≠ none
  sound : (∀ socket, server.socket_ = some socket → socket.Sound) →
    ∀ socket, server'.socket_ = some socket → socket.Sound

variable [DecidableEq Slug]

namespace Continues

theorem refl (server : KickChatServer Slug) : Continues server server where
  nextChannel := rfl
  refs := .refl _
  slug _ _ h := h
  room _ _ h := .inl h
  live _ channel h := ⟨channel, h, rfl⟩
  opened h := h
  sound h := h

theorem trans (h : Continues server server') (h' : Continues server' server'') :
    Continues server server'' where
  nextChannel := h'.nextChannel.trans h.nextChannel
  refs := h'.refs.trans h.refs
  slug k i hLookup := h.slug k i (h'.slug k i hLookup)
  room r i hLookup := by
    rcases h'.room r i hLookup with hLookup' | hLive
    · exact h.room r i hLookup'
    · obtain ⟨channel', hChannel'⟩ := Option.ne_none_iff_exists'.mp hLive
      obtain ⟨channel, hChannel, -⟩ := h.live i channel' hChannel'
      exact .inr (Option.ne_none_iff_exists'.mpr ⟨channel, hChannel⟩)
  live i channel'' hChannel'' := by
    obtain ⟨channel', hChannel', hSlug'⟩ := h'.live i channel'' hChannel''
    obtain ⟨channel, hChannel, hSlug⟩ := h.live i channel' hChannel'
    exact ⟨channel, hChannel, hSlug'.trans hSlug⟩
  opened hOpened := h'.opened (h.opened hOpened)
  sound hSound := h'.sound (h.sound hSound)

theorem modify (hSlug : ∀ channel, (f channel).channelSlug_ = channel.channelSlug_) :
    Continues server (server.modify i f) where
  nextChannel := rfl
  refs := .refl _
  slug _ _ h := h
  room _ _ h := .inl h
  live j channel' h := by
    change server.channels.modify i f j = some channel' at h
    rcases eq_or_ne j i with rfl | hNe
    · rw [Heap.modify_self, Option.map_eq_some_iff] at h
      obtain ⟨channel, hChannel, rfl⟩ := h
      exact ⟨channel, hChannel, hSlug channel⟩
    · rw [Heap.modify_of_ne hNe] at h
      exact ⟨channel', h, rfl⟩
  opened h := h
  sound h := h

theorem onSocket {g : KickWebSocket → KickWebSocket} (hSound : ∀ socket, socket.Sound → (g socket).Sound) :
    Continues server (server.onSocket g) where
  nextChannel := rfl
  refs := .refl _
  slug _ _ h := h
  room _ _ h := .inl h
  live _ channel h := ⟨channel, h, rfl⟩
  opened h := fun hNone => h (Option.map_eq_none_iff.mp hNone)
  sound h socket hSocket := by
    obtain ⟨old, hOld, rfl⟩ := Option.map_eq_some_iff.mp hSocket
    exact hSound old (h old hOld)

theorem ensureConnected : Continues server server.ensureConnected where
  nextChannel := rfl
  refs := .refl _
  slug _ _ h := h
  room _ _ h := .inl h
  live _ channel h := ⟨channel, h, rfl⟩
  opened _ := Option.some_ne_none _
  sound h socket hSocket := by
    obtain rfl := Option.some.inj hSocket
    apply KickWebSocket.sound_connect
    rcases hOld : server.socket_ with _ | old
    · exact KickWebSocket.sound_new
    · exact h old hOld

theorem subscribeChatroom (hLive : server.channels id ≠ none) :
    Continues server (server.subscribeChatroom r id) := by
  unfold KickChatServer.subscribeChatroom
  split
  · exact refl server
  · refine trans ?_ (onSocket fun _ => KickWebSocket.sound_subscribe)
    refine ⟨rfl, .refl _, fun _ _ h => h, ?_, fun _ channel h => ⟨channel, h, rfl⟩, fun h => h, fun h => h⟩
    intro r' i hLookup
    rcases Registry.lookup_insert_eq_some.mp hLookup with ⟨-, rfl⟩ | ⟨-, hOld⟩
    · exact .inr hLive
    · exact .inl hOld

theorem eraseChatroom : Continues server { server with byChatroom_ := server.byChatroom_.erase r } where
  nextChannel := rfl
  refs := .refl _
  slug _ _ h := h
  room _ _ h := .inl (Registry.lookup_erase_eq_some.mp h).1
  live _ channel h := ⟨channel, h, rfl⟩
  opened h := h
  sound h := h

theorem eraseSlug {k : Slug} : Continues server { server with bySlug_ := server.bySlug_.erase k } where
  nextChannel := rfl
  refs := Registry.refs_erase_sublist
  slug _ _ h := (Registry.lookup_erase_eq_some.mp h).1
  room _ _ h := .inl h
  live _ channel h := ⟨channel, h, rfl⟩
  opened h := h
  sound h := h

theorem leave {lower : Slug → Slug} : Continues server (server.leave lower id channel) := by
  have hChatroom : Continues server (server.leaveChatroom id channel) := by
    unfold leaveChatroom
    split
    · exact eraseChatroom.trans (onSocket fun _ => KickWebSocket.sound_unsubscribe)
    · exact refl server
  have hSlug (s : KickChatServer Slug) : Continues s (s.leaveSlug lower id channel) := by
    unfold leaveSlug
    split
    · exact eraseSlug
    · exact refl s
  have hIdle (s : KickChatServer Slug) : Continues s s.disconnectIfIdle := by
    unfold disconnectIfIdle
    split
    · exact onSocket fun _ _ => KickWebSocket.sound_disconnect
    · exact refl s
  exact (hChatroom.trans (hSlug _)).trans (hIdle _)

theorem report (hSlug : ∀ channel, (f channel).channelSlug_ = channel.channelSlug_) :
    Continues server (server.pruneExpired.forEachChannel f) := by
  have hPruned : Continues server server.pruneExpired := by
    refine ⟨rfl, Registry.refs_filter_sublist, ?_, ?_, fun _ channel h => ⟨channel, h, rfl⟩, fun h => h,
      fun h => h⟩
    · exact fun k i h => (Registry.lookup_filter_eq_some.mp h).1
    · exact fun r i h => .inl (Registry.lookup_filter_eq_some.mp h).1
  have hAll (refs : List ChannelId) (s : KickChatServer Slug) :
      Continues s { s with channels := s.channels.modifyAll refs f } := by
    induction refs generalizing s with
    | nil => exact refl s
    | cons i refs ih => exact (modify (i := i) hSlug).trans (ih (s.modify i f))
  exact hPruned.trans (hAll _ _)

theorem connect {b : Bool} : Continues server (server.connect b id) := by
  unfold KickChatServer.connect
  split
  · exact refl server
  split
  · exact refl server
  split
  · exact refl server
  dsimp only
  have hEnsured : Continues server (server.modify id (·.setConnectionState Connecting)).ensureConnected := by
    refine trans (modify ?_) ensureConnected
    intro _
    rfl
  split
  · exact hEnsured.trans (modify fun _ => rfl)
  · exact hEnsured

theorem disconnect {lower : Slug → Slug} : Continues server (server.disconnect lower id) := by
  unfold KickChatServer.disconnect
  split
  · exact refl server
  · exact leave.trans (modify fun _ => rfl)

theorem destroy {lower : Slug → Slug} : Continues server (server.destroy lower id) := by
  unfold KickChatServer.destroy
  split
  · exact refl server
  · refine trans ?_ leave
    refine ⟨rfl, .refl _, fun _ _ h => h, fun _ _ h => .inl h, ?_, fun h => h, fun h => h⟩
    intro i channel h
    rcases eq_or_ne i id with rfl | hNe
    · cases (if_pos rfl).symm.trans h
    · exact ⟨channel, (if_neg hNe).symm.trans h, rfl⟩

theorem resolved {info : ChannelInfo} : Continues server (server.resolved id info) := by
  obtain ⟨-, h⟩ | ⟨channel, hLive, -, ⟨-, h⟩ | ⟨hUp, h⟩⟩ := resolved_cases server id info
  · rw [h]
    exact refl server
  · rw [h]
    exact modify fun _ => KickChannel.channelSlug_answered
  · rw [h]
    have hRoom : info.chatroomId ≠ 0 := by
      have hSuccess := hUp.1
      simp only [ChannelInfo.success, Bool.and_eq_true, decide_eq_true_eq] at hSuccess
      omega
    have hSubscribed : Continues server (server.subscribeChatroom info.chatroomId id) := subscribeChatroom
      (Option.ne_none_iff_exists'.mpr ⟨channel, hLive⟩)
    rw [subscribeChatroom_eq hRoom] at hSubscribed
    exact hSubscribed.trans (modify fun _ => KickChannel.channelSlug_answered)

theorem retryTimeout {lower : Slug → Slug} {b : Bool} {delay : Nat} :
    Continues server (server.retryTimeout lower b id delay) := by
  unfold KickChatServer.retryTimeout
  split
  · exact refl server
  split
  · dsimp only
    split
    · refine trans (modify ?_) (disconnect.trans connect)
      intro _
      rfl
    · exact modify fun _ => rfl
  · exact refl server

theorem reconnectTimeout {b : Bool} : Continues server (server.reconnectTimeout b id) := by
  unfold KickChatServer.reconnectTimeout
  split
  · exact refl server
  split
  · exact refl server
  · refine trans (modify ?_) connect
    intro _
    rfl

end Continues

end KickChatServer

end Chatterino.Kick
