import Chatterino.Kick.KickChatServer

/-! # What the calls change

The calls write to a channel, to the registries and to the socket. Each of them is described by
what it does to these parts.
-/

namespace Chatterino.Kick

open Lib KickConnectionState

namespace KickChatServer

variable {Slug : Type} {server : KickChatServer Slug} {id i : ChannelId} {channel : KickChannel Slug}
  {chatroomId r : Int}

theorem locksTo_iff {reference : Option ChannelId} :
    server.locksTo reference id = true ↔ reference = some id ∧ server.channels id ≠ none := by
  simp [locksTo, expired, Option.isSome_iff_ne_none]

theorem subscribeChatroom_eq (h : chatroomId ≠ 0) : server.subscribeChatroom chatroomId id =
    { server with
      byChatroom_ := server.byChatroom_.insert chatroomId id
      socket_ := server.socket_.map (·.subscribe chatroomId) } := if_neg h

def HoldsChatroom (server : KickChatServer Slug) (id : ChannelId) (channel : KickChannel Slug) : Prop :=
  channel.chatroomId_ ≠ 0 ∧ server.byChatroom_.lookup channel.chatroomId_ = some id ∧
    server.channels id ≠ none

theorem leaveChatroom_of_holds (h : HoldsChatroom server id channel) :
    server.leaveChatroom id channel =
      { server with
        byChatroom_ := server.byChatroom_.erase channel.chatroomId_
        socket_ := server.socket_.map (·.unsubscribe channel.chatroomId_) } :=
  if_pos ⟨h.1, locksTo_iff.mpr h.2⟩

theorem leaveChatroom_of_not_holds (h : ¬HoldsChatroom server id channel) :
    server.leaveChatroom id channel = server :=
  if_neg fun hHolds => h ⟨hHolds.1, locksTo_iff.mp hHolds.2⟩

theorem lookup_leaveChatroom : (server.leaveChatroom id channel).byChatroom_.lookup r = some i ↔
    server.byChatroom_.lookup r = some i ∧
      ¬(r = channel.chatroomId_ ∧ HoldsChatroom server id channel) := by
  by_cases hHolds : HoldsChatroom server id channel
  · rw [leaveChatroom_of_holds hHolds, Registry.lookup_erase_eq_some]
    simp [hHolds]
  · rw [leaveChatroom_of_not_holds hHolds]
    simp [hHolds]

variable [DecidableEq Slug] {lower : Slug → Slug} {k : Slug}

@[simp] theorem channels_leave : (server.leave lower id channel).channels = server.channels := by
  unfold leave disconnectIfIdle leaveSlug leaveChatroom
  split_ifs <;> rfl

@[simp] theorem nextChannel_leave :
    (server.leave lower id channel).nextChannel = server.nextChannel := by
  unfold leave disconnectIfIdle leaveSlug leaveChatroom
  split_ifs <;> rfl

theorem byChatroom_leave : (server.leave lower id channel).byChatroom_ =
    (server.leaveChatroom id channel).byChatroom_ := by
  unfold leave disconnectIfIdle leaveSlug
  split_ifs <;> rfl

theorem lookup_bySlug_leave : (server.leave lower id channel).bySlug_.lookup k = some i ↔
    server.bySlug_.lookup k = some i ∧
      ¬(k = lower channel.channelSlug_ ∧ i = id ∧ server.channels id ≠ none) := by
  have hChatroom : (server.leaveChatroom id channel).bySlug_ = server.bySlug_ := by
    unfold leaveChatroom
    split_ifs <;> rfl
  have hChannels : (server.leaveChatroom id channel).channels = server.channels := by
    unfold leaveChatroom
    split_ifs <;> rfl
  have hIdle : (server.leave lower id channel).bySlug_ =
      ((server.leaveChatroom id channel).leaveSlug lower id channel).bySlug_ := by
    unfold leave disconnectIfIdle
    split_ifs <;> rfl
  rw [hIdle, leaveSlug]
  split
  · rename_i hLocks
    rw [hChatroom, locksTo_iff, hChannels] at hLocks
    rw [hChatroom, Registry.lookup_erase_eq_some]
    constructor
    · rintro ⟨hLookup, hNe⟩
      exact ⟨hLookup, fun h => hNe h.1⟩
    · rintro ⟨hLookup, hNot⟩
      refine ⟨hLookup, ?_⟩
      rintro rfl
      exact hNot ⟨rfl, Option.some.inj (hLookup.symm.trans hLocks.1), hLocks.2⟩
  · rename_i hLocks
    rw [hChatroom, locksTo_iff, hChannels] at hLocks
    rw [hChatroom]
    constructor
    · intro hLookup
      refine ⟨hLookup, ?_⟩
      rintro ⟨rfl, rfl, hLive⟩
      exact hLocks ⟨hLookup, hLive⟩
    · exact And.left

theorem socket_leave : (server.leave lower id channel).socket_ =
    if (server.leaveChatroom id channel).byChatroom_ = ∅ then
      server.socket_.map KickWebSocket.disconnect
    else (server.leaveChatroom id channel).socket_ := by
  have hSlug : ((server.leaveChatroom id channel).leaveSlug lower id channel).socket_ =
      (server.leaveChatroom id channel).socket_ := by
    unfold leaveSlug
    split_ifs <;> rfl
  have hChatroom : ((server.leaveChatroom id channel).leaveSlug lower id channel).byChatroom_ =
      (server.leaveChatroom id channel).byChatroom_ := by
    unfold leaveSlug
    split_ifs <;> rfl
  have hDisconnect : (server.leaveChatroom id channel).socket_.map KickWebSocket.disconnect =
      server.socket_.map KickWebSocket.disconnect := by
    by_cases hHolds : HoldsChatroom server id channel
    · rw [leaveChatroom_of_holds hHolds, Option.map_map]
      exact Option.map_congr fun socket _ => KickWebSocket.disconnect_unsubscribe socket _
    · rw [leaveChatroom_of_not_holds hHolds]
  unfold leave disconnectIfIdle
  rw [hChatroom]
  simp only [Registry.isEmpty_iff]
  split
  · rw [onSocket, hSlug]
    exact hDisconnect
  · exact hSlug

theorem disconnect_eq (h : server.channels id = some channel) : server.disconnect lower id =
    (server.leave lower id channel).modify id (·.setConnectionState Disconnected) := by
  simp only [disconnect, h]

omit [DecidableEq Slug] in
theorem connect_of_idle (h : server.channels id = some channel)
    (hState : channel.connectionState_ ≠ Connected ∧ channel.connectionState_ ≠ Connecting) :
    server.connect true id =
      { server with
        socket_ := some (server.socket_.getD {}).connect
        channels := server.channels.modify id fun channel =>
          { channel with
            connectionState_ := Connecting
            resolutions := channel.resolutions + if server.isConnected then 1 else 0 } } := by
  have hUp : ((server.modify id (·.setConnectionState Connecting)).ensureConnected).isConnected =
      server.isConnected := isConnected_ensureConnected _
  simp only [connect, h, hState, or_self, if_false, Bool.not_true, Bool.false_eq_true, hUp]
  cases server.isConnected with
  | true => exact congrArg (fun channels => ({ server with
      socket_ := some (server.socket_.getD {}).connect
      channels := channels } : KickChatServer Slug)) Heap.modify_modify
  | false => rfl

omit [DecidableEq Slug] in
theorem connect_of_busy (h : server.channels id = some channel)
    (hState : channel.connectionState_ = Connected ∨ channel.connectionState_ = Connecting) (b : Bool) :
    server.connect b id = server := by
  simp only [connect, h, hState, if_true]

omit [DecidableEq Slug] in
theorem connect_of_gone (h : server.channels id = none) (b : Bool) : server.connect b id = server := by
  simp only [connect, h]

end KickChatServer

namespace KickChannel

variable {Slug : Type} {info : ChannelInfo} {state : KickConnectionState} {channel : KickChannel Slug}

def answered (info : ChannelInfo) (state : KickConnectionState) (channel : KickChannel Slug) :
    KickChannel Slug :=
  { (if info.success then channel.setChannelInfo info else channel) with
    resolutions := channel.resolutions - 1
    connectionState_ := state }

@[simp] theorem channelSlug_answered : (channel.answered info state).channelSlug_ = channel.channelSlug_ := by
  unfold answered
  split <;> rfl

@[simp] theorem reconnectAttempts_answered :
    (channel.answered info state).reconnectAttempts_ = channel.reconnectAttempts_ := by
  unfold answered
  split <;> rfl

@[simp] theorem retryTimers_answered :
    (channel.answered info state).retryTimers = channel.retryTimers := by
  unfold answered
  split <;> rfl

@[simp] theorem connectionState_answered : (channel.answered info state).connectionState_ = state := rfl

def retried (delay : Nat) (connected : Bool) (channel : KickChannel Slug) : KickChannel Slug :=
  { channel with
    retryTimers := channel.retryTimers.erase delay
    connectionState_ := Connecting
    resolutions := channel.resolutions + if connected then 1 else 0 }

theorem onServerError_cases (channel : KickChannel Slug) :
    channel.connectionState_ = Reconnecting ∧ channel.onServerError = channel ∨
    channel.connectionState_ ≠ Reconnecting ∧
      (MAX_RECONNECT_ATTEMPTS ≤ channel.reconnectAttempts_ ∧
        channel.onServerError = channel.setConnectionState Failed ∨
      channel.reconnectAttempts_ < MAX_RECONNECT_ATTEMPTS ∧
        channel.onServerError =
          { channel with
            connectionState_ := Reconnecting
            retryTimers := baseDelayMs channel.reconnectAttempts_ :: channel.retryTimers
            reconnectAttempts_ := channel.reconnectAttempts_ + 1 }) := by
  unfold onServerError handleConnectionError
  split
  · rename_i hState
    exact .inl ⟨hState, rfl⟩
  · rename_i hState
    refine .inr ⟨hState, ?_⟩
    rcases Nat.lt_or_ge channel.reconnectAttempts_ MAX_RECONNECT_ATTEMPTS with hLess | hUsed
    · exact .inr ⟨hLess, if_neg (Nat.not_le.mpr hLess)⟩
    · exact .inl ⟨hUsed, if_pos hUsed⟩

@[simp] theorem channelSlug_onServerError :
    channel.onServerError.channelSlug_ = channel.channelSlug_ := by
  obtain ⟨-, h⟩ | ⟨-, ⟨-, h⟩ | ⟨-, h⟩⟩ := onServerError_cases channel
  · rw [h]
  · rw [h, setConnectionState]
  · rw [h]

end KickChannel

namespace KickChatServer

variable {Slug : Type} {server : KickChatServer Slug} {id i : ChannelId} {channel : KickChannel Slug}
  {info : ChannelInfo} {f : KickChannel Slug → KickChannel Slug} {r : Int}

theorem channels_forEachChannel [DecidableEq Slug] (hNodup : server.bySlug_.refs.Nodup) :
    (server.pruneExpired.forEachChannel f).channels i =
      if i ∈ server.bySlug_.refs then (server.channels i).map f else server.channels i := by
  have hPruned : server.pruneExpired.bySlug_.refs.Nodup := hNodup.sublist Registry.refs_filter_sublist
  refine (Heap.modifyAll_apply hPruned).trans ?_
  rcases hLive : server.channels i with _ | channel
  · simp [pruneExpired, hLive]
  · have hMem : i ∈ server.pruneExpired.bySlug_.refs ↔ i ∈ server.bySlug_.refs := by
      rw [Registry.mem_refs, Registry.mem_refs]
      simp [pruneExpired, Registry.lookup_filter_eq_some, expired, hLive]
    simp only [hMem]
    exact congrArg (fun o => if i ∈ server.bySlug_.refs then o.map f else o) hLive

theorem channels_report [DecidableEq Slug] (hNodup : server.bySlug_.refs.Nodup)
    {socket : Option KickWebSocket} :
    (pruneExpired { server with socket_ := socket } |>.forEachChannel f).channels i =
      if i ∈ server.bySlug_.refs then (server.channels i).map f else server.channels i :=
  channels_forEachChannel hNodup

theorem resolved_of_idle (h : ∀ channel, server.channels id = some channel → channel.resolutions = 0) :
    server.resolved id info = server := by
  unfold resolved
  split
  · rfl
  · rename_i channel hLive
    exact if_pos (h channel hLive)

theorem resolved_of_failed (h : server.channels id = some channel) (hPending : channel.resolutions ≠ 0)
    (hFailed : ¬(info.success = true ∧ server.isConnected = true)) :
    server.resolved id info = server.modify id (·.answered info Failed) := by
  simp only [resolved, h, if_neg hPending, onChannelInfo]
  rcases hSuccess : info.success with _ | _
  · simp only [Bool.not_false, if_true, modify, Heap.modify_modify]
    simp only [KickChannel.answered, hSuccess]
    rfl
  · have hDown : server.isConnected = false := by
      rw [hSuccess] at hFailed
      simpa using hFailed
    have hModified (g : KickChannel Slug → KickChannel Slug) :
        (server.modify id g).isConnected = false := hDown
    have hTwice (g : KickChannel Slug → KickChannel Slug) :
        ((server.modify id g).modify id (·.setChannelInfo info)).isConnected = false := hDown
    simp only [Bool.not_true, Bool.false_eq_true, if_false, hTwice]
    simp only [modify, Heap.modify_modify, KickChannel.answered, hSuccess]
    rfl

theorem resolved_of_connected (h : server.channels id = some channel) (hPending : channel.resolutions ≠ 0)
    (hSuccess : info.success = true) (hUp : server.isConnected = true) :
    server.resolved id info =
      { server with
        byChatroom_ := server.byChatroom_.insert info.chatroomId id
        socket_ := server.socket_.map (·.subscribe info.chatroomId)
        channels := server.channels.modify id (·.answered info Connected) } := by
  have hRoom : info.chatroomId ≠ 0 := by
    simp only [ChannelInfo.success, Bool.and_eq_true, decide_eq_true_eq] at hSuccess
    omega
  have hTwice (g : KickChannel Slug → KickChannel Slug) :
      ((server.modify id g).modify id (·.setChannelInfo info)).isConnected = true := hUp
  simp only [resolved, h, if_neg hPending, onChannelInfo, hSuccess, Bool.not_true, Bool.false_eq_true,
    if_false, hTwice, if_true, subscribeChatroom_eq hRoom]
  simp only [modify, Heap.modify_modify, KickChannel.answered, hSuccess]
  rfl

theorem resolved_cases (server : KickChatServer Slug) (id : ChannelId) (info : ChannelInfo) :
    (∀ channel, server.channels id = some channel → channel.resolutions = 0) ∧
      server.resolved id info = server ∨
    ∃ channel, server.channels id = some channel ∧ channel.resolutions ≠ 0 ∧
      (¬(info.success = true ∧ server.isConnected = true) ∧
        server.resolved id info = server.modify id (·.answered info Failed) ∨
      (info.success = true ∧ server.isConnected = true) ∧
        server.resolved id info =
          { server with
            byChatroom_ := server.byChatroom_.insert info.chatroomId id
            socket_ := server.socket_.map (·.subscribe info.chatroomId)
            channels := server.channels.modify id (·.answered info Connected) }) := by
  rcases hLive : server.channels id with _ | channel
  · exact .inl ⟨by rintro _ ⟨⟩, resolved_of_idle (by simp [hLive])⟩
  rcases eq_or_ne channel.resolutions 0 with hNone | hPending
  · exact .inl ⟨by rintro _ ⟨⟩; exact hNone, resolved_of_idle (by simp [hLive, hNone])⟩
  refine .inr ⟨channel, rfl, hPending, ?_⟩
  by_cases hUp : info.success = true ∧ server.isConnected = true
  · exact .inr ⟨hUp, resolved_of_connected hLive hPending hUp.1 hUp.2⟩
  · exact .inl ⟨hUp, resolved_of_failed hLive hPending hUp⟩

theorem connect_cases (server : KickChatServer Slug) (id : ChannelId) :
    (∀ channel, server.channels id = some channel →
        channel.connectionState_ = Connected ∨ channel.connectionState_ = Connecting) ∧
      server.connect true id = server ∨
    ∃ channel, server.channels id = some channel ∧
      (channel.connectionState_ ≠ Connected ∧ channel.connectionState_ ≠ Connecting) ∧
      server.connect true id =
        { server with
          socket_ := some (server.socket_.getD {}).connect
          channels := server.channels.modify id fun channel =>
            { channel with
              connectionState_ := Connecting
              resolutions := channel.resolutions + if server.isConnected then 1 else 0 } } := by
  rcases hLive : server.channels id with _ | channel
  · exact .inl ⟨by rintro _ ⟨⟩, connect_of_gone hLive true⟩
  by_cases hBusy : channel.connectionState_ = Connected ∨ channel.connectionState_ = Connecting
  · exact .inl ⟨by rintro _ ⟨⟩; exact hBusy, connect_of_busy hLive hBusy true⟩
  · exact .inr ⟨channel, rfl, not_or.mp hBusy, connect_of_idle hLive (not_or.mp hBusy)⟩

theorem reconnectTimeout_of_idle {b : Bool}
    (h : ∀ channel, server.channels id = some channel → channel.reconnectTimers = 0) :
    server.reconnectTimeout b id = server := by
  unfold reconnectTimeout
  split
  · rfl
  · rename_i channel hLive
    exact if_pos (h channel hLive)

theorem reconnectTimeout_of_pending {b : Bool} (h : server.channels id = some channel)
    (hPending : channel.reconnectTimers ≠ 0) : server.reconnectTimeout b id =
      (server.modify id fun channel =>
        { channel with reconnectTimers := channel.reconnectTimers - 1 }).connect b id := by
  simp only [reconnectTimeout, h, if_neg hPending]

theorem reconnectTimeout_cases (server : KickChatServer Slug) (id : ChannelId) (b : Bool) :
    (∀ channel, server.channels id = some channel → channel.reconnectTimers = 0) ∧
      server.reconnectTimeout b id = server ∨
    ∃ channel, server.channels id = some channel ∧ channel.reconnectTimers ≠ 0 ∧
      server.reconnectTimeout b id = (server.modify id fun channel =>
        { channel with reconnectTimers := channel.reconnectTimers - 1 }).connect b id := by
  rcases hLive : server.channels id with _ | channel
  · exact .inl ⟨by rintro _ ⟨⟩, reconnectTimeout_of_idle (by simp [hLive])⟩
  rcases eq_or_ne channel.reconnectTimers 0 with hNone | hPending
  · exact .inl ⟨by rintro _ ⟨⟩; exact hNone, reconnectTimeout_of_idle (by simp [hLive, hNone])⟩
  · exact .inr ⟨channel, rfl, hPending, reconnectTimeout_of_pending hLive hPending⟩

variable [DecidableEq Slug] {lower : Slug → Slug} {delay : Nat}

theorem leave_modify {channel' : KickChannel Slug} (hSlug : channel'.channelSlug_ = channel.channelSlug_)
    (hRoom : channel'.chatroomId_ = channel.chatroomId_) :
    (server.modify i f).leave lower id channel' = (server.leave lower id channel).modify i f := by
  have hLocks (s : KickChatServer Slug) (reference : Option ChannelId) (j : ChannelId) :
      (s.modify i f).locksTo reference j = s.locksTo reference j := by
    unfold locksTo expired modify
    rcases eq_or_ne j i with rfl | hNe
    · simp
    · simp only [Heap.modify_of_ne hNe]
  have hChatroom : (server.modify i f).leaveChatroom id channel' =
      (server.leaveChatroom id channel).modify i f := by
    rw [leaveChatroom, leaveChatroom, apply_ite fun s : KickChatServer Slug => s.modify i f, hRoom]
    simp only [hLocks]
    rfl
  have hLeaveSlug (s : KickChatServer Slug) : (s.modify i f).leaveSlug lower id channel' =
      (s.leaveSlug lower id channel).modify i f := by
    rw [leaveSlug, leaveSlug, apply_ite fun s : KickChatServer Slug => s.modify i f, hSlug]
    simp only [hLocks]
    rfl
  have hIdle (s : KickChatServer Slug) : (s.modify i f).disconnectIfIdle = s.disconnectIfIdle.modify i f := by
    rw [disconnectIfIdle, disconnectIfIdle, apply_ite fun s : KickChatServer Slug => s.modify i f]
    rfl
  rw [leave, hChatroom, hLeaveSlug, hIdle]
  rfl

theorem disconnect_modify (h : server.channels id = some channel)
    (hSlug : (f channel).channelSlug_ = channel.channelSlug_)
    (hRoom : (f channel).chatroomId_ = channel.chatroomId_) :
    (server.modify id f).disconnect lower id =
      { server.leave lower id channel with
        channels := server.channels.modify id ((·.setConnectionState Disconnected) ∘ f) } := by
  have hModified : (server.modify id f).channels id = some (f channel) :=
    Heap.modify_self.trans (congrArg (Option.map f) h)
  rw [disconnect_eq hModified, leave_modify hSlug hRoom]
  simp only [modify, channels_leave, Heap.modify_modify]

theorem disconnect_of_gone (h : server.channels id = none) : server.disconnect lower id = server := by
  simp only [disconnect, h]

theorem reconnect_of_gone (h : server.channels id = none) : server.reconnect lower id = server := by
  rw [reconnect, disconnect_of_gone h, modify, Heap.modify_of_none h]

theorem reconnect_eq (h : server.channels id = some channel) : server.reconnect lower id =
    { server.leave lower id channel with
      channels := server.channels.modify id fun channel =>
        { channel with
          connectionState_ := Disconnected
          reconnectAttempts_ := 0
          reconnectTimers := channel.reconnectTimers + 1 } } := by
  rw [reconnect, disconnect_eq h]
  simp only [modify, channels_leave, Heap.modify_modify]
  rfl

theorem retryTimeout_of_gone {b : Bool}
    (h : ∀ channel, server.channels id = some channel → delay ∉ channel.retryTimers) :
    server.retryTimeout lower b id delay = server := by
  unfold retryTimeout
  split
  · rfl
  · rename_i channel hLive
    exact if_neg (h channel hLive)

theorem retryTimeout_of_moved {b : Bool} (h : server.channels id = some channel)
    (hPending : delay ∈ channel.retryTimers) (hState : channel.connectionState_ ≠ Reconnecting) :
    server.retryTimeout lower b id delay =
      server.modify id fun channel => { channel with retryTimers := channel.retryTimers.erase delay } := by
  simp only [retryTimeout, h, if_pos hPending, if_neg hState]

theorem retryTimeout_of_waiting (h : server.channels id = some channel)
    (hPending : delay ∈ channel.retryTimers) (hState : channel.connectionState_ = Reconnecting) :
    server.retryTimeout lower true id delay =
      { server.leave lower id channel with
        socket_ := some ((server.leave lower id channel).socket_.getD {}).connect
        channels := server.channels.modify id
          (·.retried delay (server.leave lower id channel).isConnected) } := by
  simp only [retryTimeout, h, if_pos hPending, if_pos hState]
  rw [disconnect_modify h rfl rfl]
  have hDisconnected : (server.channels.modify id ((·.setConnectionState Disconnected) ∘
      fun channel => { channel with retryTimers := channel.retryTimers.erase delay })) id =
      some { channel with
        retryTimers := channel.retryTimers.erase delay
        connectionState_ := Disconnected } := by
    rw [Heap.modify_self, h]
    rfl
  have hIdle : Disconnected ≠ Connected ∧ Disconnected ≠ Connecting := by decide
  rw [connect_of_idle hDisconnected hIdle]
  simp only [Heap.modify_modify]
  rfl

theorem retryTimeout_cases (lower : Slug → Slug) (server : KickChatServer Slug) (id : ChannelId)
    (delay : Nat) :
    (∀ channel, server.channels id = some channel → delay ∉ channel.retryTimers) ∧
      server.retryTimeout lower true id delay = server ∨
    ∃ channel, server.channels id = some channel ∧ delay ∈ channel.retryTimers ∧
      (channel.connectionState_ ≠ Reconnecting ∧
        server.retryTimeout lower true id delay = server.modify id (fun channel =>
          { channel with retryTimers := channel.retryTimers.erase delay }) ∨
      channel.connectionState_ = Reconnecting ∧
        server.retryTimeout lower true id delay =
          { server.leave lower id channel with
            socket_ := some ((server.leave lower id channel).socket_.getD {}).connect
            channels := server.channels.modify id
              (·.retried delay (server.leave lower id channel).isConnected) }) := by
  rcases hLive : server.channels id with _ | channel
  · exact .inl ⟨by rintro _ ⟨⟩, retryTimeout_of_gone (by simp [hLive])⟩
  by_cases hPending : delay ∈ channel.retryTimers
  · refine .inr ⟨channel, rfl, hPending, ?_⟩
    rcases eq_or_ne channel.connectionState_ Reconnecting with hState | hState
    · exact .inr ⟨hState, retryTimeout_of_waiting hLive hPending hState⟩
    · exact .inl ⟨hState, retryTimeout_of_moved hLive hPending hState⟩
  · exact .inl ⟨by rintro _ ⟨⟩; exact hPending, retryTimeout_of_gone (by simpa [hLive] using hPending)⟩

theorem destroy_of_gone (h : server.channels id = none) : server.destroy lower id = server := by
  simp only [destroy, h]

theorem destroy_eq (h : server.channels id = some channel) : server.destroy lower id =
    { server with channels := fun i => if i = id then none else server.channels i }.disconnectIfIdle := by
  simp only [destroy, h, leave, leaveSlug, leaveChatroom, locksTo, expired, if_true, Option.isNone_none,
    Bool.not_true, Bool.and_false, Bool.false_eq_true, and_false, if_false]

variable {slug : Slug}

theorem getOrCreate_of_found {b : Bool} (h : server.findBySlug lower (lower slug) = some id) :
    server.getOrCreate lower b slug = (server, id) := by
  simp only [getOrCreate, h]

theorem getOrCreate_of_new (h : server.findBySlug lower (lower slug) = none) :
    server.getOrCreate lower true slug =
      ({ server with
        socket_ := some (server.socket_.getD {}).connect
        bySlug_ := server.bySlug_.insert (lower slug) server.nextChannel
        channels := fun i =>
          if i = server.nextChannel then
            some
              { channelSlug_ := lower slug
                connectionState_ := Connecting
                resolutions := if server.isConnected then 1 else 0 }
          else server.channels i
        nextChannel := server.nextChannel + 1 }, server.nextChannel) := by
  simp only [getOrCreate, h]
  have hIdle : Disconnected ≠ Connected ∧ Disconnected ≠ Connecting := by decide
  rw [connect_of_idle (show _ = some { channelSlug_ := lower slug } from if_pos rfl) hIdle]
  refine congrArg (fun channels => (({ server with
    socket_ := some (server.socket_.getD {}).connect
    bySlug_ := server.bySlug_.insert (lower slug) server.nextChannel
    channels := channels
    nextChannel := server.nextChannel + 1 } : KickChatServer Slug), server.nextChannel)) ?_
  funext j
  rcases eq_or_ne j server.nextChannel with rfl | hNe
  · simp only [Heap.modify_self, if_true, Option.map_some, Nat.zero_add]
    rfl
  · simp only [Heap.modify_of_ne hNe, if_neg hNe]

end KickChatServer

end Chatterino.Kick
