import Chatterino.Kick.KickContinuity
import Chatterino.Lib.Run

/-! # What holds in every state of the Kick server -/

namespace Chatterino.Kick

open Lib KickConnectionState

namespace KickChatServer

variable {Slug : Type} [DecidableEq Slug] {server server' : KickChatServer Slug} {i : ChannelId}
  {channel : KickChannel Slug}

theorem continues_step {lower : Slug → Slug} {event : Event Slug}
    (hCreate : ∀ slug, event ≠ .getOrCreate slug) : Continues server (server.step lower true event) := by
  cases event with
  | getOrCreate slug => exact absurd rfl (hCreate slug)
  | connect id => exact .connect
  | disconnect id => exact .disconnect
  | reconnect id => exact .trans .disconnect (.modify fun _ => rfl)
  | destroy id => exact .destroy
  | setApi id => exact .modify fun _ => rfl
  | established =>
    rw [step]
    split
    · rename_i hOpen
      have hAnnounced : Continues server (server.onSocket KickWebSocket.handleConnectionEstablished) := by
        refine ⟨rfl, .refl _, fun _ _ h => h, fun _ _ h => .inl h, fun _ channel h => ⟨channel, h, rfl⟩,
          fun hSome hNone => hSome (Option.map_eq_none_iff.mp hNone), ?_⟩
        intro _ socket hSocket
        obtain ⟨old, hOld, rfl⟩ := Option.map_eq_some_iff.mp hSocket
        have hOpened : old.socket_ = .Open := by simpa [hOld] using hOpen
        exact ⟨fun _ => hOpened, by rintro ⟨⟩⟩
      refine hAnnounced.trans (.report ?_)
      intro _
      rfl
    · exact .refl server
  | closed =>
    rw [step]
    split
    · refine .trans (.onSocket fun _ _ => KickWebSocket.sound_new) (.report ?_)
      intro _
      rfl
    · exact .refl server
  | error =>
    rw [step]
    split
    · refine .trans (.onSocket fun _ => KickWebSocket.sound_onError) (.report ?_)
      exact fun _ => KickChannel.channelSlug_onServerError
    · exact .refl server
  | pusherError code =>
    have hError : Continues server server.onError :=
      .report fun _ => KickChannel.channelSlug_onServerError
    rw [step]
    split
    · unfold handlePusherError
      split
      · exact hError.trans (.onSocket fun _ _ => KickWebSocket.sound_disconnect)
      · exact hError
    · exact .refl server
  | message chatroomId =>
    rw [step, onMessage]
    split
    · exact .refl server
    split
    · exact .trans .eraseChatroom (.onSocket fun _ => KickWebSocket.sound_unsubscribe)
    · exact .refl server
  | resolved id info => exact .resolved
  | retryTimeout id delay => exact .retryTimeout
  | reconnectTimeout id => exact .reconnectTimeout

theorem nextChannel_le_step {lower : Slug → Slug} (event : Event Slug) :
    server.nextChannel ≤ (server.step lower true event).nextChannel := by
  by_cases hCreate : ∀ slug, event ≠ .getOrCreate slug
  · have hContinues : Continues server (server.step lower true event) := continues_step hCreate
    exact Nat.le_of_eq hContinues.nextChannel.symm
  · obtain ⟨slug, rfl⟩ := not_forall_not.mp hCreate
    rcases hFound : server.findBySlug lower (lower slug) with _ | existing
    · rw [step, getOrCreate_of_new hFound]
      exact Nat.le_succ _
    · rw [step, getOrCreate_of_found hFound]

structure WellFormed (lower : Slug → Slug) (server : KickChatServer Slug) : Prop where
  nodup : server.bySlug_.refs.Nodup
  slug_lt : ∀ k i, server.bySlug_.lookup k = some i → i < server.nextChannel
  room_lt : ∀ r i, server.byChatroom_.lookup r = some i → i < server.nextChannel
  live_lt : ∀ i channel, server.channels i = some channel → i < server.nextChannel
  slug_eq : ∀ k i channel, server.bySlug_.lookup k = some i → server.channels i = some channel →
    channel.channelSlug_ = k
  lower_eq : ∀ i channel, server.channels i = some channel →
    lower channel.channelSlug_ = channel.channelSlug_
  opened : ∀ i channel, server.channels i = some channel → server.socket_ ≠ none
  sound : ∀ socket, server.socket_ = some socket → socket.Sound

namespace WellFormed

variable {lower : Slug → Slug}

theorem continues (h : WellFormed lower server) (hContinues : Continues server server') :
    WellFormed lower server' where
  nodup := h.nodup.sublist hContinues.refs
  slug_lt k i hLookup := hContinues.nextChannel ▸ h.slug_lt k i (hContinues.slug k i hLookup)
  room_lt r i hLookup := by
    rw [hContinues.nextChannel]
    rcases hContinues.room r i hLookup with hOld | hLive
    · exact h.room_lt r i hOld
    · obtain ⟨channel, hChannel⟩ := Option.ne_none_iff_exists'.mp hLive
      exact h.live_lt i channel hChannel
  live_lt i channel' hChannel' := by
    obtain ⟨channel, hChannel, -⟩ := hContinues.live i channel' hChannel'
    exact hContinues.nextChannel ▸ h.live_lt i channel hChannel
  slug_eq k i channel' hLookup hChannel' := by
    obtain ⟨channel, hChannel, hSlug⟩ := hContinues.live i channel' hChannel'
    exact hSlug.trans (h.slug_eq k i channel (hContinues.slug k i hLookup) hChannel)
  lower_eq i channel' hChannel' := by
    obtain ⟨channel, hChannel, hSlug⟩ := hContinues.live i channel' hChannel'
    rw [hSlug]
    exact h.lower_eq i channel hChannel
  opened i channel' hChannel' := by
    obtain ⟨channel, hChannel, -⟩ := hContinues.live i channel' hChannel'
    exact hContinues.opened (h.opened i channel hChannel)
  sound := hContinues.sound h.sound

theorem mem_refs_iff (h : WellFormed lower server) (hLive : server.channels i = some channel) :
    i ∈ server.bySlug_.refs ↔ server.bySlug_.lookup channel.channelSlug_ = some i := by
  rw [Registry.mem_refs]
  constructor
  · rintro ⟨k, hLookup⟩
    rw [h.slug_eq k i channel hLookup hLive]
    exact hLookup
  · exact fun hLookup => ⟨_, hLookup⟩

theorem not_live (h : WellFormed lower server) (hId : server.nextChannel ≤ i) :
    server.channels i = none := by
  rcases hLive : server.channels i with _ | channel
  · rfl
  · exact absurd (h.live_lt i channel hLive) (Nat.not_lt.mpr hId)

theorem getOrCreate (hLower : ∀ slug, lower (lower slug) = lower slug) (h : WellFormed lower server)
    {slug : Slug} (hNew : server.findBySlug lower (lower slug) = none) :
    WellFormed lower (server.getOrCreate lower true slug).1 := by
  rw [getOrCreate_of_new hNew]
  have hFresh : server.nextChannel ∉ server.bySlug_.refs := by
    intro hMem
    obtain ⟨k, hLookup⟩ := Registry.mem_refs.mp hMem
    exact Nat.lt_irrefl _ (h.slug_lt k _ hLookup)
  refine ⟨Registry.nodup_refs_insert h.nodup hFresh, ?_, ?_, ?_, ?_, ?_, ?_, ?_⟩
  · intro k i hLookup
    rcases Registry.lookup_insert_eq_some.mp hLookup with ⟨-, rfl⟩ | ⟨-, hOld⟩
    · exact Nat.lt_succ_self _
    · exact Nat.lt_succ_of_lt (h.slug_lt k i hOld)
  · exact fun r i hLookup => Nat.lt_succ_of_lt (h.room_lt r i hLookup)
  · intro i channel hLive
    rcases eq_or_ne i server.nextChannel with rfl | hNe
    · exact Nat.lt_succ_self _
    · exact Nat.lt_succ_of_lt (h.live_lt i channel ((if_neg hNe).symm.trans hLive))
  · intro k i channel hLookup hLive
    rcases Registry.lookup_insert_eq_some.mp hLookup with ⟨rfl, rfl⟩ | ⟨-, hOld⟩
    · obtain rfl := Option.some.inj ((if_pos rfl).symm.trans hLive)
      rfl
    · have hNe : i ≠ server.nextChannel := Nat.ne_of_lt (h.slug_lt k i hOld)
      exact h.slug_eq k i channel hOld ((if_neg hNe).symm.trans hLive)
  · intro i channel hLive
    rcases eq_or_ne i server.nextChannel with rfl | hNe
    · obtain rfl := Option.some.inj ((if_pos rfl).symm.trans hLive)
      exact hLower slug
    · exact h.lower_eq i channel ((if_neg hNe).symm.trans hLive)
  · exact fun _ _ _ => Option.some_ne_none _
  · have hEnsured : Continues server server.ensureConnected := .ensureConnected
    exact hEnsured.sound h.sound

theorem step (hLower : ∀ slug, lower (lower slug) = lower slug) (h : WellFormed lower server)
    (event : Event Slug) : WellFormed lower (server.step lower true event) := by
  by_cases hCreate : ∀ slug, event ≠ .getOrCreate slug
  · exact h.continues (continues_step hCreate)
  · obtain ⟨slug, rfl⟩ := not_forall_not.mp hCreate
    rcases hFound : server.findBySlug lower (lower slug) with _ | existing
    · exact h.getOrCreate hLower hFound
    · rw [KickChatServer.step, getOrCreate_of_found hFound]
      exact h

theorem empty : WellFormed lower ({} : KickChatServer Slug) where
  nodup := List.nodup_nil
  slug_lt k i h := by cases (AList.lookup_empty k).symm.trans h
  room_lt r i h := by cases (AList.lookup_empty r).symm.trans h
  live_lt i channel h := by cases h
  slug_eq k i channel h := by cases (AList.lookup_empty k).symm.trans h
  lower_eq i channel h := by cases h
  opened i channel h := by cases h
  sound socket h := by cases h

end WellFormed

def run (lower : Slug → Slug) (events : List (Event Slug)) : KickChatServer Slug :=
  events.foldl (step lower true) {}

theorem wellFormed_run {lower : Slug → Slug} (hLower : ∀ slug, lower (lower slug) = lower slug)
    (events : List (Event Slug)) : WellFormed lower (run lower events) :=
  foldl_invariant events .empty fun _ event h => h.step hLower event

end KickChatServer

def KickChannel.NoRetry {Slug : Type} (channel channel' : KickChannel Slug) : Prop :=
  channel'.reconnectAttempts_ = channel.reconnectAttempts_ ∧
    channel'.retryTimers.length ≤ channel.retryTimers.length

theorem KickChannel.NoRetry.refl {Slug : Type} (channel : KickChannel Slug) : NoRetry channel channel :=
  ⟨rfl, Nat.le_refl _⟩

theorem KickChannel.NoRetry.trans {Slug : Type} (a b c : KickChannel Slug) (h : NoRetry a b)
    (h' : NoRetry b c) : NoRetry a c :=
  ⟨h'.1.trans h.1, Nat.le_trans h'.2 h.2⟩

namespace KickChatServer

variable {Slug : Type} {lower : Slug → Slug} {server : KickChatServer Slug} {id : ChannelId}
  {channel : KickChannel Slug} {event : Event Slug}

def Event.reconnects (id : ChannelId) : Event Slug → Bool
  | .reconnect i => i = id
  | _ => false

theorem traces_connect : server.channels.Traces KickChannel.NoRetry (server.connect true id).channels := by
  obtain ⟨-, hSame⟩ | ⟨channel, -, -, hConnect⟩ := connect_cases server id
  · rw [hSame]
    exact .refl .refl _
  · rw [hConnect]
    exact .modify .refl fun _ => ⟨rfl, Nat.le_refl _⟩

variable [DecidableEq Slug]

theorem traces_step (hWellFormed : WellFormed lower server) (hError : event ≠ .error)
    (hPusherError : ∀ code, event ≠ .pusherError code) (hCreate : ∀ slug, event ≠ .getOrCreate slug)
    (hReconnect : ∀ i, event ≠ .reconnect i) :
    server.channels.Traces KickChannel.NoRetry (server.step lower true event).channels := by
  have hReport {socket : Option KickWebSocket} {f : KickChannel Slug → KickChannel Slug}
      (hKeep : ∀ channel, KickChannel.NoRetry channel (f channel)) : server.channels.Traces KickChannel.NoRetry
        (pruneExpired { server with socket_ := socket } |>.forEachChannel f).channels := by
    intro i channel' hLive
    rw [channels_report hWellFormed.nodup] at hLive
    split at hLive
    · obtain ⟨channel, hOld, rfl⟩ := Option.map_eq_some_iff.mp hLive
      exact ⟨channel, hOld, hKeep channel⟩
    · exact ⟨channel', hLive, .refl _⟩
  cases event with
  | getOrCreate slug => exact absurd rfl (hCreate slug)
  | connect j => exact traces_connect
  | disconnect j =>
    rcases hLive : server.channels j with _ | channel
    · rw [step, disconnect_of_gone hLive]
      exact .refl .refl _
    · rw [step, disconnect_eq hLive]
      change server.channels.Traces _ ((server.leave lower j channel).channels.modify j _)
      rw [channels_leave]
      exact .modify .refl fun _ => ⟨rfl, Nat.le_refl _⟩
  | reconnect j => exact absurd rfl (hReconnect j)
  | destroy j =>
    rcases hLive : server.channels j with _ | channel
    · rw [step, destroy_of_gone hLive]
      exact .refl .refl _
    · have hLeft : server.channels.Traces KickChannel.NoRetry
          fun i => if i = j then none else server.channels i := by
        intro i other hOther
        dsimp only at hOther
        split at hOther
        · cases hOther
        · exact ⟨other, hOther, .refl _⟩
      rw [step, destroy_eq hLive, disconnectIfIdle]
      split <;> exact hLeft
  | setApi j => exact .modify .refl fun _ => ⟨rfl, Nat.le_refl _⟩
  | established =>
    rw [step]
    split
    · exact hReport (f := KickChannel.onServerConnected) fun _ => ⟨rfl, Nat.le_refl _⟩
    · exact .refl .refl _
  | closed =>
    rw [step]
    split
    · exact hReport (f := KickChannel.onServerDisconnected) fun _ => ⟨rfl, Nat.le_refl _⟩
    · exact .refl .refl _
  | error => exact absurd rfl hError
  | pusherError code => exact absurd rfl (hPusherError code)
  | message chatroomId =>
    rw [step, onMessage]
    split
    · exact .refl .refl _
    split <;> exact .refl .refl _
  | resolved j info =>
    have hAnswered (state : KickConnectionState) (channel : KickChannel Slug) :
        KickChannel.NoRetry channel (channel.answered info state) := by
      constructor
      · exact KickChannel.reconnectAttempts_answered
      · rw [KickChannel.retryTimers_answered]
    obtain ⟨-, hSame⟩ | ⟨channel, -, -, ⟨-, hFailed⟩ | ⟨-, hConnected⟩⟩ := resolved_cases server j info
    · rw [step, hSame]
      exact .refl .refl _
    · rw [step, hFailed]
      exact .modify .refl (hAnswered Failed)
    · rw [step, hConnected]
      exact .modify .refl (hAnswered Connected)
  | retryTimeout j delay =>
    obtain ⟨-, hSame⟩ | ⟨channel, -, -, ⟨-, hMoved⟩ | ⟨-, hRetried⟩⟩ :=
      retryTimeout_cases lower server j delay
    · rw [step, hSame]
      exact .refl .refl _
    · rw [step, hMoved]
      exact .modify .refl fun _ => ⟨rfl, List.length_erase_le⟩
    · rw [step, hRetried]
      exact .modify .refl fun _ => ⟨rfl, List.length_erase_le⟩
  | reconnectTimeout j =>
    obtain ⟨-, hSame⟩ | ⟨channel, -, -, hConnect⟩ := reconnectTimeout_cases server j true
    · rw [step, hSame]
      exact .refl .refl _
    · have hFired : server.channels.Traces KickChannel.NoRetry (server.modify j fun channel =>
          { channel with reconnectTimers := channel.reconnectTimers - 1 }).channels :=
        .modify .refl fun _ => ⟨rfl, Nat.le_refl _⟩
      rw [step, hConnect]
      exact hFired.trans KickChannel.NoRetry.trans traces_connect

theorem channels_error (hWellFormed : WellFormed lower server)
    (hEvent : event = .error ∨ ∃ code, event = .pusherError code) (hLive : server.channels id = some channel) :
    (server.step lower true event).channels id =
      some (if id ∈ server.bySlug_.refs then channel.onServerError else channel) := by
  have hReport (socket : Option KickWebSocket) :
      (onError { server with socket_ := socket }).channels id =
        some (if id ∈ server.bySlug_.refs then channel.onServerError else channel) := by
    rw [onError, channels_report hWellFormed.nodup, hLive]
    split <;> rfl
  have hSome : server.socket_.isSome = true := Option.isSome_iff_ne_none.mpr (hWellFormed.opened id channel hLive)
  rcases hEvent with rfl | ⟨code, rfl⟩
  · rw [step, if_pos hSome]
    exact hReport _
  · rw [step, if_pos hSome, handlePusherError]
    split <;> exact hReport server.socket_

theorem attempts_error (hWellFormed : WellFormed lower server) {channel' : KickChannel Slug}
    (hEvent : event = .error ∨ ∃ code, event = .pusherError code)
    (hLive' : (server.step lower true event).channels id = some channel') :
    ∃ channel, server.channels id = some channel ∧
      (KickChannel.NoRetry channel channel' ∨
      channel.reconnectAttempts_ < KickChannel.MAX_RECONNECT_ATTEMPTS ∧
        channel'.reconnectAttempts_ = channel.reconnectAttempts_ + 1 ∧
        channel'.retryTimers.length = channel.retryTimers.length + 1) := by
  have hCreate (slug : Slug) : event ≠ .getOrCreate slug := by
    rintro rfl
    rcases hEvent with hEvent | ⟨code, hEvent⟩ <;> cases hEvent
  have hContinues : Continues server (server.step lower true event) := continues_step hCreate
  obtain ⟨channel, hLive, -⟩ := hContinues.live id channel' hLive'
  refine ⟨channel, hLive, ?_⟩
  obtain rfl := Option.some.inj ((channels_error hWellFormed hEvent hLive).symm.trans hLive')
  split
  · obtain ⟨-, hError⟩ | ⟨-, ⟨-, hError⟩ | ⟨hLess, hError⟩⟩ := KickChannel.onServerError_cases channel
    · rw [hError]
      exact .inl (.refl _)
    · rw [hError]
      exact .inl (.refl _)
    · rw [hError]
      exact .inr ⟨hLess, rfl, rfl⟩
  · exact .inl (.refl _)

theorem attempts_step (hWellFormed : WellFormed lower server) {channel' : KickChannel Slug}
    (hLive' : (server.step lower true event).channels id = some channel') :
    (id = server.nextChannel ∧ event.reconnects id = false ∧ channel'.reconnectAttempts_ = 0 ∧
      channel'.retryTimers = []) ∨
    ∃ channel, server.channels id = some channel ∧
      (event.reconnects id = true ∧ channel'.reconnectAttempts_ = 0 ∧
        channel'.retryTimers = channel.retryTimers ∨
      event.reconnects id = false ∧ (KickChannel.NoRetry channel channel' ∨
        channel.reconnectAttempts_ < KickChannel.MAX_RECONNECT_ATTEMPTS ∧
          channel'.reconnectAttempts_ = channel.reconnectAttempts_ + 1 ∧
          channel'.retryTimers.length = channel.retryTimers.length + 1)) := by
  cases event with
  | getOrCreate slug =>
    rcases hFound : server.findBySlug lower (lower slug) with _ | existing
    · rw [step, getOrCreate_of_new hFound] at hLive'
      rcases eq_or_ne id server.nextChannel with rfl | hNe
      · obtain rfl := Option.some.inj ((if_pos rfl).symm.trans hLive')
        exact .inl ⟨rfl, rfl, rfl, rfl⟩
      · exact .inr ⟨channel', (if_neg hNe).symm.trans hLive', .inr ⟨rfl, .inl (.refl _)⟩⟩
    · rw [step, getOrCreate_of_found hFound] at hLive'
      exact .inr ⟨channel', hLive', .inr ⟨rfl, .inl (.refl _)⟩⟩
  | reconnect j =>
    rcases hLive : server.channels j with _ | channel
    · rw [step, reconnect_of_gone hLive] at hLive'
      have hNe : j ≠ id := by
        rintro rfl
        cases hLive.symm.trans hLive'
      exact .inr ⟨channel', hLive', .inr ⟨decide_eq_false hNe, .inl (.refl _)⟩⟩
    · rw [step, reconnect_eq hLive] at hLive'
      change server.channels.modify j _ id = some channel' at hLive'
      rcases eq_or_ne id j with rfl | hNe
      · rw [Heap.modify_self, hLive] at hLive'
        obtain rfl := Option.some.inj hLive'
        exact .inr ⟨channel, hLive, .inl ⟨decide_eq_true rfl, rfl, rfl⟩⟩
      · rw [Heap.modify_of_ne hNe] at hLive'
        exact .inr ⟨channel', hLive', .inr ⟨decide_eq_false hNe.symm, .inl (.refl _)⟩⟩
  | error =>
    obtain ⟨channel, hLive, hAttempts⟩ := attempts_error hWellFormed (.inl rfl) hLive'
    exact .inr ⟨channel, hLive, .inr ⟨rfl, hAttempts⟩⟩
  | pusherError code =>
    obtain ⟨channel, hLive, hAttempts⟩ := attempts_error hWellFormed (.inr ⟨code, rfl⟩) hLive'
    exact .inr ⟨channel, hLive, .inr ⟨rfl, hAttempts⟩⟩
  | _ =>
    obtain ⟨channel, hLive, hKeep⟩ := traces_step hWellFormed (by rintro ⟨⟩) (by rintro _ ⟨⟩)
      (by rintro _ ⟨⟩) (by rintro _ ⟨⟩) id channel' hLive'
    exact .inr ⟨channel, hLive, .inr ⟨rfl, .inl hKeep⟩⟩

end KickChatServer

end Chatterino.Kick
