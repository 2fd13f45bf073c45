import Chatterino.Kick.KickRegistration
import Chatterino.Kick.KickErrors

/-! # Retries of a lost socket

An error makes every registered channel wait for a retry or give up. The report that the socket is
closed overwrites this, and so does an answer that comes while the socket is down.
-/

namespace Chatterino.Kick

open Lib KickConnectionState

namespace KickChatServer

variable {Slug : Type} {server : KickChatServer Slug} {id : ChannelId} {channel : KickChannel Slug}
  {f : KickChannel Slug → KickChannel Slug}

variable [DecidableEq Slug] {lower : Slug → Slug}

def AllRetry (server : KickChatServer Slug) : Prop :=
  Down server → ∀ i channel, server.channels i = some channel → server.Registered i channel →
    channel.WillRetry

def Stays : Event Slug → Prop
  | .disconnect _ => False
  | .destroy _ => False
  | _ => True

def KeepsRetries (server : KickChatServer Slug) : Event Slug → Prop
  | .closed => ∀ i channel, server.channels i = some channel → ¬server.Registered i channel
  | .resolved id _ => ∀ channel, server.channels id = some channel → channel.resolutions ≠ 0 →
      Down server → server.Registered id channel →
        KickChannel.MAX_RECONNECT_ATTEMPTS ≤ channel.reconnectAttempts_
  | .reconnect id => ∀ channel, server.channels id = some channel →
      (server.leaveChatroom id channel).byChatroom_ = ∅ →
        ∀ i other, i ≠ id → server.channels i = some other → server.Registered i other → other.WillRetry
  | _ => True

theorem AllRetry.modify (h : AllRetry server)
    (hSlug : ∀ channel, (f channel).channelSlug_ = channel.channelSlug_)
    (hRetry : ∀ channel, server.channels id = some channel → channel.WillRetry → (f channel).WillRetry) :
    AllRetry (server.modify id f) := by
  intro hDown i channel' hChannel' hRegistered
  change server.channels.modify id f i = some channel' at hChannel'
  rcases eq_or_ne i id with rfl | hNe
  · obtain ⟨channel, hLive, rfl⟩ := Option.map_eq_some_iff.mp (Heap.modify_self.symm.trans hChannel')
    rw [Registered, hSlug] at hRegistered
    exact hRetry channel hLive (h hDown i channel hLive hRegistered)
  · exact h hDown i channel' ((Heap.modify_of_ne hNe).symm.trans hChannel') hRegistered

theorem AllRetry.connect (h : AllRetry server) : AllRetry (server.connect true id) := by
  obtain ⟨-, hSame⟩ | ⟨channel, -, -, hConnect⟩ := connect_cases server id
  · rw [hSame]
    exact h
  · rw [hConnect]
    exact fun hDown => absurd hDown (not_down_of_connect rfl)

theorem AllTimed.allRetry_onError (hWellFormed : WellFormed lower server) (h : AllTimed server)
    (socket : Option KickWebSocket) {socket' : Option KickWebSocket} :
    AllRetry { onError { server with socket_ := socket } with socket_ := socket' } := by
  intro _ i channel' hChannel' hRegistered
  change (onError { server with socket_ := socket }).channels i = some channel' at hChannel'
  rw [onError, channels_report hWellFormed.nodup] at hChannel'
  have hMem : i ∈ server.bySlug_.refs := 
    Registry.mem_refs.mpr ⟨_, (Registry.lookup_filter_eq_some.mp hRegistered).1⟩
  rw [if_pos hMem] at hChannel'
  obtain ⟨channel, hLive, rfl⟩ := Option.map_eq_some_iff.mp hChannel'
  exact KickChannel.willRetry_onServerError (h i channel hLive)

theorem allRetry_closed_iff (hWellFormed : WellFormed lower server) :
    AllRetry (server.step lower true .closed) ↔ KeepsRetries server .closed := by
  rw [step]
  split
  · rename_i hSome
    constructor
    · intro hAll i channel hLive hRegistered
      have hDown : Down ((server.onSocket KickWebSocket.onDisconnected).onConnectionStateChanged false) := by
        intro socket hSocket
        obtain ⟨old, -, rfl⟩ := Option.map_eq_some_iff.mp hSocket
        rintro (hConnected | hOpen)
        · cases hConnected
        · cases hOpen
      have hClosed : ((server.onSocket KickWebSocket.onDisconnected).onConnectionStateChanged false).channels i =
          some (channel.setConnectionState Disconnected) := by
        refine (channels_report hWellFormed.nodup).trans ?_
        rw [if_pos ((hWellFormed.mem_refs_iff hLive).mpr hRegistered), hLive]
        rfl
      have hKept : Registered ((server.onSocket KickWebSocket.onDisconnected).onConnectionStateChanged false) i
          (channel.setConnectionState Disconnected) := by
        refine Registry.lookup_filter_eq_some.mpr ⟨hRegistered, ?_⟩
        have hExpired : server.expired i = false := by simp [expired, hLive]
        exact congrArg not hExpired
      rcases hAll hDown i _ hClosed hKept with hWaiting | hFailed
      · cases hWaiting.1
      · cases hFailed.1
    · intro hNone _ i channel' hChannel' hRegistered
      have hMem : i ∈ server.bySlug_.refs :=
        Registry.mem_refs.mpr ⟨_, (Registry.lookup_filter_eq_some.mp hRegistered).1⟩
      have hReport := (channels_report hWellFormed.nodup).symm.trans hChannel'
      rw [if_pos hMem] at hReport
      obtain ⟨channel, hLive, -⟩ := Option.map_eq_some_iff.mp hReport
      exact absurd ((hWellFormed.mem_refs_iff hLive).mp hMem) (hNone i channel hLive)
  · rename_i hSome
    have hGone (i : ChannelId) (channel : KickChannel Slug) : server.channels i ≠ some channel := by
      intro hLive
      exact hSome (Option.isSome_iff_ne_none.mpr (hWellFormed.opened i channel hLive))
    exact iff_of_true (fun _ i channel hLive => absurd hLive (hGone i channel))
      fun i channel hLive => absurd hLive (hGone i channel)

theorem allRetry_resolved_iff (h : AllRetry server) {info : ChannelInfo} :
    AllRetry (server.resolved id info) ↔ KeepsRetries server (.resolved id info) := by
  obtain ⟨hIdle, hSame⟩ | ⟨channel, hLive, hPending, ⟨hUp, hFailed⟩ | ⟨hUp, hConnected⟩⟩ :=
    resolved_cases server id info
  · rw [hSame]
    exact iff_of_true h fun channel hLive hPending => absurd (hIdle channel hLive) hPending
  · rw [hFailed]
    constructor
    · intro hAll other hOther _ hDown hRegistered
      obtain rfl := Option.some.inj (hLive.symm.trans hOther)
      have hAnswered : server.channels.modify id (·.answered info Failed) id =
          some (channel.answered info Failed) := Heap.modify_self.trans (congrArg (Option.map _) hLive)
      have hKept : Registered (server.modify id (·.answered info Failed)) id (channel.answered info Failed) := by
        rw [Registered, KickChannel.channelSlug_answered]
        exact hRegistered
      rcases hAll hDown id _ hAnswered hKept with hWaiting | hGaveUp
      · cases hWaiting.1
      · have hUsed := hGaveUp.2
        rwa [KickChannel.reconnectAttempts_answered] at hUsed
    · intro hKeeps hDown i channel' hChannel' hRegistered
      change server.channels.modify id _ i = some channel' at hChannel'
      rcases eq_or_ne i id with rfl | hNe
      · rw [Heap.modify_self, hLive] at hChannel'
        obtain rfl := Option.some.inj hChannel'
        rw [Registered, KickChannel.channelSlug_answered] at hRegistered
        refine .inr ⟨rfl, ?_⟩
        rw [KickChannel.reconnectAttempts_answered]
        exact hKeeps channel hLive hPending hDown hRegistered
      · exact h hDown i channel' ((Heap.modify_of_ne hNe).symm.trans hChannel') hRegistered
  · rw [hConnected]
    have hNotDown : ¬Down server := fun hDown => Bool.false_ne_true (hDown.isConnected.symm.trans hUp.2)
    refine iff_of_true ?_ fun _ _ _ hDown => absurd hDown hNotDown
    intro hDown
    exact absurd ((down_onSocket_iff fun _ => KickWebSocket.up_subscribe).mp hDown) hNotDown

theorem allRetry_reconnect_iff (hWellFormed : WellFormed lower server) (h : AllRetry server) :
    AllRetry (server.reconnect lower id) ↔ KeepsRetries server (.reconnect id) := by
  rcases hLive : server.channels id with _ | channel
  · rw [reconnect_of_gone hLive]
    refine iff_of_true h fun channel hChannel => ?_
    cases hLive.symm.trans hChannel
  have hSlug := hWellFormed.lower_eq id channel hLive
  have hSelf : server.channels id ≠ none := by
    rw [hLive]
    exact Option.some_ne_none _
  rw [reconnect_eq hLive]
  constructor
  · intro hAll channel' hChannel' hEmpty i other hNe hOther hRegistered
    obtain rfl := Option.some.inj (hLive.symm.trans hChannel')
    refine hAll (down_leave_iff.mpr (.inl hEmpty)) i other ((Heap.modify_of_ne hNe).trans hOther) ?_
    exact lookup_bySlug_leave.mpr ⟨hRegistered, fun hLeft => hNe hLeft.2.1⟩
  · intro hKeeps hDown i other hOther hRegistered
    obtain ⟨hEntry, hStays⟩ := lookup_bySlug_leave.mp hRegistered
    change server.channels.modify id _ i = some other at hOther
    rcases eq_or_ne i id with rfl | hNe
    · rw [Heap.modify_self, hLive] at hOther
      obtain rfl := Option.some.inj hOther
      exact absurd ⟨hSlug.symm, rfl, hSelf⟩ hStays
    · rw [Heap.modify_of_ne hNe] at hOther
      rcases down_leave_iff.mp hDown with hEmpty | hWasDown
      · exact hKeeps channel hLive hEmpty i other hNe hOther hEntry
      · exact h hWasDown i other hOther hEntry

theorem AllRetry.retryTimeout (h : AllRetry server) {delay : Nat} :
    AllRetry (server.retryTimeout lower true id delay) := by
  obtain ⟨-, hSame⟩ | ⟨channel, hLive, -, ⟨hState, hMoved⟩ | ⟨-, hRetried⟩⟩ :=
    retryTimeout_cases lower server id delay
  · rw [hSame]
    exact h
  · rw [hMoved]
    refine h.modify (fun _ => rfl) fun other hOther hRetry => ?_
    obtain rfl := Option.some.inj (hLive.symm.trans hOther)
    rcases hRetry with hWaiting | hFailed
    · exact absurd hWaiting.1 hState
    · exact .inr hFailed
  · rw [hRetried]
    exact fun hDown => absurd hDown (not_down_of_connect rfl)

theorem allRetry_step_iff (hWellFormed : WellFormed lower server) (hTimed : AllTimed server)
    (h : AllRetry server) {event : Event Slug} (hStays : Stays event) :
    AllRetry (server.step lower true event) ↔ KeepsRetries server event := by
  cases event with
  | getOrCreate slug =>
    refine iff_of_true ?_ trivial
    rcases hFound : server.findBySlug lower (lower slug) with _ | existing
    · rw [step, getOrCreate_of_new hFound]
      exact fun hDown => absurd hDown (not_down_of_connect rfl)
    · rw [step, getOrCreate_of_found hFound]
      exact h
  | connect id => exact iff_of_true h.connect trivial
  | disconnect id => exact hStays.elim
  | reconnect id => exact allRetry_reconnect_iff hWellFormed h
  | destroy id => exact hStays.elim
  | setApi id => exact iff_of_true (h.modify (fun _ => rfl) fun _ _ hRetry => hRetry) trivial
  | established =>
    refine iff_of_true ?_ trivial
    rw [step]
    split
    · rename_i hOpen
      intro hDown
      rcases hSocket : server.socket_ with _ | socket
      · rw [hSocket] at hOpen
        cases hOpen
      · exact absurd (.inl rfl) (hDown _ (congrArg (Option.map _) hSocket))
    · exact h
  | closed => exact allRetry_closed_iff hWellFormed
  | error =>
    refine iff_of_true ?_ trivial
    rw [step]
    split
    · exact hTimed.allRetry_onError hWellFormed _
    · exact h
  | pusherError code =>
    refine iff_of_true ?_ trivial
    rw [step]
    split
    · rw [handlePusherError]
      split <;> exact hTimed.allRetry_onError hWellFormed server.socket_
    · exact h
  | message chatroomId =>
    refine iff_of_true ?_ trivial
    rw [step, onMessage]
    split
    · exact h
    split
    · intro hDown
      exact h ((down_onSocket_iff fun _ => KickWebSocket.up_unsubscribe).mp hDown)
    · exact h
  | resolved id info => exact allRetry_resolved_iff h
  | retryTimeout id delay => exact iff_of_true h.retryTimeout trivial
  | reconnectTimeout id =>
    refine iff_of_true ?_ trivial
    obtain ⟨-, hSame⟩ | ⟨channel, -, -, hConnect⟩ := reconnectTimeout_cases server id true
    · rw [step, hSame]
      exact h
    · rw [step, hConnect]
      exact AllRetry.connect (h.modify (fun _ => rfl) fun _ _ hRetry => hRetry)

/-- Without a call to disconnect, a lost socket is retried exactly as long as no step overwrites a retry. -/
theorem allRetry_iff (hLower : ∀ slug, lower (lower slug) = lower slug) (events : List (Event Slug))
    (hStays : ∀ event ∈ events, Stays event) :
    (∀ reached, reached <+: events → AllRetry (run lower reached)) ↔
      AllSteps (step lower true) KeepsRetries ({} : KickChatServer Slug) events := by
  have hSide : AllSteps (step lower true) (fun _ event => Stays event) {} events :=
    .of_forall_mem fun event hEvent _ => hStays event hEvent
  have hRun := hSide.forall_reached_iff
    (fun server => (WellFormed lower server ∧ AllTimed server) ∧ AllRetry server)
    ⟨⟨.empty, fun _ _ h => by cases h⟩, fun _ _ _ h => by cases h⟩
    (fun server event h hEvent => (and_iff_right ⟨h.1.1.step hLower event, h.1.2.step event⟩).trans
      (allRetry_step_iff h.1.1 h.1.2 h.2 hEvent))
  rw [← hRun]
  constructor
  · intro hAll reached hReached
    refine ⟨⟨wellFormed_run hLower reached, ?_⟩, hAll reached hReached⟩
    exact foldl_invariant reached (fun _ _ h => by cases h) fun _ event h => h.step event
  · exact fun hAll reached hReached => (hAll reached hReached).2

theorem allRetry_of_error :
    AllSteps (step (fun slug : Nat => slug) true) KeepsRetries {} [.getOrCreate 0, .error] ∧
    ∀ reached, reached <+: [.getOrCreate 0, .error] → AllRetry (run (fun slug : Nat => slug) reached) := by
  have hKeeps : AllSteps (step (fun slug : Nat => slug) true) KeepsRetries {} [.getOrCreate 0, .error] :=
    ⟨trivial, trivial, trivial⟩
  refine ⟨hKeeps, (allRetry_iff (fun _ => rfl) _ ?_).mpr hKeeps⟩
  intro event hEvent
  rcases List.mem_pair.mp hEvent with rfl | rfl <;> trivial

/-- A connection that is lost leaves its channel without a retry. -/
theorem not_allRetry_of_closed : ¬∀ (lower : Nat → Nat), (∀ slug, lower (lower slug) = lower slug) →
    ∀ events, (∀ event ∈ events, Stays event) → AllRetry (run lower events) := by
  intro hAll
  have hRetry : AllRetry (run (fun slug : Nat => slug)
      [.getOrCreate 0, .established, .resolved 0 ⟨7, 8⟩, .closed]) := by
    refine hAll (fun slug => slug) (fun _ => rfl) _ ?_
    intro event hEvent
    simp only [List.mem_cons, List.not_mem_nil, or_false] at hEvent
    rcases hEvent with rfl | rfl | rfl | rfl <;> trivial
  have hDown : Down (run (fun slug : Nat => slug)
      [.getOrCreate 0, .established, .resolved 0 ⟨7, 8⟩, .closed]) := by
    intro socket hSocket
    obtain rfl := Option.some.inj hSocket
    rintro (hConnected | hOpen)
    · cases hConnected
    · cases hOpen
  rcases hRetry hDown 0 _ rfl rfl with hWaiting | hFailed
  · cases hWaiting.1
  · cases hFailed.1

end KickChatServer

end Chatterino.Kick
