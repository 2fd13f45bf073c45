import Chatterino.Kick.KickInvariants

/-! # Channels in use and the registry

A channel enters the registry when it is created and never again. A channel that leaves and connects
anew is in use outside of it.
-/

namespace Chatterino.Kick

open Lib KickConnectionState

def KickChannel.InUse {Slug : Type} (channel : KickChannel Slug) : Prop :=
  channel.connectionState_ = Connecting ∨ channel.connectionState_ = Connected ∨
    channel.connectionState_ = Reconnecting

namespace KickChatServer

variable {Slug : Type} [DecidableEq Slug] {lower : Slug → Slug} {server server' : KickChatServer Slug}
  {id : ChannelId} {channel : KickChannel Slug} {f : KickChannel Slug → KickChannel Slug}

def Registered (server : KickChatServer Slug) (id : ChannelId) (channel : KickChannel Slug) : Prop :=
  server.bySlug_.lookup channel.channelSlug_ = some id

def AllRegistered (server : KickChatServer Slug) : Prop :=
  ∀ id channel, server.channels id = some channel → channel.InUse → server.Registered id channel

structure InRegistry (lower : Slug → Slug) (server : KickChatServer Slug) (id : ChannelId)
    (channel : KickChannel Slug) : Prop where
  entry : server.bySlug_.lookup channel.channelSlug_ = some id
  found : ∀ slug, lower slug = channel.channelSlug_ → server.findBySlug lower slug = some id
  reused : ∀ slug, lower slug = channel.channelSlug_ → server.getOrCreate lower true slug = (server, id)
  announced : server.socket_.any (·.socket_ = .Open) = true →
    (server.step lower true .established).channels id = some channel.resolveAndSubscribe

def KeepsEntries (server : KickChatServer Slug) : Event Slug → Prop
  | .connect id => ∀ channel, server.channels id = some channel → server.Registered id channel
  | .retryTimeout id delay => ∀ channel, server.channels id = some channel →
      delay ∈ channel.retryTimers → channel.connectionState_ ≠ Reconnecting
  | .reconnectTimeout id => ∀ channel, server.channels id = some channel →
      channel.reconnectTimers ≠ 0 → server.Registered id channel
  | .resolved id info => ∀ channel, server.channels id = some channel → channel.resolutions ≠ 0 →
      info.success = true → server.isConnected = true → server.Registered id channel
  | _ => True

omit [DecidableEq Slug] in
theorem not_inUse_disconnected : ¬(channel.setConnectionState Disconnected).InUse := by
  rintro (h | h | h) <;> cases h

theorem WellFormed.inRegistry (h : WellFormed lower server) (hLive : server.channels id = some channel)
    (hRegistered : server.Registered id channel) : InRegistry lower server id channel := by
  have hFound (slug : Slug) (hSlug : lower slug = channel.channelSlug_) :
      server.findBySlug lower slug = some id := by
    rw [findBySlug, hSlug, show server.bySlug_.lookup channel.channelSlug_ = some id from hRegistered]
    simp [expired, hLive]
  refine ⟨hRegistered, hFound, ?_, ?_⟩
  · intro slug hSlug
    apply getOrCreate_of_found
    rw [hSlug]
    exact hFound _ (h.lower_eq id channel hLive)
  · intro hOpen
    rw [KickChatServer.step, if_pos hOpen]
    refine (channels_report h.nodup).trans ?_
    rw [if_pos ((h.mem_refs_iff hLive).mpr hRegistered), hLive]
    rfl

theorem allRegistered_modify_iff (h : AllRegistered server) (hLive : server.channels id = some channel)
    (hSlug : (f channel).channelSlug_ = channel.channelSlug_) {socket : Option KickWebSocket}
    {rooms : Registry Int ChannelId} :
    AllRegistered
        { server with
          socket_ := socket
          byChatroom_ := rooms
          channels := server.channels.modify id f } ↔
      ((f channel).InUse → server.Registered id channel) := by
  have hSelf : server.channels.modify id f id = some (f channel) :=
    Heap.modify_self.trans (congrArg (Option.map f) hLive)
  constructor
  · intro hAll hUse
    have hEntry := hAll id _ hSelf hUse
    rwa [Registered, hSlug] at hEntry
  · intro hNew j other hOther hUse
    change server.channels.modify id f j = some other at hOther
    rcases eq_or_ne j id with rfl | hNe
    · obtain rfl := Option.some.inj (hSelf.symm.trans hOther)
      rw [Registered, hSlug]
      exact hNew hUse
    · rw [Heap.modify_of_ne hNe] at hOther
      exact h j other hOther hUse

theorem AllRegistered.modify (h : AllRegistered server)
    (hSlug : ∀ channel, (f channel).channelSlug_ = channel.channelSlug_)
    (hUse : ∀ channel, (f channel).InUse → channel.InUse) : AllRegistered (server.modify id f) := by
  rcases hLive : server.channels id with _ | channel
  · have hSame : server.channels.modify id f = server.channels := by
      funext j
      rcases eq_or_ne j id with rfl | hNe
      · rw [Heap.modify_self, hLive]
        rfl
      · exact Heap.modify_of_ne hNe
    intro j other hOther
    exact h j other (hSame ▸ hOther)
  · exact (allRegistered_modify_iff h hLive (hSlug channel)).mpr
      fun hNew => h id channel hLive (hUse channel hNew)

theorem AllRegistered.report (hWellFormed : WellFormed lower server) (h : AllRegistered server)
    (hSlug : ∀ channel, (f channel).channelSlug_ = channel.channelSlug_) (socket : Option KickWebSocket) :
    AllRegistered (pruneExpired { server with socket_ := socket } |>.forEachChannel f) := by
  intro i channel' hChannel' hUse
  rw [channels_report hWellFormed.nodup] at hChannel'
  by_cases hMem : i ∈ server.bySlug_.refs
  · rw [if_pos hMem] at hChannel'
    obtain ⟨channel, hLive, rfl⟩ := Option.map_eq_some_iff.mp hChannel'
    rw [Registered, hSlug]
    refine Registry.lookup_filter_eq_some.mpr ⟨(hWellFormed.mem_refs_iff hLive).mp hMem, ?_⟩
    have hExpired : server.expired i = false := by simp [expired, hLive]
    exact congrArg not hExpired
  · rw [if_neg hMem] at hChannel'
    exact absurd ((hWellFormed.mem_refs_iff hChannel').mpr (h i channel' hChannel' hUse)) hMem

theorem AllRegistered.disconnect (h : AllRegistered server) : AllRegistered (server.disconnect lower id) := by
  rcases hLive : server.channels id with _ | channel
  · rw [disconnect_of_gone hLive]
    exact h
  rw [disconnect_eq hLive]
  intro j other hOther hUse
  change (server.leave lower id channel).channels.modify id _ j = some other at hOther
  rw [channels_leave] at hOther
  rcases eq_or_ne j id with rfl | hNe
  · rw [Heap.modify_self, hLive] at hOther
    obtain rfl := Option.some.inj hOther
    exact absurd hUse not_inUse_disconnected
  · rw [Heap.modify_of_ne hNe] at hOther
    exact lookup_bySlug_leave.mpr ⟨h j other hOther hUse, fun hLeft => hNe hLeft.2.1⟩

theorem AllRegistered.destroy (h : AllRegistered server) : AllRegistered (server.destroy lower id) := by
  rcases hLive : server.channels id with _ | channel
  · rw [destroy_of_gone hLive]
    exact h
  have hLeft : AllRegistered { server with
      channels := fun i => if i = id then none else server.channels i } := by
    intro j other hOther hUse
    rcases eq_or_ne j id with rfl | hNe
    · cases (if_pos rfl).symm.trans hOther
    · exact h j other ((if_neg hNe).symm.trans hOther) hUse
  rw [destroy_eq hLive, disconnectIfIdle]
  split <;> exact hLeft

theorem AllRegistered.getOrCreate (hWellFormed : WellFormed lower server) (h : AllRegistered server)
    {slug : Slug} (hNew : server.findBySlug lower (lower slug) = none)
    (hLower : ∀ slug, lower (lower slug) = lower slug) :
    AllRegistered (server.getOrCreate lower true slug).1 := by
  rw [getOrCreate_of_new hNew]
  intro j other hOther hUse
  rcases eq_or_ne j server.nextChannel with rfl | hNe
  · obtain rfl := Option.some.inj ((if_pos rfl).symm.trans hOther)
    exact Registry.lookup_insert_eq_some.mpr (.inl ⟨rfl, rfl⟩)
  · have hLive : server.channels j = some other := (if_neg hNe).symm.trans hOther
    have hEntry := h j other hLive hUse
    refine Registry.lookup_insert_eq_some.mpr (.inr ⟨?_, hEntry⟩)
    -- a live entry of the slug would have been found
    intro hSlug
    have hFound := (hWellFormed.inRegistry hLive hEntry).found (lower slug) ((hLower slug).trans hSlug.symm)
    cases hNew.symm.trans hFound

theorem allRegistered_connect_iff (h : AllRegistered server) : AllRegistered (server.connect true id) ↔
    ∀ channel, server.channels id = some channel → server.Registered id channel := by
  obtain ⟨hBusy, hSame⟩ | ⟨channel, hLive, -, hConnect⟩ := connect_cases server id
  · rw [hSame]
    refine iff_of_true h fun channel hLive => h id channel hLive ?_
    exact (hBusy channel hLive).elim (.inr ∘ .inl) .inl
  · rw [hConnect]
    refine (allRegistered_modify_iff h hLive ?_).trans ?_
    · rfl
    constructor
    · intro hNew other hOther
      obtain rfl := Option.some.inj (hLive.symm.trans hOther)
      exact hNew (.inl rfl)
    · exact fun hAll _ => hAll channel hLive

theorem allRegistered_resolved_iff (h : AllRegistered server) {info : ChannelInfo} :
    AllRegistered (server.resolved id info) ↔ KeepsEntries server (.resolved id info) := by
  obtain ⟨hIdle, hSame⟩ | ⟨channel, hLive, hPending, ⟨hUp, hFailed⟩ | ⟨hUp, hConnected⟩⟩ :=
    resolved_cases server id info
  · rw [hSame]
    exact iff_of_true h fun channel hLive hPending => absurd (hIdle channel hLive) hPending
  · rw [hFailed]
    refine (allRegistered_modify_iff h hLive KickChannel.channelSlug_answered).trans ?_
    refine iff_of_true ?_ fun _ _ _ hSuccess hConnected => absurd ⟨hSuccess, hConnected⟩ hUp
    rintro (hUse | hUse | hUse) <;> cases hUse
  · rw [hConnected]
    refine (allRegistered_modify_iff h hLive KickChannel.channelSlug_answered).trans ?_
    simp [KeepsEntries, hLive, hPending, hUp, KickChannel.InUse]

theorem allRegistered_reconnectTimeout_iff (h : AllRegistered server) :
    AllRegistered (server.reconnectTimeout true id) ↔ KeepsEntries server (.reconnectTimeout id) := by
  obtain ⟨hIdle, hSame⟩ | ⟨channel, hLive, hPending, hConnect⟩ := reconnectTimeout_cases server id true
  · rw [hSame]
    exact iff_of_true h fun channel hLive hPending => absurd (hIdle channel hLive) hPending
  · rw [hConnect]
    have hModified : AllRegistered (server.modify id fun channel =>
        { channel with reconnectTimers := channel.reconnectTimers - 1 }) :=
      h.modify (fun _ => rfl) fun _ hUse => hUse
    rw [allRegistered_connect_iff hModified]
    simp [KeepsEntries, KickChatServer.modify, hLive, hPending, Registered]

theorem allRegistered_retryTimeout_iff (hWellFormed : WellFormed lower server) (h : AllRegistered server)
    {delay : Nat} :
    AllRegistered (server.retryTimeout lower true id delay) ↔
      KeepsEntries server (.retryTimeout id delay) := by
  obtain ⟨hGone, hSame⟩ | ⟨channel, hLive, hPending, ⟨hState, hMoved⟩ | ⟨hState, hRetried⟩⟩ :=
    retryTimeout_cases lower server id delay
  · rw [hSame]
    exact iff_of_true h fun channel hLive hPending => absurd hPending (hGone channel hLive)
  · rw [hMoved]
    refine iff_of_true (h.modify (fun _ => rfl) fun _ hUse => hUse) ?_
    intro other hOther _
    rwa [← Option.some.inj (hLive.symm.trans hOther)]
  · rw [hRetried]
    refine iff_of_false ?_ fun hKeeps => hKeeps channel hLive hPending hState
    intro hAll
    have hEntry := hAll id (channel.retried delay _)
      (Heap.modify_self.trans (congrArg (Option.map _) hLive)) (.inl rfl)
    refine (lookup_bySlug_leave.mp hEntry).2 ⟨(hWellFormed.lower_eq id channel hLive).symm, rfl, ?_⟩
    exact Option.ne_none_iff_exists'.mpr ⟨channel, hLive⟩

theorem allRegistered_step_iff (hLower : ∀ slug, lower (lower slug) = lower slug)
    (hWellFormed : WellFormed lower server) (h : AllRegistered server) (event : Event Slug) :
    AllRegistered (server.step lower true event) ↔ KeepsEntries server event := by
  cases event with
  | getOrCreate slug =>
    refine iff_of_true ?_ trivial
    rcases hFound : server.findBySlug lower (lower slug) with _ | existing
    · exact h.getOrCreate hWellFormed hFound hLower
    · rw [step, getOrCreate_of_found hFound]
      exact h
  | connect id => exact allRegistered_connect_iff h
  | disconnect id => exact iff_of_true h.disconnect trivial
  | reconnect id => exact iff_of_true (h.disconnect.modify (fun _ => rfl) fun _ hUse => hUse) trivial
  | destroy id => exact iff_of_true h.destroy trivial
  | setApi id => exact iff_of_true (h.modify (fun _ => rfl) fun _ hUse => hUse) trivial
  | established =>
    refine iff_of_true ?_ trivial
    rw [step]
    split
    · exact h.report hWellFormed (f := KickChannel.onServerConnected) (fun _ => rfl) _
    · exact h
  | closed =>
    refine iff_of_true ?_ trivial
    rw [step]
    split
    · exact h.report hWellFormed (f := KickChannel.onServerDisconnected) (fun _ => rfl) _
    · exact h
  | error =>
    refine iff_of_true ?_ trivial
    rw [step]
    split
    · exact h.report hWellFormed (fun _ => KickChannel.channelSlug_onServerError) _
    · exact h
  | pusherError code =>
    refine iff_of_true ?_ trivial
    have hError : AllRegistered server.onError :=
      h.report hWellFormed (fun _ => KickChannel.channelSlug_onServerError) server.socket_
    rw [step]
    split
    · rw [handlePusherError]
      split <;> exact hError
    · exact h
  | message chatroomId =>
    refine iff_of_true ?_ trivial
    rw [step, onMessage]
    split
    · exact h
    split
    · exact h
    · exact h
  | resolved id info => exact allRegistered_resolved_iff h
  | retryTimeout id delay => exact allRegistered_retryTimeout_iff hWellFormed h
  | reconnectTimeout id => exact allRegistered_reconnectTimeout_iff h

/-- The channels in use stay in the registry exactly as long as no step takes an unregistered channel
into use, as every retry does. -/
theorem inRegistry_iff (hLower : ∀ slug, lower (lower slug) = lower slug) (events : List (Event Slug)) :
    (∀ reached, reached <+: events → ∀ id channel, (run lower reached).channels id = some channel →
      channel.InUse → InRegistry lower (run lower reached) id channel) ↔
    AllSteps (step lower true) KeepsEntries ({} : KickChatServer Slug) events := by
  have hSide : AllSteps (step lower true) (fun _ _ => True) ({} : KickChatServer Slug) events :=
    .of_forall_mem fun _ _ _ => trivial
  have hRun := hSide.forall_reached_iff (fun server => WellFormed lower server ∧ AllRegistered server)
    ⟨.empty, fun _ _ h => by cases h⟩
    (fun server event h _ => (and_iff_right (h.1.step hLower event)).trans
      (allRegistered_step_iff hLower h.1 h.2 event))
  rw [← hRun]
  constructor
  · intro hAll reached hReached
    refine ⟨wellFormed_run hLower reached, ?_⟩
    exact fun id channel hLive hUse => (hAll reached hReached id channel hLive hUse).entry
  · intro hAll reached hReached id channel hLive hUse
    obtain ⟨hWellFormed, hRegistered⟩ := hAll reached hReached
    exact hWellFormed.inRegistry hLive (hRegistered id channel hLive hUse)

theorem inRegistry_of_subscribed :
    AllSteps (step (fun slug : Nat => slug) true) KeepsEntries {}
      [.getOrCreate 0, .established, .resolved 0 ⟨7, 8⟩, .closed] ∧
    ∀ reached, reached <+: [.getOrCreate 0, .established, .resolved 0 ⟨7, 8⟩, .closed] → ∀ i channel,
      (run (fun slug : Nat => slug) reached).channels i = some channel → channel.InUse →
        InRegistry (fun slug => slug) (run (fun slug => slug) reached) i channel := by
  have hKeeps : AllSteps (step (fun slug : Nat => slug) true) KeepsEntries {}
      [.getOrCreate 0, .established, .resolved 0 ⟨7, 8⟩, .closed] := by
    refine ⟨trivial, trivial, ?_, trivial, trivial⟩
    intro channel hLive _ _ _
    obtain rfl := Option.some.inj hLive
    rfl
  exact ⟨hKeeps, (inRegistry_iff (fun _ => rfl) _).mpr hKeeps⟩

/-- The first retry takes the channel out of the registry. -/
theorem not_inRegistry_of_retry : ¬∀ (lower : Nat → Nat), (∀ slug, lower (lower slug) = lower slug) →
    ∀ events i channel, (run lower events).channels i = some channel → channel.InUse →
      InRegistry lower (run lower events) i channel := by
  intro hAll
  have hEntry := (hAll (fun slug => slug) (fun _ => rfl)
    [.getOrCreate 0, .error, .retryTimeout 0 1000] 0 _ rfl (.inl rfl)).entry
  cases hEntry

end KickChatServer

end Chatterino.Kick
