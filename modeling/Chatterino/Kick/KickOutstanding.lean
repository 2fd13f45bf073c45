import Chatterino.Kick.KickSubscriptions

/-! # What is outstanding when a channel disconnects

Neither requests nor the timer of a reconnect are cancelled. With one of them outstanding, another
channel that opens the socket is enough to connect the disconnected one.
-/

namespace Chatterino.Kick

open Lib KickConnectionState

namespace KickChatServer

variable {Slug : Type} [DecidableEq Slug] {lower : Slug → Slug} {server : KickChatServer Slug}
  {id : ChannelId} {channel : KickChannel Slug}

theorem outside_disconnect (h : WellFormed lower server) (hLive : server.channels id = some channel) :
    Outside (server.disconnect lower id) id := by
  have hContinues : Continues server (server.disconnect lower id) := .disconnect
  refine ⟨hContinues.nextChannel.symm ▸ h.live_lt id channel hLive, fun hMem => ?_⟩
  obtain ⟨k, hLookup⟩ := Registry.mem_refs.mp hMem
  rw [disconnect_eq hLive] at hLookup
  obtain ⟨hEntry, hStays⟩ := lookup_bySlug_leave.mp hLookup
  refine hStays ⟨?_, rfl, Option.ne_none_iff_exists'.mpr ⟨channel, hLive⟩⟩
  rw [h.lower_eq id channel hLive]
  exact (h.slug_eq k id channel hEntry hLive).symm

theorem channels_disconnect (hLive : server.channels id = some channel) :
    (server.disconnect lower id).channels id = some (channel.setConnectionState Disconnected) := by
  rw [disconnect_eq hLive]
  change (server.leave lower id channel).channels.modify id _ id = _
  rw [channels_leave, Heap.modify_self, hLive]
  rfl

structure StillDormant (lower : Slug → Slug) (first : KickChatServer Slug) (id : ChannelId)
    (server : KickChatServer Slug) : Prop where
  wellFormed : WellFormed lower server
  outside : Outside server id
  dormant : IsDormant server id
  kept : ∀ r, server.byChatroom_.lookup r = some id → first.byChatroom_.lookup r = some id ∧
    (Subscribed server r → Subscribed first r)

theorem StillDormant.step {first : KickChatServer Slug} {event : Event Slug}
    (hLower : ∀ slug, lower (lower slug) = lower slug) (h : StillDormant lower first id server)
    (hUntouched : Untouched id event) : StillDormant lower first id (server.step lower true event) where
  wellFormed := h.wellFormed.step hLower event
  outside := h.outside.step event
  dormant := h.dormant.step h.wellFormed h.outside hUntouched
  kept r hEntry := by
    obtain ⟨hOld, hSubscribed⟩ := h.dormant.gains_nothing event r hEntry
    obtain ⟨hFirst, hSubscribedFirst⟩ := h.kept r hOld
    exact ⟨hFirst, fun hNow => hSubscribedFirst (hSubscribed hNow)⟩

theorem staysDisconnected_of_dormant (hLower : ∀ slug, lower (lower slug) = lower slug)
    (hWellFormed : WellFormed lower server) (hOutside : Outside server id) (hDormant : IsDormant server id)
    {after : List (Event Slug)} (hUntouched : ∀ event ∈ after, Untouched id event) :
    StaysDisconnected server (after.foldl (step lower true) server) id := by
  have hSteps : AllSteps (step lower true) (fun _ event => Untouched id event) server after :=
    .of_forall_mem fun event hEvent _ => hUntouched event hEvent
  have hStill : StillDormant lower server id (after.foldl (step lower true) server) :=
    hSteps.invariant ⟨hWellFormed, hOutside, hDormant, fun _ h => ⟨h, fun hSubscribed => hSubscribed⟩⟩
      fun _ _ h hEvent => h.step hLower hEvent
  refine ⟨?_, fun r hEntry => (hStill.kept r hEntry).1, fun r hEntry => (hStill.kept r hEntry).2⟩
  intro channel hLive hConnected
  cases (hStill.dormant channel hLive).state.symm.trans hConnected

theorem getOrCreate_ne (hOutside : Outside server id) (slug : Slug) :
    (server.getOrCreate lower true slug).2 ≠ id := by
  rcases hFound : server.findBySlug lower (lower slug) with _ | existing
  · rw [getOrCreate_of_new hFound]
    exact Nat.ne_of_gt hOutside.1
  · rw [getOrCreate_of_found hFound]
    rintro rfl
    exact hOutside.2 (Registry.mem_refs.mpr ⟨_, (Option.filter_eq_some_iff.mp hFound).1⟩)

theorem getOrCreate_live (slug : Slug) : ∃ channel,
    (server.getOrCreate lower true slug).1.channels (server.getOrCreate lower true slug).2 = some channel := by
  rcases hFound : server.findBySlug lower (lower slug) with _ | existing
  · rw [getOrCreate_of_new hFound]
    exact ⟨_, if_pos rfl⟩
  · rw [getOrCreate_of_found hFound]
    have hLocked := (Option.filter_eq_some_iff.mp hFound).2
    have hLive : (server.channels existing).isSome = true := by simpa [expired] using hLocked
    exact Option.isSome_iff_exists.mp hLive

theorem exists_connected (hLower : ∀ slug, lower (lower slug) = lower slug) (h : WellFormed lower server)
    (hOutside : Outside server id) (slug : Slug) :
    ∃ events : List (Event Slug), (∀ event ∈ events, Untouched id event) ∧
      (events.foldl (step lower true) server).isConnected = true ∧
      (events.foldl (step lower true) server).channels id = server.channels id := by
  have hNe : (server.getOrCreate lower true slug).2 ≠ id := getOrCreate_ne hOutside slug
  obtain ⟨other, hOther⟩ : ∃ other, (server.getOrCreate lower true slug).1.channels
      (server.getOrCreate lower true slug).2 = some other := getOrCreate_live slug
  generalize hj : (server.getOrCreate lower true slug).2 = j at hNe hOther
  -- the other channel is there, leaves, and connects anew
  let created := server.step lower true (.getOrCreate slug)
  let left := created.step lower true (.disconnect j)
  let opened := left.step lower true (.connect j)
  have hCreated := h.step hLower (.getOrCreate slug)
  have hLeft := hCreated.step hLower (.disconnect j)
  have hOpened := hLeft.step hLower (.connect j)
  have hOutCreated : Outside created id := hOutside.step _
  have hOutLeft : Outside left id := hOutCreated.step _
  have hOutOpened : Outside opened id := hOutLeft.step _
  have hTarget : some j ≠ some id := fun hSame => hNe (Option.some.inj hSame)
  have hIdle : left.channels j = some (other.setConnectionState Disconnected) := channels_disconnect hOther
  have hSocket : opened.socket_ = some (left.socket_.getD {}).connect := by
    have hConnect := connect_of_idle hIdle ⟨by rintro ⟨⟩, by rintro ⟨⟩⟩
    exact congrArg socket_ hConnect
  have hSocketOpen : (left.socket_.getD {}).connect.socket_ = .Open := by
    have hUp : (left.socket_.getD {}).connect.Up := KickWebSocket.up_connect
    rcases hUp with hConnected | hOpen
    · exact (hOpened.sound _ hSocket).opened hConnected
    · exact hOpen
  have hGuard : opened.socket_.any (·.socket_ = .Open) = true := by
    rw [hSocket]
    simpa using hSocketOpen
  have hUp : (opened.step lower true .established).isConnected = true := by
    rw [step, if_pos hGuard]
    change (opened.socket_.map KickWebSocket.handleConnectionEstablished).any (·.isConnected_) = true
    rw [hSocket]
    rfl
  refine ⟨[.getOrCreate slug, .disconnect j, .connect j, .established], ?_, hUp, ?_⟩
  · intro event hEvent
    simp only [List.mem_cons, List.not_mem_nil, or_false] at hEvent
    rcases hEvent with rfl | rfl | rfl | rfl
    · trivial
    · trivial
    · exact hNe
    · trivial
  · calc
      (opened.step lower true .established).channels id = opened.channels id :=
        hOutOpened.channels_step hOpened (by rintro ⟨⟩)
      _ = left.channels id := hOutLeft.channels_step hLeft hTarget
      _ = created.channels id := hOutCreated.channels_step hCreated hTarget
      _ = server.channels id := hOutside.channels_step h (by rintro ⟨⟩)

theorem connected_of_resolved {info : ChannelInfo} (hLive : server.channels id = some channel)
    (hPending : channel.resolutions ≠ 0) (hSuccess : info.success = true)
    (hUp : server.isConnected = true) :
    (server.step lower true (.resolved id info)).channels id = some (channel.answered info Connected) := by
  rw [step, resolved_of_connected hLive hPending hSuccess hUp]
  exact Heap.modify_self.trans (congrArg (Option.map _) hLive)

theorem exists_reconnected (hLower : ∀ slug, lower (lower slug) = lower slug) (h : WellFormed lower server)
    (hOutside : Outside server id) (hLive : server.channels id = some channel)
    (hState : channel.connectionState_ = Disconnected)
    (hPending : channel.resolutions ≠ 0 ∨ channel.reconnectTimers ≠ 0) :
    ∃ events : List (Event Slug), (∀ event ∈ events, Untouched id event) ∧
      ∃ other, (events.foldl (step lower true) server).channels id = some other ∧
        other.connectionState_ = Connected := by
  have hInfo : (⟨1, 1⟩ : ChannelInfo).success = true := rfl
  obtain ⟨events, hUntouched, hUp, hSame⟩ := exists_connected hLower h hOutside channel.channelSlug_
  have hStill := hSame.trans hLive
  rcases hPending with hResolution | hTimer
  · refine ⟨events ++ [.resolved id ⟨1, 1⟩], ?_, channel.answered ⟨1, 1⟩ Connected, ?_, rfl⟩
    · intro event hEvent
      rcases List.mem_append.mp hEvent with hOld | hNew
      · exact hUntouched event hOld
      · obtain rfl := List.mem_singleton.mp hNew
        trivial
    · rw [List.foldl_append, List.foldl_cons, List.foldl_nil]
      exact connected_of_resolved hStill hResolution hInfo hUp
  · refine ⟨events ++ [.reconnectTimeout id, .resolved id ⟨1, 1⟩], ?_, ?_⟩
    · intro event hEvent
      rcases List.mem_append.mp hEvent with hOld | hNew
      · exact hUntouched event hOld
      · rcases List.mem_pair.mp hNew with rfl | rfl <;> trivial
    · rw [List.foldl_append]
      generalize events.foldl (step lower true) server = up at hUp hStill
      let fired := up.modify id fun channel =>
        { channel with reconnectTimers := channel.reconnectTimers - 1 }
      have hFired : fired.channels id = some { channel with reconnectTimers := channel.reconnectTimers - 1 } :=
        Heap.modify_self.trans (congrArg (Option.map _) hStill)
      have hConnect := connect_of_idle hFired (by rw [hState]; decide)
      have hNext : up.step lower true (.reconnectTimeout id) = fired.connect true id :=
        reconnectTimeout_of_pending hStill hTimer
      have hUpFired : fired.isConnected = true := hUp
      have hUpNext : (fired.connect true id).isConnected = true := by
        rw [hConnect]
        exact (isConnected_ensureConnected fired).trans hUp
      have hConnecting : (fired.connect true id).channels id =
          some { channel with
            reconnectTimers := channel.reconnectTimers - 1
            connectionState_ := Connecting
            resolutions := channel.resolutions + 1 } := by
        rw [hConnect]
        refine Heap.modify_self.trans ?_
        rw [hFired, hUpFired]
        rfl
      rw [List.foldl_cons, List.foldl_cons, List.foldl_nil, hNext]
      exact ⟨_, connected_of_resolved hConnecting (Nat.succ_ne_zero _) hInfo hUpNext,
        KickChannel.connectionState_answered⟩

/-- A channel stays disconnected exactly when it disconnects with no request without an answer and no pending timer of
a reconnect. -/
theorem staysDisconnected_iff (hLower : ∀ slug, lower (lower slug) = lower slug)
    (before : List (Event Slug)) (id : ChannelId) (channel : KickChannel Slug)
    (hLive : (run lower before).channels id = some channel) :
    (∀ after, (∀ event ∈ after, Untouched id event) →
      StaysDisconnected (run lower (before ++ [.disconnect id]))
        (run lower (before ++ [.disconnect id] ++ after)) id) ↔
    channel.resolutions = 0 ∧ channel.reconnectTimers = 0 := by
  have hWellFormed := wellFormed_run hLower (before ++ [.disconnect id])
  have hDisconnect : run lower (before ++ [.disconnect id]) = (run lower before).disconnect lower id :=
    List.foldl_append
  have hAfter (after : List (Event Slug)) : run lower (before ++ [.disconnect id] ++ after) =
      after.foldl (step lower true) (run lower (before ++ [.disconnect id])) := List.foldl_append
  have hOutside : Outside (run lower (before ++ [.disconnect id])) id := by
    rw [hDisconnect]
    exact outside_disconnect (wellFormed_run hLower before) hLive
  have hSelf : (run lower (before ++ [.disconnect id])).channels id =
      some (channel.setConnectionState Disconnected) := by
    rw [hDisconnect]
    exact channels_disconnect hLive
  simp only [hAfter]
  constructor
  · intro hAll
    by_contra hPending
    have hOutstanding : channel.resolutions ≠ 0 ∨ channel.reconnectTimers ≠ 0 := not_and_or.mp hPending
    obtain ⟨events, hUntouched, other, hOther, hConnected⟩ :=
      exists_reconnected hLower hWellFormed hOutside hSelf rfl hOutstanding
    exact (hAll events hUntouched).state other hOther hConnected
  · rintro ⟨hResolutions, hTimers⟩ after hUntouched
    refine staysDisconnected_of_dormant hLower hWellFormed hOutside ?_ hUntouched
    intro other hOther
    obtain rfl := Option.some.inj (hSelf.symm.trans hOther)
    exact ⟨rfl, hResolutions, hTimers⟩

theorem staysDisconnected_of_subscribed :
    StaysDisconnected
      (run (fun slug : Nat => slug) ([.getOrCreate 0, .established, .resolved 0 ⟨7, 8⟩] ++ [.disconnect 0]))
      (run (fun slug => slug) ([.getOrCreate 0, .established, .resolved 0 ⟨7, 8⟩] ++ [.disconnect 0] ++
        [.getOrCreate 0, .established, .resolved 0 ⟨7, 8⟩])) 0 := by
  refine (staysDisconnected_iff (fun _ => rfl) _ 0 _ rfl).mpr ⟨rfl, rfl⟩ _ ?_
  intro event hEvent
  simp only [List.mem_cons, List.not_mem_nil, or_false] at hEvent
  rcases hEvent with rfl | rfl | rfl <;> trivial

/-- The answer to a request connects a channel that has disconnected in the meantime. -/
theorem not_staysDisconnected_of_resolving : ¬∀ (lower : Nat → Nat),
    (∀ slug, lower (lower slug) = lower slug) → ∀ before id channel,
      (run lower before).channels id = some channel → ∀ after, (∀ event ∈ after, Untouched id event) →
        StaysDisconnected (run lower (before ++ [.disconnect id]))
          (run lower (before ++ [.disconnect id] ++ after)) id := by
  intro hAll
  have hStays := hAll (fun slug => slug) (fun _ => rfl)
    [.getOrCreate 0, .getOrCreate 1, .established, .resolved 1 ⟨9, 10⟩] 0 _ rfl [.resolved 0 ⟨7, 8⟩] ?_
  · exact hStays.state _ rfl rfl
  · intro event hEvent
    obtain rfl := List.mem_singleton.mp hEvent
    trivial

end KickChatServer

end Chatterino.Kick
