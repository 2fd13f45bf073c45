import Chatterino.Kick.KickInvariants

/-! # How often a Kick channel retries

The retries are counted in `reconnectAttempts_`, which a success does not reset. What the channel gives
up after are the attempts since it was created or manually reconnected.
-/

namespace Chatterino.Kick

open Lib KickConnectionState

namespace KickChatServer

/-- The retries scheduled since a channel was last connected or manually reconnected, and those
scheduled since it was manually reconnected and before it was last connected. -/
structure Retries where
  before : Nat := 0
  since : Nat := 0

variable {Slug : Type} {lower : Slug → Slug} {server : KickChatServer Slug} {id : ChannelId}
  {channel : KickChannel Slug} {event : Event Slug} {retries : Retries}

def IsConnected (server : KickChatServer Slug) (id : ChannelId) : Bool :=
  (server.channels id).any (·.connectionState_ = Connected)

def pendingRetries (server : KickChatServer Slug) (id : ChannelId) : Nat :=
  ((server.channels id).map (·.retryTimers.length)).getD 0

def Retries.start (retries : Retries) (server : KickChatServer Slug) (id : ChannelId) (event : Event Slug) :
    Retries :=
  if event.reconnects id then {}
  else if server.IsConnected id then { before := retries.before + retries.since }
  else retries

theorem start_of_reconnects (h : event.reconnects id = true) : retries.start server id event = {} := if_pos h

theorem start_sum (h : event.reconnects id = false) :
    (retries.start server id event).before + (retries.start server id event).since =
      retries.before + retries.since := by
  unfold Retries.start
  rw [h]
  simp only [Bool.false_eq_true, if_false]
  split
  · rfl
  · rfl

theorem pendingRetries_eq (h : server.channels id = some channel) :
    server.pendingRetries id = channel.retryTimers.length := by
  rw [pendingRetries, h]
  rfl

theorem pendingRetries_of_gone (h : server.channels id = none) : server.pendingRetries id = 0 := by
  rw [pendingRetries, h]
  rfl

variable [DecidableEq Slug]

def Retries.next (lower : Slug → Slug) (retries : Retries) (server : KickChatServer Slug)
    (id : ChannelId) (event : Event Slug) : Retries :=
  if server.pendingRetries id < (server.step lower true event).pendingRetries id then
    { retries.start server id event with since := (retries.start server id event).since + 1 }
  else retries.start server id event

def watch (lower : Slug → Slug) (id : ChannelId) (watched : KickChatServer Slug × Retries)
    (event : Event Slug) : KickChatServer Slug × Retries :=
  (watched.1.step lower true event, watched.2.next lower watched.1 id event)

def Schedules (server : KickChatServer Slug) (id : ChannelId) (event : Event Slug) : Prop :=
  (event = .error ∨ ∃ code, event = .pusherError code) ∧
    ∃ channel, server.channels id = some channel ∧ id ∈ server.bySlug_.refs ∧
      channel.connectionState_ ≠ Reconnecting

/-- Only after all attempts in a row the channel gives up, and the delay doubles from one second up to
half a minute. -/
def Paced (lower : Slug → Slug) (id : ChannelId) (watched : KickChatServer Slug × Retries)
    (event : Event Slug) : Prop :=
  watched.1.Schedules id event → ∀ channel channel', watched.1.channels id = some channel →
    (watched.1.step lower true event).channels id = some channel' →
      (channel'.connectionState_ = Failed →
        KickChannel.MAX_RECONNECT_ATTEMPTS ≤ (watched.2.start watched.1 id event).since) ∧
      ∀ delay, channel'.retryTimers = delay :: channel.retryTimers →
        delay = 1000 * min (2 ^ (watched.2.start watched.1 id event).since) 30

/-- The counter is the number of retries since the channel was created or manually reconnected. -/
structure Counted (lower : Slug → Slug) (id : ChannelId) (watched : KickChatServer Slug × Retries) : Prop where
  wellFormed : WellFormed lower watched.1
  unborn : watched.1.nextChannel ≤ id → watched.2.before = 0 ∧ watched.2.since = 0
  attempts : ∀ channel, watched.1.channels id = some channel →
    channel.reconnectAttempts_ = watched.2.before + watched.2.since ∧
      channel.reconnectAttempts_ ≤ KickChannel.MAX_RECONNECT_ATTEMPTS

theorem next_of_not_lt (h : ¬server.pendingRetries id < (server.step lower true event).pendingRetries id) :
    retries.next lower server id event = retries.start server id event := if_neg h

theorem Counted.watch {watched : KickChatServer Slug × Retries}
    (hLower : ∀ slug, lower (lower slug) = lower slug) (h : Counted lower id watched) (event : Event Slug) :
    Counted lower id (watch lower id watched event) := by
  obtain ⟨server, retries⟩ := watched
  have hWellFormed : WellFormed lower server := h.wellFormed
  have hNext := hWellFormed.step hLower event
  refine ⟨hNext, ?_, ?_⟩
  · intro hUnborn
    have hId : server.nextChannel ≤ id := Nat.le_trans (nextChannel_le_step event) hUnborn
    have hGone' : (server.step lower true event).channels id = none := hNext.not_live hUnborn
    change (retries.next lower server id event).before = 0 ∧ (retries.next lower server id event).since = 0
    rw [next_of_not_lt (by rw [pendingRetries_of_gone hGone']; exact Nat.not_lt_zero _)]
    obtain ⟨hBefore, hSince⟩ : retries.before = 0 ∧ retries.since = 0 := h.unborn hId
    rcases hEvent : event.reconnects id with _ | _
    · have hSum : (retries.start server id event).before + (retries.start server id event).since = _ := start_sum hEvent
      omega
    · rw [start_of_reconnects hEvent]
      exact ⟨rfl, rfl⟩
  · intro channel' hLive'
    change (server.step lower true event).channels id = some channel' at hLive'
    change _ = (retries.next lower server id event).before + (retries.next lower server id event).since ∧ _
    have hPending' := pendingRetries_eq hLive'
    obtain ⟨hId, hOther, hZero, hNone⟩ | ⟨channel, hLive, ⟨hReconnects, hZero, hSame⟩ | ⟨hOther, hKeep | hRetry⟩⟩ :=
      attempts_step hWellFormed hLive'
    · -- the channel is new
      have hSum : (retries.start server id event).before + (retries.start server id event).since = _ := start_sum hOther
      obtain ⟨hBefore, hSince⟩ : retries.before = 0 ∧ retries.since = 0 := h.unborn (Nat.le_of_eq hId.symm)
      rw [next_of_not_lt (by rw [hPending', hNone]; exact Nat.not_lt_zero _), hSum, hZero, hBefore, hSince]
      exact ⟨rfl, Nat.zero_le _⟩
    · rw [next_of_not_lt (by rw [hPending', hSame, pendingRetries_eq hLive]; exact Nat.lt_irrefl _),
        start_of_reconnects hReconnects, hZero]
      exact ⟨rfl, Nat.zero_le _⟩
    · obtain ⟨hAttempts, hBound⟩ := h.attempts channel hLive
      have hSum : (retries.start server id event).before + (retries.start server id event).since = _ := start_sum hOther
      rw [next_of_not_lt (by rw [hPending', pendingRetries_eq hLive]; exact Nat.not_lt.mpr hKeep.2), hSum,
        hKeep.1]
      exact ⟨hAttempts, hBound⟩
    · obtain ⟨hAttempts, -⟩ := h.attempts channel hLive
      have hSum : (retries.start server id event).before + (retries.start server id event).since = _ := start_sum hOther
      have hGrows : server.pendingRetries id < (server.step lower true event).pendingRetries id := by
        rw [hPending', pendingRetries_eq hLive, hRetry.2.2]
        exact Nat.lt_succ_self _
      have hNextEq : retries.next lower server id event =
          { retries.start server id event with since := (retries.start server id event).since + 1 } :=
        if_pos hGrows
      rw [hNextEq, hRetry.2.1]
      refine ⟨?_, hRetry.1⟩
      change _ = (retries.start server id event).before + ((retries.start server id event).since + 1)
      change channel.reconnectAttempts_ = retries.before + retries.since at hAttempts
      omega

theorem baseDelayMs_eq_iff {before since : Nat} (h : before + since < KickChannel.MAX_RECONNECT_ATTEMPTS) :
    KickChannel.baseDelayMs (before + since) = 1000 * min (2 ^ since) 30 ↔ before = 0 := by
  have hBounded : ∀ before < 5, ∀ since < 5, before + since < 5 →
      (min (1000 * 2 ^ (before + since)) 30000 = 1000 * min (2 ^ since) 30 ↔ before = 0) := by decide
  unfold KickChannel.MAX_RECONNECT_ATTEMPTS at h
  exact hBounded before (by omega) since (by omega) h

theorem Counted.paced_step_iff {watched : KickChatServer Slug × Retries} (h : Counted lower id watched) :
    Paced lower id watched event ↔
      (watched.1.Schedules id event → (watched.2.start watched.1 id event).before = 0) := by
  obtain ⟨server, retries⟩ := watched
  refine forall_congr' fun hSchedules => ?_
  obtain ⟨hEvent, channel, hLive, hMem, hState⟩ := hSchedules
  change server.channels id = some channel at hLive
  change id ∈ server.bySlug_.refs at hMem
  have hOther : event.reconnects id = false := by
    rcases hEvent with rfl | ⟨code, rfl⟩ <;> rfl
  have hSum : (retries.start server id event).before + (retries.start server id event).since = _ :=
    start_sum hOther
  have hNext : (server.step lower true event).channels id = _ := channels_error h.wellFormed hEvent hLive
  rw [if_pos hMem] at hNext
  obtain ⟨hAttempts, hBound⟩ := h.attempts channel hLive
  change channel.reconnectAttempts_ = retries.before + retries.since at hAttempts
  change (∀ old new, server.channels id = some old →
    (server.step lower true event).channels id = some new → _) ↔ (retries.start server id event).before = 0
  have hOne (p : KickChannel Slug → KickChannel Slug → Prop) :
      (∀ old new, server.channels id = some old → (server.step lower true event).channels id = some new →
        p old new) ↔ p channel channel.onServerError := by
    constructor
    · exact fun hAll => hAll _ _ hLive hNext
    · intro hChannel old new hOld hNew
      obtain rfl := Option.some.inj (hLive.symm.trans hOld)
      obtain rfl := Option.some.inj (hNext.symm.trans hNew)
      exact hChannel
  rw [hOne]
  obtain ⟨hWaits, -⟩ | ⟨-, ⟨hUsed, hError⟩ | ⟨hLess, hError⟩⟩ := KickChannel.onServerError_cases channel
  · exact absurd hWaits hState
  · rw [hError]
    constructor
    · rintro ⟨hGaveUp, -⟩
      have hSince : KickChannel.MAX_RECONNECT_ATTEMPTS ≤ (retries.start server id event).since := hGaveUp rfl
      omega
    · intro hBefore
      constructor
      · intro _
        change KickChannel.MAX_RECONNECT_ATTEMPTS ≤ (retries.start server id event).since
        omega
      · intro delay hTimers
        exact absurd hTimers (List.cons_ne_self _ _).symm
  · rw [hError, ← baseDelayMs_eq_iff (by rw [hSum, ← hAttempts]; exact hLess), hSum, ← hAttempts]
    constructor
    · exact fun hPaced => hPaced.2 _ rfl
    · intro hDelay
      constructor
      · rintro ⟨⟩
      · intro delay hTimers
        rw [← (List.cons.inj hTimers).1]
        exact hDelay

/-- The channel retries at its pace and gives up in time exactly as long as it schedules no retry after
it has recovered from an earlier one. -/
theorem paced_iff (hLower : ∀ slug, lower (lower slug) = lower slug) (id : ChannelId)
    (events : List (Event Slug)) :
    AllSteps (watch lower id) (Paced lower id) ({}, {}) events ↔
      AllSteps (watch lower id)
        (fun watched event => watched.1.Schedules id event → (watched.2.start watched.1 id event).before = 0)
        ({}, {}) events := by
  have hStart : Counted lower id (({}, {}) : KickChatServer Slug × Retries) :=
    ⟨.empty, fun _ => ⟨rfl, rfl⟩, fun _ h => by cases h⟩
  exact AllSteps.congr_of_invariant hStart (fun _ event h => h.watch hLower event) fun _ _ h => h.paced_step_iff

theorem paced_of_unconnected : AllSteps (watch (fun slug : Nat => slug) 0) (Paced (fun slug => slug) 0) ({}, {})
    [.getOrCreate 0, .error, .closed, .connect 0, .error] :=
  (paced_iff (fun _ => rfl) 0 _).mpr
    ⟨fun _ => rfl, fun _ => rfl, fun _ => rfl, fun _ => rfl, fun _ => rfl, trivial⟩

/-- After a retry and a success, the first retry waits for two seconds. -/
theorem not_paced_of_recovered : ¬∀ (lower : Nat → Nat), (∀ slug, lower (lower slug) = lower slug) →
    ∀ id events, AllSteps (watch lower id) (Paced lower id) ({}, {}) events := by
  intro hAll
  have hSteps := hAll (fun slug => slug) (fun _ => rfl) 0
    [.getOrCreate 0, .established, .error, .resolved 0 ⟨7, 8⟩, .error]
  have hPaced := hSteps.2.2.2.2.1 ⟨.inl rfl, _, rfl, List.mem_cons_self, by decide⟩ _ _ rfl rfl
  exact absurd (hPaced.2 2000 rfl) (by decide)

end KickChatServer

end Chatterino.Kick
