import Chatterino.YouTube.YouTubeChannel

/-! # One chain of polls

A poll is answered, its answer arms the timer, and the timer sends the next poll. There is one such
chain as long as no session is opened next to a chain that is still alive, and it stops with the
channel as long as no request is answered while the channel is disconnected.
-/

namespace Chatterino.YouTube

open YouTubeConnectionState

namespace YouTubeChannel

variable {target : Target} {channel channel' : YouTubeChannel} {event : Event} {stopped : Bool}
  {session : YouTubeChatSession}

/-- A poll is in flight or the timer is armed, not both, and the poll is one of the current session. -/
structure OneChain (channel : YouTubeChannel) : Prop where
  single : channel.polls.length + channel.pollTimer_.toList.length ≤ 1
  current : ∀ session ∈ channel.polls, session = channel.session_

/-- Between the two states no timer was armed, no request was sent and the connection state is the
same. -/
structure Silent (channel channel' : YouTubeChannel) : Prop where
  connectionState_ : channel'.connectionState_ = channel.connectionState_
  pollTimer_ : channel'.pollTimer_ = channel.pollTimer_
  rediscoverTimer_ : channel'.rediscoverTimer_ = channel.rediscoverTimer_
  resolutions : channel'.resolutions ≤ channel.resolutions
  openings : channel'.openings.Sublist channel.openings
  polls : channel'.polls.Sublist channel.polls

def Event.isCompletion : Event → Bool
  | .videoResolved _ | .sessionOpened _ _ | .polled _ _ => true
  | _ => false

/-- No request is answered while the channel is disconnected, and no session is opened while the
chain of another one goes on. -/
def InOrder (channel : YouTubeChannel) : Event → Prop
  | .videoResolved _ => channel.resolutions ≠ 0 → channel.connectionState_ ≠ Disconnected
  | .sessionOpened videoId answer => videoId ∈ channel.openings →
      channel.connectionState_ ≠ Disconnected ∧
        (answer.isSome → channel.polls = [] ∧ channel.pollTimer_ = none)
  | .polled session _ => session ∈ channel.polls → channel.connectionState_ ≠ Disconnected
  | _ => True

def chain (channel : YouTubeChannel) :
    List YouTubeChatSession × Option Int × YouTubeChatSession × List QString :=
  (channel.polls, channel.pollTimer_, channel.session_, channel.added)

theorem chain_eq_iff : channel'.chain = channel.chain ↔
    channel'.polls = channel.polls ∧ channel'.pollTimer_ = channel.pollTimer_ ∧
      channel'.session_ = channel.session_ ∧ channel'.added = channel.added := by
  simp only [chain, Prod.mk.injEq]

theorem chain_scheduleRediscovery : (channel.scheduleRediscovery target).chain = channel.chain := by
  unfold scheduleRediscovery
  split_ifs <;> rfl

theorem chain_onVideoId (answer : Option VideoId) :
    (channel.onVideoId target answer).chain = channel.chain := by
  cases answer with
  | none => exact chain_scheduleRediscovery
  | some videoId => rfl

theorem chain_resolveAndOpen : (channel.resolveAndOpen target).chain = channel.chain := by
  unfold resolveAndOpen
  cases target.immediate with
  | none => rfl
  | some answer => exact chain_onVideoId answer

theorem connectionState_scheduleRediscovery :
    (channel.scheduleRediscovery target).connectionState_ = channel.connectionState_ := by
  unfold scheduleRediscovery
  split_ifs <;> rfl

theorem connectionState_onFailure {state : YouTubeConnectionState} (hState : state ≠ Disconnected) :
    ((channel.setConnectionState state).scheduleRediscovery target).connectionState_ ≠ Disconnected := by
  rw [connectionState_scheduleRediscovery]
  exact hState

theorem connectionState_resolveAndOpen :
    (channel.resolveAndOpen target).connectionState_ ≠ Disconnected := by
  unfold resolveAndOpen
  rcases target.immediate with _ | answer
  · exact YouTubeConnectionState.noConfusion
  rcases answer with _ | videoId
  · exact connectionState_onFailure (by decide)
  · exact YouTubeConnectionState.noConfusion

theorem OneChain.congr (h : OneChain channel) (hChain : channel'.chain = channel.chain) :
    OneChain channel' := by
  obtain ⟨hPolls, hTimer, hSession, -⟩ := chain_eq_iff.mp hChain
  constructor
  · rw [hPolls, hTimer]
    exact h.single
  · rw [hPolls, hSession]
    exact h.current

theorem OneChain.of_stop (h : OneChain channel) (hTimer : channel'.pollTimer_ = none)
    (hPolls : channel'.polls = channel.polls) (hSession : channel'.session_ = channel.session_) :
    OneChain channel' := by
  constructor
  · rw [hPolls, hTimer]
    exact (Nat.le_add_right _ _).trans h.single
  · rw [hPolls, hSession]
    exact h.current

theorem OneChain.of_polls_eq_nil (h : channel.polls = []) : OneChain channel := by
  constructor
  · rw [h, List.length_nil, Nat.zero_add]
    cases channel.pollTimer_ with
    | none => exact Nat.zero_le 1
    | some timeoutMs => exact Nat.le_refl 1
  · rw [h]
    rintro _ ⟨⟩

theorem OneChain.polls_eq_nil (h : OneChain channel) (hTimer : channel.pollTimer_.isSome) :
    channel.polls = [] := by
  obtain ⟨timeoutMs, hSome⟩ := Option.isSome_iff_exists.mp hTimer
  have hSingle := h.single
  rw [hSome] at hSingle
  exact List.length_eq_zero_iff.mp (Nat.le_zero.mp (Nat.le_of_succ_le_succ hSingle))

theorem OneChain.polls_eq (h : OneChain channel) {session : YouTubeChatSession}
    (hMem : session ∈ channel.polls) : channel.polls = [session] ∧ channel.pollTimer_ = none := by
  have hSingle := h.single
  obtain ⟨first, rest, hPolls⟩ := List.exists_cons_of_ne_nil (List.ne_nil_of_mem hMem)
  rw [hPolls, List.length_cons] at hSingle
  have hRest : rest = [] := List.length_eq_zero_iff.mp (by omega)
  have hTimer : channel.pollTimer_.toList = [] := List.length_eq_zero_iff.mp (by omega)
  subst hRest
  rw [hPolls] at hMem
  rw [hPolls, List.mem_singleton.mp hMem]
  exact ⟨rfl, Option.toList_eq_nil_iff.mp hTimer⟩

theorem OneChain.pollOnce (hPolls : channel.polls = []) (hTimer : channel.pollTimer_ = none) :
    OneChain channel.pollOnce := by
  unfold YouTubeChannel.pollOnce
  split_ifs
  · constructor
    · simp [hPolls, hTimer]
    · intro session hMem
      rw [hPolls] at hMem
      exact List.mem_singleton.mp hMem
  · exact .of_polls_eq_nil hPolls

theorem valid_of_page (page : ChatPage) (videoId : QString) :
    YouTubeChatSession.valid ⟨page.apiKey, page.continuation, videoId⟩ := by
  simp [YouTubeChatSession.valid, page.apiKey_ne, page.continuation_ne]

theorem onSession_some (videoId : QString) (page : ChatPage) :
    channel.onSession target videoId (some page) =
      { channel with
        session_ := ⟨page.apiKey, page.continuation, videoId⟩
        consecutiveFailures_ := 0
        connectionState_ := Connected
        polls := ⟨page.apiKey, page.continuation, videoId⟩ :: channel.polls } :=
  if_pos (valid_of_page page videoId)

theorem oneChain_onSession_iff {videoId : QString} {page : ChatPage} :
    OneChain (channel.onSession target videoId (some page)) ↔
      channel.polls = [] ∧ channel.pollTimer_ = none := by
  rw [onSession_some]
  constructor
  · intro h
    have hSingle : channel.polls.length + 1 + channel.pollTimer_.toList.length ≤ 1 := h.single
    have hTimer : channel.pollTimer_.toList = [] := List.length_eq_zero_iff.mp (by omega)
    exact ⟨List.length_eq_zero_iff.mp (by omega), Option.toList_eq_nil_iff.mp hTimer⟩
  · rintro ⟨hPolls, hTimer⟩
    constructor
    · simp [hPolls, hTimer]
    · intro session hMem
      change session ∈ _ :: channel.polls at hMem
      rw [hPolls] at hMem
      exact List.mem_singleton.mp hMem

theorem onPoll_effects (target : Target) (continuation : QString) (poll : YouTubeChatPoll)
    (channel : YouTubeChannel) : (channel.onPoll target continuation poll).polls = channel.polls ∧
      (channel.onPoll target continuation poll).connectionState_ ≠ Disconnected := by
  unfold onPoll
  dsimp only
  split_ifs
  · exact ⟨(chain_eq_iff.mp chain_scheduleRediscovery).1, connectionState_onFailure (by decide)⟩
  · exact ⟨(chain_eq_iff.mp chain_scheduleRediscovery).1, connectionState_onFailure (by decide)⟩
  · exact ⟨rfl, YouTubeConnectionState.noConfusion⟩
  · exact ⟨rfl, YouTubeConnectionState.noConfusion⟩

structure Tracked (channel : YouTubeChannel) (stopped : Bool) : Prop where
  chain : OneChain channel
  quiet : stopped = true →
    channel.connectionState_ = Disconnected ∧ channel.pollTimer_ = none ∧ channel.rediscoverTimer_ = none
  /-- A channel that was never connected has asked for nothing. -/
  idle : stopped = false → channel.connectionState_ = Disconnected →
    channel.resolutions = 0 ∧ channel.openings = [] ∧ channel.polls = [] ∧ channel.pollTimer_ = none

def Lawful (target : Target) (channel : YouTubeChannel) (stopped : Bool) (event : Event) : Prop :=
  OneChain (channel.step target event) ∧
    (stopped = true → event.isCompletion = true → Silent channel (channel.step target event))

theorem Silent.refl : Silent channel channel := ⟨rfl, rfl, rfl, Nat.le_refl _, .refl _, .refl _⟩

theorem Tracked.stopped_iff (h : Tracked channel stopped)
    (hPending : channel.resolutions ≠ 0 ∨ channel.openings ≠ [] ∨ channel.polls ≠ []) :
    stopped = true ↔ channel.connectionState_ = Disconnected := by
  constructor
  · intro hStopped
    exact (h.quiet hStopped).1
  · intro hState
    by_contra hRunning
    obtain ⟨hResolutions, hOpenings, hPolls, -⟩ := h.idle (Bool.eq_false_of_not_eq_true hRunning) hState
    exact hPending.elim (absurd hResolutions) fun hRest => hRest.elim (absurd hOpenings) (absurd hPolls)

theorem Tracked.lawful_iff_of_loud (h : Tracked channel stopped)
    (hPending : channel.resolutions ≠ 0 ∨ channel.openings ≠ [] ∨ channel.polls ≠ [])
    (hEvent : event.isCompletion = true)
    (hLoud : channel.connectionState_ = Disconnected → ¬Silent channel (channel.step target event)) :
    Lawful target channel stopped event ↔
      channel.connectionState_ ≠ Disconnected ∧ OneChain (channel.step target event) := by
  constructor
  · rintro ⟨hChain, hSilent⟩
    refine ⟨fun hState => hLoud hState ?_, hChain⟩
    exact hSilent ((h.stopped_iff hPending).mpr hState) hEvent
  · rintro ⟨hState, hChain⟩
    exact ⟨hChain, fun hStopped => absurd ((h.stopped_iff hPending).mp hStopped) hState⟩

theorem lawful_of_step_eq (h : OneChain channel) (hStep : channel.step target event = channel) :
    Lawful target channel stopped event := by
  rw [Lawful, hStep]
  exact ⟨h, fun _ _ => .refl⟩

theorem OneChain.step (h : OneChain channel) (hEvent : event.isCompletion = false) :
    OneChain (channel.step target event) := by
  cases event with
  | connect =>
    rw [YouTubeChannel.step, connect]
    split_ifs
    · exact h
    · exact h.congr chain_resolveAndOpen
  | disconnect => exact h.of_stop rfl rfl rfl
  | reconnect =>
    have hStop : OneChain { channel with pollTimer_ := none, rediscoverTimer_ := none, consecutiveFailures_ := 0 } :=
      h.of_stop rfl rfl rfl
    exact hStop.congr chain_resolveAndOpen
  | pollTimeout =>
    rw [YouTubeChannel.step]
    split_ifs with hTimer
    · exact .pollOnce (h.polls_eq_nil hTimer) rfl
    · exact h
  | rediscoverTimeout =>
    rw [YouTubeChannel.step]
    split_ifs
    · exact h.congr chain_resolveAndOpen
    · exact h
  | videoResolved answer => cases hEvent
  | sessionOpened videoId answer => cases hEvent
  | polled session poll => cases hEvent
  | sendMessage text signedIn =>
    rw [YouTubeChannel.step, sendMessage]
    split_ifs <;> exact h.congr rfl
  | liveChatResolved request liveChatId =>
    rw [YouTubeChannel.step]
    split_ifs
    · unfold onLiveChatId
      split_ifs <;> exact h.congr rfl
    · exact h

theorem Tracked.lawful_iff (h : Tracked channel stopped) (event : Event) :
    Lawful target channel stopped event ↔ InOrder channel event := by
  cases event with
  | videoResolved answer =>
    by_cases hNone : channel.resolutions = 0
    · exact iff_of_true (lawful_of_step_eq h.chain (if_pos hNone)) fun hPending => absurd hNone hPending
    have hStep : channel.step target (.videoResolved answer) =
        { channel with resolutions := channel.resolutions - 1 }.onVideoId target answer := if_neg hNone
    have hChain : OneChain (channel.step target (.videoResolved answer)) := by
      rw [hStep]
      exact h.chain.congr (chain_onVideoId answer)
    have hLoud : channel.connectionState_ = Disconnected →
        ¬Silent channel (channel.step target (.videoResolved answer)) := by
      intro hState hSilent
      rw [hStep] at hSilent
      cases answer with
      | none =>
        have hFailed := hSilent.connectionState_.trans hState
        exact connectionState_onFailure (by decide) hFailed
      | some videoId => exact absurd hSilent.openings.length_le (Nat.not_succ_le_self _)
    refine (h.lawful_iff_of_loud (.inl hNone) rfl hLoud).trans ?_
    exact ⟨fun hLaw _ => hLaw.1, fun hOrder => ⟨hOrder hNone, hChain⟩⟩
  | sessionOpened videoId answer =>
    by_cases hMem : videoId ∈ channel.openings
    swap
    · exact iff_of_true (lawful_of_step_eq h.chain (if_neg hMem)) fun hPending => absurd hPending hMem
    have hStep : channel.step target (.sessionOpened videoId answer) =
        { channel with openings := channel.openings.erase videoId }.onSession target videoId answer :=
      if_pos hMem
    have hLoud : channel.connectionState_ = Disconnected →
        ¬Silent channel (channel.step target (.sessionOpened videoId answer)) := by
      intro hState hSilent
      have hSame := hSilent.connectionState_.trans hState
      rw [hStep] at hSame
      cases answer with
      | none => exact connectionState_onFailure (by decide) hSame
      | some page =>
        rw [onSession_some] at hSame
        cases hSame
    refine (h.lawful_iff_of_loud (.inr (.inl (List.ne_nil_of_mem hMem))) rfl hLoud).trans ?_
    rw [hStep]
    cases answer with
    | none =>
      have hChain : OneChain ({ channel with openings := channel.openings.erase videoId }.onSession target
          videoId none) := h.chain.congr chain_scheduleRediscovery
      exact ⟨fun hLaw _ => ⟨hLaw.1, by rintro ⟨⟩⟩, fun hOrder => ⟨(hOrder hMem).1, hChain⟩⟩
    | some page =>
      have hIff : OneChain ({ channel with openings := channel.openings.erase videoId }.onSession target
          videoId (some page)) ↔ channel.polls = [] ∧ channel.pollTimer_ = none := oneChain_onSession_iff
      rw [hIff]
      exact ⟨fun hLaw _ => ⟨hLaw.1, fun _ => hLaw.2⟩, fun hOrder => ⟨(hOrder hMem).1, (hOrder hMem).2 rfl⟩⟩
  | polled session poll =>
    by_cases hMem : session ∈ channel.polls
    swap
    · exact iff_of_true (lawful_of_step_eq h.chain (if_neg hMem)) fun hPending => absurd hPending hMem
    have hStep : channel.step target (.polled session poll) =
        { channel with polls := channel.polls.erase session }.onPoll target session.continuation poll :=
      if_pos hMem
    obtain ⟨hPolls, hState⟩ := onPoll_effects target session.continuation poll
      { channel with polls := channel.polls.erase session }
    rw [← hStep] at hPolls hState
    have hChain : OneChain (channel.step target (.polled session poll)) := by
      apply OneChain.of_polls_eq_nil
      rw [hPolls, (h.chain.polls_eq hMem).1]
      exact List.erase_cons_head session []
    refine (h.lawful_iff_of_loud (.inr (.inr (List.ne_nil_of_mem hMem))) rfl ?_).trans ?_
    · intro hDisconnected hSilent
      exact hState (hSilent.connectionState_.trans hDisconnected)
    · exact ⟨fun hLaw _ => hLaw.1, fun hOrder => ⟨hOrder hMem, hChain⟩⟩
  | connect | disconnect | reconnect | pollTimeout | rediscoverTimeout | sendMessage text signedIn
  | liveChatResolved request liveChatId => exact iff_of_true ⟨h.chain.step rfl, by rintro - ⟨⟩⟩ trivial

end YouTubeChannel

end Chatterino.YouTube
