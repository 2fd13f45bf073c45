import Chatterino.YouTube.YouTubeChain
import Chatterino.Lib.Run
import Mathlib.Data.List.Induction
import Mathlib.Data.List.Perm.Subperm

/-! # Runs of polls

The chain of polls stays one along every run whose answers come in order. Each token is then used for
one response.
-/

namespace Chatterino.YouTube

open Lib YouTubeConnectionState

namespace YouTubeChannel

variable {target : Target} {channel channel' : YouTubeChannel} {event : Event} {stopped : Bool}
  {session : YouTubeChatSession}

def nowStopped (wasStopped : Bool) : Event → Bool
  | .disconnect => true
  | .connect | .reconnect => false
  | _ => wasStopped

/-- `disconnect` was called, and neither `connect` nor `reconnect` since. -/
def isStopped (events : List Event) : Bool := events.foldl nowStopped false

def Event.token : Event → Option QString
  | .sessionOpened _ answer => answer.map ChatPage.continuation
  | .polled _ poll => if poll.ok then some poll.nextContinuation else none
  | _ => none

def tokens (events : List Event) : List QString := events.filterMap Event.token

theorem Tracked.of_running (hChain : OneChain channel) (hState : channel.connectionState_ ≠ Disconnected) :
    Tracked channel false :=
  ⟨hChain, by rintro ⟨⟩, fun _ hDisconnected => absurd hDisconnected hState⟩

theorem Tracked.congr (h : Tracked channel stopped) (hChain : channel'.chain = channel.chain)
    (hState : channel'.connectionState_ = channel.connectionState_)
    (hTimer : channel'.rediscoverTimer_ = channel.rediscoverTimer_)
    (hRequests : (channel'.resolutions, channel'.openings) = (channel.resolutions, channel.openings)) :
    Tracked channel' stopped := by
  obtain ⟨hPolls, hPollTimer, -, -⟩ := chain_eq_iff.mp hChain
  obtain ⟨hResolutions, hOpenings⟩ := Prod.mk.inj hRequests
  refine ⟨h.chain.congr hChain, ?_, ?_⟩
  · rw [hState, hPollTimer, hTimer]
    exact h.quiet
  · rw [hState, hResolutions, hOpenings, hPolls, hPollTimer]
    exact h.idle

theorem Tracked.stopped_eq_false (h : Tracked channel stopped)
    (hState : channel.connectionState_ ≠ Disconnected) : stopped = false := by
  apply Bool.eq_false_of_not_eq_true
  intro hStopped
  exact hState (h.quiet hStopped).1

theorem Tracked.connect (h : Tracked channel stopped) : Tracked (channel.connect target) false := by
  unfold YouTubeChannel.connect
  split_ifs with hBusy
  · apply Tracked.of_running h.chain
    intro hState
    rw [hState] at hBusy
    exact absurd hBusy (by decide)
  · exact .of_running (h.chain.congr chain_resolveAndOpen) connectionState_resolveAndOpen

theorem Tracked.pollTimeout (h : Tracked channel stopped) : Tracked (channel.step target .pollTimeout) stopped := by
  rw [YouTubeChannel.step]
  split_ifs with hTimer
  · have hArmed : channel.pollTimer_ ≠ none := Option.isSome_iff_ne_none.mp hTimer
    have hRunning : stopped = false := by
      apply Bool.eq_false_of_not_eq_true
      intro hStopped
      exact hArmed (h.quiet hStopped).2.1
    have hState : channel.connectionState_ ≠ Disconnected := fun hState =>
      hArmed (h.idle hRunning hState).2.2.2
    rw [hRunning]
    refine .of_running (.pollOnce (h.chain.polls_eq_nil hTimer) rfl) ?_
    unfold pollOnce
    split_ifs <;> exact hState
  · exact h

theorem Tracked.rediscoverTimeout (h : Tracked channel stopped) :
    Tracked (channel.step target .rediscoverTimeout) stopped := by
  rw [YouTubeChannel.step]
  split_ifs with hTimer
  · have hRunning : stopped = false := by
      apply Bool.eq_false_of_not_eq_true
      intro hStopped
      exact Option.isSome_iff_ne_none.mp hTimer (h.quiet hStopped).2.2
    rw [hRunning]
    exact .of_running (h.chain.congr chain_resolveAndOpen) connectionState_resolveAndOpen
  · exact h

theorem Tracked.completion (h : Tracked channel stopped) (hChain : OneChain (channel.step target event))
    (hState : channel.connectionState_ ≠ Disconnected)
    (hNext : (channel.step target event).connectionState_ ≠ Disconnected) :
    Tracked (channel.step target event) stopped := by
  rw [h.stopped_eq_false hState]
  exact .of_running hChain hNext

theorem Tracked.step (h : Tracked channel stopped) (hOrder : InOrder channel event) :
    Tracked (channel.step target event) (nowStopped stopped event) := by
  have hLaw : Lawful target channel stopped event := (h.lawful_iff event).mpr hOrder
  have hChain := hLaw.1
  cases event with
  | connect => exact h.connect
  | disconnect => exact ⟨hChain, fun _ => ⟨rfl, rfl, rfl⟩, by rintro ⟨⟩⟩
  | reconnect => exact .of_running hChain connectionState_resolveAndOpen
  | pollTimeout => exact h.pollTimeout
  | rediscoverTimeout => exact h.rediscoverTimeout
  | videoResolved answer =>
    by_cases hNone : channel.resolutions = 0
    · rw [YouTubeChannel.step, if_pos hNone]
      exact h
    · refine h.completion hChain (hOrder hNone) ?_
      rw [YouTubeChannel.step, if_neg hNone]
      cases answer with
      | none => exact connectionState_onFailure (by decide)
      | some videoId => exact hOrder hNone
  | sessionOpened videoId answer =>
    by_cases hMem : videoId ∈ channel.openings
    · refine h.completion hChain (hOrder hMem).1 ?_
      rw [YouTubeChannel.step, if_pos hMem]
      cases answer with
      | none => exact connectionState_onFailure (by decide)
      | some page =>
        rw [onSession_some]
        exact YouTubeConnectionState.noConfusion
    · rw [YouTubeChannel.step, if_neg hMem]
      exact h
  | polled session poll =>
    by_cases hMem : session ∈ channel.polls
    · refine h.completion hChain (hOrder hMem) ?_
      rw [YouTubeChannel.step, if_pos hMem]
      exact (onPoll_effects target session.continuation poll _).2
    · rw [YouTubeChannel.step, if_neg hMem]
      exact h
  | sendMessage text signedIn =>
    change Tracked (channel.sendMessage text signedIn) stopped
    unfold sendMessage
    split_ifs <;> exact h.congr rfl rfl rfl rfl
  | liveChatResolved request liveChatId =>
    change Tracked (channel.step target (.liveChatResolved request liveChatId)) stopped
    rw [YouTubeChannel.step]
    split_ifs
    · unfold onLiveChatId
      split_ifs <;> exact h.congr rfl rfl rfl rfl
    · exact h

/-- The tokens of the added messages, and of the poll to come, are distinct ones of those given. -/
structure Fresh (channel : YouTubeChannel) (given : List QString) : Prop where
  added : channel.added.Subperm given
  next : channel.polls ≠ [] ∨ channel.pollTimer_ ≠ none →
    (channel.session_.continuation :: channel.added).Subperm given

variable {given : List QString}

theorem Fresh.more (h : Fresh channel given) (hAdded : channel'.added = channel.added)
    (hSession : channel'.session_ = channel.session_)
    (hAlive : channel'.polls ≠ [] ∨ channel'.pollTimer_ ≠ none →
      channel.polls ≠ [] ∨ channel.pollTimer_ ≠ none) (more : List QString) :
    Fresh channel' (given ++ more) := by
  have hMore : given.Subperm (given ++ more) := (List.sublist_append_left given more).subperm
  constructor
  · rw [hAdded]
    exact h.added.trans hMore
  · intro hPoll
    rw [hAdded, hSession]
    exact (h.next (hAlive hPoll)).trans hMore

theorem Fresh.congr (h : Fresh channel given) (hChain : channel'.chain = channel.chain)
    (more : List QString) : Fresh channel' (given ++ more) := by
  obtain ⟨hPolls, hTimer, hSession, hAdded⟩ := chain_eq_iff.mp hChain
  apply h.more hAdded hSession
  rw [hPolls, hTimer]
  exact id

theorem subperm_cons_concat {added : List QString} (token : QString) (h : added.Subperm given) :
    (token :: added).Subperm (given ++ [token]) :=
  ((List.subperm_cons token).mpr h).trans (List.perm_append_singleton token given).symm.subperm

theorem Fresh.onPoll (hAdded : (session.continuation :: channel.added).Subperm given)
    (hSession : channel.session_ = session) (poll : YouTubeChatPoll) :
    Fresh (channel.onPoll target session.continuation poll)
      (given ++ (Event.token (.polled session poll)).toList) := by
  have hOld : channel.added.Subperm given := (List.sublist_cons_self _ _).subperm.trans hAdded
  have hSame (channel' : YouTubeChannel) (hKept : channel'.added = channel.added)
      (hSession' : channel'.session_ = channel.session_) (more : List QString) :
      Fresh channel' (given ++ more) := by
    have hMore : given.Subperm (given ++ more) := (List.sublist_append_left given more).subperm
    constructor
    · rw [hKept]
      exact hOld.trans hMore
    · rw [hKept, hSession', hSession]
      exact fun _ => hAdded.trans hMore
  have hRediscovery (state : YouTubeConnectionState) (failures : Nat) :
      (({ channel with consecutiveFailures_ := failures }.setConnectionState state).scheduleRediscovery
        target).chain = channel.chain := chain_scheduleRediscovery
  unfold YouTubeChannel.onPoll
  dsimp only
  split_ifs with hOk
  · obtain ⟨-, -, hSession', hKept⟩ := chain_eq_iff.mp (hRediscovery Ended channel.consecutiveFailures_)
    exact hSame _ hKept hSession' _
  · obtain ⟨-, -, hSession', hKept⟩ := chain_eq_iff.mp (hRediscovery Failed (channel.consecutiveFailures_ + 1))
    exact hSame _ hKept hSession' _
  · apply hSame
    · rfl
    · rfl
  · have hToken : Event.token (.polled session poll) = some poll.nextContinuation :=
      if_pos (by simpa using hOk)
    rw [hToken]
    have hNext := subperm_cons_concat poll.nextContinuation hAdded
    exact ⟨(List.sublist_cons_self _ _).subperm.trans hNext, fun _ => hNext⟩

theorem Fresh.step (h : Fresh channel given) (hTracked : Tracked channel stopped)
    (hOrder : InOrder channel event) : Fresh (channel.step target event) (given ++ event.token.toList) := by
  cases event with
  | connect =>
    rw [YouTubeChannel.step, YouTubeChannel.connect]
    split_ifs
    · exact h.congr rfl []
    · refine h.congr ?_ _
      exact chain_resolveAndOpen
  | disconnect =>
    refine h.more ?_ ?_ (fun hAlive => .inl ?_) _
    · rfl
    · rfl
    · exact hAlive.resolve_right fun hArmed => hArmed rfl
  | reconnect =>
    have hStop : Fresh { channel with pollTimer_ := none, rediscoverTimer_ := none, consecutiveFailures_ := 0 }
        (given ++ []) := by
      refine h.more ?_ ?_ (fun hAlive => .inl ?_) _
      · rfl
      · rfl
      · exact hAlive.resolve_right fun hArmed => hArmed rfl
    rw [List.append_nil] at hStop
    exact hStop.congr chain_resolveAndOpen _
  | pollTimeout =>
    rw [YouTubeChannel.step]
    split_ifs with hTimer
    · have hArmed : channel.pollTimer_ ≠ none := Option.isSome_iff_ne_none.mp hTimer
      unfold pollOnce
      split_ifs
      · refine h.more ?_ ?_ (fun _ => .inr hArmed) _ <;> rfl
      · refine h.more ?_ ?_ (fun _ => .inr hArmed) _ <;> rfl
    · exact h.congr rfl []
  | rediscoverTimeout =>
    rw [YouTubeChannel.step]
    split_ifs
    · refine h.congr ?_ _
      exact chain_resolveAndOpen
    · exact h.congr rfl []
  | videoResolved answer =>
    rw [YouTubeChannel.step]
    split_ifs
    · exact h.congr rfl []
    · refine h.congr ?_ _
      exact chain_onVideoId answer
  | sessionOpened videoId answer =>
    rw [YouTubeChannel.step]
    split_ifs with hMem
    · cases answer with
      | none =>
        refine h.congr ?_ _
        exact chain_scheduleRediscovery
      | some page =>
        rw [onSession_some]
        have hAdded : (page.continuation :: channel.added).Subperm (given ++ [page.continuation]) :=
          subperm_cons_concat page.continuation h.added
        exact ⟨(List.sublist_cons_self _ _).subperm.trans hAdded, fun _ => hAdded⟩
    · exact h.congr rfl _
  | polled session poll =>
    rw [YouTubeChannel.step]
    split_ifs with hMem
    · have hAdded := h.next (.inl (List.ne_nil_of_mem hMem))
      rw [← hTracked.chain.current session hMem] at hAdded
      refine Fresh.onPoll ?_ ?_ poll
      · exact hAdded
      · exact (hTracked.chain.current session hMem).symm
    · exact h.congr rfl _
  | sendMessage text signedIn =>
    rw [YouTubeChannel.step, sendMessage]
    split_ifs <;>
      · refine h.congr ?_ _
        rfl
  | liveChatResolved request liveChatId =>
    rw [YouTubeChannel.step]
    split_ifs
    · unfold onLiveChatId
      split_ifs <;>
      · refine h.congr ?_ _
        rfl
    · exact h.congr rfl []

theorem run_concat (target : Target) (reached : List Event) (event : Event) :
    run target (reached ++ [event]) = (run target reached).step target event := List.foldl_append

theorem isStopped_concat (reached : List Event) (event : Event) :
    isStopped (reached ++ [event]) = nowStopped (isStopped reached) event := List.foldl_append

theorem tokens_concat (reached : List Event) (event : Event) :
    tokens (reached ++ [event]) = tokens reached ++ event.token.toList := by
  rw [tokens, List.filterMap_append]
  cases hToken : event.token <;> simp [hToken, tokens]

theorem tracked_of_inOrder {events : List Event} (h : AllSteps (step target) InOrder {} events) :
    Tracked (run target events) (isStopped events) ∧ Fresh (run target events) (tokens events) := by
  induction events using List.reverseRecOn with
  | nil =>
    refine ⟨⟨.of_polls_eq_nil rfl, by rintro ⟨⟩, fun _ _ => ⟨rfl, rfl, rfl, rfl⟩⟩, ⟨List.nil_subperm, ?_⟩⟩
    rintro (hPolls | hTimer)
    · exact absurd rfl hPolls
    · exact absurd rfl hTimer
  | append_singleton reached event ih =>
    obtain ⟨hReached, hOrder, -⟩ := AllSteps.append_iff.mp h
    obtain ⟨hTracked, hFresh⟩ := ih hReached
    rw [run_concat, isStopped_concat, tokens_concat]
    exact ⟨hTracked.step hOrder, hFresh.step hTracked hOrder⟩

theorem inOrder_of_lawful {events : List Event}
    (h : ∀ reached event, reached ++ [event] <+: events →
      Lawful target (run target reached) (isStopped reached) event) :
    AllSteps (step target) InOrder {} events := by
  induction events using List.reverseRecOn with
  | nil => trivial
  | append_singleton reached event ih =>
    have hReached := ih fun earlier next hPrefix => h earlier next (hPrefix.trans (List.prefix_append _ _))
    have hTracked := (tracked_of_inOrder hReached).1
    refine AllSteps.append_iff.mpr ⟨hReached, ?_, trivial⟩
    exact (hTracked.lawful_iff event).mp (h reached event List.prefix_rfl)

theorem Fresh.nodup (h : Fresh channel given) (hGiven : given.Nodup) : channel.added.Nodup := by
  obtain ⟨used, hPerm, hSublist⟩ := h.added
  exact hPerm.nodup_iff.mp (hSublist.nodup hGiven)

/-- There is one chain of polls, it adds nothing twice, and it stops with the channel, exactly as long as the answers
come in order. -/
theorem oneChain_iff (target : Target) (events : List Event) :
    (∀ reached, reached <+: events → OneChain (run target reached) ∧
      ((tokens reached).Nodup → (run target reached).added.Nodup)) ∧
    (∀ reached event, reached ++ [event] <+: events → isStopped reached = true → event.isCompletion = true →
      Silent (run target reached) ((run target reached).step target event)) ↔
    AllSteps (step target) InOrder {} events := by
  constructor
  · rintro ⟨hChain, hSilent⟩
    apply inOrder_of_lawful
    intro reached event hPrefix
    refine ⟨?_, hSilent reached event hPrefix⟩
    rw [← run_concat]
    exact (hChain _ hPrefix).1
  · intro h
    constructor
    · intro reached hPrefix
      obtain ⟨hTracked, hFresh⟩ := tracked_of_inOrder (h.of_isPrefix hPrefix)
      exact ⟨hTracked.chain, hFresh.nodup⟩
    · intro reached event hPrefix
      obtain ⟨hReached, hOrder, -⟩ := AllSteps.append_iff.mp (h.of_isPrefix hPrefix)
      exact (((tracked_of_inOrder hReached).1.lawful_iff event).mpr hOrder).2

/-- A session that is opened next to the poll of the last one leaves two polls in flight. -/
theorem not_oneChain_of_reconnect : ¬∀ target events, OneChain (run target events) := by
  intro hAll
  have hChain := hAll ⟨true, none⟩ [.connect, .videoResolved (some ⟨[1], by decide⟩),
    .sessionOpened [1] (some ⟨[2], [3], by decide, by decide⟩), .reconnect,
    .videoResolved (some ⟨[1], by decide⟩), .sessionOpened [1] (some ⟨[2], [4], by decide, by decide⟩)]
  exact absurd hChain.single (by decide)

end YouTubeChannel

end Chatterino.YouTube
