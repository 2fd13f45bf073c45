import Chatterino.YouTube.YouTubeChannel
import Chatterino.Lib.Run

/-! # The chat that a text is sent to

The id of the live chat is resolved once and kept. It stays right as long as the channel stays with
the video that it was resolved for.
-/

namespace Chatterino.YouTube

open Lib YouTubeConnectionState

namespace YouTubeChannel

variable {target : Target} {channel channel' : YouTubeChannel} {event : Event} {videoId : VideoId}

/-- The cached chat and the chats still to be resolved are those of the current video. -/
structure Linked (channel : YouTubeChannel) : Prop where
  cached : channel.liveChatId_ ≠ [] → channel.liveChatVideo = channel.videoId_
  requested : ∀ request ∈ channel.liveChatRequests, request.videoId = channel.videoId_

def SentRight (channel : YouTubeChannel) : Prop := ∀ sent ∈ channel.sent, sent.resolvedFor = sent.videoId

def KeepsVideo (channel : YouTubeChannel) : Event → Prop
  | .videoResolved (some videoId) => channel.resolutions ≠ 0 → channel.videoId_ ≠ videoId →
      channel.liveChatId_ = [] ∧ channel.liveChatRequests = []
  | _ => True

structure Known (target : Target) (channel : YouTubeChannel) : Prop where
  unknown : channel.videoId_ = [] → channel.liveChatId_ = [] ∧ channel.liveChatRequests = []
  pinned : ∀ videoId : VideoId, target.immediate = some (some videoId) →
    channel.videoId_ = [] ∨ channel.videoId_ = videoId
  immediate : target.immediate ≠ none → channel.resolutions = 0

def sending (channel : YouTubeChannel) :
    (QString × Nat) × QString × QString × List LiveChatRequest × List Sent :=
  ((channel.videoId_, channel.resolutions), channel.liveChatId_, channel.liveChatVideo,
    channel.liveChatRequests, channel.sent)

theorem sending_eq_iff : channel'.sending = channel.sending ↔
    (channel'.videoId_ = channel.videoId_ ∧ channel'.resolutions = channel.resolutions) ∧
      channel'.liveChatId_ = channel.liveChatId_ ∧ channel'.liveChatVideo = channel.liveChatVideo ∧
        channel'.liveChatRequests = channel.liveChatRequests ∧ channel'.sent = channel.sent := by
  simp only [sending, Prod.mk.injEq]

theorem linked_congr (h : channel'.sending = channel.sending) : Linked channel' ↔ Linked channel := by
  obtain ⟨⟨hVideo, -⟩, hCached, hFor, hRequests, -⟩ := sending_eq_iff.mp h
  constructor
  · rintro ⟨hLinked, hRequested⟩
    rw [hCached, hFor, hVideo] at hLinked
    rw [hRequests, hVideo] at hRequested
    exact ⟨hLinked, hRequested⟩
  · rintro ⟨hLinked, hRequested⟩
    rw [← hCached, ← hFor, ← hVideo] at hLinked
    rw [← hRequests, ← hVideo] at hRequested
    exact ⟨hLinked, hRequested⟩

theorem sentRight_congr (h : channel'.sending = channel.sending) : SentRight channel' ↔ SentRight channel := by
  unfold SentRight
  rw [(sending_eq_iff.mp h).2.2.2.2]

theorem Known.congr (hKnown : Known target channel) (h : channel'.sending = channel.sending) :
    Known target channel' := by
  obtain ⟨⟨hVideo, hResolutions⟩, hCached, -, hRequests, -⟩ := sending_eq_iff.mp h
  refine ⟨?_, ?_, ?_⟩
  · rw [hVideo, hCached, hRequests]
    exact hKnown.unknown
  · rw [hVideo]
    exact hKnown.pinned
  · rw [hResolutions]
    exact hKnown.immediate

theorem sending_scheduleRediscovery : (channel.scheduleRediscovery target).sending = channel.sending := by
  unfold scheduleRediscovery
  split_ifs <;> rfl

theorem sending_pollOnce : channel.pollOnce.sending = channel.sending := by
  unfold pollOnce
  split_ifs <;> rfl

theorem sending_onSession {videoId : QString} {answer : Option ChatPage} :
    (channel.onSession target videoId answer).sending = channel.sending := by
  cases answer with
  | none => exact sending_scheduleRediscovery
  | some page => exact sending_pollOnce

theorem sending_onPoll {continuation : QString} {poll : YouTubeChatPoll} :
    (channel.onPoll target continuation poll).sending = channel.sending := by
  unfold onPoll
  dsimp only
  split_ifs
  · exact sending_scheduleRediscovery
  · exact sending_scheduleRediscovery
  · rfl
  · rfl

theorem sending_resolveAndOpen (target : Target) (channel : YouTubeChannel) :
    target.immediate = none ∧ (channel.resolveAndOpen target).sending =
      { channel with resolutions := channel.resolutions + 1 }.sending ∨
    (channel.resolveAndOpen target).sending = channel.sending ∨
    ∃ videoId : VideoId, target.immediate = some (some videoId) ∧
      (channel.resolveAndOpen target).sending = { channel with videoId_ := videoId }.sending := by
  unfold resolveAndOpen
  rcases target.immediate with _ | answer
  · exact .inl ⟨rfl, rfl⟩
  rcases answer with _ | videoId
  · exact .inr (.inl sending_scheduleRediscovery)
  · exact .inr (.inr ⟨videoId, rfl, rfl⟩)

theorem Known.withVideo (h : Known target channel)
    (hPinned : ∀ other : VideoId, target.immediate = some (some other) → videoId = other) :
    Known target { channel with videoId_ := videoId } where
  unknown hEmpty := absurd hEmpty videoId.2
  pinned other hOther := .inr (congrArg Subtype.val (hPinned other hOther))
  immediate := h.immediate

theorem Known.resolveAndOpen (h : Known target channel) : Known target (channel.resolveAndOpen target) := by
  obtain ⟨hNone, hSending⟩ | hSending | ⟨videoId, hImmediate, hSending⟩ :=
    sending_resolveAndOpen target channel
  · have hAsked : Known target { channel with resolutions := channel.resolutions + 1 } :=
      ⟨h.unknown, h.pinned, fun hSome => absurd hNone hSome⟩
    exact hAsked.congr hSending
  · exact h.congr hSending
  · refine (h.withVideo fun other hOther => ?_).congr hSending
    exact Option.some.inj (Option.some.inj (hImmediate.symm.trans hOther))

theorem linked_withVideo_iff (h : Linked channel) : Linked { channel with videoId_ := videoId } ↔
    (channel.videoId_ ≠ videoId → channel.liveChatId_ = [] ∧ channel.liveChatRequests = []) := by
  constructor
  · rintro ⟨hCached, hRequested⟩ hMoved
    constructor
    · by_contra hSome
      exact hMoved ((h.cached hSome).symm.trans (hCached hSome))
    · apply List.eq_nil_iff_forall_not_mem.mpr
      intro request hMem
      exact hMoved ((h.requested request hMem).symm.trans (hRequested request hMem))
  · intro hKeeps
    by_cases hSame : channel.videoId_ = videoId
    · exact ⟨fun hSome => (h.cached hSome).trans hSame,
        fun request hMem => (h.requested request hMem).trans hSame⟩
    · obtain ⟨hCached, hRequests⟩ := hKeeps hSame
      refine ⟨fun hSome => absurd hCached hSome, fun request hMem => ?_⟩
      change request ∈ channel.liveChatRequests at hMem
      rw [hRequests] at hMem
      cases hMem

theorem Linked.resolveAndOpen (hKnown : Known target channel) (h : Linked channel) :
    Linked (channel.resolveAndOpen target) := by
  obtain ⟨-, hSending⟩ | hSending | ⟨videoId, hImmediate, hSending⟩ :=
    sending_resolveAndOpen target channel
  · exact (linked_congr hSending).mpr ⟨h.cached, h.requested⟩
  · exact (linked_congr hSending).mpr h
  · refine (linked_congr hSending).mpr ((linked_withVideo_iff h).mpr fun hMoved => ?_)
    exact hKnown.unknown ((hKnown.pinned videoId hImmediate).resolve_right hMoved)

theorem SentRight.resolveAndOpen (h : SentRight channel) : SentRight (channel.resolveAndOpen target) := by
  obtain ⟨-, hSending⟩ | hSending | ⟨videoId, -, hSending⟩ := sending_resolveAndOpen target channel
  · exact (sentRight_congr hSending).mpr h
  · exact (sentRight_congr hSending).mpr h
  · exact (sentRight_congr hSending).mpr h

theorem Linked.sendMessage (h : Linked channel) {text : QString} {signedIn : Bool} :
    Linked (channel.sendMessage text signedIn) := by
  unfold YouTubeChannel.sendMessage
  split_ifs
  · exact h
  · exact h
  · exact h
  · exact ⟨h.cached, h.requested⟩
  · refine ⟨h.cached, fun request hMem => ?_⟩
    rcases List.mem_cons.mp hMem with rfl | hOld
    · rfl
    · exact h.requested request hOld

theorem SentRight.sendMessage (hLinked : Linked channel) (h : SentRight channel) {text : QString}
    {signedIn : Bool} : SentRight (channel.sendMessage text signedIn) := by
  unfold YouTubeChannel.sendMessage
  split_ifs with _ _ _ hCached
  · exact h
  · exact h
  · exact h
  · intro sent hMem
    rcases List.mem_cons.mp hMem with rfl | hOld
    · exact hLinked.cached (by simpa using hCached)
    · exact h sent hOld
  · exact h

theorem Known.sendMessage (h : Known target channel) {text : QString} {signedIn : Bool} :
    Known target (channel.sendMessage text signedIn) := by
  unfold YouTubeChannel.sendMessage
  split_ifs with _ _ hVideo
  · exact h
  · exact h
  · exact h
  · exact ⟨h.unknown, h.pinned, h.immediate⟩
  · exact ⟨fun hEmpty => absurd (List.isEmpty_iff.mpr hEmpty) hVideo, h.pinned, h.immediate⟩

theorem onLiveChatId_cases (request : LiveChatRequest) (liveChatId : QString) (channel : YouTubeChannel) :
    liveChatId = [] ∧ channel.onLiveChatId request liveChatId = channel ∨
    liveChatId ≠ [] ∧ channel.onLiveChatId request liveChatId =
      { channel with
        liveChatId_ := liveChatId
        liveChatVideo := request.videoId
        sent := ⟨request.text, liveChatId, request.videoId, channel.videoId_⟩ :: channel.sent } := by
  unfold onLiveChatId
  split_ifs with hEmpty
  · exact .inl ⟨List.isEmpty_iff.mp hEmpty, rfl⟩
  · exact .inr ⟨fun h => hEmpty (List.isEmpty_iff.mpr h), rfl⟩

theorem Known.step (h : Known target channel) (event : Event) : Known target (channel.step target event) := by
  cases event with
  | connect =>
    rw [YouTubeChannel.step, connect]
    split_ifs
    · exact h
    · exact h.resolveAndOpen
  | disconnect => exact h.congr rfl
  | reconnect => exact Known.resolveAndOpen (h.congr rfl)
  | pollTimeout =>
    rw [YouTubeChannel.step]
    split_ifs
    · exact Known.congr (h.congr rfl) sending_pollOnce
    · exact h
  | rediscoverTimeout =>
    rw [YouTubeChannel.step]
    split_ifs
    · exact Known.resolveAndOpen (h.congr rfl)
    · exact h
  | videoResolved answer =>
    rw [YouTubeChannel.step]
    split_ifs with hNone
    · exact h
    have hRequest : target.immediate = none := by
      by_contra hSome
      exact hNone (h.immediate hSome)
    have hAnswered : Known target { channel with resolutions := channel.resolutions - 1 } :=
      ⟨h.unknown, h.pinned, fun hSome => absurd hRequest hSome⟩
    cases answer with
    | none => exact Known.congr (hAnswered.congr rfl) sending_scheduleRediscovery
    | some videoId =>
      have hMoved : Known target
          { channel with resolutions := channel.resolutions - 1, videoId_ := videoId } :=
        hAnswered.withVideo fun other hOther => by cases hRequest.symm.trans hOther
      exact hMoved.congr rfl
  | sessionOpened videoId answer =>
    rw [YouTubeChannel.step]
    split_ifs
    · exact Known.congr (h.congr rfl) sending_onSession
    · exact h
  | polled session poll =>
    rw [YouTubeChannel.step]
    split_ifs
    · exact Known.congr (h.congr rfl) sending_onPoll
    · exact h
  | sendMessage text signedIn => exact h.sendMessage
  | liveChatResolved request liveChatId =>
    rw [YouTubeChannel.step]
    split_ifs with hMem
    · have hVideo : channel.videoId_ ≠ [] := by
        intro hEmpty
        rw [(h.unknown hEmpty).2] at hMem
        cases hMem
      obtain ⟨-, hCallback⟩ | ⟨-, hCallback⟩ := onLiveChatId_cases request liveChatId
        { channel with liveChatRequests := channel.liveChatRequests.erase request }
      · rw [hCallback]
        exact ⟨fun hEmpty => absurd hEmpty hVideo, h.pinned, h.immediate⟩
      · rw [hCallback]
        exact ⟨fun hEmpty => absurd hEmpty hVideo, h.pinned, h.immediate⟩
    · exact h

theorem SentRight.step (hLinked : Linked channel) (h : SentRight channel) (event : Event) :
    SentRight (channel.step target event) := by
  cases event with
  | connect =>
    rw [YouTubeChannel.step, connect]
    split_ifs
    · exact h
    · exact h.resolveAndOpen
  | disconnect => exact h
  | reconnect => exact SentRight.resolveAndOpen h
  | pollTimeout =>
    rw [YouTubeChannel.step]
    split_ifs
    · exact (sentRight_congr sending_pollOnce).mpr h
    · exact h
  | rediscoverTimeout =>
    rw [YouTubeChannel.step]
    split_ifs
    · exact SentRight.resolveAndOpen h
    · exact h
  | videoResolved answer =>
    rw [YouTubeChannel.step]
    split_ifs
    · exact h
    cases answer with
    | none => exact (sentRight_congr sending_scheduleRediscovery).mpr h
    | some videoId => exact h
  | sessionOpened videoId answer =>
    rw [YouTubeChannel.step]
    split_ifs
    · exact (sentRight_congr sending_onSession).mpr h
    · exact h
  | polled session poll =>
    rw [YouTubeChannel.step]
    split_ifs
    · exact (sentRight_congr sending_onPoll).mpr h
    · exact h
  | sendMessage text signedIn => exact h.sendMessage hLinked
  | liveChatResolved request liveChatId =>
    rw [YouTubeChannel.step]
    split_ifs with hMem
    · obtain ⟨-, hCallback⟩ | ⟨-, hCallback⟩ := onLiveChatId_cases request liveChatId
        { channel with liveChatRequests := channel.liveChatRequests.erase request }
      · rw [hCallback]
        exact h
      · rw [hCallback]
        intro sent hSent
        rcases List.mem_cons.mp hSent with rfl | hOld
        · exact hLinked.requested request hMem
        · exact h sent hOld
    · exact h

theorem linked_step_iff (hKnown : Known target channel) (h : Linked channel) (event : Event) :
    Linked (channel.step target event) ↔ KeepsVideo channel event := by
  cases event with
  | connect =>
    refine iff_of_true ?_ trivial
    rw [step, connect]
    split_ifs
    · exact h
    · exact h.resolveAndOpen hKnown
  | disconnect => exact iff_of_true ⟨h.cached, h.requested⟩ trivial
  | reconnect =>
    exact iff_of_true (Linked.resolveAndOpen (hKnown.congr rfl) ⟨h.cached, h.requested⟩) trivial
  | pollTimeout =>
    refine iff_of_true ?_ trivial
    rw [step]
    split_ifs
    · exact (linked_congr sending_pollOnce).mpr ⟨h.cached, h.requested⟩
    · exact h
  | rediscoverTimeout =>
    refine iff_of_true ?_ trivial
    rw [step]
    split_ifs
    · exact Linked.resolveAndOpen (hKnown.congr rfl) ⟨h.cached, h.requested⟩
    · exact h
  | videoResolved answer =>
    rw [step]
    cases answer with
    | none =>
      refine iff_of_true ?_ trivial
      split_ifs
      · exact h
      · exact (linked_congr sending_scheduleRediscovery).mpr ⟨h.cached, h.requested⟩
    | some videoId =>
      split_ifs with hNone
      · exact iff_of_true h fun hPending => absurd hNone hPending
      · have hLinked : Linked { channel with resolutions := channel.resolutions - 1 } := ⟨h.cached, h.requested⟩
        have hSame : Linked ({ channel with resolutions := channel.resolutions - 1 }.onVideoId target
            (some videoId)) ↔ Linked { { channel with resolutions := channel.resolutions - 1 } with
              videoId_ := videoId } := linked_congr rfl
        refine hSame.trans ((linked_withVideo_iff hLinked).trans ?_)
        exact ⟨fun hKeeps _ => hKeeps, fun hKeeps => hKeeps hNone⟩
  | sessionOpened videoId answer =>
    refine iff_of_true ?_ trivial
    rw [step]
    split_ifs
    · exact (linked_congr sending_onSession).mpr ⟨h.cached, h.requested⟩
    · exact h
  | polled session poll =>
    refine iff_of_true ?_ trivial
    rw [step]
    split_ifs
    · exact (linked_congr sending_onPoll).mpr ⟨h.cached, h.requested⟩
    · exact h
  | sendMessage text signedIn => exact iff_of_true h.sendMessage trivial
  | liveChatResolved request liveChatId =>
    refine iff_of_true ?_ trivial
    rw [step]
    split_ifs with hMem
    · have hErased : ∀ other ∈ channel.liveChatRequests.erase request, other.videoId = channel.videoId_ :=
        fun other hOther => h.requested other (List.mem_of_mem_erase hOther)
      obtain ⟨-, hCallback⟩ | ⟨-, hCallback⟩ := onLiveChatId_cases request liveChatId
        { channel with liveChatRequests := channel.liveChatRequests.erase request }
      · rw [hCallback]
        exact ⟨h.cached, hErased⟩
      · rw [hCallback]
        exact ⟨fun _ => h.requested request hMem, hErased⟩
    · exact h

theorem forall_sentRight_iff (hKnown : Known target channel) :
    (∀ event, SentRight (channel.step target event)) ↔ Linked channel ∧ SentRight channel := by
  constructor
  · intro hAll
    refine ⟨⟨fun hCached => ?_, fun request hMem => ?_⟩, hAll .disconnect⟩
    · have hVideo : channel.videoId_ ≠ [] := fun hEmpty => hCached (hKnown.unknown hEmpty).1
      have hSent := hAll (.sendMessage [0x61] true)
      have hBlank : ¬(QString.trimmed [0x61]).isEmpty = true := by decide
      rw [step, sendMessage, if_neg hBlank, if_neg (by decide), if_neg (by simpa using hVideo),
        if_pos (by simpa using hCached)] at hSent
      exact hSent _ List.mem_cons_self
    · have hSent := hAll (.liveChatResolved request [0x61])
      rw [step, if_pos hMem] at hSent
      exact hSent _ List.mem_cons_self
  · rintro ⟨hLinked, hSent⟩ event
    exact hSent.step hLinked event

/-- Every text goes to the chat of the current video, whatever happens next, exactly as long as no
answer moves the channel to another video while a chat is cached or being resolved. -/
theorem sentRight_iff (target : Target) (events : List Event) :
    (∀ reached, reached <+: events → ∀ event, ∀ sent ∈ (run target (reached ++ [event])).sent,
      sent.resolvedFor = sent.videoId) ↔
    AllSteps (step target) KeepsVideo {} events := by
  have hSide : AllSteps (step target) (fun _ _ => True) {} events := .of_forall_mem fun _ _ _ => trivial
  have hStart : Known target {} := ⟨fun _ => ⟨rfl, rfl⟩, fun _ _ => .inl rfl, fun _ => rfl⟩
  have hRun := hSide.forall_reached_iff
    (fun channel => Known target channel ∧ Linked channel ∧ SentRight channel)
    ⟨hStart, ⟨fun hSome => absurd rfl hSome, by rintro _ ⟨⟩⟩, by rintro _ ⟨⟩⟩
    (fun channel event h _ => (and_iff_right (h.1.step event)).trans
      ((and_iff_left (h.2.2.step h.2.1 event)).trans (linked_step_iff h.1 h.2.1 event)))
  rw [← hRun]
  have hNext (reached : List Event) (event : Event) :
      run target (reached ++ [event]) = (run target reached).step target event := List.foldl_append
  have hKnown (reached : List Event) : Known target (run target reached) :=
    foldl_invariant reached hStart fun _ event h => h.step event
  refine forall_congr' fun reached => imp_congr_right fun _ => ?_
  refine Iff.trans ?_ ((forall_sentRight_iff (hKnown reached)).trans (and_iff_right (hKnown reached)).symm)
  exact forall_congr' fun event => by rw [hNext, SentRight]

/-- The next broadcast gets what is written to the chat of the last one. -/
theorem not_sentRight_of_rediscovered : ¬∀ target events, ∀ sent ∈ (run target events).sent,
    sent.resolvedFor = sent.videoId := by
  intro hAll
  have hSent := hAll ⟨true, none⟩ [.connect, .videoResolved (some ⟨[1], by decide⟩), .sendMessage [0x61] true,
    .liveChatResolved ⟨[1], [0x61]⟩ [3], .reconnect, .videoResolved (some ⟨[2], by decide⟩),
    .sendMessage [0x62] true] ⟨[0x62], [3], [1], [2]⟩ (by decide)
  cases hSent

end YouTubeChannel

end Chatterino.YouTube
