import Chatterino.Lib.ListSearch
import Chatterino.Lib.Signals
import Chatterino.Messages.Message

/-! # Merged channels

A merged channel shows the messages of several source channels. Channels are compared as pointers, and what is read of
one is a parameter. The steady clock counts nanoseconds. Of a call are returned the messages handed to addMessage, the
texts handed to addSystemMessage and the channels a text is sent to.
-/

namespace Chatterino

open Lib

inductive ChannelType where
  | None | Direct | Twitch | TwitchWhispers | TwitchWatching | TwitchMentions | TwitchLive
  | TwitchAutomod | TwitchEnd | Kick | YouTube | Merged | Misc
deriving DecidableEq, Repr

inductive PlatformSelection where
  | Both | TwitchOnly | KickOnly | YouTubeOnly
deriving DecidableEq, Repr

structure PendingSentMessage where
  messageText : QString
  sentTime : Int
  receivedFromPlatforms : Nat := 0
deriving DecidableEq, Repr

structure MergedChannel (ChannelPtr Holder : Type) where
  sourceChannels_ : List ChannelPtr
  platformSelection_ : PlatformSelection := .Both
  pendingSentMessages_ : List PendingSentMessage := []
  signalHolder_ : Holder

namespace MergedChannel

variable {ChannelPtr Holder : Type} (getType : ChannelPtr → ChannelType)

section sources

variable [DecidableEq ChannelPtr] [SignalHolder Holder ChannelPtr ChannelType]

def subscribeToChannel (signalHolder_ : Holder) (channel : ChannelPtr) : Holder :=
  SignalHolder.managedConnect signalHolder_ channel (getType channel)

def create (sourceChannels : List ChannelPtr) : MergedChannel ChannelPtr Holder where
  sourceChannels_ := sourceChannels
  signalHolder_ := sourceChannels.foldl (subscribeToChannel getType) SignalHolder.empty

def addSourceChannel (m : MergedChannel ChannelPtr Holder) (channel : ChannelPtr) :
    MergedChannel ChannelPtr Holder :=
  if channel ∈ m.sourceChannels_ then m
  else
    { m with
      sourceChannels_ := m.sourceChannels_ ++ [channel]
      signalHolder_ := subscribeToChannel getType m.signalHolder_ channel }

def removeSourceChannel (m : MergedChannel ChannelPtr Holder) (channel : ChannelPtr) :
    MergedChannel ChannelPtr Holder :=
  { m with sourceChannels_ := m.sourceChannels_.erase channel }

def unmerge (m : MergedChannel ChannelPtr Holder) :
    MergedChannel ChannelPtr Holder × List ChannelPtr :=
  ({ m with sourceChannels_ := [], signalHolder_ := SignalHolder.clear m.signalHolder_ },
    m.sourceChannels_)

end sources

def hasPlatform (m : MergedChannel ChannelPtr Holder) (type : ChannelType) : Bool :=
  m.sourceChannels_.any fun channel => getType channel == type

def matchesPlatform (selection : PlatformSelection) (type : ChannelType) : Bool :=
  match selection with
  | .Both => true
  | .TwitchOnly => type == .Twitch
  | .KickOnly => type == .Kick
  | .YouTubeOnly => type == .YouTube

def platformDisplayName : ChannelType → QString
  | .Twitch => .lit "Twitch"
  | .Kick => .lit "Kick"
  | .YouTube => .lit "YouTube"
  | _ => .lit "Unknown"

def canSendMessage (m : MergedChannel ChannelPtr Holder) (canSend : ChannelPtr → Bool) : Bool :=
  m.sourceChannels_.any fun channel =>
    matchesPlatform m.platformSelection_ (getType channel) && canSend channel

structure SendResult (ChannelPtr : Type) where
  deliveredTo : List ChannelPtr
  systemMessages : List QString
deriving DecidableEq, Repr

def secondsBetween (sentTime now : Int) : Int := (now - sentTime).tdiv 1000000000

/-- `sentTime` and `now` are the two readings of the clock, in this order. -/
def sendMessage (m : MergedChannel ChannelPtr Holder) (canSend : ChannelPtr → Bool)
    (message : QString) (sentTime now : Int) :
    MergedChannel ChannelPtr Holder × SendResult ChannelPtr :=
  if canSendMessage getType m canSend then
    let selected := m.sourceChannels_.filter fun channel =>
      matchesPlatform m.platformSelection_ (getType channel)
    let deliveredTo := selected.filter canSend
    let errors := (selected.filter fun channel => !canSend channel).map fun channel =>
      platformDisplayName (getType channel) ++ .lit ": " ++ .lit "Not authenticated"
    let pending : PendingSentMessage := { messageText := message, sentTime := sentTime }
    let pendingSentMessages_ :=
      if deliveredTo.length > 1 then
        (m.pendingSentMessages_ ++ [pending]).filter
          fun msg => !decide (secondsBetween msg.sentTime now > 10)
      else m.pendingSentMessages_
    ({ m with pendingSentMessages_ := pendingSentMessages_ }, ⟨deliveredTo, errors⟩)
  else
    (m, ⟨[], [.lit "Cannot send message. Please ensure you are logged in to the selected platform(s)."]⟩)

def makeBadge (isNull : QString → Bool) (path : String) (emote : Emote) : Option Emote :=
  if isNull (.lit path) then none else some emote

def makePlatformBadge (isNull : QString → Bool) : ChannelType → Option Emote
  | .Twitch => makeBadge isNull ":/platforms/twitch.png"
      ⟨.lit "[Twitch]", .lit "Message from Twitch", .lit "https://www.twitch.tv"⟩
  | .Kick => makeBadge isNull ":/platforms/kick.png"
      ⟨.lit "[Kick]", .lit "Message from Kick", .lit "https://kick.com"⟩
  | .YouTube => makeBadge isNull ":/platforms/youtube.png"
      ⟨.lit "[YouTube]", .lit "Message from YouTube", .lit "https://www.youtube.com"⟩
  | _ => none

def makeBothPlatformBadge (isNull : QString → Bool) (includesYouTube : Bool) : Option Emote :=
  if includesYouTube then
    makeBadge isNull ":/platforms/allplatforms.png"
      ⟨.lit "[All]", .lit "Message sent to every merged platform", []⟩
  else
    makeBadge isNull ":/platforms/twick.png"
      ⟨.lit "[Both]", .lit "Message sent to both Twitch and Kick", []⟩

/-- The badge goes behind the first timestamp, or to the front if there is none. -/
def insertBadge (elements : List MessageElement) (badge : Option Emote) : List MessageElement :=
  match badge with
  | none => elements
  | some emote =>
    let badgeElement := MessageElement.badge emote {.BadgePlatform}
    match elements.findIdx? fun element => element.getFlags.has .Timestamp with
    | some i => elements.insertIdx (i + 1) badgeElement
    | none => badgeElement :: elements

def platformFlag : ChannelType → Option MessageFlag
  | .Twitch => some .Twitch
  | .Kick => some .Kick
  | .YouTube => some .YouTube
  | _ => none

/-- The clone shown for a message of one source. -/
def normalClone (isNull : QString → Bool) (message : Message) (sourceType : ChannelType) : Message :=
  let cloned := message.clone
  { cloned with
    flags := match platformFlag sourceType with
      | some flag => cloned.flags.set flag
      | none => cloned.flags
    elements := insertBadge cloned.elements (makePlatformBadge isNull sourceType) }

def bothClone (isNull : QString → Bool) (message : Message) (includesYouTube : Bool) : Message :=
  let cloned := message.clone
  let flags := (cloned.flags.set .Twitch).set .Kick
  { cloned with
    flags := if includesYouTube then flags.set .YouTube else flags
    elements := insertBadge cloned.elements (makeBothPlatformBadge isNull includesYouTube) }

def isEchoOf (messageText : QString) (now : Int) (pending : PendingSentMessage) : Bool :=
  decide (secondsBetween pending.sentTime now ≤ 10) && messageText == pending.messageText

def onSourceMessageReceived (isNull : QString → Bool) (m : MergedChannel ChannelPtr Holder)
    (message : Message) (sourceType : ChannelType) (now : Int) :
    MergedChannel ChannelPtr Holder × List Message :=
  match m.pendingSentMessages_.findIdx? (isEchoOf message.messageText now) with
  | some i =>
    let pendingSentMessages_ := m.pendingSentMessages_.modify i fun pending =>
      { pending with receivedFromPlatforms := pending.receivedFromPlatforms + 1 }
    let first := pendingSentMessages_[i]?.any fun pending => pending.receivedFromPlatforms == 1
    ({ m with pendingSentMessages_ := pendingSentMessages_ },
      if first then [bothClone isNull message (hasPlatform getType m .YouTube)] else [])
  | none => (m, [normalClone isNull message sourceType])

theorem onSourceMessageReceived_of_no_echo {isNull : QString → Bool}
    {m : MergedChannel ChannelPtr Holder} {message : Message} {now : Int} (sourceType : ChannelType)
    (h : ∀ pending ∈ m.pendingSentMessages_, isEchoOf message.messageText now pending = false) :
    onSourceMessageReceived getType isNull m message sourceType now =
      (m, [normalClone isNull message sourceType]) := by
  have hFind : m.pendingSentMessages_.findIdx? (isEchoOf message.messageText now) = none := by
    simpa [List.findIdx?_eq_none_iff] using h
  rw [onSourceMessageReceived, hFind]

theorem onSourceMessageReceived_of_first_echo {isNull : QString → Bool}
    {m : MergedChannel ChannelPtr Holder} {message : Message} {now : Int} (sourceType : ChannelType)
    {front back : List PendingSentMessage} {pending : PendingSentMessage}
    (hSplit : m.pendingSentMessages_ = front ++ pending :: back)
    (hFront : ∀ other ∈ front, isEchoOf message.messageText now other = false)
    (hEcho : isEchoOf message.messageText now pending = true) :
    onSourceMessageReceived getType isNull m message sourceType now =
      ({ m with
          pendingSentMessages_ := front ++
            { pending with receivedFromPlatforms := pending.receivedFromPlatforms + 1 } :: back },
        if pending.receivedFromPlatforms = 0 then
          [bothClone isNull message (hasPlatform getType m .YouTube)] else []) := by
  have hFind : m.pendingSentMessages_.findIdx? (isEchoOf message.messageText now) =
      some front.length := by
    have hNone : front.findIdx? (isEchoOf message.messageText now) = none := by
      simpa [List.findIdx?_eq_none_iff] using hFront
    rw [hSplit, List.findIdx?_append, hNone, List.findIdx?_cons, hEcho]
    simp
  simp only [onSourceMessageReceived, hFind]
  simp [hSplit, modify_append_cons]

/-- A source channel invokes its messageAppended signal: every connected callback runs. -/
def messageAppended [SignalHolder Holder ChannelPtr ChannelType] (isNull : QString → Bool)
    (m : MergedChannel ChannelPtr Holder) (channel : ChannelPtr) (message : Message) (now : Int) :
    MergedChannel ChannelPtr Holder × List Message :=
  (SignalHolder.callbacks m.signalHolder_ channel).foldl
    (fun (st : MergedChannel ChannelPtr Holder × List Message) sourceType =>
      let (m, added) := onSourceMessageReceived getType isNull st.1 message sourceType now
      (m, st.2 ++ added))
    (m, [])

end MergedChannel

end Chatterino

namespace Chatterino.MergedChannel

open Lib

variable {ChannelPtr Holder : Type} [DecidableEq ChannelPtr]
  [SignalHolder Holder ChannelPtr ChannelType] (getType : ChannelPtr → ChannelType)
  (isNull : QString → Bool)

inductive SourceEvent (ChannelPtr : Type) where
  | addSourceChannel (channel : ChannelPtr)
  | removeSourceChannel (channel : ChannelPtr)
  | unmerge
  | messageAppended (channel : ChannelPtr) (message : Message) (now : Int)

def sourceStep (m : MergedChannel ChannelPtr Holder) :
    SourceEvent ChannelPtr → MergedChannel ChannelPtr Holder
  | .addSourceChannel channel => addSourceChannel getType m channel
  | .removeSourceChannel channel => removeSourceChannel m channel
  | .unmerge => (unmerge m).1
  | .messageAppended channel message now => (messageAppended getType isNull m channel message now).1

variable (Holder) in
def sourceRun (sources : List ChannelPtr) (events : List (SourceEvent ChannelPtr)) :
    MergedChannel ChannelPtr Holder :=
  events.foldl (sourceStep getType isNull) (create getType sources)

variable (Holder) in
def RemovedSinceUnmerge (sources : List ChannelPtr) (events : List (SourceEvent ChannelPtr))
    (channel : ChannelPtr) : Prop :=
  ∃ before after, events = before ++ .removeSourceChannel channel :: after ∧
    channel ∈ (sourceRun Holder getType isNull sources before).sourceChannels_ ∧ .unmerge ∉ after

/-- `stale` counts the connections of a channel that its place in the source list does not
account for. -/
structure Connected (m : MergedChannel ChannelPtr Holder) (stale : ChannelPtr → Nat) : Prop where
  nodup : m.sourceChannels_.Nodup
  pending : m.pendingSentMessages_ = []
  callbacks : ∀ channel, SignalHolder.callbacks m.signalHolder_ channel =
    List.replicate ((if channel ∈ m.sourceChannels_ then 1 else 0) + stale channel) (getType channel)

variable {getType isNull}

theorem callbacks_subscribeToChannel (holder : Holder) (channel other : ChannelPtr) {n : Nat}
    (h : SignalHolder.callbacks holder other = List.replicate n (getType other)) :
    SignalHolder.callbacks (subscribeToChannel getType holder channel) other =
      List.replicate ((if other = channel then 1 else 0) + n) (getType other) := by
  unfold subscribeToChannel
  split
  · rename_i hEq
    subst hEq
    have hPerm := SignalHolder.callbacks_managedConnect holder other (getType other)
    rw [h, ← List.replicate_succ] at hPerm
    rw [List.perm_replicate.mp hPerm, Nat.add_comm]
  · rename_i hNe
    rw [SignalHolder.callbacks_managedConnect_of_ne holder _ hNe, h, Nat.zero_add]

theorem callbacks_foldl_subscribe {holder : Holder} {sources : List ChannelPtr}
    (hNodup : sources.Nodup) (channel : ChannelPtr) {n : Nat}
    (h : SignalHolder.callbacks holder channel = List.replicate n (getType channel)) :
    SignalHolder.callbacks (sources.foldl (subscribeToChannel getType) holder) channel =
      List.replicate ((if channel ∈ sources then 1 else 0) + n) (getType channel) := by
  induction sources generalizing holder n with
  | nil => simpa using h
  | cons first sources ih =>
    obtain ⟨hFirst, hNodup⟩ := List.nodup_cons.mp hNodup
    rw [List.foldl_cons, ih hNodup (callbacks_subscribeToChannel holder first channel h)]
    congr 1
    by_cases hEq : channel = first
    · subst hEq
      simp [hFirst]
    · simp [hEq]

variable (Holder getType) in
theorem Connected.create {sources : List ChannelPtr} (hNodup : sources.Nodup) :
    Connected getType (create getType sources : MergedChannel ChannelPtr Holder) fun _ => 0 where
  nodup := hNodup
  pending := rfl
  callbacks channel := callbacks_foldl_subscribe hNodup channel (SignalHolder.callbacks_empty channel)

theorem messageAppended_of_connected {m : MergedChannel ChannelPtr Holder}
    {stale : ChannelPtr → Nat} (h : Connected getType m stale) (channel : ChannelPtr)
    (message : Message) (now : Int) :
    messageAppended getType isNull m channel message now =
      (m, List.replicate ((if channel ∈ m.sourceChannels_ then 1 else 0) + stale channel)
        (normalClone isNull message (getType channel))) := by
  have hReceive : onSourceMessageReceived getType isNull m message (getType channel) now =
      (m, [normalClone isNull message (getType channel)]) := by
    simp [onSourceMessageReceived, h.pending]
  have hFold (n : Nat) (shown : List Message) :
      (List.replicate n (getType channel)).foldl
        (fun (st : MergedChannel ChannelPtr Holder × List Message) sourceType =>
          let received := onSourceMessageReceived getType isNull st.1 message sourceType now
          (received.1, st.2 ++ received.2)) (m, shown) =
        (m, shown ++ List.replicate n (normalClone isNull message (getType channel))) := by
    induction n generalizing shown with
    | zero => simp
    | succ n ih =>
      rw [List.replicate_succ, List.foldl_cons, hReceive, ih, List.append_assoc, List.replicate_succ,
        List.singleton_append]
  rw [messageAppended, h.callbacks channel]
  exact hFold _ []

theorem Connected.addSourceChannel {m : MergedChannel ChannelPtr Holder} {stale : ChannelPtr → Nat}
    (h : Connected getType m stale) (channel : ChannelPtr) :
    Connected getType (addSourceChannel getType m channel) stale := by
  unfold MergedChannel.addSourceChannel
  split
  · exact h
  · rename_i hNew
    refine ⟨List.nodup_append.mpr ⟨h.nodup, List.nodup_singleton _, ?_⟩, h.pending, fun other => ?_⟩
    · rintro other hOther _ hMem rfl
      exact hNew (List.mem_singleton.mp hMem ▸ hOther)
    · rw [callbacks_subscribeToChannel _ channel other (h.callbacks other)]
      congr 1
      by_cases hEq : other = channel
      · subst hEq
        simp [hNew]
      · simp [hEq]

theorem Connected.removeSourceChannel {m : MergedChannel ChannelPtr Holder}
    {stale : ChannelPtr → Nat} (h : Connected getType m stale) (channel : ChannelPtr) :
    Connected getType (removeSourceChannel m channel) fun other =>
      stale other + if other = channel ∧ channel ∈ m.sourceChannels_ then 1 else 0 := by
  refine ⟨h.nodup.erase _, h.pending, fun other => ?_⟩
  change SignalHolder.callbacks m.signalHolder_ other = _
  rw [h.callbacks other]
  congr 1
  simp only [MergedChannel.removeSourceChannel, h.nodup.mem_erase_iff]
  by_cases hEq : other = channel
  · subst hEq
    simp [Nat.add_comm]
  · simp [hEq]

theorem Connected.unmerge {m : MergedChannel ChannelPtr Holder} {stale : ChannelPtr → Nat}
    (h : Connected getType m stale) : Connected getType (unmerge m).1 fun _ => 0 :=
  ⟨List.nodup_nil, h.pending, fun channel => by
    simpa [MergedChannel.unmerge] using SignalHolder.callbacks_clear m.signalHolder_ channel⟩

variable (Holder) in
theorem removedSinceUnmerge_concat (sources : List ChannelPtr)
    (events : List (SourceEvent ChannelPtr)) (event : SourceEvent ChannelPtr)
    (channel : ChannelPtr) :
    RemovedSinceUnmerge Holder getType isNull sources (events ++ [event]) channel ↔
      (event = .removeSourceChannel channel ∧
        channel ∈ (sourceRun Holder getType isNull sources events).sourceChannels_) ∨
      (event ≠ .unmerge ∧ RemovedSinceUnmerge Holder getType isNull sources events channel) := by
  constructor
  · rintro ⟨before, after, hSplit, hMem, hAfter⟩
    rcases List.eq_nil_or_concat after with rfl | ⟨after, last, rfl⟩
    · obtain ⟨rfl, hEvent⟩ := List.append_inj' hSplit rfl
      exact Or.inl ⟨by simpa using hEvent, hMem⟩
    · rw [List.concat_eq_append] at hSplit hAfter
      rw [← List.cons_append, ← List.append_assoc] at hSplit
      obtain ⟨rfl, hEvent⟩ := List.append_inj' hSplit rfl
      obtain rfl : event = last := by simpa using hEvent
      rw [List.mem_append, not_or] at hAfter
      exact Or.inr ⟨fun hEq => hAfter.2 (by simp [hEq]), before, after, rfl, hMem, hAfter.1⟩
  · rintro (⟨rfl, hMem⟩ | ⟨hEvent, before, after, rfl, hMem, hAfter⟩)
    · exact ⟨events, [], rfl, hMem, by simp⟩
    · refine ⟨before, after ++ [event], by simp, hMem, ?_⟩
      simp [hAfter, Ne.symm hEvent]

variable (Holder getType isNull) in
theorem connected_sourceRun {sources : List ChannelPtr} (hNodup : sources.Nodup)
    (events : List (SourceEvent ChannelPtr)) :
    ∃ stale, Connected getType (sourceRun Holder getType isNull sources events) stale ∧
      ∀ channel, 0 < stale channel ↔
        RemovedSinceUnmerge Holder getType isNull sources events channel := by
  induction events using List.reverseRecOn with
  | nil =>
    refine ⟨fun _ => 0, Connected.create Holder getType hNodup, fun channel => ?_⟩
    simp [RemovedSinceUnmerge]
  | append_singleton events event ih =>
    obtain ⟨stale, h, hStale⟩ := ih
    have hRun : sourceRun Holder getType isNull sources (events ++ [event]) =
        sourceStep getType isNull (sourceRun Holder getType isNull sources events) event := by
      simp [sourceRun]
    simp only [hRun, removedSinceUnmerge_concat, ← hStale]
    cases event with
    | addSourceChannel channel => exact ⟨stale, h.addSourceChannel channel, by simp⟩
    | removeSourceChannel channel =>
      refine ⟨_, h.removeSourceChannel channel, fun other => ?_⟩
      by_cases hEq : other = channel
      · subst hEq
        by_cases hMem : other ∈ (sourceRun Holder getType isNull sources events).sourceChannels_ <;>
          simp [hMem]
      · simp [hEq, Ne.symm hEq]
    | unmerge => exact ⟨_, h.unmerge, by simp⟩
    | messageAppended channel message now =>
      refine ⟨stale, ?_, by simp⟩
      simpa [sourceStep, messageAppended_of_connected h] using h

variable (Holder getType isNull) in
/-- A message is shown as the source list says exactly when no removal of its channel took effect
since the last unmerge. -/
theorem messageAppended_exact_iff (sources : List ChannelPtr) (hNodup : sources.Nodup)
    (events : List (SourceEvent ChannelPtr)) (channel : ChannelPtr) (message : Message) (now : Int) :
    let m := sourceRun Holder getType isNull sources events
    (messageAppended getType isNull m channel message now).2 =
        (if channel ∈ m.sourceChannels_ then [normalClone isNull message (getType channel)] else []) ↔
      ¬RemovedSinceUnmerge Holder getType isNull sources events channel := by
  intro m
  obtain ⟨stale, h, hStale⟩ := connected_sourceRun Holder getType isNull hNodup events
  rw [messageAppended_of_connected h, ← hStale channel]
  constructor
  · intro hShown
    have hLength := congrArg List.length hShown
    simp only [List.length_replicate] at hLength
    split at hLength <;> simp at hLength <;> omega
  · intro hZero
    have hZero : stale channel = 0 := by omega
    split <;> simp_all

theorem messageAppended_exact_added :
    let getType : Nat → ChannelType := fun channel => if channel = 0 then .Twitch else .Kick
    let m := sourceRun (List (Nat × ChannelType)) getType (fun _ => false) [0] [.addSourceChannel 1]
    (messageAppended getType (fun _ => false) m 1 {} 0).2 =
      [normalClone (fun _ => false) {} .Kick] := by
  intro getType m
  refine (messageAppended_exact_iff (List (Nat × ChannelType)) getType (fun _ => false) [0] (by decide)
    [.addSourceChannel 1] 1 {} 0).mpr ?_
  rintro ⟨before, after, hSplit, -, -⟩
  have hMem : SourceEvent.removeSourceChannel 1 ∈ [SourceEvent.addSourceChannel 1] :=
    hSplit ▸ List.mem_append_right _ List.mem_cons_self
  simp at hMem

/-- A removed channel's message is still shown, and one added again is shown twice. -/
theorem messageAppended_counterexample :
    let getType : Nat → ChannelType := fun channel => if channel = 0 then .Twitch else .Kick
    let run := sourceRun (List (Nat × ChannelType)) getType (fun _ => false) [0, 1]
    let removed := run [.removeSourceChannel 1]
    let addedAgain := run [.removeSourceChannel 1, .addSourceChannel 1]
    let shown := normalClone (fun _ => false) {} .Kick
    1 ∉ removed.sourceChannels_ ∧
      (messageAppended getType (fun _ => false) removed 1 {} 0).2 = [shown] ∧
      1 ∈ addedAgain.sourceChannels_ ∧
      (messageAppended getType (fun _ => false) addedAgain 1 {} 0).2 = [shown, shown] := by
  decide

end Chatterino.MergedChannel
