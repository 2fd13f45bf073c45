import Chatterino.Channels.MergedChannel
import Chatterino.Lib.Run

/-! # Echoes of messages sent to several platforms

A run interleaves sends, their echoes and messages of other users. An echo is recognised by its
text and its age alone, so the runs in which every message is shown once are those in which no
message meets the pending text of another send.
-/

namespace Chatterino.MergedChannel

open Lib

variable {ChannelPtr Holder : Type} [SignalHolder Holder ChannelPtr ChannelType]
  (getType : ChannelPtr → ChannelType) (isNull : QString → Bool)

/-- A message sent to several platforms: the channels its echo has arrived from, and how many
messages were shown for these echoes. -/
structure OwnSend (ChannelPtr : Type) where
  text : QString
  sentTime : Int
  deliveredTo : List ChannelPtr
  echoedBy : List ChannelPtr := []
  shown : Nat := 0

/-- A merged channel with what was sent through it, and how many messages were shown for each one of another user. -/
structure EchoWorld (ChannelPtr Holder : Type) where
  channel : MergedChannel ChannelPtr Holder
  clock : Int
  sends : List (OwnSend ChannelPtr)
  foreignShown : List Nat

inductive EchoEvent (ChannelPtr : Type) where
  | sendMessage (canSend : ChannelPtr → Bool) (text : QString) (sentTime now : Int)
  | echo (send : Nat) (source : ChannelPtr) (message : Message) (now : Int)
  | foreign (source : ChannelPtr) (message : Message) (now : Int)

def OwnSend.echo (send : OwnSend ChannelPtr) (source : ChannelPtr) (shown : Nat) :
    OwnSend ChannelPtr :=
  { send with echoedBy := send.echoedBy ++ [source], shown := send.shown + shown }

def echoStep (w : EchoWorld ChannelPtr Holder) :
    EchoEvent ChannelPtr → EchoWorld ChannelPtr Holder
  | .sendMessage canSend text sentTime now =>
    let (channel, result) := sendMessage getType w.channel canSend text sentTime now
    { w with
      channel := channel
      clock := now
      sends := w.sends ++
        [{ text := text, sentTime := sentTime, deliveredTo := result.deliveredTo }] }
  | .echo send source message now =>
    let (channel, added) := messageAppended getType isNull w.channel source message now
    { w with
      channel := channel
      clock := now
      sends := w.sends.modify send fun s => s.echo source added.length }
  | .foreign source message now =>
    let (channel, added) := messageAppended getType isNull w.channel source message now
    { w with
      channel := channel
      clock := now
      foreignShown := w.foreignShown ++ [added.length] }

variable (Holder) in
def echoStart (sources : List ChannelPtr) (clock : Int) : EchoWorld ChannelPtr Holder where
  channel := create getType sources
  clock := clock
  sends := []
  foreignShown := []

/-- Every send reaches at least two channels, each echoes it at most once and within ten seconds, and the clock does
not go back. -/
def Plausible (w : EchoWorld ChannelPtr Holder) : EchoEvent ChannelPtr → Prop
  | .sendMessage canSend text sentTime now => w.clock ≤ sentTime ∧ sentTime ≤ now ∧
    2 ≤ (sendMessage getType w.channel canSend text sentTime now).2.deliveredTo.length
  | .echo send source message now => w.clock ≤ now ∧ ∃ s ∈ w.sends[send]?,
    source ∈ s.deliveredTo ∧ source ∉ s.echoedBy ∧ message.messageText = s.text ∧
    now - s.sentTime ≤ 10 * 1000000000
  | .foreign source _ now => w.clock ≤ now ∧ source ∈ w.channel.sourceChannels_

/-- No message received meets a send of its text that is not its own and at most ten seconds old. -/
def Unambiguous (w : EchoWorld ChannelPtr Holder) : EchoEvent ChannelPtr → Prop
  | .sendMessage _ _ _ _ => True
  | .echo send _ message now => ∀ s ∈ w.sends.take send, s.text = message.messageText →
    10 < secondsBetween s.sentTime now
  | .foreign _ message now => ∀ s ∈ w.sends, s.text = message.messageText →
    10 < secondsBetween s.sentTime now

instance [DecidableEq ChannelPtr] : (w : EchoWorld ChannelPtr Holder) →
    (event : EchoEvent ChannelPtr) → Decidable (Plausible getType w event)
  | _, .sendMessage .. => inferInstanceAs (Decidable (_ ∧ _ ∧ _))
  | _, .echo .. => inferInstanceAs (Decidable (_ ∧ _))
  | _, .foreign .. => inferInstanceAs (Decidable (_ ∧ _))

instance : (w : EchoWorld ChannelPtr Holder) → (event : EchoEvent ChannelPtr) →
    Decidable (Unambiguous w event)
  | _, .sendMessage .. => isTrue trivial
  | w, .echo send .. => inferInstanceAs (Decidable (∀ s ∈ w.sends.take send, _))
  | w, .foreign .. => inferInstanceAs (Decidable (∀ s ∈ w.sends, _))

def ShownOnce (w : EchoWorld ChannelPtr Holder) : Prop :=
  (∀ s ∈ w.sends, s.shown = if s.echoedBy = [] then 0 else 1) ∧ ∀ shown ∈ w.foreignShown, shown = 1

def OwnSend.pending (s : OwnSend ChannelPtr) : PendingSentMessage :=
  ⟨s.text, s.sentTime, s.echoedBy.length⟩

def OwnSend.isKept (cleaned : Int) (s : OwnSend ChannelPtr) : Bool :=
  !decide (secondsBetween s.sentTime cleaned > 10)

structure Tracked (w : EchoWorld ChannelPtr Holder) (cleaned : Int) : Prop where
  cleaned_le : cleaned ≤ w.clock
  connected : ∀ channel ∈ w.channel.sourceChannels_,
    SignalHolder.callbacks w.channel.signalHolder_ channel = [getType channel]
  delivered : ∀ s ∈ w.sends, s.deliveredTo ⊆ w.channel.sourceChannels_
  pending : w.channel.pendingSentMessages_ =
    (w.sends.filter (OwnSend.isKept cleaned)).map OwnSend.pending

variable {getType isNull}

theorem messageAppended_of_callbacks {m : MergedChannel ChannelPtr Holder} {channel : ChannelPtr}
    (h : SignalHolder.callbacks m.signalHolder_ channel = [getType channel]) (message : Message)
    (now : Int) : messageAppended getType isNull m channel message now =
      onSourceMessageReceived getType isNull m message (getType channel) now := by
  simp [messageAppended, h]

theorem secondsBetween_mono (sentTime : Int) {now later : Int} (h : now ≤ later) :
    secondsBetween sentTime now ≤ secondsBetween sentTime later :=
  Int.tdiv_le_tdiv (by decide) (by omega)

theorem secondsBetween_le_of_sub_le {sentTime now : Int} (h : now - sentTime ≤ 10 * 1000000000) :
    secondsBetween sentTime now ≤ 10 :=
  (Int.tdiv_le_tdiv (by decide) h).trans (by decide)

theorem isKept_of_isKept {s : OwnSend ChannelPtr} {cleaned later : Int} (h : cleaned ≤ later)
    (hKept : s.isKept later = true) : s.isKept cleaned = true := by
  have hMono := secondsBetween_mono s.sentTime h
  simp only [OwnSend.isKept, Bool.not_eq_true', decide_eq_false_iff_not, not_lt] at hKept ⊢
  exact hMono.trans hKept

theorem isEchoOf_pending {s : OwnSend ChannelPtr} {text : QString} {now : Int} :
    isEchoOf text now s.pending = true ↔ secondsBetween s.sentTime now ≤ 10 ∧ text = s.text := by
  rw [isEchoOf, Bool.and_eq_true, decide_eq_true_iff, beq_iff_eq]
  rfl

theorem isEchoOf_eq_false_of_mem {sends : List (OwnSend ChannelPtr)} {text : QString}
    {now cleaned : Int}
    (h : ∀ s ∈ sends, s.text = text → 10 < secondsBetween s.sentTime now) :
    ∀ pending ∈ (sends.filter (OwnSend.isKept cleaned)).map OwnSend.pending,
      isEchoOf text now pending = false := by
  intro pending hPending
  obtain ⟨s, hs, rfl⟩ := List.mem_map.mp hPending
  rw [Bool.eq_false_iff, ne_eq, isEchoOf_pending]
  rintro ⟨hRecent, rfl⟩
  exact absurd hRecent (not_le.mpr (h s (List.mem_of_mem_filter hs) rfl))

omit [SignalHolder Holder ChannelPtr ChannelType] in
theorem sendMessage_of_delivered {m : MergedChannel ChannelPtr Holder}
    {canSend : ChannelPtr → Bool} {text : QString} {sentTime now : Int}
    (h : 2 ≤ (sendMessage getType m canSend text sentTime now).2.deliveredTo.length) :
    (sendMessage getType m canSend text sentTime now).1 =
        { m with
          pendingSentMessages_ := (m.pendingSentMessages_ ++
            [{ messageText := text, sentTime := sentTime : PendingSentMessage }]).filter
              fun msg => !decide (secondsBetween msg.sentTime now > 10) } ∧
      (sendMessage getType m canSend text sentTime now).2.deliveredTo ⊆ m.sourceChannels_ := by
  unfold sendMessage at h ⊢
  split at h
  · rename_i hCan
    rw [if_pos hCan]
    have hMany : 1 < (List.filter canSend (m.sourceChannels_.filter fun channel =>
      matchesPlatform m.platformSelection_ (getType channel))).length := h
    refine ⟨by simp only [hMany, if_true], ?_⟩
    exact fun c hc => List.mem_of_mem_filter (List.mem_of_mem_filter hc)
  · simp at h

theorem Tracked.sendMessage {w : EchoWorld ChannelPtr Holder} {cleaned : Int}
    (h : Tracked getType w cleaned) {canSend : ChannelPtr → Bool} {text : QString}
    {sentTime now : Int} (hPlausible : Plausible getType w (.sendMessage canSend text sentTime now)) :
    Tracked getType (echoStep getType isNull w (.sendMessage canSend text sentTime now)) now := by
  obtain ⟨hSent, hNow, hMany⟩ := hPlausible
  obtain ⟨hChannel, hDelivered⟩ := sendMessage_of_delivered hMany
  refine ⟨le_refl _, ?_, ?_, ?_⟩
  · simpa only [echoStep, hChannel] using h.connected
  · intro s hs
    simp only [echoStep, hChannel] at hs ⊢
    rcases List.mem_append.mp hs with hs | hs
    · exact h.delivered s hs
    · rw [List.mem_singleton.mp hs]
      exact hDelivered
  · simp only [echoStep, hChannel, h.pending, List.filter_append, List.map_append]
    congr 1
    swap
    · by_cases hOld : secondsBetween sentTime now > 10 <;> simp [hOld, OwnSend.isKept, OwnSend.pending]
    rw [List.filter_map, List.filter_filter]
    congr 1
    refine List.filter_congr fun s _ => ?_
    have hKept : s.isKept now = true → s.isKept cleaned = true :=
      isKept_of_isKept (h.cleaned_le.trans (hSent.trans hNow))
    change (s.isKept now && s.isKept cleaned) = s.isKept now
    cases hCase : s.isKept now <;> simp [hCase] at hKept ⊢
    exact hKept

variable (isNull) in
theorem Tracked.echo {w : EchoWorld ChannelPtr Holder} {cleaned : Int}
    (h : Tracked getType w cleaned) {send : Nat} {source : ChannelPtr} {message : Message} {now : Int}
    (hPlausible : Plausible getType w (.echo send source message now))
    (hOk : Unambiguous w (.echo send source message now)) :
    Tracked getType (echoStep getType isNull w (.echo send source message now)) cleaned ∧
      ∃ front s back, w.sends = front ++ s :: back ∧
        (echoStep getType isNull w (.echo send source message now)).sends =
          front ++ s.echo source (if s.echoedBy = [] then 1 else 0) :: back := by
  obtain ⟨hNow, s, hSend, hSource, -, hText, hRecent⟩ := hPlausible
  obtain ⟨hLt, hEq⟩ := List.getElem?_eq_some_iff.mp hSend
  have hSplit : w.sends = w.sends.take send ++ s :: w.sends.drop (send + 1) := by
    rw [← hEq, List.getElem_cons_drop, List.take_append_drop]
  have hLength : (w.sends.take send).length = send := by
    rw [List.length_take]
    omega
  have hMem : s ∈ w.sends := hEq ▸ List.getElem_mem hLt
  have hLive := secondsBetween_le_of_sub_le hRecent
  have hKept : s.isKept cleaned = true :=
    isKept_of_isKept (h.cleaned_le.trans hNow) (by simpa [OwnSend.isKept] using hLive)
  have hPending : w.channel.pendingSentMessages_ =
      ((w.sends.take send).filter (OwnSend.isKept cleaned)).map OwnSend.pending ++ s.pending ::
        ((w.sends.drop (send + 1)).filter (OwnSend.isKept cleaned)).map OwnSend.pending := by
    rw [h.pending]
    conv_lhs => rw [hSplit]
    rw [List.filter_append, List.filter_cons_of_pos hKept, List.map_append, List.map_cons]
  have hReceive : onSourceMessageReceived getType isNull w.channel message (getType source) now = _ :=
    onSourceMessageReceived_of_first_echo getType (getType source) hPending
      (isEchoOf_eq_false_of_mem hOk) (isEchoOf_pending.mpr ⟨hLive, hText⟩)
  have hAppended : messageAppended getType isNull w.channel source message now = _ :=
    messageAppended_of_callbacks (h.connected source (h.delivered s hMem hSource)) message now
  rw [hReceive] at hAppended
  have hAdded : (messageAppended getType isNull w.channel source message now).2.length =
      if s.echoedBy = [] then 1 else 0 := by
    rw [hAppended]
    simp only [OwnSend.pending, List.length_eq_zero_iff]
    split <;> rfl
  have hSends : (echoStep getType isNull w (.echo send source message now)).sends =
      w.sends.take send ++ s.echo source (if s.echoedBy = [] then 1 else 0) ::
        w.sends.drop (send + 1) := by
    have hModify := modify_append_cons (w.sends.take send) (w.sends.drop (send + 1)) s
      fun t => t.echo source (messageAppended getType isNull w.channel source message now).2.length
    rw [← hSplit, hLength, hAdded] at hModify
    rw [← hModify, ← hAdded]
    rfl
  refine ⟨⟨h.cleaned_le.trans hNow, ?_, ?_, ?_⟩, _, s, _, hSplit, hSends⟩
  · simpa only [echoStep, hAppended] using h.connected
  · intro t ht
    rw [hSends] at ht
    have hOld : ∃ old ∈ w.sends, t.deliveredTo = old.deliveredTo := by
      rcases List.mem_append.mp ht with ht | ht
      · exact ⟨t, List.mem_of_mem_take ht, rfl⟩
      · rcases List.mem_cons.mp ht with rfl | ht
        · exact ⟨s, hMem, rfl⟩
        · exact ⟨t, List.mem_of_mem_drop ht, rfl⟩
    obtain ⟨old, hOldMem, hDelivered⟩ := hOld
    rw [hDelivered]
    simpa only [echoStep, hAppended] using h.delivered old hOldMem
  · rw [hSends, List.filter_append, List.filter_cons_of_pos (by exact hKept), List.map_append,
      List.map_cons]
    simp only [echoStep, hAppended]
    simp [OwnSend.pending, OwnSend.echo]

variable (isNull) in
theorem Tracked.foreign {w : EchoWorld ChannelPtr Holder} {cleaned : Int}
    (h : Tracked getType w cleaned) {source : ChannelPtr} {message : Message} {now : Int}
    (hPlausible : Plausible getType w (.foreign source message now))
    (hOk : Unambiguous w (.foreign source message now)) :
    Tracked getType (echoStep getType isNull w (.foreign source message now)) cleaned ∧
      (echoStep getType isNull w (.foreign source message now)).foreignShown =
        w.foreignShown ++ [1] := by
  obtain ⟨hNow, hSource⟩ := hPlausible
  have hAppended : messageAppended getType isNull w.channel source message now =
      (w.channel, [normalClone isNull message (getType source)]) := by
    rw [messageAppended_of_callbacks (h.connected source hSource)]
    refine onSourceMessageReceived_of_no_echo getType _ ?_
    rw [h.pending]
    exact isEchoOf_eq_false_of_mem hOk
  refine ⟨⟨h.cleaned_le.trans hNow, ?_, ?_, ?_⟩, ?_⟩
  · simpa only [echoStep, hAppended] using h.connected
  · simpa only [echoStep, hAppended] using h.delivered
  · simpa only [echoStep, hAppended] using h.pending
  · simp only [echoStep, hAppended, List.length_singleton]

theorem shownOnce_step {w : EchoWorld ChannelPtr Holder} {event : EchoEvent ChannelPtr}
    (hPlausible : Plausible getType w event) (hOk : Unambiguous w event)
    (h : (∃ cleaned, Tracked getType w cleaned) ∧ ShownOnce w) :
    (∃ cleaned, Tracked getType (echoStep getType isNull w event) cleaned) ∧
      ShownOnce (echoStep getType isNull w event) := by
  obtain ⟨⟨cleaned, hTracked⟩, hSends, hForeign⟩ := h
  cases event with
  | sendMessage canSend text sentTime now =>
    refine ⟨⟨now, hTracked.sendMessage hPlausible⟩, ?_, hForeign⟩
    intro s hs
    rcases List.mem_append.mp hs with hs | hs
    · exact hSends s hs
    · rw [List.mem_singleton.mp hs]
      rfl
  | echo send source message now =>
    obtain ⟨hTracked', front, s, back, hSplit, hNew⟩ := hTracked.echo isNull hPlausible hOk
    refine ⟨⟨cleaned, hTracked'⟩, ?_, hForeign⟩
    intro t ht
    rw [hNew] at ht
    have hOld : ∀ old ∈ front ++ s :: back, old.shown = if old.echoedBy = [] then 0 else 1 :=
      hSplit ▸ hSends
    rcases List.mem_append.mp ht with ht | ht
    · exact hOld t (List.mem_append_left _ ht)
    · rcases List.mem_cons.mp ht with rfl | ht
      · have hShown := hOld s (List.mem_append_right _ List.mem_cons_self)
        simp only [OwnSend.echo, hShown]
        split <;> simp
      · exact hOld t (List.mem_append_right _ (List.mem_cons_of_mem _ ht))
  | foreign source message now =>
    obtain ⟨hTracked', hShown⟩ := hTracked.foreign isNull hPlausible hOk
    refine ⟨⟨cleaned, hTracked'⟩, hSends, ?_⟩
    rw [hShown]
    intro shown hMem
    rcases List.mem_append.mp hMem with hMem | hMem
    · exact hForeign shown hMem
    · exact List.mem_singleton.mp hMem

/-- In every state of a run in which no message meets the text of another send, every send is shown once, and so is
every message of another user. -/
theorem shownOnce_of_unambiguous [DecidableEq ChannelPtr] (sources : List ChannelPtr)
    (hNodup : sources.Nodup) (clock : Int) (events : List (EchoEvent ChannelPtr))
    (hPlausible : AllSteps (echoStep getType isNull) (Plausible getType)
      (echoStart Holder getType sources clock) events)
    (hOk : AllSteps (echoStep getType isNull) Unambiguous
      (echoStart Holder getType sources clock) events)
    (reached : List (EchoEvent ChannelPtr)) (hPrefix : reached <+: events) :
    ShownOnce (reached.foldl (echoStep getType isNull)
      (echoStart Holder getType sources clock)) := by
  have hStart : Tracked getType (echoStart Holder getType sources clock) clock := by
    refine ⟨le_refl _, fun channel hMem => ?_, by simp [echoStart], rfl⟩
    have hCallbacks := (Connected.create Holder getType hNodup).callbacks channel
    rwa [if_pos (show channel ∈ (create getType sources : MergedChannel _ Holder).sourceChannels_
      from hMem)] at hCallbacks
  have hShown : ShownOnce (echoStart Holder getType sources clock) := by
    simp [ShownOnce, echoStart]
  exact ((hPlausible.and hOk).invariant_reached hPrefix ⟨⟨clock, hStart⟩, hShown⟩
    fun w event h hStep => shownOnce_step hStep.1 hStep.2 h).2

def exampleType (channel : Nat) : ChannelType := if channel = 0 then .Twitch else .Kick

def exampleText (text : String) : Message := { messageText := .lit text }

theorem shownOnce_two_sends :
    ShownOnce (([.sendMessage (fun _ => true) (.lit "a") 0 0, .sendMessage (fun _ => true) (.lit "b") 1 1,
        .echo 1 0 (exampleText "b") 2, .foreign 0 (exampleText "c") 3, .echo 0 0 (exampleText "a") 4,
        .echo 1 1 (exampleText "b") 5] : List (EchoEvent Nat)).foldl
      (echoStep exampleType fun _ => false)
      (echoStart (List (Nat × ChannelType)) exampleType [0, 1] 0)) :=
  shownOnce_of_unambiguous [0, 1] (by decide) 0 _ (by decide) (by decide) _ (List.prefix_refl _)

theorem shownOnce_counterexample :
    let events : List (EchoEvent Nat) :=
      [.sendMessage (fun _ => true) (.lit "a") 0 0, .sendMessage (fun _ => true) (.lit "a") 1 1,
        .echo 0 0 (exampleText "a") 2, .echo 0 1 (exampleText "a") 3, .echo 1 0 (exampleText "a") 4,
        .echo 1 1 (exampleText "a") 5, .foreign 0 (exampleText "a") 6]
    let start := echoStart (List (Nat × ChannelType)) exampleType [0, 1] 0
    let w := events.foldl (echoStep exampleType fun _ => false) start
    AllSteps (echoStep exampleType fun _ => false) (Plausible exampleType) start events ∧
      w.sends.map OwnSend.shown = [1, 0] ∧ w.sends.map (fun s => s.echoedBy.length) = [2, 2] ∧
      w.foreignShown = [0] := by
  decide

end Chatterino.MergedChannel
