import Chatterino.Lib.Run
import Chatterino.Qt.QString
import Mathlib.Data.List.GetD

/-! # The pinned message of a channel

A pin or an update only says that there is something to fetch, and an unpin takes effect at once. The
server's pin is as of the events so far, and an answer has it as of some moment since its request.
-/

namespace Chatterino.Twitch

open Lib QString

structure TwitchPinnedMessage where
  pinId : QString
  messageId : QString := []
  text : QString
  authorName : QString := []
  authorLogin : QString := []
  authorColor : QString := []
  pinnerName : QString := []
  pinnedAt : Int := 0
  /-- None when the pin has no expiry. -/
  endsAt : Option Int := none
  deriving DecidableEq

namespace TwitchPinnedMessage

def Same (pin pin' : Option TwitchPinnedMessage) : Prop :=
  (pin.map fun p => (p.pinId, p.text)) = pin'.map fun p => (p.pinId, p.text)

instance (pin pin' : Option TwitchPinnedMessage) : Decidable (Same pin pin') :=
  inferInstanceAs (Decidable (_ = _))

theorem Same.trans {pin pin' pin'' : Option TwitchPinnedMessage} (h : Same pin pin') (h' : Same pin' pin'') :
    Same pin pin'' := Eq.trans h h'

theorem Same.symm {pin pin' : Option TwitchPinnedMessage} (h : Same pin pin') : Same pin' pin := Eq.symm h

end TwitchPinnedMessage

open TwitchPinnedMessage

inductive PinEvent where
  | pinMessage (pin : TwitchPinnedMessage)
  | updateMessage (pin : TwitchPinnedMessage)
  | unpinMessage
  deriving DecidableEq

namespace PinEvent

def type : PinEvent → QString
  | pinMessage _ => lit "pin-message"
  | updateMessage _ => lit "update-message"
  | unpinMessage => lit "unpin-message"

def pin : PinEvent → Option TwitchPinnedMessage
  | pinMessage pin | updateMessage pin => some pin
  | unpinMessage => none

theorem type_eq_iff (event : PinEvent) : event.type = lit "unpin-message" ↔ event.pin = none := by
  cases event with
  | pinMessage pin =>
    exact iff_of_false (show lit "pin-message" ≠ lit "unpin-message" by decide) (Option.some_ne_none pin)
  | updateMessage pin =>
    exact iff_of_false (show lit "update-message" ≠ lit "unpin-message" by decide) (Option.some_ne_none pin)
  | unpinMessage => exact iff_of_true rfl rfl

end PinEvent

structure PinnedChannel where
  enablePinnedMessages : Bool
  roomId : QString
  pinnedMessage_ : Option TwitchPinnedMessage := none
  /-- The server's pin before the first event, and as of each event. -/
  history : List (Option TwitchPinnedMessage)
  /-- For each fetch that is outstanding, the number of events before its answer was asked for. -/
  fetches : List Nat := []
  lastSucceeded : Bool := false

inductive PinnedChannelEvent where
  | received (event : PinEvent)
  /-- A fetch fails, or succeeds with the pin as of some events after its request. -/
  | answered (i : Nat) (later : Option Nat)
  deriving DecidableEq

namespace PinnedChannel

variable (channel : PinnedChannel)

def setPinnedMessage (pin : Option TwitchPinnedMessage) : PinnedChannel :=
  if channel.pinnedMessage_.isSome = pin.isSome ∧
      (pin.isNone ∨ channel.pinnedMessage_.map (·.pinId) = pin.map (·.pinId)) ∧
        (pin.isNone ∨ channel.pinnedMessage_.map (·.text) = pin.map (·.text)) then channel
  else { channel with pinnedMessage_ := pin }

def eventCount : Nat := channel.history.length - 1

def refreshPinnedMessage : PinnedChannel :=
  if !channel.enablePinnedMessages then channel
  else if channel.roomId = [] then channel
  else { channel with fetches := channel.fetches ++ [channel.eventCount] }

def handlePinnedChatUpdate (type : QString) : PinnedChannel :=
  if !channel.enablePinnedMessages then channel
  else if type = lit "unpin-message" then channel.setPinnedMessage none
  else channel.refreshPinnedMessage

def pinAt (version : Nat) : Option TwitchPinnedMessage := channel.history.getD version none

def latest : Option TwitchPinnedMessage := channel.pinAt channel.eventCount

def step (channel : PinnedChannel) : PinnedChannelEvent → PinnedChannel
  | .received event =>
    let channel := { channel with history := channel.history ++ [event.pin], lastSucceeded := false }
    channel.handlePinnedChatUpdate event.type
  | .answered i later =>
    match channel.fetches[i]? with
    | none => channel
    | some requested =>
      let channel := { channel with fetches := channel.fetches.eraseIdx i }
      match later with
      | none => channel
      | some later =>
        { channel.setPinnedMessage (channel.pinAt (min (requested + later) channel.eventCount)) with
          lastSucceeded := channel.lastSucceeded || requested == channel.eventCount }

def create (enablePinnedMessages : Bool) (roomId : QString) (pin : Option TwitchPinnedMessage) :
    PinnedChannel := { enablePinnedMessages, roomId, history := [pin] }

def FollowsPin (channel : PinnedChannel) : Prop :=
  channel.fetches = [] → (channel.latest = none ∨ channel.lastSucceeded) → Same channel.pinnedMessage_ channel.latest

/-- After an unpin, or after the answer to the last event, the last answer has the pin as of the last event, or fails
while the channel has that pin. -/
def AnswersLatest (channel : PinnedChannel) : PinnedChannelEvent → Prop
  | .received _ => True
  | .answered i later => ∀ requested, channel.fetches = [requested] → i = 0 →
      (channel.latest = none ∨ channel.lastSucceeded) →
        match later with
        | none => Same channel.pinnedMessage_ channel.latest
        | some later => Same (channel.pinAt (min (requested + later) channel.eventCount)) channel.latest

variable {channel}

@[simp] theorem history_setPinnedMessage (pin : Option TwitchPinnedMessage) :
    (channel.setPinnedMessage pin).history = channel.history := by
  unfold setPinnedMessage
  split_ifs <;> rfl

@[simp] theorem fetches_setPinnedMessage (pin : Option TwitchPinnedMessage) :
    (channel.setPinnedMessage pin).fetches = channel.fetches := by
  unfold setPinnedMessage
  split_ifs <;> rfl

@[simp] theorem enabled_setPinnedMessage (pin : Option TwitchPinnedMessage) :
    (channel.setPinnedMessage pin).enablePinnedMessages = channel.enablePinnedMessages := by
  unfold setPinnedMessage
  split_ifs <;> rfl

theorem same_setPinnedMessage (pin : Option TwitchPinnedMessage) :
    Same (channel.setPinnedMessage pin).pinnedMessage_ pin := by
  unfold setPinnedMessage
  split_ifs with hSame
  · unfold Same
    cases hPin : pin with
    | none =>
      rw [hPin, Option.isSome_none, Option.isSome_eq_false_iff, Option.isNone_iff_eq_none] at hSame
      rw [hSame.1]
    | some p =>
      obtain ⟨hSome, hId, hText⟩ := hSame
      rw [hPin, Option.isSome_some] at hSome
      obtain ⟨old, hOld⟩ := Option.isSome_iff_exists.mp hSome
      rw [hPin, hOld] at hId hText
      have hId' : old.pinId = p.pinId := by simpa using hId
      have hText' : old.text = p.text := by simpa using hText
      rw [hOld, Option.map_some, Option.map_some, hId', hText']
  · rfl

def QuietWhenOff (channel : PinnedChannel) : Prop :=
  channel.enablePinnedMessages = false → channel.pinnedMessage_ = none ∧ channel.fetches = []

theorem QuietWhenOff.step (h : channel.QuietWhenOff) (event : PinnedChannelEvent) :
    (channel.step event).QuietWhenOff := by
  cases event with
  | received event =>
    simp only [PinnedChannel.step, handlePinnedChatUpdate, refreshPinnedMessage]
    split_ifs with hOff hUnpin hRoom
    · exact h
    · intro hOff'
      rw [enabled_setPinnedMessage] at hOff'
      exact absurd (by simpa using hOff') hOff
    · exact h
    · intro hOff'
      exact absurd (by simpa using hOff') hOff
  | answered i later =>
    simp only [PinnedChannel.step]
    split
    · exact h
    · rename_i requested hGet
      have hOn : channel.enablePinnedMessages ≠ false := by
        intro hOff
        rw [(h hOff).2] at hGet
        cases hGet
      cases later with
      | none => exact fun hOff => absurd hOff hOn
      | some later =>
        intro hOff
        dsimp only at hOff
        rw [enabled_setPinnedMessage] at hOff
        exact absurd hOff hOn

theorem latest_of_history {event : PinEvent} {history : List (Option TwitchPinnedMessage)}
    (h : channel.history = history ++ [event.pin]) : channel.latest = event.pin := by
  unfold latest pinAt eventCount
  rw [h, List.length_append, List.length_singleton, Nat.add_sub_cancel,
    List.getD_append_right _ _ _ _ (Nat.le_refl _), Nat.sub_self]
  rfl

theorem followsPin_received (hOff : channel.QuietWhenOff) (event : PinEvent) :
    (channel.step (.received event)).FollowsPin := by
  simp only [PinnedChannel.step, handlePinnedChatUpdate, refreshPinnedMessage]
  split_ifs with hDisabled hUnpin hRoom
  · rintro - (hNone | hSucceeded)
    · rw [hNone, (hOff (by simpa using hDisabled)).1]
      rfl
    · cases hSucceeded
  · rintro - -
    have hNone := (PinEvent.type_eq_iff event).mp hUnpin
    rw [latest_of_history (history_setPinnedMessage none), hNone]
    exact same_setPinnedMessage none
  · rintro - (hNone | hSucceeded)
    · rw [latest_of_history rfl] at hNone
      exact absurd ((PinEvent.type_eq_iff event).mpr hNone) hUnpin
    · cases hSucceeded
  · intro hNil
    exact absurd hNil (List.append_ne_nil_of_right_ne_nil _ (List.cons_ne_nil _ _))

theorem fetches_eraseIdx_eq_nil_iff {requested i : Nat} (hGet : channel.fetches[i]? = some requested) :
    channel.fetches.eraseIdx i = [] ↔ channel.fetches = [requested] ∧ i = 0 := by
  obtain ⟨hLt, hRequested⟩ := List.getElem?_eq_some_iff.mp hGet
  constructor
  · intro hNil
    have hLength := congrArg List.length hNil
    rw [List.length_eraseIdx_of_lt hLt, List.length_nil] at hLength
    obtain rfl : i = 0 := by omega
    obtain ⟨only, hOnly⟩ := List.length_eq_one_iff.mp (show channel.fetches.length = 1 by omega)
    refine ⟨?_, rfl⟩
    simp only [hOnly, List.getElem_cons_zero] at hRequested
    rw [hOnly, hRequested]
  · rintro ⟨hOnly, rfl⟩
    rw [hOnly]
    rfl

theorem followsPin_iff_of_history {channel' : PinnedChannel} (h : channel'.history = channel.history) :
    channel'.FollowsPin ↔ (channel'.fetches = [] → (channel.latest = none ∨ channel'.lastSucceeded) →
      Same channel'.pinnedMessage_ channel.latest) := by
  unfold FollowsPin latest pinAt eventCount
  rw [h]

theorem followsPin_step_iff (hOff : channel.QuietWhenOff) (h : channel.FollowsPin)
    (event : PinnedChannelEvent) : (channel.step event).FollowsPin ↔ channel.AnswersLatest event := by
  cases event with
  | received event => exact iff_of_true (followsPin_received hOff event) trivial
  | answered i later =>
    simp only [PinnedChannel.step, AnswersLatest]
    split
    · rename_i hGet
      refine iff_of_true h fun requested hFetches hi => ?_
      rw [hFetches, hi] at hGet
      cases hGet
    · rename_i requested hGet
      have hNil := fetches_eraseIdx_eq_nil_iff hGet
      cases later with
      | none =>
        constructor
        · exact fun hFollows _ hFetches hi hKnown => hFollows (by
            dsimp only
            rw [hFetches, hi]
            rfl) hKnown
        · intro hAnswers hEmpty hKnown
          obtain ⟨hFetches, hi⟩ := hNil.mp hEmpty
          exact hAnswers requested hFetches hi hKnown
      | some later =>
        have hPinned := @same_setPinnedMessage { channel with fetches := channel.fetches.eraseIdx i }
          (channel.pinAt (min (requested + later) channel.eventCount))
        have hHistory := @history_setPinnedMessage { channel with fetches := channel.fetches.eraseIdx i }
          (channel.pinAt (min (requested + later) channel.eventCount))
        refine Iff.trans (@followsPin_iff_of_history channel _ hHistory) ?_
        dsimp only
        rw [fetches_setPinnedMessage]
        constructor
        · intro hFollows requested' hFetches hi hKnown
          have hEmpty := hNil.mpr
          rw [hFetches, hi] at hGet
          cases hGet
          refine hPinned.symm.trans (hFollows (hEmpty ⟨hFetches, hi⟩) (hKnown.imp_right fun hSucceeded => ?_))
          rw [hSucceeded, Bool.true_or]
        · intro hAnswers hEmpty hKnown
          refine hPinned.trans ?_
          obtain ⟨hFetches, hi⟩ := hNil.mp hEmpty
          have hAnswer := hAnswers requested hFetches hi
          rcases hKnown with hNone | hSucceeded
          · exact hAnswer (.inl hNone)
          · rw [Bool.or_eq_true, beq_iff_eq] at hSucceeded
            rcases hSucceeded with hSucceeded | hLast
            · exact hAnswer (.inr hSucceeded)
            · -- The last event's own answer has the latest pin.
              have hLast' : requested = channel.eventCount := hLast
              rw [hLast', Nat.min_eq_right (Nat.le_add_right _ _)]
              rfl

/-- In every state of a run the pin follows the last event, exactly if each deciding answer has the
latest pin. -/
theorem followsPin_iff_answersLatest (enablePinnedMessages : Bool) (roomId : QString)
    (pin : Option TwitchPinnedMessage) (events : List PinnedChannelEvent) :
    (∀ reached, reached <+: events → (reached.foldl step (create enablePinnedMessages roomId pin)).FollowsPin) ↔
      AllSteps step AnswersLatest (create enablePinnedMessages roomId pin) events := by
  have hOff : (create enablePinnedMessages roomId pin).QuietWhenOff := fun _ => ⟨rfl, rfl⟩
  have hSide : AllSteps step (fun channel _ => channel.QuietWhenOff) (create enablePinnedMessages roomId pin)
      events := AllSteps.of_invariant hOff fun channel event h => h.step event
  refine AllSteps.forall_reached_iff hSide _ ?_ fun channel event h hSide => followsPin_step_iff hSide h event
  rintro - (hNone | hSucceeded)
  · rw [hNone]
    rfl
  · cases hSucceeded

theorem not_followsPin_resurrected :
    ¬∀ (roomId : QString) (pin : Option TwitchPinnedMessage) (events : List PinnedChannelEvent),
      (events.foldl step (create true roomId pin)).FollowsPin := by
  intro hAll
  have hFollows := hAll (lit "1") none
    [.received (.pinMessage ⟨lit "p", [], lit "hi", [], [], [], [], 0, none⟩), .received .unpinMessage,
      .answered 0 (some 0)] (by decide) (.inl (by decide))
  exact absurd hFollows (by decide)

end PinnedChannel

end Chatterino.Twitch
