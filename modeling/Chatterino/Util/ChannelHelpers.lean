import Chatterino.Lib.ListSearch
import Chatterino.Messages.Message

/-! # Stacking what moderators did

The backwards scans for an earlier timeout or clear of the chat. A buffer is read through its
messages; what is done to it is returned.
-/

namespace Chatterino

open MessageBuilder

inductive TimeoutStackStyle where
  | StackHard
  | DontStackBeyondUserMessage
  | DontStack
  deriving DecidableEq, Repr

open TimeoutStackStyle

inductive Stacking where
  | add
  | drop
  /-- The message takes the place of one of the buffer. -/
  | replace (i : Nat) (s : ModerationMessage)
  /-- A message that is built takes the place of one of the buffer. -/
  | stack (i : Nat) (s replacement : ModerationMessage)
  deriving DecidableEq

namespace ChannelHelpers

def has (flag : MessageFlag) (message : ModerationMessage) : Bool := message.flags.has flag

def stackedTimeout (message : ModerationMessage) (count : UInt32) : ModerationMessage :=
  { timeoutMessage message.timeoutUser message.loginName message.channelName message.searchText count
      message.serverReceivedTime with
    timeoutUser := message.timeoutUser
    channelName := message.channelName
    count := count
    flags := message.flags }

/-- The scan for an earlier timeout, from the last message on. The first argument bounds the
messages that are looked at. -/
def scanTimeouts (timeoutStackStyle : TimeoutStackStyle) (message : ModerationMessage) (now : Int) :
    Nat → List ModerationMessage → Stacking
  | 0, _ => .add
  | _, [] => .add
  | left + 1, s :: earlier =>
    let i := earlier.length
    if s.serverReceivedTime < now - 5000 then .add
    else if has .Untimeout s ∧ s.timeoutUser = message.timeoutUser then .add
    else if timeoutStackStyle = DontStackBeyondUserMessage ∧ s.loginName = message.timeoutUser ∧
        s.flags.hasNone [.Disabled, .ModerationAction] then .add
    else
      let newIsShared := has .SharedMessage message
      let oldIsShared := has .SharedMessage s
      if newIsShared ≠ oldIsShared ∨ newIsShared ∧ message.channelName ≠ s.channelName then
        scanTimeouts timeoutStackStyle message now left earlier
      else if has .Timeout s ∧ s.timeoutUser = message.timeoutUser then
        if has .PubSub message ∧ ¬has .PubSub s then .replace i s
        else if ¬has .PubSub message ∧ has .PubSub s then
          if timeoutStackStyle = DontStack then .add else .drop
        else .stack i s (stackedTimeout message (s.count + 1))
      else scanTimeouts timeoutStackStyle message now left earlier

def isDisabledBy (message s : ModerationMessage) : Bool :=
  s.loginName = message.timeoutUser ∧ s.flags.hasNone [.ModerationAction, .Whisper]

def disable (s : ModerationMessage) : ModerationMessage :=
  { s with flags := (s.flags.set .Disabled).set .InvalidReplyTarget }

def addOrReplaceChannelTimeout (timeoutStackStyle : TimeoutStackStyle) (buffer : List ModerationMessage)
    (message : ModerationMessage) (now : Int) (disableUserMessages : Bool) : Stacking × List ModerationMessage :=
  (scanTimeouts timeoutStackStyle message now 20 buffer.reverse,
    if disableUserMessages then buffer.map fun s => if isDisabledBy message s then disable s else s else buffer)

def stackedClear (message : ModerationMessage) (count : UInt32) : ModerationMessage :=
  { makeClearChatMessage message.serverReceivedTime message.timeoutUser count with flags := message.flags }

def scanClears (timeoutStackStyle : TimeoutStackStyle) (message : ModerationMessage) (now : Int) :
    Nat → List ModerationMessage → Stacking
  | 0, _ => .add
  | _, [] => .add
  | left + 1, s :: earlier =>
    let i := earlier.length
    if s.serverReceivedTime < now - 5000 then .add
    else if timeoutStackStyle = DontStackBeyondUserMessage ∧ ¬has .ClearChat s then .add
    else if ¬has .ClearChat s ∨ has .PubSub message ≠ has .PubSub s then
      scanClears timeoutStackStyle message now left earlier
    else if timeoutStackStyle = DontStackBeyondUserMessage ∧ has .PubSub s ∧
        s.timeoutUser ≠ message.timeoutUser then .add
    else .stack i s (stackedClear message (s.count + 1))

def addOrReplaceChannelClear (timeoutStackStyle : TimeoutStackStyle) (buffer : List ModerationMessage)
    (message : ModerationMessage) (now : Int) : Stacking :=
  if timeoutStackStyle = DontStack then .add
  else scanClears timeoutStackStyle message now 20 buffer.reverse

end ChannelHelpers

end Chatterino

namespace Chatterino.ChannelHelpers

open Lib
open TimeoutStackStyle

variable {style : TimeoutStackStyle} {buffer : List ModerationMessage} {message s : ModerationMessage} {now : Int}

section

variable (style : TimeoutStackStyle) (message : ModerationMessage) (now : Int) (s : ModerationMessage)

def SameSource : Prop := has .PubSub message = has .PubSub s

instance : Decidable (SameSource message s) := inferInstanceAs (Decidable (_ = _))

def SameOrigin : Prop :=
  has .SharedMessage message = has .SharedMessage s ∧
    (has .SharedMessage message → message.channelName = s.channelName)

instance : Decidable (SameOrigin message s) := inferInstanceAs (Decidable (_ ∧ _))

def EarlierTimeout : Prop := SameOrigin message s ∧ has .Timeout s ∧ s.timeoutUser = message.timeoutUser

instance : Decidable (EarlierTimeout message s) := inferInstanceAs (Decidable (_ ∧ _))

def SeparatesTimeouts : Prop :=
  (has .Untimeout s ∧ s.timeoutUser = message.timeoutUser) ∨
    (style = DontStackBeyondUserMessage ∧ s.loginName = message.timeoutUser ∧
      s.flags.hasNone [.Disabled, .ModerationAction])

/-- The message is older than 5 s, or nothing is stacked beyond it. -/
def EndsTimeouts : Prop := s.serverReceivedTime < now - 5000 ∨ SeparatesTimeouts style message s

instance : Decidable (EndsTimeouts style message now s) := inferInstanceAs (Decidable (_ ∨ _ ∨ _))

def EarlierClear : Prop := has .ClearChat s ∧ SameSource message s

instance : Decidable (EarlierClear message s) := inferInstanceAs (Decidable (_ ∧ _))

def SeparatesClears : Prop :=
  style = DontStackBeyondUserMessage ∧
    (¬has .ClearChat s ∨ SameSource message s ∧ has .PubSub s ∧ s.timeoutUser ≠ message.timeoutUser)

def EndsClears : Prop := s.serverReceivedTime < now - 5000 ∨ SeparatesClears style message s

instance : Decidable (EndsClears style message now s) := inferInstanceAs (Decidable (_ ∨ _ ∧ _))

end

def timeoutFound (style : TimeoutStackStyle) (message : ModerationMessage) (found : Nat × ModerationMessage) :
    Stacking :=
  if has .PubSub message ∧ ¬has .PubSub found.2 then .replace found.1 found.2
  else if ¬has .PubSub message ∧ has .PubSub found.2 then if style = DontStack then .add else .drop
  else .stack found.1 found.2 (stackedTimeout message (found.2.count + 1))

def clearFound (message : ModerationMessage) (found : Nat × ModerationMessage) : Stacking :=
  .stack found.1 found.2 (stackedClear message (found.2.count + 1))

theorem scanTimeouts_eq (left : Nat) (reversed : List ModerationMessage) :
    scanTimeouts style message now left reversed =
      (scanBack (EndsTimeouts style message now) (EarlierTimeout message) left reversed).elim .add
        (timeoutFound style message) := by
  induction reversed generalizing left with
  | nil => cases left <;> rfl
  | cons s earlier ih =>
    cases left with
    | zero => rfl
    | succ left =>
      rw [scanTimeouts, scanBack]
      by_cases hEnds : EndsTimeouts style message now s
      · rw [if_pos hEnds]
        rcases hEnds with hOld | hUntimeout | hUser
        · rw [if_pos hOld]
          rfl
        · rw [if_pos hUntimeout]
          exact ite_id _
        · rw [if_pos hUser, ite_id, ite_id]
          rfl
      · obtain ⟨hOld, hSeparates⟩ := not_or.mp hEnds
        obtain ⟨hUntimeout, hUser⟩ := not_or.mp hSeparates
        rw [if_neg hEnds, if_neg hOld, if_neg hUntimeout, if_neg hUser]
        dsimp only
        have hOrigin : (has .SharedMessage message ≠ has .SharedMessage s ∨
            has .SharedMessage message ∧ message.channelName ≠ s.channelName) ↔ ¬SameOrigin message s := by
          rw [SameOrigin, not_and_or, Classical.not_imp]
        by_cases hSame : SameOrigin message s
        · rw [if_neg fun hOther => hOrigin.mp hOther hSame]
          by_cases hFound : has .Timeout s ∧ s.timeoutUser = message.timeoutUser
          · rw [if_pos hFound, if_pos (show EarlierTimeout message s from ⟨hSame, hFound⟩)]
            rfl
          · rw [if_neg hFound, if_neg fun hEarlier : EarlierTimeout message s => hFound hEarlier.2]
            exact ih left
        · rw [if_pos (hOrigin.mpr hSame), if_neg fun hEarlier : EarlierTimeout message s => hSame hEarlier.1]
          exact ih left

theorem scanClears_eq (left : Nat) (reversed : List ModerationMessage) :
    scanClears style message now left reversed =
      (scanBack (EndsClears style message now) (EarlierClear message) left reversed).elim .add
        (clearFound message) := by
  induction reversed generalizing left with
  | nil => cases left <;> rfl
  | cons s earlier ih =>
    cases left with
    | zero => rfl
    | succ left =>
      rw [scanClears, scanBack]
      by_cases hOld : s.serverReceivedTime < now - 5000
      · rw [if_pos hOld, if_pos (show EndsClears style message now s from .inl hOld)]
        rfl
      · rw [if_neg hOld]
        by_cases hClear : has .ClearChat s
        · rw [if_neg fun hOther => hOther.2 hClear]
          by_cases hSource : SameSource message s
          · have hNext : ¬(¬has .ClearChat s ∨ has .PubSub message ≠ has .PubSub s) := by
              rintro (hNoClear | hOther)
              · exact hNoClear hClear
              · exact hOther hSource
            rw [if_neg hNext]
            by_cases hUser : style = DontStackBeyondUserMessage ∧ has .PubSub s ∧ s.timeoutUser ≠ message.timeoutUser
            · have hEnds : EndsClears style message now s := .inr ⟨hUser.1, .inr ⟨hSource, hUser.2⟩⟩
              rw [if_pos hUser, if_pos hEnds]
              rfl
            · have hEnds : ¬EndsClears style message now s := by
                rintro (hOlder | ⟨hStyle, hNoClear | ⟨-, hPubSub, hOther⟩⟩)
                · exact hOld hOlder
                · exact hNoClear hClear
                · exact hUser ⟨hStyle, hPubSub, hOther⟩
              rw [if_neg hUser, if_neg hEnds, if_pos (show EarlierClear message s from ⟨hClear, hSource⟩)]
              rfl
          · have hEnds : ¬EndsClears style message now s := by
              rintro (hOlder | ⟨hStyle, hNoClear | ⟨hSame, -⟩⟩)
              · exact hOld hOlder
              · exact hNoClear hClear
              · exact hSource hSame
            rw [if_pos (.inr hSource), if_neg hEnds, if_neg fun hEarlier : EarlierClear message s => hSource hEarlier.2]
            exact ih left
        · by_cases hStyle : style = DontStackBeyondUserMessage
          · have hEnds : EndsClears style message now s := .inr ⟨hStyle, .inl hClear⟩
            rw [if_pos ⟨hStyle, hClear⟩, if_pos hEnds]
            rfl
          · have hEnds : ¬EndsClears style message now s := by
              rintro (hOlder | ⟨hSame, -⟩)
              · exact hOld hOlder
              · exact hStyle hSame
            rw [if_neg fun hBoth => hStyle hBoth.1, if_pos (.inl hClear), if_neg hEnds,
              if_neg fun hEarlier : EarlierClear message s => hClear hEarlier.1]
            exact ih left

end Chatterino.ChannelHelpers
