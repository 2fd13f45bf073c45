import Chatterino.Qt.QStringArg
import Mathlib.Data.Finset.Insert

/-! # Messages and their flags -/

namespace Chatterino

inductive MessageFlag where
  | System | Timeout | Highlighted | DoNotTriggerNotification | Centered | Disabled
  | DisableCompactEmotes | Collapsed | ConnectedMessage | DisconnectedMessage | Untimeout | PubSub
  | Subscription | DoNotLog | AutoMod | RecentMessage | Whisper | HighlightedWhisper | Debug
  | Similar | RedeemedHighlight | RedeemedChannelPointReward | ShowInMentions | FirstMessage
  | ReplyMessage | ElevatedMessage | SubscribedThread | CheerMessage | LiveUpdatesAdd
  | LiveUpdatesRemove | LiveUpdatesUpdate | AutoModOffendingMessageHeader
  | AutoModOffendingMessage | LowTrustUsers | RestrictedMessage | MonitoredMessage | Action
  | SharedMessage | AutoModBlockedTerm | ClearChat | EventSub | ModerationAction
  | InvalidReplyTarget | WatchStreak | Kick | Twitch | YouTube
deriving DecidableEq, Repr

inductive MessageElementFlag where
  | Misc | Text | Username | Timestamp | EmoteImage | EmoteText | BadgeBttv | ChannelPointReward
  | BitsStatic | BitsAnimated | BadgeGlobalAuthority | BadgePredictions | BadgeChannelAuthority
  | BadgeSubscription | BadgeVanity | BadgeChatterino | BadgeFfz | ChannelName | BitsAmount
  | ModeratorTools | EmojiImage | EmojiText | AlwaysShow | Collapsed | Mention | BadgePlatform
  | LowercaseLinks | RepliedMessage | ReplyButton | BadgeSevenTV | BadgeSharedChannel
deriving DecidableEq, Repr

abbrev FlagsEnum (T : Type) := Finset T

namespace FlagsEnum

variable {T : Type} [DecidableEq T]

def has (flags : FlagsEnum T) (flag : T) : Bool := flag ∈ flags

def set (flags : FlagsEnum T) (flag : T) : FlagsEnum T := insert flag flags

def hasNone (flags : FlagsEnum T) (others : List T) : Bool := others.all fun flag => !flags.has flag

@[simp] theorem has_set (flags : FlagsEnum T) (flag other : T) :
    (flags.set flag).has other = (other == flag || flags.has other) := by
  simp [has, set, Bool.decide_or, Bool.beq_eq_decide_eq]

end FlagsEnum

abbrev MessageFlags := FlagsEnum MessageFlag

abbrev MessageElementFlags := FlagsEnum MessageElementFlag

structure Emote where
  name : QString
  tooltip : QString
  homePage : QString
deriving DecidableEq, Repr

inductive MessageElement where
  | badge (emote : Emote) (flags : MessageElementFlags)
  | text (text : QString) (flags : MessageElementFlags)
deriving DecidableEq

def MessageElement.getFlags : MessageElement → MessageElementFlags
  | .badge _ flags => flags
  | .text _ flags => flags

structure Message where
  flags : MessageFlags := ∅
  id : QString := []
  messageText : QString := []
  serverReceivedTime : Int := 0
  elements : List MessageElement := []
deriving DecidableEq

def Message.clone (message : Message) : Message where
  flags := message.flags
  id := message.id
  messageText := message.messageText
  serverReceivedTime := message.serverReceivedTime
  elements := message.elements

/-! ## Messages on what moderators did

The texts of a timeout that happened several times and of a cleared chat. The elements of these
messages say the same as their texts and are left out.
-/

structure ModerationMessage extends Message where
  searchText : QString := []
  loginName : QString := []
  timeoutUser : QString := []
  channelName : QString := []
  count : UInt32 := 1
  deriving DecidableEq

namespace MessageBuilder

open QString

def emplaceSystemTextAndUpdate (text toUpdate : QString) : QString := toUpdate ++ (text ++ lit " ")

def indexOf (s name : QString) : Option Nat := s.tails.findIdx? fun tail => decide (name <+: tail)

/-- Moves the remainder up to a user name to the text, with the text and the remainder after it. -/
def appendUser (name : QString) (state : QString × QString) : QString × QString :=
  let (messageText, remainder) := state
  match indexOf remainder name with
  | none | some 0 => state
  | some (start + 1) =>
    let rest := remainder.drop (start + 1 + name.length)
    let messageText := emplaceSystemTextAndUpdate name (emplaceSystemTextAndUpdate (remainder.take start) messageText)
    if lit " " <+: rest then (messageText, rest.drop 1) else (messageText.dropLast, rest)

/-- The text of a timeout that happened several times, from the text of the last one. -/
def timeoutText (timeoutUser sourceUser channel systemMessageText : QString) (times : UInt32) : QString :=
  let usernameText := systemMessageText.takeWhile (· ≠ 0x20)
  let timeoutUserIsFirst := usernameText = lit "You" ∨ timeoutUser = usernameText
  let state := (emplaceSystemTextAndUpdate usernameText [], systemMessageText.drop (usernameText.length + 1))
  let state := if sourceUser.isEmpty then state
    else appendUser (if timeoutUserIsFirst then sourceUser else timeoutUser) state
  let (messageText, remainder) := if channel.isEmpty then state else appendUser channel state
  let last := arg (arg (lit "%1 (%2 times)") (trimmed remainder)) (number times.toNat)
  emplaceSystemTextAndUpdate last messageText

def timeoutMessage (timeoutUser sourceUser channel systemMessageText : QString) (times : UInt32) (time : Int) :
    ModerationMessage :=
  let messageText := timeoutText timeoutUser sourceUser channel systemMessageText times
  { messageText := messageText, searchText := messageText, serverReceivedTime := time }

def clearChatText (actor : QString) (count : UInt32) : QString :=
  let messageText := if actor.isEmpty then emplaceSystemTextAndUpdate (lit "Chat has been cleared by a moderator.") []
    else emplaceSystemTextAndUpdate (lit "cleared the chat.") (actor ++ lit " ")
  if 1 < count then emplaceSystemTextAndUpdate (lit "(" ++ number count.toNat ++ lit " times)") messageText
  else messageText

def makeClearChatMessage (now : Int) (actor : QString) (count : UInt32) : ModerationMessage :=
  let flags : MessageFlags := {.System, .DoNotTriggerNotification, .ClearChat, .ModerationAction}
  { count := count
    serverReceivedTime := now
    flags := if actor.isEmpty then flags else FlagsEnum.set flags .PubSub
    timeoutUser := actor
    messageText := clearChatText actor count
    searchText := clearChatText actor count }

end MessageBuilder

end Chatterino
