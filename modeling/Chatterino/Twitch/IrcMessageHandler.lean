import Chatterino.Ignores.IgnoreController
import Chatterino.Lib.Checked
import Chatterino.Messages.Message
import Mathlib.Data.Finset.Erase

/-! # The handlers of IRC messages

Every message that the read or the write connection delivers goes to the handler of its command.
Where a handler reads an element of a list or of a text by its position, the read is checked. The
elements of the messages that are built are left out, as are the colours of the users named in
them.
-/

namespace Chatterino.Twitch.IrcHandlers

open Lib QString Ignores

def SPACE : QChar := 0x20

def COLON : QChar := 0x3A

def COMMA : QChar := 0x2C

def SLASH : QChar := 0x2F

/-- A message as the connection has parsed it. The target, the content and whether it is an action
are those of private messages and notices. -/
structure IrcMessage where
  command : QString
  isPrivate : Bool
  tags : List (QString × QString)
  parameters : List QString
  nick : QString
  target : QString
  content : QString
  isAction : Bool

namespace IrcMessage

variable (message : IrcMessage)

def tag (key : QString) : Option QString := message.tags.lookup key

def tagText (key : QString) : QString := (message.tag key).getD []

def tagInt (key : QString) : Int := (toInt (message.tagText key)).getD 0

def hasTag (key : QString) : Bool := (message.tag key).isSome

def parameter (index : Nat) : QString := message.parameters[index]?.getD []

end IrcMessage

structure Channel where
  name : QString
  isTwitchChannel : Bool
deriving DecidableEq, Inhabited

namespace Channel

def getEmpty : Channel := ⟨[], false⟩

def isEmpty (channel : Channel) : Bool := channel.name.isEmpty

end Channel

structure RoomModes where
  submode : Bool := false
  r9k : Bool := false
  emoteOnly : Bool := false
  followerOnly : Int := -1
  slowMode : Int := 0
deriving DecidableEq, Inhabited

structure ChatMessage where
  messageText : QString
  id : QString := []
  loginName : QString := []
  displayName : QString := []
  flags : MessageFlags := ∅
deriving DecidableEq, Inhabited

structure MessageParseArgs where
  isReceivedWhisper : Bool := false
  isSubscriptionMessage : Bool := false
  trimSubscriberUsername : Bool := false
  isStaffOrBroadcaster : Bool := false
  isAction : Bool := false
  allowIgnore : Bool := true
  channelPointRewardId : QString := []
deriving DecidableEq

inductive Call where
  | setMod (channel : Channel) (value : Bool)
  | setVIP (channel : Channel) (value : Bool)
  | setStaff (channel : Channel) (value : Bool)
  | setRoomId (channel : Channel) (roomId : QString)
  | setRoomModes (channel : Channel) (roomModes : RoomModes)
  | roomModesChanged (channel : Channel)
  | addMessage (channel : Channel) (message : ChatMessage)
  | repost (channel : Channel) (message : ChatMessage)
  | addOrReplaceTimeout (channel : Channel) (message : ChatMessage)
  | addOrReplaceClearChat (channel : Channel) (message : ChatMessage)
  | disableAllMessages (channel : Channel)
  | disableMessage (channel : Channel) (id : QString)
  | addJoinedUser (channel : Channel) (user : QString)
  | addPartedUser (channel : Channel) (user : QString)
  | joined (channel : Channel)
  | addQueuedRedemption (channel : Channel) (rewardId originalContent : QString)
  | addRecentChatter (channel : Channel) (user : QString)
  | triggerHighlights (channel : Channel)
  | setLastUserThatWhisperedMe (user : QString)
  | forceLayoutChannelViews
  | markChannelsConnected
  | connect
deriving DecidableEq

abbrev Handler := Checked Call

structure Settings where
  stripReplyMention : Bool := true
  hideReplyContext : Bool := false
  hideDeletionActions : Bool := false
  hideModerated : Bool := false
  showJoins : Bool := false
  showParts : Bool := false
  inlineWhispers : Bool := true
  streamerModeSuppressInlineWhispers : Bool := true
  hideSimilar : Bool := false
  shownSimilarTriggerHighlights : Bool := false
  colorizeNicknames : Bool := true
deriving Inhabited

abbrev Color := Nat × Nat × Nat

structure ReplyContext where
  thread : Option QString := none
  parent : Option QString := none
deriving Inhabited

structure ParsedMessage where
  channel : Channel
  message : IrcMessage
  args : MessageParseArgs
  content : QString
  reply : ReplyContext
  usernameColor : Option Color
  replyBody : Option QString
  badgeTooltips : List QString
  displayName : Option QString
  twitchEmotes : List TwitchEmoteOccurrence

structure Surroundings where
  settings : Settings
  streamerMode : Bool
  userName : QString
  userId : QString
  deletedMessageLengthLimit : Int
  getChannelOrEmpty : QString → Channel
  getChannelOrEmptyByID : QString → Channel
  forEachChannel : List Channel
  whispersChannel : Channel
  mentionsChannel : Channel
  liveChannel : Channel
  automodChannel : Channel
  roomId : Channel → QString
  roomModes : Channel → RoomModes
  isMod : Channel → Bool
  isBroadcaster : Channel → Bool
  isIgnoredMessage : (message twitchUserID : QString) → (isMod isBroadcaster : Bool) → Bool
  findMessageByID : Channel → QString → Option ChatMessage
  isChannelPointRewardKnown : Channel → QString → Bool
  replyContext : Channel → IrcMessage → ReplyContext
  userDataColor : QString → Option Color
  namedColor : QString → Color
  digitValue : QChar → Int
  twitchBadge : Channel → QString → QString → Option QString
  /-- The tooltip of the channel's own badge for moderators or VIPs, where it is used. -/
  ffzCustomBadge : Channel → QString → Option QString
  getOrCreateEmote : QString → EmoteName → EmotePtr
  /-- Adds the words and the highlights. The flag says that there is an alert. -/
  finishMessage : ParsedMessage → ChatMessage × Bool
  applySimilarityFilters : Channel → ChatMessage → ChatMessage
  sortCaseInsensitive : List QString → List QString
  /-- An amount times ten to the negated exponent, in a currency. -/
  currencyString : (amount exponent : Int) → QString → QString
  unescapeZeroWidthJoiner : QString → QString
deriving Inhabited

def startsWithCaseInsensitive (text pattern : QString) : Bool :=
  let lower (c : QChar) : QChar := if 0x41 ≤ c ∧ c ≤ 0x5A then c + 0x20 else c
  (pattern.map lower).isPrefixOf (text.map lower)

/-- The text split at a separator of several characters. The first `skip` characters belong to a
separator that has been found. -/
def splitText (separator : QString) : (skip : Nat) → (part : QString) → QString → List QString
  | _, part, [] => [part]
  | skip + 1, part, _ :: text => splitText separator skip part text
  | 0, part, c :: text =>
    if separator.isPrefixOf (c :: text) then
      part :: splitText separator (separator.length - 1) [] text
    else splitText separator 0 (part ++ [c]) text

def replaceText (before after : QString) : (skip : Nat) → QString → QString
  | _, [] => []
  | skip + 1, _ :: text => replaceText before after skip text
  | 0, c :: text =>
    if before.isPrefixOf (c :: text) then after ++ replaceText before after (before.length - 1) text
    else c :: replaceText before after 0 text

def slashKeyValue (text : QString) : QString × QString :=
  (text.takeWhile (· ≠ SLASH), (text.dropWhile (· ≠ SLASH)).drop 1)

/-- `QString::toUInt`, zero when it fails. -/
def toUInt (text : QString) : Nat :=
  match integerValue text with
  | some n => if 0 ≤ n ∧ n < 4294967296 then n.toNat else 0
  | none => 0

def appendShortDuration (count : Int) (suffix : QChar) (out : QString) : QString :=
  if 0 < count then (if out.isEmpty then out else out ++ [SPACE]) ++ number count ++ [suffix] else out

def formatTime (totalSeconds : Int) : QString :=
  let timeoutMinutes := totalSeconds.tdiv 60
  let timeoutHours := timeoutMinutes.tdiv 60
  let days := appendShortDuration (timeoutHours.tdiv 24) 0x64 []
  let hours := appendShortDuration (timeoutHours.tmod 24) 0x68 days
  let minutes := appendShortDuration (timeoutMinutes.tmod 60) 0x6D hours
  appendShortDuration (totalSeconds.tmod 60) 0x73 minutes

def formatTimeText (totalSecondsString : QString) : QString :=
  match toInt totalSecondsString with
  | some totalSeconds => formatTime totalSeconds
  | none => lit "n/a"

def trimChannelName (channelName : QString) : Option QString :=
  if channelName.length < 2 then none else some (channelName.drop 1)

/-- What an escaped character stands for. The backslash alone is dropped before any other one. -/
def unescaped (c : QChar) : QString :=
  match c.toNat % 256 with
  | 0x6E => [0x0A]
  | 0x72 => [0x0D]
  | 0x73 => [SPACE]
  | 0x5C => [0x5C]
  | 0x3A => [0x3B]
  | _ => [c]

theorem length_unescaped (c : QChar) : (unescaped c).length = 1 := by
  unfold unescaped
  split <;> rfl

/-- The loop over the text of a tag, at a position and with the length it counts down itself. -/
def parseTagFrom (output : QString) (i length : Nat) : Handler QString :=
  if h : i + 1 < length then do
    let c ← Checked.read output i
    if c = 0x5C then
      let next ← Checked.read output (i + 1)
      parseTagFrom (output.take i ++ unescaped next ++ output.drop (i + 2)) (i + 1) (length - 1)
    else parseTagFrom output (i + 1) length
  else pure output
termination_by length - i

def parseTagString (input : QString) : Handler QString := parseTagFrom input 0 input.length

def makeSystemMessage (text : QString) : ChatMessage :=
  { messageText := text, flags := {.System, .DoNotTriggerNotification} }

def generateBannedMessage (confirmedBan : Bool) : ChatMessage :=
  let bannedText := if confirmedBan then lit "You were banned from this channel!"
    else lit "Your connection to this channel was unexpectedly dropped."
  let reconnectPromptText := if confirmedBan then
      lit "If you believe you have been unbanned, try reconnecting."
    else lit "Try reconnecting."
  { messageText := bannedText ++ [SPACE] ++ reconnectPromptText, flags := {.System} }

def makeClearChatMessage : ChatMessage where
  messageText := MessageBuilder.clearChatText [] 1
  flags := {.System, .DoNotTriggerNotification, .ClearChat, .ModerationAction}

def timeoutMessage (username durationInSeconds : QString) : ChatMessage :=
  let text := if durationInSeconds.isEmpty then lit "has been permanently banned."
    else lit "has been timed out for " ++ ((toInt durationInSeconds).map formatTime).getD [] ++ lit "."
  { messageText := MessageBuilder.emplaceSystemTextAndUpdate text
      (MessageBuilder.emplaceSystemTextAndUpdate username [])
    flags := {.System, .Timeout, .ModerationAction, .DoNotTriggerNotification} }

def makeHostingSystemMessage (channelName : QString) (hostOn : Bool) : ChatMessage :=
  makeSystemMessage (if hostOn then arg (lit "Now hosting %1.") channelName
    else arg (lit "%1 has gone offline. Exiting host mode.") channelName)

def makeListOfUsersMessage (prefixText : QString) (users : List QString) : ChatMessage :=
  makeSystemMessage (prefixText ++ (lit ", ").intercalate users)

section

variable (env : Surroundings)

def makeDeletionMessageFromIRC (originalMessage : ChatMessage) : ChatMessage :=
  let limit := env.deletedMessageLengthLimit
  let text := originalMessage.messageText
  let deletedMessageText := if 0 < limit ∧ limit < text.length then text.take limit.toNat ++ [0x2026]
    else text
  { messageText := lit "A message from " ++ originalMessage.loginName ++ lit " was deleted: " ++
      deletedMessageText
    flags := {.System, .DoNotTriggerNotification, .ModerationAction} }

def TWITCH_USERNAME_COLORS : List Color :=
  [(255, 0, 0), (0, 0, 255), (0, 255, 0), (178, 34, 34), (255, 127, 80), (154, 205, 50), (255, 69, 0),
    (46, 139, 87), (218, 165, 32), (210, 105, 30), (95, 158, 160), (30, 144, 255), (255, 105, 180),
    (138, 43, 226), (0, 255, 127)]

/-- The seed is taken as a number of 64 bits without a sign before the remainder is taken. -/
def getRandomColor (userId : QString) : Handler Color :=
  let colorSeed := (toInt userId).getD (userId.map env.digitValue).sum
  let colorIndex := (colorSeed % 18446744073709551616).toNat % TWITCH_USERNAME_COLORS.length
  Checked.read TWITCH_USERNAME_COLORS colorIndex

def parseUsernameColor (message : IrcMessage) : Handler (Option Color) :=
  match env.userDataColor (message.tagText (lit "user-id")) with
  | some color => pure (some color)
  | none =>
    if !(message.tagText (lit "color")).isEmpty then
      pure (some (env.namedColor (message.tagText (lit "color"))))
    else if env.settings.colorizeNicknames && message.hasTag (lit "user-id") then do
      let color ← getRandomColor env (message.tagText (lit "user-id"))
      return some color
    else pure none

def nonEmptyParts (separator : QChar) (text : QString) : List QString :=
  (text.splitOn separator).filter fun part => !part.isEmpty

def parseBadgeInfoTag (message : IrcMessage) : List (QString × QString) :=
  (nonEmptyParts COMMA (message.tagText (lit "badge-info"))).map slashKeyValue

def parseBadgeTag (message : IrcMessage) : List (QString × QString) :=
  ((nonEmptyParts COMMA (message.tagText (lit "badges"))).filter fun badge => SLASH ∈ badge).map
    slashKeyValue

def predictionText (infoValue : QString) : QString :=
  replaceText [0x2E1D] (lit ",") 0 <| replaceText (lit "\\\\") (lit "\\") 0 <|
    replaceText (lit "\\:") (lit ";") 0 <| replaceText (lit "\\s") (lit " ") 0 infoValue

def subTier (value : QString) : Handler QChar :=
  if 3 < value.length then Checked.read value 0 else pure 0x31

def badgeTooltip (infos : List (QString × QString)) (badge : QString × QString) (tooltip : QString) :
    Handler QString :=
  if badge.1 = lit "bits" then pure (lit "Twitch cheer " ++ badge.2)
  else if badge.1 = lit "subscriber" ∨ badge.1 = lit "founder" then
    match infos.lookup badge.1 with
    | none => pure tooltip
    | some subMonths => do
      let subTier ← subTier badge.2
      let tier := if subTier = 0x31 then [] else lit "Tier " ++ [subTier] ++ lit ", "
      return tooltip ++ lit " (" ++ tier ++ subMonths ++ lit " months)"
  else if badge.1 = lit "predictions" then
    match infos.lookup badge.1 with
    | none => pure tooltip
    | some infoValue => pure (lit "Predicted " ++ predictionText infoValue)
  else pure tooltip

def appendBadge (channel : Channel) (infos : List (QString × QString)) (tooltips : List QString)
    (badge : QString × QString) : Handler (List QString) :=
  match env.twitchBadge channel badge.1 badge.2 with
  | none => pure tooltips
  | some tooltip =>
    let hasCustom := badge.1 = lit "moderator" ∨ badge.1 = lit "vip"
    match if hasCustom then env.ffzCustomBadge channel badge.1 else none with
    | some custom => pure (tooltips ++ [custom])
    | none => do
      let tooltip ← badgeTooltip infos badge tooltip
      return tooltips ++ [tooltip]

def appendTwitchBadges (channel : Channel) (message : IrcMessage) : Handler (List QString) :=
  if channel.isTwitchChannel then
    (parseBadgeTag message).foldlM (appendBadge env channel (parseBadgeInfoTag message)) []
  else pure []

def isLowSurrogate (c : QChar) : Bool := 0xDC00 ≤ c && c ≤ 0xDFFF

def correctPositions (content : QString) : Handler (List Nat) :=
  (List.range content.length).foldlM (fun positions i => do
    let c ← Checked.read content i
    return if isLowSurrogate c then positions else positions ++ [i]) []

/-- A position without the part that was cut off, as a number of 32 bits without a sign. -/
def withoutOffset (position : Nat) (messageOffset : Int) : Nat :=
  (((position : Int) - messageOffset) % 4294967296).toNat

/-- The occurrences of an emote, up to the first one that is out of range. -/
def appendOccurrences (id content : QString) (positions : List Nat) (messageOffset : Int) :
    List QString → List TwitchEmoteOccurrence → Handler (List TwitchEmoteOccurrence)
  | [], vec => pure vec
  | occurrence :: occurrences, vec =>
    let coords := occurrence.splitOn 0x2D
    if coords.length < 2 then pure vec
    else do
      let first ← Checked.read coords 0
      let last ← Checked.read coords 1
      let from_ := withoutOffset (toUInt first) messageOffset
      let to_ := withoutOffset (toUInt last) messageOffset
      if to_ < from_ ∨ positions.length ≤ to_ then pure vec
      else
        let start ← Checked.read positions from_
        let end_ ← Checked.read positions to_
        if end_ < start ∨ content.length < end_ then pure vec
        else
          let name := (content.drop start).take (end_ - start + 1)
          appendOccurrences id content positions messageOffset occurrences
            (vec ++ [⟨start, end_, env.getOrCreateEmote id name, name⟩])

def appendTwitchEmoteOccurrences (content : QString) (positions : List Nat) (messageOffset : Int)
    (vec : List TwitchEmoteOccurrence) (emote : QString) : Handler (List TwitchEmoteOccurrence) :=
  let parameters := emote.splitOn COLON
  if COLON ∉ emote ∨ parameters.length < 2 then pure vec
  else do
    let id ← Checked.read parameters 0
    let occurrences ← Checked.read parameters 1
    appendOccurrences env id content positions messageOffset (occurrences.splitOn COMMA) vec

def parseTwitchEmotes (message : IrcMessage) (content : QString) (messageOffset : Int) :
    Handler (List TwitchEmoteOccurrence) :=
  match message.tag (lit "emotes") with
  | none => pure []
  | some emotes => do
    let positions ← correctPositions content
    (emotes.splitOn SLASH).foldlM (appendTwitchEmoteOccurrences env content positions messageOffset) []

def isIgnored (originalMessage userID : QString) (channel : Channel) : Bool :=
  env.isIgnoredMessage originalMessage userID (env.isMod channel) (env.isBroadcaster channel)

/-- The text of the message replied to, if only the tags tell it. -/
def parseThread (channel : Channel) (message : IrcMessage) (content : QString) (reply : ReplyContext) :
    Handler (Option QString) :=
  if reply.thread.isSome then pure none
  else if message.hasTag (lit "reply-parent-msg-id") ∧
      message.hasTag (lit "reply-parent-display-name") ∧ message.hasTag (lit "reply-parent-msg-body") then
    if isIgnored env content (message.tagText (lit "reply-parent-user-id")) channel then
      pure (some (lit "[Blocked user]"))
    else do
      let body ← parseTagString (message.tagText (lit "reply-parent-msg-body"))
      return some body
  else pure none

def appendUsername (message : IrcMessage) : Handler (Option QString) :=
  match message.tag (lit "display-name") with
  | none => pure none
  | some displayName => do
    let displayName ← parseTagString displayName
    return some (trimmed displayName)

/-- The channel whose emotes and badges are used: the one that the message was first sent in, if
it is open. -/
def parseSharedChatInfo (channel : Channel) (message : IrcMessage) : Channel :=
  match message.tag (lit "source-room-id") with
  | some sourceRoom =>
    let source := env.getChannelOrEmptyByID sourceRoom
    if channel.isTwitchChannel ∧ env.roomId channel ≠ sourceRoom ∧ !source.isEmpty ∧
        source.isTwitchChannel then source
    else channel
  | none => channel

def makeIrcMessage (channel : Channel) (message : IrcMessage) (args : MessageParseArgs)
    (content : QString) (messageOffset : Nat) (reply : ReplyContext) :
    Handler (Option (ChatMessage × Bool)) :=
  if args.allowIgnore ∧ isIgnored env content (message.tagText (lit "user-id")) channel then pure none
  else do
    let usernameColor ← parseUsernameColor env message
    let replyBody ← parseThread env channel message content reply
    let badgeTooltips ← appendTwitchBadges env (parseSharedChatInfo env channel message) message
    let displayName ← appendUsername message
    let twitchEmotes ← parseTwitchEmotes env message content messageOffset
    return some (env.finishMessage ⟨channel, message, args, content, reply, usernameColor, replyBody,
      badgeTooltips, displayName, twitchEmotes⟩)

def HYPE_CHAT_PAID_LEVEL : List (QString × Int × Int) :=
  [(lit "ONE", 30, 1), (lit "TWO", 150, 2), (lit "THREE", 300, 3), (lit "FOUR", 600, 4),
    (lit "FIVE", 1800, 5), (lit "SIX", 3600, 6), (lit "SEVEN", 7200, 7), (lit "EIGHT", 10800, 8),
    (lit "NINE", 14400, 9), (lit "TEN", 18000, 10)]

def hypeChatSubtitle (levelID : QString) : QString :=
  match HYPE_CHAT_PAID_LEVEL.lookup levelID with
  | some (duration, numeric) =>
    arg (arg (lit "Level %1 Hype Chat (%2) ") (number numeric)) (formatTime duration)
  | none => lit "Hype Chat "

def buildHypeChatMessage (message : IrcMessage) : Handler (Option ChatMessage) :=
  let currency := message.tagText (lit "pinned-chat-paid-currency")
  match toInt (message.tagText (lit "pinned-chat-paid-amount")),
      toInt (message.tagText (lit "pinned-chat-paid-exponent")) with
  | some amount, some exponent =>
    if currency.isEmpty then pure none
    else do
      let subtitle := hypeChatSubtitle (message.tagText (lit "pinned-chat-paid-level"))
      let text ← parseTagString (subtitle ++ env.currencyString amount exponent currency)
      return some { messageText := text, flags := {.System, .DoNotTriggerNotification, .ElevatedMessage} }
  | _, _ => pure none

end

section

variable (env : Surroundings)

/-- The content without the mention it starts with, and how much was cut off. -/
def stripLeadingReplyMention (message : IrcMessage) (content : QString) : Handler (Nat × QString) :=
  if !env.settings.stripReplyMention then pure (0, content)
  else if env.settings.hideReplyContext then pure (0, content)
  else
    match message.tag (lit "reply-parent-display-name") with
    | none => pure (0, content)
    | some displayName =>
      if content.length ≤ 1 + displayName.length then pure (0, content)
      else if content.head? = some 0x40 then do
        let separator ← Checked.read content (1 + displayName.length)
        let messageOffset := 1 + displayName.length + 1
        return if separator = SPACE ∧ displayName <+: content.drop 1 then
          (messageOffset, content.drop messageOffset) else (0, content)
      else pure (0, content)

def parseBadges (badgesString : QString) : Handler (List (QString × QString)) :=
  (badgesString.splitOn COMMA).foldlM (fun badges badgeData =>
    let parts := badgeData.splitOn SLASH
    if parts.length ≠ 2 then pure badges
    else do
      let key ← Checked.read parts 0
      let value ← Checked.read parts 1
      return badges ++ [(key, value)]) []

def containsBadge (badges : List (QString × QString)) (key : QString) : Bool :=
  badges.any fun badge => badge.1 = key

def hasModBadge (badges : List (QString × QString)) : Bool :=
  containsBadge badges (lit "moderator") || containsBadge badges (lit "lead_moderator")

def channelPointRewardId (message : IrcMessage) : QString :=
  match message.tag (lit "custom-reward-id") with
  | some rewardId => rewardId
  | none =>
    let msgId := message.tagText (lit "msg-id")
    if msgId = lit "animated-message" ∨ msgId = lit "gigantified-emote-message" then msgId else []

/-- The message as it is added, with what is called for it. -/
def addedMessage (channel : Channel) (message : IrcMessage) (isSub : Bool) (msgType : QString)
    (built : ChatMessage × Bool) : List Call :=
  let flags := built.1.flags
  let flags := if isSub then
      flags.set (if msgType = lit "viewermilestone" then .WatchStreak else .Subscription)
    else flags
  let flags := if isSub ∧ message.tagText (lit "msg-id") ≠ lit "announcement" then
      flags.erase .Highlighted
    else flags
  let msg := env.applySimilarityFilters channel { built.1 with flags := flags }
  let alerts := built.2 && (!msg.flags.has .Similar ||
    (!env.settings.hideSimilar && env.settings.shownSimilarTriggerHighlights))
  let mentions := msg.flags.has .Highlighted && msg.flags.has .ShowInMentions
  (if alerts then [.triggerHighlights channel] else []) ++
    (if mentions then [.addMessage env.mentionsChannel msg] else []) ++
    [.addMessage channel msg, .addRecentChatter channel msg.displayName]

def addMessage (message : IrcMessage) (channel : Channel) (originalContent : QString)
    (isSub isAction : Bool) (msgType : QString) : Handler PUnit :=
  let rewardId := channelPointRewardId message
  let isQueued := !rewardId.isEmpty && !env.isChannelPointRewardKnown channel rewardId
  let args : MessageParseArgs :=
    { isSubscriptionMessage := isSub
      trimSubscriberUsername := isSub
      isStaffOrBroadcaster := env.isBroadcaster channel
      isAction := isAction
      allowIgnore := !isSub
      channelPointRewardId := rewardId }
  do
    Checked.callAll (if isQueued then [.addQueuedRedemption channel rewardId originalContent] else [])
    let stripped ← stripLeadingReplyMention env message originalContent
    let built ← makeIrcMessage env channel message args stripped.2 stripped.1
      (env.replyContext channel message)
    Checked.callAll (built.elim [] (addedMessage env channel message isSub msgType))

def updateOwnBadges (channel : Channel) (message : IrcMessage) : Handler PUnit :=
  if message.tag (lit "user-id") = some env.userId then
    match message.tag (lit "badges") with
    | none => pure ⟨⟩
    | some badgesTag => do
      let badges ← parseBadges badgesTag
      Checked.callAll [.setMod channel (hasModBadge badges),
        .setVIP channel (containsBadge badges (lit "vip")),
        .setStaff channel (containsBadge badges (lit "staff"))]
  else pure ⟨⟩

def addHypeChat (channel : Channel) (message : IrcMessage) : Handler PUnit :=
  if message.hasTag (lit "pinned-chat-paid-amount") then do
    let hypeChat ← buildHypeChatMessage env message
    Checked.callAll (hypeChat.elim [] fun msg => [.addMessage channel msg])
  else pure ⟨⟩

def parsePrivMessageInto (message : IrcMessage) (channel : Channel) : Handler PUnit := do
  updateOwnBadges env channel message
  addMessage env message channel (env.unescapeZeroWidthJoiner message.content) false message.isAction []
  addHypeChat env channel message

def handlePrivMessage (message : IrcMessage) : Handler PUnit :=
  let channel := match trimChannelName message.target with
    | none => .getEmpty
    | some channelName => env.getChannelOrEmpty channelName
  if channel.isEmpty ∨ !channel.isTwitchChannel then pure ⟨⟩ else parsePrivMessageInto env message channel

def handleWhisperMessage (message : IrcMessage) : Handler PUnit := do
  let channel := env.whispersChannel
  let content := env.unescapeZeroWidthJoiner (message.parameter 1)
  let built ← makeIrcMessage env channel message { isReceivedWhisper := true } content 0 {}
  match built with
  | none => pure ⟨⟩
  | some (msg, alert) =>
    let msg : ChatMessage := { msg with flags := msg.flags.set .Whisper }
    let reposted : ChatMessage :=
      { msg with flags := (msg.flags.set .DoNotTriggerNotification).set .DoNotLog }
    let isInline := env.settings.inlineWhispers &&
      !(env.settings.streamerModeSuppressInlineWhispers && env.streamerMode)
    Checked.callAll (if alert then [.triggerHighlights channel] else [])
    Checked.call (.setLastUserThatWhisperedMe msg.loginName)
    Checked.callAll (if msg.flags.has .ShowInMentions then [.addMessage env.mentionsChannel msg] else [])
    Checked.call (.addMessage channel msg)
    Checked.callAll (if isInline then env.forEachChannel.map fun c => .repost c reposted else [])

end

section

variable (env : Surroundings)

def channelOfParameter (message : IrcMessage) : Option Channel :=
  (trimChannelName (message.parameter 0)).map env.getChannelOrEmpty

def updatedRoomModes (roomModes : RoomModes) (message : IrcMessage) : RoomModes :=
  let isSet (key : QString) (before : Bool) : Bool :=
    (message.tag key).elim before fun value => value = lit "1"
  let number (key : QString) (before : Int) : Int :=
    (message.tag key).elim before fun value => (toInt value).getD 0
  { submode := isSet (lit "subs-only") roomModes.submode
    r9k := isSet (lit "r9k") roomModes.r9k
    emoteOnly := isSet (lit "emote-only") roomModes.emoteOnly
    followerOnly := number (lit "followers-only") roomModes.followerOnly
    slowMode := number (lit "slow") roomModes.slowMode }

def handleRoomStateMessage (message : IrcMessage) : Handler PUnit :=
  match channelOfParameter env message with
  | none => pure ⟨⟩
  | some channel =>
    if channel.isTwitchChannel then do
      Checked.callAll ((message.tag (lit "room-id")).toList.map (.setRoomId channel))
      Checked.call (.setRoomModes channel (updatedRoomModes (env.roomModes channel) message))
      Checked.call (.roomModesChanged channel)
    else pure ⟨⟩

def parseClearChatMessage (message : IrcMessage) : Option (ChatMessage × Bool) :=
  if message.parameters.length < 1 then none
  else if message.parameters.length = 1 then some (makeClearChatMessage, true)
  else some (timeoutMessage (message.parameter 1) (message.tagText (lit "ban-duration")), false)

def handleClearChatMessage (message : IrcMessage) : Handler PUnit :=
  match parseClearChatMessage message, channelOfParameter env message with
  | some (clearChat, disableAllMessages), some channel =>
    if channel.isEmpty then pure ⟨⟩
    else do
      Checked.callAll (if disableAllMessages then
          [.disableAllMessages channel, .addOrReplaceClearChat channel clearChat]
        else [.addOrReplaceTimeout channel clearChat])
      Checked.callAll (if env.settings.hideModerated then [.forceLayoutChannelViews] else [])
  | _, _ => pure ⟨⟩

def handleClearMessageMessage (message : IrcMessage) : Handler PUnit :=
  if message.parameters.length < 1 then pure ⟨⟩
  else
    match channelOfParameter env message with
    | none => pure ⟨⟩
    | some channel =>
      if channel.isEmpty then pure ⟨⟩
      else
        match env.findMessageByID channel (message.tagText (lit "target-msg-id")) with
        | none => pure ⟨⟩
        | some msg => do
          Checked.call (.disableMessage channel msg.id)
          Checked.callAll (if env.settings.hideDeletionActions then []
            else [.addMessage channel (makeDeletionMessageFromIRC env msg)])
          let layout := env.settings.hideModerated && !message.hasTag (lit "historical")
          Checked.callAll (if layout then [.forceLayoutChannelViews] else [])

def handleUserStateMessage (message : IrcMessage) : Handler PUnit :=
  match channelOfParameter env message with
  | none => pure ⟨⟩
  | some channel =>
    if channel.isEmpty ∨ !channel.isTwitchChannel then pure ⟨⟩
    else do
      let badgesTag := message.tag (lit "badges")
      let badges ← badgesTag.elim (pure []) parseBadges
      Checked.callAll (if badgesTag.isSome then
          [.setVIP channel (containsBadge badges (lit "vip")),
            .setStaff channel (containsBadge badges (lit "staff"))]
        else [])
      Checked.callAll (if hasModBadge badges then [.setMod channel true]
        else (message.tag (lit "mod")).toList.map fun modTag => .setMod channel (modTag = lit "1"))

def SPECIAL_MESSAGE_TYPES : List QString :=
  [lit "sub", lit "subgift", lit "resub", lit "bitsbadgetier", lit "ritual", lit "announcement",
    lit "viewermilestone"]

def ANONYMOUS_GIFTER_ID : QString := lit "274598607"

def kFormatNumbers (n : Int) : QString := arg (lit "%1K") (number (n.tdiv 1000))

def planTier (plan : QString) : Handler QChar :=
  if plan.isEmpty then pure 0x31 else Checked.read plan 0

def giftText (message : IrcMessage) (messageText : QString) : Handler QString :=
  let months := message.tagInt (lit "msg-param-gift-months")
  if message.hasTag (lit "msg-param-gift-months") ∧ 1 < months then do
    let plan := message.tagText (lit "msg-param-sub-plan")
    let name := if ANONYMOUS_GIFTER_ID = message.tagText (lit "user-id") then lit "An anonymous user"
      else message.tagText (lit "display-name")
    let tier ← planTier plan
    let count := message.tagInt (lit "msg-param-sender-count")
    let total := if message.hasTag (lit "msg-param-sender-count") ∧ months < count then
        lit " They've gifted " ++ number count ++ lit " months in the channel."
      else []
    return name ++ lit " gifted " ++ number months ++ lit " months of a Tier " ++ [tier] ++
      lit " sub to " ++ message.tagText (lit "msg-param-recipient-display-name") ++ lit "!" ++ total
  else pure messageText

def subscriptionText (message : IrcMessage) (msgType messageText : QString) : QString :=
  let months := message.tagInt (lit "msg-param-multimonth-duration")
  if message.hasTag (lit "msg-param-multimonth-tenure") ∧
      message.tagInt (lit "msg-param-multimonth-tenure") = 0 ∧ 1 < months then
    let tier := (message.tagInt (lit "msg-param-sub-plan")).tdiv 1000
    let cumulative := message.tagInt (lit "msg-param-cumulative-months")
    message.tagText (lit "display-name") ++ lit " subscribed at Tier " ++ number tier ++ lit " for " ++
      number months ++ lit " months in advance" ++
      (if msgType = lit "resub" then
        lit ", reaching " ++ number cumulative ++ lit " months cumulatively so far!"
      else lit "!")
  else messageText

def systemText (message : IrcMessage) (msgType messageText : QString) : Handler QString :=
  if msgType = lit "bitsbadgetier" then
    pure (message.tagText (lit "display-name") ++ lit " just earned a new " ++
      kFormatNumbers (message.tagInt (lit "msg-param-threshold")) ++ lit " Bits badge!")
  else if msgType = lit "announcement" then pure (lit "Announcement")
  else if msgType = lit "subgift" then giftText message messageText
  else if msgType = lit "sub" ∨ msgType = lit "resub" then
    pure (subscriptionText message msgType messageText)
  else pure messageText

def addSystemMsg (message : IrcMessage) (channel : Channel) (msgType : QString) (mirrored : Bool)
    (messageText : QString) : Handler PUnit := do
  let text ← systemText message msgType messageText
  let parsed ← parseTagString text
  let msg := makeSystemMessage parsed
  let flags := msg.flags.set (if msgType = lit "viewermilestone" then .WatchStreak else .Subscription)
  let flags := if mirrored then flags.set .SharedMessage else flags
  Checked.call (.addMessage channel { msg with flags := flags })

def noticeType (message : IrcMessage) : QString × Bool :=
  let msgType := message.tagText (lit "msg-id")
  if msgType = lit "sharedchatnotice" then (message.tagText (lit "source-msg-id"), true)
  else (msgType, message.hasTag (lit "room-id") && message.hasTag (lit "source-room-id") &&
    message.tagText (lit "room-id") != message.tagText (lit "source-room-id"))

def noticeContent (parameters : List QString) : Handler QString :=
  if 2 ≤ parameters.length then Checked.read parameters 1 else pure []

def addSpecialMessage (message : IrcMessage) (channel : Channel) (msgType content : QString) :
    Handler PUnit :=
  if msgType ∈ SPECIAL_MESSAGE_TYPES ∧ content ≠ [] then
    addMessage env message channel content true false msgType
  else pure ⟨⟩

def parseUserNoticeMessageInto (message : IrcMessage) (channel : Channel) : Handler PUnit :=
  let msgType := (noticeType message).1
  let mirrored := (noticeType message).2
  if mirrored ∧ msgType ≠ lit "announcement" then pure ⟨⟩
  else do
    let content ← noticeContent message.parameters
    if isIgnored env content (message.tagText (lit "user-id")) channel then pure ⟨⟩
    else
      addSpecialMessage env message channel msgType content
      match message.tag (lit "system-msg") with
      | none => pure ⟨⟩
      | some messageText => addSystemMsg message channel msgType mirrored messageText

def handleUserNoticeMessage (message : IrcMessage) : Handler PUnit :=
  let channel := env.getChannelOrEmpty (message.parameter 0)
  if channel.isTwitchChannel then parseUserNoticeMessageInto env message channel else pure ⟨⟩

def parseNoticeMessage (message : IrcMessage) : ChatMessage :=
  if startsWithCaseInsensitive message.content (lit "Login auth") then
    makeSystemMessage (lit "Login expired for user \"" ++ env.userName ++
      lit "\"! Try adding your account again.")
  else if lit "You are permanently banned " <+: message.content then generateBannedMessage true
  else if message.tag (lit "msg-id") = some (lit "msg_timedout") then
    let remainingTime := formatTimeText ((message.content.splitOn SPACE)[5]?.getD [])
    makeSystemMessage (arg (lit "You are timed out for %1.")
      (if remainingTime.isEmpty then lit "0s" else remainingTime))
  else makeSystemMessage message.content

def noticeText (message : IrcMessage) : QString :=
  let messageText := (parseNoticeMessage env message).messageText
  if message.tagText (lit "msg-id") = lit "vips_success" then messageText.dropLast else messageText

/-- A hosted channel, and the users of a list, are read from the text of the notice. -/
def handleChannelNotice (message : IrcMessage) (channel : Channel) : Handler PUnit :=
  let msg := parseNoticeMessage env message
  let tags := message.tagText (lit "msg-id")
  if tags = lit "usage_delete" then
    Checked.call (.addMessage channel (makeSystemMessage (lit
      "Usage: /delete <msg-id> - Deletes the specified message. Can't take more than one argument.")))
  else if tags = lit "bad_delete_message_error" then
    Checked.call (.addMessage channel (makeSystemMessage (lit
      "There was a problem deleting the message. It might be from another channel or too old to delete.")))
  else if tags = lit "host_on" ∨ tags = lit "host_target_went_offline" then
    let hostOn := tags = lit "host_on"
    let parts := msg.messageText.splitOn SPACE
    if (hostOn ∧ parts.length ≠ 3) ∨ (¬ hostOn ∧ parts.length ≠ 7) then pure ⟨⟩
    else do
      let hostedChannelName ← Checked.read parts (if hostOn then 2 else 0)
      if hostedChannelName.length < 2 then pure ⟨⟩
      else
        let name := if hostOn then hostedChannelName.dropLast else hostedChannelName
        Checked.call (.addMessage channel (makeHostingSystemMessage name hostOn))
  else if tags = lit "room_mods" ∨ tags = lit "vips_success" then do
    let msgParts := (noticeText env message).splitOn COLON
    let names ← Checked.read msgParts 1
    let users := env.sortCaseInsensitive (splitText (lit ", ") 0 [] (names.drop 1))
    let prefixText ← Checked.read msgParts 0
    Checked.call (.addMessage channel (makeListOfUsersMessage prefixText users))
  else Checked.call (.addMessage channel msg)

def specialChannels : List Channel :=
  [env.whispersChannel, env.mentionsChannel, env.liveChannel, env.automodChannel]

def noticeChannel (message : IrcMessage) : Option Channel :=
  match trimChannelName message.target with
  | none => none
  | some channelName => if channelName = lit "jtv" then none else some (env.getChannelOrEmpty channelName)

def handleNoticeMessage (message : IrcMessage) : Handler PUnit :=
  match noticeChannel env message with
  | none =>
    let msg := parseNoticeMessage env message
    Checked.callAll ((env.forEachChannel ++ specialChannels env).map fun c => .addMessage c msg)
  | some channel => if channel.isEmpty then pure ⟨⟩ else handleChannelNotice env message channel

def handleJoinMessage (message : IrcMessage) : Handler PUnit :=
  let channel := env.getChannelOrEmpty ((message.parameter 0).drop 1)
  if !channel.isTwitchChannel then pure ⟨⟩
  else if message.nick = env.userName then do
    Checked.call (.addMessage channel (makeSystemMessage (lit "joined channel")))
    Checked.call (.joined channel)
  else Checked.callAll (if env.settings.showJoins then [.addJoinedUser channel message.nick] else [])

def handlePartMessage (message : IrcMessage) : Handler PUnit :=
  let channel := env.getChannelOrEmpty ((message.parameter 0).drop 1)
  if !channel.isTwitchChannel then pure ⟨⟩
  else if message.nick = env.userName then
    Checked.call (.addMessage channel (generateBannedMessage false))
  else Checked.callAll (if env.settings.showParts then [.addPartedUser channel message.nick] else [])

def addGlobalSystemMessage (messageText : QString) : Handler PUnit :=
  Checked.callAll (env.forEachChannel.map fun c => .addMessage c (makeSystemMessage messageText))

def RECONNECT_TEXT : QString := lit "Twitch Servers requested us to reconnect, reconnecting"

def privateMessageReceived (message : IrcMessage) : Handler PUnit := handlePrivMessage env message

def readConnectionMessageReceived (message : IrcMessage) : Handler PUnit :=
  let command := message.command
  if message.isPrivate then pure ⟨⟩
  else if command = lit "JOIN" then handleJoinMessage env message
  else if command = lit "PART" then handlePartMessage env message
  else if command = lit "USERSTATE" then handleUserStateMessage env message
  else if command = lit "ROOMSTATE" then handleRoomStateMessage env message
  else if command = lit "CLEARCHAT" then handleClearChatMessage env message
  else if command = lit "CLEARMSG" then handleClearMessageMessage env message
  else if command = lit "USERNOTICE" then handleUserNoticeMessage env message
  else if command = lit "NOTICE" then handleNoticeMessage env message
  else if command = lit "WHISPER" then handleWhisperMessage env message
  else if command = lit "RECONNECT" then do
    addGlobalSystemMessage env RECONNECT_TEXT
    Checked.callAll [.markChannelsConnected, .connect]
  else pure ⟨⟩

def writeConnectionMessageReceived (message : IrcMessage) : Handler PUnit :=
  let command := message.command
  if command = lit "USERSTATE" then handleUserStateMessage env message
  else if command = lit "NOTICE" then handleNoticeMessage env message
  else if command = lit "RECONNECT" then do
    addGlobalSystemMessage env RECONNECT_TEXT
    Checked.call .connect
  else pure ⟨⟩

inductive Delivery where
  | privateMessage | readConnection | writeConnection
deriving DecidableEq

def received : Delivery → IrcMessage → Handler PUnit
  | .privateMessage, message => privateMessageReceived env message
  | .readConnection, message => readConnectionMessageReceived env message
  | .writeConnection, message => writeConnectionMessageReceived env message

end

end Chatterino.Twitch.IrcHandlers
