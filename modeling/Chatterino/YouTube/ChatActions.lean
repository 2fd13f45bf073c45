import Chatterino.Lib.ListSearch
import Chatterino.Lib.Retraction
import Chatterino.Messages.LimitedQueue
import Chatterino.Messages.Message
import Chatterino.Qt.QJson
import Chatterino.YouTube.YouTubeChannel

/-! # The actions of a YouTube chat

A poll answers with a list of actions. The reader sorts them into messages, deleted messages and
banned authors, and the channel applies what it was given. Moments of time, colours and the delay of
the next poll are left out.
-/

namespace Chatterino.YouTube

open Lib QString QJsonObject

inductive YouTubeItemKind where
  | Text | SuperChat | SuperSticker | NewMember | MemberMilestone | GiftPurchase | GiftRedemption
  deriving DecidableEq, Repr

structure YouTubeRun where
  text : QString := []
  emojiUrl : QString := []
  emojiLabel : QString := []
  isCustomEmoji : Bool := false
  deriving DecidableEq

def YouTubeRun.isEmoji (run : YouTubeRun) : Bool := !run.emojiUrl.isEmpty

structure YouTubeAuthor where
  channelId : QString := []
  name : QString := []
  avatarUrl : QString := []
  isOwner : Bool := false
  isModerator : Bool := false
  isVerified : Bool := false
  isMember : Bool := false
  memberBadgeUrl : QString := []
  memberBadgeTooltip : QString := []
  deriving DecidableEq

structure YouTubeMessage where
  id : QString := []
  author : YouTubeAuthor := {}
  runs : List YouTubeRun := []
  kind : YouTubeItemKind := .Text
  purchaseAmount : QString := []
  eventHeadline : QString := []
  deriving DecidableEq

def YouTubeMessage.plainText (message : YouTubeMessage) : QString :=
  message.runs.flatMap fun run => if run.isEmoji then run.emojiLabel else run.text

section

variable {F : Type}

def objectAt (key : String) (object : QJsonObject F) : QJsonObject F := (value key object).toObject

def arrayAt (key : String) (object : QJsonObject F) : List (QJsonValue F) := (value key object).toArray

def textAt (key : String) (object : QJsonObject F) : QString := (value key object).toString

def largestThumbnail (holder : QJsonObject F) : QString :=
  match (arrayAt "thumbnails" holder).getLast? with
  | none => []
  | some thumbnail =>
    let url := textAt "url" thumbnail.toObject
    let url := if (lit "//").isPrefixOf url then lit "https:" ++ url else url
    -- anything else is dropped
    if (lit "https://").isPrefixOf url then url else []

def parseEmoji (emoji : QJsonObject F) : YouTubeRun :=
  let isCustomEmoji := (value "isCustomEmoji" emoji).toBool false
  let literal := textAt "emojiId" emoji
  let emojiLabel :=
    match arrayAt "shortcuts" emoji with
    | [] => literal
    | shortcut :: _ => shortcut.toString
  let run : YouTubeRun :=
    { emojiUrl := largestThumbnail (objectAt "image" emoji), isCustomEmoji, emojiLabel }
  -- the id of a unicode emoji is the character itself
  let run :=
    if !isCustomEmoji && !literal.isEmpty && literal.length ≤ 8 then { run with text := literal, emojiUrl := [] }
    else run
  if run.emojiUrl.isEmpty && run.text.isEmpty then { run with text := run.emojiLabel } else run

def parseRun (run : QJsonObject F) : Option YouTubeRun :=
  if contains "emoji" run then some (parseEmoji (objectAt "emoji" run))
  else if (textAt "text" run).isEmpty then none
  else some { text := textAt "text" run }

def parseRuns (messageObj : QJsonObject F) : List YouTubeRun :=
  (arrayAt "runs" messageObj).filterMap fun runValue => parseRun runValue.toObject

def runsToText (holder : QJsonObject F) : QString :=
  let out := (arrayAt "runs" holder).flatMap fun runValue => textAt "text" runValue.toObject
  if out.isEmpty then textAt "simpleText" holder else out

def YouTubeAuthor.addBadge (author : YouTubeAuthor) (badgeValue : QJsonValue F) : YouTubeAuthor :=
  let badge := objectAt "liveChatAuthorBadgeRenderer" badgeValue.toObject
  let iconType := textAt "iconType" (objectAt "icon" badge)
  if iconType = lit "OWNER" then { author with isOwner := true }
  else if iconType = lit "MODERATOR" then { author with isModerator := true }
  else if iconType = lit "VERIFIED" then { author with isVerified := true }
  else if contains "customThumbnail" badge then
    { author with
      isMember := true
      memberBadgeUrl := largestThumbnail (objectAt "customThumbnail" badge)
      memberBadgeTooltip := textAt "tooltip" badge }
  else author

def parseAuthor (r : QJsonObject F) : YouTubeAuthor :=
  (arrayAt "authorBadges" r).foldl YouTubeAuthor.addBadge
    { channelId := textAt "authorExternalChannelId" r
      name := runsToText (objectAt "authorName" r)
      avatarUrl := largestThumbnail (objectAt "authorPhoto" r) }

def parseCommonFields (r : QJsonObject F) : YouTubeMessage where
  id := textAt "id" r
  author := parseAuthor r

def parsePaid (r : QJsonObject F) : YouTubeMessage :=
  { parseCommonFields r with
    kind := .SuperChat
    runs := parseRuns (objectAt "message" r)
    purchaseAmount := runsToText (objectAt "purchaseAmountText" r) }

def parseSticker (r : QJsonObject F) : YouTubeMessage :=
  { parseCommonFields r with
    kind := .SuperSticker
    purchaseAmount := runsToText (objectAt "purchaseAmountText" r)
    eventHeadline := lit "sent a Super Sticker" }

def parseMembership (r : QJsonObject F) : YouTubeMessage :=
  let primary := runsToText (objectAt "headerPrimaryText" r)
  let subtext := runsToText (objectAt "headerSubtext" r)
  { parseCommonFields r with
    kind := if primary.isEmpty then .NewMember else .MemberMilestone
    eventHeadline := if primary.isEmpty then subtext else primary
    runs := parseRuns (objectAt "message" r) }

/-- The author of a gift stands in its header. -/
def parseGift (r : QJsonObject F) : YouTubeMessage :=
  let header := objectAt "liveChatSponsorshipsHeaderRenderer" (objectAt "header" r)
  let msg := parseCommonFields r
  { msg with
    author := if msg.author.name.isEmpty then parseAuthor header else msg.author
    kind := .GiftPurchase
    eventHeadline := runsToText (objectAt "primaryText" header) }

def parseChatItem (item : QJsonObject F) : Option YouTubeMessage :=
  let text := objectAt "liveChatTextMessageRenderer" item
  let paid := objectAt "liveChatPaidMessageRenderer" item
  let sticker := objectAt "liveChatPaidStickerRenderer" item
  let membership := objectAt "liveChatMembershipItemRenderer" item
  let gift := objectAt "liveChatSponsorshipsGiftPurchaseAnnouncementRenderer" item
  let redemption := objectAt "liveChatSponsorshipsGiftRedemptionAnnouncementRenderer" item
  if !text.isEmpty then some { parseCommonFields text with runs := parseRuns (objectAt "message" text) }
  else if !paid.isEmpty then some (parsePaid paid)
  else if !sticker.isEmpty then some (parseSticker sticker)
  else if !membership.isEmpty then some (parseMembership membership)
  else if !gift.isEmpty then some (parseGift gift)
  else if !redemption.isEmpty then
    some { parseCommonFields redemption with
      kind := .GiftRedemption
      eventHeadline := runsToText (objectAt "message" redemption) }
  else none

inductive ChatAction where
  | add (message : YouTubeMessage)
  | delete (targetItemId : QString)
  | ban (externalChannelId : QString)

def chatAction (action : QJsonObject F) : Option ChatAction :=
  if contains "addChatItemAction" action then
    (parseChatItem (objectAt "item" (objectAt "addChatItemAction" action))).map .add
  else if contains "markChatItemAsDeletedAction" action then
    some (.delete (textAt "targetItemId" (objectAt "markChatItemAsDeletedAction" action)))
  else if contains "removeChatItemAction" action then
    some (.delete (textAt "targetItemId" (objectAt "removeChatItemAction" action)))
  else if contains "markChatItemsByAuthorAsDeletedAction" action then
    some (.ban (textAt "externalChannelId" (objectAt "markChatItemsByAuthorAsDeletedAction" action)))
  else none

/-- An action is read where it stands: the number of the action and, within a replay, of the inner
one. The place tells messages apart. -/
abbrev Place := Nat × Nat

structure ChatPoll where
  ok : Bool := false
  error : QString := []
  fatal : Bool := false
  messages : List (Place × YouTubeMessage) := []
  deletedMessageIds : List QString := []
  bannedAuthorIds : List QString := []
  nextContinuation : QString := []

def replayed (action : QJsonObject F) : List (QJsonValue F) :=
  if contains "replayChatItemAction" action then arrayAt "actions" (objectAt "replayChatItemAction" action) else []

def unwrapped (action : QJsonObject F) : QJsonObject F :=
  match replayed action with
  | [] => action
  | inner :: _ => inner.toObject

def ChatPoll.push (result : ChatPoll) (place : Place) : Option ChatAction → ChatPoll
  | some (.add message) => { result with messages := result.messages ++ [(place, message)] }
  | some (.delete id) => { result with deletedMessageIds := result.deletedMessageIds ++ [id] }
  | some (.ban id) => { result with bannedAuthorIds := result.bannedAuthorIds ++ [id] }
  | none => result

/-- The token of the first member that has one. The members stand in Qt's order. -/
def nextContinuation (lcc : QJsonObject F) : QString :=
  match arrayAt "continuations" lcc with
  | [] => []
  | next :: _ =>
    match next.toObject.find? fun entry => contains "continuation" entry.2.toObject with
    | some entry => textAt "continuation" entry.2.toObject
    | none => []

def liveChatContinuation (doc : QJsonObject F) : QJsonObject F :=
  objectAt "liveChatContinuation" (objectAt "continuationContents" doc)

def readActions (lcc : QJsonObject F) : ChatPoll :=
  (arrayAt "actions" lcc).zipIdx.foldl
    (fun result entry => result.push (entry.2, 0) (chatAction (unwrapped entry.1.toObject))) {}

inductive PollReply (F : Type) where
  | failed (status : Nat) (errorString : QString)
  | finished (doc : QJsonObject F)

def poll : PollReply F → ChatPoll
  -- the continuation is dead, so retrying will never recover
  | .failed status errorString => { error := errorString, fatal := status = 404 || status = 400 }
  | .finished doc =>
    let lcc := liveChatContinuation doc
    if lcc.isEmpty then { error := lit "Live chat has ended", fatal := true }
    else
      let result : ChatPoll := { readActions lcc with nextContinuation := nextContinuation lcc }
      if result.nextContinuation.isEmpty then { result with error := lit "Live chat has ended", fatal := true }
      else { result with ok := true }

end

inductive ChatContent where
  | item (message : YouTubeMessage)
  | text (text : QString)
  deriving DecidableEq

structure ChatMessage where
  id : QString := []
  loginName : QString := []
  displayName : QString := []
  messageText : QString := []
  flags : MessageFlags := ∅
  content : ChatContent
  /-- Where its action stands in the response that is handled. None for the messages from before. -/
  place : Option Place := none
  deriving DecidableEq

namespace ChatMessage

def ofItem (place : Place) (message : YouTubeMessage) : ChatMessage where
  id := message.id
  loginName := message.author.channelId
  displayName := message.author.name
  messageText := message.plainText
  flags :=
    let flags : MessageFlags := FlagsEnum.set ∅ .YouTube
    if message.kind ≠ .Text then flags.set .Highlighted else flags
  content := .item message
  place := some place

def ofSystem (text : QString) : ChatMessage where
  flags := ((FlagsEnum.set ∅ .System).set .DoNotTriggerNotification).set .YouTube
  content := .text text

def disabled (message : ChatMessage) : ChatMessage := { message with flags := message.flags.set .Disabled }

def isBy (channelId : QString) (message : ChatMessage) : Bool :=
  match message.content with
  | .item item => item.author.channelId = channelId
  | .text _ => false

theorem disabled_eq_self_iff {message : ChatMessage} : message.disabled = message ↔ .Disabled ∈ message.flags := by
  constructor
  · intro h
    rw [← h]
    exact Finset.mem_insert_self _ _
  · intro h
    rw [disabled, FlagsEnum.set, Finset.insert_eq_of_mem h]

end ChatMessage

structure ChatChannel where
  messages_ : LimitedQueue ChatMessage
  targetIsChannel_ : Bool
  consecutiveFailures_ : Nat := 0

namespace ChatChannel

def addMessage (message : ChatMessage) (channel : ChatChannel) : ChatChannel :=
  { channel with messages_ := (channel.messages_.pushBack message).1 }

def addSystemMessage (text : QString) (channel : ChatChannel) : ChatChannel :=
  channel.addMessage (.ofSystem text)

def handleMessage (place : Place) (message : YouTubeMessage) (channel : ChatChannel) : ChatChannel :=
  channel.addMessage (.ofItem place message)

def findMessageByID (messageID : QString) (channel : ChatChannel) : Option (Nat × ChatMessage) :=
  let snapshot := channel.messages_.getSnapshot
  scanBack (fun _ => False) (fun msg : ChatMessage => msg.id = messageID) snapshot.length snapshot.reverse

def disableMessage (messageID : QString) (channel : ChatChannel) : ChatChannel :=
  match channel.findMessageByID messageID with
  | some found => { channel with messages_ := channel.messages_.set found.1 found.2.disabled }
  | none => channel

def endedText (targetIsChannel_ : Bool) : QString :=
  if targetIsChannel_ then lit "Live chat ended. Watching for the next stream..." else lit "Live chat ended."

/-- The callback of a poll. -/
def onPoll (poll : ChatPoll) (channel : ChatChannel) : ChatChannel :=
  if !poll.ok then
    if poll.fatal then channel.addSystemMessage (endedText channel.targetIsChannel_)
    else
      let channel : ChatChannel := { channel with consecutiveFailures_ := channel.consecutiveFailures_ + 1 }
      if channel.consecutiveFailures_ ≥ YouTubeChannel.MAX_CONSECUTIVE_FAILURES then
        channel.addSystemMessage ((lit "Lost the YouTube chat connection: %1").arg poll.error)
      else channel
  else
    let channel : ChatChannel := { channel with consecutiveFailures_ := 0 }
    let channel := poll.messages.foldl (fun channel entry => channel.handleMessage entry.1 entry.2) channel
    poll.deletedMessageIds.foldl (fun channel id => channel.disableMessage id) channel

end ChatChannel

def chatMarking : Marking ChatMessage QString QString where
  id := ChatMessage.id
  isBy := ChatMessage.isBy
  mark := ChatMessage.disabled
  id_mark _ := rfl
  isBy_mark _ _ := rfl
  mark_mark _ := ChatMessage.disabled_eq_self_iff.mpr (Finset.mem_insert_self _ _)

abbrev ChatChange := Change ChatMessage QString QString

def ChatAction.change (place : Place) : ChatAction → ChatChange
  | add message => .append (.ofItem place message)
  | delete targetItemId => .retract targetItemId
  | ban externalChannelId => .retractAll externalChannelId

section

variable {F : Type}

def flattened (action : QJsonObject F) : List (QJsonObject F) :=
  match replayed action with
  | [] => [action]
  | inner => inner.map QJsonValue.toObject

def placedActions (lcc : QJsonObject F) : List (Place × ChatAction) :=
  (arrayAt "actions" lcc).zipIdx.flatMap fun entry =>
    (flattened entry.1.toObject).zipIdx.filterMap fun inner =>
      (chatAction inner.1).map fun action => ((entry.2, inner.2), action)

def changes (lcc : QJsonObject F) : List ChatChange :=
  (placedActions lcc).map fun entry => entry.2.change entry.1

namespace ChatChannel

def ending (channel : ChatChannel) (lcc : QJsonObject F) : List ChatMessage :=
  if nextContinuation lcc = [] then [.ofSystem (endedText channel.targetIsChannel_)] else []

def inOrder (channel : ChatChannel) (lcc : QJsonObject F) : List ChatMessage :=
  let limit := channel.messages_.limit
  ((changes lcc).foldl (chatMarking.apply limit) channel.messages_.getSnapshot ++ channel.ending lcc).rtake limit

def AppliesInOrder (channel : ChatChannel) (doc : QJsonObject F) : Prop :=
  (channel.onPoll (poll (.finished doc))).messages_.getSnapshot = channel.inOrder (liveChatContinuation doc)

end ChatChannel

end

end Chatterino.YouTube
