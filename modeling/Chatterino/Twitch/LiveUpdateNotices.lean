import Chatterino.Common.DisabledMessages

/-! # Notices about emotes that were added or removed

A notice is merged into the last one by replacing its message. The last message is found through a weak pointer,
which leads to it for as long as anyone holds it, whether the buffer does or not.
-/

namespace Chatterino.Twitch

open Lib QString

/-- A listed emote, and which notice it came with. The program keeps the name alone. -/
structure EmoteName where
  name : QString
  notice : Nat
deriving DecidableEq

/-- What the merging reads of a message. The time is a time of day in milliseconds. -/
structure ChannelMessage where
  flags : MessageFlags
  loginName : QString
  messageText : QString
  parseTime : Nat

structure ListingMessage extends ChannelMessage where
  emoteNames : List EmoteName := []

def appendEmoteNames (size : Nat) : Nat → List QString → QString → QString
  | _, [], text => text
  | i, emoteName :: emoteNames, text =>
    let text := if 0 < i then text ++ (if i + 1 = size then lit " and " else lit ", ") else text
    appendEmoteNames size (i + 1) emoteNames (text ++ emoteName)

def formatUpdatedEmoteList (platform : QString) (emoteNames : List QString) (isAdd isFirstWord : Bool) : QString :=
  let text := if isAdd then (if isFirstWord then lit "Added" else lit "added")
    else (if isFirstWord then lit "Removed" else lit "removed")
  let text := if emoteNames.length = 1 then text ++ arg (lit " %1 emote ") platform
    else text ++ arg (arg (lit " %1 %2 emotes ") (number emoteNames.length)) platform
  appendEmoteNames emoteNames.length 0 emoteNames text ++ lit "."

theorem infix_appendEmoteNames (size i : Nat) (emoteNames : List QString) (text : QString) :
    text <+: appendEmoteNames size i emoteNames text ∧
      ∀ emoteName ∈ emoteNames, emoteName <:+: appendEmoteNames size i emoteNames text := by
  induction emoteNames generalizing i text with
  | nil => exact ⟨List.prefix_refl _, fun _ hMem => absurd hMem List.not_mem_nil⟩
  | cons first emoteNames ih =>
    rw [appendEmoteNames]
    obtain ⟨hPrefix, hInfix⟩ := ih (i + 1)
      ((if 0 < i then text ++ (if i + 1 = size then lit " and " else lit ", ") else text) ++ first)
    constructor
    · refine List.IsPrefix.trans ?_ hPrefix
      split
      · rw [List.append_assoc]
        exact List.prefix_append _ _
      · exact List.prefix_append _ _
    · intro emoteName hMem
      rcases List.mem_cons.mp hMem with rfl | hMem
      · exact (List.suffix_append _ _).isInfix.trans hPrefix.isInfix
      · exact hInfix emoteName hMem

theorem infix_formatUpdatedEmoteList {platform emoteName : QString} {emoteNames : List QString}
    (isAdd isFirstWord : Bool) (hMem : emoteName ∈ emoteNames) :
    emoteName <:+: formatUpdatedEmoteList platform emoteNames isAdd isFirstWord :=
  ((infix_appendEmoteNames _ _ _ _).2 emoteName hMem).trans (List.prefix_append _ _).isInfix

def operationFlag (isEmoteAdd : Bool) : MessageFlag := if isEmoteAdd then .LiveUpdatesAdd else .LiveUpdatesRemove

/-- The builders of both kinds. The text of the list and the actor are put in at once. -/
def liveUpdatesMessage (isAdd : Bool) (platform actor : QString) (emoteNames : List EmoteName) (currentTime : Nat) :
    ListingMessage :=
  let text := formatUpdatedEmoteList platform (emoteNames.map EmoteName.name) isAdd actor.isEmpty
  { flags := {.System, operationFlag isAdd, .DoNotTriggerNotification}
    loginName := actor
    messageText := if actor.isEmpty then text else actor ++ lit " " ++ text
    parseTime := currentTime
    emoteNames := emoteNames }

def liveUpdatesAddEmoteMessage := liveUpdatesMessage true

def liveUpdatesRemoveEmoteMessage := liveUpdatesMessage false

theorem infix_liveUpdatesMessage {isAdd : Bool} {platform actor : QString} {emoteNames : List EmoteName}
    {currentTime : Nat} {emoteName : EmoteName} (hMem : emoteName ∈ emoteNames) :
    emoteName.name <:+: (liveUpdatesMessage isAdd platform actor emoteNames currentTime).messageText := by
  have hText := @infix_formatUpdatedEmoteList platform emoteName.name _ isAdd actor.isEmpty
    (List.mem_map_of_mem hMem)
  dsimp only [liveUpdatesMessage]
  split
  · exact hText
  · exact hText.trans (List.suffix_append _ _).isInfix

structure LiveUpdateChannel where
  messages_ : LimitedQueue MessagePtr
  objects : MessagePtr → ListingMessage
  next : MessagePtr
  /-- References that views, popups and others have, one entry each. -/
  held : List MessagePtr
  lastLiveUpdateEmotePlatform_ : QString
  lastLiveUpdateMessage_ : Option MessagePtr
  lastLiveUpdateEmoteActor_ : QString
  lastLiveUpdateEmoteNames_ : List EmoteName
  notices : Nat

namespace LiveUpdateChannel

def ofLimit (limit : Nat) : LiveUpdateChannel where
  messages_ := .ofLimit limit
  objects _ := { flags := ∅, loginName := [], messageText := [], parseTime := 0 }
  next := 0
  held := []
  lastLiveUpdateEmotePlatform_ := []
  lastLiveUpdateMessage_ := none
  lastLiveUpdateEmoteActor_ := []
  lastLiveUpdateEmoteNames_ := []
  notices := 0

def alive (channel : LiveUpdateChannel) (msg : MessagePtr) : Bool :=
  msg ∈ channel.messages_.getSnapshot || msg ∈ channel.held

def dayMs : Nat := 24 * 60 * 60 * 1000

/-- `QTime::addSecs` of minus five seconds, which wraps at midnight. -/
def fiveSecondsBefore (currentTime : Nat) : Nat := (currentTime + dayMs - 5000) % dayMs

/-- The last message, if all checks let it through. -/
def lastToReplace (op : MessageFlag) (platform actor : QString) (currentTime : Nat) (channel : LiveUpdateChannel) :
    Option MessagePtr :=
  if channel.lastLiveUpdateEmotePlatform_ ≠ platform then none
  else match channel.lastLiveUpdateMessage_.filter channel.alive with
    | none => none
    | some last =>
      if !(channel.objects last).flags.has op ∨
          (channel.objects last).parseTime < fiveSecondsBefore currentTime ∨
          (channel.objects last).loginName ≠ actor then none
      else some last

def replacement (isAdd : Bool) (platform : QString) (emoteName : EmoteName) (currentTime : Nat) (last : MessagePtr)
    (channel : LiveUpdateChannel) : ListingMessage :=
  let emoteNames := channel.lastLiveUpdateEmoteNames_ ++ [emoteName]
  { liveUpdatesMessage isAdd platform (channel.objects last).loginName emoteNames currentTime with
    flags := (channel.objects last).flags }

def replaceLast (isAdd : Bool) (platform : QString) (emoteName : EmoteName) (currentTime : Nat) (last : MessagePtr)
    (channel : LiveUpdateChannel) : LiveUpdateChannel :=
  { channel with
    lastLiveUpdateEmoteNames_ := channel.lastLiveUpdateEmoteNames_ ++ [emoteName]
    objects := Function.update channel.objects channel.next
      (channel.replacement isAdd platform emoteName currentTime last)
    next := channel.next + 1
    lastLiveUpdateMessage_ := some channel.next
    messages_ := (channel.messages_.replaceItem last channel.next).1 }

def tryReplaceLastLiveUpdateAddOrRemove (isAdd : Bool) (platform actor : QString) (emoteName : EmoteName)
    (currentTime : Nat) (channel : LiveUpdateChannel) : Option LiveUpdateChannel :=
  (channel.lastToReplace (operationFlag isAdd) platform actor currentTime).map
    fun last => channel.replaceLast isAdd platform emoteName currentTime last

def addMessage (message : ListingMessage) (channel : LiveUpdateChannel) : LiveUpdateChannel :=
  { channel with
    messages_ := (channel.messages_.pushBack channel.next).1
    objects := Function.update channel.objects channel.next message
    next := channel.next + 1 }

def remembering (platform actor : QString) (notice : EmoteName) (channel : LiveUpdateChannel) : LiveUpdateChannel :=
  { channel with
    lastLiveUpdateEmoteNames_ := [notice]
    lastLiveUpdateEmotePlatform_ := platform
    lastLiveUpdateMessage_ := some channel.next
    lastLiveUpdateEmoteActor_ := actor }

def counted (channel : LiveUpdateChannel) : LiveUpdateChannel := { channel with notices := channel.notices + 1 }

def addOrReplaceLiveUpdatesAddRemove (isEmoteAdd : Bool) (platform actor emoteName : QString) (currentTime : Nat)
    (channel : LiveUpdateChannel) : LiveUpdateChannel :=
  let notice : EmoteName := ⟨emoteName, channel.notices⟩
  match channel.counted.tryReplaceLastLiveUpdateAddOrRemove isEmoteAdd platform actor notice currentTime with
  | some channel => channel
  | none =>
    let msg := if isEmoteAdd then liveUpdatesAddEmoteMessage platform actor [notice] currentTime
      else liveUpdatesRemoveEmoteMessage platform actor [notice] currentTime
    (channel.counted.remembering platform actor notice).addMessage msg

def clearMessages (channel : LiveUpdateChannel) : LiveUpdateChannel :=
  { channel with messages_ := channel.messages_.clear }

end LiveUpdateChannel

inductive LiveUpdateEvent where
  | addOrReplaceLiveUpdatesAddRemove (isEmoteAdd : Bool) (platform actor emoteName : QString) (currentTime : Nat)
  | addMessage (message : ChannelMessage)
  | clearMessages
  /-- Someone takes, or gives back, a reference to a message. -/
  | held (msg : MessagePtr)
  | released (msg : MessagePtr)

def LiveUpdateChannel.step (channel : LiveUpdateChannel) : LiveUpdateEvent → LiveUpdateChannel
  | .addOrReplaceLiveUpdatesAddRemove isEmoteAdd platform actor emoteName currentTime =>
    channel.addOrReplaceLiveUpdatesAddRemove isEmoteAdd platform actor emoteName currentTime
  | .addMessage message => channel.addMessage { message with }
  | .clearMessages => channel.clearMessages
  | .held msg => if channel.alive msg then { channel with held := msg :: channel.held } else channel
  | .released msg => { channel with held := channel.held.erase msg }

end Chatterino.Twitch
