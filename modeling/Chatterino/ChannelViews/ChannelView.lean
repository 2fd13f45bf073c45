import Chatterino.Common.FillIn
import Chatterino.Messages.Selection
import Mathlib.Data.Fintype.Sets

/-! # The proxy channel of a view

A view keeps the messages that pass its filters in a channel of its own. The operations return
what the signals of that channel are invoked with, if they are.
-/

namespace Chatterino

open Lib

structure ProxyChannel (MessagePtr : Type) where
  messages_ : LimitedQueue MessagePtr
  /-- The day of the last message, counted in days. -/
  lastDate_ : Nat
  /-- The limit is a setting of type int. -/
  limit_lt : messages_.limit < 2 ^ 31

namespace ProxyChannel

variable {MessagePtr : Type} {channel : ProxyChannel MessagePtr}

def getMessageSnapshot (channel : ProxyChannel MessagePtr) : List MessagePtr := channel.messages_.getSnapshot

def ofLimit (limit currentDate : Nat) (limit_lt : limit < 2 ^ 31) : ProxyChannel MessagePtr where
  messages_ := .ofLimit limit
  lastDate_ := currentDate
  limit_lt := limit_lt

def addMessage (message : MessagePtr) (channel : ProxyChannel MessagePtr) : ProxyChannel MessagePtr :=
  { channel with
    messages_ := (channel.messages_.pushBack message).1
    limit_lt := channel.limit_lt }

/-- With the messages that were added. -/
def addMessagesAtStart (messages : List MessagePtr) (channel : ProxyChannel MessagePtr) :
    ProxyChannel MessagePtr × Option (List MessagePtr) :=
  let addedMessages := (channel.messages_.pushFront messages).2
  ({ channel with
      messages_ := (channel.messages_.pushFront messages).1
      limit_lt := channel.limit_lt },
    if addedMessages.length ≠ 0 then some addedMessages else none)

section needle

variable [DecidableEq MessagePtr]

@[simp] theorem limit_replaceItemHinted (q : LimitedQueue MessagePtr) (hint : Nat) (needle replacement : MessagePtr) :
    (q.replaceItemHinted hint needle replacement).1.limit = q.limit := by
  unfold LimitedQueue.replaceItemHinted LimitedQueue.replaceItem
  split
  · rfl
  · split <;> rfl

/-- With whether listeners are told. They are given the hint. -/
def replaceMessage (hint : Nat) (message replacement : MessagePtr) (channel : ProxyChannel MessagePtr) :
    ProxyChannel MessagePtr × Bool :=
  let replaced := channel.messages_.replaceItemHinted hint message replacement
  ({ channel with
      messages_ := replaced.1
      limit_lt := by
        rw [limit_replaceItemHinted]
        exact channel.limit_lt }, 0 ≤ replaced.2)

@[simp] theorem limit_fillInMissingMessages (deref : MessagePtr → Message) (q : LimitedQueue MessagePtr)
    (messages : List MessagePtr) : (FillIn.fillInMissingMessages deref q messages).1.limit = q.limit := by
  have hStep (snapshot : List MessagePtr) (st : FillIn.FillState MessagePtr) :
      (messages.foldl (FillIn.fillStep deref snapshot) st).messages_.limit = st.messages_.limit := by
    induction messages generalizing st with
    | nil => rfl
    | cons msg messages ih =>
      rw [List.foldl_cons, ih, FillIn.fillStep]
      split
      · rfl
      · split
        · exact LimitedQueue.limit_insertBefore _ _ _
        · exact LimitedQueue.limit_insertAfter _ _ _
  unfold FillIn.fillInMissingMessages
  split
  · rfl
  · split
    · rfl
    · exact hStep _ _

/-- With whether messages were filled in. -/
def fillInMissingMessages (deref : MessagePtr → Message) (messages : List MessagePtr)
    (channel : ProxyChannel MessagePtr) : ProxyChannel MessagePtr × Bool :=
  let filled := FillIn.fillInMissingMessages deref channel.messages_ messages
  ({ channel with
      messages_ := filled.1
      limit_lt := by
        rw [limit_fillInMissingMessages]
        exact channel.limit_lt }, filled.2.isSome)

end needle

end ProxyChannel

inductive PauseReason where
  | Mouse | Selection | DoubleClick | KeyboardModifier
deriving DecidableEq, Repr

instance : Fintype PauseReason where
  elems := {.Mouse, .Selection, .DoubleClick, .KeyboardModifier}
  complete := by
    intro reason
    cases reason <;> decide

structure ViewMessages (MessagePtr : Type) where
  messages_ : LimitedQueue MessagePtr
  pausable_ : Bool := false
  /-- A pause lasts until a time, or without end. -/
  pauses_ : PauseReason → Option (Option Nat) := fun _ => none
  /-- A uint32_t. -/
  pauseSelectionOffset_ : Nat := 0
  selection_ : Selection := {}
  doubleClickSelection_ : Selection := {}

namespace ViewMessages

variable {MessagePtr : Type}

def paused (view : ViewMessages MessagePtr) : Bool :=
  view.pausable_ && decide (∃ reason, view.pauses_ reason ≠ none)

def unpaused (view : ViewMessages MessagePtr) : ViewMessages MessagePtr :=
  { view with
    selection_ := view.selection_.shiftMessageIndex view.pauseSelectionOffset_
    doubleClickSelection_ := view.doubleClickSelection_.shiftMessageIndex view.pauseSelectionOffset_
    pauseSelectionOffset_ := 0 }

def updatePauses (view : ViewMessages MessagePtr) : ViewMessages MessagePtr :=
  if ∀ reason, view.pauses_ reason = none then view.unpaused else view

/-- When a pause ends that is asked for at `now`, given the one there is for the same reason. -/
def pauseUntil (previous : Option (Option Nat)) (msecs : Option Nat) (now : Nat) : Option Nat :=
  match msecs, previous with
  | none, _ => none
  | some msecs, none => some (now + msecs)
  | some msecs, some (some previousTimePoint) =>
    if previousTimePoint < now + msecs then some (now + msecs) else some previousTimePoint
  | some _, some none => none

def pause (reason : PauseReason) (msecs : Option Nat) (now : Nat) (view : ViewMessages MessagePtr) :
    ViewMessages MessagePtr :=
  updatePauses { view with
    pauses_ := Function.update view.pauses_ reason (some (pauseUntil (view.pauses_ reason) msecs now)) }

def unpause (reason : PauseReason) (view : ViewMessages MessagePtr) : ViewMessages MessagePtr :=
  if (view.pauses_ reason).isSome then
    updatePauses { view with pauses_ := Function.update view.pauses_ reason none }
  else view

def pauseTimeout (view : ViewMessages MessagePtr) : ViewMessages MessagePtr :=
  updatePauses { view with pauses_ := fun reason => (view.pauses_ reason).filter fun until_ => !until_.isSome }

def evicts (view : ViewMessages MessagePtr) : Bool := view.messages_.buffer_.full

def messageAppended (message : MessagePtr) (view : ViewMessages MessagePtr) : ViewMessages MessagePtr :=
  let appended := { view with messages_ := (view.messages_.pushBack message).1 }
  if view.evicts then
    if view.paused then { appended with pauseSelectionOffset_ := (view.pauseSelectionOffset_ + 1) % 2 ^ 32 }
    else
      { appended with
        selection_ := view.selection_.shiftMessageIndex 1
        doubleClickSelection_ := view.doubleClickSelection_.shiftMessageIndex 1 }
  else appended

def messageAddedAtStart (messages : List MessagePtr) (view : ViewMessages MessagePtr) : ViewMessages MessagePtr :=
  { view with messages_ := (view.messages_.pushFront messages).1 }

def layoutIndex [DecidableEq MessagePtr] (hint : Nat) (prev : MessagePtr) (view : ViewMessages MessagePtr) :
    Option Nat :=
  (view.messages_.findHinted hint fun message => message = prev).map Prod.fst

def messageReplaced [DecidableEq MessagePtr] (hint : Nat) (prev replacement : MessagePtr)
    (view : ViewMessages MessagePtr) : ViewMessages MessagePtr :=
  match view.layoutIndex hint prev with
  | none => view
  | some index => { view with messages_ := (view.messages_.replaceItemAt index replacement).1 }

def clearMessages (view : ViewMessages MessagePtr) : ViewMessages MessagePtr :=
  { view with messages_ := view.messages_.clear }

def messagesUpdated (snapshot : List MessagePtr) (view : ViewMessages MessagePtr) : ViewMessages MessagePtr :=
  { view with messages_ := snapshot.foldl (fun messages_ msg => (messages_.pushBack msg).1) view.messages_.clear }

def setSelection (start endItem : SelectionItem) (view : ViewMessages MessagePtr) : ViewMessages MessagePtr :=
  if view.selection_.start = start ∧ view.selection_.endItem = endItem then view
  else { view with selection_ := .ofItems start endItem }

def clearSelection (view : ViewMessages MessagePtr) : ViewMessages MessagePtr := { view with selection_ := {} }

end ViewMessages

structure MessageReading (MessagePtr : Type) where
  deref : MessagePtr → Message
  loginName : MessagePtr → QString
  equalsCaseInsensitive : QString → QString → Bool

structure ViewSurroundings where
  excludeUserMessagesFromFilter : Bool
  currentUserName : QString
  currentDate : Nat
  scrollbackSplitLimit : Nat
  limit_lt : scrollbackSplitLimit < 2 ^ 31

abbrev FilterSet (MessagePtr Underlying : Type) := MessagePtr → Option Underlying → Bool

structure ChannelView (MessagePtr Underlying : Type) extends ViewMessages MessagePtr where
  channel_ : ProxyChannel MessagePtr
  underlyingChannel_ : Option Underlying
  channelFilters_ : Option (FilterSet MessagePtr Underlying)
  surroundings : ViewSurroundings

inductive ViewEvent (MessagePtr Underlying : Type) where
  /-- Of the underlying channel. If the day has changed, the message that says so is created at `dayMessage`. -/
  | messageAppended (message dayMessage : MessagePtr)
  | messagesAddedAtStart (messages : List MessagePtr)
  | messageReplaced (index : Nat) (prev replacement : MessagePtr)
  | filledInMessages (messages : List MessagePtr)
  | messagesCleared
  | setChannel (underlyingChannel : Underlying) (snapshot : List MessagePtr)
  | setFilters (channelFilters : Option (FilterSet MessagePtr Underlying))
  | surroundingsChange (surroundings : ViewSurroundings)
  | pause (reason : PauseReason) (msecs : Option Nat) (now : Nat)
  | unpause (reason : PauseReason)
  | pauseTimeout
  | setSelection (start endItem : SelectionItem)
  | clearSelection

namespace ChannelView

variable {MessagePtr Underlying : Type} (reading : MessageReading MessagePtr)

def constructed (messagesLimit : Nat) (surroundings : ViewSurroundings)
    (channelFilters : Option (FilterSet MessagePtr Underlying)) : ChannelView MessagePtr Underlying where
  messages_ := .ofLimit messagesLimit
  channel_ := .ofLimit surroundings.scrollbackSplitLimit surroundings.currentDate surroundings.limit_lt
  underlyingChannel_ := none
  channelFilters_ := channelFilters
  surroundings := surroundings

def shouldIncludeMessage (view : ChannelView MessagePtr Underlying) (m : MessagePtr) : Bool :=
  match view.channelFilters_ with
  | some filter =>
    view.surroundings.excludeUserMessagesFromFilter &&
        reading.equalsCaseInsensitive view.surroundings.currentUserName (reading.loginName m) ||
      filter m view.underlyingChannel_
  | none => true

def addMessage (message : MessagePtr) (view : ChannelView MessagePtr Underlying) : ChannelView MessagePtr Underlying :=
  { view with
    toViewMessages := view.toViewMessages.messageAppended message
    channel_ := view.channel_.addMessage message }

def addMessagesAtStart (messages : List MessagePtr) (view : ChannelView MessagePtr Underlying) :
    ChannelView MessagePtr Underlying :=
  let added := view.channel_.addMessagesAtStart messages
  { view with
    toViewMessages := (added.2.map fun addedMessages => view.toViewMessages.messageAddedAtStart addedMessages).getD
      view.toViewMessages
    channel_ := added.1 }

def dayChanged (dayMessage : MessagePtr) (view : ChannelView MessagePtr Underlying) :
    ChannelView MessagePtr Underlying :=
  if view.channel_.lastDate_ ≠ view.surroundings.currentDate then
    addMessage dayMessage
      { view with
        channel_ := { view.channel_ with
          lastDate_ := view.surroundings.currentDate
          limit_lt := view.channel_.limit_lt } }
  else view

def onMessageAppended (message dayMessage : MessagePtr) (view : ChannelView MessagePtr Underlying) :
    ChannelView MessagePtr Underlying :=
  if view.shouldIncludeMessage reading message then (view.dayChanged dayMessage).addMessage message else view

def onMessagesAddedAtStart (messages : List MessagePtr) (view : ChannelView MessagePtr Underlying) :
    ChannelView MessagePtr Underlying :=
  let filtered := messages.filter (view.shouldIncludeMessage reading)
  if filtered.isEmpty then view else view.addMessagesAtStart filtered

section needle

variable [DecidableEq MessagePtr]

def onMessageReplaced (index : Nat) (prev replacement : MessagePtr) (view : ChannelView MessagePtr Underlying) :
    ChannelView MessagePtr Underlying :=
  if view.shouldIncludeMessage reading replacement then
    let replaced := view.channel_.replaceMessage index prev replacement
    { view with
      toViewMessages :=
        if replaced.2 then view.toViewMessages.messageReplaced index prev replacement else view.toViewMessages
      channel_ := replaced.1 }
  else view

def onFilledInMessages (messages : List MessagePtr) (view : ChannelView MessagePtr Underlying) :
    ChannelView MessagePtr Underlying :=
  let filtered := messages.filter (view.shouldIncludeMessage reading)
  let filled := view.channel_.fillInMissingMessages reading.deref filtered
  { view with
    toViewMessages :=
      if filled.2 then view.toViewMessages.messagesUpdated filled.1.getMessageSnapshot else view.toViewMessages
    channel_ := filled.1 }

end needle

def onMessagesCleared (view : ChannelView MessagePtr Underlying) : ChannelView MessagePtr Underlying :=
  { view with toViewMessages := view.toViewMessages.clearMessages }

def copyMessage (view : ChannelView MessagePtr Underlying) (msg : MessagePtr) : ChannelView MessagePtr Underlying :=
  if view.shouldIncludeMessage reading msg then
    { view with
      messages_ := (view.messages_.pushBack msg).1
      channel_ := view.channel_.addMessage msg }
  else view

def onSetChannel (underlyingChannel : Underlying) (snapshot : List MessagePtr)
    (view : ChannelView MessagePtr Underlying) : ChannelView MessagePtr Underlying :=
  let cleared := { view with
    toViewMessages := view.toViewMessages.clearMessages
    channel_ := .ofLimit view.surroundings.scrollbackSplitLimit view.surroundings.currentDate
      view.surroundings.limit_lt }
  { snapshot.foldl (copyMessage reading) cleared with underlyingChannel_ := some underlyingChannel }

def step [DecidableEq MessagePtr] (view : ChannelView MessagePtr Underlying) :
    ViewEvent MessagePtr Underlying → ChannelView MessagePtr Underlying
  | .messageAppended message dayMessage => view.onMessageAppended reading message dayMessage
  | .messagesAddedAtStart messages => view.onMessagesAddedAtStart reading messages
  | .messageReplaced index prev replacement => view.onMessageReplaced reading index prev replacement
  | .filledInMessages messages => view.onFilledInMessages reading messages
  | .messagesCleared => view.onMessagesCleared
  | .setChannel underlyingChannel snapshot => view.onSetChannel reading underlyingChannel snapshot
  | .setFilters channelFilters => { view with channelFilters_ := channelFilters }
  | .surroundingsChange surroundings => { view with surroundings := surroundings }
  | .pause reason msecs now => { view with toViewMessages := view.toViewMessages.pause reason msecs now }
  | .unpause reason => { view with toViewMessages := view.toViewMessages.unpause reason }
  | .pauseTimeout => { view with toViewMessages := view.toViewMessages.pauseTimeout }
  | .setSelection start endItem => { view with toViewMessages := view.toViewMessages.setSelection start endItem }
  | .clearSelection => { view with toViewMessages := view.toViewMessages.clearSelection }

end ChannelView

end Chatterino
