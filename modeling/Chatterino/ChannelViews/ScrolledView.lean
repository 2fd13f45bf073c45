import Chatterino.ChannelViews.Scrollbar
import Chatterino.ChannelViews.SelectedView
import Chatterino.Channels.MergedChannel

/-! # A view and its scrollbar

The handlers of a view adjust the bounds of the scrollbar, each in its own way. While the view is
paused, the changes are counted and made up for once there is no pause left.
-/

namespace Chatterino

open Lib

structure ScrolledView (MessagePtr ScrollbarHighlight : Type) extends ViewMessages MessagePtr where
  scrollBar_ : Scrollbar ScrollbarHighlight
  /-- Of the proxy channel. -/
  channelType : ChannelType := .None
  pauseScrollMinimumOffset_ : Int := 0
  pauseScrollMaximumOffset_ : Int := 0

inductive ScrollCall (MessagePtr : Type) where
  | setChannel (channelType : ChannelType) (shouldIncludeMessage : MessagePtr → Bool) (snapshot : List MessagePtr)
  /-- `hidden` if the view is not visible and showed the latest messages. -/
  | messageAppended (message : MessagePtr) (hidden : Bool)
  | messageAddedAtStart (messages : List MessagePtr)
  | messageReplaced (hint : Nat) (prev replacement : MessagePtr)
  | messagesUpdated (snapshot : List MessagePtr)
  | clearMessages
  | pause (reason : PauseReason) (msecs : Option Nat) (now : Nat)
  | unpause (reason : PauseReason)
  | pauseTimeout
  | setDesiredValue (value : Rat) (smoothly : Bool)
  | setCurrentValue (value : Rat)
  | animationFinished
  | setPageSize (value : Rat)

namespace ScrolledView

variable {MessagePtr ScrollbarHighlight : Type} (getScrollBarHighlight : MessagePtr → ScrollbarHighlight)

def constructed (messagesLimit : Nat) (pausable : Bool) : ScrolledView MessagePtr ScrollbarHighlight where
  messages_ := .ofLimit messagesLimit
  pausable_ := pausable
  scrollBar_ := .ofLimit messagesLimit

/-- `++` on an int. -/
def increment (n : Int) : Int := (n + 1).bmod (2 ^ 32)

def showScrollbarHighlights (view : ScrolledView MessagePtr ScrollbarHighlight) : Bool :=
  view.channelType != .TwitchMentions

def updatePauses (view : ScrolledView MessagePtr ScrollbarHighlight) : ScrolledView MessagePtr ScrollbarHighlight :=
  if ∀ reason, view.pauses_ reason = none then
    { view with
      toViewMessages := view.toViewMessages.unpaused
      scrollBar_ := (view.scrollBar_.offsetMaximum view.pauseScrollMaximumOffset_).offsetMinimum
        view.pauseScrollMinimumOffset_
      pauseScrollMinimumOffset_ := 0
      pauseScrollMaximumOffset_ := 0 }
  else view

def pause (reason : PauseReason) (msecs : Option Nat) (now : Nat) (view : ScrolledView MessagePtr ScrollbarHighlight) :
    ScrolledView MessagePtr ScrollbarHighlight :=
  updatePauses { view with
    pauses_ := Function.update view.pauses_ reason
      (some (ViewMessages.pauseUntil (view.pauses_ reason) msecs now)) }

def unpause (reason : PauseReason) (view : ScrolledView MessagePtr ScrollbarHighlight) :
    ScrolledView MessagePtr ScrollbarHighlight :=
  if (view.pauses_ reason).isSome then
    updatePauses { view with pauses_ := Function.update view.pauses_ reason none }
  else view

def pauseTimeout (view : ScrolledView MessagePtr ScrollbarHighlight) : ScrolledView MessagePtr ScrollbarHighlight :=
  updatePauses { view with pauses_ := fun reason => (view.pauses_ reason).filter fun until_ => !until_.isSome }

def boundsAppended (hidden : Bool) (view : ScrolledView MessagePtr ScrollbarHighlight) : Scrollbar ScrollbarHighlight :=
  if view.paused then view.scrollBar_
  else
    let bar := view.scrollBar_.offsetMaximum 1
    if view.evicts then
      if hidden then (bar.offsetMinimum 1).scrollToBottom else bar.offsetMinimum 1
    else bar

def messageAppended (message : MessagePtr) (hidden : Bool) (view : ScrolledView MessagePtr ScrollbarHighlight) :
    ScrolledView MessagePtr ScrollbarHighlight :=
  let bar := view.boundsAppended hidden
  { view with
    toViewMessages := view.toViewMessages.messageAppended message
    scrollBar_ := if view.showScrollbarHighlights then bar.addHighlight (getScrollBarHighlight message) else bar
    pauseScrollMinimumOffset_ :=
      if view.evicts && view.paused then increment view.pauseScrollMinimumOffset_ else view.pauseScrollMinimumOffset_
    pauseScrollMaximumOffset_ :=
      if view.paused then increment view.pauseScrollMaximumOffset_ else view.pauseScrollMaximumOffset_ }

def boundsAddedAtStart (added : Nat) (view : ScrolledView MessagePtr ScrollbarHighlight) : Scrollbar ScrollbarHighlight :=
  if added = 0 then view.scrollBar_
  else
    (if view.scrollBar_.atBottom_ then view.scrollBar_.scrollToBottom
      else view.scrollBar_.offset added).offsetMaximum added

def messageAddedAtStart (messages : List MessagePtr) (view : ScrolledView MessagePtr ScrollbarHighlight) :
    ScrolledView MessagePtr ScrollbarHighlight :=
  let bar := view.boundsAddedAtStart (view.messages_.pushFront messages).2.length
  { view with
    toViewMessages := view.toViewMessages.messageAddedAtStart messages
    scrollBar_ :=
      if view.showScrollbarHighlights then bar.addHighlightsAtStart (messages.map getScrollBarHighlight) else bar }

def messageReplaced [DecidableEq MessagePtr] (hint : Nat) (prev replacement : MessagePtr)
    (view : ScrolledView MessagePtr ScrollbarHighlight) : ScrolledView MessagePtr ScrollbarHighlight :=
  match view.layoutIndex hint prev with
  | none => view
  | some index =>
    { view with
      messages_ := (view.messages_.replaceItemAt index replacement).1
      scrollBar_ := view.scrollBar_.replaceHighlight index (getScrollBarHighlight replacement) }

/-- The loops over a snapshot, whose layouts are appended without the handler. -/
def pushLayout (view : ScrolledView MessagePtr ScrollbarHighlight) (msg : MessagePtr) :
    ScrolledView MessagePtr ScrollbarHighlight :=
  { view with
    messages_ := (view.messages_.pushBack msg).1
    scrollBar_ :=
      if view.showScrollbarHighlights then view.scrollBar_.addHighlight (getScrollBarHighlight msg)
      else view.scrollBar_ }

def clearFor (maximum : Nat) (view : ScrolledView MessagePtr ScrollbarHighlight) :
    ScrolledView MessagePtr ScrollbarHighlight :=
  { view with
    messages_ := view.messages_.clear
    scrollBar_ := (view.scrollBar_.clearHighlights.resetBounds.setMaximum maximum).setMinimum 0 }

def messagesUpdated (snapshot : List MessagePtr) (view : ScrolledView MessagePtr ScrollbarHighlight) :
    ScrolledView MessagePtr ScrollbarHighlight :=
  snapshot.foldl (pushLayout getScrollBarHighlight) (view.clearFor snapshot.length)

def clearMessages (view : ScrolledView MessagePtr ScrollbarHighlight) : ScrolledView MessagePtr ScrollbarHighlight :=
  view.clearFor 0

def setChannel (channelType : ChannelType) (shouldIncludeMessage : MessagePtr → Bool) (snapshot : List MessagePtr)
    (view : ScrolledView MessagePtr ScrollbarHighlight) : ScrolledView MessagePtr ScrollbarHighlight :=
  let included := snapshot.filter shouldIncludeMessage
  let cleared := { view.clearMessages with
    scrollBar_ := view.clearMessages.scrollBar_.clearHighlights
    channelType := channelType }
  let filled := included.foldl (pushLayout getScrollBarHighlight) cleared
  { filled with
    scrollBar_ := filled.scrollBar_.setMaximum ((min included.length filled.messages_.limit : Nat) : Rat) }

def step [DecidableEq MessagePtr] (view : ScrolledView MessagePtr ScrollbarHighlight) :
    ScrollCall MessagePtr → ScrolledView MessagePtr ScrollbarHighlight
  | .setChannel channelType shouldIncludeMessage snapshot =>
    view.setChannel getScrollBarHighlight channelType shouldIncludeMessage snapshot
  | .messageAppended message hidden => view.messageAppended getScrollBarHighlight message hidden
  | .messageAddedAtStart messages => view.messageAddedAtStart getScrollBarHighlight messages
  | .messageReplaced hint prev replacement => view.messageReplaced getScrollBarHighlight hint prev replacement
  | .messagesUpdated snapshot => view.messagesUpdated getScrollBarHighlight snapshot
  | .clearMessages => view.clearMessages
  | .pause reason msecs now => view.pause reason msecs now
  | .unpause reason => view.unpause reason
  | .pauseTimeout => view.pauseTimeout
  | .setDesiredValue value smoothly => { view with scrollBar_ := view.scrollBar_.setDesiredValue value smoothly }
  | .setCurrentValue value => { view with scrollBar_ := view.scrollBar_.setCurrentValue value }
  | .animationFinished => { view with scrollBar_ := view.scrollBar_.animationFinished }
  | .setPageSize value => { view with scrollBar_ := view.scrollBar_.setPageSize value }

end ScrolledView

end Chatterino

namespace Chatterino.ScrolledView

open Lib

variable {MessagePtr ScrollbarHighlight : Type} {getScrollBarHighlight : MessagePtr → ScrollbarHighlight}
  {view : ScrolledView MessagePtr ScrollbarHighlight}

def Fits (n : Int) : Prop := -2 ^ 31 ≤ n ∧ n < 2 ^ 31

theorem fits_zero : Fits 0 := ⟨by decide, by decide⟩

theorem fits_increment (n : Int) : Fits (increment n) := by
  have hLower := Int.le_bmod (x := n + 1) (m := 2 ^ 32) (by omega)
  have hUpper := Int.bmod_lt (x := n + 1) (m := 2 ^ 32) (by omega)
  rw [Fits, increment]
  omega

def overflow (n : Int) : Int := if n + 1 = 2 ^ 31 then 2 ^ 32 else 0

theorem increment_eq {n : Int} (h : Fits n) : increment n = n + 1 - overflow n := by
  rw [Fits] at h
  rw [overflow]
  split
  · rename_i hMax
    rw [increment, hMax]
    decide
  · rw [sub_zero]
    apply Int.bmod_eq_of_le_mul_two
    · omega
    · omega

def Highlighted (getScrollBarHighlight : MessagePtr → ScrollbarHighlight)
    (view : ScrolledView MessagePtr ScrollbarHighlight) : Prop :=
  view.showScrollbarHighlights = true →
    view.scrollBar_.highlights_.items = view.messages_.getSnapshot.map getScrollBarHighlight

theorem map_rtake {α β : Type} (f : α → β) (l : List α) (n : Nat) : (l.rtake n).map f = (l.map f).rtake n := by
  rw [List.rtake, List.rtake, List.map_drop, List.length_map]

structure Sound (view : ScrolledView MessagePtr ScrollbarHighlight) : Prop where
  capacity : view.scrollBar_.highlights_.capacity = view.messages_.limit
  integral : view.scrollBar_.Integral
  minimumOffset : Fits view.pauseScrollMinimumOffset_
  maximumOffset : Fits view.pauseScrollMaximumOffset_

theorem sound_constructed (messagesLimit : Nat) (pausable : Bool) :
    (constructed messagesLimit pausable : ScrolledView MessagePtr ScrollbarHighlight).Sound where
  capacity := rfl
  integral := ⟨0, 0, Int.cast_zero.symm, Int.cast_zero.symm⟩
  minimumOffset := fits_zero
  maximumOffset := fits_zero

theorem Sound.foldl_pushLayout (h : view.Sound) (hHighlighted : view.Highlighted getScrollBarHighlight)
    (snapshot : List MessagePtr) :
    (snapshot.foldl (pushLayout getScrollBarHighlight) view).Sound ∧
      (snapshot.foldl (pushLayout getScrollBarHighlight) view).Highlighted getScrollBarHighlight := by
  induction snapshot generalizing view with
  | nil => exact ⟨h, hHighlighted⟩
  | cons msg snapshot ih =>
    apply ih
    · rw [pushLayout]
      split
      · exact ⟨h.capacity, h.integral, h.minimumOffset, h.maximumOffset⟩
      · exact ⟨h.capacity, h.integral, h.minimumOffset, h.maximumOffset⟩
    · intro hShows
      have hOld := hHighlighted hShows
      have hShown : view.showScrollbarHighlights = true := hShows
      rw [pushLayout, if_pos hShown]
      change (view.scrollBar_.highlights_.pushBack _).items = _
      rw [CircularBuffer.items_pushBack, LimitedQueue.getSnapshot_pushBack, hOld, h.capacity, map_rtake,
        List.map_append, List.map_singleton]

variable (getScrollBarHighlight) in
theorem toViewMessages_foldl_pushLayout (snapshot : List MessagePtr)
    (view : ScrolledView MessagePtr ScrollbarHighlight) :
    (snapshot.foldl (pushLayout getScrollBarHighlight) view).toViewMessages =
      { view.toViewMessages with
        messages_ := snapshot.foldl (fun messages_ msg => (messages_.pushBack msg).1) view.messages_ } := by
  induction snapshot generalizing view with
  | nil => rfl
  | cons msg snapshot ih =>
    rw [List.foldl_cons, ih]
    rfl

variable (getScrollBarHighlight) in
theorem span_foldl_pushLayout (snapshot : List MessagePtr) (view : ScrolledView MessagePtr ScrollbarHighlight) :
    let filled := snapshot.foldl (pushLayout getScrollBarHighlight) view
    filled.scrollBar_.maximum_ = view.scrollBar_.maximum_ ∧ filled.scrollBar_.minimum_ = view.scrollBar_.minimum_ ∧
      filled.pauseScrollMinimumOffset_ = view.pauseScrollMinimumOffset_ ∧
      filled.pauseScrollMaximumOffset_ = view.pauseScrollMaximumOffset_ := by
  induction snapshot generalizing view with
  | nil => exact ⟨rfl, rfl, rfl, rfl⟩
  | cons msg snapshot ih =>
    obtain ⟨hMaximum, hMinimum, hMinimumOffset, hMaximumOffset⟩ := ih (view.pushLayout getScrollBarHighlight msg)
    have hBounds : (view.pushLayout getScrollBarHighlight msg).scrollBar_.maximum_ = view.scrollBar_.maximum_ ∧
        (view.pushLayout getScrollBarHighlight msg).scrollBar_.minimum_ = view.scrollBar_.minimum_ := by
      rw [pushLayout]
      dsimp only
      split
      · exact ⟨rfl, rfl⟩
      · exact ⟨rfl, rfl⟩
    exact ⟨hMaximum.trans hBounds.1, hMinimum.trans hBounds.2, hMinimumOffset, hMaximumOffset⟩

variable (getScrollBarHighlight) in
theorem Sound.clearFor (h : view.Sound) (maximum : Nat) :
    (view.clearFor maximum).Sound ∧ (view.clearFor maximum).Highlighted getScrollBarHighlight := by
  have hExtent := congrArg Prod.snd (@Scrollbar.extent_setBounds _ view.scrollBar_.clearHighlights maximum)
  have hHighlights : (view.clearFor maximum).scrollBar_.highlights_ = view.scrollBar_.highlights_.clear := hExtent
  refine ⟨⟨?_, Scrollbar.integral_setBounds maximum, h.minimumOffset, h.maximumOffset⟩, fun _ => ?_⟩
  · rw [hHighlights]
    exact h.capacity
  · rw [hHighlights]
    rfl

def clearedFor (channelType : ChannelType) (view : ScrolledView MessagePtr ScrollbarHighlight) :
    ScrolledView MessagePtr ScrollbarHighlight :=
  { view.clearMessages with
    scrollBar_ := view.clearMessages.scrollBar_.clearHighlights
    channelType := channelType }

variable (getScrollBarHighlight) in
theorem Sound.clearedFor (h : view.Sound) (channelType : ChannelType) :
    (view.clearedFor channelType).Sound ∧ (view.clearedFor channelType).Highlighted getScrollBarHighlight := by
  obtain ⟨hSound, -⟩ := h.clearFor getScrollBarHighlight 0
  exact ⟨⟨hSound.capacity, hSound.integral, hSound.minimumOffset, hSound.maximumOffset⟩, fun _ => rfl⟩

theorem Sound.setChannel (h : view.Sound) (channelType : ChannelType) (shouldIncludeMessage : MessagePtr → Bool)
    (snapshot : List MessagePtr) :
    (view.setChannel getScrollBarHighlight channelType shouldIncludeMessage snapshot).Sound ∧
      (view.setChannel getScrollBarHighlight channelType shouldIncludeMessage snapshot).Highlighted
        getScrollBarHighlight := by
  obtain ⟨hCleared, hNone⟩ := h.clearedFor getScrollBarHighlight channelType
  obtain ⟨hFilled, hHighlighted⟩ := hCleared.foldl_pushLayout hNone (snapshot.filter shouldIncludeMessage)
  obtain ⟨-, minimum, -, hMinimum⟩ := hFilled.integral
  exact ⟨⟨hFilled.capacity, ⟨_, minimum, (Int.cast_natCast _).symm, hMinimum⟩, hFilled.minimumOffset,
    hFilled.maximumOffset⟩, hHighlighted⟩

theorem Sound.messagesUpdated (h : view.Sound) (snapshot : List MessagePtr) :
    (view.messagesUpdated getScrollBarHighlight snapshot).Sound ∧
      (view.messagesUpdated getScrollBarHighlight snapshot).Highlighted getScrollBarHighlight := by
  obtain ⟨hCleared, hNone⟩ := h.clearFor getScrollBarHighlight snapshot.length
  exact hCleared.foldl_pushLayout hNone snapshot

end Chatterino.ScrolledView
