import Chatterino.ChannelViews.ScrolledView

/-! # What the handlers of a view do to its scrollbar

The range of the scrollbar, once what is counted during a pause is made up for, and the highlights
next to the messages.
-/

namespace Chatterino.ScrolledView

open Lib

variable {MessagePtr ScrollbarHighlight : Type} {getScrollBarHighlight : MessagePtr → ScrollbarHighlight}
  {view : ScrolledView MessagePtr ScrollbarHighlight}

def range (view : ScrolledView MessagePtr ScrollbarHighlight) : Rat :=
  view.scrollBar_.span + view.pauseScrollMaximumOffset_ - view.pauseScrollMinimumOffset_

theorem range_updatePauses : view.updatePauses.range = view.range := by
  rw [updatePauses]
  split
  · rw [range, range]
    dsimp only
    rw [show Scrollbar.span _ = _ from congrArg Prod.fst (Scrollbar.extent_offsetMinimum _),
      show Scrollbar.span _ = _ from congrArg Prod.fst (Scrollbar.extent_offsetMaximum _), Int.cast_zero]
    linarith
  · rfl

theorem messages_updatePauses : view.updatePauses.messages_ = view.messages_ := by
  rw [updatePauses]
  split
  · rfl
  · rfl

theorem highlights_updatePauses : view.updatePauses.scrollBar_.highlights_ = view.scrollBar_.highlights_ := by
  rw [updatePauses]
  split
  · dsimp only
    rw [show Scrollbar.highlights_ _ = _ from congrArg Prod.snd (Scrollbar.extent_offsetMinimum _)]
    rfl
  · rfl

theorem channelType_updatePauses : view.updatePauses.channelType = view.channelType := by
  rw [updatePauses]
  split
  · rfl
  · rfl

theorem highlighted_updatePauses (h : view.Highlighted getScrollBarHighlight) :
    view.updatePauses.Highlighted getScrollBarHighlight := by
  intro hShows
  rw [showScrollbarHighlights, channelType_updatePauses] at hShows
  rw [highlights_updatePauses, messages_updatePauses]
  exact h hShows

theorem Sound.updatePauses (h : view.Sound) : view.updatePauses.Sound := by
  constructor
  · rw [highlights_updatePauses, messages_updatePauses]
    exact h.capacity
  · rw [ScrolledView.updatePauses]
    split
    · exact (h.integral.offsetMaximum _).offsetMinimum _
    · exact h.integral
  · rw [ScrolledView.updatePauses]
    split
    · exact fits_zero
    · exact h.minimumOffset
  · rw [ScrolledView.updatePauses]
    split
    · exact fits_zero
    · exact h.maximumOffset

def evicted (view : ScrolledView MessagePtr ScrollbarHighlight) : Int := if view.evicts then 1 else 0

theorem length_pushBack (message : MessagePtr) (view : ScrolledView MessagePtr ScrollbarHighlight) :
    ((view.messages_.pushBack message).1.getSnapshot.length : Int) =
      view.messages_.getSnapshot.length + 1 - view.evicted := by
  have hLength := view.messages_.length_getSnapshot_le
  rw [LimitedQueue.getSnapshot_pushBack, CircularBuffer.length_rtake, List.length_append, List.length_singleton,
    evicted]
  split
  · rename_i hEvicts
    have hFull := view.toViewMessages.evicts_iff.mp hEvicts
    omega
  · rename_i hNot
    have hFull : view.messages_.getSnapshot.length ≠ view.messages_.limit :=
      fun hEq => hNot (view.toViewMessages.evicts_iff.mpr hEq)
    omega

theorem extent_boundsAppended (hidden : Bool) (view : ScrolledView MessagePtr ScrollbarHighlight) :
    (view.boundsAppended hidden).extent =
      (view.scrollBar_.span + ((if view.paused then 0 else 1 - view.evicted : Int) : Rat),
        view.scrollBar_.highlights_) := by
  have hOffset : ((view.scrollBar_.offsetMaximum 1).offsetMinimum 1).extent =
      (view.scrollBar_.span, view.scrollBar_.highlights_) := by
    have hSpan := congrArg Prod.fst (@Scrollbar.extent_offsetMaximum _ view.scrollBar_ 1)
    rw [Scrollbar.extent_offsetMinimum, show Scrollbar.span _ = _ from hSpan, add_sub_cancel_right]
    rfl
  rw [boundsAppended, evicted]
  split
  · simp [Scrollbar.extent]
  · split
    · split
      · rw [Scrollbar.scrollToBottom, Scrollbar.extent_setDesiredValue, hOffset]
        simp
      · rw [hOffset]
        simp
    · rw [Scrollbar.extent_offsetMaximum]
      simp

theorem integral_boundsAppended (h : view.scrollBar_.Integral) (hidden : Bool) :
    (view.boundsAppended hidden).Integral := by
  have hMaximum := h.offsetMaximum 1
  have hMinimum := hMaximum.offsetMinimum 1
  rw [Int.cast_one] at hMaximum hMinimum
  rw [boundsAppended]
  split
  · exact h
  · split
    · split
      · exact hMinimum.setDesiredValue _ _
      · exact hMinimum
    · exact hMaximum

theorem range_messageAppended (h : view.Sound) (message : MessagePtr) (hidden : Bool) :
    (view.messageAppended getScrollBarHighlight message hidden).range = view.range +
      ((1 - view.evicted - if view.paused then
        overflow view.pauseScrollMaximumOffset_ - view.evicted * overflow view.pauseScrollMinimumOffset_
        else 0 : Int) : Rat) := by
  have hSpan : (view.messageAppended getScrollBarHighlight message hidden).scrollBar_.span =
      (view.boundsAppended hidden).span := by
    rw [messageAppended]
    dsimp only
    split
    · rfl
    · rfl
  rw [range, hSpan, show Scrollbar.span _ = _ from congrArg Prod.fst (extent_boundsAppended hidden view), range]
  simp only [messageAppended, increment_eq h.minimumOffset, increment_eq h.maximumOffset, evicted]
  cases view.paused with
  | false =>
    simp
    linarith
  | true =>
    cases view.evicts with
    | false =>
      simp
      linarith
    | true =>
      simp
      linarith

theorem highlights_messageAppended (h : view.Sound) (hHighlighted : view.Highlighted getScrollBarHighlight)
    (message : MessagePtr) (hidden : Bool) :
    (view.messageAppended getScrollBarHighlight message hidden).Highlighted getScrollBarHighlight := by
  intro hShows
  have hShown : view.showScrollbarHighlights = true := hShows
  have hBuffer : (view.boundsAppended hidden).highlights_ = view.scrollBar_.highlights_ :=
    congrArg Prod.snd (extent_boundsAppended hidden view)
  change (Scrollbar.highlights_ (if _ then _ else _)).items =
    (ViewMessages.messageAppended _ _).messages_.getSnapshot.map _
  rw [if_pos hShown, ViewMessages.messages_messageAppended]
  change ((view.boundsAppended hidden).highlights_.pushBack _).items = _
  rw [hBuffer, CircularBuffer.items_pushBack, LimitedQueue.getSnapshot_pushBack, hHighlighted hShown, h.capacity,
    map_rtake, List.map_append, List.map_singleton]

theorem Sound.messageAppended (h : view.Sound) (message : MessagePtr) (hidden : Bool) :
    (view.messageAppended getScrollBarHighlight message hidden).Sound := by
  have hBuffer : (view.boundsAppended hidden).highlights_ = view.scrollBar_.highlights_ :=
    congrArg Prod.snd (extent_boundsAppended hidden view)
  have hIntegral := integral_boundsAppended h.integral hidden
  constructor
  · change (Scrollbar.highlights_ (if _ then _ else _)).capacity =
      (ViewMessages.messageAppended _ _).messages_.limit
    rw [ViewMessages.messages_messageAppended]
    split
    · change (view.boundsAppended hidden).highlights_.capacity = _
      rw [hBuffer]
      exact h.capacity
    · rw [hBuffer]
      exact h.capacity
  · change (if _ then _ else _ : Scrollbar ScrollbarHighlight).Integral
    split
    · exact hIntegral
    · exact hIntegral
  · change Fits (if _ then _ else _)
    split
    · exact fits_increment _
    · exact h.minimumOffset
  · change Fits (if _ then _ else _)
    split
    · exact fits_increment _
    · exact h.maximumOffset

theorem extent_boundsAddedAtStart (added : Nat) (view : ScrolledView MessagePtr ScrollbarHighlight) :
    (view.boundsAddedAtStart added).extent = (view.scrollBar_.span + added, view.scrollBar_.highlights_) := by
  have hScrolled : (if view.scrollBar_.atBottom_ = true then view.scrollBar_.scrollToBottom
      else view.scrollBar_.offset added).extent = view.scrollBar_.extent := by
    split
    · exact Scrollbar.extent_setDesiredValue _ _
    · exact Scrollbar.extent_setDesiredValue _ _
  rw [boundsAddedAtStart]
  split
  · rename_i hZero
    rw [hZero, Nat.cast_zero, add_zero]
    rfl
  · rw [Scrollbar.extent_offsetMaximum]
    have hSpan := congrArg Prod.fst hScrolled
    have hHighlights := congrArg Prod.snd hScrolled
    exact Prod.ext (congrArg (· + (added : Rat)) hSpan) hHighlights

theorem integral_boundsAddedAtStart (h : view.scrollBar_.Integral) (added : Nat) :
    (view.boundsAddedAtStart added).Integral := by
  rw [boundsAddedAtStart]
  split
  · exact h
  · rw [← Int.cast_natCast added]
    apply Scrollbar.Integral.offsetMaximum
    split
    · exact h.setDesiredValue _ _
    · exact h.setDesiredValue _ _

theorem items_addHighlightsAtStart (highlights : List ScrollbarHighlight) (bar : Scrollbar ScrollbarHighlight) :
    (bar.addHighlightsAtStart highlights).highlights_.items =
      highlights.rtake (bar.highlights_.capacity - bar.highlights_.items.length) ++ bar.highlights_.items :=
  LimitedQueue.getSnapshot_pushFront ⟨bar.highlights_.capacity, bar.highlights_, rfl⟩ highlights

theorem capacity_addHighlightsAtStart (highlights : List ScrollbarHighlight) (bar : Scrollbar ScrollbarHighlight) :
    (bar.addHighlightsAtStart highlights).highlights_.capacity = bar.highlights_.capacity :=
  (LimitedQueue.pushFront ⟨bar.highlights_.capacity, bar.highlights_, rfl⟩ highlights).1.capacity_eq

theorem highlights_messageAddedAtStart (h : view.Sound) (hHighlighted : view.Highlighted getScrollBarHighlight)
    (messages : List MessagePtr) :
    (view.messageAddedAtStart getScrollBarHighlight messages).Highlighted getScrollBarHighlight := by
  intro hShows
  have hShown : view.showScrollbarHighlights = true := hShows
  have hBuffer (added : Nat) : (view.boundsAddedAtStart added).highlights_ = view.scrollBar_.highlights_ :=
    congrArg Prod.snd (extent_boundsAddedAtStart added view)
  change (Scrollbar.highlights_ (if _ then _ else _)).items = (view.messages_.pushFront messages).1.getSnapshot.map _
  rw [if_pos hShown, items_addHighlightsAtStart, hBuffer, LimitedQueue.getSnapshot_pushFront, List.map_append,
    map_rtake, hHighlighted hShown, h.capacity, List.length_map]
  rfl

theorem Sound.messageAddedAtStart (h : view.Sound) (messages : List MessagePtr) :
    (view.messageAddedAtStart getScrollBarHighlight messages).Sound := by
  have hBuffer (added : Nat) : (view.boundsAddedAtStart added).highlights_ = view.scrollBar_.highlights_ :=
    congrArg Prod.snd (extent_boundsAddedAtStart added view)
  have hIntegral := integral_boundsAddedAtStart h.integral (view.messages_.pushFront messages).2.length
  refine ⟨?_, ?_, h.minimumOffset, h.maximumOffset⟩
  · change (Scrollbar.highlights_ (if _ then _ else _)).capacity = view.messages_.limit
    split
    · rw [capacity_addHighlightsAtStart, hBuffer]
      exact h.capacity
    · rw [hBuffer]
      exact h.capacity
  · change (if _ then _ else _ : Scrollbar ScrollbarHighlight).Integral
    split
    · exact hIntegral
    · exact hIntegral

theorem range_messageAddedAtStart (messages : List MessagePtr) (view : ScrolledView MessagePtr ScrollbarHighlight) :
    (view.messageAddedAtStart getScrollBarHighlight messages).range =
      view.range + (view.messages_.pushFront messages).2.length := by
  have hSpan : (view.messageAddedAtStart getScrollBarHighlight messages).scrollBar_.span =
      (view.boundsAddedAtStart (view.messages_.pushFront messages).2.length).span := by
    rw [messageAddedAtStart]
    dsimp only
    split
    · rfl
    · rfl
  rw [range, hSpan, show Scrollbar.span _ = _ from congrArg Prod.fst (extent_boundsAddedAtStart _ view), range]
  change _ + (view.pauseScrollMaximumOffset_ : Rat) - view.pauseScrollMinimumOffset_ = _
  linarith

variable (getScrollBarHighlight) in
theorem toViewMessages_messageReplaced [DecidableEq MessagePtr] (hint : Nat) (prev replacement : MessagePtr)
    (view : ScrolledView MessagePtr ScrollbarHighlight) :
    (view.messageReplaced getScrollBarHighlight hint prev replacement).toViewMessages =
      view.toViewMessages.messageReplaced hint prev replacement := by
  rw [messageReplaced, ViewMessages.messageReplaced]
  cases view.layoutIndex hint prev with
  | none => rfl
  | some index => rfl

theorem items_replaceHighlight (index : Nat) (replacement : ScrollbarHighlight)
    (bar : Scrollbar ScrollbarHighlight) :
    (bar.replaceHighlight index replacement).highlights_.items = bar.highlights_.items.set index replacement := by
  rw [Scrollbar.replaceHighlight]
  split
  · rename_i hLe
    exact (List.set_eq_of_length_le hLe).symm
  · rfl

theorem highlights_messageReplaced [DecidableEq MessagePtr] (hHighlighted : view.Highlighted getScrollBarHighlight)
    (hint : Nat) (prev replacement : MessagePtr) :
    (view.messageReplaced getScrollBarHighlight hint prev replacement).Highlighted getScrollBarHighlight := by
  have hMessages := congrArg ViewMessages.messages_
    (toViewMessages_messageReplaced getScrollBarHighlight hint prev replacement view)
  intro hShows
  rw [hMessages, ViewMessages.getSnapshot_messageReplaced, ← ViewMessages.layoutIndex_eq]
  rw [messageReplaced] at hShows ⊢
  cases hIndex : view.layoutIndex hint prev with
  | none =>
    rw [hIndex] at hShows
    exact hHighlighted hShows
  | some index =>
    rw [hIndex] at hShows
    have hShown : view.showScrollbarHighlights = true := hShows
    change (view.scrollBar_.replaceHighlight index _).highlights_.items = (view.messages_.getSnapshot.set index _).map _
    rw [items_replaceHighlight, hHighlighted hShown, List.map_set]

theorem Sound.messageReplaced [DecidableEq MessagePtr] (h : view.Sound) (hint : Nat) (prev replacement : MessagePtr) :
    (view.messageReplaced getScrollBarHighlight hint prev replacement).Sound := by
  have hLimit := congrArg (fun view => view.messages_.limit)
    (toViewMessages_messageReplaced getScrollBarHighlight hint prev replacement view)
  have hBar (index : Nat) (replacement : ScrollbarHighlight) :
      (view.scrollBar_.replaceHighlight index replacement).highlights_.capacity =
        view.scrollBar_.highlights_.capacity ∧
      (view.scrollBar_.replaceHighlight index replacement).Integral := by
    rw [Scrollbar.replaceHighlight]
    split
    · exact ⟨rfl, h.integral⟩
    · exact ⟨rfl, h.integral⟩
  rw [ViewMessages.limit_messageReplaced] at hLimit
  rw [ScrolledView.messageReplaced] at hLimit ⊢
  cases hIndex : view.layoutIndex hint prev with
  | none => exact h
  | some index =>
    rw [hIndex] at hLimit
    exact ⟨((hBar index _).1.trans h.capacity).trans hLimit.symm, (hBar index _).2, h.minimumOffset, h.maximumOffset⟩

theorem range_messageReplaced [DecidableEq MessagePtr] (hint : Nat) (prev replacement : MessagePtr)
    (view : ScrolledView MessagePtr ScrollbarHighlight) :
    (view.messageReplaced getScrollBarHighlight hint prev replacement).range = view.range := by
  rw [messageReplaced]
  split
  · rfl
  · rw [range, range]
    dsimp only
    rw [Scrollbar.replaceHighlight]
    split
    · rfl
    · rfl

end Chatterino.ScrolledView
