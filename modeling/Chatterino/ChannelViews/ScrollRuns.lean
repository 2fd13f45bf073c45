import Chatterino.ChannelViews.ScrollHandlers

/-! # The scrollbar matches the messages

Clearing or rebuilding a view does not reset what was counted during a pause, and a rebuild sets the bounds for
messages that may not fit. A run keeps the range exactly if neither happens where it matters.
-/

namespace Chatterino.ScrolledView

open Lib

variable {MessagePtr ScrollbarHighlight : Type} {getScrollBarHighlight : MessagePtr → ScrollbarHighlight}
  {view : ScrolledView MessagePtr ScrollbarHighlight}

structure Matches (getScrollBarHighlight : MessagePtr → ScrollbarHighlight)
    (view : ScrolledView MessagePtr ScrollbarHighlight) : Prop where
  integral : view.scrollBar_.Integral
  range : view.scrollBar_.maximum_ - view.scrollBar_.minimum_ + view.pauseScrollMaximumOffset_ -
    view.pauseScrollMinimumOffset_ = view.messages_.getSnapshot.length
  highlighted : view.showScrollbarHighlights = true →
    view.scrollBar_.highlights_.items = view.messages_.getSnapshot.map getScrollBarHighlight

/-- The call leaves no permanent offset. -/
def KeepsRange (view : ScrolledView MessagePtr ScrollbarHighlight) : ScrollCall MessagePtr → Prop
  | .messageAppended _ _ =>
    view.paused = true →
      (view.pauseScrollMaximumOffset_ + 1 = 2 ^ 31 ↔
        view.evicts = true ∧ view.pauseScrollMinimumOffset_ + 1 = 2 ^ 31)
  | .setChannel _ _ _ | .clearMessages => view.pauseScrollMaximumOffset_ = view.pauseScrollMinimumOffset_
  | .messagesUpdated snapshot =>
    snapshot.length + (view.pauseScrollMaximumOffset_ - view.pauseScrollMinimumOffset_) =
      min snapshot.length view.messages_.limit
  | _ => True

instance (call : ScrollCall MessagePtr) : Decidable (view.KeepsRange call) := by
  cases call <;> unfold KeepsRange <;> infer_instance

theorem Sound.of_updatePauses {paused : ScrolledView MessagePtr ScrollbarHighlight} (h : view.Sound)
    (hPaused : paused = { view with pauses_ := paused.pauses_ }) : paused.updatePauses.Sound := by
  apply Sound.updatePauses
  rw [hPaused]
  exact ⟨h.capacity, h.integral, h.minimumOffset, h.maximumOffset⟩

section step

variable [DecidableEq MessagePtr]

theorem Sound.step (h : view.Sound) (call : ScrollCall MessagePtr) : (view.step getScrollBarHighlight call).Sound := by
  have hExtent {bar : Scrollbar ScrollbarHighlight} (hBar : bar.extent = view.scrollBar_.extent) (hIntegral : bar.Integral) :
      Sound { view with scrollBar_ := bar } :=
    ⟨(congrArg (fun extent => extent.2.capacity) hBar).trans h.capacity, hIntegral, h.minimumOffset, h.maximumOffset⟩
  cases call with
  | setChannel channelType shouldIncludeMessage snapshot => exact (h.setChannel channelType shouldIncludeMessage snapshot).1
  | messageAppended message hidden => exact h.messageAppended message hidden
  | messageAddedAtStart messages => exact h.messageAddedAtStart messages
  | messageReplaced hint prev replacement => exact h.messageReplaced hint prev replacement
  | messagesUpdated snapshot => exact (h.messagesUpdated snapshot).1
  | clearMessages => exact (h.clearFor getScrollBarHighlight 0).1
  | pause reason msecs now => exact h.of_updatePauses rfl
  | unpause reason =>
    change (view.unpause reason).Sound
    rw [unpause]
    split
    · exact h.of_updatePauses rfl
    · exact h
  | pauseTimeout => exact h.of_updatePauses rfl
  | setDesiredValue value smoothly =>
    exact hExtent (Scrollbar.extent_setDesiredValue value smoothly) (h.integral.setDesiredValue value smoothly)
  | setCurrentValue value => exact hExtent (Scrollbar.extent_setCurrentValue value) (h.integral.setCurrentValue value)
  | animationFinished =>
    apply hExtent Scrollbar.extent_animationFinished
    exact Scrollbar.Integral.resetBounds h.integral
  | setPageSize value => exact hExtent rfl h.integral

theorem Highlighted.step (h : view.Highlighted getScrollBarHighlight) (hSound : view.Sound)
    (call : ScrollCall MessagePtr) :
    (view.step getScrollBarHighlight call).Highlighted getScrollBarHighlight := by
  have hExtent {bar : Scrollbar ScrollbarHighlight} (hBar : bar.extent = view.scrollBar_.extent) :
      Highlighted getScrollBarHighlight { view with scrollBar_ := bar } :=
    fun hShows => (congrArg (fun extent => extent.2.items) hBar).trans (h hShows)
  cases call with
  | setChannel channelType shouldIncludeMessage snapshot =>
    exact (hSound.setChannel channelType shouldIncludeMessage snapshot).2
  | messageAppended message hidden => exact highlights_messageAppended hSound h message hidden
  | messageAddedAtStart messages => exact highlights_messageAddedAtStart hSound h messages
  | messageReplaced hint prev replacement => exact highlights_messageReplaced h hint prev replacement
  | messagesUpdated snapshot => exact (hSound.messagesUpdated snapshot).2
  | clearMessages => exact (hSound.clearFor getScrollBarHighlight 0).2
  | pause reason msecs now => exact highlighted_updatePauses h
  | unpause reason =>
    change (view.unpause reason).Highlighted getScrollBarHighlight
    rw [unpause]
    split
    · exact highlighted_updatePauses h
    · exact h
  | pauseTimeout => exact highlighted_updatePauses h
  | setDesiredValue value smoothly => exact hExtent (Scrollbar.extent_setDesiredValue value smoothly)
  | setCurrentValue value => exact hExtent (Scrollbar.extent_setCurrentValue value)
  | animationFinished => exact hExtent Scrollbar.extent_animationFinished
  | setPageSize value => exact hExtent rfl

def InRange (view : ScrolledView MessagePtr ScrollbarHighlight) : Prop :=
  view.range = view.messages_.getSnapshot.length

omit [DecidableEq MessagePtr] in
theorem inRange_messageAppended_iff (h : view.Sound) (hRange : view.InRange) (message : MessagePtr) (hidden : Bool) :
    (view.messageAppended getScrollBarHighlight message hidden).InRange ↔
      view.KeepsRange (.messageAppended message hidden) := by
  have hLength : (((view.messages_.pushBack message).1.getSnapshot.length : Int) : Rat) = _ :=
    congrArg _ (length_pushBack message view)
  have hMessages : (view.messageAppended getScrollBarHighlight message hidden).messages_ =
      (view.messages_.pushBack message).1 := ViewMessages.messages_messageAppended message view.toViewMessages
  rw [InRange] at hRange
  rw [InRange, range_messageAppended h, hMessages, ← Int.cast_natCast (R := Rat), hLength, hRange,
    ← Int.cast_natCast (R := Rat), ← Int.cast_add, Int.cast_inj, KeepsRange, evicted]
  cases view.paused with
  | false =>
    simp only [Bool.false_eq_true, if_false, false_imp_iff, iff_true]
    omega
  | true =>
    rw [if_pos rfl, forall_prop_of_true rfl, overflow, overflow]
    cases view.evicts with
    | false =>
      simp only [Bool.false_eq_true, if_false, false_and, iff_false]
      split
      · omega
      · omega
    | true =>
      simp only [if_true, true_and]
      split
      · split
        · omega
        · omega
      · split
        · omega
        · omega

omit [DecidableEq MessagePtr] in
theorem inRange_messageAddedAtStart (hRange : view.InRange) (messages : List MessagePtr) :
    (view.messageAddedAtStart getScrollBarHighlight messages).InRange := by
  have hMessages : (view.messageAddedAtStart getScrollBarHighlight messages).messages_ =
      (view.messages_.pushFront messages).1 := rfl
  rw [InRange] at hRange
  rw [InRange, range_messageAddedAtStart, hMessages, hRange, LimitedQueue.getSnapshot_pushFront,
    LimitedQueue.snd_pushFront, List.length_append, Nat.cast_add, add_comm]

theorem inRange_messageReplaced (hRange : view.InRange) (hint : Nat) (prev replacement : MessagePtr) :
    (view.messageReplaced getScrollBarHighlight hint prev replacement).InRange := by
  have hMessages := congrArg ViewMessages.messages_
    (toViewMessages_messageReplaced getScrollBarHighlight hint prev replacement view)
  have hLength : (setAt (position hint prev view.messages_.getSnapshot) replacement
      view.messages_.getSnapshot).length = view.messages_.getSnapshot.length := by
    cases position hint prev view.messages_.getSnapshot with
    | none => rfl
    | some index => exact List.length_set
  rw [InRange, range_messageReplaced, hMessages, ViewMessages.getSnapshot_messageReplaced, hLength]
  exact hRange

omit [DecidableEq MessagePtr] in
theorem inRange_clearMessages_iff :
    view.clearMessages.InRange ↔ view.pauseScrollMaximumOffset_ = view.pauseScrollMinimumOffset_ := by
  have hSpan : view.clearMessages.scrollBar_.span = 0 := sub_self _
  have hLength : view.clearMessages.messages_.getSnapshot.length = 0 := rfl
  rw [InRange, range, hSpan, hLength, zero_add, Nat.cast_zero, sub_eq_zero, Int.cast_inj]
  rfl

omit [DecidableEq MessagePtr] in
theorem inRange_messagesUpdated_iff (snapshot : List MessagePtr) :
    (view.messagesUpdated getScrollBarHighlight snapshot).InRange ↔ view.KeepsRange (.messagesUpdated snapshot) := by
  obtain ⟨hMaximum, hMinimum, hMinimumOffset, hMaximumOffset⟩ :=
    span_foldl_pushLayout getScrollBarHighlight snapshot (view.clearFor snapshot.length)
  have hMessages : (view.messagesUpdated getScrollBarHighlight snapshot).messages_.getSnapshot =
      snapshot.rtake view.messages_.limit := by
    have hView := congrArg (fun view => view.messages_.getSnapshot)
      (toViewMessages_foldl_pushLayout getScrollBarHighlight snapshot
        (view.clearFor snapshot.length))
    exact hView.trans (view.toViewMessages.getSnapshot_messagesUpdated snapshot)
  rw [InRange, range, hMessages, CircularBuffer.length_rtake, messagesUpdated, Scrollbar.span, hMaximum, hMinimum,
    hMinimumOffset, hMaximumOffset, KeepsRange, min_comm, ← Int.cast_inj (α := Rat)]
  have hRange : ((snapshot.length + (view.pauseScrollMaximumOffset_ - view.pauseScrollMinimumOffset_) : Int) : Rat) =
      snapshot.length - 0 + view.pauseScrollMaximumOffset_ - view.pauseScrollMinimumOffset_ := by
    rw [Int.cast_add, Int.cast_natCast, Int.cast_sub, sub_zero, add_sub_assoc]
  rw [hRange, Int.cast_natCast]
  exact Iff.rfl

omit [DecidableEq MessagePtr] in
theorem inRange_setChannel_iff (channelType : ChannelType) (shouldIncludeMessage : MessagePtr → Bool)
    (snapshot : List MessagePtr) :
    (view.setChannel getScrollBarHighlight channelType shouldIncludeMessage snapshot).InRange ↔
      view.pauseScrollMaximumOffset_ = view.pauseScrollMinimumOffset_ := by
  let included := snapshot.filter shouldIncludeMessage
  obtain ⟨-, hMinimum, hMinimumOffset, hMaximumOffset⟩ :=
    span_foldl_pushLayout getScrollBarHighlight included (view.clearedFor channelType)
  have hView := toViewMessages_foldl_pushLayout getScrollBarHighlight included
    (view.clearedFor channelType)
  have hMessages : (view.setChannel getScrollBarHighlight channelType shouldIncludeMessage snapshot).messages_.getSnapshot =
      included.rtake view.messages_.limit := by
    exact (congrArg (fun view => view.messages_.getSnapshot) hView).trans
      (view.toViewMessages.getSnapshot_messagesUpdated included)
  have hMaximum : (view.setChannel getScrollBarHighlight channelType shouldIncludeMessage snapshot).scrollBar_.maximum_ =
      ((included.rtake view.messages_.limit).length : Rat) := by
    have hLimit := (congrArg (fun view => view.messages_.limit) hView).trans
      (view.toViewMessages.limit_messagesUpdated included)
    rw [CircularBuffer.length_rtake, min_comm, ← hLimit]
    rfl
  have hSpan : (view.setChannel getScrollBarHighlight channelType shouldIncludeMessage snapshot).scrollBar_.span =
      ((included.rtake view.messages_.limit).length : Rat) := by
    rw [Scrollbar.span, hMaximum]
    exact (congrArg _ hMinimum).trans (sub_zero _)
  rw [InRange, range, hSpan, hMessages]
  change _ + ((included.foldl (pushLayout getScrollBarHighlight) (view.clearedFor channelType)).pauseScrollMaximumOffset_ : Rat) -
    (included.foldl (pushLayout getScrollBarHighlight) (view.clearedFor channelType)).pauseScrollMinimumOffset_ = _ ↔ _
  rw [hMinimumOffset, hMaximumOffset, add_sub_assoc, add_eq_left, sub_eq_zero, Int.cast_inj]
  exact Iff.rfl

theorem inRange_step_iff (h : view.Sound) (hRange : view.InRange) (call : ScrollCall MessagePtr) :
    (view.step getScrollBarHighlight call).InRange ↔ view.KeepsRange call := by
  have hPauses {paused : ScrolledView MessagePtr ScrollbarHighlight}
      (hPaused : paused = { view with pauses_ := paused.pauses_ }) : paused.updatePauses.InRange := by
    rw [InRange, range_updatePauses, messages_updatePauses, hPaused]
    exact hRange
  have hExtent {bar : Scrollbar ScrollbarHighlight} (hBar : bar.extent = view.scrollBar_.extent) :
      InRange { view with scrollBar_ := bar } := by
    rw [InRange, range, show bar.span = _ from congrArg Prod.fst hBar]
    exact hRange
  cases call with
  | setChannel channelType shouldIncludeMessage snapshot =>
    exact inRange_setChannel_iff channelType shouldIncludeMessage snapshot
  | messageAppended message hidden => exact inRange_messageAppended_iff h hRange message hidden
  | messageAddedAtStart messages => exact iff_of_true (inRange_messageAddedAtStart hRange messages) trivial
  | messageReplaced hint prev replacement =>
    exact iff_of_true (inRange_messageReplaced hRange hint prev replacement) trivial
  | messagesUpdated snapshot => exact inRange_messagesUpdated_iff snapshot
  | clearMessages => exact inRange_clearMessages_iff
  | pause reason msecs now | pauseTimeout => exact iff_of_true (hPauses rfl) trivial
  | unpause reason =>
    refine iff_of_true ?_ trivial
    change (view.unpause reason).InRange
    rw [unpause]
    split
    · exact hPauses rfl
    · exact hRange
  | setDesiredValue value smoothly => exact iff_of_true (hExtent (Scrollbar.extent_setDesiredValue value smoothly)) trivial
  | setCurrentValue value => exact iff_of_true (hExtent (Scrollbar.extent_setCurrentValue value)) trivial
  | animationFinished => exact iff_of_true (hExtent Scrollbar.extent_animationFinished) trivial
  | setPageSize value => exact iff_of_true (hExtent rfl) trivial

end step

theorem Sound.matches_iff_inRange (h : view.Sound) (hHighlighted : view.Highlighted getScrollBarHighlight) :
    view.Matches getScrollBarHighlight ↔ view.InRange :=
  ⟨fun hMatches => hMatches.range, fun hRange => ⟨h.integral, hRange, hHighlighted⟩⟩

/-- A scrollbar matches the messages in every state of a run exactly if no step leaves an offset. -/
theorem matches_iff [DecidableEq MessagePtr] (getScrollBarHighlight : MessagePtr → ScrollbarHighlight)
    (messagesLimit : Nat) (pausable : Bool) (calls : List (ScrollCall MessagePtr)) :
    (∀ reached, reached <+: calls →
      (reached.foldl (step getScrollBarHighlight) (constructed messagesLimit pausable)).Matches
        getScrollBarHighlight) ↔
      AllSteps (step getScrollBarHighlight) KeepsRange (constructed messagesLimit pausable) calls := by
  have hStart : (constructed messagesLimit pausable : ScrolledView MessagePtr ScrollbarHighlight).Sound ∧
      (constructed messagesLimit pausable).Highlighted getScrollBarHighlight :=
    ⟨sound_constructed messagesLimit pausable, fun _ => rfl⟩
  have hKept (view : ScrolledView MessagePtr ScrollbarHighlight) (call : ScrollCall MessagePtr)
      (h : view.Sound ∧ view.Highlighted getScrollBarHighlight) :
      (view.step getScrollBarHighlight call).Sound ∧
        (view.step getScrollBarHighlight call).Highlighted getScrollBarHighlight :=
    ⟨h.1.step call, h.2.step h.1 call⟩
  have hAlways : AllSteps (step getScrollBarHighlight)
      (fun view _ => view.Sound ∧ view.Highlighted getScrollBarHighlight) (constructed messagesLimit pausable) calls :=
    AllSteps.of_invariant hStart hKept
  apply hAlways.forall_reached_iff
  · exact (hStart.1.matches_iff_inRange hStart.2).mpr (by simp [InRange, range, constructed, Scrollbar.ofLimit, Scrollbar.span,
      LimitedQueue.ofLimit, LimitedQueue.getSnapshot, CircularBuffer.ofCapacity])
  · intro view call hMatches h
    rw [(hKept view call h).1.matches_iff_inRange (hKept view call h).2]
    exact inRange_step_iff h.1 hMatches.range call

/-- A message that arrives during a pause is still counted when the view is cleared. -/
theorem not_matches_cleared :
    ¬∀ (messagesLimit : Nat) (pausable : Bool) (calls reached : List (ScrollCall Nat)), reached <+: calls →
      (reached.foldl (step fun message => message) (constructed messagesLimit pausable)).Matches fun message => message := by
  intro h
  have hRange := (h 10 true [.pause .Mouse none 0, .messageAppended 1 false, .clearMessages] _ (List.prefix_refl _)).range
  exact absurd hRange (by decide +kernel)

end Chatterino.ScrolledView
