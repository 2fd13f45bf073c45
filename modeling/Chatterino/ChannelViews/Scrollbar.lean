import Chatterino.Lib.CircularBuffer
import Mathlib.Tactic.Linarith

/-! # Scrollbars

Positions are counted in messages, a message at an index of the view having the position that is the
index plus the minimum. Next to them a scrollbar keeps the highlights of the messages. The thumb, which
is calculated from the positions, is left out.
-/

namespace Chatterino

open Lib

structure Scrollbar (ScrollbarHighlight : Type) where
  highlights_ : CircularBuffer ScrollbarHighlight
  atBottom_ : Bool := true
  animating : Bool := false
  maximum_ : Rat := 0
  minimum_ : Rat := 0
  pageSize_ : Rat := 0
  desiredValue_ : Rat := 0
  currentValue_ : Rat := 0

namespace Scrollbar

variable {ScrollbarHighlight : Type}

def ofLimit (messagesLimit : Nat) : Scrollbar ScrollbarHighlight where
  highlights_ := .ofCapacity messagesLimit

def areClose (a b : Rat) : Bool := |a - b| ≤ 1 / 10000

def getBottom (bar : Scrollbar ScrollbarHighlight) : Rat := bar.maximum_ - bar.pageSize_

def resetBounds (bar : Scrollbar ScrollbarHighlight) : Scrollbar ScrollbarHighlight :=
  if 0 < bar.minimum_ then
    { bar with
      maximum_ := bar.maximum_ - bar.minimum_
      desiredValue_ := bar.desiredValue_ - bar.minimum_
      currentValue_ := bar.currentValue_ - bar.minimum_
      minimum_ := 0 }
  else bar

def setCurrentValue (value : Rat) (bar : Scrollbar ScrollbarHighlight) : Scrollbar ScrollbarHighlight :=
  let value := max bar.minimum_ (min bar.getBottom value)
  if areClose bar.currentValue_ value then bar else { bar with currentValue_ := value }

/-- `smoothly` if the value is animated and smooth scrolling enabled. -/
def setDesiredValue (value : Rat) (smoothly : Bool) (bar : Scrollbar ScrollbarHighlight) :
    Scrollbar ScrollbarHighlight :=
  let value := max bar.minimum_ (min bar.getBottom value)
  if areClose bar.currentValue_ value then bar
  else
    let desired := { bar with desiredValue_ := value, atBottom_ := areClose bar.getBottom value }
    if smoothly then { desired with animating := true }
    else if bar.animating then desired
    else (desired.setCurrentValue value).resetBounds

def animationFinished (bar : Scrollbar ScrollbarHighlight) : Scrollbar ScrollbarHighlight :=
  resetBounds { bar with animating := false }

def scrollToBottom (bar : Scrollbar ScrollbarHighlight) : Scrollbar ScrollbarHighlight :=
  bar.setDesiredValue bar.getBottom false

def scrollToTop (bar : Scrollbar ScrollbarHighlight) : Scrollbar ScrollbarHighlight :=
  bar.setDesiredValue bar.minimum_ false

def offset (value : Rat) (bar : Scrollbar ScrollbarHighlight) : Scrollbar ScrollbarHighlight :=
  bar.setDesiredValue (bar.desiredValue_ + value) false

def setPageSize (value : Rat) (bar : Scrollbar ScrollbarHighlight) : Scrollbar ScrollbarHighlight :=
  { bar with pageSize_ := value }

def setMaximum (value : Rat) (bar : Scrollbar ScrollbarHighlight) : Scrollbar ScrollbarHighlight :=
  { bar with maximum_ := value }

def offsetMaximum (value : Rat) (bar : Scrollbar ScrollbarHighlight) : Scrollbar ScrollbarHighlight :=
  { bar with maximum_ := bar.maximum_ + value }

def setMinimum (value : Rat) (bar : Scrollbar ScrollbarHighlight) : Scrollbar ScrollbarHighlight :=
  { bar with minimum_ := value }

def offsetMinimum (value : Rat) (bar : Scrollbar ScrollbarHighlight) : Scrollbar ScrollbarHighlight :=
  let offset := { bar with minimum_ := bar.minimum_ + value }
  if offset.desiredValue_ < offset.minimum_ then offset.scrollToTop else offset

def addHighlight (highlight : ScrollbarHighlight) (bar : Scrollbar ScrollbarHighlight) :
    Scrollbar ScrollbarHighlight :=
  { bar with highlights_ := bar.highlights_.pushBack highlight }

def addHighlightsAtStart (highlights : List ScrollbarHighlight) (bar : Scrollbar ScrollbarHighlight) :
    Scrollbar ScrollbarHighlight :=
  let nItems := min highlights.length (bar.highlights_.capacity - bar.highlights_.items.length)
  { bar with
    highlights_ := (highlights.drop (highlights.length - nItems)).foldr
      (fun highlight buffer => buffer.pushFront highlight) bar.highlights_ }

def replaceHighlight (index : Nat) (replacement : ScrollbarHighlight) (bar : Scrollbar ScrollbarHighlight) :
    Scrollbar ScrollbarHighlight :=
  if bar.highlights_.items.length ≤ index then bar
  else { bar with highlights_ := bar.highlights_.set index replacement }

def clearHighlights (bar : Scrollbar ScrollbarHighlight) : Scrollbar ScrollbarHighlight :=
  { bar with highlights_ := bar.highlights_.clear }

def span (bar : Scrollbar ScrollbarHighlight) : Rat := bar.maximum_ - bar.minimum_

def extent (bar : Scrollbar ScrollbarHighlight) : Rat × CircularBuffer ScrollbarHighlight := (bar.span, bar.highlights_)

variable {bar : Scrollbar ScrollbarHighlight}

@[simp] theorem extent_resetBounds : bar.resetBounds.extent = bar.extent := by
  rw [resetBounds]
  split
  · simp [extent, span]
  · rfl

@[simp] theorem extent_setCurrentValue (value : Rat) : (bar.setCurrentValue value).extent = bar.extent := by
  simp only [setCurrentValue]
  split <;> rfl

@[simp] theorem extent_setDesiredValue (value : Rat) (smoothly : Bool) :
    (bar.setDesiredValue value smoothly).extent = bar.extent := by
  simp only [setDesiredValue]
  split
  · rfl
  · split
    · rfl
    · split
      · rfl
      · rw [extent_resetBounds, extent_setCurrentValue]
        rfl

@[simp] theorem extent_animationFinished : bar.animationFinished.extent = bar.extent := by
  rw [animationFinished, extent_resetBounds]
  rfl

theorem extent_offsetMinimum (value : Rat) :
    (bar.offsetMinimum value).extent = (bar.span - value, bar.highlights_) := by
  have hOffset : extent { bar with minimum_ := bar.minimum_ + value } = (bar.span - value, bar.highlights_) := by
    rw [extent, span, span, sub_add_eq_sub_sub]
  simp only [offsetMinimum]
  split
  · rw [scrollToTop, extent_setDesiredValue, hOffset]
  · exact hOffset

theorem extent_offsetMaximum (value : Rat) :
    (bar.offsetMaximum value).extent = (bar.span + value, bar.highlights_) := by
  rw [extent, span, span, offsetMaximum, add_sub_right_comm]

theorem extent_setBounds (value : Rat) :
    ((bar.resetBounds.setMaximum value).setMinimum 0).extent = (value, bar.highlights_) := by
  have hHighlights : bar.resetBounds.highlights_ = bar.highlights_ := congrArg Prod.snd extent_resetBounds
  rw [extent, span, setMinimum, setMaximum, sub_zero]
  exact congrArg _ hHighlights

def Integral (bar : Scrollbar ScrollbarHighlight) : Prop :=
  ∃ maximum minimum : Int, bar.maximum_ = maximum ∧ bar.minimum_ = minimum

theorem Integral.resetBounds (h : bar.Integral) : bar.resetBounds.Integral := by
  obtain ⟨maximum, minimum, hMaximum, hMinimum⟩ := h
  rw [Scrollbar.resetBounds]
  split
  · refine ⟨maximum - minimum, 0, ?_, Int.cast_zero.symm⟩
    rw [Int.cast_sub, ← hMaximum, ← hMinimum]
  · exact ⟨maximum, minimum, hMaximum, hMinimum⟩

theorem Integral.setCurrentValue (h : bar.Integral) (value : Rat) : (bar.setCurrentValue value).Integral := by
  simp only [Scrollbar.setCurrentValue]
  split
  · exact h
  · exact h

theorem Integral.setDesiredValue (h : bar.Integral) (value : Rat) (smoothly : Bool) :
    (bar.setDesiredValue value smoothly).Integral := by
  simp only [Scrollbar.setDesiredValue]
  split
  · exact h
  · split
    · exact h
    · split
      · exact h
      · apply Integral.resetBounds
        apply Integral.setCurrentValue
        exact h

theorem Integral.offsetMaximum (h : bar.Integral) (value : Int) : (bar.offsetMaximum value).Integral := by
  obtain ⟨maximum, minimum, hMaximum, hMinimum⟩ := h
  refine ⟨maximum + value, minimum, ?_, hMinimum⟩
  rw [Scrollbar.offsetMaximum, hMaximum, Int.cast_add]

theorem Integral.offsetMinimum (h : bar.Integral) (value : Int) : (bar.offsetMinimum value).Integral := by
  have hOffset : Integral { bar with minimum_ := bar.minimum_ + value } := by
    obtain ⟨maximum, minimum, hMaximum, hMinimum⟩ := h
    refine ⟨maximum, minimum + value, hMaximum, ?_⟩
    rw [hMinimum, Int.cast_add]
  simp only [Scrollbar.offsetMinimum]
  split
  · exact hOffset.setDesiredValue _ _
  · exact hOffset

theorem integral_setBounds (value : Nat) : ((bar.setMaximum value).setMinimum 0).Integral :=
  ⟨value, 0, (Int.cast_natCast value).symm, Int.cast_zero.symm⟩

end Scrollbar

end Chatterino
