import Chatterino.Layouts.MessageLayoutContainer
import Chatterino.Messages.Selection

/-! # Painting a selection

The rectangles that are painted, and the index of the character at a point. They are `none` where an
element is asked for that is not there. Indices are compared as unsigned numbers, so the element before
the first one is not there either.
-/

namespace Chatterino

structure ElementMeasures (R : Type) where
  getXFromIndex : MessageLayoutElement R → Nat → R
  getMouseOverIndex : MessageLayoutElement R → QPointF R → Nat

namespace MessageLayoutContainer

variable {R : Type} [Qreal R] (measures : ElementMeasures R) (c : MessageLayoutContainer R)

def firstOfLine (line : Line R) : Option (MessageLayoutElement R) := c.elements_[line.startIndex]?

def lastOfLine (line : Line R) : Option (MessageLayoutElement R) :=
  if line.endIndex = 0 then none else c.elements_[line.endIndex - 1]?

def paintSelectionRect (line : Line R) (left right yOffset : R) : QRectF R :=
  let rect := line.rect
  let rect := rect.setTop (max rect.top 0 + yOffset)
  let rect := rect.setBottom (min c.height_ rect.bottom + yOffset)
  (rect.setLeft left).setRight right

def paintLine (yOffset : R) (line : Line R) : Option (QRectF R) := do
  let first ← c.firstOfLine line
  let last ← c.lastOfLine line
  return c.paintSelectionRect line first.getRect.left last.getRect.right yOffset

/-- The loop over `count` elements, from one at an index on, for the place of a character. -/
def findX (charIndex : Nat) : Nat → Nat → Nat → Option (Option R)
  | 0, _, _ => some none
  | count + 1, i, index => do
    let element ← c.elements_[i]?
    let indexCount := element.getSelectionIndexCount
    if charIndex < index + indexCount then some (some (measures.getXFromIndex element (charIndex - index)))
    else findX charIndex count (i + 1) (index + indexCount)

def findXInLine (charIndex : Nat) (line : Line R) : Option (Option R) :=
  c.findX measures charIndex (line.endIndex - line.startIndex) line.startIndex line.startCharIndex

/-- The rectangles, and the index of the line with which `paintSelectionEnd` goes on. -/
def paintSelectionStart (messageIndex : Nat) (selection : Selection) (yOffset : R) :
    Nat → List (Line R) → Option (List (QRectF R) × Option Nat)
  | _, [] => some ([], none)
  | lineIndex, line :: lines =>
    if line.endCharIndex ≤ selection.selectionMin.charIndex then
      paintSelectionStart messageIndex selection yOffset (lineIndex + 1) lines
    else if selection.selectionMin.charIndex = line.endCharIndex - 1 then do
      let right := (← c.lastOfLine line).getRect.right
      let rect := c.paintSelectionRect line right right yOffset
      if selection.selectionMax.messageIndex ≠ messageIndex then
        return (rect :: (← lines.mapM (c.paintLine yOffset)), none)
      else return ([rect], some (lineIndex + 1))
    else do
      let _ ← c.firstOfLine line
      let r := (← c.lastOfLine line).getRect.right
      match ← c.findXInLine measures selection.selectionMin.charIndex line with
      | none => paintSelectionStart messageIndex selection yOffset (lineIndex + 1) lines
      | some x =>
        if selection.selectionMax.messageIndex = messageIndex ∧ selection.selectionMax.charIndex < line.endCharIndex then
          let r := (← c.findXInLine measures selection.selectionMax.charIndex line).getD r
          return ([c.paintSelectionRect line x r yOffset], none)
        else
          let rect := c.paintSelectionRect line x r yOffset
          if selection.selectionMax.messageIndex ≠ messageIndex then
            return (rect :: (← lines.mapM (c.paintLine yOffset)), none)
          else return ([rect], some (lineIndex + 1))

def paintSelectionEnd (selection : Selection) (yOffset : R) : List (Line R) → Option (List (QRectF R))
  | [] => some []
  | line :: lines =>
    if line.endCharIndex < selection.selectionMax.charIndex then do
      let rect ← c.paintLine yOffset line
      return rect :: (← paintSelectionEnd selection yOffset lines)
    else do
      let last ← c.lastOfLine line
      let r ← c.findXInLine measures selection.selectionMax.charIndex line
      let first ← c.firstOfLine line
      return [c.paintSelectionRect line first.getRect.left (r.getD last.getRect.right) yOffset]

def paintSelection (messageIndex : Nat) (selection : Selection) (yOffset : R) : Option (List (QRectF R)) :=
  if messageIndex < selection.selectionMin.messageIndex ∨ selection.selectionMax.messageIndex < messageIndex then some []
  else if selection.selectionMin.messageIndex < messageIndex ∧ messageIndex < selection.selectionMax.messageIndex then
    c.lines_.mapM (c.paintLine yOffset)
  else if selection.selectionMin.messageIndex = messageIndex then do
    let (painted, lineIndex) ← c.paintSelectionStart measures messageIndex selection yOffset 0 c.lines_
    match lineIndex with
    | none => return painted
    | some lineIndex => return painted ++ (← c.paintSelectionEnd measures selection yOffset (c.lines_.drop lineIndex))
  else c.paintSelectionEnd measures selection yOffset c.lines_

/-- The loop over the elements up to the end of the line, with the index so far. -/
def selectionIndexFrom (spaceWidth : R) (point : QPointF R) (lineStart : Nat) : Nat → Nat → Nat → Option Nat
  | 0, _, index => some index
  | count + 1, i, index => do
    let element ← c.elements_[i]?
    if i < lineStart then
      selectionIndexFrom spaceWidth point lineStart count (i + 1) (index + element.getSelectionIndexCount)
    else
      let rightMargin : R := if element.hasTrailingSpace then spaceWidth else 0
      if Qreal.le point.x (element.getRect.right + rightMargin) then
        return index + measures.getMouseOverIndex element point
      else selectionIndexFrom spaceWidth point lineStart count (i + 1) (index + element.getSelectionIndexCount)

def getSelectionIndex (spaceWidth : R) (point : QPointF R) : Option Nat :=
  if c.elements_.isEmpty then some 0
  else
    match c.lines_.dropWhile fun line => !line.rect.contains point with
    | line :: next =>
      c.selectionIndexFrom measures spaceWidth point line.startIndex
        ((next.head?.map fun line => line.startIndex).getD c.elements_.length) 0 0
    | [] => do
      let last ← c.lines_.getLast?
      c.selectionIndexFrom measures spaceWidth point last.startIndex c.elements_.length 0 0

end MessageLayoutContainer

end Chatterino

namespace Chatterino.MessageLayoutContainer

variable {R : Type} {measures : ElementMeasures R} {c : MessageLayoutContainer R} {line : Line R}
  {lines : List (Line R)}

def Holds (c : MessageLayoutContainer R) (line : Line R) : Prop :=
  line.startIndex < line.endIndex ∧ line.endIndex ≤ c.elements_.length

theorem Holds.exists_first (h : Holds c line) : ∃ first, c.firstOfLine line = some first :=
  ⟨_, List.getElem?_eq_getElem (Nat.lt_of_lt_of_le h.1 h.2)⟩

theorem Holds.exists_last (h : Holds c line) : ∃ last, c.lastOfLine line = some last := by
  have hPos : line.endIndex ≠ 0 := Nat.ne_zero_of_lt h.1
  rw [lastOfLine, if_neg hPos]
  exact ⟨_, List.getElem?_eq_getElem (Nat.lt_of_lt_of_le (Nat.pred_lt hPos) h.2)⟩

theorem exists_findX (charIndex : Nat) {count i : Nat} (index : Nat) (h : i + count ≤ c.elements_.length) :
    ∃ x, c.findX measures charIndex count i index = some x := by
  induction count generalizing i index with
  | zero => exact ⟨none, rfl⟩
  | succ count ih =>
    have hLength : i < c.elements_.length := by omega
    rw [findX, List.getElem?_eq_getElem hLength, Option.bind_eq_bind, Option.bind_some]
    dsimp only
    split_ifs
    · exact ⟨_, rfl⟩
    · exact ih _ (by omega)

theorem Holds.exists_findXInLine (h : Holds c line) (measures : ElementMeasures R) (charIndex : Nat) :
    ∃ x, c.findXInLine measures charIndex line = some x := by
  apply exists_findX
  have hRange := h.1
  have hEnd := h.2
  omega

variable [Qreal R]

theorem Holds.exists_paintLine (h : Holds c line) (yOffset : R) : ∃ rect, c.paintLine yOffset line = some rect := by
  obtain ⟨first, hFirst⟩ := h.exists_first
  obtain ⟨last, hLast⟩ := h.exists_last
  rw [paintLine, hFirst, hLast]
  exact ⟨_, rfl⟩

theorem exists_paintLines (h : ∀ line ∈ lines, Holds c line) (yOffset : R) :
    ∃ rects, lines.mapM (c.paintLine yOffset) = some rects := by
  induction lines with
  | nil => exact ⟨[], rfl⟩
  | cons line lines ih =>
    obtain ⟨hLine, hLines⟩ := List.forall_mem_cons.mp h
    obtain ⟨rect, hRect⟩ := hLine.exists_paintLine yOffset
    obtain ⟨rects, hRects⟩ := ih hLines
    rw [List.mapM_cons, hRect, hRects]
    exact ⟨_, rfl⟩

theorem exists_paintSelectionEnd (h : ∀ line ∈ lines, Holds c line) (measures : ElementMeasures R) (selection : Selection) (yOffset : R) :
    ∃ rects, c.paintSelectionEnd measures selection yOffset lines = some rects := by
  induction lines with
  | nil => exact ⟨[], rfl⟩
  | cons line lines ih =>
    obtain ⟨hLine, hLines⟩ := List.forall_mem_cons.mp h
    rw [paintSelectionEnd]
    split_ifs
    · obtain ⟨rect, hRect⟩ := hLine.exists_paintLine yOffset
      obtain ⟨rects, hRects⟩ := ih hLines
      rw [hRect, hRects]
      exact ⟨_, rfl⟩
    · obtain ⟨last, hLast⟩ := hLine.exists_last
      obtain ⟨x, hX⟩ := hLine.exists_findXInLine measures selection.selectionMax.charIndex
      obtain ⟨first, hFirst⟩ := hLine.exists_first
      rw [hLast, hX, hFirst]
      exact ⟨_, rfl⟩

theorem exists_paintSelectionStart (h : ∀ line ∈ lines, Holds c line) (measures : ElementMeasures R) (messageIndex : Nat)
    (selection : Selection) (yOffset : R) (lineIndex : Nat) :
    ∃ painted, c.paintSelectionStart measures messageIndex selection yOffset lineIndex lines = some painted := by
  induction lines generalizing lineIndex with
  | nil => exact ⟨_, rfl⟩
  | cons line lines ih =>
    obtain ⟨hLine, hLines⟩ := List.forall_mem_cons.mp h
    obtain ⟨first, hFirst⟩ := hLine.exists_first
    obtain ⟨last, hLast⟩ := hLine.exists_last
    obtain ⟨rects, hRects⟩ := exists_paintLines hLines yOffset
    obtain ⟨x, hX⟩ := hLine.exists_findXInLine measures selection.selectionMin.charIndex
    obtain ⟨r, hR⟩ := hLine.exists_findXInLine measures selection.selectionMax.charIndex
    rw [paintSelectionStart]
    by_cases hBehind : line.endCharIndex ≤ selection.selectionMin.charIndex
    · rw [if_pos hBehind]
      exact ih hLines _
    · rw [if_neg hBehind, hFirst, hLast, hX, hR, hRects]
      simp only [Option.bind_eq_bind, Option.bind_some]
      cases x with
      | none =>
        split_ifs
        · exact ⟨_, rfl⟩
        · exact ⟨_, rfl⟩
        · exact ih hLines _
        · exact ih hLines _
        · exact ih hLines _
      | some x => split_ifs <;> exact ⟨_, rfl⟩

theorem isSome_paintSelection (h : ∀ line ∈ c.lines_, Holds c line) (measures : ElementMeasures R) (messageIndex : Nat)
    (selection : Selection) (yOffset : R) : (c.paintSelection measures messageIndex selection yOffset).isSome = true := by
  rw [Option.isSome_iff_exists, paintSelection]
  by_cases hOutside :
      messageIndex < selection.selectionMin.messageIndex ∨ selection.selectionMax.messageIndex < messageIndex
  · rw [if_pos hOutside]
    exact ⟨[], rfl⟩
  · rw [if_neg hOutside]
    split_ifs
    · exact exists_paintLines h yOffset
    · obtain ⟨⟨painted, lineIndex⟩, hStart⟩ := exists_paintSelectionStart h measures messageIndex selection yOffset 0
      rw [hStart, Option.bind_eq_bind, Option.bind_some]
      cases lineIndex with
      | none => exact ⟨_, rfl⟩
      | some lineIndex =>
        obtain ⟨rects, hEnd⟩ := exists_paintSelectionEnd
          (fun line hLine => h line (List.mem_of_mem_drop hLine)) measures selection yOffset
        dsimp only
        rw [hEnd]
        exact ⟨_, rfl⟩
    · exact exists_paintSelectionEnd h measures selection yOffset

theorem exists_selectionIndexFrom (measures : ElementMeasures R) (spaceWidth : R) (point : QPointF R) (lineStart : Nat)
    {count i : Nat} (index : Nat) (h : i + count ≤ c.elements_.length) :
    ∃ found, c.selectionIndexFrom measures spaceWidth point lineStart count i index = some found := by
  induction count generalizing i index with
  | zero => exact ⟨index, rfl⟩
  | succ count ih =>
    have hLength : i < c.elements_.length := by omega
    rw [selectionIndexFrom, List.getElem?_eq_getElem hLength, Option.bind_eq_bind, Option.bind_some]
    dsimp only
    split_ifs
    · exact ih _ (by omega)
    · exact ⟨_, rfl⟩
    · exact ih _ (by omega)
    · exact ⟨_, rfl⟩
    · exact ih _ (by omega)

theorem isSome_getSelectionIndex (h : ∀ line ∈ c.lines_, Holds c line) (hLines : c.elements_ ≠ [] → c.lines_ ≠ [])
    (measures : ElementMeasures R) (spaceWidth : R) (point : QPointF R) :
    (c.getSelectionIndex measures spaceWidth point).isSome = true := by
  rw [Option.isSome_iff_exists, getSelectionIndex]
  split_ifs with hEmpty
  · exact ⟨0, rfl⟩
  · cases hRest : c.lines_.dropWhile fun line => !line.rect.contains point with
    | nil =>
      have hNonempty : c.lines_ ≠ [] := hLines fun hNil => hEmpty (List.isEmpty_iff.mpr hNil)
      dsimp only
      rw [List.getLast?_eq_some_getLast hNonempty]
      exact exists_selectionIndexFrom measures spaceWidth point _ 0 (Nat.zero_add _).le
    | cons line next =>
      apply exists_selectionIndexFrom measures spaceWidth point _ 0
      rw [Nat.zero_add]
      cases next with
      | nil => exact Nat.le_refl _
      | cons following next =>
        have hMem : following ∈ c.lines_ := by
          apply (List.dropWhile_suffix fun line : Line R => !line.rect.contains point).subset
          rw [hRest]
          exact List.mem_cons_of_mem _ List.mem_cons_self
        exact (Nat.le_of_lt (h following hMem).1).trans (h following hMem).2

end Chatterino.MessageLayoutContainer
