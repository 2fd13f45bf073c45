import Chatterino.Messages.Message
import Mathlib.Data.List.Sort

/-! # Elements of a layout

Lengths are computed in an arithmetic of which nothing is assumed, so that rounding is left open.
-/

namespace Chatterino

/-- What is computed with lengths. `toInt` cuts off what lies behind the point. -/
class Qreal (R : Type) extends Zero R, Add R, Sub R, Mul R, Div R, Max R, Min R, IntCast R where
  toInt : R → Int
  le : R → R → Bool
  lt : R → R → Bool

instance : Qreal Rat where
  toInt x := Int.tdiv x.num x.den
  le x y := x ≤ y
  lt x y := x < y

structure QPointF (R : Type) where
  x : R
  y : R

structure QRectF (R : Type) where
  x : R
  y : R
  width : R
  height : R

namespace QRectF

variable {R : Type} [Qreal R]

def left (rect : QRectF R) : R := rect.x

def right (rect : QRectF R) : R := rect.x + rect.width

def top (rect : QRectF R) : R := rect.y

def bottom (rect : QRectF R) : R := rect.y + rect.height

def setLeft (rect : QRectF R) (left : R) : QRectF R :=
  { rect with x := rect.x + (left - rect.x), width := rect.width - (left - rect.x) }

def setRight (rect : QRectF R) (right : R) : QRectF R := { rect with width := right - rect.x }

def setTop (rect : QRectF R) (top : R) : QRectF R :=
  { rect with y := rect.y + (top - rect.y), height := rect.height - (top - rect.y) }

def setBottom (rect : QRectF R) (bottom : R) : QRectF R := { rect with height := bottom - rect.y }

/-- Whether a length starting at one coordinate reaches a point. It may be negative, and an empty one
reaches nothing. -/
def spans (start length point : R) : Bool :=
  let first := if Qreal.lt length 0 then start + length else start
  let last := if Qreal.lt length 0 then start else start + length
  Qreal.lt first last && Qreal.le first point && Qreal.le point last

def contains (rect : QRectF R) (point : QPointF R) : Bool :=
  spans rect.x rect.width point.x && spans rect.y rect.height point.y

end QRectF

inductive LayoutElementKind where
  -- images, with a background or layered or not, and icons of text
  | image
  | text (length : Nat)
  | replyCurve
deriving DecidableEq

def LayoutElementKind.getSelectionIndexCount (trailingSpace : Bool) : LayoutElementKind → Nat
  | .image => if trailingSpace then 2 else 1
  | .text length => length + if trailingSpace then 1 else 0
  | .replyCurve => 1

structure MessageLayoutElement (R : Type) where
  kind : LayoutElementKind
  rect_ : QRectF R
  flags : MessageElementFlags
  /-- Whether its text is written from right to left, and whether it has no letters. -/
  isRightToLeft : Bool
  isNeutral : Bool
  trailingSpace : Bool
  reversedNeutral : Bool := false
  line_ : Nat := 0

namespace MessageLayoutElement

variable {R : Type}

def getRect (element : MessageLayoutElement R) : QRectF R := element.rect_

def getFlags (element : MessageLayoutElement R) : MessageElementFlags := element.flags

def getLine (element : MessageLayoutElement R) : Nat := element.line_

def hasTrailingSpace (element : MessageLayoutElement R) : Bool := element.trailingSpace

def setPosition (element : MessageLayoutElement R) (point : QPointF R) : MessageLayoutElement R :=
  { element with rect_ := { element.rect_ with x := point.x, y := point.y } }

def setLine (element : MessageLayoutElement R) (line : Nat) : MessageLayoutElement R := { element with line_ := line }

def setTrailingSpace (element : MessageLayoutElement R) (value : Bool) : MessageLayoutElement R :=
  { element with trailingSpace := value }

def getSelectionIndexCount (element : MessageLayoutElement R) : Nat :=
  element.kind.getSelectionIndexCount element.trailingSpace

end MessageLayoutElement

/-! ## Laying out a message

Elements are added to lines, which are closed from several places. The settings, the fonts and the way
in which elements of a line are sorted are parameters.
-/

inductive TextDirection where
  | Neutral | RTL | LTR
deriving DecidableEq

structure LineBounds where
  startIndex : Nat
  endIndex : Nat
  startCharIndex : Nat
  endCharIndex : Nat
deriving DecidableEq

structure Line (R : Type) extends LineBounds where
  rect : QRectF R

structure LayoutStyle (R : Type) where
  collpseMessagesMinLines : Int
  removeSpacesBetweenEmotes : Bool
  textLineHeight : R
  spaceWidth : R
  dotdotdotWidth : R

/-- The elements are sorted by their lines, and in a line by where they stand. Equal ones are in any order. -/
structure ElementSort (R : Type) [Qreal R] where
  sort : List (MessageLayoutElement R) → List (MessageLayoutElement R)
  perm : ∀ elements, (sort elements).Perm elements
  sorted : ∀ elements, (sort elements).Pairwise fun a b =>
    if a.getLine = b.getLine then Qreal.lt b.getRect.x a.getRect.x = false else a.getLine < b.getLine

structure MessageLayoutContainer (R : Type) where
  scale_ : R
  width_ : R
  flags_ : MessageFlags
  line_ : Nat
  height_ : R
  currentX_ : R
  currentY_ : R
  charIndex_ : Nat
  lineStart_ : Nat
  lineHeight_ : R
  canAddMessages_ : Bool
  isCollapsed_ : Bool
  lineContainsRTL_ : Bool
  anyReorderingDone_ : Bool
  textDirection_ : TextDirection
  elements_ : List (MessageLayoutElement R)
  lines_ : List (Line R)

namespace MessageLayoutContainer

variable {R : Type} [Qreal R]

structure QMargins where
  left : Int
  top : Int
  right : Int
  bottom : Int

def MARGIN : QMargins := ⟨8, 4, 8, 4⟩

def COMPACT_EMOTES_OFFSET : R := ((4 : Int) : R)

def scaled (margin : Int) (c : MessageLayoutContainer R) : R := (margin : R) * c.scale_

def scaledInt (margin : Int) (c : MessageLayoutContainer R) : R := (Qreal.toInt (scaled margin c) : R)

section

variable (style : LayoutStyle R) (c : MessageLayoutContainer R)

def canAddElements : Bool := c.canAddMessages_

def isRTL : Bool := c.textDirection_ = .RTL

def isLTR : Bool := c.textDirection_ = .LTR

def isNeutral : Bool := c.textDirection_ = .Neutral

def canCollapse : Bool := 0 < style.collpseMessagesMinLines && c.flags_.has .Collapsed

def atStartOfLine : Bool := c.lineStart_ = c.elements_.length

def remainingWidth : R :=
  (c.width_ - c.scaledInt MARGIN.left - c.scaledInt MARGIN.right -
      if ((c.line_ + 1 : Nat) : Int) = style.collpseMessagesMinLines then style.dotdotdotWidth else 0) - c.currentX_

def fitsInLine (width : R) : Bool := Qreal.le width (c.remainingWidth style)

end

/-- Starts a layout. The direction of the text stays as it was. -/
def beginLayout (width scale : R) (flags : MessageFlags) (c : MessageLayoutContainer R) : MessageLayoutContainer R where
  scale_ := scale
  width_ := width
  flags_ := flags
  line_ := 0
  height_ := 0
  currentX_ := 0
  currentY_ := 0
  charIndex_ := 0
  lineStart_ := 0
  lineHeight_ := 0
  canAddMessages_ := true
  isCollapsed_ := false
  lineContainsRTL_ := false
  anyReorderingDone_ := false
  textDirection_ := c.textDirection_
  elements_ := []
  lines_ := []

/-- Where an element is added: behind the others, or at its index again, after the one at another. -/
inductive Position where
  | adding
  | repositioning (index : Nat) (prevIndex : Option Nat)

def lastElement (position : Position) (c : MessageLayoutContainer R) : Option (MessageLayoutElement R) :=
  match position with
  | .adding => c.elements_.getLast?
  | .repositioning _ prevIndex => prevIndex.bind fun i => c.elements_[i]?

def shouldRemoveSpaceBetweenEmotes (position : Position) (c : MessageLayoutContainer R) : Bool :=
  (c.lastElement position).any fun last =>
    last.hasTrailingSpace && last.getLine = c.line_ && last.getFlags.has .EmoteImage

def isCompactEmote (element : MessageLayoutElement R) (c : MessageLayoutContainer R) : Bool :=
  !c.flags_.has .DisableCompactEmotes && element.getFlags.has .EmoteImage

def inferDirection (element : MessageLayoutElement R) (c : MessageLayoutContainer R) : TextDirection :=
  if c.isNeutral && element.getFlags.has .Text && !element.getFlags.has .RepliedMessage then
    if element.isRightToLeft then .RTL
    else if !element.isNeutral then .LTR
    else c.textDirection_
  else c.textDirection_

/-- The element as it is placed, and the container with the place for the next one. -/
def place (style : LayoutStyle R) (element : MessageLayoutElement R) (position : Position)
    (c : MessageLayoutContainer R) : MessageLayoutElement R × MessageLayoutContainer R :=
  let isAddingMode := match position with
    | .adding => true
    | .repositioning _ _ => false
  let isRTLAdjusting := c.isRTL && !isAddingMode
  let removesSpace := style.removeSpacesBetweenEmotes && element.getFlags.has .EmoteImage &&
    c.shouldRemoveSpaceBetweenEmotes position
  let c := { c with
    lineContainsRTL_ := c.lineContainsRTL_ || element.isRightToLeft
    textDirection_ := if isAddingMode then c.inferDirection element else c.textDirection_
    currentY_ := if c.elements_.isEmpty then c.scaledInt MARGIN.top else c.currentY_ }
  let height := element.getRect.height
  let lineHeight := if c.isCompactEmote element then height - COMPACT_EMOTES_OFFSET * c.scale_ else height
  let yOffset : R := if element.getFlags.has .ChannelPointReward && element.getFlags.hasNone [.EmoteImage] then
    0 - c.scaled MARGIN.top else 0
  let currentX := if removesSpace then
    if isRTLAdjusting then c.currentX_ + style.spaceWidth else c.currentX_ - style.spaceWidth
    else c.currentX_
  let width := element.getRect.width
  let xOffset : R := if isRTLAdjusting then 0 - width else 0
  let placed := (element.setPosition ⟨currentX + xOffset, c.currentY_ - height + yOffset⟩).setLine c.line_
  let moved (x length : R) : R := if isRTLAdjusting then x - length else x + length
  let afterElement := moved currentX width
  (placed, { c with
    lineHeight_ := max c.lineHeight_ lineHeight
    currentX_ := if element.hasTrailingSpace then moved afterElement style.spaceWidth else afterElement })

/-- The private overload of `addElement`. -/
def addElementAt (style : LayoutStyle R) (element : MessageLayoutElement R) (forceAdd : Bool) (position : Position)
    (c : MessageLayoutContainer R) : MessageLayoutContainer R :=
  if !c.canAddElements && !forceAdd then c
  else
    let placed := c.place style element position
    { placed.2 with
      elements_ := match position with
        | .adding => c.elements_ ++ [placed.1]
        | .repositioning index _ => c.elements_.set index placed.1 }

/-- The order in which the elements are placed again: sequences of the other direction are reversed, neutral words
with the sequence they are in. -/
def correctSequence (isRTL : Bool) : List (Nat × MessageLayoutElement R) → Bool → List Nat → List Nat
  | [], _, swapped => swapped
  | (i, element) :: elements, isReversing, swapped =>
    let neutralOrUsername := element.isNeutral || element.getFlags.has .Mention
    if (element.isRightToLeft != isRTL && !neutralOrUsername) || (neutralOrUsername && isReversing) then
      correctSequence isRTL elements true (i :: swapped)
    else swapped ++ i :: correctSequence isRTL elements false []

/-- Marks the neutral words that are written as if from right to left. -/
def markReversedNeutral (isRTL isLTR : Bool) : Bool → List (MessageLayoutElement R) → List (MessageLayoutElement R)
  | _, [] => []
  | isReversing, element :: elements =>
    let neutralOrUsername := element.isNeutral || element.getFlags.has .Mention
    let reverses := (element.isRightToLeft != isRTL && !neutralOrUsername) || (neutralOrUsername && isReversing)
    let marked := element.isNeutral && ((isRTL && !isReversing) || (isLTR && isReversing))
    (if marked then { element with reversedNeutral := true } else element) ::
      markReversedNeutral isRTL isLTR reverses elements

def reposition (style : LayoutStyle R) (c : MessageLayoutContainer R) (step : Option Nat × Nat) :
    MessageLayoutContainer R :=
  match c.elements_[step.2]? with
  | some element => c.addElementAt style element false (.repositioning step.2 step.1)
  | none => c

/-- The words from an index on are marked, and the next element is placed at their right or left. -/
def markWords (startIndex : Nat) (c : MessageLayoutContainer R) : MessageLayoutContainer R :=
  let endIndex := c.elements_.length - 1
  { c with
    elements_ := c.elements_.take startIndex ++
      markReversedNeutral c.isRTL c.isLTR false (c.elements_.drop startIndex)
    currentX_ := if c.isRTL then (c.elements_[endIndex]?.map fun element => element.getRect.right).getD c.currentX_
      else (c.elements_[startIndex]?.map fun element => element.getRect.left).getD c.currentX_ }

def reorderRTL (style : LayoutStyle R) (firstTextIndex : Nat) (c : MessageLayoutContainer R) :
    MessageLayoutContainer R :=
  if c.elements_ = [] ∨ c.elements_.length - 1 ≤ firstTextIndex ∨ c.elements_.length ≤ c.lineStart_ then c
  else
    let startIndex := max c.lineStart_ firstTextIndex
    let words := (c.elements_.drop startIndex).mapIdx fun i element => (startIndex + i, element)
    let sequence := correctSequence c.isRTL words false []
    (List.zip (none :: sequence.map some) sequence).foldl (reposition style) (c.markWords startIndex)

def reorderLine (style : LayoutStyle R) (c : MessageLayoutContainer R) : MessageLayoutContainer R :=
  if c.lineContainsRTL_ || c.isRTL then
    let reordered := match c.elements_.findIdx? fun element => element.getFlags.has .Username with
      | some i => c.reorderRTL style (i + 1)
      | none => c
    { reordered with lineContainsRTL_ := false, anyReorderingDone_ := true }
  else c

def shiftElement (xOffset : R) (element : MessageLayoutElement R) (c : MessageLayoutContainer R) :
    MessageLayoutElement R :=
  let yExtra : R := if c.isCompactEmote element then COMPACT_EMOTES_OFFSET / ((2 : Int) : R) * c.scale_ else 0
  element.setPosition ⟨element.getRect.x + xOffset + c.scaled MARGIN.left,
    element.getRect.y + c.lineHeight_ + yExtra⟩

def shiftLine (c : MessageLayoutContainer R) : MessageLayoutContainer R :=
  let marginOffset := Qreal.toInt (c.scaled MARGIN.left) + Qreal.toInt (c.scaled MARGIN.right)
  let xOffset : R := if c.flags_.has .Centered then
    (c.elements_.getLast?.map fun last => (c.width_ - (marginOffset : R) - last.getRect.right) / ((2 : Int) : R)).getD 0
    else 0
  { c with elements_ := c.elements_.take c.lineStart_ ++
      (c.elements_.drop c.lineStart_).map fun element => c.shiftElement xOffset element }

def closeLine (endIndex endCharIndex : Nat) (lines_ : List (Line R)) : List (Line R) :=
  lines_.modify (lines_.length - 1) fun line => { line with endIndex := endIndex, endCharIndex := endCharIndex }

def pushLine (c : MessageLayoutContainer R) : MessageLayoutContainer R :=
  { c with
    lines_ := closeLine c.lineStart_ c.charIndex_ c.lines_ ++
      [⟨⟨c.lineStart_, 0, c.charIndex_, 0⟩, ⟨((-100000 : Int) : R), c.currentY_, ((200000 : Int) : R), c.lineHeight_⟩⟩]
    charIndex_ := c.charIndex_ +
      ((c.elements_.drop c.lineStart_).map MessageLayoutElement.getSelectionIndexCount).sum
    lineStart_ := c.elements_.length }

/-- A message that has as many lines as it may takes no more elements. -/
def nextLine (style : LayoutStyle R) (c : MessageLayoutContainer R) : MessageLayoutContainer R :=
  if c.canCollapse style && style.collpseMessagesMinLines ≤ ((c.line_ + 1 : Nat) : Int) then
    { c with canAddMessages_ := false }
  else
    { c with
      currentX_ := 0
      currentY_ := c.currentY_ + c.lineHeight_
      height_ := c.currentY_ + c.lineHeight_ + c.scaledInt MARGIN.bottom
      lineHeight_ := 0
      line_ := c.line_ + 1 }

def breakLine (style : LayoutStyle R) (c : MessageLayoutContainer R) : MessageLayoutContainer R :=
  (c.reorderLine style).shiftLine.pushLine.nextLine style

def addElement (style : LayoutStyle R) (element : MessageLayoutElement R) (c : MessageLayoutContainer R) :
    MessageLayoutContainer R :=
  let c := if !c.fitsInLine style element.getRect.width then c.breakLine style else c
  c.addElementAt style element false .adding

def addElementNoLineBreak (style : LayoutStyle R) (element : MessageLayoutElement R) (c : MessageLayoutContainer R) :
    MessageLayoutContainer R := c.addElementAt style element false .adding

def dotdotdot (style : LayoutStyle R) : MessageLayoutElement R where
  kind := .text 3
  rect_ := ⟨0, 0, style.dotdotdotWidth, style.textLineHeight⟩
  flags := {.Collapsed}
  isRightToLeft := false
  isNeutral := true
  trailingSpace := true

def shiftForDots (style : LayoutStyle R) (c : MessageLayoutContainer R) : MessageLayoutContainer R :=
  if c.isRTL then
    let start := (c.lines_.getLast?.map fun line => line.startIndex).getD c.elements_.length
    { c with elements_ := c.elements_.take start ++ (c.elements_.drop start).map fun element =>
        element.setPosition ⟨element.getRect.x + style.dotdotdotWidth, element.getRect.y⟩ }
  else c

def collapse (style : LayoutStyle R) (c : MessageLayoutContainer R) : MessageLayoutContainer R :=
  if c.canAddElements then c
  else { (c.shiftForDots style).addElementAt style (dotdotdot style) true .adding with isCollapsed_ := true }

def closeLines (c : MessageLayoutContainer R) : MessageLayoutContainer R :=
  let lines := c.lines_.modify 0 fun line => { line with rect := line.rect.setTop ((-100000 : Int) : R) }
  { c with
    height_ := c.height_ + c.lineHeight_
    lines_ := closeLine c.elements_.length c.charIndex_ (lines.modify (lines.length - 1) fun line =>
      { line with rect := line.rect.setBottom ((100000 : Int) : R) }) }

def finishElements (order : ElementSort R) (c : MessageLayoutContainer R) : MessageLayoutContainer R :=
  let elements := c.elements_.modify (c.elements_.length - 1) fun element => element.setTrailingSpace false
  { c with elements_ := if c.anyReorderingDone_ then order.sort elements else elements }

def endLayout (style : LayoutStyle R) (order : ElementSort R) (c : MessageLayoutContainer R) :
    MessageLayoutContainer R :=
  let c := c.collapse style
  let c := if !c.atStartOfLine then c.breakLine style else c
  c.closeLines.finishElements order

inductive LayoutCall (R : Type) where
  | addElement (element : MessageLayoutElement R)
  | addElementNoLineBreak (element : MessageLayoutElement R)
  | breakLine

def step (style : LayoutStyle R) (c : MessageLayoutContainer R) : LayoutCall R → MessageLayoutContainer R
  | .addElement element => c.addElement style element
  | .addElementNoLineBreak element => c.addElementNoLineBreak style element
  | .breakLine => c.breakLine style

end MessageLayoutContainer

end Chatterino
