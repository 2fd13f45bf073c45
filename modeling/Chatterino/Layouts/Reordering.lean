import Chatterino.Layouts.LineTable
import Chatterino.Lib.ReversedRuns

/-! # Lines of both directions

The words of a line are placed again: those of the direction of the message in their order, and each run of
the other direction from its end.
-/

namespace Chatterino

open Lib

namespace MessageLayoutElement

variable {R : Type}

def followsDirection (element : MessageLayoutElement R) : Bool := element.isNeutral || element.getFlags.has .Mention

def Same (element element' : MessageLayoutElement R) : Prop :=
  ∃ point line reversed, element' = { (element.setPosition point).setLine line with reversedNeutral := reversed }

theorem Same.refl (element : MessageLayoutElement R) : element.Same element :=
  ⟨⟨element.rect_.x, element.rect_.y⟩, element.line_, element.reversedNeutral, rfl⟩

theorem Same.trans {a b c : MessageLayoutElement R} (h : a.Same b) (h' : b.Same c) : a.Same c := by
  obtain ⟨_, _, _, rfl⟩ := h
  obtain ⟨point, line, reversed, rfl⟩ := h'
  exact ⟨point, line, reversed, rfl⟩

end MessageLayoutElement

namespace MessageLayoutContainer

variable {R : Type}

def opposites (isRTL : Bool) : Bool → List (MessageLayoutElement R) → List Bool
  | _, [] => []
  | previous, element :: elements =>
    let opposite := if element.followsDirection then previous else element.isRightToLeft != isRTL
    opposite :: opposites isRTL opposite elements

theorem length_opposites (isRTL previous : Bool) (elements : List (MessageLayoutElement R)) :
    (opposites isRTL previous elements).length = elements.length := by
  induction elements generalizing previous with
  | nil => rfl
  | cons element elements ih => rw [opposites, List.length_cons, List.length_cons, ih]

theorem correctSequence_eq {isRTL : Bool} (words : List (Nat × MessageLayoutElement R)) {previous : Bool}
    {waiting : List Nat} (h : previous = false → waiting = []) :
    correctSequence isRTL words previous waiting.reverse =
      (reverseRuns Prod.fst (waiting.map (fun i => (true, i)) ++
        (opposites isRTL previous (words.map Prod.snd)).zip (words.map Prod.fst))).map Prod.snd := by
  induction words generalizing previous waiting with
  | nil =>
    rw [List.map_nil, List.map_nil, opposites, List.zip_nil_left, List.append_nil, reverseRuns_of_marked, ← List.map_reverse,
      List.map_map, correctSequence]
    · exact (List.map_id _).symm
    · intro x hx
      obtain ⟨i, -, rfl⟩ := List.mem_map.mp hx
      rfl
  | cons word words ih =>
    obtain ⟨i, element⟩ := word
    have hOpposite : ((element.isRightToLeft != isRTL && !(element.isNeutral || element.getFlags.has .Mention)) ||
        ((element.isNeutral || element.getFlags.has .Mention) && previous)) =
        if element.followsDirection then previous else element.isRightToLeft != isRTL := by
      rw [MessageLayoutElement.followsDirection]
      cases element.isNeutral || element.getFlags.has .Mention
      · rw [Bool.not_false, Bool.and_true, Bool.false_and, Bool.or_false, if_neg Bool.false_ne_true]
      · rw [Bool.not_true, Bool.and_false, Bool.true_and, Bool.false_or, if_pos rfl]
    rw [correctSequence, hOpposite, List.map_cons, List.map_cons, opposites]
    dsimp only
    generalize (if element.followsDirection then previous else element.isRightToLeft != isRTL) = opposite
    rw [List.zip_cons_cons]
    cases opposite with
    | true =>
      have hRest := @ih true (waiting ++ [i]) (fun hFalse => absurd hFalse (by decide))
      rw [List.reverse_append, List.reverse_singleton, List.singleton_append, List.map_append, List.append_assoc] at hRest
      rw [if_pos rfl, hRest]
      rfl
    | false =>
      have hRest := @ih false [] (fun _ => rfl)
      rw [List.reverse_nil, List.map_nil, List.nil_append] at hRest
      rw [if_neg Bool.false_ne_true, hRest, reverseRuns_append_unmarked, List.map_append, List.map_cons, ← List.map_reverse,
        List.map_map]
      · exact congrArg (· ++ _) (List.map_id _).symm
      · intro x hx
        obtain ⟨i, -, rfl⟩ := List.mem_map.mp hx
        rfl
      · rfl

def indexedWords (startIndex : Nat) (c : MessageLayoutContainer R) : List (Nat × MessageLayoutElement R) :=
  (c.elements_.drop startIndex).mapIdx fun i element => (startIndex + i, element)

theorem map_fst_indexedWords (startIndex : Nat) (c : MessageLayoutContainer R) :
    (c.indexedWords startIndex).map Prod.fst = List.range' startIndex (c.elements_.length - startIndex) := by
  apply List.ext_getElem
  · rw [indexedWords, List.length_map, List.length_mapIdx, List.length_drop, List.length_range']
  · intro i h h'
    simp only [indexedWords, List.getElem_map, List.getElem_mapIdx, List.getElem_range', Nat.one_mul]

theorem map_snd_indexedWords (startIndex : Nat) (c : MessageLayoutContainer R) :
    (c.indexedWords startIndex).map Prod.snd = c.elements_.drop startIndex := by
  apply List.ext_getElem
  · rw [indexedWords, List.length_map, List.length_mapIdx]
  · intro i h h'
    simp only [indexedWords, List.getElem_map, List.getElem_mapIdx]

theorem same_mark (isRTL isLTR : Bool) (elements : List (MessageLayoutElement R)) (isReversing : Bool) :
    List.Forall₂ MessageLayoutElement.Same elements (markReversedNeutral isRTL isLTR isReversing elements) := by
  induction elements generalizing isReversing with
  | nil => exact .nil
  | cons element elements ih =>
    rw [markReversedNeutral]
    refine .cons ?_ (ih _)
    split
    · exact ⟨⟨element.rect_.x, element.rect_.y⟩, element.line_, true, rfl⟩
    · exact .refl element

theorem forall₂_refl (elements : List (MessageLayoutElement R)) :
    List.Forall₂ MessageLayoutElement.Same elements elements :=
  List.forall₂_same.mpr fun element _ => .refl element

theorem forall₂_trans {a b c : List (MessageLayoutElement R)} (h : List.Forall₂ MessageLayoutElement.Same a b)
    (h' : List.Forall₂ MessageLayoutElement.Same b c) : List.Forall₂ MessageLayoutElement.Same a c := by
  induction h generalizing c with
  | nil => exact h'
  | cons hHead _ ih =>
    cases h' with
    | cons hHead' hTail' => exact .cons (hHead.trans hHead') (ih hTail')

theorem forall₂_set {elements : List (MessageLayoutElement R)} {i : Nat} {element element' : MessageLayoutElement R}
    (hAt : elements[i]? = some element) (h : element.Same element') :
    List.Forall₂ MessageLayoutElement.Same elements (elements.set i element') := by
  induction elements generalizing i with
  | nil => exact .nil
  | cons first rest ih =>
    cases i with
    | zero =>
      rw [List.getElem?_cons_zero, Option.some.injEq] at hAt
      rw [hAt]
      exact .cons h (forall₂_refl rest)
    | succ i => exact .cons (.refl first) (ih hAt)

def startIndex (firstTextIndex : Nat) (c : MessageLayoutContainer R) : Nat := max c.lineStart_ firstTextIndex

def visualOrder (firstTextIndex : Nat) (c : MessageLayoutContainer R) : List Nat :=
  correctSequence c.isRTL (c.indexedWords (c.startIndex firstTextIndex)) false []

/-- The indices of the words of the line, marked where they are written against the direction of the message. -/
def markedWords (firstTextIndex : Nat) (c : MessageLayoutContainer R) : List (Bool × Nat) :=
  (opposites c.isRTL false (c.elements_.drop (c.startIndex firstTextIndex))).zip
    (List.range' (c.startIndex firstTextIndex) (c.elements_.length - c.startIndex firstTextIndex))

theorem visualOrder_eq (firstTextIndex : Nat) (c : MessageLayoutContainer R) :
    c.visualOrder firstTextIndex = (reverseRuns Prod.fst (c.markedWords firstTextIndex)).map Prod.snd := by
  have hSequence := @correctSequence_eq R c.isRTL (c.indexedWords (c.startIndex firstTextIndex)) false [] fun _ => rfl
  rw [map_fst_indexedWords, map_snd_indexedWords, List.map_nil, List.nil_append] at hSequence
  exact hSequence

theorem visualOrder_perm (firstTextIndex : Nat) (c : MessageLayoutContainer R) :
    (c.visualOrder firstTextIndex).Perm
      (List.range' (c.startIndex firstTextIndex) (c.elements_.length - c.startIndex firstTextIndex)) := by
  rw [visualOrder_eq]
  refine ((perm_reverseRuns _ _).map Prod.snd).trans (.of_eq (List.map_snd_zip ?_))
  rw [length_opposites, List.length_drop, List.length_range']

variable [Qreal R]

def repositions (style : LayoutStyle R) (order : List Nat) (c : MessageLayoutContainer R) : MessageLayoutContainer R :=
  (List.zip (none :: order.map some) order).foldl (reposition style) c

structure Reorders (style : LayoutStyle R) (firstTextIndex : Nat) (c : MessageLayoutContainer R) : Prop where
  permutes : (c.visualOrder firstTextIndex).Perm
    (List.range' (c.startIndex firstTextIndex) (c.elements_.length - c.startIndex firstTextIndex))
  reverses : c.visualOrder firstTextIndex = (reverseRuns Prod.fst (c.markedWords firstTextIndex)).map Prod.snd
  keepsOrder : (reverseRuns Prod.fst (c.markedWords firstTextIndex)).filter (fun word => !word.1) =
    (c.markedWords firstTextIndex).filter fun word => !word.1
  placed : 1 < (c.visualOrder firstTextIndex).length → c.reorderRTL style firstTextIndex =
    (c.markWords (c.startIndex firstTextIndex)).repositions style (c.visualOrder firstTextIndex)
  keepsElements : List.Forall₂ MessageLayoutElement.Same c.elements_ (c.reorderRTL style firstTextIndex).elements_

theorem same_markWords (startIndex : Nat) (c : MessageLayoutContainer R) :
    List.Forall₂ MessageLayoutElement.Same c.elements_ (c.markWords startIndex).elements_ := by
  have hWords := List.rel_append (forall₂_refl (c.elements_.take startIndex))
    (same_mark c.isRTL c.isLTR (c.elements_.drop startIndex) false)
  dsimp only at hWords
  rwa [List.take_append_drop] at hWords

theorem same_reposition (style : LayoutStyle R) (c : MessageLayoutContainer R) (step : Option Nat × Nat) :
    List.Forall₂ MessageLayoutElement.Same c.elements_ (c.reposition style step).elements_ := by
  unfold reposition
  cases hAt : c.elements_[step.2]? with
  | none => exact forall₂_refl c.elements_
  | some element =>
    dsimp only
    unfold addElementAt
    split_ifs
    · exact forall₂_refl c.elements_
    · exact forall₂_set hAt ⟨_, c.line_, element.reversedNeutral, rfl⟩

theorem same_repositions (style : LayoutStyle R) (steps : List (Option Nat × Nat)) (c : MessageLayoutContainer R) :
    List.Forall₂ MessageLayoutElement.Same c.elements_ (steps.foldl (reposition style) c).elements_ := by
  induction steps generalizing c with
  | nil => exact forall₂_refl c.elements_
  | cons step steps ih => exact forall₂_trans (same_reposition style c step) (ih _)

theorem reorderRTL_cases (style : LayoutStyle R) (firstTextIndex : Nat) (c : MessageLayoutContainer R) :
    (c.elements_.length ≤ c.startIndex firstTextIndex + 1 ∧ c.reorderRTL style firstTextIndex = c) ∨
      c.reorderRTL style firstTextIndex =
        (c.markWords (c.startIndex firstTextIndex)).repositions style (c.visualOrder firstTextIndex) := by
  unfold reorderRTL
  split_ifs with hNothing
  · refine .inl ⟨?_, rfl⟩
    rw [startIndex]
    rcases hNothing with hEmpty | hWords | hLine
    · rw [hEmpty]
      exact Nat.zero_le _
    · omega
    · omega
  · exact .inr rfl

/-- A line is reordered within its words: those of the direction of the message keep their order, and the runs of the
other direction are reversed. -/
theorem reorders (style : LayoutStyle R) (firstTextIndex : Nat) (c : MessageLayoutContainer R) :
    c.Reorders style firstTextIndex where
  permutes := visualOrder_perm firstTextIndex c
  reverses := visualOrder_eq firstTextIndex c
  keepsOrder := filter_reverseRuns _ _
  placed hWords := by
    rw [(visualOrder_perm firstTextIndex c).length_eq, List.length_range'] at hWords
    rcases reorderRTL_cases style firstTextIndex c with ⟨hFew, -⟩ | hPlaced
    · omega
    · exact hPlaced
  keepsElements := by
    rcases reorderRTL_cases style firstTextIndex c with ⟨-, hSame⟩ | hPlaced
    · rw [hSame]
      exact forall₂_refl c.elements_
    · rw [hPlaced]
      exact forall₂_trans (same_markWords _ c) (same_repositions style _ _)

def AgreesWithTexts (isRTL : Bool) (elements : List (MessageLayoutElement R)) (marks : List Bool) : Prop :=
  marks.length = elements.length ∧
    ∀ word ∈ elements.zip marks, word.1.isNeutral = false → word.2 = (word.1.isRightToLeft != isRTL)

def ReversesTexts (firstTextIndex : Nat) (c : MessageLayoutContainer R) : Prop :=
  ∃ marks, AgreesWithTexts c.isRTL (c.elements_.drop (c.startIndex firstTextIndex)) marks ∧
    c.visualOrder firstTextIndex = (reverseRuns Prod.fst (marks.zip (List.range' (c.startIndex firstTextIndex)
      (c.elements_.length - c.startIndex firstTextIndex)))).map Prod.snd

def textElement (flags : MessageElementFlags) (isRightToLeft : Bool) : MessageLayoutElement Rat where
  kind := .text 4
  rect_ := ⟨0, 0, 20, 10⟩
  flags := flags
  isRightToLeft := isRightToLeft
  isNeutral := false
  trailingSpace := true

def mentionLine : MessageLayoutContainer Rat where
  scale_ := 1
  width_ := 1000
  flags_ := {}
  line_ := 0
  height_ := 0
  currentX_ := 80
  currentY_ := 4
  charIndex_ := 0
  lineStart_ := 0
  lineHeight_ := 10
  canAddMessages_ := true
  isCollapsed_ := false
  lineContainsRTL_ := true
  anyReorderingDone_ := false
  textDirection_ := .LTR
  elements_ := [textElement {.Username} false, textElement {.Text} false, textElement {.Text, .Mention} true,
    textElement {.Text} true]
  lines_ := []

theorem not_reversesTexts_mention : ¬ReversesTexts 1 mentionLine := by
  rintro ⟨marks, ⟨hLength, hAgrees⟩, hOrder⟩
  have hMarks : marks = [false, true, true] := by
    obtain ⟨first, second, third, rfl⟩ := List.length_eq_three.mp hLength
    have hFirst : first = false := hAgrees (textElement {.Text} false, first) (by simp [mentionLine, startIndex]) rfl
    have hSecond : second = true :=
      hAgrees (textElement {.Text, .Mention} true, second) (by simp [mentionLine, startIndex]) rfl
    have hThird : third = true := hAgrees (textElement {.Text} true, third) (by simp [mentionLine, startIndex]) rfl
    rw [hFirst, hSecond, hThird]
  rw [hMarks] at hOrder
  exact absurd hOrder (by decide)

end MessageLayoutContainer

end Chatterino
