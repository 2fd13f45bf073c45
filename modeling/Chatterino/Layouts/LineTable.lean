import Chatterino.Layouts.MessageLayoutContainer
import Chatterino.Lib.Consecutive
import Chatterino.Lib.Run

/-! # What placing leaves as it is

Elements are placed, reordered and shifted without a change to the lines so far, to what of the elements
is selected and to the numbers of their lines.
-/

namespace Chatterino.MessageLayoutContainer

variable {R : Type} {c c' : MessageLayoutContainer R}

def selected (c : MessageLayoutContainer R) : List (LayoutElementKind × Bool) :=
  c.elements_.map fun element => (element.kind, element.trailingSpace)

def counts (c : MessageLayoutContainer R) : List Nat := c.elements_.map MessageLayoutElement.getSelectionIndexCount

def numbers (c : MessageLayoutContainer R) : List Nat := c.elements_.map MessageLayoutElement.getLine

theorem counts_eq (c : MessageLayoutContainer R) :
    c.counts = c.selected.map fun element => element.1.getSelectionIndexCount element.2 := by
  rw [selected, List.map_map]
  rfl

/-- All that the line table depends on, but for the numbers of the elements. -/
structure SameTable (c c' : MessageLayoutContainer R) : Prop where
  lines : c'.lines_ = c.lines_
  lineStart : c'.lineStart_ = c.lineStart_
  charIndex : c'.charIndex_ = c.charIndex_
  line : c'.line_ = c.line_
  canAdd : c'.canAddMessages_ = c.canAddMessages_
  selected : c'.selected = c.selected

namespace SameTable

theorem refl (c : MessageLayoutContainer R) : SameTable c c := ⟨rfl, rfl, rfl, rfl, rfl, rfl⟩

theorem trans {c'' : MessageLayoutContainer R} (h : SameTable c c') (h' : SameTable c' c'') : SameTable c c'' :=
  ⟨h'.lines.trans h.lines, h'.lineStart.trans h.lineStart, h'.charIndex.trans h.charIndex, h'.line.trans h.line,
    h'.canAdd.trans h.canAdd, h'.selected.trans h.selected⟩

theorem length_eq (h : SameTable c c') : c'.elements_.length = c.elements_.length := by
  have hLength := congrArg List.length h.selected
  rwa [MessageLayoutContainer.selected, MessageLayoutContainer.selected, List.length_map, List.length_map] at hLength

theorem counts (h : SameTable c c') : c'.counts = c.counts := by
  rw [counts_eq, counts_eq, h.selected]

end SameTable

theorem map_set_eq {α β : Type} {f : α → β} {list : List α} {i : Nat} {x y : α} (hAt : list[i]? = some x)
    (hSame : f y = f x) : (list.set i y).map f = list.map f := by
  obtain ⟨hLength, rfl⟩ := List.getElem?_eq_some_iff.mp hAt
  rw [List.map_set, hSame, ← List.getElem_map f, List.set_getElem_self]
  rwa [List.length_map]

theorem map_markReversedNeutral {β : Type} (f : MessageLayoutElement R → β)
    (hSame : ∀ element : MessageLayoutElement R, f { element with reversedNeutral := true } = f element)
    (isRTL isLTR : Bool) (elements : List (MessageLayoutElement R)) (isReversing : Bool) :
    (markReversedNeutral isRTL isLTR isReversing elements).map f = elements.map f := by
  induction elements generalizing isReversing with
  | nil => rfl
  | cons element elements ih =>
    unfold markReversedNeutral
    dsimp only
    rw [List.map_cons, List.map_cons, ih]
    split_ifs
    · rw [hSame]
    · rfl

theorem mem_of_mem_correctSequence {isRTL : Bool} {words : List (Nat × MessageLayoutElement R)} {isReversing : Bool}
    {swapped : List Nat} {i : Nat} (h : i ∈ correctSequence isRTL words isReversing swapped) :
    i ∈ swapped ∨ i ∈ words.map Prod.fst := by
  induction words generalizing isReversing swapped with
  | nil => exact .inl h
  | cons word words ih =>
    obtain ⟨j, element⟩ := word
    unfold correctSequence at h
    dsimp only at h
    rw [List.map_cons, List.mem_cons]
    split_ifs at h
    · rcases ih h with hSwapped | hWord
      · rcases List.mem_cons.mp hSwapped with rfl | hSwapped
        · exact .inr (.inl rfl)
        · exact .inl hSwapped
      · exact .inr (.inr hWord)
    · rcases List.mem_append.mp h with hSwapped | hRest
      · exact .inl hSwapped
      · rcases List.mem_cons.mp hRest with rfl | hRest
        · exact .inr (.inl rfl)
        · rcases ih hRest with hSwapped | hWord
          · cases hSwapped
          · exact .inr (.inr hWord)

variable [Qreal R] {style : LayoutStyle R} {element : MessageLayoutElement R}

theorem sameTable_reposition (style : LayoutStyle R) (c : MessageLayoutContainer R) (step : Option Nat × Nat) :
    SameTable c (c.reposition style step) := by
  unfold reposition
  cases hAt : c.elements_[step.2]? with
  | none => exact .refl c
  | some element =>
    dsimp only
    unfold addElementAt
    split_ifs
    · exact .refl c
    · exact ⟨rfl, rfl, rfl, rfl, rfl, map_set_eq hAt rfl⟩

theorem numbers_reposition {step : Option Nat × Nat} (h : ∀ number ∈ c.numbers[step.2]?, number = c.line_) :
    (c.reposition style step).numbers = c.numbers := by
  unfold reposition
  cases hAt : c.elements_[step.2]? with
  | none => rfl
  | some element =>
    have hNumber : element.getLine = c.line_ := by
      apply h
      rw [numbers, List.getElem?_map, hAt]
      rfl
    dsimp only
    unfold addElementAt
    split_ifs
    · rfl
    · exact map_set_eq hAt hNumber.symm

theorem sameTable_repositions (style : LayoutStyle R) (steps : List (Option Nat × Nat)) (c : MessageLayoutContainer R) :
    SameTable c (steps.foldl (reposition style) c) := by
  induction steps generalizing c with
  | nil => exact .refl c
  | cons step steps ih => exact (sameTable_reposition style c step).trans (ih _)

theorem numbers_repositions {steps : List (Option Nat × Nat)}
    (h : ∀ step ∈ steps, ∀ number ∈ c.numbers[step.2]?, number = c.line_) :
    (steps.foldl (reposition style) c).numbers = c.numbers := by
  induction steps generalizing c with
  | nil => rfl
  | cons step steps ih =>
    obtain ⟨hStep, hSteps⟩ := List.forall_mem_cons.mp h
    have hNumbers : (c.reposition style step).numbers = c.numbers := numbers_reposition hStep
    rw [List.foldl_cons, ih, hNumbers]
    rw [hNumbers, (sameTable_reposition style c step).line]
    exact hSteps

theorem map_markWords {β : Type} (f : MessageLayoutElement R → β)
    (hSame : ∀ element : MessageLayoutElement R, f { element with reversedNeutral := true } = f element)
    (startIndex : Nat) (c : MessageLayoutContainer R) : (c.markWords startIndex).elements_.map f = c.elements_.map f := by
  rw [markWords, List.map_append, map_markReversedNeutral f hSame, ← List.map_append, List.take_append_drop]

theorem sameTable_reorderRTL (style : LayoutStyle R) (firstTextIndex : Nat) (c : MessageLayoutContainer R) :
    SameTable c (c.reorderRTL style firstTextIndex) := by
  unfold reorderRTL
  split_ifs
  · exact .refl c
  · have hMarked : SameTable c (c.markWords (max c.lineStart_ firstTextIndex)) :=
      ⟨rfl, rfl, rfl, rfl, rfl, map_markWords _ (fun _ => rfl) _ c⟩
    exact hMarked.trans (sameTable_repositions style _ _)

theorem numbers_reorderRTL {firstTextIndex : Nat} (h : ∀ number ∈ c.numbers.drop c.lineStart_, number = c.line_) :
    (c.reorderRTL style firstTextIndex).numbers = c.numbers := by
  unfold reorderRTL
  split_ifs
  · rfl
  · have hMarked : (c.markWords (max c.lineStart_ firstTextIndex)).numbers = c.numbers :=
      map_markWords _ (fun _ => rfl) _ c
    refine (numbers_repositions ?_).trans hMarked
    rintro ⟨previous, i⟩ hStep number hNumber
    have hStart : c.lineStart_ ≤ i := by
      rcases mem_of_mem_correctSequence (List.of_mem_zip hStep).2 with hNil | hWord
      · cases hNil
      · obtain ⟨⟨j, word⟩, hMap, rfl⟩ := List.mem_map.mp hWord
        obtain ⟨k, hLength, hWord⟩ := List.mem_mapIdx.mp hMap
        cases hWord
        exact (Nat.le_max_left _ _).trans (Nat.le_add_right _ _)
    have hDropped : (c.numbers.drop c.lineStart_)[i - c.lineStart_]? = some number := by
      rw [List.getElem?_drop, Nat.add_sub_cancel' hStart, ← hMarked]
      exact hNumber
    exact h number (List.mem_of_getElem? hDropped)

theorem sameTable_reorderLine (style : LayoutStyle R) (c : MessageLayoutContainer R) :
    SameTable c (c.reorderLine style) := by
  unfold reorderLine
  split_ifs
  · cases c.elements_.findIdx? fun element => element.getFlags.has .Username with
    | none => exact ⟨rfl, rfl, rfl, rfl, rfl, rfl⟩
    | some i =>
      have hSame := sameTable_reorderRTL style (i + 1) c
      exact ⟨hSame.lines, hSame.lineStart, hSame.charIndex, hSame.line, hSame.canAdd, hSame.selected⟩
  · exact .refl c

theorem numbers_reorderLine (h : ∀ number ∈ c.numbers.drop c.lineStart_, number = c.line_) :
    (c.reorderLine style).numbers = c.numbers := by
  unfold reorderLine
  split_ifs
  · cases c.elements_.findIdx? fun element => element.getFlags.has .Username with
    | none => rfl
    | some i => exact numbers_reorderRTL h
  · rfl

theorem map_shiftLine {β : Type} (f : MessageLayoutElement R → β)
    (hSame : ∀ (element : MessageLayoutElement R) point, f (element.setPosition point) = f element)
    (c : MessageLayoutContainer R) : c.shiftLine.elements_.map f = c.elements_.map f := by
  unfold shiftLine
  dsimp only
  rw [List.map_append, List.map_map]
  have hShift (xOffset : R) : (f ∘ fun element => c.shiftElement xOffset element) = f := funext fun element => hSame _ _
  rw [hShift, ← List.map_append, List.take_append_drop]

theorem sameTable_shiftLine (c : MessageLayoutContainer R) : SameTable c c.shiftLine :=
  ⟨rfl, rfl, rfl, rfl, rfl, map_shiftLine _ (fun _ _ => rfl) c⟩

def arranged (style : LayoutStyle R) (c : MessageLayoutContainer R) : MessageLayoutContainer R :=
  (c.reorderLine style).shiftLine

theorem sameTable_arranged (style : LayoutStyle R) (c : MessageLayoutContainer R) : SameTable c (c.arranged style) :=
  (sameTable_reorderLine style c).trans (sameTable_shiftLine _)

theorem numbers_arranged (h : ∀ number ∈ c.numbers.drop c.lineStart_, number = c.line_) :
    (c.arranged style).numbers = c.numbers :=
  (map_shiftLine _ (fun _ _ => rfl) _).trans (numbers_reorderLine h)

end Chatterino.MessageLayoutContainer

namespace Chatterino.MessageLayoutContainer

open Lib

variable {R : Type} {c c' : MessageLayoutContainer R}

theorem modify_last {α : Type} (f : α → α) (list : List α) (x : α) :
    (list ++ [x]).modify ((list ++ [x]).length - 1) f = list ++ [f x] := by
  rw [List.length_append, List.length_singleton, Nat.add_sub_cancel]
  induction list with
  | nil => rfl
  | cons y list ih => exact congrArg (y :: ·) ih

theorem closeLine_concat (endIndex endCharIndex : Nat) (lines : List (Line R)) (line : Line R) :
    closeLine endIndex endCharIndex (lines ++ [line]) =
      lines ++ [{ line with endIndex := endIndex, endCharIndex := endCharIndex }] := modify_last _ _ _

def table (c : MessageLayoutContainer R) : List LineBounds :=
  (closeLine c.lineStart_ c.charIndex_ c.lines_).map Line.toLineBounds

def charsBefore (c : MessageLayoutContainer R) (index : Nat) : Nat := (c.counts.take index).sum

structure Tabled (c : MessageLayoutContainer R) : Prop where
  ranges : Consecutive LineBounds.startIndex LineBounds.endIndex 0 c.table c.lineStart_
  starts : c.lineStart_ ≤ c.elements_.length
  chars : ∀ line ∈ c.table,
    line.startCharIndex = c.charsBefore line.startIndex ∧ line.endCharIndex = c.charsBefore line.endIndex
  charIndex : c.charIndex_ = c.charsBefore c.lineStart_

theorem length_counts (c : MessageLayoutContainer R) : c.counts.length = c.elements_.length := List.length_map _

theorem table_congr (hLines : c'.lines_ = c.lines_) (hStart : c'.lineStart_ = c.lineStart_)
    (hChar : c'.charIndex_ = c.charIndex_) : c'.table = c.table := by
  rw [table, hLines, hStart, hChar]
  rfl

theorem Tabled.congr (h : Tabled c) (hLines : c'.lines_ = c.lines_) (hStart : c'.lineStart_ = c.lineStart_)
    (hChar : c'.charIndex_ = c.charIndex_) (hCounts : c'.counts = c.counts) : Tabled c' := by
  have hTable := table_congr hLines hStart hChar
  have hLength : c'.elements_.length = c.elements_.length := by rw [← length_counts, hCounts, length_counts]
  refine ⟨?_, ?_, ?_, ?_⟩
  · rw [hTable, hStart]
    exact h.ranges
  · rw [hStart, hLength]
    exact h.starts
  · simp only [hTable, charsBefore, hCounts]
    exact h.chars
  · rw [hChar, hStart, charsBefore, hCounts]
    exact h.charIndex

theorem Tabled.append (h : Tabled c) (hLines : c'.lines_ = c.lines_) (hStart : c'.lineStart_ = c.lineStart_)
    (hChar : c'.charIndex_ = c.charIndex_) {added : List Nat} (hCounts : c'.counts = c.counts ++ added) :
    Tabled c' := by
  have hTable := table_congr hLines hStart hChar
  have hLength : c.elements_.length ≤ c'.elements_.length := by
    rw [← length_counts, ← length_counts, hCounts, List.length_append]
    exact Nat.le_add_right _ _
  have hBefore (index : Nat) (hIndex : index ≤ c.lineStart_) : c'.charsBefore index = c.charsBefore index := by
    rw [charsBefore, hCounts, List.take_append_of_le_length, charsBefore]
    rw [length_counts]
    exact hIndex.trans h.starts
  refine ⟨?_, ?_, ?_, ?_⟩
  · rw [hTable, hStart]
    exact h.ranges
  · rw [hStart]
    exact h.starts.trans hLength
  · rw [hTable]
    intro line hLine
    obtain ⟨-, hRange, hEnd⟩ := h.ranges.bounds hLine
    rw [hBefore _ (hRange.trans hEnd), hBefore _ hEnd]
    exact h.chars line hLine
  · rw [hChar, hStart, hBefore _ (Nat.le_refl _)]
    exact h.charIndex

theorem table_pushLine {R : Type} [Qreal R] (c : MessageLayoutContainer R) : c.pushLine.table =
    c.table ++ [⟨c.lineStart_, c.elements_.length, c.charIndex_, c.pushLine.charIndex_⟩] := by
  rw [table, pushLine, closeLine_concat, List.map_append, table]
  rfl

variable [Qreal R] {style : LayoutStyle R}

theorem Tabled.charIndex_pushLine (h : Tabled c) :
    c.pushLine.charIndex_ = c.charsBefore c.elements_.length := by
  have hSum := congrArg List.sum (List.take_append_drop c.lineStart_ c.counts)
  rw [List.sum_append] at hSum
  rw [pushLine, h.charIndex, charsBefore, charsBefore, ← length_counts, List.take_length, ← hSum, counts, List.map_drop]

theorem Tabled.pushLine (h : Tabled c) : Tabled c.pushLine := by
  have hChars := h.charIndex_pushLine
  refine ⟨?_, Nat.le_refl _, ?_, hChars⟩
  · rw [table_pushLine]
    exact h.ranges.concat rfl h.starts
  · rw [table_pushLine]
    intro line hLine
    rcases List.mem_append.mp hLine with hBefore | hLast
    · exact h.chars line hBefore
    · obtain rfl := List.mem_singleton.mp hLast
      exact ⟨h.charIndex, hChars⟩

theorem nextLine_same (style : LayoutStyle R) (c : MessageLayoutContainer R) :
    (c.nextLine style).lines_ = c.lines_ ∧ (c.nextLine style).lineStart_ = c.lineStart_ ∧
      (c.nextLine style).charIndex_ = c.charIndex_ ∧ (c.nextLine style).elements_ = c.elements_ := by
  unfold nextLine
  split_ifs <;> exact ⟨rfl, rfl, rfl, rfl⟩

theorem Tabled.arranged (h : Tabled c) (style : LayoutStyle R) : Tabled (c.arranged style) := by
  have hSame := sameTable_arranged style c
  exact h.congr hSame.lines hSame.lineStart hSame.charIndex hSame.counts

theorem Tabled.breakLine (h : Tabled c) (style : LayoutStyle R) : Tabled (c.breakLine style) := by
  obtain ⟨hLines, hStart, hChar, hElements⟩ := nextLine_same style (c.arranged style).pushLine
  exact (h.arranged style).pushLine.congr hLines hStart hChar (congrArg (List.map _) hElements)

theorem counts_breakLine (style : LayoutStyle R) (c : MessageLayoutContainer R) : (c.breakLine style).counts = c.counts := by
  obtain ⟨-, -, -, hElements⟩ := nextLine_same style (c.arranged style).pushLine
  exact (congrArg (List.map _) hElements).trans (sameTable_arranged style c).counts

theorem lineStart_breakLine (style : LayoutStyle R) (c : MessageLayoutContainer R) :
    (c.breakLine style).lineStart_ = c.elements_.length := by
  obtain ⟨-, hStart, -, -⟩ := nextLine_same style (c.arranged style).pushLine
  exact hStart.trans (sameTable_arranged style c).length_eq

theorem table_breakLine (style : LayoutStyle R) (c : MessageLayoutContainer R) : (c.breakLine style).table =
    c.table ++ [⟨c.lineStart_, c.elements_.length, c.charIndex_, (c.breakLine style).charIndex_⟩] := by
  obtain ⟨hLines, hStart, hChar, -⟩ := nextLine_same style (c.arranged style).pushLine
  have hSame := sameTable_arranged style c
  have hBroken : (c.breakLine style).table = (c.arranged style).pushLine.table := table_congr hLines hStart hChar
  have hCharBroken : (c.breakLine style).charIndex_ = (c.arranged style).pushLine.charIndex_ := hChar
  rw [hBroken, table_pushLine, table_congr hSame.lines hSame.lineStart hSame.charIndex, hSame.lineStart,
    hSame.length_eq, hSame.charIndex, hCharBroken]

theorem addElementAt_adding (style : LayoutStyle R) (element : MessageLayoutElement R) {forceAdd : Bool}
    (h : c.canAddElements = true ∨ forceAdd = true) :
    let added := c.addElementAt style element forceAdd .adding
    added.lines_ = c.lines_ ∧ added.lineStart_ = c.lineStart_ ∧ added.charIndex_ = c.charIndex_ ∧
      added.line_ = c.line_ ∧ added.selected = c.selected ++ [(element.kind, element.trailingSpace)] ∧
      added.numbers = c.numbers ++ [c.line_] := by
  have hAdds : ¬(!c.canAddElements && !forceAdd) = true := by
    rcases h with hCan | hForce
    · simp [hCan]
    · simp [hForce]
  rw [addElementAt, if_neg hAdds]
  refine ⟨rfl, rfl, rfl, rfl, ?_, ?_⟩
  · exact List.map_append
  · exact List.map_append

theorem addElementAt_of_not (style : LayoutStyle R) (element : MessageLayoutElement R) {forceAdd : Bool}
    (h : ¬(c.canAddElements = true ∨ forceAdd = true)) : c.addElementAt style element forceAdd .adding = c := by
  obtain ⟨hCan, hForce⟩ := not_or.mp h
  rw [addElementAt, Bool.eq_false_of_not_eq_true hCan, Bool.eq_false_of_not_eq_true hForce]
  rfl

theorem Tabled.addElementAt (h : Tabled c) (style : LayoutStyle R) (element : MessageLayoutElement R) (forceAdd : Bool) :
    Tabled (c.addElementAt style element forceAdd .adding) := by
  by_cases hCan : c.canAddElements = true ∨ forceAdd = true
  · obtain ⟨hLines, hStart, hChar, -, hSelected, -⟩ := addElementAt_adding style element hCan
    apply h.append hLines hStart hChar
    rw [counts_eq, hSelected, List.map_append, ← counts_eq]
  · rw [addElementAt_of_not style element hCan]
    exact h

theorem table_addElementAt (style : LayoutStyle R) (element : MessageLayoutElement R) (forceAdd : Bool)
    (c : MessageLayoutContainer R) : (c.addElementAt style element forceAdd .adding).table = c.table := by
  by_cases hCan : c.canAddElements = true ∨ forceAdd = true
  · obtain ⟨hLines, hStart, hChar, -⟩ := addElementAt_adding style element hCan
    exact table_congr hLines hStart hChar
  · rw [addElementAt_of_not style element hCan]

theorem Tabled.step (h : Tabled c) (style : LayoutStyle R) (call : LayoutCall R) : Tabled (c.step style call) := by
  cases call with
  | addElement element =>
    rw [MessageLayoutContainer.step, MessageLayoutContainer.addElement]
    split_ifs
    · exact (h.breakLine style).addElementAt style element false
    · exact h.addElementAt style element false
  | addElementNoLineBreak element => exact h.addElementAt style element false
  | breakLine => exact h.breakLine style

theorem tabled_beginLayout (width scale : R) (flags : MessageFlags) (c : MessageLayoutContainer R) :
    Tabled (c.beginLayout width scale flags) :=
  ⟨.nil 0, Nat.le_refl 0, fun _ hLine => absurd hLine List.not_mem_nil, rfl⟩

def Filled (c : MessageLayoutContainer R) : Prop := ∀ line ∈ c.table, line.startIndex < line.endIndex

def KeepsLine (style : LayoutStyle R) (c : MessageLayoutContainer R) : LayoutCall R → Prop
  | .addElement element => c.atStartOfLine = true → c.fitsInLine style element.getRect.width = true
  | .addElementNoLineBreak _ => True
  | .breakLine => c.atStartOfLine = false

theorem Tabled.filled_breakLine_iff (h : Tabled c) (style : LayoutStyle R) :
    Filled (c.breakLine style) ↔ Filled c ∧ c.atStartOfLine = false := by
  have hStarts := h.starts
  rw [Filled, table_breakLine, List.forall_mem_append, List.forall_mem_singleton, Filled]
  dsimp only
  refine and_congr_right fun _ => ?_
  rw [atStartOfLine, decide_eq_false_iff_not]
  omega

theorem Tabled.filled_step_iff (h : Tabled c) (style : LayoutStyle R) (call : LayoutCall R) :
    Filled (c.step style call) ↔ Filled c ∧ KeepsLine style c call := by
  cases call with
  | addElement element =>
    rw [MessageLayoutContainer.step, MessageLayoutContainer.addElement, KeepsLine]
    cases hFits : c.fitsInLine style element.getRect.width with
    | true =>
      rw [if_neg (by decide), Filled, table_addElementAt]
      exact ⟨fun hFilled => ⟨hFilled, fun _ => rfl⟩, And.left⟩
    | false =>
      rw [if_pos (by decide), Filled, table_addElementAt, ← Filled, h.filled_breakLine_iff]
      refine and_congr_right fun _ => ?_
      cases c.atStartOfLine <;> decide
  | addElementNoLineBreak element =>
    rw [MessageLayoutContainer.step, addElementNoLineBreak, Filled, table_addElementAt]
    exact ⟨fun hFilled => ⟨hFilled, trivial⟩, And.left⟩
  | breakLine => exact h.filled_breakLine_iff style

theorem Tabled.filled_foldl_iff (h : Tabled c) (style : LayoutStyle R) (calls : List (LayoutCall R)) :
    Filled (calls.foldl (MessageLayoutContainer.step style) c) ↔
      Filled c ∧ AllSteps (MessageLayoutContainer.step style) (KeepsLine style) c calls := by
  induction calls generalizing c with
  | nil => exact (and_true _).to_iff.symm
  | cons call calls ih => rw [List.foldl_cons, ih (h.step style call), h.filled_step_iff, and_assoc, AllSteps]

end Chatterino.MessageLayoutContainer
