import Chatterino.Layouts.LineRuns

/-! # The lines of a finished message

The lines partition the elements exactly if no line was broken at its start, and count their characters
exactly if no space is taken from the last element.
-/

namespace Chatterino.MessageLayoutContainer

open Lib

variable {R : Type} {c : MessageLayoutContainer R}

def trim (selected : List (LayoutElementKind × Bool)) : List (LayoutElementKind × Bool) :=
  selected.modify (selected.length - 1) fun element => (element.1, false)

def countOf (element : LayoutElementKind × Bool) : Nat := element.1.getSelectionIndexCount element.2

def SpaceFree (selected : List (LayoutElementKind × Bool)) : Prop :=
  ∀ last ∈ selected.getLast?, countOf (last.1, false) = countOf last

theorem map_trim {selected : List (LayoutElementKind × Bool)} (h : SpaceFree selected) :
    (trim selected).map countOf = selected.map countOf := by
  rcases List.eq_nil_or_concat selected with rfl | ⟨before, last, rfl⟩
  · rfl
  · have hLast : countOf (last.1, false) = countOf last := h last (by rw [List.concat_eq_append, List.getLast?_concat]; rfl)
    rw [List.concat_eq_append, trim, modify_last, List.map_append, List.map_append, List.map_singleton, hLast]
    rfl

theorem spaceFree_of_sum {selected : List (LayoutElementKind × Bool)}
    (h : ((trim selected).map countOf).sum = (selected.map countOf).sum) : SpaceFree selected := by
  rcases List.eq_nil_or_concat selected with rfl | ⟨before, last, rfl⟩
  · exact fun last hLast => absurd hLast (by rintro ⟨⟩)
  · rw [List.concat_eq_append, trim, modify_last, List.map_append, List.map_append, List.sum_append, List.sum_append] at h
    rw [List.concat_eq_append, SpaceFree, List.getLast?_concat]
    rintro _ ⟨⟩
    simpa using h

theorem counts_eq_map (c : MessageLayoutContainer R) : c.counts = c.selected.map countOf := counts_eq c

def trimmed (c : MessageLayoutContainer R) : List (MessageLayoutElement R) :=
  c.elements_.modify (c.elements_.length - 1) fun element => element.setTrailingSpace false

theorem counts_trimmed (c : MessageLayoutContainer R) :
    c.trimmed.map MessageLayoutElement.getSelectionIndexCount = (trim c.selected).map countOf := by
  have hSelected : c.trimmed.map
      (fun element => (element.kind, element.trailingSpace)) = trim c.selected := by
    rw [trim, selected, List.length_map, trimmed]
    apply map_modify_comm
    exact fun _ => rfl
  rw [← hSelected, List.map_map]
  rfl

theorem numbers_trimmed (c : MessageLayoutContainer R) : c.trimmed.map MessageLayoutElement.getLine = c.numbers := by
  apply map_modify_same
  exact fun _ => rfl

variable [Qreal R] {style : LayoutStyle R} {order : ElementSort R}

def LastCounts (c : MessageLayoutContainer R) : Prop :=
  c.canAddElements = true ∧ ∀ last ∈ c.elements_.getLast?,
    (last.setTrailingSpace false).getSelectionIndexCount = last.getSelectionIndexCount

theorem lastCounts_iff (style : LayoutStyle R) (c : MessageLayoutContainer R) :
    LastCounts c ↔ SpaceFree (c.broken style).selected := by
  rw [selected_broken, dots, LastCounts]
  cases c.canAddElements with
  | true =>
    rw [if_pos rfl, List.append_nil, SpaceFree, selected, List.getLast?_map]
    simp only [true_and, Option.mem_def, Option.map_eq_some_iff, forall_exists_index, and_imp]
    constructor
    · rintro h _ last hLast rfl
      exact h last hLast
    · exact fun h last hLast => h _ last hLast rfl
  | false =>
    rw [if_neg Bool.false_ne_true, SpaceFree, List.getLast?_concat]
    refine iff_of_false (by simp) fun h => ?_
    exact absurd (h (.text 3, true) rfl) (by decide)

theorem perm_endLayout (style : LayoutStyle R) (order : ElementSort R) (c : MessageLayoutContainer R) :
    (c.endLayout style order).elements_.Perm (c.broken style).trimmed := by
  rw [endLayout_eq]
  unfold finishElements
  dsimp only
  split_ifs
  · exact order.perm _
  · exact List.Perm.refl _

theorem bounds_endLayout (style : LayoutStyle R) (order : ElementSort R) (c : MessageLayoutContainer R) :
    (c.endLayout style order).lines_.map Line.toLineBounds = (c.broken style).table :=
  bounds_closeLines (lineStart_broken style c)

theorem length_endLayout (style : LayoutStyle R) (order : ElementSort R) (c : MessageLayoutContainer R) :
    (c.endLayout style order).elements_.length = (c.broken style).elements_.length :=
  (perm_endLayout style order c).length_eq.trans (List.length_modify _ _ _)

theorem perm_counts (style : LayoutStyle R) (order : ElementSort R) (c : MessageLayoutContainer R) :
    (c.endLayout style order).counts.Perm ((trim (c.broken style).selected).map countOf) := by
  rw [← counts_trimmed]
  exact (perm_endLayout style order c).map _

theorem sum_counts (style : LayoutStyle R) (order : ElementSort R) (c : MessageLayoutContainer R) :
    (c.endLayout style order).counts.sum = ((trim (c.broken style).selected).map countOf).sum :=
  (perm_counts style order c).sum_nat

theorem LaidOut.take_perm (h : LaidOut c) (style : LayoutStyle R) (order : ElementSort R) (hCan : c.canAddElements = true)
    {line : LineBounds} (hLine : line ∈ (c.broken style).table) :
    ((c.endLayout style order).elements_.take line.startIndex).Perm ((c.broken style).trimmed.take line.startIndex) := by
  obtain ⟨k, hIndex, hAt⟩ := List.getElem_of_mem hLine
  obtain ⟨hBefore, hFrom⟩ := h.numbered_broken style hCan k line (List.getElem?_eq_some_iff.mpr ⟨hIndex, hAt⟩)
  rw [← numbers_trimmed, ← List.map_take, List.forall_mem_map] at hBefore
  rw [← numbers_trimmed, ← List.map_drop, List.forall_mem_map] at hFrom
  have hTabled := h.tabled.broken style
  obtain ⟨-, hRange, hEnd⟩ := hTabled.ranges.bounds hLine
  rw [endLayout_eq]
  unfold finishElements
  dsimp only
  split_ifs
  · refine take_perm_of_sorted (order.perm _) ?_ ?_ hBefore hFrom
    · refine (order.sorted _).imp ?_
      intro a b hOrder
      split_ifs at hOrder with hSame
      · exact hSame.le
      · exact hOrder.le
    · exact (hRange.trans (hEnd.trans hTabled.starts)).trans (List.length_modify _ _ _).ge
  · exact List.Perm.refl _

theorem LaidOut.charsBefore_start (h : LaidOut c) (style : LayoutStyle R) (order : ElementSort R) (hLast : LastCounts c)
    {line : LineBounds} (hLine : line ∈ (c.broken style).table) :
    (c.endLayout style order).charsBefore line.startIndex = (c.broken style).charsBefore line.startIndex := by
  have hPerm := (h.take_perm style order hLast.1 hLine).map MessageLayoutElement.getSelectionIndexCount
  have hCounts : (c.broken style).trimmed.map MessageLayoutElement.getSelectionIndexCount = (c.broken style).counts := by
    rw [counts_trimmed, map_trim ((lastCounts_iff style c).mp hLast), counts_eq_map]
  rw [List.map_take, List.map_take, hCounts] at hPerm
  exact hPerm.sum_nat

theorem LaidOut.chars_iff (h : LaidOut c) (style : LayoutStyle R) (order : ElementSort R) :
    (∀ line ∈ (c.broken style).table,
      line.startCharIndex = (c.endLayout style order).charsBefore line.startIndex ∧
        line.endCharIndex = (c.endLayout style order).charsBefore line.endIndex) ↔ LastCounts c := by
  have hTabled := h.tabled.broken style
  have hStart := lineStart_broken style c
  have hLength : (c.endLayout style order).counts.length = (c.broken style).lineStart_ := by
    rw [length_counts, length_endLayout, hStart]
  have hAll : (c.broken style).charsBefore (c.broken style).lineStart_ = (c.broken style).counts.sum := by
    rw [charsBefore, hStart, ← length_counts, List.take_length]
  have hAllEnd : (c.endLayout style order).charsBefore (c.broken style).lineStart_ =
      ((trim (c.broken style).selected).map countOf).sum := by
    rw [charsBefore, ← hLength, List.take_length, sum_counts]
  constructor
  · intro hChars
    rw [lastCounts_iff style]
    apply spaceFree_of_sum
    rw [← hAllEnd, ← counts_eq_map, ← hAll]
    rcases Nat.eq_zero_or_pos (c.broken style).lineStart_ with hZero | hPos
    · rw [hZero]
      rfl
    · -- the last line ends behind all elements
      obtain ⟨line, hLine, hEnd⟩ := hTabled.ranges.exists_last hPos
      rw [← hEnd, ← (hChars line hLine).2, ← (hTabled.chars line hLine).2]
  · intro hLast line hLine
    obtain ⟨hStartChar, hEndChar⟩ := hTabled.chars line hLine
    refine ⟨hStartChar.trans (h.charsBefore_start style order hLast hLine).symm, hEndChar.trans ?_⟩
    rcases hTabled.ranges.last_eq hLine with hEnd | ⟨next, hNext, hEnd⟩
    · rw [hEnd, hAll, hAllEnd, map_trim ((lastCounts_iff style c).mp hLast), counts_eq_map]
    · rw [← hEnd, h.charsBefore_start style order hLast hNext]

/-- The lines are ranges of elements that cover all of them, and whatever is painted or hovered, the elements that are
asked for are there. -/
structure Partitions (c : MessageLayoutContainer R) : Prop where
  ranges : Consecutive LineBounds.startIndex LineBounds.endIndex 0 (c.lines_.map Line.toLineBounds) c.elements_.length
  filled : ∀ line ∈ c.lines_, line.startIndex < line.endIndex
  chars : ∀ line ∈ c.lines_,
    line.startCharIndex = c.charsBefore line.startIndex ∧ line.endCharIndex = c.charsBefore line.endIndex
  painted : ∀ measures messageIndex selection yOffset,
    (c.paintSelection measures messageIndex selection yOffset).isSome = true
  hovered : ∀ measures spaceWidth point, (c.getSelectionIndex measures spaceWidth point).isSome = true

theorem forall_lines_iff {p : LineBounds → Prop} :
    (∀ line ∈ (c.endLayout style order).lines_, p line.toLineBounds) ↔ ∀ line ∈ (c.broken style).table, p line := by
  rw [← bounds_endLayout style order, List.forall_mem_map]

theorem LaidOut.partitions_endLayout_iff (h : LaidOut c) (style : LayoutStyle R) (order : ElementSort R) :
    Partitions (c.endLayout style order) ↔ Filled c ∧ LastCounts c := by
  have hRanges : Consecutive LineBounds.startIndex LineBounds.endIndex 0
      ((c.endLayout style order).lines_.map Line.toLineBounds) (c.endLayout style order).elements_.length := by
    rw [bounds_endLayout, length_endLayout, ← lineStart_broken style c]
    exact (h.tabled.broken style).ranges
  constructor
  · intro hPartitions
    exact ⟨(h.tabled.filled_broken_iff style).mp (forall_lines_iff.mp hPartitions.filled),
      (h.chars_iff style order).mp (forall_lines_iff.mp hPartitions.chars)⟩
  · rintro ⟨hFilled, hLast⟩
    have hFull : ∀ line ∈ (c.endLayout style order).lines_, line.startIndex < line.endIndex :=
      forall_lines_iff.mpr ((h.tabled.filled_broken_iff style).mpr hFilled)
    have hHolds : ∀ line ∈ (c.endLayout style order).lines_, Holds (c.endLayout style order) line := fun line hLine =>
      ⟨hFull line hLine, (hRanges.bounds (List.mem_map_of_mem hLine)).2.2⟩
    have hLines : (c.endLayout style order).elements_ ≠ [] → (c.endLayout style order).lines_ ≠ [] := by
      intro hElements hNil
      obtain ⟨line, hLine, -⟩ := hRanges.exists_last (List.length_pos_iff.mpr hElements)
      rw [hNil] at hLine
      cases hLine
    exact ⟨hRanges, hFull, forall_lines_iff.mpr ((h.chars_iff style order).mpr hLast), isSome_paintSelection hHolds,
      isSome_getSelectionIndex hHolds hLines⟩

/-- The lines of a finished message partition its elements exactly if no call broke a line at its start
and no space is taken from the last element. -/
theorem partitions_iff (style : LayoutStyle R) (order : ElementSort R) (width scale : R) (flags : MessageFlags)
    (c : MessageLayoutContainer R) (calls : List (LayoutCall R)) :
    Partitions ((calls.foldl (step style) (c.beginLayout width scale flags)).endLayout style order) ↔
      AllSteps (step style) (KeepsLine style) (c.beginLayout width scale flags) calls ∧
        LastCounts (calls.foldl (step style) (c.beginLayout width scale flags)) := by
  have hBegin := laidOut_beginLayout width scale flags c
  have hEmpty : Filled (c.beginLayout width scale flags) := fun _ hLine => absurd hLine List.not_mem_nil
  rw [(hBegin.foldl style calls).partitions_endLayout_iff, hBegin.tabled.filled_foldl_iff]
  exact and_congr_left' (and_iff_right hEmpty)

def comesFirst (a b : MessageLayoutElement Rat) : Bool :=
  if a.getLine = b.getLine then a.getRect.x ≤ b.getRect.x else a.getLine < b.getLine

theorem comesFirst_iff {a b : MessageLayoutElement Rat} :
    comesFirst a b = true ↔ a.getLine < b.getLine ∨ a.getLine = b.getLine ∧ a.getRect.x ≤ b.getRect.x := by
  rw [comesFirst]
  split_ifs with hLine
  · simp [hLine]
  · simp [hLine]

def numberOrder : ElementSort Rat where
  sort elements := elements.mergeSort comesFirst
  perm elements := List.mergeSort_perm elements comesFirst
  sorted elements := by
    refine (List.pairwise_mergeSort ?_ ?_ elements).imp ?_
    · intro a b c hAB hBC
      rw [comesFirst_iff] at hAB hBC ⊢
      rcases hAB with hAB | ⟨hAB, hABx⟩ <;> rcases hBC with hBC | ⟨hBC, hBCx⟩
      · exact .inl (hAB.trans hBC)
      · exact .inl (hBC ▸ hAB)
      · exact .inl (hAB ▸ hBC)
      · exact .inr ⟨hAB.trans hBC, hABx.trans hBCx⟩
    · intro a b
      rw [Bool.or_eq_true, comesFirst_iff, comesFirst_iff]
      rcases Nat.lt_trichotomy a.getLine b.getLine with hLine | hLine | hLine
      · exact .inl (.inl hLine)
      · exact (le_total a.getRect.x b.getRect.x).imp (fun h => .inr ⟨hLine, h⟩) fun h => .inr ⟨hLine.symm, h⟩
      · exact .inr (.inl hLine)
    · intro a b hFirst
      rcases comesFirst_iff.mp hFirst with hLine | ⟨hLine, hX⟩
      · rw [if_neg hLine.ne]
        exact hLine
      · rw [if_pos hLine]
        exact decide_eq_false (not_lt.mpr hX)

def wideImage : MessageLayoutElement Rat where
  kind := .image
  rect_ := ⟨0, 0, 200, 20⟩
  flags := ∅
  isRightToLeft := false
  isNeutral := true
  trailingSpace := false

/-- An image that is wider than its container is put behind a line without elements. -/
theorem not_partitions_wideImage :
    ¬∀ (style : LayoutStyle Rat) (order : ElementSort Rat) (width scale : Rat) (flags : MessageFlags)
      (c : MessageLayoutContainer Rat) (calls : List (LayoutCall Rat)),
      Partitions ((calls.foldl (step style) (c.beginLayout width scale flags)).endLayout style order) := by
  intro hAll
  have hFilled := (hAll ⟨0, false, 10, 4, 12⟩ numberOrder 100 1 ∅
    ⟨1, 100, ∅, 0, 0, 0, 0, 0, 0, 0, true, false, false, false, .Neutral, [], []⟩ [.addElement wideImage]).filled
  exact absurd hFilled (by decide +kernel)

end Chatterino.MessageLayoutContainer
