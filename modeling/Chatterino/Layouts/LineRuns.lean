import Chatterino.Layouts.LineTable
import Chatterino.Layouts.PaintedElements

/-! # The numbers of the lines

As long as elements can be added, the elements of a line carry its number, so that sorting them by their
numbers keeps them in their lines.
-/

namespace Chatterino.MessageLayoutContainer

open Lib

variable {R : Type} {c c' : MessageLayoutContainer R}

def Numbered (c : MessageLayoutContainer R) : Prop :=
  ∀ (k : Nat) (line : LineBounds), c.table[k]? = some line →
    (∀ number ∈ c.numbers.take line.startIndex, number < k) ∧ ∀ number ∈ c.numbers.drop line.startIndex, k ≤ number

structure CurrentNumbered (c : MessageLayoutContainer R) : Prop where
  count : c.table.length = c.line_
  before : ∀ number ∈ c.numbers.take c.lineStart_, number < c.line_
  current : ∀ number ∈ c.numbers.drop c.lineStart_, number = c.line_

theorem length_numbers (c : MessageLayoutContainer R) : c.numbers.length = c.elements_.length := List.length_map _

variable [Qreal R] {style : LayoutStyle R}

theorem numbers_breakLine (h : CurrentNumbered c) (style : LayoutStyle R) : (c.breakLine style).numbers = c.numbers := by
  obtain ⟨-, -, -, hElements⟩ := nextLine_same style (c.arranged style).pushLine
  exact (congrArg (List.map _) hElements).trans (numbers_arranged h.current)

theorem Numbered.breakLine (h : Numbered c) (hCurrent : CurrentNumbered c) (style : LayoutStyle R) :
    Numbered (c.breakLine style) := by
  intro k line hLine
  rw [numbers_breakLine hCurrent]
  rw [table_breakLine] at hLine
  rcases Nat.lt_or_ge k c.table.length with hBefore | hLast
  · rw [List.getElem?_append_left hBefore] at hLine
    exact h k line hLine
  · rw [List.getElem?_append_right hLast] at hLine
    have hIndex := (List.getElem?_eq_some_iff.mp hLine).choose
    rw [List.length_singleton] at hIndex
    obtain rfl : k = c.table.length := by omega
    rw [Nat.sub_self] at hLine
    obtain rfl := Option.some.inj hLine
    rw [hCurrent.count]
    exact ⟨hCurrent.before, fun number hNumber => (hCurrent.current number hNumber).ge⟩

theorem CurrentNumbered.breakLine (h : CurrentNumbered c) (style : LayoutStyle R)
    (hCan : (c.breakLine style).canAddMessages_ = true) : CurrentNumbered (c.breakLine style) := by
  have hLine : (c.breakLine style).line_ = c.line_ + 1 := by
    have hArranged := (sameTable_arranged style c).line
    rw [MessageLayoutContainer.breakLine, nextLine] at hCan ⊢
    split_ifs at hCan ⊢
    exact congrArg (· + 1) hArranged
  have hAll : ∀ number ∈ c.numbers, number < c.line_ + 1 := by
    intro number hNumber
    rw [← List.take_append_drop c.lineStart_ c.numbers] at hNumber
    rcases List.mem_append.mp hNumber with hBefore | hCurrent
    · exact Nat.lt_succ_of_lt (h.before number hBefore)
    · exact Nat.lt_succ_of_le (h.current number hCurrent).le
  refine ⟨?_, ?_, ?_⟩
  · rw [table_breakLine, List.length_append, h.count, hLine]
    rfl
  · rw [numbers_breakLine h, lineStart_breakLine, hLine]
    exact fun number hNumber => hAll number (List.mem_of_mem_take hNumber)
  · rw [numbers_breakLine h, lineStart_breakLine, ← length_numbers, List.drop_length]
    exact fun number hNumber => absurd hNumber List.not_mem_nil

theorem numbered_addElementAt (hTabled : Tabled c) (h : Numbered c) (hCurrent : CurrentNumbered c) (style : LayoutStyle R)
    (element : MessageLayoutElement R) (hCan : c.canAddElements = true) :
    Numbered (c.addElementAt style element false .adding) ∧
      CurrentNumbered (c.addElementAt style element false .adding) := by
  obtain ⟨hLines, hStart, hChar, hLine, -, hNumbers⟩ := addElementAt_adding style element (.inl hCan)
  have hTable := table_addElementAt style element false c
  constructor
  · intro k line hAt
    rw [hTable] at hAt
    obtain ⟨hBefore, hFrom⟩ := h k line hAt
    obtain ⟨-, hRange, hEnd⟩ := hTabled.ranges.bounds (List.mem_of_getElem? hAt)
    have hIndex : line.startIndex ≤ c.numbers.length := by
      rw [length_numbers]
      exact (hRange.trans hEnd).trans hTabled.starts
    rw [hNumbers, List.take_append_of_le_length hIndex, List.drop_append_of_le_length hIndex]
    refine ⟨hBefore, List.forall_mem_append.mpr ⟨hFrom, List.forall_mem_singleton.mpr ?_⟩⟩
    rw [← hCurrent.count]
    exact (List.getElem?_eq_some_iff.mp hAt).choose.le
  · have hIndex : c.lineStart_ ≤ c.numbers.length := by
      rw [length_numbers]
      exact hTabled.starts
    refine ⟨?_, ?_, ?_⟩
    · rw [hTable, hLine]
      exact hCurrent.count
    · rw [hNumbers, hStart, hLine, List.take_append_of_le_length hIndex]
      exact hCurrent.before
    · rw [hNumbers, hStart, hLine, List.drop_append_of_le_length hIndex]
      exact List.forall_mem_append.mpr ⟨hCurrent.current, List.forall_mem_singleton.mpr rfl⟩

structure LaidOut (c : MessageLayoutContainer R) : Prop where
  tabled : Tabled c
  numbered : c.canAddMessages_ = true → Numbered c ∧ CurrentNumbered c

theorem laidOut_beginLayout (width scale : R) (flags : MessageFlags) (c : MessageLayoutContainer R) :
    LaidOut (c.beginLayout width scale flags) := by
  refine ⟨tabled_beginLayout width scale flags c, fun _ => ⟨?_, rfl, ?_, ?_⟩⟩
  · intro k line hLine
    cases hLine
  · exact fun number hNumber => absurd hNumber List.not_mem_nil
  · exact fun number hNumber => absurd hNumber List.not_mem_nil

theorem canAdd_of_breakLine (h : (c.breakLine style).canAddMessages_ = true) : c.canAddMessages_ = true := by
  have hArranged := (sameTable_arranged style c).canAdd
  rw [breakLine, nextLine] at h
  split_ifs at h
  exact hArranged.symm.trans h

theorem LaidOut.breakLine (h : LaidOut c) (style : LayoutStyle R) : LaidOut (c.breakLine style) := by
  refine ⟨h.tabled.breakLine style, fun hCan => ?_⟩
  obtain ⟨hNumbered, hCurrent⟩ := h.numbered (canAdd_of_breakLine hCan)
  exact ⟨hNumbered.breakLine hCurrent style, hCurrent.breakLine style hCan⟩

theorem LaidOut.addElementAt (h : LaidOut c) (style : LayoutStyle R) (element : MessageLayoutElement R) :
    LaidOut (c.addElementAt style element false .adding) := by
  cases hCan : c.canAddElements with
  | true =>
    obtain ⟨hNumbered, hCurrent⟩ := h.numbered hCan
    exact ⟨h.tabled.addElementAt style element false, fun _ =>
      numbered_addElementAt h.tabled hNumbered hCurrent style element hCan⟩
  | false =>
    rw [addElementAt_of_not style element (by simp [hCan])]
    exact h

theorem LaidOut.step (h : LaidOut c) (style : LayoutStyle R) (call : LayoutCall R) : LaidOut (c.step style call) := by
  cases call with
  | addElement element =>
    rw [MessageLayoutContainer.step, MessageLayoutContainer.addElement]
    split_ifs
    · exact (h.breakLine style).addElementAt style element
    · exact h.addElementAt style element
  | addElementNoLineBreak element => exact h.addElementAt style element
  | breakLine => exact h.breakLine style

theorem LaidOut.foldl (h : LaidOut c) (style : LayoutStyle R) (calls : List (LayoutCall R)) :
    LaidOut (calls.foldl (MessageLayoutContainer.step style) c) :=
  foldl_invariant calls h fun _ call hNow => hNow.step style call

end Chatterino.MessageLayoutContainer

namespace Chatterino.MessageLayoutContainer

open Lib

variable {R : Type} {c c' : MessageLayoutContainer R}

theorem map_modify_comm {α β : Type} (f : α → β) {g : α → α} {g' : β → β} (h : ∀ x, f (g x) = g' (f x)) (list : List α)
    (i : Nat) : (list.modify i g).map f = (list.map f).modify i g' := by
  induction list generalizing i with
  | nil => rw [List.modify_nil, List.map_nil, List.modify_nil]
  | cons x list ih =>
    cases i with
    | zero => exact congrArg (· :: list.map f) (h x)
    | succ i =>
      rw [List.modify_succ_cons, List.map_cons, List.map_cons, List.modify_succ_cons, ih]

theorem map_modify_same {α β : Type} (f : α → β) {g : α → α} (h : ∀ x, f (g x) = f x) (list : List α) (i : Nat) :
    (list.modify i g).map f = list.map f := by
  have hComm : (list.modify i g).map f = (list.map f).modify i id := map_modify_comm f h list i
  rw [hComm, List.modify_id]

theorem bounds_closeLine (endIndex endCharIndex : Nat) (lines : List (Line R)) :
    (closeLine endIndex endCharIndex lines).map Line.toLineBounds =
      (lines.map Line.toLineBounds).modify (lines.length - 1) fun line =>
        { line with endIndex := endIndex, endCharIndex := endCharIndex } := by
  unfold closeLine
  apply map_modify_comm
  exact fun _ => rfl

variable [Qreal R] {style : LayoutStyle R} {order : ElementSort R}

theorem bounds_closeLines (hEnd : c.lineStart_ = c.elements_.length) :
    c.closeLines.lines_.map Line.toLineBounds = c.table := by
  have hTop : (c.lines_.modify 0 fun line => { line with rect := line.rect.setTop ((-100000 : Int) : R) }).map
      Line.toLineBounds = c.lines_.map Line.toLineBounds := by
    apply map_modify_same
    exact fun _ => rfl
  have hBottom (list : List (Line R)) (i : Nat) :
      (list.modify i fun line => { line with rect := line.rect.setBottom ((100000 : Int) : R) }).map
        Line.toLineBounds = list.map Line.toLineBounds := by
    apply map_modify_same
    exact fun _ => rfl
  rw [closeLines, table, hEnd, bounds_closeLine, bounds_closeLine, hBottom, hTop, List.length_modify, List.length_modify]

def dots (c : MessageLayoutContainer R) : List (LayoutElementKind × Bool) :=
  if c.canAddElements then [] else [(.text 3, true)]

theorem sameTable_shiftForDots (style : LayoutStyle R) (c : MessageLayoutContainer R) :
    SameTable c (c.shiftForDots style) := by
  unfold shiftForDots
  split_ifs
  · refine ⟨rfl, rfl, rfl, rfl, rfl, ?_⟩
    rw [selected, List.map_append, List.map_map]
    exact List.map_append.symm.trans (congrArg (List.map _) (List.take_append_drop _ _))
  · exact .refl c

theorem collapse_spec (style : LayoutStyle R) (c : MessageLayoutContainer R) :
    (c.collapse style).lines_ = c.lines_ ∧ (c.collapse style).lineStart_ = c.lineStart_ ∧
      (c.collapse style).charIndex_ = c.charIndex_ ∧ (c.collapse style).selected = c.selected ++ c.dots := by
  unfold collapse dots
  cases hCan : c.canAddElements with
  | true => exact ⟨rfl, rfl, rfl, (List.append_nil _).symm⟩
  | false =>
    rw [if_neg Bool.false_ne_true, if_neg Bool.false_ne_true]
    have hSame := sameTable_shiftForDots style c
    obtain ⟨hLines, hStart, hChar, -, hSelected, -⟩ :=
      addElementAt_adding (c := c.shiftForDots style) style (dotdotdot style) (.inr rfl)
    exact ⟨hLines.trans hSame.lines, hStart.trans hSame.lineStart, hChar.trans hSame.charIndex,
      hSelected.trans (congrArg (· ++ _) hSame.selected)⟩

def broken (style : LayoutStyle R) (c : MessageLayoutContainer R) : MessageLayoutContainer R :=
  if !(c.collapse style).atStartOfLine then (c.collapse style).breakLine style else c.collapse style

theorem endLayout_eq (style : LayoutStyle R) (order : ElementSort R) (c : MessageLayoutContainer R) :
    c.endLayout style order = (c.broken style).closeLines.finishElements order := rfl

theorem Tabled.collapse (h : Tabled c) (style : LayoutStyle R) : Tabled (c.collapse style) := by
  obtain ⟨hLines, hStart, hChar, hSelected⟩ := collapse_spec style c
  apply h.append hLines hStart hChar
  rw [counts_eq, hSelected, List.map_append, ← counts_eq]

theorem Tabled.broken (h : Tabled c) (style : LayoutStyle R) : Tabled (c.broken style) := by
  unfold MessageLayoutContainer.broken
  split_ifs
  · exact (h.collapse style).breakLine style
  · exact h.collapse style

theorem lineStart_broken (style : LayoutStyle R) (c : MessageLayoutContainer R) :
    (c.broken style).lineStart_ = (c.broken style).elements_.length := by
  unfold broken
  split_ifs with hStart
  · rw [lineStart_breakLine, ← length_counts, ← length_counts, counts_breakLine]
  · simpa [atStartOfLine] using hStart

theorem Tabled.filled_broken_iff (h : Tabled c) (style : LayoutStyle R) : Filled (c.broken style) ↔ Filled c := by
  obtain ⟨hLines, hStart, hChar, -⟩ := collapse_spec style c
  have hTable : (c.collapse style).table = c.table := table_congr hLines hStart hChar
  unfold MessageLayoutContainer.broken
  split_ifs with hBreaks
  · rw [(h.collapse style).filled_breakLine_iff, Filled, hTable]
    exact and_iff_left (by simpa using hBreaks)
  · rw [Filled, hTable]
    rfl

theorem selected_breakLine (style : LayoutStyle R) (c : MessageLayoutContainer R) :
    (c.breakLine style).selected = c.selected := by
  obtain ⟨-, -, -, hElements⟩ := nextLine_same style (c.arranged style).pushLine
  exact (congrArg (List.map _) hElements).trans (sameTable_arranged style c).selected

theorem selected_broken (style : LayoutStyle R) (c : MessageLayoutContainer R) :
    (c.broken style).selected = c.selected ++ c.dots := by
  obtain ⟨-, -, -, hSelected⟩ := collapse_spec style c
  unfold broken
  split_ifs
  · rw [selected_breakLine, hSelected]
  · exact hSelected

theorem LaidOut.numbered_broken (h : LaidOut c) (style : LayoutStyle R) (hCan : c.canAddElements = true) :
    Numbered (c.broken style) := by
  have hCollapse : c.collapse style = c := by rw [collapse, if_pos hCan]
  obtain ⟨hNumbered, hCurrent⟩ := h.numbered hCan
  rw [MessageLayoutContainer.broken, hCollapse]
  split_ifs
  · exact hNumbered.breakLine hCurrent style
  · exact hNumbered

end Chatterino.MessageLayoutContainer
