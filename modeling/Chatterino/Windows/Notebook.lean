import Chatterino.Lib.Cycles
import Chatterino.Lib.Run

/-! # Notebooks

A notebook has tabs, each with its page, one of which is selected. A filter says which tabs are visible.
Painting, focus and the titles of the tabs are left out.
-/

namespace Chatterino.Notebooks

open Lib

structure Item (Page : Type) where
  page : Page
  selected_ : Bool := false
  deriving DecidableEq

abbrev TabVisibilityFilter (Page : Type) := Item Page → Bool

inductive Fault where
  | divisionByZero
  | outOfRange
  /-- A loop does not end. -/
  | endless
  | assertion

structure Notebook (Page : Type) where
  items_ : List (Item Page) := []
  selectedPage_ : Option Page := none
  tabVisibilityFilter_ : Option (TabVisibilityFilter Page) := none
  lockNotebookLayout_ : Bool := false

def remainder (a b : Int) : Except Fault Int := if b = 0 then .error .divisionByZero else .ok (a.tmod b)

namespace Notebook

variable {Page : Type} [DecidableEq Page] (notebook : Notebook Page)

def count : Int := notebook.items_.length

def itemAt (index : Int) : Except Fault (Item Page) :=
  if index < 0 then .error .outOfRange
  else
    match notebook.items_[index.toNat]? with
    | some item => .ok item
    | none => .error .outOfRange

def indexOf (page : Option Page) : Int :=
  match notebook.items_.findIdx? fun item => some item.page = page with
  | some index => index
  | none => -1

def containsPage (page : Page) : Bool := notebook.items_.any fun item => item.page = page

def visibleIndexFrom (filter : TabVisibilityFilter Page) (page : Page) : List (Item Page) → Int → Except Fault Int
  | [], _ => .ok (-1)
  | item :: items, i =>
    if item.page = page then if filter item then .ok i else .error .assertion
    else visibleIndexFrom filter page items (if filter item then i + 1 else i)

def visibleIndexOf (page : Page) : Except Fault Int :=
  match notebook.tabVisibilityFilter_ with
  | none => .ok (notebook.indexOf page)
  | some filter => visibleIndexFrom filter page notebook.items_ 0

def getVisibleTabCount : Int :=
  match notebook.tabVisibilityFilter_ with
  | none => notebook.count
  | some filter => notebook.items_.countP filter

def setTabVisibilityFilter (filter : Option (TabVisibilityFilter Page)) : Notebook Page :=
  { notebook with tabVisibilityFilter_ := filter.map fun originalFilter tab => tab.selected_ || originalFilter tab }

def setSelected (page : Page) (value : Bool) (items : List (Item Page)) : List (Item Page) :=
  items.modify (items.findIdx fun item => item.page = page) fun item => { item with selected_ := value }

/-- The second half of a selection: the page that was selected is hidden. -/
def replaceSelected (page : Option Page) : Notebook Page :=
  match notebook.selectedPage_ with
  | none => { notebook with selectedPage_ := page }
  | some selected =>
    if notebook.containsPage selected then
      { notebook with items_ := setSelected selected false notebook.items_, selectedPage_ := page }
    else notebook

def select (page : Option Page) : Notebook Page :=
  if page = notebook.selectedPage_ then notebook
  else
    match page with
    | none => notebook.replaceSelected none
    | some page =>
      if notebook.containsPage page then
        replaceSelected { notebook with items_ := setSelected page true notebook.items_ } page
      else notebook

def selectAt (index : Int) : Except Fault (Notebook Page) := do
  let item ← notebook.itemAt index
  .ok (notebook.select item.page)

def selectIndex (index : Int) : Except Fault (Notebook Page) :=
  if index < 0 ∨ notebook.count ≤ index then .ok notebook else notebook.selectAt index

def selectVisibleFrom (filter : TabVisibilityFilter Page) (index : Int) : List (Item Page) → Int → Notebook Page
  | [], _ => notebook
  | item :: items, i =>
    if filter item then
      if i = index then notebook.select item.page else selectVisibleFrom filter index items (i + 1)
    else selectVisibleFrom filter index items i

def selectVisibleIndex (index : Int) : Except Fault (Notebook Page) :=
  match notebook.tabVisibilityFilter_ with
  | none => notebook.selectIndex index
  | some filter => .ok (notebook.selectVisibleFrom filter index notebook.items_ 0)

/-- The loop over the tabs from one after the selected one, until the filter permits one. It does not end if it
goes on for longer than there are tabs. -/
def seekTab (advance : Int → Int) (filter : TabVisibilityFilter Page) (startIndex : Int) :
    Nat → Int → Except Fault (Notebook Page)
  | 0, _ => .error .endless
  | fuel + 1, index =>
    if index = startIndex then .ok notebook
    else do
      let item ← notebook.itemAt index
      if filter item then .ok (notebook.select item.page)
      else seekTab advance filter startIndex fuel (advance index)

def selectNextTab : Except Fault (Notebook Page) :=
  let size := notebook.count
  let startIndex := notebook.indexOf notebook.selectedPage_
  match notebook.tabVisibilityFilter_ with
  | none =>
    if size ≤ 1 then .ok notebook
    else do
      let index ← remainder (startIndex + 1) size
      notebook.selectAt index
  | some filter => do
    let index ← remainder (startIndex + 1) size
    notebook.seekTab (fun index => (index + 1).tmod size) filter startIndex (notebook.items_.length + 1) index

def selectPreviousTab : Except Fault (Notebook Page) :=
  let size := notebook.count
  let startIndex := notebook.indexOf notebook.selectedPage_
  match notebook.tabVisibilityFilter_ with
  | none =>
    if size ≤ 1 then .ok notebook
    else notebook.selectAt (if startIndex - 1 < 0 then startIndex - 1 + size else startIndex - 1)
  | some filter =>
    notebook.seekTab (fun index => if index = 0 then size - 1 else index - 1) filter startIndex
      (notebook.items_.length + 1) (if startIndex = 0 then size - 1 else startIndex - 1)

def selectLastTab : Except Fault (Notebook Page) :=
  match notebook.tabVisibilityFilter_ with
  | none => if notebook.count ≤ 1 then .ok notebook else notebook.selectAt (notebook.count - 1)
  | some filter =>
    match notebook.items_.reverse.find? filter with
    | some item => .ok (notebook.select item.page)
    | none => .ok notebook

def addPageAt (page : Page) (position : Int) (select : Bool) : Except Fault (Notebook Page) :=
  let item : Item Page := { page }
  let added (items : List (Item Page)) : Except Fault (Notebook Page) :=
    let notebook := { notebook with items_ := items }
    .ok (if select || notebook.count == 1 then notebook.select page else notebook)
  if position = -1 then added (notebook.items_ ++ [item])
  else if position < 0 ∨ notebook.count < position then .error .outOfRange
  else added (notebook.items_.insertIdx position.toNat item)

def addPage (page : Page) (select : Bool) : Except Fault (Notebook Page) := notebook.addPageAt page (-1) select

def selectSuccessor (page : Page) : Except Fault (Notebook Page) := do
  let removingIndex := notebook.indexOf page
  let countVisible := notebook.getVisibleTabCount
  let visibleIndex ← notebook.visibleIndexOf page
  if visibleIndex = -1 then .error .assertion
  else if notebook.count = 1 then .ok (notebook.select none)
  else if countVisible = 1 then do
    let nextIndex ← remainder (removingIndex + 1) notebook.count
    notebook.selectAt nextIndex
  else if visibleIndex = countVisible - 1 then notebook.selectPreviousTab
  else notebook.selectNextTab

def removePage (page : Page) : Except Fault (Notebook Page) := do
  let removingIndex := notebook.indexOf page
  if removingIndex = -1 then .error .assertion
  else do
    let notebook ← if notebook.selectedPage_ = page then notebook.selectSuccessor page else .ok notebook
    .ok { notebook with items_ := notebook.items_.eraseIdx removingIndex.toNat }

def rearrangePage (page : Page) (index : Int) : Except Fault (Notebook Page) :=
  if notebook.lockNotebookLayout_ then .ok notebook
  else do
    let item ← notebook.itemAt (notebook.indexOf page)
    if index < 0 ∨ notebook.count ≤ index then .error .outOfRange
    else
      let items := notebook.items_.eraseIdx (notebook.indexOf page).toNat
      .ok { notebook with items_ := items.insertIdx index.toNat item }

inductive Event (Page : Type) where
  | addPage (page : Page) (select : Bool)
  | addPageAt (page : Page) (position : Int) (select : Bool)
  | removePage (page : Page)
  | rearrangePage (page : Page) (index : Int)
  /-- The order that the titles give. -/
  | sortTabsAlphabetically (sorted : List (Item Page))
  | select (page : Option Page)
  | selectIndex (index : Int)
  | selectVisibleIndex (index : Int)
  | selectNextTab
  | selectPreviousTab
  | selectLastTab
  | setTabVisibilityFilter (filter : Option (TabVisibilityFilter Page))
  | setLockNotebookLayout (value : Bool)

def perform : Event Page → Except Fault (Notebook Page)
  | .addPage page select => notebook.addPage page select
  | .addPageAt page position select => notebook.addPageAt page position select
  | .removePage page => notebook.removePage page
  | .rearrangePage page index => notebook.rearrangePage page index
  | .sortTabsAlphabetically sorted => .ok { notebook with items_ := sorted }
  | .select page => .ok (notebook.select page)
  | .selectIndex index => notebook.selectIndex index
  | .selectVisibleIndex index => notebook.selectVisibleIndex index
  | .selectNextTab => notebook.selectNextTab
  | .selectPreviousTab => notebook.selectPreviousTab
  | .selectLastTab => notebook.selectLastTab
  | .setTabVisibilityFilter filter => .ok (notebook.setTabVisibilityFilter filter)
  | .setLockNotebookLayout value => .ok { notebook with lockNotebookLayout_ := value }

def step (state : Except Fault (Notebook Page)) (event : Event Page) : Except Fault (Notebook Page) :=
  state.bind fun notebook => notebook.perform event

def run (events : List (Event Page)) : Except Fault (Notebook Page) := events.foldl step (.ok {})

def pages : List Page := notebook.items_.map Item.page

omit [DecidableEq Page] in
structure Marked : Prop where
  nodup : notebook.pages.Nodup
  selected_mem : ∀ page ∈ notebook.selectedPage_, page ∈ notebook.pages
  marked : ∀ item ∈ notebook.items_, item.selected_ = true ↔ notebook.selectedPage_ = some item.page

omit [DecidableEq Page] in
def marks (pages : List Page) (mark : Page → Bool) : List (Item Page) := pages.map fun page => ⟨page, mark page⟩

def shown (pages : List Page) (selected : Option Page) : List (Item Page) :=
  marks pages fun page => selected = some page

variable {notebook} {pages : List Page} {mark : Page → Bool} {selected : Option Page} {page : Page}
  {items : List (Item Page)}

omit [DecidableEq Page] in
@[simp]
theorem map_page_marks : (marks pages mark).map Item.page = pages := by
  rw [marks, List.map_map]
  exact List.map_id' pages

theorem mem_shown {item : Item Page} :
    item ∈ shown pages selected ↔ item.page ∈ pages ∧ (item.selected_ = true ↔ selected = some item.page) := by
  rw [shown, marks, List.mem_map]
  constructor
  · rintro ⟨page, hPage, rfl⟩
    exact ⟨hPage, decide_eq_true_iff⟩
  · rintro ⟨hPage, hSelected⟩
    refine ⟨item.page, hPage, ?_⟩
    rw [← Bool.eq_iff_iff.mpr (hSelected.trans decide_eq_true_iff.symm)]

theorem Marked.items_eq (h : notebook.Marked) : notebook.items_ = shown notebook.pages notebook.selectedPage_ := by
  rw [shown, marks, Notebook.pages, List.map_map]
  refine (List.map_id _).symm.trans (List.map_congr_left fun item hItem => ?_)
  have hMark : item.selected_ = decide (notebook.selectedPage_ = some item.page) :=
    Bool.eq_iff_iff.mpr ((h.marked item hItem).trans decide_eq_true_iff.symm)
  rw [Function.comp_apply, ← hMark]
  rfl

theorem setSelected_marks (hNodup : pages.Nodup) (value : Bool) :
    setSelected page value (marks pages mark) = marks pages (Function.update mark page value) := by
  induction pages with
  | nil => rfl
  | cons first pages ih =>
    obtain ⟨hNotMem, hNodup⟩ := List.nodup_cons.mp hNodup
    rw [setSelected, marks, List.map_cons, List.findIdx_cons, marks, List.map_cons]
    by_cases hPage : first = page
    · subst hPage
      have hRest : pages.map (fun other => (⟨other, Function.update mark first value other⟩ : Item Page)) =
          pages.map fun other => ⟨other, mark other⟩ := by
        refine List.map_congr_left fun other hOther => ?_
        rw [Function.update_of_ne]
        rintro rfl
        exact hNotMem hOther
      rw [decide_eq_true rfl, hRest, Function.update_self]
      rfl
    · rw [decide_eq_false hPage, Function.update_of_ne hPage]
      exact congrArg (_ :: ·) (ih hNodup)

theorem containsPage_iff : notebook.containsPage page ↔ page ∈ notebook.pages := by
  rw [containsPage, List.any_eq_true, pages, List.mem_map]
  simp only [decide_eq_true_eq]

def withSelected (notebook : Notebook Page) (selected : Option Page) : Notebook Page :=
  { notebook with items_ := shown notebook.pages selected, selectedPage_ := selected }

@[simp]
theorem pages_withSelected : (notebook.withSelected selected).pages = notebook.pages := map_page_marks

theorem Marked.withSelected (h : notebook.Marked) (hSelected : ∀ page ∈ selected, page ∈ notebook.pages) :
    (notebook.withSelected selected).Marked := by
  refine ⟨?_, ?_, fun item hItem => (mem_shown.mp hItem).2⟩
  · rw [pages_withSelected]
    exact h.nodup
  · rw [pages_withSelected]
    exact hSelected

theorem replaceSelected_of_some {old : Page} (hOld : notebook.selectedPage_ = some old)
    (hContains : notebook.containsPage old) : notebook.replaceSelected selected =
      { notebook with items_ := setSelected old false notebook.items_, selectedPage_ := selected } := by
  rw [replaceSelected, hOld]
  exact if_pos hContains

theorem Marked.replaceSelected_eq (h : notebook.Marked)
    (hMark : ∀ page, notebook.selectedPage_ ≠ some page → mark page = decide (selected = some page))
    (hOld : ∀ old, notebook.selectedPage_ = some old → selected ≠ some old) :
    replaceSelected { notebook with items_ := marks notebook.pages mark } selected = notebook.withSelected selected := by
  obtain hNone | ⟨old, hSome⟩ := Option.eq_none_or_eq_some notebook.selectedPage_
  · have hMarks : mark = fun page => decide (selected = some page) := by
      funext page
      refine hMark page ?_
      rw [hNone]
      exact (Option.some_ne_none page).symm
    rw [replaceSelected]
    simp only [hNone, hMarks]
    rfl
  · have hContains : containsPage { notebook with items_ := marks notebook.pages mark } old := by
      rw [containsPage_iff, Notebook.pages, map_page_marks]
      exact h.selected_mem old hSome
    have hMarks : Function.update mark old false = fun page => decide (selected = some page) := by
      funext page
      by_cases hPage : page = old
      · rw [hPage, Function.update_self, decide_eq_false (hOld old hSome)]
      · rw [Function.update_of_ne hPage]
        refine hMark page ?_
        rw [hSome]
        exact fun hEq => hPage (Option.some.inj hEq).symm
    refine (@replaceSelected_of_some _ _ { notebook with items_ := marks notebook.pages mark } selected old
      hSome hContains).trans ?_
    rw [setSelected_marks h.nodup, hMarks]
    rfl

theorem Marked.select_eq (h : notebook.Marked) (hSelected : ∀ page ∈ selected, page ∈ notebook.pages) :
    notebook.select selected = notebook.withSelected selected := by
  rw [select.eq_def]
  by_cases hSame : selected = notebook.selectedPage_
  · rw [if_pos hSame, Notebook.withSelected, hSame, ← h.items_eq]
  · have hOld : ∀ old, notebook.selectedPage_ = some old → selected ≠ some old :=
      fun old hSome hEq => hSame (hEq.trans hSome.symm)
    rw [if_neg hSame]
    cases selected with
    | none =>
      have hSelf : { notebook with items_ := shown notebook.pages notebook.selectedPage_ } = notebook := by
        rw [← h.items_eq]
      dsimp only
      rw [← h.replaceSelected_eq (fun page hNe => decide_eq_false hNe) hOld]
      exact congrArg (fun notebook : Notebook Page => notebook.replaceSelected none) hSelf.symm
    | some page =>
      have hContains : notebook.containsPage page := containsPage_iff.mpr (hSelected page rfl)
      dsimp only
      rw [if_pos hContains, h.items_eq, shown, setSelected_marks h.nodup]
      refine h.replaceSelected_eq (fun other hNe => ?_) hOld
      by_cases hOther : other = page
      · rw [hOther, Function.update_self, decide_eq_true rfl]
      · rw [Function.update_of_ne hOther, decide_eq_false hNe]
        exact (decide_eq_false fun hEq => hOther (Option.some.inj hEq).symm).symm

theorem select_of_not_mem (hPage : page ∉ notebook.pages) :
    notebook.select page = notebook := by
  rw [select.eq_def]
  split_ifs
  · rfl
  · exact if_neg (containsPage_iff.not.mpr hPage)

end Notebook

end Chatterino.Notebooks
