import Chatterino.Common.SignalVectorModel
import Chatterino.Qt.QString

/-! # The table of hotkeys

The hotkeys are sorted by category and name. The table shows a header above the hotkeys of each category: it is inserted
before the first hotkey of the category and removed after the last one.
-/

namespace Chatterino.Hotkeys

open Lib QString SignalVectorModel

inductive HotkeyCategory
  | PopupWindow
  | Split
  | SplitInput
  | Window
  deriving DecidableEq

def HotkeyCategory.value : HotkeyCategory → Nat
  | .PopupWindow => 0
  | .Split => 1
  | .SplitInput => 2
  | .Window => 3

def HotkeyCategory.displayName : HotkeyCategory → QString
  | .PopupWindow => lit "Popup Windows"
  | .Split => lit "Split"
  | .SplitInput => lit "Split input box"
  | .Window => lit "Window"

structure Hotkey where
  name : QString
  category : HotkeyCategory
  keySequence : QString
  deriving DecidableEq

def Hotkey.getCategory (hotkey : Hotkey) : QString := hotkey.category.displayName

def hotkeySortCompare_ (a b : Hotkey) : Bool :=
  if a.category = b.category then a.name < b.name else a.category.value < b.category.value

def functions : RowFunctions Hotkey QString QString Unit where
  columnCount_ := 2
  newItem := []
  setData value _ _ := value
  getItemFromRow _ original := original
  getRowFromItem item row := (row.set 0 item.name).set 1 item.keySequence

structure HotkeyModel where
  table : SignalVectorModel Hotkey QString
  categoryCount_ : QString → Nat := fun _ => 0
  asserted : Bool := true

namespace HotkeyModel

variable (self : HotkeyModel)

def items : List Hotkey := self.table.vector_.items_

def rows : List (Row Hotkey QString) := self.table.rows_

def setRows (rows : List (Row Hotkey QString)) : HotkeyModel := { self with table := { self.table with rows_ := rows } }

def check (assertion : Bool) : HotkeyModel := { self with asserted := self.asserted && assertion }

def insertCustomRow (row : List QString) (index : Nat) : HotkeyModel :=
  (self.check (index ≤ self.rows.length)).setRows (self.rows.insertIdx index ⟨row, none, true⟩)

def removeCustomRow (index : Int) : HotkeyModel :=
  (self.check (0 ≤ index ∧ ∃ row ∈ self.rows[index.toNat]?, row.isCustomRow)).setRows (self.rows.eraseIdx index.toNat)

def categoryIndicesFrom (category : QString) : (modelIndex : Nat) → (current : Int) → List (Row Hotkey QString) → Int × Int
  | _, current, [] => (current, -1)
  | modelIndex, current, row :: rows =>
    if row.isCustomRow then
      if current ≠ -1 then (current, modelIndex)
      else categoryIndicesFrom category (modelIndex + 1) (if row.items.headD [] = category then modelIndex else current) rows
    else categoryIndicesFrom category (modelIndex + 1) current rows

def getCurrentAndNextCategoryModelIndex (category : QString) : Int × Int := categoryIndicesFrom category 0 (-1) self.rows

def headerRow (category : QString) : List QString := ((createRow functions).set 0 category).set 1 []

def beforeInsert (item : Hotkey) (proposedIndex : Nat) : Nat × HotkeyModel :=
  let category := item.getCategory
  let count := self.categoryCount_ category
  let self := { self with categoryCount_ := Function.update self.categoryCount_ category (count + 1) }
  if count = 0 then (proposedIndex + 1, self.insertCustomRow (headerRow category) proposedIndex)
  else
    let nextCategoryModelIndex := (self.getCurrentAndNextCategoryModelIndex category).2
    if nextCategoryModelIndex ≠ -1 ∧ (proposedIndex : Int) ≥ nextCategoryModelIndex then (proposedIndex - 1, self)
    else (proposedIndex, self)

def afterRemoved (item : Hotkey) (index : Nat) : HotkeyModel :=
  let count := self.categoryCount_ item.getCategory
  let self := self.check (count ≠ 0)
  if count ≤ 1 then
    removeCustomRow { self with categoryCount_ := Function.update self.categoryCount_ item.getCategory 0 } (index - 1)
  else { self with categoryCount_ := Function.update self.categoryCount_ item.getCategory (count - 1) }

def itemInserted (item : Hotkey) (vectorIndex : Nat) : HotkeyModel :=
  let index := getModelIndexFromVectorIndex vectorIndex self.rows
  let self := self.check (index ≤ self.rows.length)
  let row := functions.getRowFromItem item (createRow functions)
  let (index, self) := self.beforeInsert item index
  self.setRows (self.rows.insertIdx index ⟨row, some item, false⟩)

def itemRemoved (item : Hotkey) (vectorIndex : Nat) : HotkeyModel :=
  let row := getModelIndexFromVectorIndex vectorIndex self.rows
  let self := self.check (row ≤ self.rows.length)
  (self.setRows (self.rows.eraseIdx row)).afterRemoved item row

def setItems (items : List Hotkey) : HotkeyModel :=
  { self with table := { self.table with vector_ := { self.table.vector_ with items_ := items } } }

def insert (item : Hotkey) : HotkeyModel :=
  let index := insertionIndex item (-1) self.table.vector_
  (self.setItems (self.items.insertIdx index item)).itemInserted item index

def removeAt (index : Nat) : HotkeyModel :=
  match self.items[index]? with
  | none => self
  | some item => (self.setItems (self.items.eraseIdx index)).itemRemoved item index

def initialized (vec : SignalVector Hotkey) : HotkeyModel :=
  vec.items_.zipIdx.foldl (fun self args => self.itemInserted args.1 args.2) { table := ⟨vec, []⟩ }

end HotkeyModel

def sortedVector (added : List Hotkey) : SignalVector Hotkey :=
  added.foldl (fun vector item => { vector with
    items_ := vector.items_.insertIdx (insertionIndex item (-1) vector) item }) ⟨[], some hotkeySortCompare_⟩

inductive Event
  | insert (item : Hotkey)
  | removeAt (index : Nat)

def HotkeyModel.step (self : HotkeyModel) : Event → HotkeyModel
  | .insert item => self.insert item
  | .removeAt index => self.removeAt index

def categories : List HotkeyCategory := [.PopupWindow, .Split, .SplitInput, .Window]

def header (category : HotkeyCategory) : Row Hotkey QString := ⟨HotkeyModel.headerRow category.displayName, none, true⟩

def categoryRows (category : HotkeyCategory) (hotkeys : List Hotkey) : List (Row Hotkey QString) :=
  if hotkeys = [] then [] else header category :: hotkeys.map (rowOf functions)

def groupedRows (hotkeys : List Hotkey) : List (Row Hotkey QString) :=
  categories.flatMap fun category => categoryRows category (hotkeys.filter (·.category = category))

structure Grouped (model : HotkeyModel) : Prop where
  rows : model.rows = groupedRows model.items
  asserted : model.asserted = true

def OpensLast (model : HotkeyModel) : Event → Prop
  | .insert item => (∃ other ∈ model.items, other.category = item.category) ∨
      ∀ other ∈ model.items, other.category.value < item.category.value
  | .removeAt _ => True

variable {hotkeys before within after : List Hotkey} {category : HotkeyCategory}

structure Between (category : HotkeyCategory) (before within after : List Hotkey) : Prop where
  before : ∀ hotkey ∈ before, hotkey.category.value < category.value
  within : ∀ hotkey ∈ within, hotkey.category = category
  after : ∀ hotkey ∈ after, category.value < hotkey.category.value

theorem HotkeyCategory.value_injective : Function.Injective HotkeyCategory.value := by
  intro a b h
  cases a <;> cases b <;> first | rfl | cases h

theorem filter_eq_nil_of_ne {hotkeys : List Hotkey} (h : ∀ hotkey ∈ hotkeys, hotkey.category ≠ category) :
    hotkeys.filter (·.category = category) = [] :=
  List.filter_eq_nil_iff.mpr fun hotkey hMem => by simpa using h hotkey hMem

theorem groupedRows_between (h : Between category before within after) :
    groupedRows (before ++ (within ++ after)) = groupedRows before ++ (categoryRows category within ++ groupedRows after) := by
  have hBefore (other : HotkeyCategory) (hValue : ¬other.value < category.value) : before.filter (·.category = other) = [] :=
    filter_eq_nil_of_ne fun hotkey hMem hSame => by
      have := h.before hotkey hMem
      rw [hSame] at this
      omega
  have hAfter (other : HotkeyCategory) (hValue : ¬category.value < other.value) : after.filter (·.category = other) = [] :=
    filter_eq_nil_of_ne fun hotkey hMem hSame => by
      have := h.after hotkey hMem
      rw [hSame] at this
      omega
  have hWithin (other : HotkeyCategory) (hOther : other ≠ category) : within.filter (·.category = other) = [] :=
    filter_eq_nil_of_ne fun hotkey hMem hSame => hOther (hSame.symm.trans (h.within hotkey hMem))
  have hAll : within.filter (·.category = category) = within :=
    List.filter_eq_self.mpr fun hotkey hMem => by simpa using h.within hotkey hMem
  have hNil (other : HotkeyCategory) : categoryRows other [] = [] := if_pos rfl
  simp only [groupedRows, categories, List.flatMap_cons, List.flatMap_nil, List.filter_append]
  cases category <;>
    simp [hBefore, hAfter, hWithin, hAll, hNil, HotkeyCategory.value]

def SortedByCategory (hotkeys : List Hotkey) : Prop := hotkeys.Pairwise fun a b => a.category.value ≤ b.category.value

theorem value_le_of_compare {a b : Hotkey} (h : hotkeySortCompare_ a b = true) : a.category.value ≤ b.category.value := by
  rw [hotkeySortCompare_] at h
  split_ifs at h with hSame
  · rw [hSame]
  · exact (of_decide_eq_true h).le

theorem value_le_of_not_compare {a b : Hotkey} (h : hotkeySortCompare_ a b = false) : b.category.value ≤ a.category.value := by
  rw [hotkeySortCompare_] at h
  split_ifs at h with hSame
  · rw [hSame]
  · exact Nat.le_of_not_lt (of_decide_eq_false h)

theorem exists_between (h : SortedByCategory hotkeys) (category : HotkeyCategory) :
    ∃ before within after, hotkeys = before ++ (within ++ after) ∧ Between category before within after := by
  induction hotkeys with
  | nil => exact ⟨[], [], [], rfl, by simp, by simp, by simp⟩
  | cons hotkey hotkeys ih =>
    obtain ⟨hHead, hTail⟩ := List.pairwise_cons.mp h
    obtain ⟨before, within, after, rfl, hBetween⟩ := ih hTail
    rcases lt_trichotomy hotkey.category.value category.value with hLt | hEq | hGt
    · exact ⟨hotkey :: before, within, after, rfl, List.forall_mem_cons.mpr ⟨hLt, hBetween.before⟩, hBetween.within, hBetween.after⟩
    · have hNone : before = [] := List.eq_nil_iff_forall_not_mem.mpr fun other hMem => by
        have := hBetween.before other hMem
        have := hHead other (List.mem_append_left _ hMem)
        omega
      subst hNone
      exact ⟨[], hotkey :: within, after, rfl, by simp,
        List.forall_mem_cons.mpr ⟨HotkeyCategory.value_injective hEq, hBetween.within⟩, hBetween.after⟩
    · have hNone : before = [] := List.eq_nil_iff_forall_not_mem.mpr fun other hMem => by
        have := hBetween.before other hMem
        have := hHead other (List.mem_append_left _ hMem)
        omega
      have hWithin : within = [] := List.eq_nil_iff_forall_not_mem.mpr fun other hMem => by
        have hOther := hBetween.within other hMem
        have := hHead other (List.mem_append_right _ (List.mem_append_left _ hMem))
        rw [hOther] at this
        omega
      subst hNone hWithin
      exact ⟨[], [], hotkey :: after, rfl, by simp, by simp, List.forall_mem_cons.mpr ⟨hGt, hBetween.after⟩⟩

theorem exists_between_of_le {left right : List Hotkey} (hLeft : SortedByCategory left) (hRight : SortedByCategory right)
    (hLe : ∀ hotkey ∈ left, hotkey.category.value ≤ category.value)
    (hGe : ∀ hotkey ∈ right, category.value ≤ hotkey.category.value) :
    ∃ before first second after, left = before ++ first ∧ right = second ++ after ∧
      Between category before (first ++ second) after := by
  obtain ⟨before, first, rest, rfl, hFirst⟩ := exists_between hLeft category
  obtain ⟨start, second, after, rfl, hSecond⟩ := exists_between hRight category
  have hRest : rest = [] := List.eq_nil_iff_forall_not_mem.mpr fun other hMem => by
    have := hFirst.after other hMem
    have := hLe other (List.mem_append_right _ (List.mem_append_right _ hMem))
    omega
  have hStart : start = [] := List.eq_nil_iff_forall_not_mem.mpr fun other hMem => by
    have := hSecond.before other hMem
    have := hGe other (List.mem_append_left _ hMem)
    omega
  subst hRest hStart
  exact ⟨before, first, second, after, by rw [List.append_nil], rfl, hFirst.before,
    List.forall_mem_append.mpr ⟨hFirst.within, hSecond.within⟩, hSecond.after⟩

theorem categoryRows_of_ne_nil (h : hotkeys ≠ []) :
    categoryRows category hotkeys = header category :: hotkeys.map (rowOf functions) := if_neg h

theorem groupedRows_nil : groupedRows [] = [] := rfl

theorem groupedRows_cons {hotkey : Hotkey} (h : SortedByCategory (hotkey :: hotkeys)) :
    ∃ within after, hotkeys = within ++ after ∧ SortedByCategory after ∧
      groupedRows (hotkey :: hotkeys) =
        header hotkey.category :: rowOf functions hotkey :: (within.map (rowOf functions) ++ groupedRows after) := by
  obtain ⟨hHead, hTail⟩ := List.pairwise_cons.mp h
  obtain ⟨before, first, within, after, hNil, rfl, hBetween⟩ := exists_between_of_le List.Pairwise.nil hTail
    (by simp) hHead
  obtain ⟨rfl, rfl⟩ := List.append_eq_nil_iff.mp hNil.symm
  have hCons : Between hotkey.category [] (hotkey :: within) after :=
    ⟨by simp, List.forall_mem_cons.mpr ⟨rfl, hBetween.within⟩, hBetween.after⟩
  refine ⟨within, after, rfl, (List.pairwise_append.mp hTail).2.1, ?_⟩
  have hRows := groupedRows_between hCons
  rw [List.nil_append, groupedRows_nil, List.nil_append, categoryRows_of_ne_nil (List.cons_ne_nil _ _)] at hRows
  exact hRows

theorem vectorRows_map (hotkeys : List Hotkey) :
    vectorRows (hotkeys.map (rowOf functions)) = hotkeys.map (rowOf functions) := by
  refine List.filter_eq_self.mpr fun row hRow => ?_
  obtain ⟨hotkey, -, rfl⟩ := List.mem_map.mp hRow
  rfl

theorem vectorRows_groupedRows (h : SortedByCategory hotkeys) :
    vectorRows (groupedRows hotkeys) = hotkeys.map (rowOf functions) := by
  induction hLength : hotkeys.length using Nat.strong_induction_on generalizing hotkeys with
  | _ n ih =>
    cases hotkeys with
    | nil => rfl
    | cons hotkey hotkeys =>
      obtain ⟨within, after, rfl, hAfter, hRows⟩ := groupedRows_cons h
      have hRest := ih after.length (by rw [← hLength, List.length_cons, List.length_append]; omega) hAfter rfl
      have hCons (rows : List (Row Hotkey QString)) :
          vectorRows (header hotkey.category :: rowOf functions hotkey :: rows) = rowOf functions hotkey :: vectorRows rows := rfl
      rw [hRows, hCons, vectorRows_append, vectorRows_map, hRest, List.map_cons, List.map_append]

theorem getModelIndexFromVectorIndex_append {above below : List (Row Hotkey QString)}
    (hBelow : ∀ row ∈ below.head?, row.isCustomRow = false) :
    getModelIndexFromVectorIndex (vectorRows above).length (above ++ below) = above.length := by
  have hFrom (modelIndex : Nat) :
      modelIndexFrom modelIndex (modelIndex + (vectorRows above).length) (above ++ below) = modelIndex + above.length := by
    induction above generalizing modelIndex with
    | nil =>
      cases below with
      | nil => rfl
      | cons row below =>
        rw [List.nil_append, modelIndexFrom, hBelow row rfl]
        exact if_pos rfl
    | cons row above ih =>
      rw [List.cons_append, modelIndexFrom, List.length_cons]
      cases hCustom : row.isCustomRow with
      | true =>
        have hRest : vectorRows (row :: above) = vectorRows above := by simp [vectorRows, hCustom]
        rw [if_pos rfl, hRest, if_neg (by omega), Nat.add_right_comm, ih]
        omega
      | false =>
        rw [if_neg Bool.false_ne_true, vectorRows_cons hCustom, List.length_cons, if_neg (by omega),
          ← Nat.add_assoc, Nat.add_right_comm, ih]
        omega
  have hZero := hFrom 0
  rw [Nat.zero_add, Nat.zero_add] at hZero
  exact hZero

theorem getModelIndexFromVectorIndex_le (vectorIndex : Nat) (rows : List (Row Hotkey QString)) :
    getModelIndexFromVectorIndex vectorIndex rows ≤ rows.length := by
  have hFrom (modelIndex : Nat) : modelIndexFrom modelIndex vectorIndex rows ≤ modelIndex + rows.length := by
    induction rows generalizing modelIndex vectorIndex with
    | nil => exact le_rfl
    | cons row rows ih =>
      rw [modelIndexFrom, List.length_cons]
      split_ifs
      · omega
      · have := ih (vectorIndex + 1) (modelIndex + 1)
        omega
      · omega
      · have := ih vectorIndex (modelIndex + 1)
        omega
  have hZero := hFrom 0
  rw [Nat.zero_add] at hZero
  exact hZero

theorem corrected_index {next : Int} {above : Nat} {second after : List Hotkey}
    (hNext : next = if after = [] then (-1 : Int) else ((above + second.length : Nat) : Int)) {index : Nat}
    (hIndex : index = above + if second = [] ∧ after ≠ [] then 1 else 0) :
    (if next ≠ -1 ∧ (index : Int) ≥ next then index - 1 else index) = above := by
  subst hIndex hNext
  by_cases hAfter : after = []
  · simp [hAfter]
  · by_cases hSecond : second = []
    · simp [hAfter, hSecond]
    · have hLength := List.length_pos_of_ne_nil hSecond
      have hNone : ¬ (second = [] ∧ after ≠ []) := fun hBoth => hSecond hBoth.1
      rw [if_neg hNone, Nat.add_zero, if_neg hAfter, if_neg]
      omega

theorem displayName_injective : Function.Injective HotkeyCategory.displayName := by
  intro a b h
  cases a <;> cases b <;> first | rfl | exact absurd h (by decide)

def LacksHeader (category : HotkeyCategory) (rows : List (Row Hotkey QString)) : Prop :=
  ∀ row ∈ rows, row.isCustomRow = true → row.items.headD [] ≠ category.displayName

theorem lacksHeader_groupedRows (h : ∀ hotkey ∈ hotkeys, hotkey.category ≠ category) :
    LacksHeader category (groupedRows hotkeys) := by
  intro row hRow hCustom
  obtain ⟨other, -, hRow⟩ := List.mem_flatMap.mp hRow
  rw [categoryRows] at hRow
  split_ifs at hRow with hNone
  · cases hRow
  · rcases List.mem_cons.mp hRow with rfl | hRow
    · obtain ⟨hotkey, hMem⟩ := List.exists_mem_of_ne_nil _ hNone
      obtain ⟨hMem, hCategory⟩ := List.mem_filter.mp hMem
      intro hName
      apply h hotkey hMem
      rw [of_decide_eq_true hCategory]
      exact displayName_injective hName
    · obtain ⟨hotkey, -, rfl⟩ := List.mem_map.mp hRow
      cases hCustom

theorem categoryIndicesFrom_append {above below : List (Row Hotkey QString)} (hAbove : LacksHeader category above) (modelIndex : Nat) :
    HotkeyModel.categoryIndicesFrom category.displayName modelIndex (-1) (above ++ below) =
      HotkeyModel.categoryIndicesFrom category.displayName (modelIndex + above.length) (-1) below := by
  induction above generalizing modelIndex with
  | nil => rfl
  | cons row above ih =>
    have hRest := ih (fun other hMem => hAbove other (List.mem_cons_of_mem _ hMem)) (modelIndex + 1)
    rw [List.cons_append, HotkeyModel.categoryIndicesFrom, List.length_cons, Nat.add_comm above.length, ← Nat.add_assoc, ← hRest]
    cases hCustom : row.isCustomRow with
    | true => rw [if_pos rfl, if_neg (not_not.mpr rfl), if_neg (hAbove row List.mem_cons_self hCustom)]
    | false => exact if_neg Bool.false_ne_true

theorem categoryIndicesFrom_map (current : Int) (hotkeys : List Hotkey) (category : QString)
    (modelIndex : Nat) (below : List (Row Hotkey QString)) :
    HotkeyModel.categoryIndicesFrom category modelIndex current (hotkeys.map (rowOf functions) ++ below) =
      HotkeyModel.categoryIndicesFrom category (modelIndex + hotkeys.length) current below := by
  induction hotkeys generalizing modelIndex with
  | nil => rfl
  | cons hotkey hotkeys ih =>
    rw [List.map_cons, List.cons_append, HotkeyModel.categoryIndicesFrom, List.length_cons, Nat.add_comm hotkeys.length,
      ← Nat.add_assoc, ← ih]
    exact if_neg Bool.false_ne_true

theorem nextCategory_eq {before within after : List Hotkey} (hAfter : SortedByCategory after)
    (h : Between category before within after) :
    (HotkeyModel.categoryIndicesFrom category.displayName 0 (-1)
      (groupedRows before ++ (header category :: within.map (rowOf functions) ++ groupedRows after))).2 =
      if after = [] then (-1 : Int) else (((groupedRows before).length + 1 + within.length : Nat) : Int) := by
  have hBefore : LacksHeader category (groupedRows before) := lacksHeader_groupedRows fun hotkey hMem hSame =>
    (h.before hotkey hMem).ne (congrArg HotkeyCategory.value hSame)
  have hCurrent : (((groupedRows before).length : Nat) : Int) ≠ -1 := by omega
  rw [categoryIndicesFrom_append hBefore, Nat.zero_add, List.cons_append, HotkeyModel.categoryIndicesFrom]
  have hName : (header category).items.headD [] = category.displayName := rfl
  have hCustom : (header category).isCustomRow = true := rfl
  rw [if_pos hCustom, if_neg (not_not.mpr rfl), if_pos hName, categoryIndicesFrom_map]
  cases after with
  | nil => rfl
  | cons hotkey after =>
    obtain ⟨within, rest, -, -, hRows⟩ := groupedRows_cons hAfter
    have hNext : (header hotkey.category).isCustomRow = true := rfl
    rw [hRows, HotkeyModel.categoryIndicesFrom, if_pos hNext, if_pos hCurrent, if_neg (List.cons_ne_nil _ _)]

namespace HotkeyModel

variable (self : HotkeyModel) (item : Hotkey) (vectorIndex : Nat)

variable {self} in
theorem check_of {assertion : Prop} [Decidable assertion] (h : assertion) : self.check assertion = self := by
  rw [check, decide_eq_true h, Bool.and_true]

theorem itemInserted_of_count_eq_zero (hCount : self.categoryCount_ item.getCategory = 0) {index : Nat}
    (hIndex : getModelIndexFromVectorIndex vectorIndex self.rows = index) :
    (self.itemInserted item vectorIndex).rows =
        (self.rows.insertIdx index (header item.category)).insertIdx (index + 1) (rowOf functions item) ∧
      (self.itemInserted item vectorIndex).asserted = self.asserted := by
  subst hIndex
  have hLe := getModelIndexFromVectorIndex_le vectorIndex self.rows
  rw [itemInserted]
  dsimp only
  rw [check_of hLe, beforeInsert]
  dsimp only
  rw [if_pos hCount]
  refine ⟨rfl, ?_⟩
  change (self.asserted && decide (_ ≤ self.rows.length)) = self.asserted
  rw [decide_eq_true hLe, Bool.and_true]

theorem itemInserted_of_count_ne_zero (hCount : self.categoryCount_ item.getCategory ≠ 0) {index : Nat}
    (hIndex : getModelIndexFromVectorIndex vectorIndex self.rows = index) :
    (self.itemInserted item vectorIndex).rows = self.rows.insertIdx
        (if (self.getCurrentAndNextCategoryModelIndex item.getCategory).2 ≠ -1 ∧
          (index : Int) ≥ (self.getCurrentAndNextCategoryModelIndex item.getCategory).2 then index - 1 else index)
        (rowOf functions item) ∧
      (self.itemInserted item vectorIndex).asserted = self.asserted := by
  subst hIndex
  have hLe := getModelIndexFromVectorIndex_le vectorIndex self.rows
  rw [itemInserted]
  dsimp only
  rw [check_of hLe, beforeInsert]
  dsimp only
  rw [if_neg hCount]
  have hSame (count : QString → Nat) (category : QString) :
      ({ self with categoryCount_ := count } : HotkeyModel).getCurrentAndNextCategoryModelIndex category =
        self.getCurrentAndNextCategoryModelIndex category := rfl
  rw [hSame]
  by_cases hNext : (self.getCurrentAndNextCategoryModelIndex item.getCategory).2 ≠ -1 ∧
      (getModelIndexFromVectorIndex vectorIndex self.rows : Int) ≥
        (self.getCurrentAndNextCategoryModelIndex item.getCategory).2
  · rw [if_pos hNext, if_pos hNext]
    exact ⟨rfl, rfl⟩
  · rw [if_neg hNext, if_neg hNext]
    exact ⟨rfl, rfl⟩

theorem itemInserted_categoryCount : (self.itemInserted item vectorIndex).categoryCount_ =
    Function.update self.categoryCount_ item.getCategory (self.categoryCount_ item.getCategory + 1) := by
  rw [itemInserted]
  dsimp only [check, setRows, beforeInsert]
  split_ifs <;> rfl

theorem itemInserted_vector : (self.itemInserted item vectorIndex).table.vector_ = self.table.vector_ := by
  rw [itemInserted]
  dsimp only [check, setRows, beforeInsert]
  split_ifs <;> rfl

variable {item} in
theorem afterRemoved_of_count_eq_one (hCount : self.categoryCount_ item.getCategory = 1) {index : Nat}
    (hHeader : ∃ row ∈ self.rows[index]?, row.isCustomRow = true) :
    (self.afterRemoved item (index + 1)).rows = self.rows.eraseIdx index ∧
      (self.afterRemoved item (index + 1)).asserted = self.asserted ∧
      (self.afterRemoved item (index + 1)).categoryCount_ = Function.update self.categoryCount_ item.getCategory 0 := by
  have hNonzero : self.categoryCount_ item.getCategory ≠ 0 := by
    rw [hCount]
    exact Nat.one_ne_zero
  have hIndex : ((index + 1 : Nat) : Int) - 1 = index := by omega
  rw [afterRemoved, check_of hNonzero, if_pos hCount.le, hIndex]
  refine ⟨rfl, ?_, rfl⟩
  change (self.asserted && decide _) = self.asserted
  rw [decide_eq_true ⟨Int.natCast_nonneg index, hHeader⟩, Bool.and_true]

variable {item} in
theorem afterRemoved_of_one_lt_count (hCount : 1 < self.categoryCount_ item.getCategory) (index : Nat) :
    (self.afterRemoved item index).rows = self.rows ∧
      (self.afterRemoved item index).asserted = self.asserted ∧
      (self.afterRemoved item index).categoryCount_ =
        Function.update self.categoryCount_ item.getCategory (self.categoryCount_ item.getCategory - 1) := by
  have hNonzero : self.categoryCount_ item.getCategory ≠ 0 := by omega
  rw [afterRemoved, check_of hNonzero, if_neg (not_le.mpr hCount)]
  exact ⟨rfl, rfl, rfl⟩

theorem afterRemoved_vector (index : Nat) : (self.afterRemoved item index).table.vector_ = self.table.vector_ := by
  rw [afterRemoved]
  split_ifs <;> rfl

end HotkeyModel

/-- The table shows hotkeys by their categories, and the categories are counted. -/
structure Shows (model : HotkeyModel) (hotkeys : List Hotkey) : Prop where
  rows : model.rows = groupedRows hotkeys
  asserted : model.asserted = true
  categoryCount : ∀ category : HotkeyCategory,
    model.categoryCount_ category.displayName = hotkeys.countP (·.category = category)

variable {self : HotkeyModel} {item : Hotkey} {left right : List Hotkey}

theorem Shows.count_ne_zero_iff (h : Shows self hotkeys) :
    self.categoryCount_ item.getCategory ≠ 0 ↔ ∃ other ∈ hotkeys, other.category = item.category := by
  rw [Hotkey.getCategory, h.categoryCount, ← Nat.pos_iff_ne_zero, List.countP_pos_iff]
  simp only [decide_eq_true_eq]

structure Place (item : Hotkey) (left right before first second after : List Hotkey) : Prop where
  left : left = before ++ first
  right : right = second ++ after
  between : Between item.category before (first ++ second) after
  sortedBefore : SortedByCategory before
  sortedAfter : SortedByCategory after

theorem exists_place (hSorted : SortedByCategory (left ++ right))
    (hLeft : ∀ other ∈ left, other.category.value ≤ item.category.value)
    (hRight : ∀ other ∈ right, item.category.value ≤ other.category.value) :
    ∃ before first second after, Place item left right before first second after := by
  obtain ⟨hSortedLeft, hSortedRight, -⟩ := List.pairwise_append.mp hSorted
  obtain ⟨before, first, second, after, rfl, rfl, hBetween⟩ := exists_between_of_le hSortedLeft hSortedRight hLeft hRight
  exact ⟨before, first, second, after, rfl, rfl, hBetween, (List.pairwise_append.mp hSortedLeft).1,
    (List.pairwise_append.mp hSortedRight).2.1⟩

namespace Place

variable {first second : List Hotkey}

theorem groupedRows_eq (h : Place item left right before first second after) :
    groupedRows (left ++ right) = groupedRows before ++ (categoryRows item.category (first ++ second) ++ groupedRows after) := by
  rw [← groupedRows_between h.between, h.left, h.right]
  simp only [List.append_assoc]

theorem groupedRows_inserted (h : Place item left right before first second after) :
    groupedRows (left ++ item :: right) = groupedRows before ++
      (header item.category :: (first.map (rowOf functions) ++ rowOf functions item :: second.map (rowOf functions)) ++
        groupedRows after) := by
  have hBetween : Between item.category before (first ++ item :: second) after := by
    refine ⟨h.between.before, fun hotkey hMem => ?_, h.between.after⟩
    rcases List.mem_append.mp hMem with hFirst | hSecond
    · exact h.between.within hotkey (List.mem_append_left _ hFirst)
    · rcases List.mem_cons.mp hSecond with rfl | hSecond
      · rfl
      · exact h.between.within hotkey (List.mem_append_right _ hSecond)
  have hRows := groupedRows_between hBetween
  rw [categoryRows_of_ne_nil (by simp), List.map_append, List.map_cons] at hRows
  rw [← hRows, h.left, h.right]
  simp only [List.append_assoc, List.cons_append]

end Place

theorem getModelIndex_above {above : List (Row Hotkey QString)} {index : Nat} (hAbove : (vectorRows above).length = index)
    {second : List Hotkey} (hAfter : SortedByCategory after) :
    getModelIndexFromVectorIndex index (above ++ (second.map (rowOf functions) ++ groupedRows after)) =
      above.length + if second = [] ∧ after ≠ [] then 1 else 0 := by
  subst hAbove
  cases second with
  | cons hotkey second =>
    rw [if_neg fun hNone => List.cons_ne_nil _ _ hNone.1]
    apply getModelIndexFromVectorIndex_append
    rintro _ ⟨⟩
    rfl
  | nil =>
    cases after with
    | nil =>
      rw [if_neg fun hNone => hNone.2 rfl]
      apply getModelIndexFromVectorIndex_append
      rintro _ ⟨⟩
    | cons hotkey after =>
      obtain ⟨within, rest, -, -, hRows⟩ := groupedRows_cons hAfter
      have hHeader : vectorRows (above ++ [header hotkey.category]) = vectorRows above := by
        rw [vectorRows_append]
        exact List.append_nil _
      rw [if_pos ⟨rfl, List.cons_ne_nil _ _⟩, List.map_nil, List.nil_append, hRows, List.append_cons, ← hHeader,
        getModelIndexFromVectorIndex_append, List.length_append]
      · rfl
      · rintro _ ⟨⟩
        rfl

namespace Place

variable {first second : List Hotkey}

theorem vectorRows_above (h : Place item left right before first second after) :
    (vectorRows (groupedRows before ++ header item.category :: first.map (rowOf functions))).length = left.length := by
  have hFirst : vectorRows (header item.category :: first.map (rowOf functions)) = first.map (rowOf functions) :=
    vectorRows_map first
  rw [vectorRows_append, hFirst, vectorRows_groupedRows h.sortedBefore, ← List.map_append, List.length_map, h.left]

theorem groupedRows_of_ne_nil (h : Place item left right before first second after) (hWithin : first ++ second ≠ []) :
    groupedRows (left ++ right) = groupedRows before ++ header item.category :: first.map (rowOf functions) ++
      (second.map (rowOf functions) ++ groupedRows after) := by
  rw [h.groupedRows_eq, categoryRows_of_ne_nil hWithin, List.map_append]
  simp only [List.append_assoc, List.cons_append]

theorem exists_category_iff (h : Place item left right before first second after) :
    (∃ other ∈ left ++ right, other.category = item.category) ↔ first ++ second ≠ [] := by
  constructor
  · rintro ⟨other, hMem, hCategory⟩ hNone
    have hOther : other ∈ before ++ ((first ++ second) ++ after) := by
      rw [h.left, h.right] at hMem
      simpa only [List.append_assoc] using hMem
    rw [hNone, List.nil_append] at hOther
    rcases List.mem_append.mp hOther with hBefore | hAfter
    · exact (h.between.before other hBefore).ne (congrArg HotkeyCategory.value hCategory)
    · exact (h.between.after other hAfter).ne (congrArg HotkeyCategory.value hCategory.symm)
  · intro hWithin
    obtain ⟨other, hMem⟩ := List.exists_mem_of_ne_nil _ hWithin
    refine ⟨other, ?_, h.between.within other hMem⟩
    rw [h.left, h.right]
    rcases List.mem_append.mp hMem with hFirst | hSecond
    · exact List.mem_append_left _ (List.mem_append_right _ hFirst)
    · exact List.mem_append_right _ (List.mem_append_left _ hSecond)

end Place

theorem countP_inserted (left right : List Hotkey) (item : Hotkey) (category : HotkeyCategory) :
    (left ++ item :: right).countP (·.category = category) =
      (left ++ right).countP (·.category = category) + if item.category = category then 1 else 0 := by
  rw [List.countP_append, List.countP_append, List.countP_cons, Nat.add_assoc]
  simp only [decide_eq_true_eq]

theorem Place.countP_eq {first second : List Hotkey} (h : Place item left right before first second after) :
    (left ++ right).countP (·.category = item.category) = (first ++ second).length := by
  have hBefore : before.countP (·.category = item.category) = 0 :=
    List.countP_eq_zero.mpr fun hotkey hMem hSame =>
      (h.between.before hotkey hMem).ne (congrArg HotkeyCategory.value (of_decide_eq_true hSame))
  have hAfter : after.countP (·.category = item.category) = 0 :=
    List.countP_eq_zero.mpr fun hotkey hMem hSame =>
      (h.between.after hotkey hMem).ne (congrArg HotkeyCategory.value (of_decide_eq_true hSame).symm)
  have hWithin : (first ++ second).countP (·.category = item.category) = (first ++ second).length :=
    List.countP_eq_length.mpr fun hotkey hMem => decide_eq_true (h.between.within hotkey hMem)
  rw [← hWithin, h.left, h.right]
  simp only [List.countP_append, hBefore, hAfter]
  omega

theorem Shows.categoryCount_inserted (h : Shows self (left ++ right)) (category : HotkeyCategory) (vectorIndex : Nat) :
    (self.itemInserted item vectorIndex).categoryCount_ category.displayName =
      (left ++ item :: right).countP (·.category = category) := by
  rw [self.itemInserted_categoryCount, countP_inserted, ← h.categoryCount]
  by_cases hSame : item.category = category
  · rw [if_pos hSame, ← hSame, Hotkey.getCategory, Function.update_self]
  · rw [if_neg hSame, Hotkey.getCategory, Function.update_of_ne fun hName => hSame (displayName_injective hName).symm]
    rfl

theorem Shows.itemInserted_of_category (h : Shows self (left ++ right)) {first second : List Hotkey}
    (hPlace : Place item left right before first second after) (hWithin : first ++ second ≠ []) :
    Shows (self.itemInserted item left.length) (left ++ item :: right) := by
  have hCount := (h.count_ne_zero_iff).mpr (hPlace.exists_category_iff.mpr hWithin)
  have hRows : self.rows = _ := h.rows.trans (hPlace.groupedRows_of_ne_nil hWithin)
  have hIndex := @getModelIndex_above after _ _ hPlace.vectorRows_above second hPlace.sortedAfter
  rw [← hRows] at hIndex
  have hNext : (self.getCurrentAndNextCategoryModelIndex item.getCategory).2 =
      if after = [] then (-1 : Int) else (((groupedRows before).length + 1 + (first ++ second).length : Nat) : Int) := by
    have hEq := nextCategory_eq hPlace.sortedAfter hPlace.between
    rw [List.map_append] at hEq
    rw [← hEq, HotkeyModel.getCurrentAndNextCategoryModelIndex, hRows]
    simp only [List.append_assoc, List.cons_append]
    rfl
  obtain ⟨hInserted, hAsserted⟩ := self.itemInserted_of_count_ne_zero item left.length hCount hIndex
  refine ⟨?_, hAsserted.trans h.asserted, fun category => h.categoryCount_inserted category left.length⟩
  rw [List.length_append, ← Nat.add_assoc] at hNext
  have hAbove : (groupedRows before ++ header item.category :: first.map (rowOf functions)).length =
      (groupedRows before).length + 1 + first.length := by
    rw [List.length_append, List.length_cons, List.length_map]
    omega
  rw [← hAbove] at hNext
  rw [hInserted, corrected_index hNext rfl, hRows, CircularBuffer.insertIdx_length_append, hPlace.groupedRows_inserted]
  simp only [List.append_assoc, List.cons_append]

theorem Place.rows_eq_of_nil (h : Place item left right before [] [] after) :
    left = before ∧ right = after ∧ groupedRows (left ++ right) = groupedRows before ++ ([] ++ groupedRows after) :=
  ⟨h.left.trans (List.append_nil _), h.right, h.groupedRows_eq⟩

theorem Shows.itemInserted_rows_of_nil (h : Shows self (left ++ right)) (hPlace : Place item left right before [] [] after) :
    (self.itemInserted item left.length).rows =
        (self.rows.insertIdx ((groupedRows before).length + if after ≠ [] then 1 else 0) (header item.category)).insertIdx
          ((groupedRows before).length + (if after ≠ [] then 1 else 0) + 1) (rowOf functions item) ∧
      (self.itemInserted item left.length).asserted = self.asserted := by
  obtain ⟨rfl, -, hGrouped⟩ := hPlace.rows_eq_of_nil
  have hNone : self.categoryCount_ item.getCategory = 0 := by
    by_contra hCount
    exact hPlace.exists_category_iff.mp (h.count_ne_zero_iff.mp hCount) rfl
  have hAbove : (vectorRows (groupedRows left)).length = left.length := by
    rw [vectorRows_groupedRows hPlace.sortedBefore, List.length_map]
  have hIndex := @getModelIndex_above after _ _ hAbove [] hPlace.sortedAfter
  rw [List.map_nil, ← hGrouped, ← h.rows] at hIndex
  simp only [true_and] at hIndex
  exact self.itemInserted_of_count_eq_zero item left.length hNone hIndex

theorem Shows.itemInserted_of_last (h : Shows self (left ++ right)) (hPlace : Place item left right before [] [] []) :
    Shows (self.itemInserted item left.length) (left ++ item :: right) := by
  obtain ⟨hRows, hAsserted⟩ := h.itemInserted_rows_of_nil hPlace
  refine ⟨?_, hAsserted.trans h.asserted, fun category => h.categoryCount_inserted category left.length⟩
  have hOld : self.rows = groupedRows before ++ [] := by
    rw [h.rows, hPlace.rows_eq_of_nil.2.2]
    rfl
  have hNone : ¬ ([] : List Hotkey) ≠ [] := fun hNe => hNe rfl
  rw [hRows, hOld, if_neg hNone, Nat.add_zero, CircularBuffer.insertIdx_length_append, hPlace.groupedRows_inserted]
  have hLength : (groupedRows before).length + 1 = (groupedRows before ++ [header item.category]).length := by
    rw [List.length_append]
    rfl
  rw [List.append_cons, hLength, CircularBuffer.insertIdx_length_append]
  simp only [List.map_nil, List.nil_append, List.append_assoc, List.cons_append, groupedRows_nil]

theorem Shows.itemInserted_rows_ne (h : Shows self (left ++ right)) (hPlace : Place item left right before [] [] after)
    (hAfter : after ≠ []) : (self.itemInserted item left.length).rows ≠ groupedRows (left ++ item :: right) := by
  obtain ⟨hotkey, rest, rfl⟩ := List.exists_cons_of_ne_nil hAfter
  obtain ⟨within, others, -, -, hHeader⟩ := groupedRows_cons hPlace.sortedAfter
  intro hSame
  rw [(h.itemInserted_rows_of_nil hPlace).1, h.rows, hPlace.rows_eq_of_nil.2.2, if_pos hAfter, hHeader,
    hPlace.groupedRows_inserted] at hSame
  have hAt := congrArg (fun rows => rows[(groupedRows before).length]?) hSame
  rw [List.getElem?_insertIdx_of_lt (by omega), List.getElem?_insertIdx_of_lt (by omega), List.nil_append,
    List.getElem?_append_right le_rfl, List.getElem?_append_right le_rfl, Nat.sub_self, List.getElem?_cons_zero,
    List.cons_append, List.getElem?_cons_zero, Option.some_inj] at hAt
  have hName := congrArg (fun row => row.items.headD []) hAt
  exact (hPlace.between.after hotkey List.mem_cons_self).ne'
    (congrArg HotkeyCategory.value (displayName_injective hName))

theorem Shows.itemRemoved (h : Shows self (left ++ item :: right)) (hSorted : SortedByCategory (left ++ item :: right)) :
    Shows (self.itemRemoved item left.length) (left ++ right) := by
  obtain ⟨hLeft, hCons, hLe⟩ := List.pairwise_append.mp hSorted
  obtain ⟨hGe, hRight⟩ := List.pairwise_cons.mp hCons
  obtain ⟨before, first, second, after, hPlace⟩ := exists_place
    (List.pairwise_append.mpr ⟨hLeft, hRight, fun a ha b hb => hLe a ha b (List.mem_cons_of_mem _ hb)⟩)
    (fun other hMem => hLe other hMem item List.mem_cons_self) hGe
  have hRows : self.rows = (groupedRows before ++ header item.category :: first.map (rowOf functions)) ++
      rowOf functions item :: (second.map (rowOf functions) ++ groupedRows after) := by
    rw [h.rows, hPlace.groupedRows_inserted]
    simp only [List.append_assoc, List.cons_append]
  have hIndex : getModelIndexFromVectorIndex left.length self.rows =
      (groupedRows before ++ header item.category :: first.map (rowOf functions)).length := by
    rw [hRows, ← hPlace.vectorRows_above]
    apply getModelIndexFromVectorIndex_append
    rintro _ ⟨⟩
    rfl
  have hErased : self.rows.eraseIdx (getModelIndexFromVectorIndex left.length self.rows) =
      (groupedRows before ++ header item.category :: first.map (rowOf functions)) ++
        (second.map (rowOf functions) ++ groupedRows after) := by
    rw [hIndex, hRows, List.eraseIdx_append_of_length_le le_rfl, Nat.sub_self, List.eraseIdx_cons_zero]
  have hItem : self.categoryCount_ item.getCategory = (first ++ second).length + 1 := by
    rw [Hotkey.getCategory, h.categoryCount, countP_inserted, if_pos rfl, hPlace.countP_eq]
  have hCounts (count : QString → Nat)
      (hUpdate : count = Function.update self.categoryCount_ item.getCategory (self.categoryCount_ item.getCategory - 1))
      (category : HotkeyCategory) : count category.displayName = (left ++ right).countP (·.category = category) := by
    have hBefore := h.categoryCount category
    rw [countP_inserted] at hBefore
    rw [hUpdate, Hotkey.getCategory]
    by_cases hSame : item.category = category
    · rw [if_pos hSame] at hBefore
      rw [hSame, Function.update_self, hBefore, Nat.add_sub_cancel]
    · rw [if_neg hSame] at hBefore
      rw [Function.update_of_ne fun hName => hSame (displayName_injective hName).symm]
      exact hBefore
  rw [HotkeyModel.itemRemoved]
  rw [HotkeyModel.check_of (getModelIndexFromVectorIndex_le _ _), hErased, hIndex]
  by_cases hWithin : first ++ second = []
  · obtain ⟨rfl, rfl⟩ := List.append_eq_nil_iff.mp hWithin
    have hAbove : (groupedRows before ++ header item.category :: ([] : List Hotkey).map (rowOf functions)).length =
        (groupedRows before).length + 1 := List.length_append
    have hOne : self.categoryCount_ item.getCategory = 1 := hItem
    obtain ⟨hErasedRows, hAsserted, hCategoryCount⟩ := @HotkeyModel.afterRemoved_of_count_eq_one
      (self.setRows (groupedRows before ++ [header item.category] ++ groupedRows after)) item hOne
      (groupedRows before).length ⟨header item.category, by
        change (groupedRows before ++ [header item.category] ++ groupedRows after)[(groupedRows before).length]? = _
        rw [List.append_assoc, List.getElem?_append_right le_rfl, Nat.sub_self]
        rfl, rfl⟩
    rw [hAbove]
    refine ⟨hErasedRows.trans ?_, hAsserted.trans h.asserted, hCounts _ (hCategoryCount.trans ?_)⟩
    · change (groupedRows before ++ [header item.category] ++ groupedRows after).eraseIdx (groupedRows before).length = _
      rw [List.append_assoc, List.eraseIdx_append_of_length_le le_rfl, Nat.sub_self, hPlace.groupedRows_eq]
      rfl
    · rw [hOne]
      rfl
  · have hLt : 1 < self.categoryCount_ item.getCategory := by
      have := List.length_pos_of_ne_nil hWithin
      omega
    obtain ⟨hKept, hAsserted, hCategoryCount⟩ := @HotkeyModel.afterRemoved_of_one_lt_count
      (self.setRows (groupedRows before ++ header item.category :: first.map (rowOf functions) ++
        (second.map (rowOf functions) ++ groupedRows after))) item hLt
      (groupedRows before ++ header item.category :: first.map (rowOf functions)).length
    exact ⟨hKept.trans (hPlace.groupedRows_of_ne_nil hWithin).symm, hAsserted.trans h.asserted, hCounts _ hCategoryCount⟩

theorem Shows.itemInserted (h : Shows self (left ++ right)) {first second : List Hotkey}
    (hPlace : Place item left right before first second after) (hOpens : first ++ second ≠ [] ∨ after = []) :
    Shows (self.itemInserted item left.length) (left ++ item :: right) := by
  by_cases hWithin : first ++ second = []
  · obtain ⟨rfl, rfl⟩ := List.append_eq_nil_iff.mp hWithin
    obtain rfl := hOpens.resolve_left (not_not.mpr hWithin)
    exact h.itemInserted_of_last hPlace
  · exact h.itemInserted_of_category hPlace hWithin

theorem insertion_split {vector : SignalVector Hotkey} (hCompare : vector.itemCompare_ = some hotkeySortCompare_)
    (hSorted : SortedByCategory vector.items_) (item : Hotkey) :
    ∃ left right, vector.items_ = left ++ right ∧ insertionIndex item (-1) vector = left.length ∧
      (∀ other ∈ left, other.category.value ≤ item.category.value) ∧
      ∀ other ∈ right, item.category.value ≤ other.category.value := by
  have hIndex : insertionIndex item (-1) vector = vector.items_.findIdx fun other => !hotkeySortCompare_ other item := by
    rw [insertionIndex, hCompare]
  rw [hIndex]
  generalize hAt : (vector.items_.findIdx fun other => !hotkeySortCompare_ other item) = index
  have hLe : index ≤ vector.items_.length := hAt ▸ List.findIdx_le_length
  refine ⟨vector.items_.take index, vector.items_.drop index, (List.take_append_drop _ _).symm, ?_, fun other hMem => ?_,
    fun other hMem => ?_⟩
  · rw [List.length_take, Nat.min_eq_left hLe]
  · obtain ⟨i, hi, rfl⟩ := List.mem_take_iff_getElem.mp hMem
    have hLess : i < vector.items_.findIdx fun other => !hotkeySortCompare_ other item := by omega
    have hCompared := List.not_of_lt_findIdx hLess
    exact value_le_of_compare (by simpa using hCompared)
  · cases hDrop : vector.items_.drop index with
    | nil =>
      rw [hDrop] at hMem
      cases hMem
    | cons first rest =>
      have hLt : index < vector.items_.length := by
        have := congrArg List.length hDrop
        rw [List.length_drop, List.length_cons] at this
        omega
      have hFirst : item.category.value ≤ first.category.value := by
        have hGet := List.drop_eq_getElem_cons hLt
        rw [hDrop] at hGet
        obtain ⟨rfl, -⟩ := List.cons.inj hGet
        subst hAt
        have hNot := @List.findIdx_getElem _ (fun other => !hotkeySortCompare_ other item) _ hLt
        exact value_le_of_not_compare (by simpa using hNot)
      have hRest : SortedByCategory (first :: rest) := hDrop ▸ hSorted.sublist (List.drop_sublist _ _)
      rw [hDrop] at hMem
      rcases List.mem_cons.mp hMem with rfl | hMem
      · exact hFirst
      · exact hFirst.trans ((List.pairwise_cons.mp hRest).1 other hMem)

theorem sorted_inserted (hSorted : SortedByCategory (left ++ right))
    (hLeft : ∀ other ∈ left, other.category.value ≤ item.category.value)
    (hRight : ∀ other ∈ right, item.category.value ≤ other.category.value) : SortedByCategory (left ++ item :: right) := by
  obtain ⟨hSortedLeft, hSortedRight, hLe⟩ := List.pairwise_append.mp hSorted
  refine List.pairwise_append.mpr ⟨hSortedLeft, List.pairwise_cons.mpr ⟨hRight, hSortedRight⟩, fun other hMem => ?_⟩
  exact List.forall_mem_cons.mpr ⟨hLeft other hMem, hLe other hMem⟩

structure ShowsVector (model : HotkeyModel) : Prop where
  shows_ : Shows model model.items
  compare : model.table.vector_.itemCompare_ = some hotkeySortCompare_
  sorted : SortedByCategory model.items

theorem ShowsVector.grouped (h : ShowsVector self) : Grouped self := ⟨h.shows_.rows, h.shows_.asserted⟩

theorem ShowsVector.insert (h : ShowsVector self) (item : Hotkey) :
    (Grouped (self.insert item) → OpensLast self (.insert item)) ∧
      (OpensLast self (.insert item) → ShowsVector (self.insert item)) := by
  obtain ⟨left, right, hItems, hIndex, hLeft, hRight⟩ := insertion_split h.compare h.sorted item
  change self.items = left ++ right at hItems
  have hSorted := h.sorted
  have hShows := h.shows_
  rw [hItems] at hSorted hShows
  obtain ⟨before, first, second, after, hPlace⟩ := exists_place hSorted hLeft hRight
  have hInsert : self.insert item = (self.setItems (left ++ item :: right)).itemInserted item left.length := by
    rw [HotkeyModel.insert, hIndex, hItems, CircularBuffer.insertIdx_length_append]
  have hNew : Shows (self.setItems (left ++ item :: right)) (left ++ right) := ⟨hShows.rows, hShows.asserted, hShows.categoryCount⟩
  have hVector := (self.setItems (left ++ item :: right)).itemInserted_vector item left.length
  have hInserted : (self.insert item).items = left ++ item :: right := by
    rw [hInsert, HotkeyModel.items, hVector]
    rfl
  have hOpens : OpensLast self (.insert item) ↔ first ++ second ≠ [] ∨ after = [] := by
    rw [OpensLast, hItems, hPlace.exists_category_iff]
    refine or_congr_right' fun hWithin => ?_
    have hNone := not_not.mp hWithin
    constructor
    · intro hAll
      refine List.eq_nil_iff_forall_not_mem.mpr fun other hMem => ?_
      have hOther := hPlace.between.after other hMem
      have := hAll other (List.mem_append_right _ (hPlace.right ▸ List.mem_append_right _ hMem))
      omega
    · rintro rfl other hMem
      obtain ⟨rfl, rfl⟩ := List.append_eq_nil_iff.mp hNone
      rw [hPlace.left, hPlace.right, List.append_nil, List.append_nil, List.append_nil] at hMem
      exact hPlace.between.before other hMem
  rw [hOpens]
  constructor
  · intro hGrouped
    by_contra hNot
    obtain ⟨hWithin, hAfter⟩ := not_or.mp hNot
    obtain ⟨rfl, rfl⟩ := List.append_eq_nil_iff.mp (not_not.mp hWithin)
    apply hNew.itemInserted_rows_ne hPlace hAfter
    rw [← hInsert, hGrouped.rows, hInserted]
  · intro hOpen
    refine ⟨?_, ?_, ?_⟩
    · rw [hInserted, hInsert]
      exact hNew.itemInserted hPlace hOpen
    · rw [hInsert, hVector]
      exact h.compare
    · rw [hInserted]
      exact sorted_inserted hSorted hLeft hRight

theorem ShowsVector.removeAt (h : ShowsVector self) (index : Nat) : ShowsVector (self.removeAt index) := by
  rw [HotkeyModel.removeAt]
  cases hItem : self.items[index]? with
  | none => exact h
  | some item =>
    obtain ⟨hLt, rfl⟩ := List.getElem?_eq_some_iff.mp hItem
    have hItems : self.items = self.items.take index ++ self.items[index] :: self.items.drop (index + 1) := by
      rw [← List.drop_eq_getElem_cons hLt, List.take_append_drop]
    have hLength : (self.items.take index).length = index := by
      rw [List.length_take, Nat.min_eq_left hLt.le]
    have hErased : self.items.eraseIdx index = self.items.take index ++ self.items.drop (index + 1) :=
      List.eraseIdx_eq_take_drop_succ _ _
    have hSorted := h.sorted
    have hShows := h.shows_
    rw [hItems] at hSorted hShows
    have hNew : Shows (self.setItems (self.items.eraseIdx index)) (self.items.take index ++ self.items[index] ::
        self.items.drop (index + 1)) := ⟨hShows.rows, hShows.asserted, hShows.categoryCount⟩
    have hRemoved := hNew.itemRemoved hSorted
    rw [hLength, ← hErased] at hRemoved
    have hVector : ((self.setItems (self.items.eraseIdx index)).itemRemoved self.items[index] index).table.vector_ =
        (self.setItems (self.items.eraseIdx index)).table.vector_ := by
      rw [HotkeyModel.itemRemoved]
      exact HotkeyModel.afterRemoved_vector _ _ _
    have hAfter : ((self.setItems (self.items.eraseIdx index)).itemRemoved self.items[index] index).items =
        self.items.eraseIdx index := by
      rw [HotkeyModel.items, hVector]
      rfl
    change ShowsVector ((self.setItems (self.items.eraseIdx index)).itemRemoved self.items[index] index)
    refine ⟨?_, ?_, ?_⟩
    · rw [hAfter]
      exact hRemoved
    · rw [hVector]
      exact h.compare
    · rw [hAfter]
      exact h.sorted.sublist (List.eraseIdx_sublist _ _)

theorem sortedVector_sorted (added : List Hotkey) :
    (sortedVector added).itemCompare_ = some hotkeySortCompare_ ∧ SortedByCategory (sortedVector added).items_ := by
  have hStep (vector : SignalVector Hotkey) (item : Hotkey)
      (h : vector.itemCompare_ = some hotkeySortCompare_ ∧ SortedByCategory vector.items_) :
      vector.itemCompare_ = some hotkeySortCompare_ ∧
        SortedByCategory (vector.items_.insertIdx (insertionIndex item (-1) vector) item) := by
    obtain ⟨left, right, hItems, hIndex, hLeft, hRight⟩ := insertion_split h.1 h.2 item
    have hSorted := h.2
    rw [hItems] at hSorted
    refine ⟨h.1, ?_⟩
    rw [hIndex, hItems, CircularBuffer.insertIdx_length_append]
    exact sorted_inserted hSorted hLeft hRight
  have hStart : (⟨[], some hotkeySortCompare_⟩ : SignalVector Hotkey).itemCompare_ = some hotkeySortCompare_ ∧
      SortedByCategory (⟨[], some hotkeySortCompare_⟩ : SignalVector Hotkey).items_ := ⟨rfl, List.Pairwise.nil⟩
  exact @foldl_invariant _ _ _ (fun vector : SignalVector Hotkey => vector.itemCompare_ = some hotkeySortCompare_ ∧ SortedByCategory vector.items_)
    _ added hStart hStep

theorem shows_foldl_itemInserted {shown rest : List Hotkey} (h : Shows self shown) (hSorted : SortedByCategory (shown ++ rest)) :
    Shows ((rest.zipIdx shown.length).foldl (fun self args => self.itemInserted args.1 args.2) self) (shown ++ rest) ∧
      ((rest.zipIdx shown.length).foldl (fun self args => self.itemInserted args.1 args.2) self).table.vector_ =
        self.table.vector_ := by
  induction rest generalizing self shown with
  | nil =>
    rw [List.append_nil]
    exact ⟨h, rfl⟩
  | cons item rest ih =>
    obtain ⟨hShown, -, hLe⟩ := List.pairwise_append.mp hSorted
    have hShownNil : SortedByCategory (shown ++ []) := by rwa [List.append_nil]
    obtain ⟨before, first, second, after, hPlace⟩ := exists_place hShownNil
      (fun other hMem => hLe other hMem item List.mem_cons_self) fun _ hMem => absurd hMem List.not_mem_nil
    have hLast : first ++ second ≠ [] ∨ after = [] := .inr (List.append_eq_nil_iff.mp hPlace.right.symm).2
    have hNext := Shows.itemInserted (by rwa [List.append_nil]) hPlace hLast
    rw [List.append_cons] at hSorted ⊢
    obtain ⟨hAll, hVector⟩ := ih hNext hSorted
    rw [List.length_append, List.length_singleton] at hAll hVector
    rw [List.zipIdx_cons, List.foldl_cons]
    exact ⟨hAll, hVector.trans (self.itemInserted_vector item shown.length)⟩

theorem showsVector_initialized (added : List Hotkey) : ShowsVector (HotkeyModel.initialized (sortedVector added)) := by
  obtain ⟨hCompare, hSorted⟩ := sortedVector_sorted added
  have hEmpty : Shows ({ table := ⟨sortedVector added, []⟩ } : HotkeyModel) [] := ⟨rfl, rfl, fun _ => rfl⟩
  obtain ⟨hShows, hVector⟩ := shows_foldl_itemInserted hEmpty hSorted
  refine ⟨?_, ?_, ?_⟩
  · rw [HotkeyModel.items, HotkeyModel.initialized]
    rw [List.length_nil, List.nil_append] at hShows
    rw [List.length_nil] at hVector
    rw [hVector]
    exact hShows
  · rw [HotkeyModel.initialized]
    rw [List.length_nil] at hVector
    rw [hVector]
    exact hCompare
  · rw [HotkeyModel.items, HotkeyModel.initialized]
    rw [List.length_nil] at hVector
    rw [hVector]
    exact hSorted

/-- The rows are grouped by category in every state of a run, exactly if no hotkey of a category without hotkeys is
inserted before one of a later category. -/
theorem grouped_iff_opensLast (added : List Hotkey) (events : List Event) :
    (∀ reached, reached <+: events →
        Grouped (reached.foldl HotkeyModel.step (HotkeyModel.initialized (sortedVector added)))) ↔
      AllSteps HotkeyModel.step OpensLast (HotkeyModel.initialized (sortedVector added)) events := by
  refine AllSteps.forall_reached_iff_of_strengthening (AllSteps.of_forall_mem fun _ _ _ => trivial)
    ShowsVector Grouped (showsVector_initialized added) (fun _ h => h.grouped) (fun model event h _ hGrouped => ?_)
    fun model event h _ hOpens => ?_
  · cases event with
    | insert item => exact (h.insert item).1 hGrouped
    | removeAt index => trivial
  · cases event with
    | insert item => exact (h.insert item).2 hOpens
    | removeAt index => exact h.removeAt index

theorem not_grouped_splitBeforeWindow :
    ¬ Grouped ((HotkeyModel.initialized (sortedVector [⟨lit "quit", .Window, lit "Ctrl+Q"⟩])).step
      (.insert ⟨lit "reload", .Split, lit "F5"⟩)) := by
  intro h
  exact absurd h.rows (by decide)

end Chatterino.Hotkeys
