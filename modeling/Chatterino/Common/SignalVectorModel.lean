import Chatterino.Lib.CircularBuffer
import Chatterino.Lib.PairedLists
import Chatterino.Lib.Run

/-! # A vector and the table that shows it

The rows of a table follow the signals of a vector, next to custom rows. A change that the table makes
itself carries the table as its caller, and its signals are ignored.
-/

namespace Chatterino

structure SignalVector (T : Type) where
  items_ : List T
  itemCompare_ : Option (T → T → Bool)

structure Row (T Cell : Type) where
  items : List Cell
  original : Option T
  isCustomRow : Bool
  deriving DecidableEq

/-- What a subclass makes of items and rows, and what an item of the table does with its data. -/
structure RowFunctions (T Cell Value Role : Type) where
  columnCount_ : Nat
  newItem : Cell
  setData : Value → Role → Cell → Cell
  getItemFromRow : List Cell → T → T
  getRowFromItem : T → List Cell → List Cell

structure SignalVectorModel (T Cell : Type) where
  vector_ : SignalVector T
  rows_ : List (Row T Cell)

namespace SignalVectorModel

variable {T Cell Value Role : Type}

def vectorIndexFrom : Nat → Int → List (Row T Cell) → Nat
  | i, _, [] => i
  | i, index, row :: rows =>
    if row.isCustomRow then vectorIndexFrom i (index - 1) rows
    else if (i : Int) = index then i
    else vectorIndexFrom (i + 1) index rows

def getVectorIndexFromModelIndex (index : Int) (rows_ : List (Row T Cell)) : Nat := vectorIndexFrom 0 index rows_

def modelIndexFrom : Nat → Nat → List (Row T Cell) → Nat
  | modelIndex, _, [] => modelIndex
  | modelIndex, vectorIndex, row :: rows =>
    let vectorIndex := if row.isCustomRow then vectorIndex + 1 else vectorIndex
    if modelIndex = vectorIndex then modelIndex else modelIndexFrom (modelIndex + 1) vectorIndex rows

def getModelIndexFromVectorIndex (vectorIndex : Nat) (rows_ : List (Row T Cell)) : Nat :=
  modelIndexFrom 0 vectorIndex rows_

section

variable (functions : RowFunctions T Cell Value Role)

def createRow : List Cell := List.replicate functions.columnCount_ functions.newItem

def itemInserted (item : T) (index : Nat) (rows_ : List (Row T Cell)) : List (Row T Cell) :=
  rows_.insertIdx (getModelIndexFromVectorIndex index rows_)
    ⟨functions.getRowFromItem item (createRow functions), some item, false⟩

def itemRemoved (index : Nat) (rows_ : List (Row T Cell)) : List (Row T Cell) :=
  rows_.eraseIdx (getModelIndexFromVectorIndex index rows_)

def insertionIndex (item : T) (index : Int) (vector : SignalVector T) : Nat :=
  match vector.itemCompare_ with
  | some itemCompare => vector.items_.findIdx fun other => !itemCompare other item
  | none => if index = -1 then vector.items_.length else index.toNat

def insert (item : T) (index : Int) (own : Bool) (model : SignalVectorModel T Cell) : SignalVectorModel T Cell :=
  let index := insertionIndex item index model.vector_
  { vector_ := { model.vector_ with items_ := model.vector_.items_.insertIdx index item }
    rows_ := if own then model.rows_ else itemInserted functions item index model.rows_ }

def removeAt (index : Nat) (own : Bool) (model : SignalVectorModel T Cell) : SignalVectorModel T Cell :=
  { vector_ := { model.vector_ with items_ := model.vector_.items_.eraseIdx index }
    rows_ := if own then model.rows_ else itemRemoved index model.rows_ }

def initialized (vec : SignalVector T) : SignalVectorModel T Cell where
  vector_ := vec
  rows_ := vec.items_.zipIdx.foldl (fun rows args => itemInserted functions args.1 args.2 rows) []

def insertCustomRow (items : List Cell) (index : Nat) (model : SignalVectorModel T Cell) : SignalVectorModel T Cell :=
  { model with rows_ := model.rows_.insertIdx index ⟨items, none, true⟩ }

def setData (row column : Nat) (value : Value) (role : Role) (model : SignalVectorModel T Cell) :
    SignalVectorModel T Cell :=
  match model.rows_[row]? with
  | none => model
  | some rowItem =>
    if functions.columnCount_ ≤ column then model
    else
      let items := rowItem.items.modify column (functions.setData value role)
      let edited := { model with rows_ := model.rows_.set row { rowItem with items := items } }
      if rowItem.isCustomRow then edited
      else
        let vecRow := getVectorIndexFromModelIndex row edited.rows_
        if edited.vector_.items_.length ≤ vecRow then edited
        else
          match rowItem.original with
          | none => edited
          | some original =>
            (edited.removeAt vecRow true).insert functions (functions.getItemFromRow items original) vecRow true

def moveRows (sourceRow : Nat) (destinationChild : Int) (model : SignalVectorModel T Cell) :
    SignalVectorModel T Cell :=
  match model.rows_[sourceRow]?.bind fun row => row.original.map fun original => (row.items, original) with
  | none => model
  | some (items, original) =>
    let signalVectorRow := getVectorIndexFromModelIndex sourceRow model.rows_
    let removed := model.removeAt signalVectorRow false
    removed.insert functions (functions.getItemFromRow items original)
      (getVectorIndexFromModelIndex destinationChild removed.rows_) false

def removeRows (row : Nat) (model : SignalVectorModel T Cell) : SignalVectorModel T Cell :=
  model.removeAt (getVectorIndexFromModelIndex row model.rows_) false

end

inductive Event (T Value Role : Type) where
  | insert (item : T) (index : Int)
  | append (item : T)
  | removeAt (index : Nat)
  | setData (row column : Nat) (value : Value) (role : Role)
  | removeRows (row : Nat)
  | moveRows (sourceRow : Nat) (destinationChild : Int)

def step (functions : RowFunctions T Cell Value Role) (model : SignalVectorModel T Cell) :
    Event T Value Role → SignalVectorModel T Cell
  | .insert item index => model.insert functions item index false
  | .append item => model.insert functions item (-1) false
  | .removeAt index => model.removeAt index false
  | .setData row column value role => model.setData functions row column value role
  | .removeRows row => model.removeRows row
  | .moveRows sourceRow destinationChild => model.moveRows functions sourceRow destinationChild

end SignalVectorModel

end Chatterino

namespace Chatterino.SignalVectorModel

open Lib

variable {T Cell Value Role : Type} {functions : RowFunctions T Cell Value Role} {model : SignalVectorModel T Cell}
  {rows before after : List (Row T Cell)} {row : Row T Cell} {vector : SignalVector T}

def vectorRows (rows : List (Row T Cell)) : List (Row T Cell) := rows.filter fun row => !row.isCustomRow

def customRows (rows : List (Row T Cell)) : List (Row T Cell) := rows.filter fun row => row.isCustomRow

theorem exists_modelIndexFrom (modelIndex vectorIndex : Nat) (h : vectorIndex ≤ (vectorRows rows).length) :
    ∃ before after, rows = before ++ after ∧ (vectorRows before).length = vectorIndex ∧
      modelIndexFrom modelIndex (modelIndex + vectorIndex) rows = modelIndex + before.length ∧
      ∀ row ∈ after.head?, row.isCustomRow = false := by
  induction rows generalizing modelIndex vectorIndex with
  | nil =>
    obtain rfl : vectorIndex = 0 := Nat.le_zero.mp h
    exact ⟨[], [], rfl, rfl, rfl, by rintro _ ⟨⟩⟩
  | cons row rows ih =>
    cases hCustom : row.isCustomRow with
    | true =>
      have hRest : vectorRows (row :: rows) = vectorRows rows := by simp [vectorRows, hCustom]
      obtain ⟨before, after, rfl, hCount, hIndex, hHead⟩ := ih (modelIndex + 1) vectorIndex (hRest ▸ h)
      refine ⟨row :: before, after, rfl, ?_, ?_, hHead⟩
      · simpa [vectorRows, hCustom] using hCount
      · rw [modelIndexFrom, hCustom, if_pos rfl, if_neg (by omega), Nat.add_right_comm, hIndex, List.length_cons]
        omega
    | false =>
      have hRest : (vectorRows (row :: rows)).length = (vectorRows rows).length + 1 := by simp [vectorRows, hCustom]
      cases vectorIndex with
      | zero =>
        refine ⟨[], row :: rows, rfl, rfl, ?_, ?_⟩
        · rw [modelIndexFrom, hCustom]
          exact if_pos rfl
        · rintro other ⟨⟩
          exact hCustom
      | succ vectorIndex =>
        obtain ⟨before, after, rfl, hCount, hIndex, hHead⟩ := ih (modelIndex + 1) vectorIndex (by omega)
        refine ⟨row :: before, after, rfl, ?_, ?_, hHead⟩
        · simpa [vectorRows, hCustom] using hCount
        · rw [modelIndexFrom, hCustom, if_neg Bool.false_ne_true, if_neg (by omega), ← Nat.add_assoc, Nat.add_right_comm, hIndex, List.length_cons]
          omega

theorem vectorIndexFrom_append (before after : List (Row T Cell)) (i : Nat) (hCustom : row.isCustomRow = false) :
    vectorIndexFrom i (i + before.length) (before ++ row :: after) = i + (vectorRows before).length := by
  induction before generalizing i with
  | nil =>
    rw [List.nil_append, vectorIndexFrom, hCustom, if_neg Bool.false_ne_true, if_pos]
    · rfl
    · simp
  | cons other before ih =>
    rw [List.cons_append, vectorIndexFrom]
    cases hOther : other.isCustomRow with
    | true =>
      have hIndex : (i : Int) + ((other :: before).length : Nat) - 1 = i + before.length := by
        rw [List.length_cons]
        omega
      have hRest : vectorRows (other :: before) = vectorRows before := by simp [vectorRows, hOther]
      rw [if_pos rfl, hIndex, ih i, hRest]
    | false =>
      have hIndex : (i : Int) + ((other :: before).length : Nat) = (i + 1 : Nat) + before.length := by
        rw [List.length_cons]
        omega
      have hRest : (vectorRows (other :: before)).length = (vectorRows before).length + 1 := by
        simp [vectorRows, hOther]
      rw [if_neg Bool.false_ne_true, if_neg (by rw [hIndex]; omega), hIndex, ih (i + 1), hRest]
      omega

theorem getVectorIndexFromModelIndex_append (hCustom : row.isCustomRow = false) :
    getVectorIndexFromModelIndex before.length (before ++ row :: after) = (vectorRows before).length := by
  have hFrom := vectorIndexFrom_append before after 0 hCustom
  simpa [getVectorIndexFromModelIndex] using hFrom

theorem vectorIndexFrom_le (i : Nat) (index : Int) (rows : List (Row T Cell)) :
    vectorIndexFrom i index rows ≤ i + (vectorRows rows).length := by
  induction rows generalizing i index with
  | nil => exact Nat.le_refl _
  | cons row rows ih =>
    rw [vectorIndexFrom]
    cases hCustom : row.isCustomRow with
    | true =>
      have hRest : vectorRows (row :: rows) = vectorRows rows := by simp [vectorRows, hCustom]
      rw [if_pos rfl, hRest]
      exact ih i (index - 1)
    | false =>
      have hRest : (vectorRows (row :: rows)).length = (vectorRows rows).length + 1 := by simp [vectorRows, hCustom]
      have hNext := ih (i + 1) index
      rw [if_neg Bool.false_ne_true]
      split_ifs <;> omega

theorem vectorRows_append (before after : List (Row T Cell)) :
    vectorRows (before ++ after) = vectorRows before ++ vectorRows after := List.filter_append _ _

theorem customRows_append (before after : List (Row T Cell)) :
    customRows (before ++ after) = customRows before ++ customRows after := List.filter_append _ _

theorem vectorRows_cons (hCustom : row.isCustomRow = false) (rows : List (Row T Cell)) :
    vectorRows (row :: rows) = row :: vectorRows rows := by simp [vectorRows, hCustom]

theorem customRows_cons (hCustom : row.isCustomRow = false) (rows : List (Row T Cell)) :
    customRows (row :: rows) = customRows rows := by simp [customRows, hCustom]

def rowOf (functions : RowFunctions T Cell Value Role) (item : T) : Row T Cell :=
  ⟨functions.getRowFromItem item (createRow functions), some item, false⟩

theorem rows_itemInserted (functions : RowFunctions T Cell Value Role) (rows : List (Row T Cell)) (item : T) {index : Nat} (h : index ≤ (vectorRows rows).length) :
    vectorRows (itemInserted functions item index rows) = (vectorRows rows).insertIdx index (rowOf functions item) ∧
      customRows (itemInserted functions item index rows) = customRows rows := by
  obtain ⟨before, after, rfl, hCount, hIndex, -⟩ := exists_modelIndexFrom 0 index h
  have hNew : (rowOf functions item).isCustomRow = false := rfl
  have hInserted : itemInserted functions item index (before ++ after) = before ++ rowOf functions item :: after := by
    rw [Nat.zero_add, Nat.zero_add] at hIndex
    rw [itemInserted, getModelIndexFromVectorIndex, hIndex]
    exact CircularBuffer.insertIdx_length_append _ _ _
  rw [hInserted, vectorRows_append, vectorRows_append, vectorRows_cons hNew, customRows_append, customRows_append,
    customRows_cons hNew, ← hCount]
  exact ⟨(CircularBuffer.insertIdx_length_append _ _ _).symm, rfl⟩

theorem rows_itemRemoved (rows : List (Row T Cell)) {index : Nat} (h : index < (vectorRows rows).length) :
    vectorRows (itemRemoved index rows) = (vectorRows rows).eraseIdx index ∧
      customRows (itemRemoved index rows) = customRows rows := by
  obtain ⟨before, after, rfl, hCount, hIndex, hHead⟩ := exists_modelIndexFrom 0 index h.le
  cases after with
  | nil =>
    rw [List.append_nil, hCount] at h
    exact absurd h (Nat.lt_irrefl _)
  | cons row after =>
    have hCustom : row.isCustomRow = false := hHead row rfl
    have hRemoved : itemRemoved index (before ++ row :: after) = before ++ after := by
      rw [Nat.zero_add, Nat.zero_add] at hIndex
      rw [itemRemoved, getModelIndexFromVectorIndex, hIndex, List.eraseIdx_append_of_length_le (Nat.le_refl _),
        Nat.sub_self, List.eraseIdx_cons_zero]
    rw [hRemoved, vectorRows_append, vectorRows_append, vectorRows_cons hCustom, customRows_append,
      customRows_append, customRows_cons hCustom, ← hCount, List.eraseIdx_append_of_length_le (Nat.le_refl _),
      Nat.sub_self, List.eraseIdx_cons_zero]
    exact ⟨rfl, rfl⟩

theorem exists_append_of_getElem? {list : List (Row T Cell)} {i : Nat} (h : list[i]? = some row) :
    ∃ before after, list = before ++ row :: after ∧ i = before.length := by
  obtain ⟨hLength, rfl⟩ := List.getElem?_eq_some_iff.mp h
  refine ⟨list.take i, list.drop (i + 1), ?_, ?_⟩
  · rw [← List.drop_eq_getElem_cons hLength, List.take_append_drop]
  · rw [List.length_take, Nat.min_eq_left hLength.le]

theorem vectorIndex_of_row {index : Nat} (hRow : rows[index]? = some row) (hCustom : row.isCustomRow = false) :
    (vectorRows rows)[getVectorIndexFromModelIndex index rows]? = some row := by
  obtain ⟨before, after, rfl, rfl⟩ := exists_append_of_getElem? hRow
  rw [getVectorIndexFromModelIndex_append hCustom, vectorRows_append, vectorRows_cons hCustom,
    List.getElem?_append_right (Nat.le_refl _), Nat.sub_self]
  rfl

theorem rows_set {index : Nat} (row' : Row T Cell) (hRow : rows[index]? = some row) (hCustom : row.isCustomRow = false)
    (hCustom' : row'.isCustomRow = false) :
    vectorRows (rows.set index row') = (vectorRows rows).set (getVectorIndexFromModelIndex index rows) row' ∧
      customRows (rows.set index row') = customRows rows ∧
      getVectorIndexFromModelIndex index (rows.set index row') = getVectorIndexFromModelIndex index rows := by
  obtain ⟨before, after, rfl, rfl⟩ := exists_append_of_getElem? hRow
  rw [List.set_append_right _ _ (Nat.le_refl _), Nat.sub_self, List.set_cons_zero,
    getVectorIndexFromModelIndex_append hCustom, getVectorIndexFromModelIndex_append hCustom',
    vectorRows_append, vectorRows_append, vectorRows_cons hCustom, vectorRows_cons hCustom', customRows_append,
    customRows_append, customRows_cons hCustom, customRows_cons hCustom',
    List.set_append_right _ _ (Nat.le_refl _), Nat.sub_self, List.set_cons_zero]
  exact ⟨rfl, rfl, rfl⟩

end Chatterino.SignalVectorModel
