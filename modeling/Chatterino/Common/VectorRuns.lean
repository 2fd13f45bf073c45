import Chatterino.Common.SignalVectorModel

/-! # Runs of a table and its vector

In every run whose edits leave the items of a sorted vector in their places, the rows correspond to
the items in every state, and the custom rows stay.
-/

namespace Chatterino.SignalVectorModel

open Lib

variable {T Cell Value Role : Type} {functions : RowFunctions T Cell Value Role} {model : SignalVectorModel T Cell}
  {rows : List (Row T Cell)} {row : Row T Cell} {item : T}

section

variable (functions : RowFunctions T Cell Value Role)

def Corresponds (row : Row T Cell) (item : T) : Prop :=
  row = rowOf functions item ∨
    ∃ original, row.original = some original ∧ functions.getItemFromRow row.items original = item

def Mirrors (model : SignalVectorModel T Cell) : Prop :=
  List.Forall₂ (Corresponds functions) (vectorRows model.rows_) model.vector_.items_

/-- What the asserts of the source ask for, and that the table is edited at vector rows. -/
def Admissible (model : SignalVectorModel T Cell) : Event T Value Role → Prop
  | .insert _ index => model.vector_.itemCompare_.isNone → -1 ≤ index ∧ index ≤ model.vector_.items_.length
  | .append _ => True
  | .removeAt index => index < model.vector_.items_.length
  | .setData row _ _ _ => ∀ rowItem ∈ model.rows_[row]?, rowItem.isCustomRow = false
  | .removeRows row => ∃ rowItem ∈ model.rows_[row]?, rowItem.isCustomRow = false
  | .moveRows sourceRow _ => ∃ rowItem ∈ model.rows_[sourceRow]?, rowItem.isCustomRow = false

/-- In a sorted vector, the edited item belongs where it was: after smaller ones, and before one that
is not smaller. -/
def KeepsPlace (model : SignalVectorModel T Cell) : Event T Value Role → Prop
  | .setData row column value role => ∀ rowItem original itemCompare,
      model.rows_[row]? = some rowItem → column < functions.columnCount_ → rowItem.original = some original →
      model.vector_.itemCompare_ = some itemCompare →
      let vecRow := getVectorIndexFromModelIndex row model.rows_
      let item := functions.getItemFromRow (rowItem.items.modify column (functions.setData value role)) original
      let others := model.vector_.items_.eraseIdx vecRow
      (∀ other ∈ others.take vecRow, itemCompare other item) ∧ ∀ other ∈ others[vecRow]?, ¬itemCompare other item
  | _ => True

end

inductive Starts (functions : RowFunctions T Cell Value Role) : SignalVectorModel T Cell → Prop
  | initialized (vec : SignalVector T) : Starts functions (initialized functions vec)
  | insertCustomRow {model : SignalVectorModel T Cell} (h : Starts functions model) (items : List Cell) {index : Nat}
    (hIndex : index ≤ model.rows_.length) : Starts functions (model.insertCustomRow items index)

theorem Mirrors.length_eq (h : Mirrors functions model) :
    (vectorRows model.rows_).length = model.vector_.items_.length := List.Forall₂.length_eq h

theorem Mirrors.insert (h : Mirrors functions model) (item : T) {index : Int}
    (hIndex : insertionIndex item index model.vector_ ≤ model.vector_.items_.length) :
    Mirrors functions (model.insert functions item index false) ∧
      customRows (model.insert functions item index false).rows_ = customRows model.rows_ := by
  obtain ⟨hVector, hCustom⟩ := rows_itemInserted functions model.rows_ item
    (h.length_eq.symm ▸ hIndex)
  refine ⟨?_, hCustom⟩
  have hRows : vectorRows (model.insert functions item index false).rows_ = _ := hVector
  rw [Mirrors, hRows]
  exact forall₂_insertIdx h _ (.inl rfl)

theorem Mirrors.removeAt (h : Mirrors functions model) {index : Nat} (hIndex : index < model.vector_.items_.length) :
    Mirrors functions (model.removeAt index false) ∧
      customRows (model.removeAt index false).rows_ = customRows model.rows_ := by
  obtain ⟨hVector, hCustom⟩ := rows_itemRemoved model.rows_ (h.length_eq.symm ▸ hIndex)
  refine ⟨?_, hCustom⟩
  have hRows : vectorRows (model.removeAt index false).rows_ = _ := hVector
  rw [Mirrors, hRows]
  exact forall₂_eraseIdx h index

theorem insertionIndex_le {index : Int} {vector : SignalVector T}
    (h : vector.itemCompare_.isNone → index ≤ vector.items_.length) :
    insertionIndex item index vector ≤ vector.items_.length := by
  unfold insertionIndex
  split
  · exact List.findIdx_le_length
  · rename_i hNone
    have hIndex := h (hNone ▸ rfl)
    split_ifs
    · exact Nat.le_refl _
    · omega

theorem findIdx_eq {list : List T} {p : T → Bool} {i : Nat} (hLength : i ≤ list.length)
    (hBefore : ∀ x ∈ list.take i, p x = false) (hAt : ∀ x ∈ list[i]?, p x = true) : list.findIdx p = i := by
  induction list generalizing i with
  | nil => exact (Nat.le_zero.mp hLength).symm
  | cons x list ih =>
    cases i with
    | zero =>
      rw [List.findIdx_cons, hAt x rfl]
      rfl
    | succ i =>
      rw [List.take_succ_cons, List.forall_mem_cons] at hBefore
      rw [List.findIdx_cons, hBefore.1, ih (Nat.le_of_succ_le_succ hLength) hBefore.2 hAt]
      rfl

theorem insertIdx_eraseIdx {list : List T} {i : Nat} (h : i < list.length) :
    (list.eraseIdx i).insertIdx i item = list.set i item := by
  induction list generalizing i with
  | nil => cases h
  | cons x list ih =>
    cases i with
    | zero => rfl
    | succ i => exact congrArg (x :: ·) (ih (Nat.lt_of_succ_lt_succ h))

theorem items_edited (item : T) {vector : SignalVector T} {i : Nat} (hLength : i < vector.items_.length)
    (hPlace : ∀ itemCompare, vector.itemCompare_ = some itemCompare →
      (∀ other ∈ (vector.items_.eraseIdx i).take i, itemCompare other item) ∧
        ∀ other ∈ (vector.items_.eraseIdx i)[i]?, ¬itemCompare other item) :
    (vector.items_.eraseIdx i).insertIdx
        (insertionIndex item i { vector with items_ := vector.items_.eraseIdx i }) item = vector.items_.set i item := by
  have hIndex : insertionIndex item i { vector with items_ := vector.items_.eraseIdx i } = i := by
    unfold insertionIndex
    dsimp only
    cases hCompare : vector.itemCompare_ with
    | none =>
      dsimp only
      rw [if_neg (by omega), Int.toNat_natCast]
    | some itemCompare =>
      obtain ⟨hBefore, hAt⟩ := hPlace itemCompare hCompare
      refine findIdx_eq ?_ (fun x hx => ?_) fun x hx => ?_
      · rw [List.length_eraseIdx_of_lt hLength]
        omega
      · rw [hBefore x hx]
        rfl
      · simp only [hAt x hx, Bool.not_false]
  rw [hIndex]
  exact insertIdx_eraseIdx hLength

theorem Corresponds.exists_original (h : Corresponds functions row item) : ∃ original, row.original = some original := by
  rcases h with rfl | ⟨original, hOriginal, -⟩
  · exact ⟨item, rfl⟩
  · exact ⟨original, hOriginal⟩

theorem setData_vectorRow {row column : Nat} {value : Value} {role : Role} {items : List Cell} {original : T}
    (hItem : model.rows_[row]? = some ⟨items, some original, false⟩) (hColumn : column < functions.columnCount_)
    (hLength : getVectorIndexFromModelIndex row model.rows_ < model.vector_.items_.length)
    (hPlace : KeepsPlace functions model (.setData row column value role)) :
    let row' : Row T Cell := ⟨items.modify column (functions.setData value role), some original, false⟩
    model.setData functions row column value role =
      { vector_ := { model.vector_ with
          items_ := model.vector_.items_.set (getVectorIndexFromModelIndex row model.rows_)
            (functions.getItemFromRow row'.items original) }
        rows_ := model.rows_.set row row' } := by
  intro row'
  obtain ⟨-, -, hSame⟩ := rows_set row' hItem rfl rfl
  have hEdited := items_edited (functions.getItemFromRow row'.items original) hLength fun itemCompare =>
    hPlace _ original itemCompare hItem hColumn rfl
  unfold SignalVectorModel.setData
  rw [hItem]
  dsimp only
  rw [if_neg (Nat.not_le.mpr hColumn), if_neg Bool.false_ne_true, hSame, if_neg (Nat.not_le.mpr hLength), ← hEdited]
  rfl

theorem Mirrors.setData (h : Mirrors functions model) {row column : Nat} {value : Value} {role : Role}
    (hRow : ∀ rowItem ∈ model.rows_[row]?, rowItem.isCustomRow = false)
    (hPlace : KeepsPlace functions model (.setData row column value role)) :
    Mirrors functions (model.setData functions row column value role) ∧
      customRows (model.setData functions row column value role).rows_ = customRows model.rows_ := by
  cases hItem : model.rows_[row]? with
  | none =>
    rw [SignalVectorModel.setData, hItem]
    exact ⟨h, rfl⟩
  | some rowItem =>
    have hCustom := hRow rowItem hItem
    obtain ⟨item, hOld, hCorresponds⟩ := rel_of_getElem? h (vectorIndex_of_row hItem hCustom)
    obtain ⟨original, hOriginal⟩ := hCorresponds.exists_original
    obtain ⟨hLength, -⟩ := List.getElem?_eq_some_iff.mp hOld
    by_cases hColumn : functions.columnCount_ ≤ column
    · rw [SignalVectorModel.setData, hItem]
      dsimp only
      rw [if_pos hColumn]
      exact ⟨h, rfl⟩
    · obtain ⟨items, original?, isCustomRow⟩ := rowItem
      obtain rfl : isCustomRow = false := hCustom
      obtain rfl : original? = some original := hOriginal
      let row' : Row T Cell := ⟨items.modify column (functions.setData value role), some original, false⟩
      obtain ⟨hVector, hCustomRows, -⟩ := rows_set row' hItem rfl rfl
      rw [setData_vectorRow hItem (Nat.lt_of_not_le hColumn) hLength hPlace]
      refine ⟨?_, hCustomRows⟩
      rw [Mirrors, hVector]
      exact forall₂_set h _ (.inr ⟨original, rfl, rfl⟩)

theorem Mirrors.moveRows (h : Mirrors functions model) {sourceRow : Nat} {destinationChild : Int}
    (hRow : ∃ rowItem ∈ model.rows_[sourceRow]?, rowItem.isCustomRow = false) :
    Mirrors functions (model.moveRows functions sourceRow destinationChild) ∧
      customRows (model.moveRows functions sourceRow destinationChild).rows_ = customRows model.rows_ := by
  obtain ⟨rowItem, hItem, hCustom⟩ := hRow
  obtain ⟨item, hOld, hCorresponds⟩ := rel_of_getElem? h (vectorIndex_of_row hItem hCustom)
  obtain ⟨original, hOriginal⟩ := hCorresponds.exists_original
  obtain ⟨hLength, -⟩ := List.getElem?_eq_some_iff.mp hOld
  obtain ⟨hRemoved, hRemovedCustom⟩ := h.removeAt hLength
  let removed := model.removeAt (getVectorIndexFromModelIndex sourceRow model.rows_) false
  have hDestination : getVectorIndexFromModelIndex destinationChild removed.rows_ ≤ removed.vector_.items_.length := by
    rw [← hRemoved.length_eq]
    exact (vectorIndexFrom_le 0 _ _).trans (Nat.zero_add _).le
  obtain ⟨hInserted, hInsertedCustom⟩ := hRemoved.insert (functions.getItemFromRow rowItem.items original)
    (insertionIndex_le fun _ => Int.ofNat_le.mpr hDestination)
  have hMoved : (model.rows_[sourceRow]?.bind fun row => row.original.map fun original => (row.items, original)) =
      some (rowItem.items, original) := by
    rw [Option.mem_def.mp hItem, Option.bind_some, hOriginal, Option.map_some]
  rw [SignalVectorModel.moveRows, hMoved]
  exact ⟨hInserted, hInsertedCustom.trans hRemovedCustom⟩

theorem Mirrors.step (h : Mirrors functions model) {event : Event T Value Role} (hAdmissible : Admissible model event)
    (hPlace : KeepsPlace functions model event) : Mirrors functions (model.step functions event) ∧
      customRows (model.step functions event).rows_ = customRows model.rows_ := by
  cases event with
  | insert item index => exact h.insert item (insertionIndex_le fun hNone => (hAdmissible hNone).2)
  | append item => exact h.insert item (insertionIndex_le fun _ => by omega)
  | removeAt index => exact h.removeAt hAdmissible
  | setData row column value role => exact h.setData hAdmissible hPlace
  | removeRows row =>
    obtain ⟨rowItem, hItem, hCustom⟩ := hAdmissible
    obtain ⟨item, hOld, -⟩ := rel_of_getElem? h (vectorIndex_of_row hItem hCustom)
    exact h.removeAt (List.getElem?_eq_some_iff.mp hOld).choose
  | moveRows sourceRow destinationChild => exact h.moveRows hAdmissible

theorem rows_initialized (done items : List T) (hRows : vectorRows rows = done.map (rowOf functions)) :
    vectorRows ((items.zipIdx done.length).foldl (fun rows args => itemInserted functions args.1 args.2 rows) rows) =
      (done ++ items).map (rowOf functions) := by
  induction items generalizing done rows with
  | nil => rw [List.append_nil, ← hRows, List.zipIdx_nil, List.foldl_nil]
  | cons item items ih =>
    have hLength : done.length = (vectorRows rows).length := by rw [hRows, List.length_map]
    obtain ⟨hInserted, -⟩ := rows_itemInserted functions rows item hLength.le
    have hDone : vectorRows (itemInserted functions item done.length rows) = (done ++ [item]).map (rowOf functions) := by
      rw [hInserted, hLength, List.insertIdx_length_self, hRows, List.map_append, List.map_singleton]
    have hRest := ih (done ++ [item]) hDone
    rw [List.length_append, List.length_singleton, List.append_assoc, List.singleton_append] at hRest
    rw [List.zipIdx_cons, List.foldl_cons]
    exact hRest

theorem vectorRows_insertCustom (items : List Cell) {index : Nat} (hIndex : index ≤ rows.length) :
    vectorRows (rows.insertIdx index ⟨items, none, true⟩) = vectorRows rows := by
  have hInserted := CircularBuffer.insertIdx_length_append (rows.take index) (rows.drop index)
    (⟨items, none, true⟩ : Row T Cell)
  rw [List.take_append_drop, List.length_take, Nat.min_eq_left hIndex] at hInserted
  have hCustom : vectorRows (⟨items, none, true⟩ :: rows.drop index) = vectorRows (rows.drop index) := rfl
  rw [hInserted, vectorRows_append, hCustom, ← vectorRows_append, List.take_append_drop]

theorem Starts.mirrors (h : Starts functions model) : Mirrors functions model := by
  induction h with
  | initialized vec =>
    have hRows : vectorRows (SignalVectorModel.initialized functions vec).rows_ = vec.items_.map (rowOf functions) :=
      rows_initialized [] vec.items_ rfl
    rw [Mirrors, hRows, List.forall₂_map_left_iff]
    exact List.forall₂_same.mpr fun item _ => .inl rfl
  | insertCustomRow h items hIndex ih =>
    rw [Mirrors, SignalVectorModel.insertCustomRow, vectorRows_insertCustom _ hIndex]
    exact ih

/-- In a run whose edits keep the items of a sorted vector in their places, the rows that are not custom correspond to
the items in every state. -/
theorem mirrors_of_run (hStart : Starts functions model) {events : List (Event T Value Role)}
    (hAdmissible : AllSteps (step functions) Admissible model events)
    (hPlace : AllSteps (step functions) (KeepsPlace functions) model events) :
    ∀ reached, reached <+: events → Mirrors functions (reached.foldl (step functions) model) ∧
      customRows (reached.foldl (step functions) model).rows_ = customRows model.rows_ := by
  intro reached hPrefix
  let inv (state : SignalVectorModel T Cell) : Prop :=
    Mirrors functions state ∧ customRows state.rows_ = customRows model.rows_
  have hStarts : inv model := ⟨hStart.mirrors, rfl⟩
  refine (hAdmissible.and hPlace).invariant_reached hPrefix hStarts ?_
  rintro state event ⟨hMirrors, hCustom⟩ ⟨hEvent, hKeeps⟩
  obtain ⟨hNext, hNextCustom⟩ := hMirrors.step hEvent hKeeps
  exact ⟨hNext, hNextCustom.trans hCustom⟩

def numberFunctions : RowFunctions Int Int Int Unit where
  columnCount_ := 1
  newItem := 0
  setData value _ _ := value
  getItemFromRow items _ := items.headD 0
  getRowFromItem item _ := [item]

def sortedNumbers (items : List Int) : SignalVector Int := ⟨items, some fun a b => a < b⟩

theorem mirrors_of_run_edited :
    Mirrors numberFunctions ([.setData 2 0 6 (), .moveRows 0 3].foldl (step numberFunctions)
        ((initialized numberFunctions (sortedNumbers [1, 5, 9])).insertCustomRow [] 1)) ∧
      customRows ([.setData 2 0 6 (), .moveRows 0 3].foldl (step numberFunctions)
        ((initialized numberFunctions (sortedNumbers [1, 5, 9])).insertCustomRow [] 1)).rows_ = [⟨[], none, true⟩] := by
  apply mirrors_of_run (.insertCustomRow (.initialized (sortedNumbers [1, 5, 9])) [] (by decide)) _ _ _ (List.prefix_refl _)
  · refine ⟨?_, ⟨⟨[1], some 1, false⟩, by decide, rfl⟩, trivial⟩
    rintro _ ⟨⟩
    rfl
  · refine ⟨?_, trivial, trivial⟩
    rintro _ _ _ ⟨⟩ - ⟨⟩ ⟨⟩
    decide

theorem not_mirrors_moved :
    ¬∀ (model : SignalVectorModel Int Int) (events : List (Event Int Int Unit)), Starts numberFunctions model →
      AllSteps (step numberFunctions) Admissible model events →
      ∀ reached, reached <+: events → Mirrors numberFunctions (reached.foldl (step numberFunctions) model) ∧
        customRows (reached.foldl (step numberFunctions) model).rows_ = customRows model.rows_ := by
  intro hAll
  obtain ⟨hMirrors, -⟩ := hAll _ [.setData 0 0 3 ()] (.initialized (sortedNumbers [1, 2]))
    ⟨by rintro _ ⟨⟩; rfl, trivial⟩ _ (List.prefix_refl _)
  cases hMirrors with
  | cons hFirst _ =>
    rcases hFirst with hRow | ⟨original, -, hItem⟩
    · exact absurd hRow (by decide)
    · have hEqual : (3 : Int) = 2 := hItem
      exact absurd hEqual (by decide)

end Chatterino.SignalVectorModel
