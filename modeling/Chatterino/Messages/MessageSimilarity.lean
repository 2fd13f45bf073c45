import Chatterino.Lib.CommonSubstring
import Chatterino.Lib.FloatRounding
import Chatterino.Qt.QString

/-! # Similar messages

Two texts are compared by the longest part they share. The table of the parts is filled row by row.
-/

namespace Chatterino.MessageSimilarity

open Lib

structure Table where
  tree : Nat → Nat → Nat := fun _ _ => 0
  z : Nat := 0

def Table.set (table : Table) (i j value : Nat) : Table :=
  { table with tree := fun i' j' => if i' = i ∧ j' = j then value else table.tree i' j' }

variable (str1 str2 : QString)

def Table.visit (table : Table) (i j : Nat) : Table :=
  if str1[i]? = str2[j]? then
    let value := if i = 0 ∨ j = 0 then 1 else table.tree (i - 1) (j - 1) + 1
    { table.set i j value with z := max value table.z }
  else table.set i j 0

def Table.visitRow (table : Table) (i : Nat) : Table :=
  (List.range str2.length).foldl (fun table j => table.visit str1 str2 i j) table

def fillTable : Table := (List.range str1.length).foldl (fun table i => table.visitRow str1 str2 i) {}

/-- `float` -/
def binary32 (x : ℚ) : ℚ := roundBits 24 x

def relativeSimilarity : ℚ :=
  let z := (fillTable str1 str2).z
  if z = 0 then 0 else binary32 (binary32 z / binary32 (max 1 (max str1.length str2.length) : Nat))

variable {str1 str2}

def IsVisited (columns i j : Nat) (i' j' : Nat) : Prop := i' < i ∧ j' < columns ∨ i' = i ∧ j' < j

/-- The visited cells have their values, and the maximum is the largest of them. -/
structure Filled (str1 str2 : QString) (i j : Nat) (table : Table) : Prop where
  tree : ∀ i' j', IsVisited str2.length i j i' j' → table.tree i' j' = commonSuffix str1 str2 (i' + 1) (j' + 1)
  bound : ∀ i' j', IsVisited str2.length i j i' j' → commonSuffix str1 str2 (i' + 1) (j' + 1) ≤ table.z
  reached : table.z ∈ commonLengths str1 str2

theorem zero_mem_commonLengths (a b : QString) : 0 ∈ commonLengths a b :=
  ⟨[], List.nil_infix, List.nil_infix, rfl⟩

theorem filled_empty : Filled str1 str2 0 0 {} where
  tree i' j' h := by
    rcases h with ⟨h, -⟩ | ⟨-, h⟩ <;> exact absurd h (Nat.not_lt_zero _)
  bound i' j' h := by
    rcases h with ⟨h, -⟩ | ⟨-, h⟩ <;> exact absurd h (Nat.not_lt_zero _)
  reached := zero_mem_commonLengths _ _

section visit

variable {i j : Nat} {table : Table}

theorem Filled.value_eq (h : Filled str1 str2 i j table) (hj : j < str2.length) :
    (if i = 0 ∨ j = 0 then 1 else table.tree (i - 1) (j - 1) + 1) = commonSuffix str1 str2 i j + 1 := by
  split_ifs with hBorder
  · rcases hBorder with rfl | rfl
    · rw [commonSuffix_zero_left]
    · rw [commonSuffix_zero_right]
  · rw [h.tree _ _ (Or.inl ⟨by omega, by omega⟩), Nat.sub_add_cancel (by omega), Nat.sub_add_cancel (by omega)]

theorem Filled.set (h : Filled str1 str2 i j table) {z : Nat} (hBound : table.z ≤ z)
    (hCell : commonSuffix str1 str2 (i + 1) (j + 1) ≤ z) (hReached : z ∈ commonLengths str1 str2) :
    Filled str1 str2 i (j + 1) { table.set i j (commonSuffix str1 str2 (i + 1) (j + 1)) with z := z } where
  tree i' j' hVisited := by
    dsimp only [Table.set]
    split_ifs with hSame
    · rw [hSame.1, hSame.2]
    · refine h.tree i' j' (hVisited.imp_right fun hHere => ⟨hHere.1, ?_⟩)
      omega
  bound i' j' hVisited := by
    by_cases hSame : i' = i ∧ j' = j
    · rw [hSame.1, hSame.2]
      exact hCell
    · refine (h.bound i' j' (hVisited.imp_right fun hHere => ⟨hHere.1, ?_⟩)).trans hBound
      omega
  reached := hReached

theorem Filled.visit (h : Filled str1 str2 i j table) (hi : i < str1.length) (hj : j < str2.length) :
    Filled str1 str2 i (j + 1) (table.visit str1 str2 i j) := by
  have hMem : commonSuffix str1 str2 (i + 1) (j + 1) ∈ commonLengths str1 str2 :=
    mem_commonLengths_iff.mpr ⟨i + 1, hi, j + 1, hj, le_rfl⟩
  have hCell := commonSuffix_succ str1 str2 i j
  by_cases hSame : str1[i]? = str2[j]?
  · rw [Table.visit, if_pos hSame]
    dsimp only
    rw [h.value_eq hj]
    rw [if_pos hSame] at hCell
    rw [← hCell]
    refine h.set (le_max_right _ _) (le_max_left _ _) ?_
    rcases le_total (commonSuffix str1 str2 (i + 1) (j + 1)) table.z with hLe | hLe
    · rw [max_eq_right hLe]
      exact h.reached
    · rw [max_eq_left hLe]
      exact hMem
  · rw [Table.visit, if_neg hSame]
    rw [if_neg hSame] at hCell
    have hSet := h.set le_rfl (hCell.trans_le (Nat.zero_le _)) h.reached
    rw [hCell] at hSet
    exact hSet

theorem Filled.nextRow (h : Filled str1 str2 i str2.length table) : Filled str1 str2 (i + 1) 0 table := by
  have hVisited {i' j' : Nat} (hNext : IsVisited str2.length (i + 1) 0 i' j') : IsVisited str2.length i str2.length i' j' := by
    rcases hNext with ⟨hRow, hColumn⟩ | ⟨-, hColumn⟩
    · rcases Nat.lt_succ_iff_lt_or_eq.mp hRow with hRow | hRow
      · exact Or.inl ⟨hRow, hColumn⟩
      · exact Or.inr ⟨hRow, hColumn⟩
    · exact absurd hColumn (Nat.not_lt_zero _)
  exact ⟨fun i' j' hNext => h.tree i' j' (hVisited hNext), fun i' j' hNext => h.bound i' j' (hVisited hNext), h.reached⟩

theorem Filled.visitRow (h : Filled str1 str2 i 0 table) (hi : i < str1.length) :
    Filled str1 str2 (i + 1) 0 (table.visitRow str1 str2 i) := by
  have hPrefix (n : Nat) (hn : n ≤ str2.length) :
      Filled str1 str2 i n ((List.range n).foldl (fun table j => table.visit str1 str2 i j) table) := by
    induction n with
    | zero => exact h
    | succ n ih =>
      rw [List.range_succ, List.foldl_append]
      exact (ih (Nat.le_of_succ_le hn)).visit hi hn
  exact (hPrefix str2.length le_rfl).nextRow

end visit

theorem filled_fillTable (str1 str2 : QString) : Filled str1 str2 str1.length 0 (fillTable str1 str2) := by
  have hPrefix (n : Nat) (hn : n ≤ str1.length) :
      Filled str1 str2 n 0 ((List.range n).foldl (fun table i => table.visitRow str1 str2 i) {}) := by
    induction n with
    | zero => exact filled_empty
    | succ n ih =>
      rw [List.range_succ, List.foldl_append]
      exact (ih (Nat.le_of_succ_le hn)).visitRow hn
  exact hPrefix str1.length le_rfl

theorem isGreatest_z (str1 str2 : QString) : IsGreatest (commonLengths str1 str2) (fillTable str1 str2).z := by
  have hFilled := filled_fillTable str1 str2
  refine ⟨hFilled.reached, fun n hn => ?_⟩
  obtain ⟨i, hi, j, hj, hLe⟩ := mem_commonLengths_iff.mp hn
  cases i with
  | zero =>
    rw [commonSuffix_zero_left] at hLe
    omega
  | succ i =>
    cases j with
    | zero =>
      rw [commonSuffix_zero_right] at hLe
      omega
    | succ j => exact hLe.trans (hFilled.bound i j (Or.inl ⟨hi, hj⟩))

theorem z_comm (str1 str2 : QString) : (fillTable str1 str2).z = (fillTable str2 str1).z :=
  (isGreatest_z str1 str2).unique (commonLengths_comm str2 str1 ▸ isGreatest_z str2 str1)

theorem z_self (str : QString) : (fillTable str str).z = str.length :=
  (isGreatest_z str str).unique (isGreatest_commonLengths_self str)

theorem z_le (str1 str2 : QString) : (fillTable str1 str2).z ≤ max 1 (max str1.length str2.length) := by
  have hLe := (le_length_of_mem_commonLengths (isGreatest_z str1 str2).1).1
  omega

theorem relativeSimilarity_comm (str1 str2 : QString) : relativeSimilarity str1 str2 = relativeSimilarity str2 str1 := by
  rw [relativeSimilarity, relativeSimilarity, z_comm str1 str2, max_comm str1.length]

theorem binary32_nonneg {x : ℚ} (h : 0 ≤ x) : 0 ≤ binary32 x := by
  rw [← roundBits_zero 24]
  exact roundBits_mono (by norm_num) le_rfl h

theorem relativeSimilarity_nonneg (str1 str2 : QString) : 0 ≤ relativeSimilarity str1 str2 := by
  unfold relativeSimilarity
  dsimp only
  split_ifs
  · exact le_rfl
  · exact binary32_nonneg (div_nonneg (binary32_nonneg (Nat.cast_nonneg _)) (binary32_nonneg (Nat.cast_nonneg _)))

theorem relativeSimilarity_le_one (str1 str2 : QString) : relativeSimilarity str1 str2 ≤ 1 := by
  unfold relativeSimilarity
  dsimp only
  split_ifs
  · exact zero_le_one
  · have hQuotient : binary32 (fillTable str1 str2).z / binary32 (max 1 (max str1.length str2.length) : Nat) ≤ 1 :=
      div_le_one_of_le₀ (roundBits_mono (by norm_num) (Nat.cast_nonneg _) (Nat.cast_le.mpr (z_le str1 str2)))
        (binary32_nonneg (Nat.cast_nonneg _))
    rw [← roundBits_one (by norm_num : 0 < 24)]
    exact roundBits_mono (by norm_num)
      (div_nonneg (binary32_nonneg (Nat.cast_nonneg _)) (binary32_nonneg (Nat.cast_nonneg _))) hQuotient

theorem relativeSimilarity_self {str : QString} (h : str ≠ []) : relativeSimilarity str str = 1 := by
  have hLength := List.length_pos_iff.mpr h
  have hPos : 0 < binary32 str.length := roundBits_pos (by norm_num) (Nat.cast_pos.mpr hLength)
  rw [relativeSimilarity, z_self, if_neg hLength.ne', max_self, max_eq_right hLength, div_self hPos.ne']
  exact roundBits_one (by norm_num)

theorem relativeSimilarity_eq (str1 str2 : QString) : relativeSimilarity str1 str2 = if str1 = [] ∨ str2 = [] then 0
    else binary32 (binary32 (fillTable str1 str2).z / binary32 (max str1.length str2.length : Nat)) := by
  have hLe := le_length_of_mem_commonLengths (isGreatest_z str1 str2).1
  unfold relativeSimilarity
  dsimp only
  split_ifs with hZero hEmpty hEmpty
  · rfl
  · rw [hZero, Nat.cast_zero, binary32, binary32, roundBits_zero, zero_div, roundBits_zero]
  · have hNil : str1.length = 0 ∨ str2.length = 0 := hEmpty.imp List.length_eq_zero_iff.mpr List.length_eq_zero_iff.mpr
    omega
  · have hPos : 0 < str1.length := List.length_pos_iff.mpr fun h => hEmpty (Or.inl h)
    rw [max_eq_right (by omega : 1 ≤ max str1.length str2.length)]

theorem relativeSimilarity_of_short {str1 str2 : QString} (h : max str1.length str2.length < 2 ^ 24) :
    relativeSimilarity str1 str2 = binary32 ((fillTable str1 str2).z / (max str1.length str2.length : Nat)) := by
  have hLe := le_length_of_mem_commonLengths (isGreatest_z str1 str2).1
  have hZ : binary32 (fillTable str1 str2).z = (fillTable str1 str2).z := roundBits_natCast (by omega)
  have hMax : binary32 (max str1.length str2.length : Nat) = (max str1.length str2.length : Nat) := roundBits_natCast h
  rw [relativeSimilarity_eq, hZ, hMax]
  split_ifs with hEmpty
  · have hNil : str1.length = 0 ∨ str2.length = 0 := hEmpty.imp List.length_eq_zero_iff.mpr List.length_eq_zero_iff.mpr
    rw [show (fillTable str1 str2).z = 0 by omega, Nat.cast_zero, zero_div]
    exact (roundBits_zero 24).symm
  · rfl

/-- The similarity is the length of a longest common substring over the longer length, as far as a float has it. -/
theorem relativeSimilarity_eq_longest (str1 str2 : QString) :
    IsGreatest { n | ∃ w, w <:+: str1 ∧ w <:+: str2 ∧ w.length = n } (fillTable str1 str2).z ∧
    relativeSimilarity str1 str2 = (if str1 = [] ∨ str2 = [] then 0
      else binary32 (binary32 (fillTable str1 str2).z / binary32 (max str1.length str2.length : Nat))) ∧
    (max str1.length str2.length < 2 ^ 24 →
      relativeSimilarity str1 str2 = binary32 ((fillTable str1 str2).z / (max str1.length str2.length : Nat))) ∧
    0 ≤ relativeSimilarity str1 str2 ∧ relativeSimilarity str1 str2 ≤ 1 ∧
    relativeSimilarity str1 str2 = relativeSimilarity str2 str1 ∧
    (str1 ≠ [] → relativeSimilarity str1 str1 = 1) :=
  ⟨isGreatest_z str1 str2, relativeSimilarity_eq str1 str2, relativeSimilarity_of_short,
    relativeSimilarity_nonneg str1 str2, relativeSimilarity_le_one str1 str2, relativeSimilarity_comm str1 str2,
    relativeSimilarity_self⟩

end Chatterino.MessageSimilarity
