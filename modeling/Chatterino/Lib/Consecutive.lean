import Mathlib.Data.List.Basic

/-! # Consecutive ranges

Ranges of indices of which each starts where the one before ends, and what sorting within them keeps.
-/

namespace Lib

universe u

variable {α : Type u} {first last : α → Nat}

inductive Consecutive (first last : α → Nat) : Nat → List α → Nat → Prop
  | nil (i : Nat) : Consecutive first last i [] i
  | cons {i j : Nat} {x : α} {xs : List α} (hFirst : first x = i) (hLe : first x ≤ last x)
    (h : Consecutive first last (last x) xs j) : Consecutive first last i (x :: xs) j

namespace Consecutive

variable {xs ys : List α} {i j k : Nat}

theorem le (h : Consecutive first last i xs j) : i ≤ j := by
  induction h with
  | nil => exact Nat.le_refl _
  | cons hFirst hLe _ ih => omega

theorem append (h : Consecutive first last i xs j) (h' : Consecutive first last j ys k) :
    Consecutive first last i (xs ++ ys) k := by
  induction h with
  | nil => exact h'
  | cons hFirst hLe _ ih => exact .cons hFirst hLe (ih h')

theorem concat (h : Consecutive first last i xs j) {x : α} (hFirst : first x = j) (hLe : first x ≤ last x) :
    Consecutive first last i (xs ++ [x]) (last x) :=
  h.append (.cons hFirst hLe (.nil _))

theorem bounds (h : Consecutive first last i xs j) {x : α} (hMem : x ∈ xs) :
    i ≤ first x ∧ first x ≤ last x ∧ last x ≤ j := by
  induction h with
  | nil => cases hMem
  | cons hFirst hLe hRest ih =>
    rcases List.mem_cons.mp hMem with rfl | hTail
    · exact ⟨Nat.le_of_eq hFirst.symm, hLe, hRest.le⟩
    · obtain ⟨hStart, hRange, hEnd⟩ := ih hTail
      exact ⟨by omega, hRange, hEnd⟩

theorem last_eq (h : Consecutive first last i xs j) {x : α} (hMem : x ∈ xs) :
    last x = j ∨ ∃ y ∈ xs, first y = last x := by
  induction h with
  | nil => cases hMem
  | @cons i j x xs hFirst hLe hRest ih =>
    rcases List.mem_cons.mp hMem with rfl | hTail
    · cases hRest with
      | nil => exact .inl rfl
      | cons hNext _ _ => exact .inr ⟨_, List.mem_cons_of_mem _ List.mem_cons_self, hNext⟩
    · rcases ih hTail with hEnd | ⟨y, hMem, hNext⟩
      · exact .inl hEnd
      · exact .inr ⟨y, List.mem_cons_of_mem _ hMem, hNext⟩

theorem exists_last (h : Consecutive first last i xs j) (hLt : i < j) : ∃ x ∈ xs, last x = j := by
  induction h with
  | nil => exact absurd hLt (Nat.lt_irrefl _)
  | @cons i j x xs hFirst hLe hRest ih =>
    rcases Nat.lt_or_ge (last x) j with hBefore | hEnd
    · obtain ⟨y, hMem, hLast⟩ := ih hBefore
      exact ⟨y, List.mem_cons_of_mem _ hMem, hLast⟩
    · exact ⟨x, List.mem_cons_self, Nat.le_antisymm hRest.le hEnd⟩

end Consecutive

theorem filter_eq_take_of_sorted {key : α → Nat} {list : List α} (h : list.Pairwise fun x y => key x ≤ key y) (k : Nat) :
    list.filter (fun x => key x < k) = list.take (list.countP fun x => key x < k) := by
  induction list with
  | nil => rfl
  | cons x list ih =>
    obtain ⟨hFirst, hRest⟩ := List.pairwise_cons.mp h
    by_cases hKey : key x < k
    · simp only [List.filter_cons, List.countP_cons, hKey, decide_true, if_true, List.take_succ_cons, ih hRest]
    · have hNone : ∀ y ∈ x :: list, ¬decide (key y < k) = true := by
        intro y hMem
        rw [decide_eq_true_eq]
        rcases List.mem_cons.mp hMem with rfl | hTail
        · exact hKey
        · exact fun hLt => hKey (Nat.lt_of_le_of_lt (hFirst y hTail) hLt)
      rw [List.filter_eq_nil_iff.mpr hNone, List.countP_eq_zero.mpr hNone, List.take_zero]

theorem take_perm_of_sorted {key : α → Nat} {list list' : List α} (hPerm : list'.Perm list)
    (hSorted : list'.Pairwise fun x y => key x ≤ key y) {index k : Nat} (hIndex : index ≤ list.length)
    (hBefore : ∀ x ∈ list.take index, key x < k) (hFrom : ∀ x ∈ list.drop index, k ≤ key x) :
    (list'.take index).Perm (list.take index) := by
  have hFilter : list.filter (fun x => key x < k) = list.take index := by
    have hSplit : list.filter (fun x => key x < k) =
        (list.take index).filter (fun x => key x < k) ++ (list.drop index).filter fun x => key x < k := by
      rw [← List.filter_append, List.take_append_drop]
    rw [hSplit, List.filter_eq_self.mpr fun x hMem => decide_eq_true (hBefore x hMem),
      List.filter_eq_nil_iff.mpr fun x hMem => by simpa using hFrom x hMem, List.append_nil]
  have hCount : list'.countP (fun x => key x < k) = index := by
    rw [hPerm.countP_eq, List.countP_eq_length_filter, hFilter, List.length_take, Nat.min_eq_left hIndex]
  have hSame := hPerm.filter fun x => key x < k
  rwa [filter_eq_take_of_sorted hSorted, hCount, hFilter] at hSame

end Lib
