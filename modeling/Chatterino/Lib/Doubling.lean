import Mathlib.Data.List.Chain

/-! # A character that is doubled

A text with each pair of a character replaced by one of it, from the left. When texts are put together, the first
character of a text may pair with the last one of the text before it.
-/

namespace Lib

universe u

variable {α : Type u} [DecidableEq α] (c : α)

def undouble : List α → List α
  | [] => []
  | [x] => [x]
  | x :: y :: s => if x = c ∧ y = c then c :: undouble s else x :: undouble (y :: s)

def undoubleFrom : (isOpen : Bool) → List α → List α
  | _, [] => []
  | isOpen, x :: s =>
    if x = c then
      if isOpen then undoubleFrom false s else c :: undoubleFrom true s
    else x :: undoubleFrom false s

def opens : (isOpen : Bool) → List α → Bool
  | isOpen, [] => isOpen
  | isOpen, x :: s => opens (if x = c then !isOpen else false) s

def LeadsEven : List α → Prop
  | [] => True
  | x :: s => x = c → ¬LeadsEven s

variable {c}

theorem undoubleFrom_false_self (s : List α) : undoubleFrom c false (c :: s) = c :: undoubleFrom c true s := if_pos rfl

theorem undoubleFrom_true_self (s : List α) : undoubleFrom c true (c :: s) = undoubleFrom c false s := if_pos rfl

theorem undoubleFrom_cons_of_ne {x : α} (h : x ≠ c) (isOpen : Bool) (s : List α) :
    undoubleFrom c isOpen (x :: s) = x :: undoubleFrom c false s := if_neg h

theorem undouble_eq (s : List α) : undouble c s = undoubleFrom c false s := by
  induction s using undouble.induct c with
  | case1 => rfl
  | case2 x =>
    by_cases hx : x = c
    · subst hx
      exact (undoubleFrom_false_self []).symm
    · exact (undoubleFrom_cons_of_ne hx false []).symm
  | case3 x y s h ih =>
    obtain ⟨rfl, rfl⟩ := h
    rw [undouble, if_pos ⟨rfl, rfl⟩, ih, undoubleFrom_false_self, undoubleFrom_true_self]
  | case4 x y s h ih =>
    rw [undouble, if_neg h, ih]
    by_cases hx : x = c
    · subst hx
      have hy : y ≠ x := fun hy => h ⟨rfl, hy⟩
      rw [undoubleFrom_false_self, undoubleFrom_cons_of_ne hy, undoubleFrom_cons_of_ne hy]
    · rw [undoubleFrom_cons_of_ne hx]

theorem undoubleFrom_append (isOpen : Bool) (s t : List α) :
    undoubleFrom c isOpen (s ++ t) = undoubleFrom c isOpen s ++ undoubleFrom c (opens c isOpen s) t := by
  induction s generalizing isOpen with
  | nil => rfl
  | cons x s ih =>
    by_cases hx : x = c
    · subst hx
      cases isOpen with
      | true => rw [List.cons_append, undoubleFrom_true_self, undoubleFrom_true_self, ih, opens, if_pos rfl]; rfl
      | false => rw [List.cons_append, undoubleFrom_false_self, undoubleFrom_false_self, ih, opens, if_pos rfl]; rfl
    · rw [List.cons_append, undoubleFrom_cons_of_ne hx, undoubleFrom_cons_of_ne hx, ih, opens, if_neg hx]
      rfl

theorem opens_append (isOpen : Bool) (s t : List α) : opens c isOpen (s ++ t) = opens c (opens c isOpen s) t := by
  induction s generalizing isOpen with
  | nil => rfl
  | cons x s ih => exact ih _

theorem opens_concat_of_ne {x : α} (h : x ≠ c) (isOpen : Bool) (s : List α) : opens c isOpen (s ++ [x]) = false := by
  rw [opens_append, opens, if_neg h]
  rfl

theorem undoubleFrom_true (s : List α) : (LeadsEven c s → undoubleFrom c true s = undoubleFrom c false s) ∧
    (¬LeadsEven c s → undoubleFrom c false s = c :: undoubleFrom c true s) := by
  induction s with
  | nil => exact ⟨fun _ => rfl, fun h => absurd trivial h⟩
  | cons x s ih =>
    obtain ⟨hEven, hOdd⟩ := ih
    by_cases hx : x = c
    · subst hx
      rw [undoubleFrom_true_self, undoubleFrom_false_self]
      constructor
      · intro h
        exact hOdd (h rfl)
      · intro h
        have hSame := hEven (not_not.mp fun hNot => h fun _ => hNot)
        rw [hSame]
    · rw [undoubleFrom_cons_of_ne hx, undoubleFrom_cons_of_ne hx]
      exact ⟨fun _ => rfl, fun h => absurd (fun hEq => absurd hEq hx) h⟩

theorem length_undoubleFrom_le_undouble (isOpen : Bool) (s : List α) :
    (undoubleFrom c isOpen s).length ≤ (undouble c s).length := by
  rw [undouble_eq]
  cases isOpen with
  | false => exact le_rfl
  | true =>
    obtain ⟨hEven, hOdd⟩ := @undoubleFrom_true _ _ c s
    by_cases h : LeadsEven c s
    · rw [hEven h]
    · rw [hOdd h]
      exact Nat.le_succ _

theorem undoubleFrom_eq_undouble_iff (isOpen : Bool) (s : List α) :
    undoubleFrom c isOpen s = undouble c s ↔ (isOpen = true → LeadsEven c s) := by
  rw [undouble_eq]
  cases isOpen with
  | false => exact iff_of_true rfl fun h => absurd h Bool.false_ne_true
  | true =>
    rw [imp_iff_right rfl]
    obtain ⟨hEven, hOdd⟩ := @undoubleFrom_true _ _ c s
    refine ⟨fun h => ?_, hEven⟩
    by_contra hNot
    have hLength := congrArg List.length (hOdd hNot)
    rw [h, List.length_cons] at hLength
    omega

theorem length_undoubleFrom_le (isOpen : Bool) (s : List α) : (undoubleFrom c isOpen s).length ≤ s.length := by
  induction s generalizing isOpen with
  | nil => exact le_rfl
  | cons x s ih =>
    by_cases hx : x = c
    · subst hx
      cases isOpen with
      | true =>
        rw [undoubleFrom_true_self]
        exact (ih false).trans (Nat.le_succ _)
      | false =>
        rw [undoubleFrom_false_self]
        exact Nat.succ_le_succ (ih true)
    · rw [undoubleFrom_cons_of_ne hx]
      exact Nat.succ_le_succ (ih false)

def Single (c : α) (s : List α) : Prop := s.IsChain fun x y => ¬(x = c ∧ y = c)

omit [DecidableEq α] in
theorem single_cons_of_ne {x : α} (h : x ≠ c) (s : List α) : Single c (x :: s) ↔ Single c s := by
  cases s with
  | nil => exact iff_of_true (List.isChain_singleton x) List.isChain_nil
  | cons y s =>
    rw [Single, List.isChain_cons_cons]
    exact and_iff_right fun hBoth => h hBoth.1

theorem undoubleFrom_eq_self_iff (isOpen : Bool) (s : List α) :
    undoubleFrom c isOpen s = s ↔ Single c (if isOpen = true then c :: s else s) := by
  induction s generalizing isOpen with
  | nil =>
    refine iff_of_true rfl ?_
    split_ifs
    · exact List.isChain_singleton c
    · exact List.isChain_nil
  | cons x s ih =>
    by_cases hx : x = c
    · subst hx
      cases isOpen with
      | true =>
        rw [undoubleFrom_true_self, if_pos rfl]
        refine iff_of_false ?_ ?_
        · intro h
          have hLength := congrArg List.length h
          have hLe := @length_undoubleFrom_le _ _ x false s
          rw [hLength, List.length_cons] at hLe
          omega
        · intro h
          exact (List.isChain_cons_cons.mp h).1 ⟨rfl, rfl⟩
      | false =>
        rw [undoubleFrom_false_self, List.cons_inj_right, ih true, if_pos rfl]
        rfl
    · rw [undoubleFrom_cons_of_ne hx, List.cons_inj_right, ih false]
      cases isOpen with
      | true =>
        have hHead : Single c (c :: x :: s) ↔ Single c (x :: s) := by
          rw [Single, List.isChain_cons_cons]
          exact and_iff_right fun hBoth => hx hBoth.2
        rw [if_pos rfl, hHead, single_cons_of_ne hx]
        rfl
      | false => exact (single_cons_of_ne hx s).symm

theorem undouble_ne_nil {s : List α} (h : s ≠ []) : undouble c s ≠ [] := by
  cases s with
  | nil => exact absurd rfl h
  | cons x s =>
    rw [undouble_eq]
    by_cases hx : x = c
    · subst hx
      rw [undoubleFrom_false_self]
      exact List.cons_ne_nil _ _
    · rw [undoubleFrom_cons_of_ne hx]
      exact List.cons_ne_nil _ _

omit [DecidableEq α] in
theorem append_eq_append_iff_of_length_le {s s' t t' : List α} (hLeft : s.length ≤ s'.length) (hRight : t.length ≤ t'.length) :
    s ++ t = s' ++ t' ↔ s = s' ∧ t = t' := by
  constructor
  · intro h
    have hLength := congrArg List.length h
    rw [List.length_append, List.length_append] at hLength
    exact List.append_inj h (by omega)
  · rintro ⟨rfl, rfl⟩
    rfl

end Lib
