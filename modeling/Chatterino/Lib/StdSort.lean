import Mathlib.Data.List.Destutter
import Mathlib.Data.List.Sort
import Mathlib.Data.Prod.Lex

/-! # Sorting by a comparison

What a sort promises of a comparison that is a strict weak order, and a comparison by a key and then another.
-/

namespace Lib

universe u

variable {α : Type u}

def IsComparison (comp : α → α → Bool) : Prop := IsStrictWeakOrder α fun a b => comp a b = true

theorem IsComparison.not_lt_trans {comp : α → α → Bool} (h : IsComparison comp) {a b c : α} (hab : comp b a = false)
    (hbc : comp c b = false) : comp c a = false := by
  rw [← Bool.not_eq_true] at hab hbc ⊢
  intro hca
  have hab' : ¬comp a b = true := fun hLess => hbc (h.trans c a b hca hLess)
  have hbc' : ¬comp b c = true := fun hLess => hab (h.trans b c a hLess hca)
  exact (h.incomp_trans a b c ⟨hab', hab⟩ ⟨hbc', hbc⟩).2 hca

/-- A sort permutes the elements so that none is in front of a smaller one. Equal ones are in any order. -/
structure StdSort (α : Type u) where
  sort : (α → α → Bool) → List α → List α
  perm : ∀ comp list, IsComparison comp → (sort comp list).Perm list
  sorted : ∀ comp list, IsComparison comp → (sort comp list).Pairwise fun a b => comp b a = false

/-- Merging is one. -/
instance : Inhabited (StdSort α) where
  default := {
    sort := fun comp list => list.mergeSort fun a b => !comp b a
    perm := fun _ list _ => List.mergeSort_perm list _
    sorted := by
      intro comp list hComp
      have hSorted := @List.pairwise_mergeSort α (fun a b => !comp b a) ?_ ?_ list
      · apply hSorted.imp
        intro a b h
        rwa [Bool.not_eq_true'] at h
      · intro a b c hab hbc
        rw [Bool.not_eq_true'] at hab hbc ⊢
        exact hComp.not_lt_trans hab hbc
      · intro a b
        rw [Bool.or_eq_true, Bool.not_eq_true', Bool.not_eq_true']
        by_contra hBoth
        rw [not_or, Bool.not_eq_false, Bool.not_eq_false] at hBoth
        exact hComp.irrefl a (hComp.trans a b a hBoth.2 hBoth.1) }

theorem isComparison_of_keys {κ ι : Type} [LinearOrder κ] [LinearOrder ι] {comp : α → α → Bool} (first : α → κ)
    (second : α → ι) (h : ∀ a b, comp a b = true ↔ first a < first b ∨ first a = first b ∧ second a < second b) :
    IsComparison comp := by
  have hKey : (fun a b => comp a b = true) = Order.Preimage (fun a => toLex (first a, second a)) (· < ·) := by
    funext a b
    rw [Order.Preimage, Prod.Lex.toLex_lt_toLex, h]
  have hWeak : IsStrictWeakOrder (κ ×ₗ ι) (· < ·) := isStrictWeakOrder_of_isOrderConnected
  rw [IsComparison, hKey]
  infer_instance

section favouring

variable [DecidableEq α]

def favouringLe (favourite : α) (comp : α → α → Bool) (a b : α) : Bool :=
  !comp b a && (comp a b || decide (b = favourite → a = favourite))

theorem favouringLe_iff {favourite a b : α} {comp : α → α → Bool} : favouringLe favourite comp a b = true ↔
    comp b a = false ∧ (comp a b = true ∨ (b = favourite → a = favourite)) := by
  simp [favouringLe, imp_iff_not_or]

theorem pairwise_favouring (favourite : α) {comp : α → α → Bool} (hComp : IsComparison comp) (list : List α) :
    (list.mergeSort (favouringLe favourite comp)).Pairwise fun a b =>
      comp b a = false ∧ (comp a b = true ∨ (b = favourite → a = favourite)) := by
  refine (List.pairwise_mergeSort (fun a b c hab hbc => ?_) (fun a b => ?_) list).imp favouringLe_iff.mp
  · obtain ⟨hBA, hab⟩ := favouringLe_iff.mp hab
    obtain ⟨hCB, hbc⟩ := favouringLe_iff.mp hbc
    refine favouringLe_iff.mpr ⟨hComp.not_lt_trans hBA hCB, ?_⟩
    by_contra hNot
    obtain ⟨hNotLess, hNotFirst⟩ := not_or.mp hNot
    rw [Bool.not_eq_true] at hNotLess
    rcases hab with hLess | hFirst
    · exact Bool.false_ne_true ((hComp.not_lt_trans hCB hNotLess).symm.trans hLess)
    rcases hbc with hLess | hNext
    · exact Bool.false_ne_true ((hComp.not_lt_trans hNotLess hBA).symm.trans hLess)
    · exact hNotFirst fun h => hFirst (hNext h)
  · rw [Bool.or_eq_true, favouringLe_iff, favouringLe_iff]
    have hNotBoth : ¬(comp a b = true ∧ comp b a = true) := fun h => hComp.irrefl a (hComp.trans a b a h.1 h.2)
    cases hab : comp a b <;> cases hba : comp b a <;> simp_all
    tauto

/-- A sort that puts one element in front of those that are equal to it. -/
def StdSort.favouring (favourite : α) : StdSort α where
  sort comp list := list.mergeSort (favouringLe favourite comp)
  perm _ list _ := List.mergeSort_perm list _
  sorted _ list hComp := (pairwise_favouring favourite hComp list).imp And.left

end favouring

section unique

/-- The elements that are no duplicates of one in front of them. -/
def firsts (same : α → α → Bool) : List α → List α
  | [] => []
  | a :: list => a :: (firsts same list).filter fun b => !same a b

variable {same : α → α → Bool} {a x : α} {list : List α}

theorem firsts_sublist : (firsts same list).Sublist list := by
  induction list with
  | nil => exact List.Sublist.refl _
  | cons a list ih => exact (List.filter_sublist.trans ih).cons_cons a

/-- Of a sorted list, comparing each element with the one kept last keeps the first ones. -/
theorem destutter'_eq_firsts {κ : Type} [LinearOrder κ] [DecidableEq κ] {key : α → κ} {named : α → Bool}
    (hSorted : (a :: list).Pairwise fun a b => key b ≤ key a) :
    list.destutter' (fun a b => ¬(named a && decide (key a = key b)) = true) a =
      firsts (fun a b => named a && decide (key a = key b)) (a :: list) := by
  induction list generalizing a with
  | nil => rfl
  | cons b list ih =>
    obtain ⟨hHead, hTail⟩ := List.pairwise_cons.mp hSorted
    rw [firsts, firsts]
    by_cases hSame : (named a && decide (key a = key b)) = true
    · obtain ⟨hNamed, hKey⟩ : named a = true ∧ key a = key b := by simpa using hSame
      rw [List.destutter'_cons_neg _ (not_not.mpr hSame), ih (hSorted.sublist ((List.sublist_cons_self b list).cons_cons a)),
        firsts, List.filter_cons_of_neg (by simp [hNamed, hKey]), List.filter_filter]
      refine congrArg (a :: ·) (List.filter_congr fun c _ => ?_)
      rw [hNamed, hKey]
      cases named b <;> simp
    · rw [List.destutter'_cons_pos _ hSame, ih hTail, firsts, List.filter_cons_of_pos (by rwa [Bool.not_eq_true', ← Bool.not_eq_true])]
      refine congrArg (a :: b :: ·) (List.filter_eq_self.mpr fun c hMem => ?_).symm
      have hLe := (List.pairwise_cons.mp hTail).1 c (firsts_sublist.subset (List.mem_of_mem_filter hMem))
      rw [Bool.not_eq_true', Bool.and_eq_false_imp]
      intro hNamed
      refine decide_eq_false fun hKey => hSame ?_
      rw [hNamed, Bool.true_and]
      exact decide_eq_true (le_antisymm (hKey ▸ hLe) (hHead b List.mem_cons_self))

theorem exists_of_mem_firsts (h : x ∈ firsts same list) :
    ∃ before after, list = before ++ x :: after ∧ ∀ y ∈ before, same y x = false := by
  induction list with
  | nil => cases h
  | cons a list ih =>
    rcases List.mem_cons.mp h with rfl | h
    · exact ⟨[], list, rfl, List.forall_mem_nil _⟩
    · obtain ⟨hMem, hNew⟩ := List.mem_filter.mp h
      obtain ⟨before, after, rfl, hBefore⟩ := ih hMem
      exact ⟨a :: before, after, rfl, List.forall_mem_cons.mpr ⟨by simpa using hNew, hBefore⟩⟩

variable [DecidableEq α]

/-- An element without other duplicates stays once, if it is one of itself, and otherwise as often as it is there. -/
theorem count_firsts (hAlone : ∀ y ∈ list, same y x = true → y = x) :
    (firsts same list).count x = if same x x = true then min 1 (list.count x) else list.count x := by
  induction list with
  | nil => simp [firsts]
  | cons a list ih =>
    have hCount := ih fun y hMem => hAlone y (List.mem_cons_of_mem _ hMem)
    rw [firsts, List.count_cons, List.count_cons]
    cases hSame : same a x with
    | true =>
      obtain rfl := hAlone a List.mem_cons_self hSame
      rw [List.count_eq_zero_of_not_mem fun hMem => by simp [hSame] at hMem]
      simp [hSame]
    | false =>
      rw [List.count_filter (by simp [hSame]), hCount]
      by_cases hEq : a = x
      · subst hEq
        simp [hSame]
      · simp [hEq]

end unique

end Lib
