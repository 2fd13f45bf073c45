import Mathlib.Data.List.Forall2

/-! # Lists whose elements correspond

Inserting, removing and changing elements at the same place of two lists keeps them paired.
-/

namespace Lib

universe u v

variable {α : Type u} {β : Type v} {R : α → β → Prop} {as : List α} {bs : List β} {a : α} {b : β}

theorem forall₂_insertIdx (h : List.Forall₂ R as bs) (i : Nat) (hNew : R a b) :
    List.Forall₂ R (as.insertIdx i a) (bs.insertIdx i b) := by
  induction h generalizing i with
  | nil =>
    cases i with
    | zero => exact .cons hNew .nil
    | succ i => exact .nil
  | cons hHead hTail ih =>
    cases i with
    | zero => exact .cons hNew (.cons hHead hTail)
    | succ i => exact .cons hHead (ih i)

theorem forall₂_eraseIdx (h : List.Forall₂ R as bs) (i : Nat) :
    List.Forall₂ R (as.eraseIdx i) (bs.eraseIdx i) := by
  induction h generalizing i with
  | nil => exact .nil
  | cons hHead hTail ih =>
    cases i with
    | zero => exact hTail
    | succ i => exact .cons hHead (ih i)

theorem forall₂_set (h : List.Forall₂ R as bs) (i : Nat) (hNew : R a b) :
    List.Forall₂ R (as.set i a) (bs.set i b) := by
  induction h generalizing i with
  | nil => exact .nil
  | cons hHead hTail ih =>
    cases i with
    | zero => exact .cons hNew hTail
    | succ i => exact .cons hHead (ih i)

theorem rel_of_getElem? (h : List.Forall₂ R as bs) {i : Nat} (hItem : as[i]? = some a) :
    ∃ b, bs[i]? = some b ∧ R a b := by
  induction h generalizing i with
  | nil => cases hItem
  | cons hHead hTail ih =>
    cases i with
    | zero =>
      obtain rfl := Option.some.inj hItem
      exact ⟨_, rfl, hHead⟩
    | succ i => exact ih hItem

theorem rel_of_mem_right (h : List.Forall₂ R as bs) (hMem : b ∈ bs) : ∃ a ∈ as, R a b := by
  induction h with
  | nil => exact absurd hMem List.not_mem_nil
  | cons hHead hTail ih =>
    obtain rfl | hRest := List.mem_cons.mp hMem
    · exact ⟨_, List.mem_cons_self, hHead⟩
    · obtain ⟨a, hRestMem, hRel⟩ := ih hRest
      exact ⟨a, List.mem_cons_of_mem _ hRestMem, hRel⟩

end Lib
