import Mathlib.Order.Basic

/-! # Selections

A selection has a start and an end, as they were set, and the same two items in order.
-/

namespace Chatterino

structure SelectionItem where
  messageIndex : Nat := 0
  charIndex : Nat := 0
deriving DecidableEq, Repr

namespace SelectionItem

def lt (a b : SelectionItem) : Bool :=
  a.messageIndex < b.messageIndex || a.messageIndex = b.messageIndex && a.charIndex < b.charIndex

def gt (a b : SelectionItem) : Bool := a ≠ b && b.lt a

def shift (offset : Nat) (item : SelectionItem) : SelectionItem :=
  if item.messageIndex < offset then ⟨0, 0⟩ else { item with messageIndex := item.messageIndex - offset }

variable {a b : SelectionItem}

theorem lt_iff : a.lt b = true ↔
    a.messageIndex < b.messageIndex ∨ a.messageIndex = b.messageIndex ∧ a.charIndex < b.charIndex := by
  simp [lt]

theorem not_lt_of_lt_or_eq (h : a.lt b = true ∨ a = b) : ¬b.lt a = true := by
  obtain ⟨m, c⟩ := a
  obtain ⟨m', c'⟩ := b
  simp only [lt_iff, mk.injEq] at h ⊢
  omega

theorem gt_iff : a.gt b = true ↔ b.lt a = true := by
  rw [gt, Bool.and_eq_true, decide_eq_true_eq, and_iff_right_iff_imp]
  intro h hEq
  exact not_lt_of_lt_or_eq (.inr hEq) h

theorem lt_or_eq_of_not_lt (h : ¬b.lt a = true) : a.lt b = true ∨ a = b := by
  obtain ⟨m, c⟩ := a
  obtain ⟨m', c'⟩ := b
  simp only [lt_iff, mk.injEq] at h ⊢
  omega

@[simp] theorem shift_zero (item : SelectionItem) : item.shift 0 = item := rfl

theorem shift_shift (m n : Nat) (item : SelectionItem) : (item.shift m).shift n = item.shift (m + n) := by
  obtain ⟨messageIndex, charIndex⟩ := item
  unfold shift
  dsimp only
  by_cases hEvicted : messageIndex < m
  · rw [if_pos hEvicted, if_pos (Nat.lt_add_right n hEvicted)]
    dsimp only
    rw [Nat.zero_sub, ite_self]
  · rw [if_neg hEvicted]
    dsimp only
    by_cases hLater : messageIndex - m < n
    · rw [if_pos hLater, if_pos (by omega)]
    · rw [if_neg hLater, if_neg (by omega), Nat.sub_sub]

theorem shift_mono (n : Nat) (h : a.lt b = true) : (a.shift n).lt (b.shift n) = true ∨ a.shift n = b.shift n := by
  obtain ⟨m, c⟩ := a
  obtain ⟨m', c'⟩ := b
  rw [lt_iff] at h
  rw [lt_iff]
  unfold shift
  dsimp only at h ⊢
  split
  · split
    · exact .inr rfl
    · rw [mk.injEq]
      dsimp only
      omega
  · rw [if_neg (by omega)]
    dsimp only
    omega

end SelectionItem

structure Selection where
  start : SelectionItem := {}
  endItem : SelectionItem := {}
  selectionMin : SelectionItem := {}
  selectionMax : SelectionItem := {}
deriving DecidableEq, Repr

namespace Selection

def ofItems (start endItem : SelectionItem) : Selection :=
  if start.gt endItem then ⟨start, endItem, endItem, start⟩ else ⟨start, endItem, start, endItem⟩

def isEmpty (selection : Selection) : Bool := selection.start = selection.endItem

def isSingleMessage (selection : Selection) : Bool :=
  selection.selectionMin.messageIndex = selection.selectionMax.messageIndex

def shiftMessageIndex (offset : Nat) (selection : Selection) : Selection where
  start := selection.start.shift offset
  endItem := selection.endItem.shift offset
  selectionMin := selection.selectionMin.shift offset
  selectionMax := selection.selectionMax.shift offset

@[simp] theorem shiftMessageIndex_zero (selection : Selection) : selection.shiftMessageIndex 0 = selection := rfl

theorem shiftMessageIndex_shiftMessageIndex (m n : Nat) (selection : Selection) :
    (selection.shiftMessageIndex m).shiftMessageIndex n = selection.shiftMessageIndex (m + n) := by
  simp only [shiftMessageIndex, SelectionItem.shift_shift]

@[simp] theorem start_ofItems (start endItem : SelectionItem) : (ofItems start endItem).start = start := by
  unfold ofItems
  split <;> rfl

@[simp] theorem endItem_ofItems (start endItem : SelectionItem) : (ofItems start endItem).endItem = endItem := by
  unfold ofItems
  split <;> rfl

theorem shiftMessageIndex_ofItems (n : Nat) (start endItem : SelectionItem) :
    (ofItems start endItem).shiftMessageIndex n = ofItems (start.shift n) (endItem.shift n) := by
  unfold ofItems
  by_cases hOrder : start.gt endItem = true
  · rw [if_pos hOrder]
    obtain hLt | hEq := SelectionItem.shift_mono n (SelectionItem.gt_iff.mp hOrder)
    · rw [if_pos (SelectionItem.gt_iff.mpr hLt)]
      rfl
    · rw [shiftMessageIndex, hEq, ite_self]
  · rw [if_neg hOrder, if_neg]
    · rfl
    · intro hGt
      have hLe : start.lt endItem = true ∨ start = endItem :=
        SelectionItem.lt_or_eq_of_not_lt fun hLt => hOrder (SelectionItem.gt_iff.mpr hLt)
      have hShifted : (start.shift n).lt (endItem.shift n) = true ∨ start.shift n = endItem.shift n :=
        hLe.elim (SelectionItem.shift_mono n) fun hEq => .inr (congrArg _ hEq)
      exact SelectionItem.not_lt_of_lt_or_eq hShifted (SelectionItem.gt_iff.mp hGt)

def Ordered (selection : Selection) : Prop := selection = ofItems selection.start selection.endItem

theorem ordered_ofItems (start endItem : SelectionItem) : (ofItems start endItem).Ordered := by
  rw [Ordered, start_ofItems, endItem_ofItems]

theorem Ordered.shiftMessageIndex {selection : Selection} (h : selection.Ordered) (n : Nat) :
    (selection.shiftMessageIndex n).Ordered := by
  rw [show selection = _ from h, shiftMessageIndex_ofItems]
  exact ordered_ofItems _ _

end Selection

end Chatterino
