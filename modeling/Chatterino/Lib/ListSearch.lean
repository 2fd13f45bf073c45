import Mathlib.Data.List.Basic
import Mathlib.Data.List.Induction

/-! # Searching a list

A scan looks back over the last elements of a list, stops at some and finds the first other one it
looks for. A search that keeps an item whenever it scores less than the one that is kept ends with
the first item of the least score. Items may have no score.
-/

namespace Lib

universe u

variable {α : Type u}

def scanBack (stops wanted : α → Prop) [DecidablePred stops] [DecidablePred wanted] :
    Nat → List α → Option (Nat × α)
  | 0, _ => none
  | _, [] => none
  | left + 1, x :: earlier =>
    if stops x then none else if wanted x then some (earlier.length, x) else scanBack stops wanted left earlier

/-- The last element that is wanted, with what stands before and after it. It is among the last ones,
and the scan stops neither there nor later. -/
structure LastWanted (stops wanted : α → Prop) (left : Nat) (list before : List α) (x : α) (after : List α) :
    Prop where
  split : list = before ++ x :: after
  near : after.length < left
  found : wanted x
  latest : ∀ y ∈ after, ¬wanted y
  passed : ∀ y ∈ x :: after, ¬stops y

variable {stops wanted : α → Prop} [DecidablePred stops] [DecidablePred wanted]

theorem scanBack_append {left : Nat} {before after : List α} {x : α} (hNear : after.length < left)
    (hWanted : wanted x) (hLatest : ∀ y ∈ after, ¬wanted y) (hPassed : ∀ y ∈ x :: after, ¬stops y) :
    scanBack stops wanted left (after ++ x :: before) = some (before.length, x) := by
  induction after generalizing left with
  | nil =>
    obtain ⟨left, rfl⟩ := Nat.exists_eq_succ_of_ne_zero (Nat.ne_of_gt hNear)
    rw [List.nil_append, scanBack, if_neg (hPassed x List.mem_cons_self), if_pos hWanted]
  | cons y after ih =>
    obtain ⟨left, rfl⟩ := Nat.exists_eq_succ_of_ne_zero (Nat.ne_of_gt (Nat.zero_lt_of_lt hNear))
    rw [List.forall_mem_cons, List.forall_mem_cons] at hPassed
    rw [List.forall_mem_cons] at hLatest
    rw [List.cons_append, scanBack, if_neg hPassed.2.1, if_neg hLatest.1]
    refine ih (Nat.lt_of_succ_lt_succ hNear) hLatest.2 ?_
    exact List.forall_mem_cons.mpr ⟨hPassed.1, hPassed.2.2⟩

theorem exists_of_scanBack {left i : Nat} {reversed : List α} {x : α}
    (h : scanBack stops wanted left reversed = some (i, x)) : ∃ after before, reversed = after ++ x :: before ∧
      i = before.length ∧ after.length < left ∧ wanted x ∧ (∀ y ∈ after, ¬wanted y) ∧ ∀ y ∈ x :: after, ¬stops y := by
  induction reversed generalizing left with
  | nil => cases left <;> cases h
  | cons y earlier ih =>
    cases left with
    | zero => cases h
    | succ left =>
      rw [scanBack] at h
      split_ifs at h with hStops hWanted
      · cases h
        refine ⟨[], earlier, rfl, rfl, Nat.succ_pos _, hWanted, by rintro _ ⟨⟩, ?_⟩
        exact List.forall_mem_singleton.mpr hStops
      · obtain ⟨after, before, rfl, hIndex, hNear, hFound, hLatest, hPassed⟩ := ih h
        rw [List.forall_mem_cons] at hPassed
        refine ⟨y :: after, before, rfl, hIndex, Nat.succ_lt_succ hNear, hFound, ?_, ?_⟩
        · exact List.forall_mem_cons.mpr ⟨hWanted, hLatest⟩
        · exact List.forall_mem_cons.mpr ⟨hPassed.1, List.forall_mem_cons.mpr ⟨hStops, hPassed.2⟩⟩

theorem scanBack_reverse_eq_some_iff {left i : Nat} {list : List α} {x : α} :
    scanBack stops wanted left list.reverse = some (i, x) ↔
      ∃ before after, i = before.length ∧ LastWanted stops wanted left list before x after := by
  constructor
  · intro h
    obtain ⟨after, before, hReversed, rfl, hNear, hWanted, hLatest, hPassed⟩ := exists_of_scanBack h
    have hList : list = before.reverse ++ x :: after.reverse := by
      rw [← List.reverse_reverse list, hReversed, List.reverse_append, List.reverse_cons, List.append_assoc]
      rfl
    refine ⟨before.reverse, after.reverse, List.length_reverse.symm, hList, ?_, hWanted, ?_, ?_⟩
    · rwa [List.length_reverse]
    · exact fun y hMem => hLatest y (List.mem_reverse.mp hMem)
    · rw [List.forall_mem_cons] at hPassed ⊢
      exact ⟨hPassed.1, fun y hMem => hPassed.2 y (List.mem_reverse.mp hMem)⟩
  · rintro ⟨before, after, rfl, h⟩
    have hReversed : list.reverse = after.reverse ++ x :: before.reverse := by
      rw [h.split, List.reverse_append, List.reverse_cons, List.append_assoc]
      rfl
    rw [hReversed, ← @List.length_reverse _ before]
    refine scanBack_append ?_ h.found ?_ ?_
    · rw [List.length_reverse]
      exact h.near
    · exact fun y hMem => h.latest y (List.mem_reverse.mp hMem)
    · have hPassed := h.passed
      rw [List.forall_mem_cons] at hPassed ⊢
      exact ⟨hPassed.1, fun y hMem => hPassed.2 y (List.mem_reverse.mp hMem)⟩

end Lib

namespace Lib

theorem modify_append_cons {α : Type} (front back : List α) (x : α) (f : α → α) :
    (front ++ x :: back).modify front.length f = front ++ f x :: back := by
  induction front with
  | nil => rfl
  | cons y front ih => exact congrArg (y :: ·) ih

theorem split_of_findIdx? {α : Type} {p : α → Bool} {xs : List α} {i : ℕ} (h : xs.findIdx? p = some i) :
    ∃ front x back, xs = front ++ x :: back ∧ front.length = i ∧ p x = true := by
  obtain ⟨hLt, hHolds, -⟩ := List.findIdx?_eq_some_iff_getElem.mp h
  refine ⟨xs.take i, xs[i], xs.drop (i + 1), ?_, List.length_take_of_le (Nat.le_of_lt hLt), hHolds⟩
  rw [List.getElem_cons_drop, List.take_append_drop]

variable {α : Type} (score : α → Option ℕ)

structure IsFirstLeast (before : List α) (item : α) (after : List α) (least : ℕ) : Prop where
  score_eq : score item = some least
  lt_before : ∀ other ∈ before, ∀ value ∈ score other, least < value
  le_after : ∀ other ∈ after, ∀ value ∈ score other, least ≤ value

def keepLess (best : Option (ℕ × ℕ)) (index : ℕ) (item : α) : Option (ℕ × ℕ) :=
  match score item with
  | none => best
  | some value => if best.all fun kept => value < kept.2 then some (index, value) else best

def firstLeast (items : List α) : Option (ℕ × ℕ) :=
  items.zipIdx.foldl (fun best entry => keepLess score best entry.2 entry.1) none

def FindsLeast (items : List α) : Option (ℕ × ℕ) → Prop
  | none => ∀ item ∈ items, score item = none
  | some (index, least) => ∃ before item after, items = before ++ item :: after ∧ before.length = index ∧
      IsFirstLeast score before item after least

variable {score} {items before after before' after' : List α} {item item' : α} {least least' : ℕ}

namespace IsFirstLeast

theorem append (h : IsFirstLeast score before item after least)
    (hLast : ∀ value ∈ score item', least ≤ value) : IsFirstLeast score before item (after ++ [item']) least := by
  refine ⟨h.score_eq, h.lt_before, ?_⟩
  intro other hMem
  obtain hAfter | hOther := List.mem_append.mp hMem
  · exact h.le_after other hAfter
  · rw [List.mem_singleton.mp hOther]
    exact hLast

theorem not_later (h : IsFirstLeast score before item (after ++ item' :: after') least) :
    ¬IsFirstLeast score (before ++ item :: after) item' after' least' := by
  intro h'
  have hLt := h'.lt_before item (List.mem_append_right _ List.mem_cons_self) least h.score_eq
  have hLe := h.le_after item' (List.mem_append_right _ List.mem_cons_self) least' h'.score_eq
  omega

theorem unique (h : IsFirstLeast score before item after least)
    (h' : IsFirstLeast score before' item' after' least')
    (hItems : before ++ item :: after = before' ++ item' :: after') : item = item' := by
  obtain ⟨middle, hBefore', hAfter⟩ | ⟨middle, hBefore, hAfter'⟩ := List.append_eq_append_iff.mp hItems
  · cases middle with
    | nil =>
      injection hAfter
    | cons head middle =>
      injection hAfter with hHead hTail
      subst hHead hTail hBefore'
      exact absurd h' h.not_later
  · cases middle with
    | nil =>
      injection hAfter' with hHead
      exact hHead.symm
    | cons head middle =>
      injection hAfter' with hHead hTail
      subst hHead hTail hBefore
      exact absurd h h'.not_later

end IsFirstLeast

theorem findsLeast_keepLess {best : Option (ℕ × ℕ)} (h : FindsLeast score items best) (item : α) :
    FindsLeast score (items ++ [item]) (keepLess score best items.length item) := by
  rw [keepLess]
  cases hScore : score item with
  | none =>
    cases best with
    | none =>
      intro other hMem
      obtain hOld | hNew := List.mem_append.mp hMem
      · exact h other hOld
      · rw [List.mem_singleton.mp hNew, hScore]
    | some best =>
      obtain ⟨before, kept, after, hItems, hIndex, hLeast⟩ := h
      refine ⟨before, kept, after ++ [item], by rw [hItems, List.append_assoc, List.cons_append], hIndex, hLeast.append ?_⟩
      rw [hScore]
      exact fun value hValue => absurd hValue (Option.not_mem_none value)
  | some value =>
    dsimp only
    split_ifs with hLess
    · refine ⟨items, item, [], rfl, rfl, hScore, ?_, fun other hMem => absurd hMem List.not_mem_nil⟩
      intro other hOther value' hValue'
      cases best with
      | none =>
        rw [h other hOther] at hValue'
        cases hValue'
      | some best =>
        have hKept : value < best.2 := of_decide_eq_true hLess
        obtain ⟨before, kept, after, hItems, -, hLeast⟩ := h
        rw [hItems] at hOther
        obtain hBefore | hRest := List.mem_append.mp hOther
        · exact Nat.lt_trans hKept (hLeast.lt_before other hBefore value' hValue')
        · obtain rfl | hAfter := List.mem_cons.mp hRest
          · rw [hLeast.score_eq] at hValue'
            cases hValue'
            exact hKept
          · exact Nat.lt_of_lt_of_le hKept (hLeast.le_after other hAfter value' hValue')
    · cases best with
      | none => exact absurd rfl hLess
      | some best =>
        obtain ⟨before, kept, after, hItems, hIndex, hLeast⟩ := h
        have hKept : best.2 ≤ value := Nat.not_lt.mp fun hLt => hLess (decide_eq_true hLt)
        refine ⟨before, kept, after ++ [item], by rw [hItems, List.append_assoc, List.cons_append], hIndex,
          hLeast.append ?_⟩
        rw [hScore]
        rintro _ ⟨⟩
        exact hKept

theorem findsLeast_firstLeast (items : List α) : FindsLeast score items (firstLeast score items) := by
  induction items using List.reverseRecOn with
  | nil => exact fun item hMem => absurd hMem List.not_mem_nil
  | append_singleton items item ih =>
    have hStep := findsLeast_keepLess ih item
    rw [firstLeast, List.zipIdx_append, List.foldl_append]
    rw [firstLeast] at hStep
    simpa using hStep

end Lib
