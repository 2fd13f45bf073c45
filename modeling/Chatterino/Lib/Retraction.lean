import Chatterino.Lib.CircularBuffer

/-! # Logs with retractions

A bounded buffer whose items are appended and later marked, the newest one with an id or all of an
author. What is left in the buffer says of every item what came after it.
-/

namespace Lib

open CircularBuffer

universe u

structure Marking (α ι κ : Type u) where
  id : α → ι
  isBy : κ → α → Bool
  mark : α → α
  id_mark : ∀ x, id (mark x) = id x
  isBy_mark : ∀ author x, isBy author (mark x) = isBy author x
  mark_mark : ∀ x, mark (mark x) = mark x

inductive Change (α ι κ : Type u) where
  | append (x : α)
  | retract (id : ι)
  | retractAll (author : κ)

namespace Change

variable {α ι κ : Type u}

def item : Change α ι κ → Option α
  | append x => some x
  | _ => none

def appended (changes : List (Change α ι κ)) : List α := changes.filterMap item

@[simp] theorem appended_map_append (items : List α) : appended (items.map (append : α → Change α ι κ)) = items := by
  rw [appended, List.filterMap_map]
  exact List.filterMap_some

def followed : List (Change α ι κ) → List (α × List (Change α ι κ))
  | [] => []
  | append x :: after => (x, after) :: followed after
  | _ :: after => followed after

theorem map_fst_followed (changes : List (Change α ι κ)) : (followed changes).map Prod.fst = appended changes := by
  induction changes with
  | nil => rfl
  | cons change after ih =>
    cases change with
    | append x => exact congrArg (x :: ·) ih
    | retract id => exact ih
    | retractAll author => exact ih

end Change

namespace Marking

open Change

variable {α ι κ : Type u} [DecidableEq ι] (marking : Marking α ι κ)

def retractLast (id : ι) : List α → List α
  | [] => []
  | x :: later =>
    if id ∈ later.map marking.id then x :: retractLast id later
    else if marking.id x = id then marking.mark x :: later
    else x :: later

def retractAllOf (author : κ) (items : List α) : List α :=
  items.map fun x => if marking.isBy author x then marking.mark x else x

def apply (limit : Nat) (items : List α) : Change α ι κ → List α
  | append x => (items ++ [x]).rtake limit
  | retract id => marking.retractLast id items
  | retractAll author => marking.retractAllOf author items

def isHit (x : α) : Bool → List (Change α ι κ) → Bool
  | _, [] => false
  | newest, append y :: after => isHit x (newest && marking.id y ≠ marking.id x) after
  | newest, retract id :: after => (newest && id = marking.id x) || isHit x newest after
  | newest, retractAll author :: after => marking.isBy author x || isHit x newest after

def markIf (hit : Bool) (x : α) : α := if hit then marking.mark x else x

omit [DecidableEq ι] in
@[simp] theorem id_markIf (hit : Bool) (x : α) : marking.id (marking.markIf hit x) = marking.id x := by
  cases hit with
  | false => rfl
  | true => exact marking.id_mark x

omit [DecidableEq ι] in
theorem markIf_eq_iff {hit hit' : Bool} {x : α} :
    marking.markIf hit x = marking.markIf hit' x ↔ marking.mark x = x ∨ (hit ↔ hit') := by
  cases hit with
  | false =>
    cases hit' with
    | false => exact iff_of_true rfl (Or.inr Iff.rfl)
    | true => simp [markIf, eq_comm]
  | true =>
    cases hit' with
    | false => simp [markIf]
    | true => exact iff_of_true rfl (Or.inr Iff.rfl)

theorem retractLast_nil (id : ι) : marking.retractLast id [] = [] := rfl

theorem retractLast_cons (id : ι) (x : α) (later : List α) :
    marking.retractLast id (x :: later) =
      if id ∈ later.map marking.id then x :: marking.retractLast id later
      else if marking.id x = id then marking.mark x :: later
      else x :: later := rfl

theorem isHit_cons_append (x y : α) (newest : Bool) (after : List (Change α ι κ)) :
    marking.isHit x newest (append y :: after) =
      marking.isHit x (newest && marking.id y ≠ marking.id x) after := rfl

theorem isHit_cons_retract (x : α) (newest : Bool) (id : ι) (after : List (Change α ι κ)) :
    marking.isHit x newest (retract id :: after) =
      ((newest && id = marking.id x) || marking.isHit x newest after) := rfl

theorem isHit_cons_retractAll (x : α) (newest : Bool) (author : κ) (after : List (Change α ι κ)) :
    marking.isHit x newest (retractAll author :: after) =
      (marking.isBy author x || marking.isHit x newest after) := rfl

def settled (changes : List (Change α ι κ)) : List α :=
  (followed changes).map fun entry => marking.markIf (marking.isHit entry.1 true entry.2) entry.1

theorem map_id_settled (changes : List (Change α ι κ)) :
    (marking.settled changes).map marking.id = (appended changes).map marking.id := by
  rw [settled, List.map_map, ← map_fst_followed, List.map_map]
  exact List.map_congr_left fun entry _ => marking.id_markIf _ _

theorem retractLast_of_not_mem {id : ι} {items : List α} (h : id ∉ items.map marking.id) :
    marking.retractLast id items = items := by
  cases items with
  | nil => rfl
  | cons x later =>
    rw [List.map_cons, List.mem_cons, not_or] at h
    rw [retractLast_cons, if_neg h.2, if_neg (Ne.symm h.1)]

theorem retractLast_split {id : ι} {before after : List α} {x : α} (hId : marking.id x = id)
    (hLatest : id ∉ after.map marking.id) :
    marking.retractLast id (before ++ x :: after) = before ++ marking.mark x :: after := by
  induction before with
  | nil => rw [List.nil_append, retractLast_cons, if_neg hLatest, if_pos hId, List.nil_append]
  | cons y before ih =>
    have hLater : id ∈ (before ++ x :: after).map marking.id := by
      refine List.mem_map.mpr ⟨x, ?_, hId⟩
      exact List.mem_append_right _ List.mem_cons_self
    rw [List.cons_append, retractLast_cons, if_pos hLater, ih, List.cons_append]

theorem filter_retractLast {id : ι} {p : α → Bool} (hKind : ∀ x, marking.id x = id → p x = true)
    (hMark : ∀ x, p (marking.mark x) = p x) (items : List α) :
    (marking.retractLast id items).filter p = marking.retractLast id (items.filter p) := by
  induction items with
  | nil => rfl
  | cons x later ih =>
    have hIds : id ∈ (later.filter p).map marking.id ↔ id ∈ later.map marking.id := by
      simp only [List.mem_map, List.mem_filter]
      exact ⟨fun ⟨y, hy, hId⟩ => ⟨y, hy.1, hId⟩, fun ⟨y, hy, hId⟩ => ⟨y, ⟨hy, hKind y hId⟩, hId⟩⟩
    rw [retractLast_cons]
    split_ifs with hLater hId
    · rw [List.filter_cons, List.filter_cons, ih]
      split_ifs with hx
      · rw [retractLast_cons, if_pos (hIds.mpr hLater)]
      · rfl
    · rw [List.filter_cons_of_pos (by rw [hMark, hKind x hId]), List.filter_cons_of_pos (hKind x hId), retractLast_cons,
        if_neg (fun h => hLater (hIds.mp h)), if_pos hId]
    · have hNone : id ∉ ((x :: later).filter p).map marking.id := by
        rw [List.mem_map]
        rintro ⟨y, hy, hEq⟩
        rcases List.mem_cons.mp (List.mem_filter.mp hy).1 with rfl | hMem
        · exact hId hEq
        · exact hLater (List.mem_map.mpr ⟨y, hMem, hEq⟩)
      rw [marking.retractLast_of_not_mem hNone]

theorem filter_retractLast_of_ne {id : ι} {p : α → Bool} (hKind : ∀ x, marking.id x = id → p x = false)
    (hMark : ∀ x, p (marking.mark x) = p x) (items : List α) :
    (marking.retractLast id items).filter p = items.filter p := by
  induction items with
  | nil => rfl
  | cons x later ih =>
    rw [retractLast_cons]
    split_ifs with hLater hId
    · rw [List.filter_cons, List.filter_cons, ih]
    · have hNot : ¬p x = true := by simp [hKind x hId]
      rw [List.filter_cons_of_neg (by rwa [hMark]), List.filter_cons_of_neg hNot]
    · rfl

theorem retractLast_drop (id : ι) (items : List α) (k : Nat) :
    marking.retractLast id (items.drop k) = (marking.retractLast id items).drop k := by
  induction items generalizing k with
  | nil => rw [List.drop_nil, retractLast_nil, List.drop_nil]
  | cons x later ih =>
    cases k with
    | zero => rfl
    | succ k =>
      rw [List.drop_succ_cons, ih, retractLast_cons]
      split_ifs with hLater hId
      · rfl
      · rw [marking.retractLast_of_not_mem hLater, List.drop_succ_cons]
      · rw [marking.retractLast_of_not_mem hLater, List.drop_succ_cons]

theorem length_retractLast (id : ι) (items : List α) : (marking.retractLast id items).length = items.length := by
  induction items with
  | nil => rfl
  | cons x later ih =>
    rw [retractLast_cons]
    split_ifs with hLater hId
    · rw [List.length_cons, ih, List.length_cons]
    · rfl
    · rfl

theorem map_id_retractLast (id : ι) (items : List α) :
    (marking.retractLast id items).map marking.id = items.map marking.id := by
  induction items with
  | nil => rfl
  | cons x later ih =>
    rw [retractLast_cons]
    split_ifs with hLater hId
    · rw [List.map_cons, ih, List.map_cons]
    · rw [List.map_cons, marking.id_mark, List.map_cons]
    · rfl

theorem apply_rtake (limit : Nat) (items : List α) (change : Change α ι κ) :
    marking.apply limit (items.rtake limit) change = (marking.apply limit items change).rtake limit := by
  cases change with
  | append x =>
    rw [apply, apply, rtake_append_rtake, rtake_rtake, min_self]
  | retract id =>
    rw [apply, apply, List.rtake, List.rtake, retractLast_drop, length_retractLast]
  | retractAll author =>
    rw [apply, apply, List.rtake, List.rtake, retractAllOf, retractAllOf, List.map_drop, List.length_map]

theorem isHit_append (x : α) (newest : Bool) (changes more : List (Change α ι κ)) :
    marking.isHit x newest (changes ++ more) = (marking.isHit x newest changes ||
      marking.isHit x (newest && decide (marking.id x ∉ (appended changes).map marking.id)) more) := by
  induction changes generalizing newest with
  | nil => simp [isHit, appended]
  | cons change after ih =>
    cases change with
    | append y =>
      have hIds : (appended (append y :: after)).map marking.id =
        marking.id y :: (appended after).map marking.id := rfl
      rw [List.cons_append, isHit_cons_append, ih, isHit_cons_append, hIds, Bool.and_assoc, ← Bool.decide_and]
      simp only [List.mem_cons, not_or, @eq_comm _ (marking.id x)]
    | retract id => rw [List.cons_append, isHit_cons_retract, ih, isHit_cons_retract, Bool.or_assoc]; rfl
    | retractAll author =>
      rw [List.cons_append, isHit_cons_retractAll, ih, isHit_cons_retractAll, Bool.or_assoc]
      rfl

theorem isHit_map_append (x : α) (newest : Bool) (items : List α) :
    marking.isHit x newest (items.map append) = false := by
  induction items generalizing newest with
  | nil => rfl
  | cons y items ih => exact ih _

theorem settled_map_append (items : List α) : marking.settled (items.map append) = items := by
  induction items with
  | nil => rfl
  | cons x later ih =>
    change marking.markIf (marking.isHit x true (later.map append)) x :: marking.settled (later.map append) = _
    rw [isHit_map_append, ih]
    rfl

theorem settled_append_singleton (changes : List (Change α ι κ)) (change : Change α ι κ) (limit : Nat) :
    (marking.settled (changes ++ [change])).rtake limit =
      (marking.apply limit (marking.settled changes) change).rtake limit := by
  cases change with
  | append x =>
    have hSettled : marking.settled (changes ++ [append x]) = marking.settled changes ++ [x] := by
      induction changes with
      | nil => rfl
      | cons change after ih =>
        cases change with
        | append y =>
          change marking.markIf (marking.isHit y true (after ++ [append x])) y :: _ = _
          rw [isHit_append, show marking.isHit y _ [append x] = false from rfl, Bool.or_false]
          exact congrArg _ ih
        | retract id => exact ih
        | retractAll author => exact ih
    rw [hSettled, apply, rtake_rtake, min_self]
  | retract id =>
    have hSettled : marking.settled (changes ++ [retract id]) =
        marking.retractLast id (marking.settled changes) := by
      induction changes with
      | nil => rfl
      | cons change after ih =>
        cases change with
        | append y =>
          change marking.markIf (marking.isHit y true (after ++ [retract id])) y ::
            marking.settled (after ++ [retract id]) = marking.retractLast id
              (marking.markIf (marking.isHit y true after) y :: marking.settled after)
          rw [retractLast_cons, map_id_settled, isHit_append, ih, id_markIf]
          have hLast (newest : Bool) : marking.isHit y newest [retract id] = (newest && id = marking.id y) :=
            Bool.or_false _
          rw [hLast, Bool.true_and]
          split_ifs with hLater hId
          · congr 2
            by_cases hEq : id = marking.id y
            · simp [← hEq, hLater]
            · simp [hEq]
          · rw [marking.retractLast_of_not_mem (by rwa [map_id_settled]), hId]
            congr 1
            simp only [hLater, not_false_eq_true, decide_true, Bool.and_self, Bool.or_true]
            cases marking.isHit y true after with
            | false => rfl
            | true => exact (marking.mark_mark y).symm
          · rw [marking.retractLast_of_not_mem (by rwa [map_id_settled])]
            congr 2
            simp [Ne.symm hId]
        | retract id' => exact ih
        | retractAll author => exact ih
    rw [hSettled, apply]
  | retractAll author =>
    have hSettled : marking.settled (changes ++ [retractAll author]) =
        marking.retractAllOf author (marking.settled changes) := by
      induction changes with
      | nil => rfl
      | cons change after ih =>
        cases change with
        | append y =>
          change marking.markIf (marking.isHit y true (after ++ [retractAll author])) y ::
            marking.settled (after ++ [retractAll author]) = marking.retractAllOf author
              (marking.markIf (marking.isHit y true after) y :: marking.settled after)
          have hLast (newest : Bool) : marking.isHit y newest [retractAll author] = marking.isBy author y :=
            Bool.or_false _
          rw [retractAllOf, List.map_cons, isHit_append, hLast, ih]
          congr 1
          cases marking.isHit y true after with
          | false => rfl
          | true =>
            rw [show marking.markIf true y = marking.mark y from rfl, marking.isBy_mark, marking.mark_mark, ite_self]
            rfl
        | retract id => exact ih
        | retractAll author' => exact ih
    rw [hSettled, apply]

theorem foldl_apply {limit : Nat} {items : List α} (hFits : items.length ≤ limit)
    (changes : List (Change α ι κ)) :
    changes.foldl (marking.apply limit) items = (marking.settled (items.map append ++ changes)).rtake limit := by
  induction changes using List.reverseRecOn with
  | nil => rw [List.append_nil, settled_map_append, rtake_of_length_le hFits, List.foldl_nil]
  | append_singleton changes change ih =>
    rw [List.foldl_append, ih, List.foldl_cons, List.foldl_nil, apply_rtake, ← List.append_assoc,
      settled_append_singleton]

def batch (ids : List ι) : List α → List α
  | [] => []
  | x :: later =>
    marking.markIf (decide (marking.id x ∉ later.map marking.id ∧ marking.id x ∈ ids)) x :: batch ids later

theorem batch_cons (ids : List ι) (x : α) (later : List α) :
    marking.batch ids (x :: later) =
      marking.markIf (decide (marking.id x ∉ later.map marking.id ∧ marking.id x ∈ ids)) x ::
        marking.batch ids later := rfl

theorem isHit_map_retract (x : α) (ids : List ι) :
    marking.isHit x true (ids.map retract) = decide (marking.id x ∈ ids) := by
  induction ids with
  | nil => rfl
  | cons id ids ih =>
    rw [List.map_cons, isHit_cons_retract, ih, Bool.true_and, ← Bool.decide_or]
    simp only [List.mem_cons, @eq_comm _ (marking.id x)]

theorem isHit_false_map_retract (x : α) (ids : List ι) :
    marking.isHit x false (ids.map retract) = false := by
  induction ids with
  | nil => rfl
  | cons id ids ih => exact ih

theorem settled_map_retract (ids : List ι) : marking.settled (ids.map retract) = [] := by
  induction ids with
  | nil => rfl
  | cons id ids ih => exact ih

theorem settled_batch (items : List α) (ids : List ι) :
    marking.settled (items.map append ++ ids.map retract) = marking.batch ids items := by
  induction items with
  | nil => exact marking.settled_map_retract ids
  | cons x later ih =>
    change marking.markIf (marking.isHit x true (later.map append ++ ids.map retract)) x :: _ = _
    rw [isHit_append, isHit_map_append, Bool.false_or, Bool.true_and, appended_map_append, batch_cons]
    congr 2
    by_cases hLater : marking.id x ∈ later.map marking.id
    · simp only [hLater, not_true, decide_false, false_and]
      exact marking.isHit_false_map_retract x ids
    · simp only [hLater, not_false_eq_true, decide_true, true_and]
      exact marking.isHit_map_retract x ids

theorem batch_nil (items : List α) : marking.batch [] items = items := by
  induction items with
  | nil => rfl
  | cons x later ih =>
    rw [batch_cons, ih]
    simp [markIf]

theorem batch_drop (ids : List ι) (items : List α) (k : Nat) :
    marking.batch ids (items.drop k) = (marking.batch ids items).drop k := by
  induction items generalizing k with
  | nil => rw [List.drop_nil, show marking.batch ids [] = [] from rfl, List.drop_nil]
  | cons x later ih =>
    cases k with
    | zero => rfl
    | succ k => exact ih k

theorem length_batch (ids : List ι) (items : List α) : (marking.batch ids items).length = items.length := by
  induction items with
  | nil => rfl
  | cons x later ih => exact congrArg Nat.succ ih

theorem batch_rtake (ids : List ι) (items : List α) (n : Nat) :
    marking.batch ids (items.rtake n) = (marking.batch ids items).rtake n := by
  rw [List.rtake, List.rtake, batch_drop, length_batch]

theorem batch_appended (ids : List ι) (changes : List (Change α ι κ)) :
    marking.batch ids (appended changes) = (followed changes).map fun entry => marking.markIf
      (decide (marking.id entry.1 ∉ (appended entry.2).map marking.id ∧ marking.id entry.1 ∈ ids)) entry.1 := by
  induction changes with
  | nil => rfl
  | cons change after ih =>
    cases change with
    | append x => exact congrArg _ ih
    | retract id => exact ih
    | retractAll author => exact ih

end Marking

theorem mem_rtake_append {α : Type u} {l r : List α} {n : Nat} {x : α} (h : x ∈ r.rtake n) : x ∈ (l ++ r).rtake n := by
  by_cases hShort : r.length ≤ n
  · rw [rtake_append_of_le hShort]
    exact List.mem_append_right _ (mem_of_mem_rtake h)
  · rwa [rtake_append_of_length_le (Nat.le_of_not_le hShort)]

theorem rtake_append_filter {α : Type u} {keep : α → Bool} {l r : List α} {n : Nat}
    (h : ∀ x ∈ r.rtake n, keep x = true) : (l ++ r.filter keep).rtake n = (l ++ r).rtake n := by
  have hSplit : r.take (r.length - n) ++ r.rtake n = r := List.take_append_drop _ _
  have hFilter : r.filter keep = (r.take (r.length - n)).filter keep ++ r.rtake n := by
    conv_lhs => rw [← hSplit, List.filter_append, List.filter_eq_self.mpr h]
  by_cases hShort : r.length ≤ n
  · rw [rtake_of_length_le hShort] at h
    rw [List.filter_eq_self.mpr h]
  · have hLength : n ≤ (r.rtake n).length := by
      rw [length_rtake]
      omega
    rw [hFilter, ← List.append_assoc, rtake_append_of_length_le hLength]
    conv_rhs => rw [← hSplit, ← List.append_assoc, rtake_append_of_length_le hLength]

namespace Marking

open Change

variable {α ι κ : Type u} [DecidableEq ι] (marking : Marking α ι κ)

theorem exists_of_mem_batch {ids : List ι} {items : List α} {x : α} (h : x ∈ marking.batch ids items) :
    ∃ y ∈ items, ∃ hit, x = marking.markIf hit y := by
  induction items with
  | nil => cases h
  | cons y later ih =>
    rcases List.mem_cons.mp h with rfl | hLater
    · exact ⟨y, List.mem_cons_self, _, rfl⟩
    · obtain ⟨z, hMem, hit, hEq⟩ := ih hLater
      exact ⟨z, List.mem_cons_of_mem _ hMem, hit, hEq⟩

theorem rtake_batch_eq_iff {n : Nat} {prior : List α} {changes : List (Change α ι κ)} {keep : α → Bool}
    {ids : List ι} (hMark : ∀ x, keep (marking.mark x) = keep x) (hPrior : ∀ x ∈ prior, keep x = true) :
    (marking.batch ids (prior ++ (appended changes).filter keep)).rtake n =
        (marking.settled (prior.map append ++ changes)).rtake n ↔
      (∀ x ∈ (appended changes).rtake n, keep x = true) ∧
        ∀ entry ∈ (followed (prior.map append ++ changes)).rtake n, marking.mark entry.1 = entry.1 ∨
          (marking.isHit entry.1 true entry.2 ↔
            marking.id entry.1 ∉ (appended entry.2).map marking.id ∧ marking.id entry.1 ∈ ids) := by
  have hAppended : appended (prior.map append ++ changes) = prior ++ appended changes := by
    rw [appended, List.filterMap_append]
    exact congrArg (· ++ _) (appended_map_append prior)
  have hMarkIf (hit : Bool) (x : α) : keep (marking.markIf hit x) = keep x := by
    cases hit with
    | false => rfl
    | true => exact hMark x
  -- once the shown items are kept, both sides mark the same ones
  have hMarks (hKept : ∀ x ∈ (appended changes).rtake n, keep x = true) :
      (marking.batch ids (prior ++ (appended changes).filter keep)).rtake n =
          (marking.settled (prior.map append ++ changes)).rtake n ↔
        ∀ entry ∈ (followed (prior.map append ++ changes)).rtake n, marking.mark entry.1 = entry.1 ∨
          (marking.isHit entry.1 true entry.2 ↔
            marking.id entry.1 ∉ (appended entry.2).map marking.id ∧ marking.id entry.1 ∈ ids) := by
    rw [← batch_rtake, rtake_append_filter hKept, ← hAppended, batch_rtake, batch_appended, settled,
      List.rtake, List.rtake, List.length_map, List.length_map, ← List.map_drop, ← List.map_drop,
      List.map_inj_left]
    refine forall₂_congr fun entry _ => ?_
    rw [markIf_eq_iff, decide_eq_true_iff, @iff_comm (_ ∧ _)]
  constructor
  · intro h
    have hKept (x : α) (hMem : x ∈ (appended changes).rtake n) : keep x = true := by
      have hShown : x ∈ ((followed (prior.map append ++ changes)).map Prod.fst).rtake n := by
        rw [map_fst_followed, hAppended]
        exact mem_rtake_append hMem
      rw [List.rtake, List.length_map, ← List.map_drop] at hShown
      obtain ⟨entry, hEntry, rfl⟩ := List.mem_map.mp hShown
      have hSettled : marking.markIf (marking.isHit entry.1 true entry.2) entry.1 ∈
          (marking.settled (prior.map append ++ changes)).rtake n := by
        rw [settled, List.rtake, List.length_map, ← List.map_drop]
        exact List.mem_map_of_mem hEntry
      rw [← h] at hSettled
      obtain ⟨y, hMem, hit, hEq⟩ := marking.exists_of_mem_batch (mem_of_mem_rtake hSettled)
      rw [← hMarkIf, hEq, hMarkIf]
      rcases List.mem_append.mp hMem with hOld | hNew
      · exact hPrior y hOld
      · exact (List.mem_filter.mp hNew).2
    exact ⟨hKept, (hMarks hKept).mp h⟩
  · rintro ⟨hKept, hExact⟩
    exact (hMarks hKept).mpr hExact

end Marking

end Lib
