import Chatterino.Messages.LimitedQueue

/-! # The message buffer as a bounded list

A bounded list says what the operations of a message buffer are for. Runs of the buffer give the
items and the answers of the bounded list.
-/

namespace Chatterino

open Lib

variable {T : Type}

inductive QueueOperation (T : Type) where
  | pushBack (item : T)
  | pushFront (items : List T)
  | replaceItem (needle replacement : T)
  | replaceItemAt (index : Nat) (replacement : T)
  | replaceItemHinted (hint : Nat) (needle replacement : T)
  | insertBefore (needle item : T)
  | insertAfter (needle item : T)
  | clear
  | find (pred : T → Bool)
  | findHinted (hint : Nat) (predicate : T → Bool)
  | rfind (pred : T → Bool)
  | get (index : Nat)
  | getSnapshot

inductive QueueAnswer (T : Type) where
  | nothing
  | deleted (item : Option T)
  | pushed (items : List T)
  | replaced (index : Int)
  | previous (item : Option T)
  | inserted (done : Bool)
  | found (item : Option T)
  | foundAt (item : Option (Nat × T))
  | snapshot (items : List T)

variable [DecidableEq T]

namespace BoundedList

open LimitedQueue (intOfIndex)

def replaceFirst (needle replacement : T) (list : List T) : List T × QueueAnswer T :=
  match list.idxOf? needle with
  | some i => (list.set i replacement, .replaced (intOfIndex i))
  | none => (list, .replaced (-1))

/-- The list with an item inserted next to the first equal element, `offset` places behind it. Where
there is no room for all, the front goes. -/
def insertNext (limit : Nat) (needle item : T) (offset : Nat) (list : List T) : List T × QueueAnswer T :=
  match list.idxOf? needle with
  | some i => ((list.insertIdx (i + offset) item).rtake limit, .inserted true)
  | none => (list, .inserted false)

def findFirst (predicate : T → Bool) (list : List T) : Option (Nat × T) :=
  (list.findIdx? predicate).bind fun i => list[i]?.map fun item => (i, item)

def step (limit : Nat) (list : List T) : QueueOperation T → List T × QueueAnswer T
  | .pushBack item =>
    if list.length = limit then (list.tail ++ [item], .deleted list.head?) else (list ++ [item], .deleted none)
  | .pushFront items =>
    let fitting := items.rtake (limit - list.length)
    (fitting ++ list, .pushed fitting)
  | .replaceItem needle replacement => replaceFirst needle replacement list
  | .replaceItemAt index replacement => (list.set index replacement, .previous list[index]?)
  | .replaceItemHinted hint needle replacement =>
    if list[hint]? = some needle then (list.set hint replacement, .replaced (intOfIndex hint))
    else replaceFirst needle replacement list
  | .insertBefore needle item => insertNext limit needle item 0 list
  | .insertAfter needle item => insertNext limit needle item 1 list
  | .clear => ([], .nothing)
  | .find pred => (list, .found (list.find? pred))
  | .findHinted hint predicate =>
    (list, .foundAt ((list[hint]?.filter predicate).elim (findFirst predicate list) fun item => some (hint, item)))
  | .rfind pred => (list, .found (list.reverse.find? pred))
  | .get index => (list, .found list[index]?)
  | .getSnapshot => (list, .snapshot list)

def run (limit : Nat) : List T → List (QueueOperation T) → List T × List (QueueAnswer T)
  | list, [] => (list, [])
  | list, operation :: operations =>
    let next := step limit list operation
    let rest := run limit next.1 operations
    (rest.1, next.2 :: rest.2)

end BoundedList

namespace LimitedQueue

def step (q : LimitedQueue T) : QueueOperation T → LimitedQueue T × QueueAnswer T
  | .pushBack item => (q.pushBack item).map id .deleted
  | .pushFront items => (q.pushFront items).map id .pushed
  | .replaceItem needle replacement => (q.replaceItem needle replacement).map id .replaced
  | .replaceItemAt index replacement => (q.replaceItemAt index replacement).map id .previous
  | .replaceItemHinted hint needle replacement => (q.replaceItemHinted hint needle replacement).map id .replaced
  | .insertBefore needle item => (q.insertBefore needle item).map id .inserted
  | .insertAfter needle item => (q.insertAfter needle item).map id .inserted
  | .clear => (q.clear, .nothing)
  | .find pred => (q, .found (q.find pred))
  | .findHinted hint predicate => (q, .foundAt (q.findHinted hint predicate))
  | .rfind pred => (q, .found (q.rfind pred))
  | .get index => (q, .found (q.get index))
  | .getSnapshot => (q, .snapshot q.getSnapshot)

def run : LimitedQueue T → List (QueueOperation T) → LimitedQueue T × List (QueueAnswer T)
  | q, [] => (q, [])
  | q, operation :: operations =>
    let next := q.step operation
    let rest := next.1.run operations
    (rest.1, next.2 :: rest.2)

def seen (next : LimitedQueue T × QueueAnswer T) : List T × QueueAnswer T := (next.1.getSnapshot, next.2)

omit [DecidableEq T] in
theorem full_eq (q : LimitedQueue T) : q.buffer_.full = decide (q.getSnapshot.length = q.limit) := by
  rw [CircularBuffer.full, q.capacity_eq]
  rfl

theorem seen_pushBack (q : LimitedQueue T) (hLimit : 1 ≤ q.limit) (item : T) :
    seen (q.step (.pushBack item)) = BoundedList.step q.limit q.getSnapshot (.pushBack item) := by
  have hFits := q.length_getSnapshot_le
  have hDeleted : (q.pushBack item).2 = if q.getSnapshot.length = q.limit then q.getSnapshot.head? else none := by
    rw [pushBack, full_eq]
    simp only [decide_eq_true_eq]
    rfl
  refine Prod.ext ?_ ?_
  · refine (q.getSnapshot_pushBack item).trans ?_
    rw [BoundedList.step]
    split_ifs with hFull
    · obtain ⟨first, rest, hItems⟩ := List.exists_cons_of_length_pos (hFull ▸ hLimit)
      rw [← hFull, hItems, List.rtake, List.length_append, List.length_singleton, Nat.add_sub_cancel_left]
      rfl
    · refine CircularBuffer.rtake_of_length_le ?_
      rw [List.length_append, List.length_singleton]
      omega
  · refine (congrArg QueueAnswer.deleted hDeleted).trans ?_
    rw [BoundedList.step]
    split_ifs <;> rfl

theorem seen_replaceItem (q : LimitedQueue T) (needle replacement : T) :
    seen ((q.replaceItem needle replacement).map id QueueAnswer.replaced) =
      BoundedList.replaceFirst needle replacement q.getSnapshot := by
  have hFind : q.buffer_.items.findIdx? (· == needle) = q.getSnapshot.idxOf? needle := rfl
  rw [replaceItem, BoundedList.replaceFirst, hFind]
  cases q.getSnapshot.idxOf? needle <;> rfl

theorem lt_length_of_idxOf? {list : List T} {needle : T} {i : Nat} (h : list.idxOf? needle = some i) :
    i < list.length := (List.findIdx?_eq_some_iff_findIdx_eq.mp h).1

theorem seen_insertBefore (q : LimitedQueue T) (needle item : T) :
    seen ((q.insertBefore needle item).map id QueueAnswer.inserted) =
      BoundedList.insertNext q.limit needle item 0 q.getSnapshot := by
  have hFind : q.buffer_.items.findIdx? (· == needle) = q.getSnapshot.idxOf? needle := rfl
  rw [insertBefore, BoundedList.insertNext, hFind]
  cases hIndex : q.getSnapshot.idxOf? needle with
  | none => rfl
  | some i =>
    have hPosition := (lt_length_of_idxOf? hIndex).le
    exact congrArg (·, QueueAnswer.inserted true) (q.getSnapshot_insert item hPosition)

theorem seen_insertAfter (q : LimitedQueue T) (needle item : T) :
    seen ((q.insertAfter needle item).map id QueueAnswer.inserted) =
      BoundedList.insertNext q.limit needle item 1 q.getSnapshot := by
  have hFind : q.buffer_.items.findIdx? (· == needle) = q.getSnapshot.idxOf? needle := rfl
  rw [insertAfter, BoundedList.insertNext, hFind]
  cases hIndex : q.getSnapshot.idxOf? needle with
  | none => rfl
  | some i =>
    have hPosition := Nat.succ_le_of_lt (lt_length_of_idxOf? hIndex)
    exact congrArg (·, QueueAnswer.inserted true) (q.getSnapshot_insert item hPosition)

omit [DecidableEq T] in
theorem findHinted_eq (q : LimitedQueue T) (hint : Nat) (predicate : T → Bool) : q.findHinted hint predicate =
    (q.getSnapshot[hint]?.filter predicate).elim (BoundedList.findFirst predicate q.getSnapshot)
      fun item => some (hint, item) := by
  unfold findHinted BoundedList.findFirst
  cases hItem : q.buffer_.items[hint]?.filter predicate <;> cases hFirst : q.buffer_.items.findIdx? predicate <;>
    simp only [getSnapshot, hItem, hFirst, Option.elim, Option.bind]

theorem step_refines (q : LimitedQueue T) (hLimit : 1 ≤ q.limit) (operation : QueueOperation T) :
    seen (q.step operation) = BoundedList.step q.limit q.getSnapshot operation ∧ (q.step operation).1.limit = q.limit := by
  cases operation with
  | pushBack item => exact ⟨q.seen_pushBack hLimit item, rfl⟩
  | pushFront items =>
    refine ⟨?_, rfl⟩
    exact congrArg₂ Prod.mk (q.getSnapshot_pushFront items) (congrArg QueueAnswer.pushed (q.snd_pushFront items))
  | replaceItem needle replacement =>
    exact ⟨q.seen_replaceItem needle replacement, q.limit_replaceItem needle replacement⟩
  | replaceItemAt index replacement =>
    rw [step, replaceItemAt, BoundedList.step]
    cases hItem : q.buffer_.items[index]? with
    | none =>
      have hSame : q.getSnapshot.set index replacement = q.getSnapshot :=
        List.set_eq_of_length_le (List.getElem?_eq_none_iff.mp hItem)
      rw [hSame]
      exact ⟨congrArg (q.getSnapshot, QueueAnswer.previous ·) hItem.symm, rfl⟩
    | some prev => exact ⟨congrArg (q.getSnapshot.set index replacement, QueueAnswer.previous ·) hItem.symm, rfl⟩
  | replaceItemHinted hint needle replacement =>
    rw [step, replaceItemHinted, BoundedList.step]
    by_cases hHint : q.getSnapshot[hint]? = some needle
    · have hItem : q.buffer_.items[hint]? = some needle := hHint
      rw [if_pos hHint, if_pos hItem]
      exact ⟨rfl, rfl⟩
    · have hItem : ¬q.buffer_.items[hint]? = some needle := hHint
      rw [if_neg hHint, if_neg hItem]
      exact ⟨q.seen_replaceItem needle replacement, q.limit_replaceItem needle replacement⟩
  | insertBefore needle item => exact ⟨q.seen_insertBefore needle item, q.limit_insertBefore needle item⟩
  | insertAfter needle item => exact ⟨q.seen_insertAfter needle item, q.limit_insertAfter needle item⟩
  | clear | find pred | rfind pred | get index | getSnapshot => exact ⟨rfl, rfl⟩
  | findHinted hint predicate =>
    exact ⟨congrArg (q.getSnapshot, QueueAnswer.foundAt ·) (q.findHinted_eq hint predicate), rfl⟩

theorem run_refines (q : LimitedQueue T) (hLimit : 1 ≤ q.limit) (operations : List (QueueOperation T)) :
    (q.run operations).1.limit = q.limit ∧
    ((q.run operations).1.getSnapshot, (q.run operations).2) = BoundedList.run q.limit q.getSnapshot operations := by
  induction operations generalizing q with
  | nil => exact ⟨rfl, rfl⟩
  | cons operation operations ih =>
    obtain ⟨hStep, hSame⟩ := q.step_refines hLimit operation
    obtain ⟨hRunLimit, hRun⟩ := ih (q.step operation).1 (hSame.symm ▸ hLimit)
    refine ⟨hRunLimit.trans hSame, ?_⟩
    rw [BoundedList.run, ← hStep, ← hSame]
    exact congrArg (fun rest => (rest.1, (q.step operation).2 :: rest.2)) hRun

theorem replaceItemHinted_eq (q : LimitedQueue T) (hNodup : q.getSnapshot.Nodup) (hint : Nat)
    (needle replacement : T) : q.replaceItemHinted hint needle replacement = q.replaceItem needle replacement := by
  rw [replaceItemHinted]
  split_ifs with hHint
  · obtain ⟨hLength, hItem⟩ := List.getElem?_eq_some_iff.mp hHint
    have hFirst : q.buffer_.items.findIdx? (· == needle) = some hint := by
      refine List.findIdx?_eq_some_iff_getElem.mpr ⟨hLength, beq_iff_eq.mpr hItem, fun i hBefore hSame => ?_⟩
      have hEqual : q.buffer_.items[i] = q.buffer_.items[hint] := (beq_iff_eq.mp hSame).trans hItem.symm
      exact absurd (hNodup.getElem_inj_iff.mp hEqual) hBefore.ne
    rw [replaceItem, hFirst]
  · rfl

/-- Every run of a queue gives the items and the answers of a bounded list. -/
theorem refines_boundedList {limit : Nat} (hLimit : 1 ≤ limit) (operations : List (QueueOperation T)) :
    let reached := (ofLimit limit : LimitedQueue T).run operations
    (reached.1.getSnapshot, reached.2) = BoundedList.run limit [] operations ∧
    reached.1.getSnapshot.length ≤ limit ∧
    (reached.1.getSnapshot.Nodup → ∀ hint needle replacement,
      reached.1.replaceItemHinted hint needle replacement = reached.1.replaceItem needle replacement) ∧
    (limit ≤ 2 ^ 31 → ∀ index < limit, intOfIndex index = index) := by
  intro reached
  obtain ⟨hReached, hRun⟩ := run_refines (ofLimit limit : LimitedQueue T) hLimit operations
  refine ⟨hRun, ?_, replaceItemHinted_eq reached.1, fun hSmall index hIndex => ?_⟩
  · have hFits := reached.1.length_getSnapshot_le
    rwa [hReached] at hFits
  · exact intOfIndex_eq (hIndex.trans_le hSmall)

theorem refines_boundedList_full :
    let operations : List (QueueOperation Nat) :=
      [.pushBack 1, .pushBack 2, .pushFront [5, 6, 7], .pushBack 3, .insertBefore 1 8, .insertAfter 1 9,
        .replaceItemHinted 0 9 4]
    (((ofLimit 3).run operations).1.getSnapshot, ((ofLimit 3).run operations).2) =
      BoundedList.run 3 [] operations :=
  (refines_boundedList (by decide) _).1

end LimitedQueue

end Chatterino
