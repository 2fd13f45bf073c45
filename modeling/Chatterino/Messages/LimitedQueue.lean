import Chatterino.Lib.CircularBuffer
import Mathlib.Algebra.Group.Nat.Defs

/-! # The message buffer of a channel

LimitedQueue of the source over a ring buffer whose capacity is the limit. Locking is left out:
every operation runs under the queue's mutex.
-/

namespace Chatterino

open Lib

structure LimitedQueue (T : Type) where
  limit : Nat
  buffer_ : CircularBuffer T
  capacity_eq : buffer_.capacity = limit

namespace LimitedQueue

variable {T : Type}

def ofLimit (limit : Nat) : LimitedQueue T := ⟨limit, .ofCapacity limit, rfl⟩

def space (q : LimitedQueue T) : Nat := q.limit - q.buffer_.items.length

def getSnapshot (q : LimitedQueue T) : List T := q.buffer_.items

theorem length_getSnapshot_le (q : LimitedQueue T) : q.getSnapshot.length ≤ q.limit :=
  q.buffer_.fits.trans q.capacity_eq.le

/-- The items are pushed from the last one on, while the pushed vector collects the same items in order. -/
def pushFront (q : LimitedQueue T) (items : List T) : LimitedQueue T × List T :=
  let pushed := items.drop (items.length - min items.length q.space)
  ({ q with
      buffer_ := pushed.foldr (fun item buffer => buffer.pushFront item) q.buffer_
      capacity_eq := by
        induction pushed with
        | nil => exact q.capacity_eq
        | cons item rest ih => exact ih }, pushed)

theorem foldr_pushFront {b : CircularBuffer T} {items : List T}
    (h : items.length + b.items.length ≤ b.capacity) :
    (items.foldr (fun item buffer => buffer.pushFront item) b).items = items ++ b.items ∧
      (items.foldr (fun item buffer => buffer.pushFront item) b).capacity = b.capacity := by
  induction items with
  | nil => exact ⟨rfl, rfl⟩
  | cons item rest ih =>
    simp only [List.length_cons] at h
    obtain ⟨hItems, hCapacity⟩ := ih (by omega)
    refine ⟨?_, hCapacity⟩
    rw [List.foldr_cons, CircularBuffer.items_pushFront_of_lt, hItems, List.cons_append]
    rw [hItems, hCapacity, List.length_append]
    omega

theorem getSnapshot_pushFront (q : LimitedQueue T) (items : List T) :
    (q.pushFront items).1.getSnapshot = items.rtake q.space ++ q.getSnapshot := by
  have hFits := q.length_getSnapshot_le
  have hDrop : items.drop (items.length - min items.length q.space) = items.rtake q.space := by
    rw [List.rtake]
    congr 1
    omega
  have hRoom : (items.rtake q.space).length + q.buffer_.items.length ≤ q.buffer_.capacity := by
    change _ + q.getSnapshot.length ≤ _
    rw [CircularBuffer.length_rtake, q.capacity_eq]
    change min (q.limit - q.getSnapshot.length) items.length + q.getSnapshot.length ≤ q.limit
    omega
  rw [← hDrop] at hRoom ⊢
  exact (foldr_pushFront hRoom).1

section needle

variable [DecidableEq T]

def insertBefore (q : LimitedQueue T) (needle item : T) : LimitedQueue T × Bool :=
  match q.buffer_.items.findIdx? (· == needle) with
  | some it => ({ q with buffer_ := q.buffer_.insert it item, capacity_eq := q.capacity_eq }, true)
  | none => (q, false)

def insertAfter (q : LimitedQueue T) (needle item : T) : LimitedQueue T × Bool :=
  match q.buffer_.items.findIdx? (· == needle) with
  | some it =>
    ({ q with buffer_ := q.buffer_.insert (it + 1) item, capacity_eq := q.capacity_eq }, true)
  | none => (q, false)

@[simp] theorem limit_insertBefore (q : LimitedQueue T) (needle item : T) :
    (q.insertBefore needle item).1.limit = q.limit := by
  unfold insertBefore
  split <;> rfl

@[simp] theorem limit_insertAfter (q : LimitedQueue T) (needle item : T) :
    (q.insertAfter needle item).1.limit = q.limit := by
  unfold insertAfter
  split <;> rfl

theorem findIdx?_append_cons {l r : List T} {x : T} (h : x ∉ l) :
    (l ++ x :: r).findIdx? (· == x) = some l.length := by
  induction l with
  | nil => simp [List.findIdx?_cons]
  | cons y l ih =>
    have hy : (y == x) = false := by
      simp only [beq_eq_false_iff_ne, ne_eq]
      exact fun hEq => h (hEq ▸ List.mem_cons_self)
    rw [List.cons_append, List.findIdx?_cons, hy, ih (fun hx => h (List.mem_cons_of_mem _ hx))]
    rfl

theorem findIdx?_eq_none {l : List T} {x : T} (h : x ∉ l) : l.findIdx? (· == x) = none := by
  rw [List.findIdx?_eq_none_iff]
  intro y hy
  simpa using ne_of_mem_of_not_mem hy h

omit [DecidableEq T] in
theorem getSnapshot_insert (q : LimitedQueue T) {position : Nat} (item : T) (hPosition : position ≤ q.getSnapshot.length) :
    (q.buffer_.insert position item).items = (q.getSnapshot.insertIdx position item).rtake q.limit := by
  rw [← q.capacity_eq]
  exact q.buffer_.items_insert item hPosition

theorem getSnapshot_insertBefore_of_eq {q : LimitedQueue T} {l r : List T} {needle : T} (item : T)
    (h : q.getSnapshot = l ++ needle :: r) (hNotMem : needle ∉ l) :
    (q.insertBefore needle item).1.getSnapshot = (l ++ item :: needle :: r).rtake q.limit := by
  have hFind : q.buffer_.items.findIdx? (· == needle) = some l.length :=
    (congrArg _ h).trans (findIdx?_append_cons hNotMem)
  simp only [insertBefore, hFind]
  refine (q.getSnapshot_insert item ?_).trans ?_
  · rw [h, List.length_append]
    omega
  · rw [h, CircularBuffer.insertIdx_length_append]

theorem getSnapshot_insertAfter_of_eq {q : LimitedQueue T} {l r : List T} {needle : T} (item : T)
    (h : q.getSnapshot = l ++ needle :: r) (hNotMem : needle ∉ l) :
    (q.insertAfter needle item).1.getSnapshot = (l ++ needle :: item :: r).rtake q.limit := by
  have hFind : q.buffer_.items.findIdx? (· == needle) = some l.length :=
    (congrArg _ h).trans (findIdx?_append_cons hNotMem)
  have hInsert := CircularBuffer.insertIdx_length_append (l ++ [needle]) r item
  rw [List.append_assoc, List.append_assoc, List.length_append] at hInsert
  simp only [insertAfter, hFind]
  refine (q.getSnapshot_insert item ?_).trans ?_
  · rw [h, List.length_append, List.length_cons]
    omega
  · exact congrArg (·.rtake q.limit) (h ▸ hInsert)

theorem insertBefore_of_not_mem {q : LimitedQueue T} {needle : T} (item : T)
    (h : needle ∉ q.getSnapshot) : q.insertBefore needle item = (q, false) := by
  simp only [insertBefore, findIdx?_eq_none (show needle ∉ q.buffer_.items from h)]

theorem getSnapshot_insertBefore {q : LimitedQueue T} {l r : List T} {needle : T} (item : T)
    (hNodup : (l ++ needle :: r).Nodup) (h : q.getSnapshot = (l ++ needle :: r).rtake q.limit) :
    (q.insertBefore needle item).1.getSnapshot = (l ++ item :: needle :: r).rtake q.limit := by
  obtain ⟨_, hr, hDisjoint⟩ := List.nodup_append.mp hNodup
  by_cases hLimit : (needle :: r).length ≤ q.limit
  · rw [CircularBuffer.rtake_append_of_le hLimit] at h
    have hNotMem : needle ∉ l.rtake (q.limit - (needle :: r).length) := fun hMem =>
      hDisjoint needle (List.drop_subset _ _ hMem) needle List.mem_cons_self rfl
    rw [getSnapshot_insertBefore_of_eq item h hNotMem]
    apply CircularBuffer.rtake_rtake_append
    simp only [List.length_cons]
    omega
  · have hShort : q.limit ≤ r.length := by
      simp only [List.length_cons] at hLimit
      omega
    have hDrop (s : List T) : (s ++ r).rtake q.limit = r.rtake q.limit :=
      CircularBuffer.rtake_append_of_length_le hShort
    have hOld := hDrop (l ++ [needle])
    have hNew := hDrop (l ++ [item, needle])
    rw [List.append_assoc] at hOld hNew
    have hNotMem : needle ∉ q.getSnapshot := by
      rw [h, show needle :: r = [needle] ++ r from rfl, hOld]
      exact fun hMem => (List.nodup_cons.mp hr).1 (List.drop_subset _ _ hMem)
    rw [insertBefore_of_not_mem item hNotMem]
    exact h.trans (hOld.trans hNew.symm)

theorem getSnapshot_insertAfter_last {q : LimitedQueue T} {l : List T} {needle : T} (item : T)
    (hLimit : 1 ≤ q.limit) (hNodup : (l ++ [needle]).Nodup)
    (h : q.getSnapshot = (l ++ [needle]).rtake q.limit) :
    (q.insertAfter needle item).1.getSnapshot = (l ++ [needle, item]).rtake q.limit := by
  obtain ⟨_, _, hDisjoint⟩ := List.nodup_append.mp hNodup
  rw [CircularBuffer.rtake_append_of_le hLimit] at h
  have hNotMem : needle ∉ l.rtake (q.limit - [needle].length) := fun hMem =>
    hDisjoint needle (List.drop_subset _ _ hMem) needle List.mem_cons_self rfl
  rw [getSnapshot_insertAfter_of_eq item h hNotMem]
  apply CircularBuffer.rtake_rtake_append
  simp only [List.length_cons, List.length_nil]
  omega

end needle

/-- `static_cast<int>` of an index. -/
def intOfIndex (index : Nat) : Int := (index : Int).bmod (2 ^ 32)

theorem intOfIndex_eq {index : Nat} (h : index < 2 ^ 31) : intOfIndex index = index := by
  refine Int.bmod_eq_of_le_mul_two ?_ ?_
  · omega
  · omega

def pushBack (q : LimitedQueue T) (item : T) : LimitedQueue T × Option T :=
  let deleted := if q.buffer_.full then q.buffer_.items.head? else none
  ({ q with buffer_ := q.buffer_.pushBack item, capacity_eq := q.capacity_eq }, deleted)

def clear (q : LimitedQueue T) : LimitedQueue T :=
  { q with buffer_ := q.buffer_.clear, capacity_eq := q.capacity_eq }

def set (q : LimitedQueue T) (index : Nat) (replacement : T) : LimitedQueue T :=
  { q with buffer_ := q.buffer_.set index replacement, capacity_eq := q.capacity_eq }

section needle

variable [DecidableEq T]

def replaceItem (q : LimitedQueue T) (needle replacement : T) : LimitedQueue T × Int :=
  match q.buffer_.items.findIdx? (· == needle) with
  | some i => (q.set i replacement, intOfIndex i)
  | none => (q, -1)

def replaceItemHinted (q : LimitedQueue T) (hint : Nat) (needle replacement : T) : LimitedQueue T × Int :=
  if q.buffer_.items[hint]? = some needle then (q.set hint replacement, intOfIndex hint)
  else q.replaceItem needle replacement

end needle

def replaceItemAt (q : LimitedQueue T) (index : Nat) (replacement : T) : LimitedQueue T × Option T :=
  match q.buffer_.items[index]? with
  | some prev => (q.set index replacement, some prev)
  | none => (q, none)

def get (q : LimitedQueue T) (index : Nat) : Option T := q.buffer_.items[index]?

def lastN (q : LimitedQueue T) (nItems : Nat) : List T :=
  q.buffer_.items.drop (q.buffer_.items.length - min nItems q.buffer_.items.length)

def find (q : LimitedQueue T) (pred : T → Bool) : Option T := q.buffer_.items.find? pred

def findHinted (q : LimitedQueue T) (hint : Nat) (predicate : T → Bool) : Option (Nat × T) :=
  match q.buffer_.items[hint]?.filter predicate with
  | some item => some (hint, item)
  | none =>
    match q.buffer_.items.findIdx? predicate with
    | some i => q.buffer_.items[i]?.map fun item => (i, item)
    | none => none

def rfind (q : LimitedQueue T) (pred : T → Bool) : Option T := q.buffer_.items.reverse.find? pred

@[simp] theorem limit_pushBack (q : LimitedQueue T) (item : T) : (q.pushBack item).1.limit = q.limit := rfl

@[simp] theorem limit_clear (q : LimitedQueue T) : q.clear.limit = q.limit := rfl

@[simp] theorem limit_pushFront (q : LimitedQueue T) (items : List T) : (q.pushFront items).1.limit = q.limit := rfl

@[simp] theorem getSnapshot_clear (q : LimitedQueue T) : q.clear.getSnapshot = [] := rfl

@[simp] theorem getSnapshot_set (q : LimitedQueue T) (index : Nat) (replacement : T) :
    (q.set index replacement).getSnapshot = q.getSnapshot.set index replacement := rfl

theorem getSnapshot_pushBack (q : LimitedQueue T) (item : T) :
    (q.pushBack item).1.getSnapshot = (q.getSnapshot ++ [item]).rtake q.limit := by
  rw [← q.capacity_eq]
  exact q.buffer_.items_pushBack item

theorem snd_pushFront (q : LimitedQueue T) (items : List T) : (q.pushFront items).2 = items.rtake q.space := by
  have hDrop : items.length - min items.length q.space = items.length - q.space := by omega
  exact congrArg (List.drop · items) hDrop

theorem lastN_eq (q : LimitedQueue T) (nItems : Nat) : q.lastN nItems = q.getSnapshot.rtake nItems := by
  have hDrop (n : Nat) : n - min nItems n = n - nItems := by omega
  exact congrArg (List.drop · q.buffer_.items) (hDrop _)

section needle

variable [DecidableEq T]

@[simp] theorem limit_replaceItem (q : LimitedQueue T) (needle replacement : T) :
    (q.replaceItem needle replacement).1.limit = q.limit := by
  unfold replaceItem
  split
  · rfl
  · rfl

theorem getSnapshot_replaceItem_of_eq {q : LimitedQueue T} {l r : List T} {needle : T} (replacement : T)
    (h : q.getSnapshot = l ++ needle :: r) (hNotMem : needle ∉ l) :
    (q.replaceItem needle replacement).1.getSnapshot = l ++ replacement :: r := by
  have hItems : q.buffer_.items = l ++ needle :: r := h
  have hFind : q.buffer_.items.findIdx? (· == needle) = some l.length := by
    rw [hItems]
    exact findIdx?_append_cons hNotMem
  simp only [replaceItem, hFind]
  rw [getSnapshot_set, h, List.set_append_right _ _ (le_refl _), Nat.sub_self, List.set_cons_zero]

theorem replaceItem_of_not_mem {q : LimitedQueue T} {needle : T} (replacement : T) (h : needle ∉ q.getSnapshot) :
    q.replaceItem needle replacement = (q, -1) := by
  simp only [replaceItem, findIdx?_eq_none (show needle ∉ q.buffer_.items from h)]

end needle

end LimitedQueue

end Chatterino
