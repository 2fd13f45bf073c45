import Mathlib.Data.List.DropRight
import Mathlib.Data.List.InsertIdx
import Mathlib.Data.List.Nodup

/-! # A fixed-capacity ring buffer

The documented behaviour of a circular buffer: a full buffer loses its front element to an
insertion, except that nothing is inserted at the front of a full one. Every insertion is thus
an insertion into an unbounded list followed by keeping the last `capacity` elements.
-/

namespace Lib

universe u

structure CircularBuffer (α : Type u) where
  capacity : Nat
  items : List α
  fits : items.length ≤ capacity

namespace CircularBuffer

variable {α : Type u}

def ofCapacity (capacity : Nat) : CircularBuffer α := ⟨capacity, [], Nat.zero_le _⟩

def full (b : CircularBuffer α) : Bool := b.items.length == b.capacity

def clear (b : CircularBuffer α) : CircularBuffer α := { b with items := [], fits := Nat.zero_le _ }

/-- A full buffer overwrites its front element. -/
def pushBack (b : CircularBuffer α) (x : α) : CircularBuffer α where
  capacity := b.capacity
  items := if b.full then (b.items ++ [x]).drop 1 else b.items ++ [x]
  fits := by
    have h := b.fits
    split <;> simp_all [full]
    omega

/-- A full buffer overwrites its back element. -/
def pushFront (b : CircularBuffer α) (x : α) : CircularBuffer α where
  capacity := b.capacity
  items := if b.full then (x :: b.items).dropLast else x :: b.items
  fits := by
    have h := b.fits
    split <;> simp_all [full]
    omega

/-- Insertion before position `pos`; a full buffer drops its front element to make room, and
inserts nothing when `pos` is that front. -/
def insert (b : CircularBuffer α) (pos : Nat) (x : α) : CircularBuffer α where
  capacity := b.capacity
  items := if b.full then (if pos = 0 then b.items else (b.items.insertIdx pos x).drop 1)
    else b.items.insertIdx pos x
  fits := by
    have h := b.fits
    have hLength : (b.items.insertIdx pos x).length ≤ b.items.length + 1 :=
      List.length_insertIdx_le_succ
    split
    · split
      · exact h
      · rw [List.length_drop]
        omega
    · rename_i hFull
      have hLt : b.items.length ≠ b.capacity := by simpa [full] using hFull
      omega

def set (b : CircularBuffer α) (index : Nat) (x : α) : CircularBuffer α where
  capacity := b.capacity
  items := b.items.set index x
  fits := by simpa using b.fits

theorem rtake_of_length_le {l : List α} {n : Nat} (h : l.length ≤ n) : l.rtake n = l := by
  rw [List.rtake, Nat.sub_eq_zero_of_le h, List.drop_zero]

theorem rtake_append_of_le {l r : List α} {n : Nat} (h : r.length ≤ n) :
    (l ++ r).rtake n = l.rtake (n - r.length) ++ r := by
  simp only [List.rtake, List.length_append]
  rw [List.drop_append_of_le_length (by omega)]
  congr 2
  omega

theorem rtake_append_of_length_le {l r : List α} {n : Nat} (h : n ≤ r.length) :
    (l ++ r).rtake n = r.rtake n := by
  simp only [List.rtake, List.length_append]
  rw [show l.length + r.length - n = l.length + (r.length - n) by omega, List.drop_append]
  simp

theorem length_rtake (l : List α) (n : Nat) : (l.rtake n).length = min n l.length := by
  rw [List.rtake, List.length_drop]
  omega

theorem rtake_rtake_append {l r : List α} {n m : Nat} (h : n ≤ m + r.length) :
    (l.rtake m ++ r).rtake n = (l ++ r).rtake n := by
  by_cases hm : l.length ≤ m
  · rw [rtake_of_length_le hm]
  · have hLength : n ≤ (l.rtake m ++ r).length := by
      rw [List.length_append, length_rtake]
      omega
    have hSplit : l ++ r = l.take (l.length - m) ++ (l.rtake m ++ r) := by
      rw [← List.append_assoc, List.rtake, List.take_append_drop]
    rw [hSplit, rtake_append_of_length_le hLength]

theorem insertIdx_length_append (l r : List α) (x : α) :
    (l ++ r).insertIdx l.length x = l ++ x :: r := by
  induction l with
  | nil => rfl
  | cons y l ih => exact congrArg (y :: ·) ih

theorem items_insert (b : CircularBuffer α) {pos : Nat} (x : α) (hPos : pos ≤ b.items.length) :
    (b.insert pos x).items = (b.items.insertIdx pos x).rtake b.capacity := by
  have hFits := b.fits
  have hLength := List.length_insertIdx_of_le_length hPos x
  simp only [insert]
  split
  · rename_i hFull
    have hCap : b.items.length = b.capacity := by simpa [full] using hFull
    split
    · rename_i hZero
      subst hZero
      rw [List.insertIdx_zero, ← hCap, ← List.singleton_append,
        rtake_append_of_length_le (le_refl _), rtake_of_length_le (le_refl _)]
    · rw [List.rtake, hLength, hCap, Nat.add_sub_cancel_left]
  · rename_i hFull
    have hCap : b.items.length ≠ b.capacity := by simpa [full] using hFull
    rw [rtake_of_length_le (by omega)]

theorem items_pushBack (b : CircularBuffer α) (x : α) :
    (b.pushBack x).items = (b.items ++ [x]).rtake b.capacity := by
  have hFits := b.fits
  simp only [pushBack]
  split
  · rename_i hFull
    have hCap : b.items.length = b.capacity := by simpa [full] using hFull
    rw [List.rtake, List.length_append, hCap, List.length_singleton, Nat.add_sub_cancel_left]
  · rename_i hFull
    have hCap : b.items.length ≠ b.capacity := by simpa [full] using hFull
    rw [rtake_of_length_le (by simp only [List.length_append, List.length_singleton]; omega)]

theorem items_pushFront_of_lt (b : CircularBuffer α) (x : α) (h : b.items.length < b.capacity) :
    (b.pushFront x).items = x :: b.items := by
  have hFull : b.full = false := by simp [full]; omega
  simp [pushFront, hFull]

end CircularBuffer

end Lib

namespace Lib

open CircularBuffer

universe u

variable {α : Type u} {l r shown : List α} {n m : Nat}

theorem rtake_rtake (l : List α) (m n : Nat) : (l.rtake m).rtake n = l.rtake (min m n) := by
  have hLength := length_rtake l m
  rw [List.rtake, hLength, List.rtake, List.rtake, List.drop_drop]
  congr 1
  omega

theorem rtake_eq_nil_iff : l.rtake n = [] ↔ n = 0 ∨ l = [] := by
  rw [← List.length_eq_zero_iff, ← @List.length_eq_zero_iff _ l, length_rtake]
  omega

theorem mem_of_mem_rtake {x : α} (h : x ∈ l.rtake n) : x ∈ l := List.drop_subset _ _ h

theorem rtake_eq_rtake_rtake_iff : l.rtake n = (l.rtake m).rtake n ↔ n ≤ m ∨ l.length ≤ m := by
  rw [rtake_rtake]
  constructor
  · intro h
    have hLength := congrArg List.length h
    rw [length_rtake, length_rtake] at hLength
    omega
  · rintro (hLe | hShort)
    · rw [Nat.min_eq_right hLe]
    · rw [← rtake_rtake, rtake_of_length_le hShort]

theorem rtake_append_rtake (l r : List α) (n : Nat) : (l.rtake n ++ r).rtake n = (l ++ r).rtake n :=
  rtake_rtake_append (Nat.le_add_right _ _)

theorem tail_prepend (r l : List α) (n : Nat) :
    r.rtake (n - (l.rtake n).length) ++ l.rtake n = (r ++ l).rtake n := by
  rw [length_rtake]
  by_cases hLe : l.length ≤ n
  · rw [Nat.min_eq_right hLe, rtake_of_length_le hLe, rtake_append_of_le hLe]
  · have hLt : n ≤ l.length := Nat.le_of_not_le hLe
    rw [Nat.min_eq_left hLt, Nat.sub_self, rtake_append_of_length_le hLt, List.rtake_zero, List.nil_append]

def position [DecidableEq α] (hint : Nat) (x : α) (l : List α) : Option Nat :=
  if l[hint]? = some x then some hint else l.findIdx? (· == x)

def setAt (index : Option Nat) (x : α) (l : List α) : List α := (index.map fun i => l.set i x).getD l

def inTail (n length : Nat) (index : Option Nat) : Option Nat :=
  index.bind fun i => if i < length - n then none else some (i - (length - n))

section decidable

variable [DecidableEq α] {hint : Nat} {prev replacement : α}

theorem getElem?_position {i : Nat} (h : position hint prev l = some i) : l[i]? = some prev := by
  unfold position at h
  split at h
  · rename_i hHint
    rwa [← Option.some.inj h]
  · obtain ⟨hLt, hEq, -⟩ := List.findIdx?_eq_some_iff_getElem.mp h
    rw [List.getElem?_eq_getElem hLt, eq_of_beq hEq]

theorem position_eq_none_iff : position hint prev l = none ↔ prev ∉ l := by
  unfold position
  split
  · rename_i hHint
    exact iff_of_false (Option.some_ne_none _) (not_not_intro (List.mem_of_getElem? hHint))
  · rw [List.findIdx?_eq_none_iff]
    constructor
    · intro h hMem
      simpa using h prev hMem
    · intro h x hx
      simpa using ne_of_mem_of_not_mem hx h

theorem setAt_position_self : setAt (position hint prev l) prev l = l := by
  cases h : position hint prev l with
  | none => rfl
  | some i =>
    obtain ⟨hLt, hEq⟩ := List.getElem?_eq_some_iff.mp (getElem?_position h)
    rw [setAt, Option.map_some, Option.getD_some, ← hEq, List.set_getElem_self]

end decidable

theorem rtake_setAt (index : Option Nat) (x : α) (l : List α) (n : Nat) :
    (setAt index x l).rtake n = setAt (inTail n l.length index) x (l.rtake n) := by
  cases index with
  | none => rfl
  | some i =>
    simp only [setAt, inTail, Option.map_some, Option.getD_some, Option.bind_some, List.rtake, List.length_set,
      List.drop_set]
    split <;> rfl

theorem getElem?_inTail {index : Option Nat} {prev : α} (h : ∀ i ∈ index, l[i]? = some prev) {j : Nat}
    (hj : j ∈ inTail n l.length index) : (l.rtake n)[j]? = some prev := by
  obtain ⟨i, hi, hPlace⟩ := Option.bind_eq_some_iff.mp hj
  split at hPlace
  · cases hPlace
  · obtain rfl := Option.some.inj hPlace
    rw [List.rtake, List.getElem?_drop, ← h i hi]
    congr 1
    omega

theorem setAt_inj {o o' : Option Nat} {prev replacement : α} (hNe : prev ≠ replacement)
    (h : ∀ i ∈ o, l[i]? = some prev) (h' : ∀ i ∈ o', l[i]? = some prev) :
    setAt o replacement l = setAt o' replacement l ↔ o = o' := by
  have hSet {i : Nat} (hi : l[i]? = some prev) : (l.set i replacement)[i]? = some replacement := by
    obtain ⟨hLt, -⟩ := List.getElem?_eq_some_iff.mp hi
    rw [List.getElem?_set_self hLt]
  have hOther {i : Nat} {o : Option Nat} (hi : l[i]? = some prev)
      (hReplaced : (setAt o replacement l)[i]? = some replacement) : o = some i := by
    cases o with
    | none => exact absurd (Option.some.inj (hi.symm.trans hReplaced)) hNe
    | some j =>
      by_cases hEq : j = i
      · rw [hEq]
      · rw [setAt, Option.map_some, Option.getD_some, List.getElem?_set_ne hEq, hi] at hReplaced
        exact absurd (Option.some.inj hReplaced) hNe
  constructor
  · intro hEq
    cases o with
    | some i => exact (hOther (h i rfl) (hEq ▸ hSet (h i rfl))).symm
    | none =>
      cases o' with
      | none => rfl
      | some i => exact hOther (h' i rfl) (hEq ▸ hSet (h' i rfl))
  · exact fun hEq => congrArg (setAt · replacement l) hEq

theorem tail_replace_iff [DecidableEq α] {hint : Nat} {prev replacement : α} (hShown : shown = l.rtake n) :
    setAt (position hint prev shown) replacement shown = (setAt (position hint prev l) replacement l).rtake n ↔
      prev = replacement ∨ position hint prev shown = inTail n l.length (position hint prev l) := by
  subst hShown
  by_cases hSame : prev = replacement
  · subst hSame
    rw [setAt_position_self, setAt_position_self]
    exact iff_of_true rfl (.inl rfl)
  · rw [rtake_setAt, setAt_inj hSame (fun i hi => getElem?_position hi)
      (fun j hj => getElem?_inTail (fun i hi => getElem?_position hi) hj)]
    exact (or_iff_right hSame).symm

end Lib
