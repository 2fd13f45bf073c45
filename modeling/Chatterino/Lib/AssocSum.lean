import Mathlib.Algebra.BigOperators.Group.List.Basic
import Mathlib.Data.List.AList
import Mathlib.Algebra.Order.Group.Multiset

/-! # Sums over the values of a finite map

What the values of a map amount to together, and how writing or erasing one entry changes it.
-/

namespace Lib.AssocSum

universe u v w

variable {Key : Type u} {Value : Type v} {M : Type w} [DecidableEq Key] [AddCommMonoid M]
  {f : Value → M} {s : AList fun _ : Key => Value} {k : Key} {old : Value}

omit [DecidableEq Key] in
def total (f : Value → M) (s : AList fun _ : Key => Value) : M :=
  (s.entries.map fun entry => f entry.2).sum

theorem add_total_erase (h : s.lookup k = some old) : f old + total f (s.erase k) = total f s := by
  have hMem : k ∈ s.entries.keys := AList.mem_keys.mp (AList.lookup_isSome.mp (by simp [h]))
  obtain ⟨v, front, back, hFront, hEntries, hErase⟩ := List.exists_of_kerase hMem
  have hOld : old = v := by
    have hEntry : Sigma.mk k v ∈ s.entries := by simp [hEntries]
    have hLookup := AList.mem_lookup_iff.mpr hEntry
    rw [h] at hLookup
    exact Option.some.inj hLookup
  subst hOld
  change f old + ((List.kerase k s.entries).map _).sum = _
  rw [hErase, total, hEntries]
  simp only [List.map_append, List.map_cons, List.sum_append, List.sum_cons]
  exact add_left_comm _ _ _

theorem total_insert (new : Value) : total f (s.insert k new) = f new + total f (s.erase k) := by
  simp only [total, AList.entries_insert, List.map_cons, List.sum_cons]
  rfl

theorem add_total_insert (h : s.lookup k = some old) (new : Value) :
    f old + total f (s.insert k new) = f new + total f s := by
  rw [total_insert, add_left_comm, add_total_erase h]

theorem total_insert_of_notMem (h : k ∉ s) (new : Value) : total f (s.insert k new) = f new + total f s := by
  rw [total, AList.entries_insert_of_notMem h, List.map_cons, List.sum_cons]
  rfl

theorem total_eq_zero (h : ∀ k v, s.lookup k = some v → f v = 0) : total f s = 0 := by
  refine List.sum_eq_zero fun x hx => ?_
  obtain ⟨⟨k, v⟩, hEntry, rfl⟩ := List.mem_map.mp hx
  exact h k v (AList.mem_lookup_iff.mpr hEntry)

theorem mem_total {α : Type w} {f : Value → Multiset α} {x : α} :
    x ∈ total f s ↔ ∃ k v, s.lookup k = some v ∧ x ∈ f v := by
  have hList (l : List (Sigma fun _ : Key => Value)) :
      x ∈ (l.map fun entry => f entry.2).sum ↔ ∃ entry ∈ l, x ∈ f entry.2 := by
    induction l with
    | nil => simp
    | cons entry l ih => simp [ih]
  refine (hList s.entries).trans ⟨?_, ?_⟩
  · rintro ⟨⟨k, v⟩, hEntry, hx⟩
    exact ⟨k, v, AList.mem_lookup_iff.mpr hEntry, hx⟩
  · rintro ⟨k, v, hLookup, hx⟩
    exact ⟨⟨k, v⟩, AList.mem_lookup_iff.mp hLookup, hx⟩

end Lib.AssocSum
