import Mathlib.Data.List.Basic
import Mathlib.Logic.Relation

/-! # Objects held by references

An object is alive as long as a path of strong references leads to it from a root. Objects only refer to older
ones, so a bounded search finds every path.
-/

namespace Lib

universe u

variable {Ref : Type u}

def Held (refs : Ref → List Ref) (roots : List Ref) (ref : Ref) : Prop :=
  ∃ root ∈ roots, Relation.ReflTransGen (fun holder target => target ∈ refs holder) root ref

def heldWithin (refs : Ref → List Ref) : Nat → List Ref → List Ref
  | 0, roots => roots
  | n + 1, roots => roots ++ heldWithin refs n (roots.flatMap refs)

namespace Held

variable {refs refs' : Ref → List Ref} {roots roots' : List Ref} {ref root : Ref}

theorem of_mem (h : ref ∈ roots) : Held refs roots ref := ⟨ref, h, .refl⟩

theorem target {target : Ref} (h : Held refs roots ref) (hTarget : target ∈ refs ref) : Held refs roots target := by
  obtain ⟨root, hRoot, hPath⟩ := h
  exact ⟨root, hRoot, hPath.tail hTarget⟩

theorem iff_mem_or_flatMap : Held refs roots ref ↔ ref ∈ roots ∨ Held refs (roots.flatMap refs) ref := by
  constructor
  · rintro ⟨root, hRoot, hPath⟩
    rcases hPath.cases_head with rfl | ⟨next, hNext, hPath⟩
    · exact .inl hRoot
    · exact .inr ⟨next, List.mem_flatMap.mpr ⟨root, hRoot, hNext⟩, hPath⟩
  · rintro (hRoot | ⟨next, hNext, hPath⟩)
    · exact of_mem hRoot
    · obtain ⟨root, hRoot, hNext⟩ := List.mem_flatMap.mp hNext
      exact ⟨root, hRoot, hPath.head hNext⟩

theorem of_roots (h : Held refs roots' ref) (hRoots : ∀ root ∈ roots', Held refs roots root) :
    Held refs roots ref := by
  obtain ⟨root', hRoot', hPath'⟩ := h
  obtain ⟨root, hRoot, hPath⟩ := hRoots root' hRoot'
  exact ⟨root, hRoot, hPath.trans hPath'⟩

theorem mono (h : Held refs roots ref) (hRoots : roots ⊆ roots') : Held refs roots' ref :=
  h.of_roots fun _ hRoot => of_mem (hRoots hRoot)

theorem cons_iff (hRefs : ∀ target ∈ refs root, Held refs roots target) :
    Held refs (root :: roots) ref ↔ ref = root ∨ Held refs roots ref := by
  constructor
  · intro h
    rcases iff_mem_or_flatMap.mp h with hMem | hNext
    · exact (List.mem_cons.mp hMem).imp_right of_mem
    · refine .inr (hNext.of_roots fun target hTarget => ?_)
      obtain ⟨holder, hHolder, hRef⟩ := List.mem_flatMap.mp hTarget
      rcases List.mem_cons.mp hHolder with rfl | hHolder
      · exact hRefs target hRef
      · exact (of_mem hHolder).target hRef
  · rintro (rfl | h)
    · exact of_mem List.mem_cons_self
    · exact h.mono (List.subset_cons_self _ _)

theorem congr (hRefs : ∀ holder, Held refs roots holder → refs' holder = refs holder) :
    Held refs' roots ref ↔ Held refs roots ref := by
  constructor
  · rintro ⟨root, hRoot, hPath⟩
    induction hPath with
    | refl => exact of_mem hRoot
    | tail _ hStep ih => exact ih.target (hRefs _ ih ▸ hStep)
  · rintro ⟨root, hRoot, hPath⟩
    induction hPath with
    | refl => exact of_mem hRoot
    | tail hPath hStep ih => exact ih.target ((hRefs _ ⟨root, hRoot, hPath⟩).symm ▸ hStep)

section rank

variable {rank : Ref → Nat} (hOlder : ∀ holder, ∀ target ∈ refs holder, rank target < rank holder)

include hOlder

theorem rank_lt {n : Nat} (h : Held refs roots ref) (hRoots : ∀ root ∈ roots, rank root < n) : rank ref < n := by
  obtain ⟨root, hRoot, hPath⟩ := h
  induction hPath with
  | refl => exact hRoots root hRoot
  | tail _ hStep ih => exact Nat.lt_trans (hOlder _ _ hStep) ih

theorem mem_heldWithin_iff {n : Nat} (hRoots : ∀ root ∈ roots, rank root ≤ n) :
    ref ∈ heldWithin refs n roots ↔ Held refs roots ref := by
  induction n generalizing roots with
  | zero =>
    rw [heldWithin, iff_mem_or_flatMap, or_iff_left]
    rintro ⟨target, hTarget, -⟩
    obtain ⟨root, hRoot, hTarget⟩ := List.mem_flatMap.mp hTarget
    exact absurd (Nat.lt_of_lt_of_le (hOlder root target hTarget) (hRoots root hRoot)) (Nat.not_lt_zero _)
  | succ n ih =>
    rw [heldWithin, List.mem_append, iff_mem_or_flatMap]
    refine or_congr_right (ih fun target hTarget => ?_)
    obtain ⟨root, hRoot, hTarget⟩ := List.mem_flatMap.mp hTarget
    exact Nat.le_of_lt_succ (Nat.lt_of_lt_of_le (hOlder root target hTarget) (hRoots root hRoot))

end rank

end Held

end Lib
