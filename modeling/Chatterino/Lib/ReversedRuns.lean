import Mathlib.Data.List.Perm.Basic
import Mathlib.Data.List.SplitBy
import Mathlib.Data.List.TakeWhile

/-! # Reversing the marked runs of a list -/

namespace Lib

universe u

variable {α : Type u} {marked : α → Bool} {list rest : List α} {a : α}

def runs (marked : α → Bool) (list : List α) : List (List α) := list.splitBy fun a b => marked a == marked b

def reverseRuns (marked : α → Bool) (list : List α) : List α :=
  (runs marked list).flatMap fun run => if run.any marked then run.reverse else run

theorem perm_reverseRuns (marked : α → Bool) (list : List α) : (reverseRuns marked list).Perm list := by
  have hEach : (reverseRuns marked list).Perm ((runs marked list).flatMap id) := by
    apply List.Perm.flatMap_left
    intro run _
    split
    · exact List.reverse_perm run
    · exact List.Perm.refl run
  rwa [List.flatMap_id, runs, List.flatten_splitBy] at hEach

theorem eq_of_mem_run {run : List α} (h : run ∈ runs marked list) {x y : α} (hx : x ∈ run) (hy : y ∈ run) :
    marked x = marked y := by
  have hChain : run.IsChain fun a b => marked a = marked b := by
    apply (List.isChain_of_mem_splitBy h).imp
    intro a b hEq
    exact eq_of_beq hEq
  have : IsTrans α fun a b => marked a = marked b := ⟨fun _ _ _ => Eq.trans⟩
  have hPairs : run.Pairwise fun a b => marked a = marked b := List.isChain_iff_pairwise.mp hChain
  have : Std.Symm fun a b => marked a = marked b := ⟨fun _ _ => Eq.symm⟩
  have hRefl : ∀ x ∈ run, (fun a b => marked a = marked b) x x := fun _ _ => rfl
  exact List.Pairwise.forall_of_forall hRefl hPairs hx hy

theorem reverseRuns_append (h : ∀ x ∈ list.getLast?, ∀ y ∈ rest.head?, (marked x == marked y) = false) :
    reverseRuns marked (list ++ rest) = reverseRuns marked list ++ reverseRuns marked rest := by
  rw [reverseRuns, runs, List.splitBy_append h, List.flatMap_append]
  rfl

theorem runs_of_forall {mark : Bool} (hList : list ≠ []) (h : ∀ x ∈ list, marked x = mark) : runs marked list = [list] := by
  apply List.splitBy_of_isChain hList
  apply List.Pairwise.isChain
  apply List.pairwise_of_forall_mem_list
  intro x hx y hy
  rw [h x hx, h y hy, beq_self_eq_true]

theorem reverseRuns_of_marked (h : ∀ x ∈ list, marked x = true) : reverseRuns marked list = list.reverse := by
  obtain _ | ⟨x, xs⟩ := list
  · rfl
  · rw [reverseRuns, runs_of_forall (List.cons_ne_nil x xs) h, List.flatMap_singleton, if_pos]
    exact List.any_eq_true.mpr ⟨x, List.mem_cons_self, h x List.mem_cons_self⟩

theorem reverseRuns_of_unmarked (h : ∀ x ∈ list, marked x = false) : reverseRuns marked list = list := by
  obtain _ | ⟨x, xs⟩ := list
  · rfl
  · rw [reverseRuns, runs_of_forall (List.cons_ne_nil x xs) h, List.flatMap_singleton, if_neg]
    rw [List.any_eq_true]
    rintro ⟨y, hy, hMarked⟩
    rw [h y hy] at hMarked
    cases hMarked

theorem filter_reverseRuns (marked : α → Bool) (list : List α) :
    (reverseRuns marked list).filter (fun x => !marked x) = list.filter fun x => !marked x := by
  have hEach : ∀ run ∈ runs marked list, (if run.any marked then run.reverse else run).filter (fun x => !marked x) =
      run.filter fun x => !marked x := by
    intro run hRun
    split
    · rename_i hAny
      obtain ⟨x, hx, hMarked⟩ := List.any_eq_true.mp hAny
      have hAll : ∀ y ∈ run, marked y = true := fun y hy => (eq_of_mem_run hRun hy hx).trans hMarked
      have hNone : run.filter (fun x => !marked x) = [] := by
        rw [List.filter_eq_nil_iff]
        intro y hy
        rw [hAll y hy]
        decide
      rw [List.filter_reverse, hNone, List.reverse_nil]
    · rfl
  calc
    _ = (runs marked list).flatMap fun run => (if run.any marked then run.reverse else run).filter fun x => !marked x :=
      List.filter_flatMap
    _ = (runs marked list).flatMap fun run => run.filter fun x => !marked x := List.flatMap_congr hEach
    _ = (runs marked list).flatten.filter fun x => !marked x := by
      rw [List.filter_flatten, List.flatMap_def]
    _ = _ := by rw [runs, List.flatten_splitBy]

theorem reverseRuns_cons_unmarked (h : marked a = false) : reverseRuns marked (a :: list) = a :: reverseRuns marked list := by
  have hUnmarked : ∀ x ∈ list.takeWhile fun x => !marked x, marked x = false := by
    intro x hx
    have hNot := List.mem_takeWhile_imp hx
    rwa [Bool.not_eq_true'] at hNot
  have hMarked : ∀ y ∈ (list.dropWhile fun x => !marked x).head?, marked y = true := by
    intro y hy
    have hNot := List.head?_dropWhile_not (fun x => !marked x) list
    rw [hy] at hNot
    dsimp only at hNot
    rwa [Bool.not_eq_false'] at hNot
  have hSplit : ∀ front : List α, (∀ x ∈ front, marked x = false) →
      reverseRuns marked (front ++ list.dropWhile fun x => !marked x) =
        front ++ reverseRuns marked (list.dropWhile fun x => !marked x) := by
    intro front hFront
    rw [reverseRuns_append, reverseRuns_of_unmarked hFront]
    intro x hx y hy
    rw [hFront x (List.mem_of_getLast? hx), hMarked y hy]
    rfl
  have hCons := hSplit (a :: list.takeWhile fun x => !marked x) (List.forall_mem_cons.mpr ⟨h, hUnmarked⟩)
  have hRest := hSplit _ hUnmarked
  rw [List.cons_append, List.takeWhile_append_dropWhile] at hCons
  rw [List.takeWhile_append_dropWhile] at hRest
  rw [hCons, hRest, List.cons_append]

theorem reverseRuns_append_unmarked (hMarked : ∀ x ∈ list, marked x = true) (h : marked a = false) :
    reverseRuns marked (list ++ a :: rest) = list.reverse ++ a :: reverseRuns marked rest := by
  rw [reverseRuns_append, reverseRuns_of_marked hMarked, reverseRuns_cons_unmarked h]
  intro x hx y hy
  rw [List.head?_cons, Option.mem_some_iff] at hy
  rw [hMarked x (List.mem_of_getLast? hx), ← hy, h]
  rfl

end Lib
