import Mathlib

/-! # Pieces of a text

A piece is a part of a text with the position it stands at. The items of a group of pieces are counted over the
positions that the pieces cover.
-/

namespace Lib

universe u

variable {α : Type u}

structure Piece (α : Type u) where
  start : Nat
  items : List α
  deriving DecidableEq

namespace Piece

def Contains (piece : Piece α) (p : Nat) : Prop := piece.start ≤ p ∧ p < piece.start + piece.items.length

instance (piece : Piece α) (p : Nat) : Decidable (piece.Contains p) := inferInstanceAs (Decidable (_ ∧ _))

theorem contains_cons {start p : Nat} {a : α} {items : List α} :
    Contains ⟨start, a :: items⟩ p ↔ p = start ∨ Contains ⟨start + 1, items⟩ p := by
  simp only [Contains, List.length_cons]
  omega

theorem not_contains_nil {start p : Nat} : ¬Contains ⟨start, ([] : List α)⟩ p := by
  simp only [Contains, List.length_nil]
  omega

theorem not_contains_succ {start : Nat} {items : List α} : ¬Contains ⟨start + 1, items⟩ start := by
  simp only [Contains]
  omega

def In (piece : Piece α) (text : List α) : Prop := piece.items <+: text.drop piece.start

end Piece

def cover (pieces : List (Piece α)) (p : Nat) : Nat := pieces.countP fun piece => piece.Contains p

variable {text : List α} {pieces pieces' : List (Piece α)} {p : Nat}

@[simp] theorem cover_nil : cover ([] : List (Piece α)) p = 0 := rfl

theorem cover_cons (piece : Piece α) : cover (piece :: pieces) p = cover pieces p + if piece.Contains p then 1 else 0 := by
  simp [cover, List.countP_cons]

theorem cover_append : cover (pieces ++ pieces') p = cover pieces p + cover pieces' p := List.countP_append

theorem cover_eq_zero_iff : cover pieces p = 0 ↔ ∀ piece ∈ pieces, ¬piece.Contains p := by
  simp [cover, List.countP_eq_zero]

theorem countP_eq_sum {piece : Piece α} (q : α → Bool) (h : piece.In text) : piece.items.countP q =
    ∑ p ∈ Finset.range text.length, if piece.Contains p ∧ (text[p]?).any q then 1 else 0 := by
  obtain ⟨start, items⟩ := piece
  induction items generalizing start with
  | nil =>
    rw [List.countP_nil, eq_comm, Finset.sum_eq_zero_iff]
    intro p _
    rw [if_neg fun h => Piece.not_contains_nil h.1]
  | cons a items ih =>
    obtain ⟨rest, hRest⟩ := h
    have hDrop : text.drop start = a :: (items ++ rest) := hRest.symm
    have hGet : text[start]? = some a := by
      rw [← List.head?_drop, hDrop, List.head?_cons]
    have hStart : start < text.length := (List.getElem?_eq_some_iff.mp hGet).1
    have hIn : Piece.In ⟨start + 1, items⟩ text := by
      refine ⟨rest, ?_⟩
      rw [← List.drop_drop, hDrop]
      rfl
    have hSplit (p : Nat) : (if Piece.Contains ⟨start, a :: items⟩ p ∧ (text[p]?).any q then 1 else 0) =
        (if Piece.Contains ⟨start + 1, items⟩ p ∧ (text[p]?).any q then 1 else 0) +
          if start = p then if q a then 1 else 0 else 0 := by
      rcases eq_or_ne start p with rfl | hp
      · simp [Piece.contains_cons, Piece.not_contains_succ, hGet]
      · rw [if_neg hp, Nat.add_zero]
        simp only [Piece.contains_cons, hp.symm, false_or]
    rw [List.countP_cons, ih _ hIn, Finset.sum_congr rfl fun p _ => hSplit p, Finset.sum_add_distrib,
      Finset.sum_ite_eq, if_pos (Finset.mem_range.mpr hStart)]

theorem sum_countP_eq_sum (q : α → Bool) (h : ∀ piece ∈ pieces, piece.In text) :
    (pieces.map fun piece => piece.items.countP q).sum =
      ∑ p ∈ Finset.range text.length, if (text[p]?).any q then cover pieces p else 0 := by
  induction pieces with
  | nil => simp
  | cons piece pieces ih =>
    rw [List.forall_mem_cons] at h
    rw [List.map_cons, List.sum_cons, countP_eq_sum q h.1, ih h.2, ← Finset.sum_add_distrib]
    refine Finset.sum_congr rfl fun p _ => ?_
    rw [cover_cons]
    by_cases hQ : (text[p]?).any q
    · rw [if_pos hQ, if_pos hQ, Nat.add_comm]
      simp only [hQ, and_true]
    · rw [if_neg hQ, if_neg hQ, if_neg fun hBoth => hQ hBoth.2]

section split

variable [DecidableEq α] (sep : α)

def splitPieces : Nat → List α → List (Piece α)
  | start, [] => [⟨start, []⟩]
  | start, a :: text =>
    if a = sep then ⟨start, []⟩ :: splitPieces (start + 1) text
    else (splitPieces (start + 1) text).modifyHead fun piece => ⟨start, a :: piece.items⟩

theorem exists_splitPieces_eq_cons (start : Nat) (text : List α) :
    ∃ items rest, splitPieces sep start text = ⟨start, items⟩ :: rest := by
  cases text with
  | nil => exact ⟨[], [], rfl⟩
  | cons a text =>
    by_cases hSep : a = sep
    · exact ⟨[], _, if_pos hSep⟩
    · obtain ⟨items, rest, hRest⟩ : ∃ items rest, splitPieces sep (start + 1) text = ⟨start + 1, items⟩ :: rest :=
        exists_splitPieces_eq_cons _ text
      exact ⟨a :: items, rest, by rw [splitPieces, if_neg hSep, hRest, List.modifyHead_cons]⟩

theorem map_items_splitPieces (start : Nat) (text : List α) :
    (splitPieces sep start text).map Piece.items = text.splitOn sep := by
  induction text generalizing start with
  | nil => rfl
  | cons a text ih =>
    rw [List.splitOn_cons_eq_if_modifyHead, ← ih (start + 1), splitPieces]
    obtain ⟨items, rest, hRest⟩ := exists_splitPieces_eq_cons sep (start + 1) text
    by_cases hSep : a = sep
    · rw [if_pos hSep, if_pos (beq_iff_eq.mpr hSep), List.map_cons]
    · rw [if_neg hSep, if_neg (by simpa using hSep), hRest]
      rfl

theorem cover_splitPieces (start : Nat) (text : List α) (p : Nat) : cover (splitPieces sep start text) p =
    if start ≤ p ∧ ∃ a ∈ text[p - start]?, a ≠ sep then 1 else 0 := by
  induction text generalizing start with
  | nil => simp [splitPieces, cover_cons, Piece.not_contains_nil]
  | cons a text ih =>
    have hIh := ih (start + 1)
    have hShift (hp : start < p) : (a :: text)[p - start]? = text[p - (start + 1)]? := by
      obtain ⟨k, rfl⟩ := Nat.exists_eq_add_of_lt hp
      rw [Nat.add_assoc, Nat.add_sub_cancel_left, List.getElem?_cons_succ, Nat.add_sub_add_left, Nat.add_sub_cancel]
    obtain ⟨items, rest, hRest⟩ := exists_splitPieces_eq_cons sep (start + 1) text
    have hParts : cover (splitPieces sep start (a :: text)) p =
        cover (splitPieces sep (start + 1) text) p + if p = start ∧ a ≠ sep then 1 else 0 := by
      rw [splitPieces]
      by_cases hSep : a = sep
      · rw [if_pos hSep, cover_cons, if_neg Piece.not_contains_nil, if_neg fun h => h.2 hSep]
      · rw [if_neg hSep, hRest, List.modifyHead_cons, cover_cons, cover_cons, Nat.add_assoc]
        congr 1
        rcases eq_or_ne p start with rfl | hp
        · simp [Piece.contains_cons, Piece.not_contains_succ, hSep]
        · simp [Piece.contains_cons, hp]
    rw [hParts, hIh]
    rcases Nat.lt_trichotomy p start with hp | rfl | hp
    · rw [if_neg (by omega), if_neg (by omega), if_neg (by omega)]
    · rw [if_neg (by omega), Nat.sub_self]
      simp
    · rw [hShift hp, if_neg (by omega : ¬(p = start ∧ _)), Nat.add_zero]
      congr 1
      rw [eq_iff_iff]
      exact and_congr_left fun _ => by omega

theorem forall_mem_splitPieces {start : Nat} {part : List α} (h : part <+: text.drop start) :
    ∀ piece ∈ splitPieces sep start part,
      piece.In text ∧ start ≤ piece.start ∧ piece.start + piece.items.length ≤ start + part.length := by
  induction part generalizing start with
  | nil =>
    intro piece hPiece
    rw [List.mem_singleton.mp hPiece]
    exact ⟨List.nil_prefix, le_rfl, le_rfl⟩
  | cons a part ih =>
    obtain ⟨rest, hRest⟩ := h
    have hTail : part <+: text.drop (start + 1) := by
      refine ⟨rest, ?_⟩
      rw [← List.drop_drop, ← hRest]
      rfl
    have hParts := ih hTail
    rw [splitPieces]
    by_cases hSep : a = sep
    · rw [if_pos hSep, List.forall_mem_cons]
      refine ⟨⟨List.nil_prefix, le_rfl, Nat.le_add_right _ _⟩, fun piece hPiece => ?_⟩
      obtain ⟨hIn, hStart, hStop⟩ := hParts piece hPiece
      exact ⟨hIn, by omega, by rw [List.length_cons]; omega⟩
    · obtain ⟨items, others, hSplit⟩ := exists_splitPieces_eq_cons sep (start + 1) part
      rw [hSplit, List.forall_mem_cons] at hParts
      obtain ⟨⟨hIn, -, hStop⟩, hOthers⟩ := hParts
      rw [if_neg hSep, hSplit, List.modifyHead_cons, List.forall_mem_cons]
      refine ⟨⟨?_, le_rfl, ?_⟩, fun piece hPiece => ?_⟩
      · rw [Piece.In, ← hRest]
        obtain ⟨after, hAfter⟩ := hIn
        rw [← List.drop_drop, ← hRest] at hAfter
        exact ⟨after, congrArg (a :: ·) hAfter⟩
      · simp only [List.length_cons] at hStop ⊢
        omega
      · obtain ⟨hIn, hStart, hStop⟩ := hOthers piece hPiece
        exact ⟨hIn, by omega, by rw [List.length_cons]; omega⟩

theorem pairwise_splitPieces (start : Nat) (part : List α) :
    (splitPieces sep start part).Pairwise fun piece other => piece.start ≤ other.start := by
  induction part generalizing start with
  | nil => exact List.pairwise_singleton _ _
  | cons a part ih =>
    have hParts := ih (start + 1)
    have hPadded : part <+: (List.replicate (start + 1) a ++ part).drop (start + 1) := by simp
    have hStarts := forall_mem_splitPieces sep hPadded
    rw [splitPieces]
    by_cases hSep : a = sep
    · rw [if_pos hSep]
      exact List.pairwise_cons.mpr ⟨fun other hOther => by have := (hStarts other hOther).2.1; dsimp only; omega, hParts⟩
    · obtain ⟨items, others, hSplit⟩ := exists_splitPieces_eq_cons sep (start + 1) part
      rw [hSplit] at hParts hStarts
      rw [if_neg hSep, hSplit, List.modifyHead_cons]
      obtain ⟨-, hOthers⟩ := List.pairwise_cons.mp hParts
      refine List.pairwise_cons.mpr ⟨fun other hOther => ?_, hOthers⟩
      have := (hStarts other (List.mem_cons_of_mem _ hOther)).2.1
      dsimp only
      omega

end split

end Lib
