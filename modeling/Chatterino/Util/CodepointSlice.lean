import Chatterino.Common.LinkParser

/-! # Slices over code points

The cursor takes a pair of surrogates in one step. The view is null where the code returns a null view.
-/

namespace Chatterino

open QString

def nextCodepoint (str : QString) (pos : Nat) : Nat :=
  if (str[pos]?).any isHighSurrogate ∧ (str[pos + 1]?).any isLowSurrogate then pos + 2 else pos + 1

def sliceLoop (str : QString) (begin_ end_ n pos : Nat) (sliceBegin : Option Nat) : Option (Nat × Nat) :=
  if n < end_ then
    if str.length ≤ pos then none
    else sliceLoop str begin_ end_ (n + 1) (nextCodepoint str pos) (if n = begin_ then some pos else sliceBegin)
  else sliceBegin.map fun first => (first, pos)
termination_by end_ - n

def codepointSlice (str : QString) (begin_ end_ : Int) : Option (Nat × Nat) :=
  if end_ ≤ begin_ ∨ begin_ < 0 then none else sliceLoop str begin_.toNat end_.toNat 0 0 none

def sliceText (str : QString) (begin_ end_ : Int) : QString :=
  (codepointSlice str begin_ end_).elim [] fun slice => (str.take slice.2).drop slice.1

theorem nextCodepoint_eq {str rest : QString} {pos : Nat} {c : Char} (h : str.drop pos = encodeChar c ++ rest) :
    nextCodepoint str pos = pos + (encodeChar c).length := by
  have hFirst : str[pos]? = (encodeChar c ++ rest)[0]? := by rw [← h, List.getElem?_drop, Nat.add_zero]
  have hSecond : str[pos + 1]? = (encodeChar c ++ rest)[1]? := by rw [← h, List.getElem?_drop]
  rw [nextCodepoint, hFirst, hSecond]
  rcases encodeChar_cases c with ⟨u, hEncode, hHigh, -⟩ | ⟨high, low, hEncode, hHigh, hLow⟩
  · rw [hEncode]
    simp [hHigh]
  · rw [hEncode]
    simp [hHigh, hLow]

def unitsBefore (text : List Char) (n : Nat) : Nat := (utf16 (text.take n)).length

theorem drop_unitsBefore (text : List Char) (n : Nat) : (utf16 text).drop (unitsBefore text n) = utf16 (text.drop n) := by
  have hText : utf16 text = utf16 (text.take n) ++ utf16 (text.drop n) := by rw [← utf16_append, List.take_append_drop]
  rw [hText, unitsBefore]
  exact List.drop_left

theorem encodeChar_ne_nil (c : Char) : encodeChar c ≠ [] := by
  rw [encodeChar]
  split <;> exact List.cons_ne_nil _ _

theorem nextCodepoint_unitsBefore {text : List Char} {n : Nat} (h : n < text.length) :
    nextCodepoint (utf16 text) (unitsBefore text n) = unitsBefore text (n + 1) := by
  have hDrop : (utf16 text).drop (unitsBefore text n) = encodeChar text[n] ++ utf16 (text.drop (n + 1)) := by
    rw [drop_unitsBefore, List.drop_eq_getElem_cons h, utf16_cons]
  rw [nextCodepoint_eq hDrop, unitsBefore, unitsBefore, List.take_add_one, List.getElem?_eq_getElem h, utf16_append,
    List.length_append, Option.toList_some, utf16_cons, List.length_append]
  rfl

theorem unitsBefore_lt_iff {text : List Char} {n : Nat} : unitsBefore text n < (utf16 text).length ↔ n < text.length := by
  have hDrop := congrArg List.length (drop_unitsBefore text n)
  rw [List.length_drop] at hDrop
  constructor
  · intro h
    by_contra hEnd
    have hNil : (utf16 []).length = 0 := rfl
    rw [List.drop_eq_nil_of_le (not_lt.mp hEnd), hNil] at hDrop
    omega
  · intro h
    rw [List.drop_eq_getElem_cons h, utf16_cons, List.length_append] at hDrop
    have hChar := List.length_pos_iff.mpr (encodeChar_ne_nil text[n])
    omega

theorem sliceLoop_eq {text : List Char} {begin_ end_ n : Nat} {sliceBegin : Option Nat} (hn : n ≤ end_)
    (hBegin : sliceBegin = if begin_ < n then some (unitsBefore text begin_) else none) (hOrder : begin_ < end_) :
    sliceLoop (utf16 text) begin_ end_ n (unitsBefore text n) sliceBegin =
      if end_ ≤ text.length ∨ n = end_ then some (unitsBefore text begin_, unitsBefore text end_) else none := by
  induction hLeft : end_ - n generalizing n sliceBegin with
  | zero =>
    have hEnd : n = end_ := by omega
    rw [sliceLoop, if_neg (by omega), hBegin, hEnd, if_pos hOrder, if_pos (Or.inr rfl)]
    rfl
  | succ left ih =>
    rw [sliceLoop, if_pos (by omega)]
    by_cases hText : n < text.length
    · rw [if_neg (not_le.mpr (unitsBefore_lt_iff.mpr hText)), nextCodepoint_unitsBefore hText, ih (by omega) ?_ (by omega)]
      · refine if_congr ⟨fun h => Or.inl (h.elim id fun hEq => by omega), fun h => ?_⟩ rfl rfl
        exact h.elim Or.inl fun hEq => by omega
      · rw [hBegin]
        rcases Nat.lt_trichotomy begin_ n with hLt | hEq | hGt
        · rw [if_neg (by omega), if_pos hLt, if_pos (by omega)]
        · rw [if_pos hEq.symm, if_pos (by omega), hEq]
        · rw [if_neg (by omega), if_neg (by omega), if_neg (by omega)]
    · rw [if_pos (not_lt.mp fun hLt => hText (unitsBefore_lt_iff.mp hLt)), if_neg (by omega)]

theorem codepointSlice_utf16 (text : List Char) (begin_ end_ : Int) : codepointSlice (utf16 text) begin_ end_ =
    if 0 ≤ begin_ ∧ begin_ < end_ ∧ end_ ≤ text.length then
      some (unitsBefore text begin_.toNat, unitsBefore text end_.toNat) else none := by
  rw [codepointSlice]
  by_cases hGuard : end_ ≤ begin_ ∨ begin_ < 0
  · rw [if_pos hGuard, if_neg (by omega)]
  · have hStart : unitsBefore text 0 = 0 := rfl
    have hLoop := @sliceLoop_eq text begin_.toNat end_.toNat 0 none (Nat.zero_le _) (by simp) (by omega)
    rw [hStart] at hLoop
    rw [if_neg hGuard, hLoop]
    refine if_congr ?_ rfl rfl
    omega

theorem sliceText_utf16 (text : List Char) (begin_ length : Int) : sliceText (utf16 text) begin_ (begin_ + length) =
    if 0 ≤ begin_ ∧ 0 ≤ length ∧ begin_ + length ≤ text.length then
      utf16 ((text.drop begin_.toNat).take length.toNat) else [] := by
  rw [sliceText, codepointSlice_utf16]
  by_cases hSlice : 0 ≤ begin_ ∧ begin_ < begin_ + length ∧ begin_ + length ≤ text.length
  · have hTake (n : Nat) : (utf16 text).take (unitsBefore text n) = utf16 (text.take n) := by
      have hText : utf16 text = utf16 (text.take n) ++ utf16 (text.drop n) := by
        rw [← utf16_append, List.take_append_drop]
      rw [hText, unitsBefore]
      exact List.take_left
    have hFirst : unitsBefore text begin_.toNat = unitsBefore (text.take (begin_ + length).toNat) begin_.toNat := by
      rw [unitsBefore, unitsBefore, List.take_take, Nat.min_eq_left (by omega)]
    have hLength : (begin_ + length).toNat - begin_.toNat = length.toNat := by omega
    rw [if_pos hSlice, if_pos (by omega), Option.elim_some, hTake, hFirst, drop_unitsBefore, List.drop_take, hLength]
  · rw [if_neg hSlice, Option.elim_none]
    split
    · have hNone : length.toNat = 0 := by omega
      rw [hNone, List.take_zero]
      rfl
    · rfl

theorem utf16_eq_nil_iff {text : List Char} : utf16 text = [] ↔ text = [] := by
  cases text with
  | nil => exact ⟨fun _ => rfl, fun _ => rfl⟩
  | cons c text =>
    rw [utf16_cons, List.append_eq_nil_iff]
    exact ⟨fun h => absurd h.1 (encodeChar_ne_nil c), fun h => absurd h (List.cons_ne_nil _ _)⟩

/-- A slice has the code points of its range, and slices that follow each other make up one slice. -/
theorem codepointSlice_slices (text : List Char) (begin_ length : Int) :
    sliceText (utf16 text) begin_ (begin_ + length) =
        (if 0 ≤ begin_ ∧ 0 ≤ length ∧ begin_ + length ≤ text.length then
          utf16 ((text.drop begin_.toNat).take length.toNat) else []) ∧
      (sliceText (utf16 text) begin_ (begin_ + length) = [] ↔
        length = 0 ∨ ¬(0 ≤ begin_ ∧ 0 ≤ length ∧ begin_ + length ≤ text.length)) ∧
      ∀ next, 0 ≤ begin_ → 0 ≤ length → 0 ≤ next → begin_ + length + next ≤ text.length →
        sliceText (utf16 text) begin_ (begin_ + length) ++
            sliceText (utf16 text) (begin_ + length) (begin_ + length + next) =
          sliceText (utf16 text) begin_ (begin_ + (length + next)) := by
  refine ⟨sliceText_utf16 text begin_ length, ?_, fun next hBegin hLength hNext hText => ?_⟩
  · rw [sliceText_utf16]
    split
    · rename_i hRange
      rw [utf16_eq_nil_iff, ← List.length_eq_zero_iff, List.length_take, List.length_drop]
      omega
    · rename_i hRange
      exact ⟨fun _ => Or.inr hRange, fun _ => rfl⟩
  · have hSum : (length + next).toNat = length.toNat + next.toNat := by omega
    have hSecond : (begin_ + length).toNat = begin_.toNat + length.toNat := by omega
    rw [sliceText_utf16, sliceText_utf16, sliceText_utf16, if_pos (by omega), if_pos (by omega), if_pos (by omega),
      ← utf16_append, hSum, List.take_add, List.drop_drop, hSecond]

theorem codepointSlice_slices_pair :
    sliceText (utf16 ([0x61, 0x1F602, 0x62].map Char.ofNat)) 0 1 ++
        sliceText (utf16 ([0x61, 0x1F602, 0x62].map Char.ofNat)) 1 3 =
      sliceText (utf16 ([0x61, 0x1F602, 0x62].map Char.ofNat)) 0 3 :=
  (codepointSlice_slices ([0x61, 0x1F602, 0x62].map Char.ofNat) 0 1).2.2 2 (by decide) (by decide) (by decide) (by decide)

theorem not_nonempty_emptyRange : ¬∀ (text : List Char) (begin_ length : Int),
    sliceText (utf16 text) begin_ (begin_ + length) = [] ↔
      ¬(0 ≤ begin_ ∧ 0 ≤ length ∧ begin_ + length ≤ text.length) := by
  intro h
  exact (h [Char.ofNat 0x61] 0 0).mp (by rw [sliceText_utf16]; rfl) (by decide)

end Chatterino
