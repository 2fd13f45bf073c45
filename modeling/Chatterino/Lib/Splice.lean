import Mathlib.Data.List.Basic

/-! # Splices of a text

A splice puts another part in the place of a range of a text. A word stands at a position if the
text continues with it there.
-/

namespace Lib

universe u

variable {α : Type u}

/-- The text with `r` in the place of the `n` elements from position `p`. -/
def splice (s : List α) (p n : Nat) (r : List α) : List α := s.take p ++ (r ++ s.drop (p + n))

variable {s w r : List α} {p n q : Nat}

theorem length_splice (h : p + n ≤ s.length) : (splice s p n r).length + n = s.length + r.length := by
  simp only [splice, List.length_append, List.length_take, List.length_drop]
  omega

theorem splice_append (d : List α) :
    splice (d ++ s) (d.length + p) n r = (d ++ (s.take p ++ r)) ++ s.drop (p + n) := by
  rw [splice, List.take_length_add_append, Nat.add_assoc, List.drop_length_add_append,
    List.append_assoc, List.append_assoc, List.append_assoc]

theorem isPrefix_append_of_length_le {a b : List α} (h : w.length ≤ a.length) :
    w <+: a ++ b ↔ w <+: a := by
  constructor
  · intro hPrefix
    exact List.prefix_of_prefix_length_le hPrefix (List.prefix_append a b) h
  · exact List.prefix_append_of_prefix

theorem drop_eq_append_drop (h : q ≤ p) (hRange : p ≤ s.length) :
    s.drop q = (s.take p).drop q ++ s.drop p := by
  have hLength : q ≤ (s.take p).length := by
    rw [List.length_take]
    omega
  calc
    s.drop q = (s.take p ++ s.drop p).drop q := by rw [List.take_append_drop]
    _ = (s.take p).drop q ++ s.drop p := List.drop_append_of_le_length hLength

theorem drop_splice_of_le (h : q ≤ p) (hRange : p ≤ s.length) :
    (splice s p n r).drop q = (s.take p).drop q ++ (r ++ s.drop (p + n)) := by
  apply List.drop_append_of_le_length
  rw [List.length_take]
  omega

theorem drop_splice_of_ge (h : p + n ≤ q) (hRange : p + n ≤ s.length) :
    (splice s p n r).drop (q - n + r.length) = s.drop q := by
  have hLength : (s.take p ++ r).length = p + r.length := by
    rw [List.length_append, List.length_take]
    omega
  have hSplit : q - n + r.length = (s.take p ++ r).length + (q - (p + n)) := by omega
  rw [hSplit, splice, ← List.append_assoc, List.drop_length_add_append, List.drop_drop,
    Nat.add_sub_cancel' h]

theorem isPrefix_drop_splice_before (h : q + w.length ≤ p) (hRange : p ≤ s.length) :
    w <+: (splice s p n r).drop q ↔ w <+: s.drop q := by
  have hLength : w.length ≤ ((s.take p).drop q).length := by
    rw [List.length_drop, List.length_take]
    omega
  have hBefore : q ≤ p := by omega
  rw [drop_splice_of_le hBefore hRange, drop_eq_append_drop hBefore hRange,
    isPrefix_append_of_length_le hLength, isPrefix_append_of_length_le hLength]

theorem isPrefix_drop_splice_cut (h : q ≤ p) (hCut : p ≤ q + w.length) (hRange : p ≤ s.length)
    (hStands : w <+: s.drop q) :
    w <+: (splice s p n r).drop q ↔ w.drop (p - q) <+: r ++ s.drop (p + n) := by
  have hLength : ((s.take p).drop q).length = p - q := by
    rw [List.length_drop, List.length_take]
    omega
  have hTake : w.take (p - q) = (s.take p).drop q := by
    rw [drop_eq_append_drop h hRange] at hStands
    have hParts := List.prefix_iff_eq_take.mp hStands
    rw [hParts, List.take_take, Nat.min_eq_left (by omega), ← hLength, List.take_left]
  rw [drop_splice_of_le h hRange, ← hTake]
  nth_rewrite 1 [← List.take_append_drop (p - q) w]
  exact List.prefix_append_right_inj _

end Lib
