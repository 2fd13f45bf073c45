import Mathlib.Data.List.Infix
import Mathlib.Order.Bounds.Defs

/-! # Longest common substrings

A part that two lists share ends somewhere in both of them. The longest ones that end at a place of either list are
found from those that end right before.
-/

namespace Lib

universe u

variable {α : Type u} {a b : List α}

def commonLengths (a b : List α) : Set Nat := { n | ∃ w, w <:+: a ∧ w <:+: b ∧ w.length = n }

theorem commonLengths_comm (a b : List α) : commonLengths a b = commonLengths b a := by
  ext n
  exact ⟨fun ⟨w, hA, hB, hw⟩ => ⟨w, hB, hA, hw⟩, fun ⟨w, hB, hA, hw⟩ => ⟨w, hA, hB, hw⟩⟩

theorem isGreatest_commonLengths_self (a : List α) : IsGreatest (commonLengths a a) a.length :=
  ⟨⟨a, List.infix_refl a, List.infix_refl a, rfl⟩, fun _ ⟨_, hA, _, hw⟩ => hw ▸ hA.length_le⟩

theorem le_length_of_mem_commonLengths {n : Nat} (h : n ∈ commonLengths a b) : n ≤ a.length ∧ n ≤ b.length := by
  obtain ⟨w, hA, hB, rfl⟩ := h
  exact ⟨hA.length_le, hB.length_le⟩

variable [DecidableEq α]

def commonSuffix (a b : List α) : Nat → Nat → Nat
  | i + 1, j + 1 => if a[i]? = b[j]? then commonSuffix a b i j + 1 else 0
  | _, _ => 0

theorem commonSuffix_zero_left (a b : List α) (j : Nat) : commonSuffix a b 0 j = 0 := rfl

theorem commonSuffix_zero_right (a b : List α) (i : Nat) : commonSuffix a b i 0 = 0 := by
  cases i <;> rfl

theorem commonSuffix_succ (a b : List α) (i j : Nat) :
    commonSuffix a b (i + 1) (j + 1) = if a[i]? = b[j]? then commonSuffix a b i j + 1 else 0 := rfl

theorem le_commonSuffix_iff {i j n : Nat} (hi : i ≤ a.length) (hj : j ≤ b.length) :
    n ≤ commonSuffix a b i j ↔ ∃ w, w.length = n ∧ w <:+ a.take i ∧ w <:+ b.take j := by
  cases n with
  | zero =>
    refine iff_of_true (Nat.zero_le _) ⟨[], rfl, List.nil_suffix, List.nil_suffix⟩
  | succ n =>
    induction i generalizing j n with
    | zero =>
      rw [commonSuffix_zero_left]
      refine iff_of_false (by omega) ?_
      rintro ⟨w, hw, hSuffix, -⟩
      have := hSuffix.length_le
      simp only [List.take_zero, List.length_nil] at this
      omega
    | succ i ih =>
      cases j with
      | zero =>
        refine iff_of_false (by rw [commonSuffix_zero_right]; omega) ?_
        rintro ⟨w, hw, -, hSuffix⟩
        have := hSuffix.length_le
        simp only [List.take_zero, List.length_nil] at this
        omega
      | succ j =>
        rw [commonSuffix_succ, List.take_succ_eq_append_getElem hi, List.take_succ_eq_append_getElem hj,
          List.getElem?_eq_getElem hi, List.getElem?_eq_getElem hj]
        split_ifs with hSame
        · have hEq := Option.some_inj.mp hSame
          rw [Nat.succ_le_succ_iff]
          have hShorter : n ≤ commonSuffix a b i j ↔ ∃ w, w.length = n ∧ w <:+ a.take i ∧ w <:+ b.take j := by
            cases n with
            | zero => exact iff_of_true (Nat.zero_le _) ⟨[], rfl, List.nil_suffix, List.nil_suffix⟩
            | succ n => exact ih (by omega) (by omega) n
          rw [hShorter, hEq]
          constructor
          · rintro ⟨w, rfl, hA, hB⟩
            exact ⟨w ++ [b[j]], by simp, List.suffix_concat_iff.mpr (Or.inr ⟨w, rfl, hA⟩),
              List.suffix_concat_iff.mpr (Or.inr ⟨w, rfl, hB⟩)⟩
          · rintro ⟨w, hw, hA, hB⟩
            obtain rfl | ⟨t, rfl, hRest⟩ := List.suffix_concat_iff.mp hA
            · cases hw
            · obtain h | ⟨s, hs, hB⟩ := List.suffix_concat_iff.mp hB
              · simp at h
              · obtain rfl := List.append_cancel_right hs
                exact ⟨t, by simpa using hw, hRest, hB⟩
        · refine iff_of_false (by omega) ?_
          rintro ⟨w, hw, hA, hB⟩
          obtain rfl | ⟨t, rfl, -⟩ := List.suffix_concat_iff.mp hA
          · cases hw
          · obtain h | ⟨s, hs, -⟩ := List.suffix_concat_iff.mp hB
            · simp at h
            · exact hSame (congrArg some (List.cons.inj (List.append_inj' hs rfl).2).1)

theorem mem_commonLengths_iff {n : Nat} :
    n ∈ commonLengths a b ↔ ∃ i ≤ a.length, ∃ j ≤ b.length, n ≤ commonSuffix a b i j := by
  constructor
  · rintro ⟨w, hA, hB, rfl⟩
    obtain ⟨s, hs, hPrefix⟩ := List.infix_iff_suffix_prefix.mp hA
    obtain ⟨t, ht, hPrefix'⟩ := List.infix_iff_suffix_prefix.mp hB
    refine ⟨s.length, hPrefix.length_le, t.length, hPrefix'.length_le, ?_⟩
    rw [le_commonSuffix_iff hPrefix.length_le hPrefix'.length_le, ← List.prefix_iff_eq_take.mp hPrefix,
      ← List.prefix_iff_eq_take.mp hPrefix']
    exact ⟨w, rfl, hs, ht⟩
  · rintro ⟨i, hi, j, hj, hn⟩
    obtain ⟨w, hw, hA, hB⟩ := (le_commonSuffix_iff hi hj).mp hn
    exact ⟨w, List.infix_iff_suffix_prefix.mpr ⟨_, hA, List.take_prefix _ _⟩,
      List.infix_iff_suffix_prefix.mpr ⟨_, hB, List.take_prefix _ _⟩, hw⟩

end Lib
