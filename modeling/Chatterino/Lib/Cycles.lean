import Mathlib.Algebra.BigOperators.Group.List.Basic
import Mathlib.Data.List.Induction
import Mathlib.Data.List.Nodup
import Mathlib.Data.Nat.ModEq
import Mathlib.Tactic.Linarith

/-! # Cycles

A search for the next item goes around a list, back to where it starts. Repeating it visits every
item that is accepted. A list of lengths cuts a cycle into intervals, which have their ends and not
their starts.
-/

namespace Lib

variable {α : Type} [DecidableEq α]

def others (cycle : List α) (item : α) : List α :=
  cycle.drop (cycle.idxOf item + 1) ++ cycle.take (cycle.idxOf item)

def nextAccepted (accepts : α → Bool) (cycle : List α) (item : α) : α :=
  ((others cycle item).find? accepts).getD item

variable {accepts : α → Bool} {cycle before after front back : List α} {item other target : α}

omit [DecidableEq α] in
theorem exists_cut (hCycle : cycle = before ++ item :: after) (hOther : after ++ before = front ++ other :: back) :
    ∃ before' after', cycle = before' ++ other :: after' ∧ after' ++ before' = back ++ item :: front := by
  obtain ⟨middle, hFront, hBefore⟩ | ⟨middle, hAfter, hBack⟩ := List.append_eq_append_iff.mp hOther
  · refine ⟨middle, back ++ item :: after, ?_, ?_⟩
    · rw [hCycle, hBefore]
      simp
    · rw [hFront]
      simp
  · cases middle with
    | nil =>
      rw [List.append_nil] at hAfter
      rw [List.nil_append] at hBack
      refine ⟨[], back ++ item :: after, ?_, ?_⟩
      · rw [hCycle, ← hBack]
        simp
      · rw [hAfter]
        simp
    | cons head middle =>
      rw [List.cons_append, List.cons.injEq] at hBack
      obtain ⟨rfl, hBack⟩ := hBack
      refine ⟨before ++ item :: front, middle, ?_, ?_⟩
      · rw [hCycle, hAfter]
        simp
      · rw [hBack]
        simp

theorem others_of_cut (hNodup : cycle.Nodup) (hCycle : cycle = before ++ item :: after) :
    others cycle item = after ++ before := by
  have hNotMem : item ∉ before := by
    rw [hCycle] at hNodup
    intro hMem
    exact (List.nodup_append.mp hNodup).2.2 item hMem item List.mem_cons_self rfl
  have hIndex : cycle.idxOf item = before.length := by
    rw [hCycle, List.idxOf_append_of_notMem hNotMem, List.idxOf_cons_self, Nat.add_zero]
  rw [others, hIndex, hCycle, List.take_left']
  · simp
  · rfl

theorem mem_others (hNodup : cycle.Nodup) (hItem : item ∈ cycle) :
    other ∈ others cycle item ↔ other ∈ cycle ∧ other ≠ item := by
  obtain ⟨before, after, hCycle⟩ := List.append_of_mem hItem
  rw [others_of_cut hNodup hCycle, hCycle]
  rw [hCycle] at hNodup
  obtain ⟨-, hAfter, hDisjoint⟩ := List.nodup_append.mp hNodup
  have hNotAfter := (List.nodup_cons.mp hAfter).1
  constructor
  · intro hMem
    obtain hMem | hMem := List.mem_append.mp hMem
    · refine ⟨List.mem_append_right _ (List.mem_cons_of_mem _ hMem), ?_⟩
      rintro rfl
      exact hNotAfter hMem
    · refine ⟨List.mem_append_left _ hMem, ?_⟩
      rintro rfl
      exact hDisjoint other hMem other List.mem_cons_self rfl
  · rintro ⟨hMem, hNe⟩
    obtain hMem | hMem := List.mem_append.mp hMem
    · exact List.mem_append_right _ hMem
    · obtain hEq | hMem := List.mem_cons.mp hMem
      · exact absurd hEq hNe
      · exact List.mem_append_left _ hMem

theorem nextAccepted_of_find_none (hNodup : cycle.Nodup) (hCycle : cycle = before ++ item :: after)
    (hNone : ∀ other ∈ after ++ before, ¬accepts other) : nextAccepted accepts cycle item = item := by
  rw [nextAccepted, others_of_cut hNodup hCycle, List.find?_eq_none.mpr hNone, Option.getD_none]

theorem nextAccepted_of_first (hNodup : cycle.Nodup) (hCycle : cycle = before ++ item :: after)
    (hOther : after ++ before = front ++ other :: back) (hAccepts : accepts other)
    (hFirst : ∀ skipped ∈ front, ¬accepts skipped) : nextAccepted accepts cycle item = other := by
  have hFind : (front ++ other :: back).find? accepts = some other := by
    rw [List.find?_eq_some_iff_append]
    refine ⟨hAccepts, front, back, rfl, ?_⟩
    intro skipped hSkipped
    simpa using hFirst skipped hSkipped
  rw [nextAccepted, others_of_cut hNodup hCycle, hOther, hFind, Option.getD_some]

omit [DecidableEq α] in
theorem exists_dropLast (hRound : after ++ before ++ [item] = front ++ other :: back) :
    (back = [] ∧ other = item ∧ front = after ++ before) ∨
      ∃ back', back = back' ++ [item] ∧ after ++ before = front ++ other :: back' := by
  induction back using List.reverseRecOn with
  | nil =>
    obtain ⟨hFront, hItem⟩ := List.append_inj' hRound rfl
    exact .inl ⟨rfl, (List.singleton_inj.mp hItem).symm, hFront.symm⟩
  | append_singleton back' last _ =>
    rw [← List.cons_append, ← List.append_assoc] at hRound
    obtain ⟨hFront, hItem⟩ := List.append_inj' hRound rfl
    exact .inr ⟨back', by rw [List.singleton_inj.mp hItem], hFront⟩

theorem iterate_nextAccepted (hNodup : cycle.Nodup) (hCycle : cycle = before ++ item :: after)
    (hTarget : after ++ before ++ [item] = front ++ target :: back) (hAccepts : accepts target) :
    (nextAccepted accepts cycle)^[front.countP accepts + 1] item = target := by
  induction hLength : front.length using Nat.strong_induction_on generalizing front back before item after with
  | h length ih =>
    cases hFind : front.find? accepts with
    | none =>
      have hNone := List.find?_eq_none.mp hFind
      rw [List.countP_eq_zero.mpr hNone, Nat.zero_add, Function.iterate_one]
      obtain ⟨-, rfl, hFront⟩ | ⟨back', -, hOthers⟩ := exists_dropLast hTarget
      · exact nextAccepted_of_find_none hNodup hCycle (hFront ▸ hNone)
      · exact nextAccepted_of_first hNodup hCycle hOthers hAccepts hNone
    | some next =>
      obtain ⟨hNext, skipped, front', hFront, hSkipped⟩ := List.find?_eq_some_iff_append.mp hFind
      have hNone : ∀ other ∈ skipped, ¬accepts other := fun other hMem => by simpa using hSkipped other hMem
      subst hFront
      have hFirst : after ++ before ++ [item] = skipped ++ next :: (front' ++ target :: back) := by
        rw [hTarget, List.append_assoc, List.cons_append]
      obtain ⟨hNil, -⟩ | ⟨back', hBack', hOthers⟩ := exists_dropLast hFirst
      · exact absurd hNil (by simp)
      · obtain ⟨before', after', hCycle', hRound⟩ := exists_cut hCycle hOthers
        have hTarget' : after' ++ before' ++ [next] = front' ++ target :: (back ++ skipped ++ [next]) := by
          rw [hRound, List.append_cons back', ← hBack']
          simp
        have hShorter : front'.length < length := by
          rw [← hLength, List.length_append, List.length_cons]
          omega
        have hCount : (skipped ++ next :: front').countP accepts = front'.countP accepts + 1 := by
          rw [List.countP_append, List.countP_eq_zero.mpr hNone, List.countP_cons_of_pos hNext, Nat.zero_add]
        rw [hCount, Function.iterate_succ_apply, nextAccepted_of_first hNodup hCycle hOthers hNext hNone]
        exact ih _ hShorter hCycle' hTarget' rfl

theorem exists_iterate_nextAccepted (hNodup : cycle.Nodup) (hItem : item ∈ cycle) (hTarget : target ∈ cycle)
    (hAccepts : accepts target) :
    ∃ k, 1 ≤ k ∧ k ≤ cycle.countP accepts ∧ (nextAccepted accepts cycle)^[k] item = target := by
  obtain ⟨before, after, hCycle⟩ := List.append_of_mem hItem
  have hPerm : (after ++ before ++ [item]).Perm cycle := by
    rw [hCycle, List.append_assoc]
    exact List.perm_append_comm.trans (by simp)
  obtain ⟨front, back, hRound⟩ := List.append_of_mem (hPerm.mem_iff.mpr hTarget)
  refine ⟨front.countP accepts + 1, Nat.succ_pos _, ?_, iterate_nextAccepted hNodup hCycle hRound hAccepts⟩
  rw [← hPerm.countP_eq, hRound, List.countP_append, List.countP_cons_of_pos hAccepts]
  omega

end Lib

namespace Lib

variable {lengths : List ℕ} {i j p q offset : ℕ}

def startOf (lengths : List ℕ) (i : ℕ) : ℕ := (lengths.take i).sum

def inRound (total p : ℕ) : ℕ := if p % total = 0 then total else p % total

structure InInterval (lengths : List ℕ) (i p : ℕ) : Prop where
  start_lt : startOf lengths i < inRound lengths.sum p
  le_end : inRound lengths.sum p ≤ startOf lengths (i + 1)

theorem startOf_succ (hIndex : i < lengths.length) : startOf lengths (i + 1) = startOf lengths i + lengths[i] :=
  List.sum_take_succ lengths i hIndex

theorem startOf_mono (h : i ≤ j) : startOf lengths i ≤ startOf lengths j := by
  rw [startOf, startOf, ← Nat.sub_add_cancel h, Nat.add_comm, List.take_add, List.sum_append]
  exact Nat.le_add_right _ _

theorem startOf_length : startOf lengths lengths.length = lengths.sum := by rw [startOf, List.take_length]

theorem inRound_eq_of_le {total : ℕ} (hPos : 0 < p) (hLe : p ≤ total) : inRound total p = p := by
  obtain hLt | rfl := Nat.lt_or_eq_of_le hLe
  · rw [inRound, Nat.mod_eq_of_lt hLt, if_neg hPos.ne']
  · rw [inRound, Nat.mod_self, if_pos rfl]

theorem inRound_pos {total : ℕ} (hTotal : 0 < total) : 0 < inRound total p := by
  unfold inRound
  split_ifs with hZero
  · exact hTotal
  · exact Nat.pos_of_ne_zero hZero

theorem inRound_le {total : ℕ} (hTotal : 0 < total) : inRound total p ≤ total := by
  unfold inRound
  split_ifs
  · exact le_rfl
  · exact (Nat.mod_lt p hTotal).le

theorem dvd_inRound {total d : ℕ} (hTotal : d ∣ total) (h : d ∣ p) : d ∣ inRound total p := by
  unfold inRound
  split_ifs
  · exact hTotal
  · exact (Nat.dvd_mod_iff hTotal).mpr h

namespace InInterval

theorem congr (h : InInterval lengths i p) (hSame : p ≡ q [MOD lengths.sum]) : InInterval lengths i q := by
  have hRound : inRound lengths.sum q = inRound lengths.sum p := by rw [inRound, inRound, hSame]
  exact ⟨hRound ▸ h.start_lt, hRound ▸ h.le_end⟩

theorem unique (hi : InInterval lengths i p) (hj : InInterval lengths j p) : i = j := by
  obtain hLt | hEq | hGt := Nat.lt_trichotomy i j
  · exact absurd (hi.le_end.trans (startOf_mono hLt)) (Nat.not_le.mpr hj.start_lt)
  · exact hEq
  · exact absurd (hj.le_end.trans (startOf_mono hGt)) (Nat.not_le.mpr hi.start_lt)

theorem of_offset (hIndex : i < lengths.length) (hPos : 0 < offset) (hLe : offset ≤ lengths[i])
    (hSame : startOf lengths i + offset ≡ p [MOD lengths.sum]) : InInterval lengths i p := by
  have hEnd : startOf lengths i + offset ≤ startOf lengths (i + 1) := by
    rw [startOf_succ hIndex]
    exact Nat.add_le_add_left hLe _
  have hTotal : startOf lengths (i + 1) ≤ lengths.sum := startOf_length ▸ startOf_mono hIndex
  have hRound : inRound lengths.sum (startOf lengths i + offset) = startOf lengths i + offset :=
    inRound_eq_of_le (Nat.add_pos_right _ hPos) (hEnd.trans hTotal)
  refine InInterval.congr ⟨?_, ?_⟩ hSame
  · rw [hRound]
    exact Nat.lt_add_of_pos_right hPos
  · rw [hRound]
    exact hEnd

theorem last (hTotal : 0 < lengths.sum) (h : startOf lengths (lengths.length - 1) < inRound lengths.sum p) :
    InInterval lengths (lengths.length - 1) p := by
  refine ⟨h, ?_⟩
  have hLength : lengths.length - 1 + 1 = lengths.length := by
    refine Nat.sub_add_cancel (List.length_pos_of_ne_nil ?_)
    rintro rfl
    exact absurd hTotal (Nat.lt_irrefl 0)
  rw [hLength, startOf_length]
  exact inRound_le hTotal

theorem eq_last (h : InInterval lengths i p) (hIndex : i < lengths.length)
    (hLast : startOf lengths (lengths.length - 1) < inRound lengths.sum p) : i = lengths.length - 1 := by
  by_contra hNot
  have hBefore : i + 1 ≤ lengths.length - 1 := by omega
  exact absurd (h.le_end.trans (startOf_mono hBefore)) (Nat.not_le.mpr hLast)

end InInterval

theorem exists_add_mul_dvd {total b : ℕ} (h : Nat.gcd 4 total ∣ b) : ∃ t < 4, 4 ∣ b + t * total := by
  have hCases : ∀ x < 4, ∀ y < 4, Nat.gcd 4 x ∣ y → ∃ t < 4, 4 ∣ y + t * x := by decide
  have hGcd : Nat.gcd 4 (total % 4) ∣ b % 4 := by
    have hSame : Nat.gcd 4 (total % 4) = Nat.gcd 4 total := (Nat.gcd_comm 4 _).trans (Nat.gcd_rec 4 total).symm
    rw [hSame]
    exact (Nat.dvd_mod_iff (Nat.gcd_dvd_left 4 total)).mpr h
  obtain ⟨t, hLt, hDvd⟩ := hCases (total % 4) (Nat.mod_lt _ (by decide)) (b % 4) (Nat.mod_lt _ (by decide)) hGcd
  refine ⟨t, hLt, ?_⟩
  have hMod : b + t * total ≡ b % 4 + t * (total % 4) [MOD 4] :=
    ((Nat.mod_modEq b 4).add ((Nat.ModEq.refl t).mul (Nat.mod_modEq total 4))).symm
  exact Nat.modEq_zero_iff_dvd.mp (hMod.trans (Nat.modEq_zero_iff_dvd.mpr hDvd))

theorem gcd_lt_of_not_dvd {power total : ℕ} (h : ¬total ∣ power) (hTotal : 0 < total) :
    Nat.gcd power total < total := by
  refine lt_of_le_of_ne (Nat.le_of_dvd hTotal (Nat.gcd_dvd_right power total)) ?_
  intro hEq
  exact h (hEq ▸ Nat.gcd_dvd_left power total)

theorem exists_mul_modEq {power total : ℕ} (h : ¬total ∣ power) (hTotal : 0 < total) :
    ∃ d, 0 < d ∧ power * d ≡ total - Nat.gcd power total [MOD total] := by
  have hLt := gcd_lt_of_not_dvd h hTotal
  obtain ⟨m, -, hMul⟩ := Nat.exists_mul_mod_eq_gcd hLt
  obtain ⟨k, hTotalEq⟩ := Nat.gcd_dvd_right power total
  generalize hGcd : Nat.gcd power total = g at hLt hMul hTotalEq ⊢
  have hWraps : power * (m * (k - 1)) ≡ total - g [MOD total] := by
    have hStep : power * m ≡ g [MOD total] := by rw [Nat.ModEq, hMul, Nat.mod_eq_of_lt hLt]
    have hRest : total - g = g * (k - 1) := by rw [Nat.mul_sub_one, ← hTotalEq]
    rw [hRest, ← Nat.mul_assoc]
    exact hStep.mul_right (k - 1)
  refine ⟨m * (k - 1), Nat.pos_of_ne_zero ?_, hWraps⟩
  intro hZero
  rw [hZero, Nat.mul_zero, Nat.ModEq, Nat.zero_mod] at hWraps
  have hSmall : total - g < total := by
    have hPos : 0 < g := hGcd ▸ Nat.gcd_pos_of_pos_right power hTotal
    omega
  rw [Nat.mod_eq_of_lt hSmall] at hWraps
  omega

theorem exists_mul_add_dvd {power : ℕ} (hFour : 4 ∣ power) (hFive : power.Coprime 5) {r : ℕ} (hr : 4 ∣ r) :
    ∃ j, 20 ∣ power * j + r := by
  obtain ⟨m, -, hMul⟩ := Nat.exists_mul_mod_eq_one_of_coprime hFive (by decide)
  refine ⟨m * (5 - r % 5), ?_⟩
  have hInverse : power * m ≡ 1 [MOD 5] := hMul
  have hFiveDvd : 5 ∣ power * (m * (5 - r % 5)) + r := by
    have hSum : power * (m * (5 - r % 5)) + r ≡ 1 * (5 - r % 5) + r % 5 [MOD 5] := by
      rw [← Nat.mul_assoc]
      exact (hInverse.mul_right _).add (Nat.mod_modEq r 5).symm
    refine Nat.modEq_zero_iff_dvd.mp (hSum.trans ?_)
    have hLt : r % 5 < 5 := Nat.mod_lt r (by decide)
    rw [Nat.one_mul, Nat.sub_add_cancel hLt.le]
    rfl
  have hFourDvd : 4 ∣ power * (m * (5 - r % 5)) + r := Nat.dvd_add (Dvd.dvd.mul_right hFour _) hr
  exact Nat.Coprime.mul_dvd_of_dvd_of_dvd (by decide) hFourDvd hFiveDvd

theorem exists_wrapped {power total b : ℕ} (hFour : 4 ∣ power) (hFive : power.Coprime 5) (hTotal : 0 < total)
    (hDvd : ¬total ∣ power) (hb : Nat.gcd 4 total ∣ b) (hSmall : b + 3 * total < power) (hPower : 20 < power) :
    ∃ n m, 20 * n % power + 20 * (m + 1) ≡ b + (total - Nat.gcd power total) [MOD total] ∧
      (20 * n % power + 20 * (m + 1)) % power ≡ b [MOD total] := by
  obtain ⟨t, ht, hs⟩ := exists_add_mul_dvd hb
  obtain ⟨d, hd, hWraps⟩ := exists_mul_modEq hDvd hTotal
  have hsLt : b + t * total < power := by
    have : t * total ≤ 3 * total := Nat.mul_le_mul_right total (by omega)
    omega
  generalize hSum : power * d + (b + t * total) = sum
  have hSumFour : 4 ∣ sum := hSum ▸ Nat.dvd_add (Dvd.dvd.mul_right hFour d) hs
  obtain ⟨j, n, hn⟩ := exists_mul_add_dvd hFour hFive ((Nat.dvd_mod_iff (by decide : 4 ∣ 20)).mpr hSumFour)
  have hr : sum % 20 < 20 := Nat.mod_lt _ (by decide)
  have hStart : 20 * n % power = sum % 20 := by
    rw [← hn, Nat.mul_add_mod, Nat.mod_eq_of_lt (hr.trans hPower)]
  have hLong : power ≤ sum := by
    have : power * 1 ≤ power * d := Nat.mul_le_mul_left power hd
    omega
  have hTicks : sum % 20 + 20 * (sum / 20 - 1 + 1) = sum := by
    have := Nat.mod_add_div sum 20
    omega
  have hPlace : b + t * total ≡ b [MOD total] := Nat.add_mul_mod_self_right b t total
  refine ⟨n, sum / 20 - 1, ?_, ?_⟩
  · rw [hStart, hTicks, ← hSum, Nat.add_comm b (total - _)]
    exact hWraps.add hPlace
  · rw [hStart, hTicks, ← hSum, Nat.mul_add_mod, Nat.mod_eq_of_lt hsLt]
    exact hPlace

theorem startOf_last_lt {power : ℕ} (hFour : 4 ∣ power) (hDvd : ¬lengths.sum ∣ power)
    (hLastLt : startOf lengths (lengths.length - 1) < lengths.sum)
    (hSame : ∀ b, Nat.gcd 4 lengths.sum ∣ b → b ≤ lengths.sum → ∃ i < lengths.length, InInterval lengths i b ∧
      InInterval lengths i (b + (lengths.sum - Nat.gcd power lengths.sum))) :
    startOf lengths (lengths.length - 1) < Nat.gcd 4 lengths.sum := by
  have hTotal : 0 < lengths.sum := Nat.zero_lt_of_lt hLastLt
  have hLt := gcd_lt_of_not_dvd hDvd hTotal
  have hPos : 0 < Nat.gcd power lengths.sum := Nat.gcd_pos_of_pos_right _ hTotal
  have hFourPos : 0 < Nat.gcd 4 lengths.sum := Nat.gcd_pos_of_pos_right _ hTotal
  have hFourDvd : Nat.gcd 4 lengths.sum ∣ Nat.gcd power lengths.sum := Nat.gcd_dvd_gcd_of_dvd_left _ hFour
  have hFourLe := Nat.le_of_dvd hPos hFourDvd
  have hTwice : 2 * Nat.gcd power lengths.sum ≤ lengths.sum := by
    obtain ⟨k, hk⟩ := Nat.gcd_dvd_right power lengths.sum
    generalize Nat.gcd power lengths.sum = g at *
    have hTwoLe : 2 ≤ k := by
      by_contra hSmall
      have : g * k ≤ g * 1 := Nat.mul_le_mul_left g (by omega)
      omega
    have : g * 2 ≤ g * k := Nat.mul_le_mul_left g hTwoLe
    omega
  -- the end of a round is taken for the divisor, which is therefore in the last interval
  have hShort : startOf lengths (lengths.length - 1) < Nat.gcd power lengths.sum := by
    obtain ⟨i, hIndex, hNear, hFar⟩ := hSame _ hFourDvd hLt.le
    rw [Nat.add_sub_cancel' hLt.le] at hFar
    have hLast := hFar.eq_last hIndex (hLastLt.trans_eq (inRound_eq_of_le hTotal le_rfl).symm)
    have hStart := hNear.start_lt
    rw [hLast] at hStart
    exact hStart.trans_eq (inRound_eq_of_le hPos hLt.le)
  obtain ⟨i, hIndex, hNear, hFar⟩ := hSame _ dvd_rfl (hFourLe.trans hLt.le)
  have hRound : inRound lengths.sum (Nat.gcd 4 lengths.sum + (lengths.sum - Nat.gcd power lengths.sum)) =
      Nat.gcd 4 lengths.sum + (lengths.sum - Nat.gcd power lengths.sum) :=
    inRound_eq_of_le (by omega) (by omega)
  have hLast := hFar.eq_last hIndex (Nat.lt_of_lt_of_eq (by omega) hRound.symm)
  have hStart := hNear.start_lt
  rw [hLast] at hStart
  exact hStart.trans_eq (inRound_eq_of_le hFourPos (hFourLe.trans hLt.le))

end Lib
