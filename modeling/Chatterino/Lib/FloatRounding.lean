import Mathlib

/-! # Rounding to a number of bits

A rational number is rounded to the nearest one with a significand of so many bits, and to the even one of two that
are as near. The exponent is not bounded.
-/

namespace Lib

def nearestEven (x : ℚ) : ℤ :=
  if 2 * (x - ⌊x⌋) < 1 ∨ 2 * (x - ⌊x⌋) = 1 ∧ ⌊x⌋ % 2 = 0 then ⌊x⌋ else ⌊x⌋ + 1

def lastBit (bits : Nat) (x : ℚ) : ℚ := 2 ^ (Int.log 2 x + 1 - bits)

def roundBits (bits : Nat) (x : ℚ) : ℚ := nearestEven (x / lastBit bits x) * lastBit bits x

theorem floor_le_nearestEven (x : ℚ) : ⌊x⌋ ≤ nearestEven x := by
  unfold nearestEven
  split_ifs <;> omega

theorem nearestEven_le (x : ℚ) : nearestEven x ≤ ⌊x⌋ + 1 := by
  unfold nearestEven
  split_ifs <;> omega

@[simp] theorem nearestEven_intCast (n : ℤ) : nearestEven n = n := by
  simp [nearestEven]

theorem nearestEven_mono : Monotone nearestEven := by
  intro x y h
  rcases (Int.floor_mono h).lt_or_eq with hFloor | hFloor
  · calc
      nearestEven x ≤ ⌊x⌋ + 1 := nearestEven_le x
      _ ≤ ⌊y⌋ := hFloor
      _ ≤ nearestEven y := floor_le_nearestEven y
  · unfold nearestEven
    rw [← hFloor]
    split_ifs with hx hy hy
    · exact le_rfl
    · omega
    · -- the larger number would be the nearer one to the floor
      exfalso
      apply hx
      rcases hy with hy | ⟨hy, hEven⟩
      · left
        linarith
      · rcases (show 2 * (x - ⌊x⌋) ≤ 1 by linarith).lt_or_eq with hLess | hEq
        · exact Or.inl hLess
        · exact Or.inr ⟨hEq, hEven⟩
    · exact le_rfl

theorem le_nearestEven {n : ℤ} {x : ℚ} (h : n ≤ x) : n ≤ nearestEven x := by
  rw [← nearestEven_intCast n]
  exact nearestEven_mono h

theorem nearestEven_le_of_le {n : ℤ} {x : ℚ} (h : x ≤ n) : nearestEven x ≤ n := by
  rw [← nearestEven_intCast n]
  exact nearestEven_mono h

variable {bits : Nat} {x y : ℚ}

theorem lastBit_pos (bits : Nat) (x : ℚ) : 0 < lastBit bits x := by
  exact zpow_pos (by norm_num) _

@[simp] theorem roundBits_zero (bits : Nat) : roundBits bits 0 = 0 := by
  have hZero : nearestEven 0 = 0 := nearestEven_intCast 0
  rw [roundBits, zero_div, hZero]
  simp

theorem roundBits_eq_self {n : ℤ} (h : x = n * lastBit bits x) : roundBits bits x = x := by
  have hQuotient : x / lastBit bits x = n := by
    rw [div_eq_iff (lastBit_pos bits x).ne']
    exact h
  rw [roundBits, hQuotient, nearestEven_intCast, ← h]

theorem roundBits_zpow (hBits : 0 < bits) (k : ℤ) : roundBits bits (2 ^ k) = 2 ^ k := by
  obtain ⟨m, rfl⟩ := Nat.exists_eq_succ_of_ne_zero hBits.ne'
  have hLast : lastBit (m + 1) (2 ^ k) = 2 ^ (k - m) := by
    have hLog : Int.log 2 ((2 : ℚ) ^ k) = k := by exact_mod_cast Int.log_zpow (R := ℚ) (b := 2) (by norm_num) k
    rw [lastBit, hLog]
    congr 1
    push_cast
    ring
  have hExact : ((2 : ℚ) ^ k) = ((2 ^ m : ℤ) : ℚ) * lastBit (m + 1) (2 ^ k) := by
    rw [hLast]
    push_cast
    rw [← zpow_natCast, ← zpow_add₀ (by norm_num)]
    congr 1
    ring
  exact roundBits_eq_self hExact

theorem roundBits_one (hBits : 0 < bits) : roundBits bits 1 = 1 := by
  simpa using roundBits_zpow hBits 0

theorem pow_mul_lastBit (bits : Nat) (x : ℚ) : ((2 ^ bits : ℤ) : ℚ) * lastBit bits x = 2 ^ (Int.log 2 x + 1) := by
  push_cast
  rw [lastBit, ← zpow_natCast, ← zpow_add₀ (by norm_num)]
  congr 1
  ring

theorem roundBits_le_zpow (bits : Nat) (x : ℚ) : roundBits bits x ≤ 2 ^ (Int.log 2 x + 1) := by
  have hPosLast := lastBit_pos bits x
  have hBound : x / lastBit bits x ≤ (2 ^ bits : ℤ) := by
    rw [div_le_iff₀ hPosLast, pow_mul_lastBit]
    exact_mod_cast (Int.lt_zpow_succ_log_self (R := ℚ) (b := 2) (by norm_num) x).le
  rw [← pow_mul_lastBit bits x]
  exact mul_le_mul_of_nonneg_right (by exact_mod_cast nearestEven_le_of_le hBound) hPosLast.le

theorem zpow_le_roundBits (hBits : 0 < bits) (hPos : 0 < x) : 2 ^ Int.log 2 x ≤ roundBits bits x := by
  obtain ⟨m, rfl⟩ := Nat.exists_eq_succ_of_ne_zero hBits.ne'
  have hPosLast := lastBit_pos (m + 1) x
  have hPow : ((2 ^ m : ℤ) : ℚ) * lastBit (m + 1) x = 2 ^ Int.log 2 x := by
    push_cast
    rw [lastBit, ← zpow_natCast, ← zpow_add₀ (by norm_num)]
    congr 1
    push_cast
    ring
  have hBound : ((2 ^ m : ℤ) : ℚ) ≤ x / lastBit (m + 1) x := by
    rw [le_div_iff₀ hPosLast, hPow]
    exact_mod_cast Int.zpow_log_le_self (R := ℚ) (b := 2) (by norm_num) hPos
  rw [← hPow]
  exact mul_le_mul_of_nonneg_right (by exact_mod_cast le_nearestEven hBound) hPosLast.le

theorem roundBits_mono_of_pos (hBits : 0 < bits) (hPos : 0 < x) (h : x ≤ y) : roundBits bits x ≤ roundBits bits y := by
  have hLog := Int.log_mono_right (b := 2) hPos h
  rcases hLog.lt_or_eq with hLess | hEq
  · -- a power of two lies between them
    calc
      roundBits bits x ≤ 2 ^ (Int.log 2 x + 1) := roundBits_le_zpow bits x
      _ ≤ 2 ^ Int.log 2 y := zpow_le_zpow_right₀ (by norm_num) hLess
      _ ≤ roundBits bits y := zpow_le_roundBits hBits (hPos.trans_le h)
  · have hLast : lastBit bits x = lastBit bits y := by rw [lastBit, lastBit, hEq]
    have hPosLast := lastBit_pos bits y
    rw [roundBits, roundBits, hLast]
    have hInt : nearestEven (x / lastBit bits y) ≤ nearestEven (y / lastBit bits y) :=
      nearestEven_mono (div_le_div_of_nonneg_right h hPosLast.le)
    exact mul_le_mul_of_nonneg_right (by exact_mod_cast hInt) hPosLast.le

theorem roundBits_pos (hBits : 0 < bits) (hPos : 0 < x) : 0 < roundBits bits x :=
  (zpow_pos (by norm_num) _).trans_le (zpow_le_roundBits hBits hPos)

theorem roundBits_mono (hBits : 0 < bits) (hNonneg : 0 ≤ x) (h : x ≤ y) : roundBits bits x ≤ roundBits bits y := by
  rcases hNonneg.lt_or_eq with hPos | rfl
  · exact roundBits_mono_of_pos hBits hPos h
  · rw [roundBits_zero]
    rcases h.lt_or_eq with hPos | rfl
    · exact (roundBits_pos hBits hPos).le
    · exact (roundBits_zero bits).ge

theorem roundBits_natCast {n : Nat} (h : n < 2 ^ bits) : roundBits bits n = n := by
  rcases Nat.eq_zero_or_pos n with rfl | hPos
  · simp
  · have hLog : Nat.log 2 n + 1 ≤ bits := Nat.log_lt_of_lt_pow hPos.ne' h
    obtain ⟨k, hk⟩ := Nat.exists_eq_add_of_le hLog
    have hExact : (n : ℚ) = ((n * 2 ^ k : ℤ) : ℚ) * lastBit bits n := by
      rw [lastBit, Int.log_natCast, hk]
      push_cast
      rw [mul_assoc, ← zpow_natCast, ← zpow_add₀ (by norm_num)]
      ring_nf
      simp
    exact roundBits_eq_self hExact

end Lib
