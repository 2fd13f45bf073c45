import Mathlib.Data.List.Basic
import Mathlib.Tactic.IntervalCases

/-! # UTF-16 strings

A QString is a sequence of UTF-16 code units, surrogates unpaired or not. Positions and lengths
count code units.
-/

namespace Chatterino

abbrev QChar := UInt16

abbrev QString := List QChar

namespace QString

def lit (s : String) : QString := s.toList.map fun c => UInt16.ofNat c.toNat

/-! A string is decided on by its code units, however many QChar has. -/

instance decidableMem (s : QString) (list : List QString) : Decidable (s ∈ list) :=
  List.instDecidableMemOfLawfulBEq s list

instance decidableInfix (s t : QString) : Decidable (s <:+: t) :=
  List.instDecidableIsInfixOfDecidableEq s t

section

variable {p : QChar → Prop} [DecidablePred p]

instance decidableForallMem (s : QString) : Decidable (∀ c ∈ s, p c) := List.decidableBAll p s

instance decidableExistsMem (s : QString) : Decidable (∃ c ∈ s, p c) := List.decidableBEx p s

instance decidableForallMemOption (c : Option QChar) : Decidable (∀ d ∈ c, p d) :=
  Option.decidableForallMem c

instance decidableExistsMemOption (c : Option QChar) : Decidable (∃ d ∈ c, p d) :=
  Option.decidableExistsMem c

end

end QString

/-! ## Integers as text

Reading follows the C locale: spaces around the number and one sign are allowed, group separators
are not.
-/

def IsInt32 (n : Int) : Prop := -2147483648 ≤ n ∧ n ≤ 2147483647

instance (n : Int) : Decidable (IsInt32 n) := inferInstanceAs (Decidable (_ ∧ _))

def IsInt64 (n : Int) : Prop := -9223372036854775808 ≤ n ∧ n ≤ 9223372036854775807

instance (n : Int) : Decidable (IsInt64 n) := inferInstanceAs (Decidable (_ ∧ _))

namespace QString

/-- `QChar::isSpace`. -/
def isSpace (c : QChar) : Bool :=
  c == 0x20 || (0x09 ≤ c && c ≤ 0x0D) || c == 0x85 || c == 0xA0 || c == 0x1680 ||
    (0x2000 ≤ c && c ≤ 0x200A) || c == 0x2028 || c == 0x2029 || c == 0x202F || c == 0x205F ||
    c == 0x3000

def trimmed (s : QString) : QString :=
  ((s.dropWhile isSpace).reverse.dropWhile isSpace).reverse

def digitValue (c : QChar) : Option Nat :=
  if 0x30 ≤ c ∧ c ≤ 0x39 then some (c.toNat - 0x30) else none

def digitsValue : Nat → QString → Option Nat
  | n, [] => some n
  | n, c :: s => (digitValue c).bind fun d => digitsValue (10 * n + d) s

def naturalValue (s : QString) : Option Nat := if s = [] then none else digitsValue 0 s

def integerValue (s : QString) : Option Int :=
  match trimmed s with
  | [] => none
  | c :: s =>
    if c = 0x2D then (naturalValue s).map fun n : Nat => -(n : Int)
    else if c = 0x2B then (naturalValue s).map fun n : Nat => (n : Int)
    else (naturalValue (c :: s)).map fun n : Nat => (n : Int)

/-- `QString::toInt`, `none` when it reports a failure. -/
def toInt (s : QString) : Option Int := (integerValue s).filter fun n => IsInt32 n

def toLongLong (s : QString) : Option Int := (integerValue s).filter fun n => IsInt64 n

def digitChar (d : Nat) : QChar := UInt16.ofNat (0x30 + d)

def decimalDigits : Nat → Nat → QString
  | 0, _ => []
  | fuel + 1, n => if n < 10 then [digitChar n] else decimalDigits fuel (n / 10) ++ [digitChar (n % 10)]

/-- `QString::number`. -/
def number (n : Int) : QString :=
  if n < 0 then 0x2D :: decimalDigits (n.natAbs + 1) n.natAbs
  else decimalDigits (n.natAbs + 1) n.natAbs

theorem isInt32_of_toInt {s : QString} {n : Int} (h : s.toInt = some n) : IsInt32 n := by
  obtain ⟨-, hRange⟩ := Option.filter_eq_some_iff.mp h
  simpa using hRange

theorem digitValue_digitChar {d : Nat} (h : d < 10) : digitValue (digitChar d) = some d := by
  interval_cases d <;> rfl

theorem digitsValue_append (n : Nat) (s t : QString) :
    digitsValue n (s ++ t) = (digitsValue n s).bind fun m => digitsValue m t := by
  induction s generalizing n with
  | nil => rfl
  | cons c s ih =>
    simp only [List.cons_append, digitsValue]
    cases digitValue c with
    | none => rfl
    | some d => exact ih _

theorem digitsValue_decimalDigits {fuel n : Nat} (h : n < fuel) :
    digitsValue 0 (decimalDigits fuel n) = some n := by
  induction fuel generalizing n with
  | zero => omega
  | succ fuel ih =>
    unfold decimalDigits
    split
    · rename_i hSmall
      simp [digitsValue, digitValue_digitChar hSmall]
    · rw [digitsValue_append, ih (by omega)]
      simp only [Option.bind_some, digitsValue, digitValue_digitChar (Nat.mod_lt n (by decide : 10 > 0))]
      congr 1
      omega

theorem exists_digit_of_mem_decimalDigits {fuel n : Nat} {c : QChar} (h : c ∈ decimalDigits fuel n) :
    ∃ d < 10, c = digitChar d := by
  induction fuel generalizing n with
  | zero => cases h
  | succ fuel ih =>
    unfold decimalDigits at h
    split at h
    · rename_i hSmall
      exact ⟨n, hSmall, List.mem_singleton.mp h⟩
    · rcases List.mem_append.mp h with h | h
      · exact ih h
      · exact ⟨n % 10, Nat.mod_lt n (by decide), List.mem_singleton.mp h⟩

theorem exists_digit_of_mem_number {n : Int} (hNonneg : 0 ≤ n) {c : QChar} (h : c ∈ number n) :
    ∃ d < 10, c = digitChar d := by
  rw [number, if_neg (by omega)] at h
  exact exists_digit_of_mem_decimalDigits h

theorem number_ne_nil (n : Int) : number n ≠ [] := by
  unfold number
  split
  · exact List.cons_ne_nil _ _
  · unfold decimalDigits
    split
    · exact List.cons_ne_nil _ _
    · exact List.append_ne_nil_of_right_ne_nil _ (List.cons_ne_nil _ _)

theorem isSpace_digitChar {d : Nat} (h : d < 10) : isSpace (digitChar d) = false := by
  interval_cases d <;> decide

theorem trimmed_eq_self {s : QString} (h : ∀ c ∈ s, isSpace c = false) : trimmed s = s := by
  have hDrop (t : QString) (ht : ∀ c ∈ t, isSpace c = false) : t.dropWhile isSpace = t := by
    cases t with
    | nil => rfl
    | cons c t => rw [List.dropWhile_cons_of_neg (by simp [ht c List.mem_cons_self])]
  rw [trimmed, hDrop s h, hDrop s.reverse (by simpa using h), List.reverse_reverse]

theorem not_mem_of_mem_splitOn {a : QChar} {text word : QString} (h : word ∈ text.splitOn a) : a ∉ word := by
  induction hLength : text.length using Nat.strong_induction_on generalizing text with
  | _ n ih =>
    by_cases hMem : a ∈ text
    · obtain ⟨front, rest, rfl, hFront⟩ := List.eq_append_cons_of_mem hMem
      rw [List.splitOn_append_cons_self_of_not_mem hFront] at h
      rw [List.length_append, List.length_cons] at hLength
      rcases List.mem_cons.mp h with rfl | h
      · exact hFront
      · exact ih rest.length (by omega) h rfl
    · rw [List.splitOn_eq_singleton hMem] at h
      rwa [List.mem_singleton.mp h]

theorem trimmed_eq_self_of_ends {text : QString} (hFirst : ∀ c ∈ text.head?, isSpace c = false)
    (hLast : ∀ c ∈ text.getLast?, isSpace c = false) : trimmed text = text := by
  have hDrop : text.dropWhile isSpace = text := by
    cases text with
    | nil => rfl
    | cons c text => rw [List.dropWhile_cons_of_neg (by rw [hFirst c rfl]; exact Bool.false_ne_true)]
  have hReverse : text.reverse.dropWhile isSpace = text.reverse := by
    rw [← List.head?_reverse] at hLast
    cases hText : text.reverse with
    | nil => rfl
    | cons c rest =>
      rw [hText] at hLast
      rw [List.dropWhile_cons_of_neg (by rw [hLast c rfl]; exact Bool.false_ne_true)]
  rw [trimmed, hDrop, hReverse, List.reverse_reverse]

theorem isSpace_of_head?_trimmed {text : QString} : ∀ c ∈ (trimmed text).head?, isSpace c = false := by
  intro c hc
  have hPrefix : trimmed text <+: text.dropWhile isSpace :=
    ⟨((text.dropWhile isSpace).reverse.takeWhile isSpace).reverse, by
      rw [trimmed, ← List.reverse_append, List.takeWhile_append_dropWhile, List.reverse_reverse]⟩
  obtain ⟨rest, hRest⟩ := hPrefix
  have hHead : (text.dropWhile isSpace).head? = some c := by
    rw [← hRest, List.head?_append, Option.mem_def.mp hc, Option.some_or]
  have hNot := List.head?_dropWhile_not isSpace text
  rw [hHead] at hNot
  simpa using hNot

theorem isSpace_of_getLast?_trimmed {text : QString} : ∀ c ∈ (trimmed text).getLast?, isSpace c = false := by
  intro c hc
  rw [trimmed, List.getLast?_reverse] at hc
  have hNot := List.head?_dropWhile_not isSpace (text.dropWhile isSpace).reverse
  rw [Option.mem_def.mp hc] at hNot
  simpa using hNot

@[simp] theorem trimmed_trimmed (text : QString) : trimmed (trimmed text) = trimmed text :=
  trimmed_eq_self_of_ends isSpace_of_head?_trimmed isSpace_of_getLast?_trimmed

theorem trimmed_append_space {c : QChar} (h : isSpace c = true) (text : QString) :
    trimmed (text ++ [c]) = trimmed text := by
  rw [trimmed, trimmed, List.dropWhile_append]
  cases hText : text.dropWhile isSpace with
  | nil => simp [h]
  | cons d rest => simp [h]

theorem trimmed_cons_space {c : QChar} (h : isSpace c = true) (text : QString) :
    trimmed (c :: text) = trimmed text := by
  rw [trimmed, trimmed, List.dropWhile_cons_of_pos h]

theorem exists_digit_of_digitsValue {text : QString} {n number : Nat} (h : digitsValue n text = some number) :
    ∀ c ∈ text, ∃ d < 10, c = digitChar d := by
  induction text generalizing n with
  | nil => exact fun _ hc => absurd hc List.not_mem_nil
  | cons c text ih =>
    obtain ⟨d, hDigit, hRest⟩ := Option.bind_eq_some_iff.mp h
    obtain ⟨⟨hLow, hHigh⟩, -⟩ := Option.ite_none_right_eq_some.mp hDigit
    have hLow : 0x30 ≤ c.toNat := UInt16.le_iff_toNat_le.mp hLow
    have hHigh : c.toNat ≤ 0x39 := UInt16.le_iff_toNat_le.mp hHigh
    refine List.forall_mem_cons.mpr ⟨⟨c.toNat - 0x30, by omega, ?_⟩, ih hRest⟩
    rw [digitChar, Nat.add_sub_cancel' hLow, UInt16.ofNat_toNat]

theorem integerValue_of_naturalValue {text : QString} {number : Nat} (h : naturalValue text = some number) :
    integerValue text = some (number : Int) := by
  obtain ⟨hSome, hDigits⟩ := Option.ite_none_left_eq_some.mp h
  have hChars := exists_digit_of_digitsValue hDigits
  have hTrimmed : trimmed text = text := by
    refine trimmed_eq_self fun c hc => ?_
    obtain ⟨d, hd, rfl⟩ := hChars c hc
    exact isSpace_digitChar hd
  unfold integerValue
  rw [hTrimmed]
  cases text with
  | nil => exact absurd rfl hSome
  | cons c text =>
    obtain ⟨d, hd, hc⟩ := hChars c List.mem_cons_self
    have hSigns : c ≠ 0x2D ∧ c ≠ 0x2B := by
      rw [hc]
      interval_cases d <;> decide
    simp only [if_neg hSigns.1, if_neg hSigns.2, h, Option.map_some]

theorem integerValue_number {n : Int} (hNonneg : 0 ≤ n) : integerValue (number n) = some n := by
  have hNatural : naturalValue (number n) = some n.natAbs := by
    rw [naturalValue, if_neg (number_ne_nil n), number, if_neg (by omega)]
    exact digitsValue_decimalDigits (by omega)
  rw [integerValue_of_naturalValue hNatural, Int.natAbs_of_nonneg hNonneg]

theorem toInt_number {n : Int} (hNonneg : 0 ≤ n) (hRange : IsInt32 n) : (number n).toInt = some n := by
  rw [toInt, integerValue_number hNonneg, Option.filter_some, if_pos (by simpa using hRange)]

theorem mem_of_mem_trimmed {c : QChar} {s : QString} (h : c ∈ trimmed s) : c ∈ s := by
  rw [trimmed, List.mem_reverse] at h
  exact (List.dropWhile_sublist _).subset (List.mem_reverse.mp ((List.dropWhile_sublist _).subset h))

theorem nonneg_of_toInt {s : QString} {n : Int} (h : s.toInt = some n)
    (hSign : 0x2D ∈ s → ∀ c ∈ s, digitValue c = none) : 0 ≤ n := by
  obtain ⟨hValue, -⟩ := Option.filter_eq_some_iff.mp h
  unfold integerValue at hValue
  split at hValue
  · cases hValue
  · rename_i c t hTrimmed
    have hMem (d : QChar) (hd : d ∈ c :: t) : d ∈ s := mem_of_mem_trimmed (hTrimmed ▸ hd)
    split at hValue
    · rename_i hMinus
      obtain ⟨m, hDigits, -⟩ := Option.map_eq_some_iff.mp hValue
      cases t with
      | nil => simp [naturalValue] at hDigits
      | cons d t =>
        have hNone : digitValue d = none := hSign (hMem _ (by simp [hMinus])) d (hMem d (by simp))
        simp [naturalValue, digitsValue, hNone] at hDigits
    · have hNatural : ∃ m : Nat, (m : Int) = n := by
        split at hValue <;>
        · obtain ⟨m, -, hm⟩ := Option.map_eq_some_iff.mp hValue
          exact ⟨m, hm⟩
      omega

end QString

end Chatterino

namespace Chatterino.QString

def isHighSurrogate (c : QChar) : Bool := 0xD800 ≤ c && c ≤ 0xDBFF

def isLowSurrogate (c : QChar) : Bool := 0xDC00 ≤ c && c ≤ 0xDFFF

def encodeChar (c : Char) : QString :=
  if c.toNat < 0x10000 then [UInt16.ofNat c.toNat]
  else [UInt16.ofNat (0xD800 + (c.toNat - 0x10000) / 0x400), UInt16.ofNat (0xDC00 + (c.toNat - 0x10000) % 0x400)]

def utf16 (text : List Char) : QString := text.flatMap encodeChar

theorem utf16_cons (c : Char) (text : List Char) : utf16 (c :: text) = encodeChar c ++ utf16 text := List.flatMap_cons

theorem utf16_append (text text' : List Char) : utf16 (text ++ text') = utf16 text ++ utf16 text' := List.flatMap_append

theorem toNat_ofNat {n : Nat} (h : n < 0x10000) : (UInt16.ofNat n).toNat = n := by
  rw [UInt16.toNat_ofNat']
  omega

theorem isHighSurrogate_ofNat {n : Nat} (h : n < 0x10000) :
    isHighSurrogate (UInt16.ofNat n) = decide (0xD800 ≤ n ∧ n ≤ 0xDBFF) := by
  rw [isHighSurrogate, Bool.decide_and]
  simp only [UInt16.le_iff_toNat_le, toNat_ofNat h]
  rfl

theorem isLowSurrogate_ofNat {n : Nat} (h : n < 0x10000) :
    isLowSurrogate (UInt16.ofNat n) = decide (0xDC00 ≤ n ∧ n ≤ 0xDFFF) := by
  rw [isLowSurrogate, Bool.decide_and]
  simp only [UInt16.le_iff_toNat_le, toNat_ofNat h]
  rfl

theorem encodeChar_cases (c : Char) :
    (∃ u, encodeChar c = [u] ∧ isHighSurrogate u = false ∧ isLowSurrogate u = false) ∨
      ∃ high low, encodeChar c = [high, low] ∧ isHighSurrogate high = true ∧ isLowSurrogate low = true := by
  have hScalar : c.toNat < 0xD800 ∨ 0xDFFF < c.toNat ∧ c.toNat < 0x110000 := c.valid
  rw [encodeChar]
  split
  · rename_i hBasic
    refine Or.inl ⟨_, rfl, ?_, ?_⟩
    · rw [isHighSurrogate_ofNat hBasic, decide_eq_false_iff_not]
      omega
    · rw [isLowSurrogate_ofNat hBasic, decide_eq_false_iff_not]
      omega
  · refine Or.inr ⟨_, _, rfl, ?_, ?_⟩
    · rw [isHighSurrogate_ofNat (by omega), decide_eq_true_iff]
      omega
    · rw [isLowSurrogate_ofNat (by omega), decide_eq_true_iff]
      omega

end Chatterino.QString
