import Chatterino.Twitch.IrcMessageHandler
import Mathlib.Data.List.DropRight

/-! # Durations as text

A duration is read by a scanner over numbers and units. The digits of all scripts are a parameter.
-/

namespace Chatterino.Durations

open QString Twitch.IrcHandlers

variable (isDigit : QChar → Bool)

def skipSpace (view : QString) (startPos : Nat) : Nat := startPos + ((view.drop startPos).takeWhile isSpace).length

def matchesIgnorePlural (word expected : QString) : Bool :=
  expected.isPrefixOf word && (word.length = expected.length ||
    (word.length = expected.length + 1 && word.getLast? = some 0x73))

def unitAt (view : QString) (pos : Nat) : QString := (view.drop pos).takeWhile fun c => !(isSpace c || isDigit c)

def unitMultiplier (unit : QString) : Option Nat :=
  match unit with
  | [] => none
  | first :: _ =>
    if first = 0x73 then if unit.length = 1 ∨ matchesIgnorePlural unit (lit "second") then some 1 else none
    else if first = 0x6D then
      if unit.length = 1 ∨ matchesIgnorePlural unit (lit "minute") then some 60
      else if (unit.length = 2 ∧ unit[1]? = some 0x6F) ∨ matchesIgnorePlural unit (lit "month") then
        some (60 * 60 * 24 * 30)
      else none
    else if first = 0x68 then if unit.length = 1 ∨ matchesIgnorePlural unit (lit "hour") then some (60 * 60) else none
    else if first = 0x64 then if unit.length = 1 ∨ matchesIgnorePlural unit (lit "day") then some (60 * 60 * 24) else none
    else if first = 0x77 then
      if unit.length = 1 ∨ matchesIgnorePlural unit (lit "week") then some (60 * 60 * 24 * 7) else none
    else none

def findUnitMultiplierToSec (view : QString) (pos : Nat) : Option Nat × Nat :=
  (unitMultiplier (unitAt isDigit view pos), pos + (unitAt isDigit view pos).length - 1)

structure Visit where
  visitingNumber : Bool := true
  numberStartIdx : Nat := 0
  currentValue : Nat := 0
deriving DecidableEq

theorem le_findUnit {view : QString} {pos multiplier : Nat}
    (h : (findUnitMultiplierToSec isDigit view pos).1 = some multiplier) :
    pos ≤ (findUnitMultiplierToSec isDigit view pos).2 := by
  have hUnit : unitAt isDigit view pos ≠ [] := by
    intro hNil
    rw [findUnitMultiplierToSec, hNil] at h
    cases h
  have hLength := List.length_pos_iff.mpr hUnit
  rw [findUnitMultiplierToSec]
  dsimp only
  omega

def unitStart (input : QString) (pos : Nat) (c : QChar) : Nat := if isSpace c then skipSpace input pos else pos

theorem le_unitStart (input : QString) (pos : Nat) (c : QChar) : pos ≤ unitStart input pos c := by
  rw [unitStart]
  split
  · exact Nat.le_add_right _ _
  · exact Nat.le_refl _

/-- The loop over the characters. There is no result where the input is invalid. -/
def scan (input : QString) (pos : Nat) (visit : Visit) : Option Visit :=
  if hMore : pos < input.length then
    if visit.visitingNumber ∧ isDigit input[pos] = false then
      let parsed := toUInt ((input.drop visit.numberStartIdx).take (pos - visit.numberStartIdx))
      if input.length ≤ unitStart input pos input[pos] then none
      else
        match hUnit : (findUnitMultiplierToSec isDigit input (unitStart input pos input[pos])).1 with
        | none => none
        | some multiplier =>
          scan input ((findUnitMultiplierToSec isDigit input (unitStart input pos input[pos])).2 + 1)
            ⟨false, visit.numberStartIdx, (visit.currentValue + parsed * multiplier) % 18446744073709551616⟩
    else if visit.visitingNumber = false ∧ isSpace input[pos] = false then
      if isDigit input[pos] then scan input (pos + 1) ⟨true, pos, visit.currentValue⟩ else none
    else scan input (pos + 1) visit
  else some visit
termination_by input.length - pos
decreasing_by
  · have hStart := le_unitStart input pos input[pos]
    have hLast := le_findUnit isDigit hUnit
    omega
  · omega
  · omega

def parseDurationToSeconds (inputString : QString) (noUnitMultiplier : Nat) : Int :=
  if inputString = [] then -1
  else
    let input := trimmed inputString
    match scan isDigit input 0 {} with
    | none => -1
    | some visit =>
      if visit.visitingNumber ∧ visit.numberStartIdx ≠ 0 then -1
      else
        let currentValue := if visit.visitingNumber then
            (visit.currentValue + toUInt input * noUnitMultiplier) % 18446744073709551616
          else visit.currentValue
        -- the cast to a signed number
        if currentValue < 9223372036854775808 then currentValue else (currentValue : Int) - 18446744073709551616

def documentedUnits : List (QString × Nat) :=
  [(lit "s", 1), (lit "second", 1), (lit "seconds", 1), (lit "m", 60), (lit "minute", 60), (lit "minutes", 60),
    (lit "mo", 2592000), (lit "month", 2592000), (lit "months", 2592000), (lit "h", 3600), (lit "hour", 3600),
    (lit "hours", 3600), (lit "d", 86400), (lit "day", 86400), (lit "days", 86400), (lit "w", 604800),
    (lit "week", 604800), (lit "weeks", 604800)]

theorem matchesIgnorePlural_iff {word expected : QString} :
    matchesIgnorePlural word expected = true ↔ word = expected ∨ word = expected ++ [0x73] := by
  rw [matchesIgnorePlural, Bool.and_eq_true, Bool.or_eq_true, Bool.and_eq_true, decide_eq_true_iff,
    decide_eq_true_iff, decide_eq_true_iff]
  constructor
  · rintro ⟨hPrefix, hEnd⟩
    obtain ⟨rest, rfl⟩ := List.isPrefixOf_iff_prefix.mp hPrefix
    rw [List.length_append] at hEnd
    rcases hEnd with hEnd | ⟨hEnd, hLast⟩
    · left
      rw [List.length_eq_zero_iff.mp (by omega : rest.length = 0), List.append_nil]
    · right
      obtain ⟨c, rfl⟩ := List.length_eq_one_iff.mp (by omega : rest.length = 1)
      rw [List.getLast?_concat] at hLast
      rw [Option.some.inj hLast]
  · rintro (rfl | rfl)
    · exact ⟨List.isPrefixOf_iff_prefix.mpr (List.prefix_refl _), .inl rfl⟩
    · refine ⟨List.isPrefixOf_iff_prefix.mpr (List.prefix_append _ _), .inr ⟨?_, List.getLast?_concat⟩⟩
      rw [List.length_append, List.length_singleton]

theorem mem_documentedUnits {first : QChar} {rest word : QString} {multiplier : Nat}
    (h : (first :: rest).length = 1 ∨ first :: rest = word ∨ first :: rest = word ++ [0x73])
    (hAll : ∀ unit ∈ [[first], word, word ++ [0x73]], (unit, multiplier) ∈ documentedUnits) :
    (first :: rest, multiplier) ∈ documentedUnits := by
  apply hAll
  rcases h with h | h | h
  · rw [List.length_eq_zero_iff.mp (Nat.succ.inj h)]
    exact List.mem_cons_self
  · rw [h]
    exact List.mem_cons_of_mem _ List.mem_cons_self
  · rw [h]
    exact List.mem_cons_of_mem _ (List.mem_cons_of_mem _ List.mem_cons_self)

/-- The units read are those documented, and months. -/
theorem unitMultiplier_eq_some_iff {unit : QString} {multiplier : Nat} :
    unitMultiplier unit = some multiplier ↔ (unit, multiplier) ∈ documentedUnits := by
  constructor
  · intro h
    unfold unitMultiplier at h
    split at h
    · cases h
    · rename_i first rest
      simp only [matchesIgnorePlural_iff] at h
      split at h
      · rename_i hFirst
        subst hFirst
        obtain ⟨hUnit, hSome⟩ := Option.ite_none_right_eq_some.mp h
        cases hSome
        exact mem_documentedUnits hUnit (by decide)
      · split at h
        · rename_i hFirst
          subst hFirst
          split at h
          · rename_i hUnit
            cases h
            exact mem_documentedUnits hUnit (by decide)
          · obtain ⟨hUnit, hSome⟩ := Option.ite_none_right_eq_some.mp h
            cases hSome
            rcases hUnit with ⟨hLength, hSecond⟩ | hWord | hWord
            · obtain ⟨c, rfl⟩ := List.length_eq_one_iff.mp (Nat.succ.inj hLength)
              cases hSecond
              decide
            · exact hWord ▸ by decide
            · exact hWord ▸ by decide
        · split at h
          · rename_i hFirst
            subst hFirst
            obtain ⟨hUnit, hSome⟩ := Option.ite_none_right_eq_some.mp h
            cases hSome
            exact mem_documentedUnits hUnit (by decide)
          · split at h
            · rename_i hFirst
              subst hFirst
              obtain ⟨hUnit, hSome⟩ := Option.ite_none_right_eq_some.mp h
              cases hSome
              exact mem_documentedUnits hUnit (by decide)
            · split at h
              · rename_i hFirst
                subst hFirst
                obtain ⟨hUnit, hSome⟩ := Option.ite_none_right_eq_some.mp h
                cases hSome
                exact mem_documentedUnits hUnit (by decide)
              · cases h
  · have hAll : ∀ unit ∈ documentedUnits, unitMultiplier unit.1 = some unit.2 := by decide
    exact hAll (unit, multiplier)

structure Amount where
  digits : QString
  gap : QString
  unit : QString
  gap' : QString
  number : Nat
  multiplier : Nat

def Amount.text (amount : Amount) : QString :=
  amount.digits ++ (amount.gap ++ (amount.unit ++ amount.gap'))

def total (amounts : List Amount) : Nat := (amounts.map fun amount => amount.number * amount.multiplier).sum

/-- The digits may be of any script, be missing or overflow. The number is what is made of them. -/
structure Amount.IsRead (amount : Amount) : Prop where
  digits : ∀ c ∈ amount.digits, isDigit c = true
  gap : ∀ c ∈ amount.gap, isSpace c = true ∧ isDigit c = false
  unit : (amount.unit, amount.multiplier) ∈ documentedUnits
  gap' : ∀ c ∈ amount.gap', isSpace c = true
  number : toUInt amount.digits = amount.number

inductive Reading : QString → List Amount → Prop
  | last {amount : Amount} (h : amount.IsRead isDigit) : Reading amount.text [amount]
  | more {amount : Amount} {amounts : List Amount} {rest : QString} (h : amount.IsRead isDigit)
      (hDigit : ∃ c ∈ rest.head?, isDigit c = true ∧ isSpace c = false) (hRest : Reading rest amounts) :
      Reading (amount.text ++ rest) (amount :: amounts)

def AsciiDigits : Prop := ∀ c : QChar, c.toNat < 128 → isDigit c = decide (0x30 ≤ c.toNat ∧ c.toNat ≤ 0x39)

variable {isDigit}

theorem unit_facts (h : AsciiDigits isDigit) {unit : QString} {multiplier : Nat}
    (hUnit : (unit, multiplier) ∈ documentedUnits) :
    unit ≠ [] ∧ ∀ c ∈ unit, isSpace c = false ∧ isDigit c = false := by
  have hAll : ∀ unit ∈ documentedUnits, unit.1 ≠ [] ∧ ∀ c ∈ unit.1,
      isSpace c = false ∧ c.toNat < 128 ∧ ¬(0x30 ≤ c.toNat ∧ c.toNat ≤ 0x39) := by decide
  obtain ⟨hSome, hChars⟩ := hAll (unit, multiplier) hUnit
  refine ⟨hSome, fun c hc => ?_⟩
  obtain ⟨hSpace, hAscii, hOther⟩ := hChars c hc
  exact ⟨hSpace, by rw [h c hAscii, decide_eq_false hOther]⟩

theorem takeWhile_append_eq {p : QChar → Bool} {passed after : QString} (hPassed : ∀ c ∈ passed, p c = true)
    (hAfter : ∀ c ∈ after.head?, p c = false) : (passed ++ after).takeWhile p = passed := by
  rw [List.takeWhile_append_of_pos hPassed]
  cases after with
  | nil => exact List.append_nil passed
  | cons c after => rw [List.takeWhile_cons_of_neg (by rw [hAfter c rfl]; decide), List.append_nil]

theorem exists_span (p : QChar → Bool) (text : QString) : ∃ passed after, text = passed ++ after ∧
    (∀ c ∈ passed, p c = true) ∧ ∀ c ∈ after.head?, p c = false := by
  refine ⟨text.takeWhile p, text.dropWhile p, List.takeWhile_append_dropWhile.symm,
    fun c hc => List.mem_takeWhile_imp hc, fun c hc => ?_⟩
  have hNot := List.head?_dropWhile_not p text
  rw [Option.mem_def.mp hc] at hNot
  simpa using hNot

/-- The loop goes on over the digits of a number, and over the spaces behind a unit. -/
theorem scan_passes (before : QString) {passed : QString} (after : QString) {visit : Visit}
    (hPassed : ∀ c ∈ passed, (if visit.visitingNumber then isDigit c else isSpace c) = true) :
    scan isDigit (before ++ (passed ++ after)) before.length visit =
      scan isDigit (before ++ (passed ++ after)) (before ++ passed).length visit := by
  induction passed generalizing before with
  | nil => rw [List.append_nil]
  | cons c passed ih =>
    have hc := hPassed c List.mem_cons_self
    have hMore : before.length < (before ++ (c :: passed ++ after)).length := by
      rw [List.length_append, List.length_append, List.length_cons]
      omega
    have hGet : (before ++ (c :: passed ++ after))[before.length] = c := by simp
    have hNext := ih (before ++ [c]) fun d hd => hPassed d (List.mem_cons_of_mem _ hd)
    rw [List.length_append, List.length_singleton, List.append_assoc, List.append_assoc] at hNext
    have hPass : scan isDigit (before ++ (c :: passed ++ after)) before.length visit =
        scan isDigit (before ++ (c :: passed ++ after)) (before.length + 1) visit := by
      rw [scan, dif_pos hMore, hGet]
      cases hVisiting : visit.visitingNumber with
      | true =>
        rw [hVisiting, if_pos rfl] at hc
        rw [hc, if_neg (by simp), if_neg (by simp)]
      | false =>
        rw [hVisiting, if_neg Bool.false_ne_true] at hc
        rw [hc, if_neg (by simp), if_neg (by simp)]
    exact hPass.trans hNext

theorem scan_end (input : QString) (visit : Visit) : scan isDigit input input.length visit = some visit := by
  rw [scan, dif_neg (Nat.lt_irrefl _)]

/-- Where a number ends, the loop reads the unit behind the spaces. -/
theorem scan_unit {before gap unit after : QString} {start value : Nat}
    (hSome : gap ++ (unit ++ after) ≠ []) (hFirst : ∀ c ∈ (gap ++ (unit ++ after)).head?, isDigit c = false)
    (hGap : ∀ c ∈ gap, isSpace c = true) (hNamed : ∀ c ∈ (unit ++ after).head?, isSpace c = false)
    (hUnit : ∀ c ∈ unit, isSpace c = false ∧ isDigit c = false)
    (hAfter : ∀ c ∈ after.head?, (isSpace c || isDigit c) = true) :
    scan isDigit (before ++ (gap ++ (unit ++ after))) before.length ⟨true, start, value⟩ =
      (unitMultiplier unit).bind fun multiplier =>
        scan isDigit (before ++ (gap ++ (unit ++ after))) (before ++ (gap ++ unit)).length
          ⟨false, start, (value + toUInt ((before ++ (gap ++ (unit ++ after))).drop start |>.take
            (before.length - start)) * multiplier) % 18446744073709551616⟩ := by
  have hMore : before.length < (before ++ (gap ++ (unit ++ after))).length := by
    have hLength := List.length_pos_iff.mpr hSome
    rw [List.length_append]
    omega
  have hGet : (before ++ (gap ++ (unit ++ after)))[before.length] ∈ (gap ++ (unit ++ after)).head? := by
    rw [List.getElem_append_right (Nat.le_refl _), List.head?_eq_getElem?, Option.mem_def,
      List.getElem?_eq_getElem (List.length_pos_iff.mpr hSome)]
    simp
  have hStart : unitStart (before ++ (gap ++ (unit ++ after))) before.length
      (before ++ (gap ++ (unit ++ after)))[before.length] = (before ++ gap).length := by
    rw [unitStart, skipSpace, List.drop_left, takeWhile_append_eq hGap hNamed, List.length_append]
    split
    · rfl
    · rename_i hSpace
      cases gap with
      | nil => rfl
      | cons c gap =>
        exact absurd (Option.some.inj hGet ▸ hGap c List.mem_cons_self) hSpace
  have hUnitAt : unitAt isDigit (before ++ (gap ++ (unit ++ after))) (before ++ gap).length = unit := by
    rw [unitAt, ← List.append_assoc, List.drop_left]
    apply takeWhile_append_eq
    · intro c hc
      rw [(hUnit c hc).1, (hUnit c hc).2]
      rfl
    · intro c hc
      rw [hAfter c hc]
      rfl
  rw [scan, dif_pos hMore, if_pos ⟨rfl, hFirst _ hGet⟩]
  dsimp only
  split
  · rename_i hEnd
    rw [hStart, List.length_append, List.length_append, List.length_append, List.length_append] at hEnd
    rw [List.length_eq_zero_iff.mp (by omega : unit.length = 0)]
    rfl
  · split
    · rename_i hNone
      rw [hStart, findUnitMultiplierToSec, hUnitAt] at hNone
      have hNone' : unitMultiplier unit = none := hNone
      rw [hNone', Option.bind_none]
    · rename_i multiplier hMultiplier
      rw [hStart, findUnitMultiplierToSec, hUnitAt] at hMultiplier
      have hMultiplier' : unitMultiplier unit = some multiplier := hMultiplier
      have hEnd : (before ++ gap).length + unit.length - 1 + 1 = (before ++ (gap ++ unit)).length := by
        have hLength : 0 < unit.length := by
          apply List.length_pos_iff.mpr
          rintro rfl
          cases hMultiplier'
        rw [← List.append_assoc, @List.length_append _ (before ++ gap)]
        omega
      rw [hMultiplier', Option.bind_some, hStart, findUnitMultiplierToSec, hUnitAt, ← hEnd]

theorem scan_amount (h : AsciiDigits isDigit) {amount : Amount} (hRead : amount.IsRead isDigit) (before : QString)
    {after : QString} (hAfter : ∀ c ∈ (amount.gap' ++ after).head?, (isSpace c || isDigit c) = true) (value : Nat) :
    scan isDigit (before ++ (amount.text ++ after)) before.length ⟨true, before.length, value⟩ =
      scan isDigit (before ++ (amount.text ++ after)) (before ++ amount.text).length
        ⟨false, before.length, (value + amount.number * amount.multiplier) % 18446744073709551616⟩ := by
  obtain ⟨hSome, hUnit⟩ := unit_facts h hRead.unit
  obtain ⟨c, unit, hCons⟩ := List.exists_cons_of_ne_nil hSome
  have hNamed : ∀ d ∈ (amount.unit ++ (amount.gap' ++ after)).head?, isSpace d = false ∧ isDigit d = false := by
    rw [hCons]
    intro d hd
    cases hd
    exact hUnit c (hCons ▸ List.mem_cons_self)
  have hFirst : ∀ d ∈ (amount.gap ++ (amount.unit ++ (amount.gap' ++ after))).head?, isDigit d = false := by
    intro d hd
    cases hGap : amount.gap with
    | nil =>
      rw [hGap] at hd
      exact (hNamed d hd).2
    | cons e gap =>
      rw [hGap] at hd
      cases hd
      exact (hRead.gap d (hGap ▸ List.mem_cons_self)).2
  have hText : amount.text ++ after =
      amount.digits ++ (amount.gap ++ (amount.unit ++ (amount.gap' ++ after))) := by
    simp only [Amount.text, List.append_assoc]
  have hMoved (rest : QString) : before ++ (amount.digits ++ rest) = before ++ amount.digits ++ rest :=
    (List.append_assoc _ _ _).symm
  have hSlice : ((before ++ amount.digits ++ (amount.gap ++ (amount.unit ++ (amount.gap' ++ after)))).drop
      before.length).take ((before ++ amount.digits).length - before.length) = amount.digits := by
    rw [List.append_assoc, List.drop_left, List.length_append, Nat.add_sub_cancel_left, List.take_left]
  have hUnitText : before ++ amount.digits ++ (amount.gap ++ (amount.unit ++ (amount.gap' ++ after))) =
      before ++ amount.digits ++ (amount.gap ++ amount.unit) ++ (amount.gap' ++ after) := by simp
  have hEnd : before ++ amount.digits ++ (amount.gap ++ amount.unit) ++ amount.gap' = before ++ amount.text := by
    simp only [Amount.text, List.append_assoc]
  have hMore : amount.gap ++ (amount.unit ++ (amount.gap' ++ after)) ≠ [] := by
    rw [hCons]
    simp
  rw [hText, scan_passes _ _ (by exact hRead.digits), hMoved, scan_unit hMore hFirst (fun d hd => (hRead.gap d hd).1)
    (fun d hd => (hNamed d hd).1) hUnit hAfter, unitMultiplier_eq_some_iff.mpr hRead.unit, Option.bind_some, hSlice,
    hRead.number, hUnitText, scan_passes _ _ (by exact hRead.gap'), hEnd]

theorem scan_start {before after : QString} {start value : Nat} {c : QChar} (hSpace : isSpace c = false) :
    scan isDigit (before ++ c :: after) before.length ⟨false, start, value⟩ =
      if isDigit c then scan isDigit (before ++ c :: after) before.length ⟨true, before.length, value⟩ else none := by
  have hMore : before.length < (before ++ c :: after).length := by simp
  have hElem : (before ++ c :: after)[before.length] = c := by simp
  rw [scan, dif_pos hMore, if_neg (by simp), if_pos ⟨rfl, by rw [hElem, hSpace]⟩, hElem]
  cases hDigit : isDigit c with
  | false => rfl
  | true =>
    conv_rhs => rw [if_pos rfl, scan, dif_pos hMore, if_neg (by rw [hElem, hDigit]; simp), if_neg (by simp)]
    rfl

/-- A reading is scanned to its total, which wraps. -/
theorem scan_reading (h : AsciiDigits isDigit) {text : QString} {amounts : List Amount}
    (hReading : Reading isDigit text amounts) (before : QString) (value : Nat) :
    ∃ start, scan isDigit (before ++ text) before.length ⟨true, before.length, value⟩ =
      some ⟨false, start, (value + total amounts) % 18446744073709551616⟩ := by
  induction hReading generalizing before value with
  | @last amount hRead =>
    have hScan := @scan_amount isDigit h _ hRead before [] ?_ value
    · refine ⟨before.length, ?_⟩
      rw [List.append_nil] at hScan
      rw [hScan, scan_end, total, List.map_singleton, List.sum_singleton]
    · rw [List.append_nil]
      intro c hc
      rw [hRead.gap' c (List.mem_of_mem_head? hc)]
      rfl
  | @more amount amounts rest hRead hDigit hRest ih =>
    obtain ⟨c, hc, hDigit, hSpace⟩ := hDigit
    obtain ⟨after, rfl⟩ : ∃ after, rest = c :: after := by
      cases rest with
      | nil => cases hc
      | cons d after =>
        cases hc
        exact ⟨after, rfl⟩
    have hScan := @scan_amount isDigit h _ hRead before (c :: after) ?_ value
    · obtain ⟨start, hNext⟩ := ih (before ++ amount.text) ((value + amount.number * amount.multiplier) % 18446744073709551616)
      refine ⟨start, ?_⟩
      rw [hScan, ← List.append_assoc, scan_start hSpace, if_pos hDigit, hNext, Nat.mod_add_mod, total, total, List.map_cons,
        List.sum_cons, Nat.add_assoc]
    · intro d hd
      cases hGap : amount.gap' with
      | nil =>
        rw [hGap] at hd
        cases hd
        rw [hDigit, Bool.or_true]
      | cons e gap =>
        rw [hGap] at hd
        cases hd
        rw [hRead.gap' d (hGap ▸ List.mem_cons_self), Bool.true_or]

structure QtDigits (isDigit : QChar → Bool) : Prop where
  ascii : AsciiDigits isDigit
  not_space : ∀ c, isSpace c = true → isDigit c = false

/-- What the scanner does not reject is all digits, or a reading, or has a number at its end. -/
theorem scan_cases (h : QtDigits isDigit) (n : Nat) (text : QString) (hLength : text.length < n) (before : QString)
    (value : Nat) (visit : Visit)
    (hScan : scan isDigit (before ++ text) before.length ⟨true, before.length, value⟩ = some visit) :
    (∀ c ∈ text, isDigit c = true) ∧ visit = ⟨true, before.length, value⟩ ∨
      (∃ amounts, Reading isDigit text amounts) ∨
      (visit.visitingNumber = true ∧ before.length < visit.numberStartIdx) := by
  induction n generalizing text before value with
  | zero => omega
  | succ n ih =>
    obtain ⟨digits, spaced, rfl, hDigits, hFirst⟩ := exists_span isDigit text
    by_cases hRest : spaced = []
    · subst hRest
      rw [scan_passes _ _ (by exact hDigits), List.append_nil, scan_end] at hScan
      left
      rw [List.append_nil]
      exact ⟨hDigits, (Option.some.inj hScan).symm⟩
    obtain ⟨gap, named, rfl, hGap, hNamed⟩ := exists_span isSpace spaced
    obtain ⟨unit, after, rfl, hUnit, hAfter⟩ := exists_span (fun c => !(isSpace c || isDigit c)) named
    have hUnit : ∀ c ∈ unit, isSpace c = false ∧ isDigit c = false := fun c hc => by simpa using hUnit c hc
    have hAfter : ∀ c ∈ after.head?, (isSpace c || isDigit c) = true := fun c hc => by
      rw [← Bool.not_eq_false']
      exact hAfter c hc
    cases hMultiplier : unitMultiplier unit with
    | none =>
      rw [scan_passes _ _ (by exact hDigits), ← List.append_assoc, scan_unit hRest hFirst hGap hNamed hUnit hAfter,
        hMultiplier] at hScan
      cases hScan
    | some multiplier =>
      obtain ⟨gap', next, rfl, hGap', hNext⟩ := exists_span isSpace after
      have hRead : Amount.IsRead isDigit ⟨digits, gap, unit, gap', toUInt digits, multiplier⟩ :=
        ⟨hDigits, fun c hc => ⟨hGap c hc, h.not_space c (hGap c hc)⟩,
          unitMultiplier_eq_some_iff.mp hMultiplier, hGap', rfl⟩
      have hText : digits ++ (gap ++ (unit ++ (gap' ++ next))) =
          Amount.text ⟨digits, gap, unit, gap', toUInt digits, multiplier⟩ ++ next := by
        simp only [Amount.text, List.append_assoc]
      rw [hText] at hScan hLength ⊢
      rw [scan_amount h.ascii hRead _ hAfter, ← List.append_assoc] at hScan
      have hSome : 0 < unit.length := List.length_pos_iff.mpr (unit_facts h.ascii hRead.unit).1
      have hShort : next.length < n := by
        simp only [Amount.text, List.length_append] at hLength
        omega
      have hBefore : before.length <
          (before ++ Amount.text ⟨digits, gap, unit, gap', toUInt digits, multiplier⟩).length := by
        simp only [Amount.text, List.length_append]
        omega
      right
      cases next with
      | nil =>
        rw [List.append_nil]
        exact .inl ⟨_, .last hRead⟩
      | cons c rest =>
        have hSpace : isSpace c = false := hNext c rfl
        cases hDigit : isDigit c with
        | false =>
          rw [scan_start hSpace, hDigit] at hScan
          cases hScan
        | true =>
          rw [scan_start hSpace, if_pos hDigit] at hScan
          rcases ih _ hShort _ _ hScan with ⟨-, rfl⟩ | ⟨amounts, hReading⟩ | ⟨hVisiting, hStart⟩
          · exact .inr ⟨rfl, hBefore⟩
          · exact .inl ⟨_, .more hRead ⟨c, rfl, hDigit, hSpace⟩ hReading⟩
          · exact .inr ⟨hVisiting, hBefore.trans hStart⟩

def unitSeconds (unit : QChar) : Nat :=
  if unit = 0x64 then 86400 else if unit = 0x68 then 3600 else if unit = 0x6D then 60 else 1

def groupsText : List (Int × QChar) → QString
  | [] => []
  | [group] => number group.1 ++ [group.2]
  | group :: group' :: groups => number group.1 ++ group.2 :: SPACE :: groupsText (group' :: groups)

def parts (n : Int) : List (Int × QChar) :=
  [(n / 86400, 0x64), (n / 3600 % 24, 0x68), (n / 60 % 60, 0x6D), (n % 60, 0x73)]

theorem groupsText_concat (groups : List (Int × QChar)) (count : Int) (unit : QChar) :
    groupsText (groups ++ [(count, unit)]) =
      (if groups = [] then [] else groupsText groups ++ [SPACE]) ++ number count ++ [unit] := by
  induction groups with
  | nil => simp [groupsText]
  | cons group groups ih =>
    rw [if_neg (List.cons_ne_nil _ _)]
    cases groups with
    | nil => simp [groupsText]
    | cons group' groups =>
      rw [if_neg (List.cons_ne_nil _ _)] at ih
      rw [List.cons_append, List.cons_append, groupsText, ← List.cons_append, ih, groupsText]
      simp

theorem groupsText_ne_nil {groups : List (Int × QChar)} (h : groups ≠ []) : groupsText groups ≠ [] := by
  cases groups with
  | nil => exact absurd rfl h
  | cons group groups =>
    cases groups with
    | nil => simp [groupsText]
    | cons group' groups => simp [groupsText]

theorem appendShortDuration_groupsText (groups : List (Int × QChar)) (count : Int) (unit : QChar) :
    appendShortDuration count unit (groupsText groups) =
      groupsText (groups ++ [(count, unit)].filter fun group => 0 < group.1) := by
  rw [appendShortDuration]
  by_cases hCount : 0 < count
  · rw [if_pos hCount, List.filter_singleton]
    simp only [hCount, decide_true, cond_true]
    rw [groupsText_concat]
    cases groups with
    | nil => rfl
    | cons group groups =>
      have hSome : (groupsText (group :: groups)).isEmpty = false := by
        rw [List.isEmpty_eq_false_iff]
        exact groupsText_ne_nil (List.cons_ne_nil _ _)
      rw [hSome, if_neg Bool.false_ne_true, if_neg (List.cons_ne_nil _ _)]
  · rw [if_neg hCount, List.filter_singleton]
    simp only [hCount, decide_false, cond_false, List.append_nil]

theorem formatTime_eq {n : Int} (h : 0 ≤ n) : formatTime n = groupsText ((parts n).filter fun group => 0 < group.1) := by
  have hMinutes : n.tdiv 60 = n / 60 := Int.tdiv_eq_ediv_of_nonneg h
  have hHours : (n / 60).tdiv 60 = n / 3600 := by
    rw [Int.tdiv_eq_ediv_of_nonneg (by omega)]
    omega
  have hDays : (n / 3600).tdiv 24 = n / 86400 := by
    rw [Int.tdiv_eq_ediv_of_nonneg (by omega)]
    omega
  rw [formatTime, hMinutes, hHours, hDays, Int.tmod_eq_emod_of_nonneg h, Int.tmod_eq_emod_of_nonneg (by omega),
    Int.tmod_eq_emod_of_nonneg (by omega)]
  have hEmpty : ([] : QString) = groupsText [] := rfl
  rw [hEmpty, appendShortDuration_groupsText, appendShortDuration_groupsText, appendShortDuration_groupsText,
    appendShortDuration_groupsText, List.nil_append, ← List.filter_append, ← List.filter_append, ← List.filter_append]
  rfl

theorem isDigit_digitChar (h : AsciiDigits isDigit) {d : Nat} (hd : d < 10) : isDigit (digitChar d) = true := by
  have hChar : (digitChar d).toNat = 0x30 + d := by
    rw [digitChar, UInt16.toNat_ofNat']
    omega
  rw [h _ (by omega), hChar, decide_eq_true_iff]
  omega

theorem isDigit_of_mem_number (h : AsciiDigits isDigit) {n : Int} (hn : 0 ≤ n) {c : QChar} (hc : c ∈ number n) :
    isDigit c = true ∧ isSpace c = false := by
  obtain ⟨d, hd, rfl⟩ := exists_digit_of_mem_number hn hc
  exact ⟨isDigit_digitChar h hd, isSpace_digitChar hd⟩

theorem toUInt_number {n : Int} (hn : 0 ≤ n) (hMax : n ≤ 2147483647) : (toUInt (number n) : Int) = n := by
  have hInt := toInt_number hn ⟨by omega, hMax⟩
  obtain ⟨hInteger, -⟩ := Option.filter_eq_some_iff.mp hInt
  rw [toUInt, hInteger]
  dsimp only
  rw [if_pos (by omega)]
  omega

theorem exists_cons_groupsText (h : AsciiDigits isDigit) {group : Int × QChar} {groups : List (Int × QChar)}
    (hCount : 0 ≤ group.1) :
    ∃ c rest, groupsText (group :: groups) = c :: rest ∧ isDigit c = true ∧ isSpace c = false := by
  obtain ⟨c, digits, hNumber⟩ := List.exists_cons_of_ne_nil (number_ne_nil group.1)
  have hc := isDigit_of_mem_number h hCount (hNumber ▸ List.mem_cons_self)
  cases groups with
  | nil | cons group' groups => exact ⟨c, _, by rw [groupsText, hNumber]; rfl, hc⟩

def IsGroups (groups : List (Int × QChar)) : Prop :=
  ∀ group ∈ groups, 0 ≤ group.1 ∧ group.1 ≤ 2147483647 ∧ group.2 ∈ lit "dhms"

def totalSeconds (groups : List (Int × QChar)) : Nat := (groups.map fun group => group.1.toNat * unitSeconds group.2).sum

def amountOf (group : Int × QChar) (gap' : QString) : Amount :=
  ⟨number group.1, [], [group.2], gap', group.1.toNat, unitSeconds group.2⟩

def amountsOf : List (Int × QChar) → List Amount
  | [] => []
  | [group] => [amountOf group []]
  | group :: group' :: groups => amountOf group [SPACE] :: amountsOf (group' :: groups)

theorem total_amountsOf (groups : List (Int × QChar)) : total (amountsOf groups) = totalSeconds groups := by
  induction groups using amountsOf.induct with
  | case1 => rfl
  | case2 group => rfl
  | case3 group group' groups ih =>
    rw [total] at ih
    rw [amountsOf, total, List.map_cons, List.sum_cons, ih]
    rfl

theorem isRead_amountOf (h : AsciiDigits isDigit) {group : Int × QChar} (hCount : 0 ≤ group.1)
    (hMax : group.1 ≤ 2147483647) (hUnit : group.2 ∈ lit "dhms") {gap' : QString}
    (hGap : ∀ c ∈ gap', isSpace c = true) : (amountOf group gap').IsRead isDigit where
  digits c hc := (isDigit_of_mem_number h hCount hc).1
  gap _ hc := absurd hc List.not_mem_nil
  unit := by
    have hAll : ∀ c ∈ lit "dhms", ([c], unitSeconds c) ∈ documentedUnits := by decide
    exact hAll _ hUnit
  gap' := hGap
  number := by
    have hNumber := toUInt_number hCount hMax
    rw [amountOf]
    dsimp only
    omega

theorem reading_groupsText (h : AsciiDigits isDigit) {groups : List (Int × QChar)} (hGroups : IsGroups groups)
    (hSome : groups ≠ []) : Reading isDigit (groupsText groups) (amountsOf groups) := by
  induction groups using amountsOf.induct with
  | case1 => exact absurd rfl hSome
  | case2 group =>
    obtain ⟨hCount, hMax, hUnit⟩ := hGroups group List.mem_cons_self
    have hRead := @isRead_amountOf isDigit h group hCount hMax hUnit [] fun _ hc => absurd hc List.not_mem_nil
    exact .last hRead
  | case3 group group' groups ih =>
    obtain ⟨hCount, hMax, hUnit⟩ := hGroups group List.mem_cons_self
    have hSpace : ∀ c ∈ [SPACE], isSpace c = true := by decide
    have hRest : IsGroups (group' :: groups) := fun g hg => hGroups g (List.mem_cons_of_mem _ hg)
    obtain ⟨c, rest, hText, hDigit, hVisible⟩ := @exists_cons_groupsText isDigit h group' groups
      (hRest group' List.mem_cons_self).1
    have hReading := Reading.more (isRead_amountOf h hCount hMax hUnit hSpace)
      ⟨c, by rw [hText]; rfl, hDigit, hVisible⟩ (ih hRest (List.cons_ne_nil _ _))
    have hWhole : (amountOf group [SPACE]).text ++ groupsText (group' :: groups) =
        groupsText (group :: group' :: groups) := by
      rw [groupsText, Amount.text, amountOf]
      simp
    rw [hWhole] at hReading
    exact hReading

theorem getLast?_groupsText (groups : List (Int × QChar)) :
    (groupsText groups).getLast? = groups.getLast?.map Prod.snd := by
  induction groups using groupsText.induct with
  | case1 => rfl
  | case2 group => rw [groupsText, List.getLast?_concat]; rfl
  | case3 group group' groups ih =>
    have hSome : groupsText (group' :: groups) ≠ [] := groupsText_ne_nil (List.cons_ne_nil _ _)
    obtain ⟨c, rest, hText⟩ := List.exists_cons_of_ne_nil hSome
    rw [hText] at ih
    rw [groupsText, hText, List.getLast?_append, List.getLast?_cons_cons, List.getLast?_cons_cons, ih,
      List.getLast?_cons_cons]
    cases hLast : (group' :: groups).getLast? with
    | none => exact absurd (List.getLast?_eq_none_iff.mp hLast) (List.cons_ne_nil _ _)
    | some last => rfl

theorem mem_parts {n : Int} (hPositive : 0 < n) (hMax : n ≤ 2147483647) {group : Int × QChar}
    (h : group ∈ (parts n).filter fun group => 0 < group.1) :
    0 ≤ group.1 ∧ group.1 ≤ 2147483647 ∧ group.2 ∈ lit "dhms" := by
  have hDay : (0x64 : QChar) ∈ lit "dhms" := by decide
  have hHour : (0x68 : QChar) ∈ lit "dhms" := by decide
  have hMinute : (0x6D : QChar) ∈ lit "dhms" := by decide
  have hSecond : (0x73 : QChar) ∈ lit "dhms" := by decide
  have hMem := (List.mem_filter.mp h).1
  simp only [parts, List.mem_cons, List.not_mem_nil, or_false] at hMem
  rcases hMem with rfl | rfl | rfl | rfl
  · exact ⟨by dsimp only; omega, by dsimp only; omega, hDay⟩
  · exact ⟨by dsimp only; omega, by dsimp only; omega, hHour⟩
  · exact ⟨by dsimp only; omega, by dsimp only; omega, hMinute⟩
  · exact ⟨by dsimp only; omega, by dsimp only; omega, hSecond⟩

theorem totalSeconds_filter (groups : List (Int × QChar)) :
    totalSeconds (groups.filter fun group => 0 < group.1) = totalSeconds groups := by
  induction groups with
  | nil => rfl
  | cons group groups ih =>
    have hTotal : totalSeconds (group :: groups) = group.1.toNat * unitSeconds group.2 + totalSeconds groups := rfl
    rw [List.filter_cons, hTotal, ← ih]
    split
    · rfl
    · rename_i hZero
      rw [decide_eq_true_iff] at hZero
      rw [Int.toNat_of_nonpos (by omega), Nat.zero_mul, Nat.zero_add]

theorem totalSeconds_parts {n : Int} (hPositive : 0 < n) : (totalSeconds (parts n) : Int) = n := by
  have hDay : unitSeconds 0x64 = 86400 := by decide
  have hHour : unitSeconds 0x68 = 3600 := by decide
  have hMinute : unitSeconds 0x6D = 60 := by decide
  have hSecond : unitSeconds 0x73 = 1 := by decide
  simp only [totalSeconds, parts, List.map_cons, List.map_nil, List.sum_cons, List.sum_nil, hDay, hHour, hMinute, hSecond]
  omega

/-- Reading the text of a duration gives the duration. -/
theorem parseDurationToSeconds_formatTime (h : AsciiDigits isDigit) {n : Int} (hPositive : 0 < n)
    (hMax : n ≤ 2147483647) (noUnitMultiplier : Nat) :
    parseDurationToSeconds isDigit (formatTime n) noUnitMultiplier = n ∧
      formatTime n = groupsText ((parts n).filter fun group => 0 < group.1) := by
  have hText := formatTime_eq hPositive.le
  have hGroups : IsGroups ((parts n).filter fun group => 0 < group.1) := fun group hg => mem_parts hPositive hMax hg
  have hTotal : (totalSeconds ((parts n).filter fun group => 0 < group.1) : Int) = n := by
    rw [totalSeconds_filter, totalSeconds_parts hPositive]
  have hSome : ((parts n).filter fun group => 0 < group.1) ≠ [] := by
    intro hNil
    rw [hNil] at hTotal
    exact hPositive.ne hTotal
  refine ⟨?_, hText⟩
  rw [hText]
  generalize (parts n).filter (fun group => 0 < group.1) = groups at hGroups hTotal hSome
  obtain ⟨group, groups, rfl⟩ := List.exists_cons_of_ne_nil hSome
  obtain ⟨c, rest, hFirst, -, hVisible⟩ := @exists_cons_groupsText isDigit h group groups
    (hGroups group List.mem_cons_self).1
  have hTrimmed : trimmed (groupsText (group :: groups)) = groupsText (group :: groups) := by
    refine trimmed_eq_self_of_ends (fun d hd => ?_) fun d hd => ?_
    · rw [hFirst] at hd
      cases hd
      exact hVisible
    · rw [getLast?_groupsText, Option.mem_def, Option.map_eq_some_iff] at hd
      obtain ⟨last, hLast, rfl⟩ := hd
      have hAll : ∀ c ∈ lit "dhms", isSpace c = false := by decide
      exact hAll _ (hGroups last (List.mem_of_getLast? hLast)).2.2
  obtain ⟨start, hScan⟩ := scan_reading h (reading_groupsText h hGroups hSome) [] 0
  rw [List.nil_append, List.length_nil, Nat.zero_add, total_amountsOf, Nat.mod_eq_of_lt (by omega)] at hScan
  have hInitial : scan isDigit (groupsText (group :: groups)) 0 {} = _ := hScan
  rw [parseDurationToSeconds, if_neg (groupsText_ne_nil hSome), hTrimmed]
  dsimp only
  rw [hInitial]
  dsimp only
  rw [if_neg (by simp), if_neg Bool.false_ne_true, if_pos (by omega)]
  exact hTotal

def isAsciiDigit (c : QChar) : Bool := decide (0x30 ≤ c.toNat ∧ c.toNat ≤ 0x39)

theorem parseDurationToSeconds_formatTime_dayAndSecond :
    parseDurationToSeconds isAsciiDigit (formatTime 86401) 1 = 86401 ∧
      formatTime 86401 = groupsText ((parts 86401).filter fun group => 0 < group.1) :=
  parseDurationToSeconds_formatTime (fun _ _ => rfl) (by decide) (by decide) 1

example : formatTime 86401 = lit "1d 1s" := by decide

/-- A number of the documented language: digits of its own that an unsigned int holds. -/
structure Amount.Documented (amount : Amount) : Prop where
  digits : naturalValue amount.digits = some amount.number
  fits : amount.number < 4294967296
  gap : ∀ c ∈ amount.gap, isSpace c = true
  unit : (amount.unit, amount.multiplier) ∈ documentedUnits
  gap' : ∀ c ∈ amount.gap', isSpace c = true

/-- The text is a sequence of documented amounts whose total a signed result holds. -/
structure Sentence (text : QString) (amounts : List Amount) : Prop where
  some : amounts ≠ []
  text : text = amounts.flatMap Amount.text
  documented : ∀ amount ∈ amounts, amount.Documented
  fits : total amounts < 9223372036854775808

structure PlainNumber (text : QString) (noUnitMultiplier number : Nat) : Prop where
  digits : naturalValue text = some number
  fits : number < 4294967296
  product : number * noUnitMultiplier < 9223372036854775808

inductive Promised (text : QString) (noUnitMultiplier : Nat) : Int → Prop
  | sentence {amounts : List Amount} (h : Sentence text amounts) : Promised text noUnitMultiplier (total amounts)
  | number {number : Nat} (h : PlainNumber text noUnitMultiplier number) :
      Promised text noUnitMultiplier (number * noUnitMultiplier : Nat)
  | invalid (hSentence : ∀ amounts, ¬Sentence text amounts)
      (hNumber : ∀ number, ¬PlainNumber text noUnitMultiplier number) : Promised text noUnitMultiplier (-1)

/-- Where the promised result is returned. An overflow to the largest number reads as -1. -/
def KeepsPromise (isDigit : QChar → Bool) (inputString : QString) (noUnitMultiplier : Nat) : Prop :=
  inputString = [] ∨
  (∃ amounts, Reading isDigit (trimmed inputString) amounts ∧
    (Sentence (trimmed inputString) amounts ∨ total amounts % 18446744073709551616 = 18446744073709551615)) ∨
  ((∀ c ∈ trimmed inputString, isDigit c = true) ∧
    ((∃ number, PlainNumber (trimmed inputString) noUnitMultiplier number) ∨
      toUInt (trimmed inputString) * noUnitMultiplier % 18446744073709551616 = 18446744073709551615)) ∨
  ((∀ amounts, ¬Reading isDigit (trimmed inputString) amounts) ∧
    ∃ c ∈ trimmed inputString, isDigit c = false)

def signed (value : Nat) : Int :=
  if value < 9223372036854775808 then value else (value : Int) - 18446744073709551616

theorem signed_eq_neg_one_iff {value : Nat} (h : value < 18446744073709551616) :
    signed value = -1 ↔ value = 18446744073709551615 := by
  rw [signed]
  split
  · omega
  · omega

theorem signed_mod_of_fits {value : Nat} (h : value < 9223372036854775808) :
    signed (value % 18446744073709551616) = value := by
  rw [signed, Nat.mod_eq_of_lt (by omega), if_pos h]

theorem naturalValue_facts (h : AsciiDigits isDigit) {text : QString} {number : Nat}
    (hValue : naturalValue text = some number) (hFits : number < 4294967296) :
    text ≠ [] ∧ (∀ c ∈ text, isDigit c = true ∧ isSpace c = false) ∧ toUInt text = number := by
  obtain ⟨hSome, hDigits⟩ := Option.ite_none_left_eq_some.mp hValue
  refine ⟨hSome, fun c hc => ?_, ?_⟩
  · obtain ⟨d, hd, rfl⟩ := exists_digit_of_digitsValue hDigits c hc
    exact ⟨isDigit_digitChar h hd, isSpace_digitChar hd⟩
  · rw [toUInt, integerValue_of_naturalValue hValue]
    dsimp only
    rw [if_pos (by omega), Int.toNat_natCast]

theorem reading_of_documented (h : QtDigits isDigit) {amounts : List Amount} (hSome : amounts ≠ [])
    (hAmounts : ∀ amount ∈ amounts, amount.Documented) :
    Reading isDigit (amounts.flatMap Amount.text) amounts := by
  induction amounts with
  | nil => exact absurd rfl hSome
  | cons amount amounts ih =>
    have hAmount := hAmounts amount List.mem_cons_self
    obtain ⟨hDigits, hChars, hNumber⟩ := naturalValue_facts h.ascii hAmount.digits hAmount.fits
    have hRead : amount.IsRead isDigit :=
      ⟨fun c hc => (hChars c hc).1, fun c hc => ⟨hAmount.gap c hc, h.not_space c (hAmount.gap c hc)⟩, hAmount.unit,
        hAmount.gap', hNumber⟩
    cases amounts with
    | nil =>
      rw [List.flatMap_singleton]
      exact .last hRead
    | cons next amounts =>
      have hNext := hAmounts next (List.mem_cons_of_mem _ List.mem_cons_self)
      obtain ⟨hDigits, hChars, -⟩ := naturalValue_facts h.ascii hNext.digits hNext.fits
      obtain ⟨c, digits, hCons⟩ := List.exists_cons_of_ne_nil hDigits
      have hHead : c ∈ ((next :: amounts).flatMap Amount.text).head? := by
        rw [List.flatMap_cons, Amount.text, hCons]
        rfl
      rw [List.flatMap_cons]
      exact .more hRead ⟨c, hHead, hChars c (hCons ▸ List.mem_cons_self)⟩
        (ih (List.cons_ne_nil _ _) fun a ha => hAmounts a (List.mem_cons_of_mem _ ha))

theorem exists_not_digit (h : AsciiDigits isDigit) {text : QString} {amounts : List Amount}
    (hReading : Reading isDigit text amounts) : ∃ c ∈ text, isDigit c = false := by
  obtain ⟨amount, hUnit, hMem⟩ : ∃ amount : Amount, (amount.unit, amount.multiplier) ∈ documentedUnits ∧
      ∀ c ∈ amount.unit, c ∈ text := by
    cases hReading with
    | last hRead | more hRead hDigit hRest => exact ⟨_, hRead.unit, fun c hc => by simp [Amount.text, hc]⟩
  obtain ⟨hSome, hChars⟩ := unit_facts h hUnit
  obtain ⟨c, unit, hCons⟩ := List.exists_cons_of_ne_nil hSome
  have hc : c ∈ amount.unit := hCons ▸ List.mem_cons_self
  exact ⟨c, hMem c hc, (hChars c hc).2⟩

theorem parseDurationToSeconds_eq {inputString : QString} (hSome : inputString ≠ []) (noUnitMultiplier : Nat) :
    parseDurationToSeconds isDigit inputString noUnitMultiplier =
      match scan isDigit (trimmed inputString) 0 {} with
      | none => -1
      | some visit =>
        if visit.visitingNumber ∧ visit.numberStartIdx ≠ 0 then -1
        else signed (if visit.visitingNumber then
          (visit.currentValue + toUInt (trimmed inputString) * noUnitMultiplier) % 18446744073709551616
          else visit.currentValue) := by
  rw [parseDurationToSeconds, if_neg hSome]
  rfl

theorem parse_reading (h : AsciiDigits isDigit) {inputString : QString} {amounts : List Amount}
    (hReading : Reading isDigit (trimmed inputString) amounts) (noUnitMultiplier : Nat) :
    parseDurationToSeconds isDigit inputString noUnitMultiplier =
      signed (total amounts % 18446744073709551616) := by
  have hSome : inputString ≠ [] := by
    rintro rfl
    obtain ⟨c, hc, -⟩ := exists_not_digit h hReading
    cases hc
  obtain ⟨start, hScan⟩ := scan_reading h hReading [] 0
  have hScan : scan isDigit (trimmed inputString) 0 {} = _ := hScan
  rw [parseDurationToSeconds_eq hSome, hScan, Nat.zero_add]
  rfl

theorem parse_digits {inputString : QString} (hSome : inputString ≠ [])
    (hDigits : ∀ c ∈ trimmed inputString, isDigit c = true) (noUnitMultiplier : Nat) :
    parseDurationToSeconds isDigit inputString noUnitMultiplier =
      signed (toUInt (trimmed inputString) * noUnitMultiplier % 18446744073709551616) := by
  have hScan := @scan_passes isDigit [] _ [] {} hDigits
  rw [List.nil_append, List.append_nil, List.nil_append, scan_end, List.length_nil] at hScan
  rw [parseDurationToSeconds_eq hSome, hScan]
  simp

theorem parse_rejected (h : QtDigits isDigit) {inputString : QString}
    (hReading : ∀ amounts, ¬Reading isDigit (trimmed inputString) amounts)
    (hOther : ∃ c ∈ trimmed inputString, isDigit c = false) (noUnitMultiplier : Nat) :
    parseDurationToSeconds isDigit inputString noUnitMultiplier = -1 := by
  obtain ⟨c, hc, hNot⟩ := hOther
  have hSome : inputString ≠ [] := by
    rintro rfl
    cases hc
  rw [parseDurationToSeconds_eq hSome]
  cases hScan : scan isDigit (trimmed inputString) 0 {} with
  | none => rfl
  | some visit =>
    rcases scan_cases h _ _ (Nat.lt_succ_self _) [] 0 visit hScan with ⟨hDigits, -⟩ | ⟨amounts, hRead⟩ | ⟨hVisiting, hStart⟩
    · rw [hDigits c hc] at hNot
      cases hNot
    · exact absurd hRead (hReading amounts)
    · dsimp only
      rw [if_pos ⟨hVisiting, (Nat.ne_of_gt hStart)⟩]

theorem Sentence.reading (h : QtDigits isDigit) {text : QString} {amounts : List Amount}
    (hSentence : Sentence text amounts) : Reading isDigit text amounts := by
  rw [hSentence.text]
  exact reading_of_documented h hSentence.some hSentence.documented

theorem PlainNumber.all_digits (h : AsciiDigits isDigit) {text : QString} {noUnitMultiplier number : Nat}
    (hNumber : PlainNumber text noUnitMultiplier number) :
    text ≠ [] ∧ (∀ c ∈ text, isDigit c = true) ∧ toUInt text = number := by
  obtain ⟨hSome, hChars, hValue⟩ := naturalValue_facts h hNumber.digits hNumber.fits
  exact ⟨hSome, fun c hc => (hChars c hc).1, hValue⟩

/-- The promised result is returned for what is rejected, for documented amounts and numbers that fit, and for an
overflow that looks like -1. -/
theorem parseDurationToSeconds_promised_iff (h : QtDigits isDigit) (inputString : QString)
    (noUnitMultiplier : Nat) :
    Promised (trimmed inputString) noUnitMultiplier
        (parseDurationToSeconds isDigit inputString noUnitMultiplier) ↔
      KeepsPromise isDigit inputString noUnitMultiplier := by
  have hWrapped (value : Nat) : signed (value % 18446744073709551616) = -1 ↔
      value % 18446744073709551616 = 18446744073709551615 :=
    signed_eq_neg_one_iff (Nat.mod_lt _ (by decide))
  have hApart {amounts : List Amount} (hReading : Reading isDigit (trimmed inputString) amounts)
      (hDigits : ∀ c ∈ trimmed inputString, isDigit c = true) : False := by
    obtain ⟨c, hc, hNot⟩ := exists_not_digit h.ascii hReading
    rw [hDigits c hc] at hNot
    cases hNot
  constructor
  · intro hPromised
    by_cases hEmpty : inputString = []
    · exact .inl hEmpty
    by_cases hReading : ∃ amounts, Reading isDigit (trimmed inputString) amounts
    · obtain ⟨amounts, hReading⟩ := hReading
      rw [parse_reading h.ascii hReading] at hPromised
      generalize hResult : signed (total amounts % 18446744073709551616) = result at hPromised
      right
      left
      cases hPromised with
      | sentence hSentence => exact ⟨_, hSentence.reading h, .inl hSentence⟩
      | number hNumber => exact (hApart hReading (hNumber.all_digits h.ascii).2.1).elim
      | invalid => exact ⟨amounts, hReading, .inr ((hWrapped _).mp hResult)⟩
    by_cases hDigits : ∀ c ∈ trimmed inputString, isDigit c = true
    · rw [parse_digits hEmpty hDigits] at hPromised
      generalize hResult : signed (toUInt (trimmed inputString) * noUnitMultiplier % 18446744073709551616) = result
        at hPromised
      right
      right
      left
      cases hPromised with
      | sentence hSentence => exact (hApart (hSentence.reading h) hDigits).elim
      | number hNumber => exact ⟨hDigits, .inl ⟨_, hNumber⟩⟩
      | invalid => exact ⟨hDigits, .inr ((hWrapped _).mp hResult)⟩
    · refine .inr (.inr (.inr ⟨fun amounts hRead => hReading ⟨amounts, hRead⟩, ?_⟩))
      simpa using hDigits
  · rintro (rfl | ⟨amounts, hReading, hSentence | hWrap⟩ | ⟨hDigits, ⟨number, hNumber⟩ | hWrap⟩ | ⟨hNone, hOther⟩)
    · refine .invalid (fun amounts hSentence => ?_) fun number hNumber => (hNumber.all_digits h.ascii).1 rfl
      exact hApart (hSentence.reading h) fun _ hc => absurd hc List.not_mem_nil
    · rw [parse_reading h.ascii hReading, signed_mod_of_fits hSentence.fits]
      exact .sentence hSentence
    · have hResult := parse_reading h.ascii hReading noUnitMultiplier
      rw [(hWrapped _).mpr hWrap] at hResult
      rw [hResult]
      refine .invalid (fun amounts' hSentence => ?_) fun number hNumber =>
        hApart hReading (hNumber.all_digits h.ascii).2.1
      rw [parse_reading h.ascii (hSentence.reading h), signed_mod_of_fits hSentence.fits] at hResult
      omega
    · obtain ⟨hSome, -, hValue⟩ := hNumber.all_digits h.ascii
      have hInput : inputString ≠ [] := by
        rintro rfl
        exact hSome rfl
      rw [parse_digits hInput hDigits, hValue, signed_mod_of_fits hNumber.product]
      exact .number hNumber
    · have hInput : inputString ≠ [] := by
        rintro rfl
        have hZero : toUInt (trimmed []) = 0 := rfl
        rw [hZero, Nat.zero_mul] at hWrap
        cases hWrap
      rw [parse_digits hInput hDigits, (hWrapped _).mpr hWrap]
      refine .invalid (fun amounts hSentence => hApart (hSentence.reading h) hDigits) fun number hNumber => ?_
      have hProduct := hNumber.product
      rw [(hNumber.all_digits h.ascii).2.2, Nat.mod_eq_of_lt (by omega)] at hWrap
      omega
    · rw [parse_rejected h hNone hOther]
      refine .invalid (fun amounts hSentence => hNone _ (hSentence.reading h)) fun number hNumber => ?_
      obtain ⟨c, hc, hNot⟩ := hOther
      rw [(hNumber.all_digits h.ascii).2.1 c hc] at hNot
      cases hNot

theorem qtDigits_isAsciiDigit : QtDigits isAsciiDigit where
  ascii _ _ := rfl
  not_space c hSpace := by
    cases hDigit : isAsciiDigit c with
    | false => rfl
    | true =>
      obtain ⟨hLow, hHigh⟩ := of_decide_eq_true hDigit
      have hChar : c = digitChar (c.toNat - 0x30) := by
        rw [digitChar, Nat.add_sub_cancel' hLow, UInt16.ofNat_toNat]
      rw [hChar, isSpace_digitChar (by omega)] at hSpace
      cases hSpace

theorem parseDurationToSeconds_promised_five :
    Promised (trimmed (lit "5")) 60 (parseDurationToSeconds isAsciiDigit (lit "5") 60) :=
  (parseDurationToSeconds_promised_iff qtDigits_isAsciiDigit (lit "5") 60).mpr
    (.inr (.inr (.inl ⟨by decide, .inl ⟨5, by decide, by decide, by decide⟩⟩)))

theorem not_promised_spaces : parseDurationToSeconds isAsciiDigit (lit " ") 1 = 0 ∧
    ¬Promised (trimmed (lit " ")) 1 (parseDurationToSeconds isAsciiDigit (lit " ") 1) := by
  have hZero : parseDurationToSeconds isAsciiDigit (lit " ") 1 = 0 :=
    parse_digits (by decide) (by decide) 1
  refine ⟨hZero, fun hPromised => ?_⟩
  rw [hZero] at hPromised
  generalize hResult : (0 : Int) = result at hPromised
  cases hPromised with
  | sentence hSentence =>
    obtain ⟨c, hc, -⟩ := exists_not_digit qtDigits_isAsciiDigit.ascii (hSentence.reading qtDigits_isAsciiDigit)
    cases hc
  | number hNumber => exact (hNumber.all_digits qtDigits_isAsciiDigit.ascii).1 rfl
  | invalid => cases hResult

theorem Reading.append {text gap rest : QString} {amounts more : List Amount} (hText : Reading isDigit text amounts)
    (hGap : ∀ c ∈ gap, isSpace c = true) (hDigit : ∃ c ∈ rest.head?, isDigit c = true ∧ isSpace c = false)
    (hRest : Reading isDigit rest more) :
    ∃ all, Reading isDigit (text ++ (gap ++ rest)) all ∧ total all = total amounts + total more := by
  induction hText with
  | @last amount hRead =>
    have hWider : Amount.IsRead isDigit { amount with gap' := amount.gap' ++ gap } :=
      ⟨hRead.digits, hRead.gap, hRead.unit, fun c hc => (List.mem_append.mp hc).elim (hRead.gap' c) (hGap c),
        hRead.number⟩
    refine ⟨{ amount with gap' := amount.gap' ++ gap } :: more, ?_, ?_⟩
    · simpa [Amount.text] using Reading.more hWider hDigit hRest
    · simp [total]
  | @more amount amounts next hRead hNext hReading ih =>
    obtain ⟨all, hAll, hTotal⟩ := ih
    obtain ⟨c, hc, hStarts⟩ := hNext
    refine ⟨amount :: all, ?_, ?_⟩
    · rw [List.append_assoc]
      exact .more hRead ⟨c, by rw [List.head?_append, Option.mem_def.mp hc]; rfl, hStarts⟩ hAll
    · simpa [total, Nat.add_assoc] using hTotal

theorem exists_reading (h : QtDigits isDigit) {inputString : QString} {noUnitMultiplier : Nat}
    (hAccepted : parseDurationToSeconds isDigit inputString noUnitMultiplier ≠ -1)
    (hOther : ∃ c ∈ trimmed inputString, isDigit c = false) :
    ∃ amounts, Reading isDigit (trimmed inputString) amounts := by
  by_contra hNone
  exact hAccepted (parse_rejected h (not_exists.mp hNone) hOther noUnitMultiplier)

/-- Durations that are written one behind the other add up. -/
theorem parseDurationToSeconds_append (h : QtDigits isDigit) {first second gap joined : QString} {noUnitMultiplier : Nat}
    (hFirst : parseDurationToSeconds isDigit first noUnitMultiplier ≠ -1)
    (hSecond : parseDurationToSeconds isDigit second noUnitMultiplier ≠ -1)
    (hUnit : ∃ c ∈ trimmed first, isDigit c = false) (hUnit' : ∃ c ∈ trimmed second, isDigit c = false)
    (hDigit : ∃ c ∈ (trimmed second).head?, isDigit c = true) (hGap : ∀ c ∈ gap, isSpace c = true)
    (hJoined : trimmed joined = trimmed first ++ (gap ++ trimmed second)) :
    parseDurationToSeconds isDigit joined noUnitMultiplier % 18446744073709551616 =
      (parseDurationToSeconds isDigit first noUnitMultiplier +
        parseDurationToSeconds isDigit second noUnitMultiplier) % 18446744073709551616 := by
  obtain ⟨amounts, hAmounts⟩ := exists_reading h hFirst hUnit
  obtain ⟨more, hMore⟩ := exists_reading h hSecond hUnit'
  obtain ⟨c, hc, hDigit⟩ := hDigit
  obtain ⟨all, hAll, hTotal⟩ := hAmounts.append hGap ⟨c, hc, hDigit, isSpace_of_head?_trimmed c hc⟩ hMore
  have hSigned (value : Nat) : signed (value % 18446744073709551616) % 18446744073709551616 =
      value % 18446744073709551616 := by
    unfold signed
    split_ifs <;> omega
  rw [parse_reading h.ascii (hJoined ▸ hAll), parse_reading h.ascii hAmounts, parse_reading h.ascii hMore, hTotal,
    Int.add_emod, hSigned, hSigned, hSigned]
  omega

theorem parseDurationToSeconds_append_hours :
    parseDurationToSeconds isAsciiDigit (lit "1h 1h ") 1 % 18446744073709551616 =
      (parseDurationToSeconds isAsciiDigit (lit "1h") 1 + parseDurationToSeconds isAsciiDigit (lit "1h") 1) %
        18446744073709551616 := by
  have hHour : Amount.IsRead isAsciiDigit ⟨lit "1", [], lit "h", [], 1, 3600⟩ :=
    ⟨by decide, by decide, by decide, by decide, by decide⟩
  have hAccepted : parseDurationToSeconds isAsciiDigit (lit "1h") 1 ≠ -1 := by
    rw [@parse_reading isAsciiDigit qtDigits_isAsciiDigit.ascii (lit "1h") _ (.last hHour)]
    decide
  have hJoined : trimmed (lit "1h 1h ") = trimmed (lit "1h") ++ (lit " " ++ trimmed (lit "1h")) := by decide
  exact parseDurationToSeconds_append qtDigits_isAsciiDigit hAccepted hAccepted (by decide) (by decide) (by decide)
    (by decide) hJoined

end Chatterino.Durations
