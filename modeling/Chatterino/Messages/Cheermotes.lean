import Chatterino.Qt.QString
import Mathlib.Data.List.Induction
import Mathlib.Data.List.TakeWhile

/-! # Cheermotes

A word is a cheermote if it is the prefix of a set and a number. A word of a message has no line feed, so that the end of
the pattern is the end of the word. Prefixes are read literally, and upper and lower case are told apart by a parameter.
-/

namespace Chatterino.Cheermotes

open QString

def isDigit (c : QChar) : Bool := 0x30 ≤ c && c ≤ 0x39

/-- The group `[1-9][0-9]*`. -/
def isAmount (text : QString) : Bool := text.head?.any (fun c => 0x31 ≤ c && c ≤ 0x39) && text.all isDigit

def amountValue (text : QString) : Nat := (digitsValue 0 text).getD 0

structure CheerEmote where
  regex : QString
  minBits : Int
  staticEmote : Option Nat
  animatedEmote : Option Nat
  /-- There is none where the text of the colour is no colour. -/
  color : Option Nat

structure CheerEmoteSet where
  regex : QString
  cheerEmotes : List CheerEmote
  sorted : cheerEmotes.Pairwise fun a b => b.minBits ≤ a.minBits
  regex_eq : ∀ emote ∈ cheerEmotes, emote.regex = regex

variable (fold : QChar → QChar)

/-- What `^prefix([1-9][0-9]*)$` captures. -/
def captured (regex string : QString) : Option QString :=
  if (string.take regex.length).map fold = regex.map fold ∧ isAmount (string.drop regex.length) then
    some (string.drop regex.length)
  else none

def cheerEmote (sets : List CheerEmoteSet) (string : QString) : Option CheerEmote :=
  sets.findSome? fun set => (captured fold set.regex string).bind fun amount =>
    set.cheerEmotes.find? fun emote => decide (emote.minBits ≤ (toInt amount).getD 0)

structure TextState where
  bitsLeft : Int
  bitsStacked : Bool := false

inductive CheerElement where
  | staticEmote (emote : Nat)
  | animatedEmote (emote : Nat)
  | amount (text : QString) (color : Nat)

def cheerElements (emote : CheerEmote) (text : QString) : List CheerElement :=
  emote.staticEmote.toList.map .staticEmote ++ emote.animatedEmote.toList.map .animatedEmote ++
    emote.color.toList.map (.amount text)

structure Appended where
  success : Bool
  state : TextState
  elements : List CheerElement

def reducedWord (string : QString) (cheerValue bitsLeft : Int) : QString :=
  string.take (string.length - (number cheerValue).length) ++ number (cheerValue - bitsLeft)

/-- The function calls itself with a smaller amount. The fuel bounds the calls. -/
def tryAppendCheermote (sets : List CheerEmoteSet) (stackBits : Bool) : Nat → TextState → QString → Option Appended
  | 0, _, _ => none
  | fuel + 1, state, string =>
    if state.bitsLeft = 0 then some ⟨false, state, []⟩
    else
      match cheerEmote fold sets string with
      | none => some ⟨false, state, []⟩
      | some emote =>
        match captured fold emote.regex string with
        | none => some ⟨false, state, []⟩
        | some text =>
          let cheerValue := (toInt text).getD 0
          if stackBits then
            if state.bitsStacked then some ⟨true, state, []⟩
            else some ⟨true, { state with bitsStacked := true }, cheerElements emote (number state.bitsLeft)⟩
          else if cheerValue ≤ state.bitsLeft then
            some ⟨true, { state with bitsLeft := state.bitsLeft - cheerValue }, cheerElements emote text⟩
          else tryAppendCheermote sets stackBits fuel state (reducedWord string cheerValue state.bitsLeft)

structure Cheered where
  word : QString
  bitsBefore : Int
  appended : Appended

def appendWords (sets : List CheerEmoteSet) (fuel : Nat) : TextState → List QString → Option (List Cheered)
  | _, [] => some []
  | state, word :: words => (tryAppendCheermote fold sets false fuel state word).bind fun appended =>
    (appendWords sets fuel appended.state words).map (⟨word, state.bitsLeft, appended⟩ :: ·)

def labels (elements : List CheerElement) : List QString :=
  elements.filterMap fun element => match element with
    | .amount text _ => some text
    | _ => none

def cheerAmount (sets : List CheerEmoteSet) (word : QString) : Option Nat :=
  (cheerEmote fold sets word).bind fun emote => (captured fold emote.regex word).map amountValue

def typedAmount (sets : List CheerEmoteSet) (word : QString) : Nat :=
  (cheerAmount fold sets word).getD ((sets.findSome? fun set => captured fold set.regex word).elim 0 amountValue)

def AccountsFor (sets : List CheerEmoteSet) (bits : Int) (words : List QString) : Prop :=
  ∃ fuel cheered, appendWords fold sets fuel ⟨bits, false⟩ words = some cheered ∧
    (∀ c ∈ cheered, 0 ≤ c.appended.state.bitsLeft) ∧
    (∀ c ∈ cheered, c.appended.success = true →
      labels c.appended.elements = [number (min (typedAmount fold sets c.word : Int) c.bitsBefore)]) ∧
    ((cheered.flatMap fun c => labels c.appended.elements).map fun label => (amountValue label : Int)).sum =
      min bits ((words.map (typedAmount fold sets)).sum : Nat)

/-- The amount of a word, with the bits left subtracted as long as it is larger, ends with this cheermote. -/
inductive Reduces (sets : List CheerEmoteSet) (bits : Nat) : QString → CheerEmote → QString → Prop
  | fits {word text : QString} {emote : CheerEmote} (hEmote : cheerEmote fold sets word = some emote)
      (hText : captured fold emote.regex word = some text) (hFits : amountValue text ≤ bits) :
      Reduces sets bits word emote text
  | subtract {word text text' : QString} {emote emote' : CheerEmote} (hEmote : cheerEmote fold sets word = some emote)
      (hText : captured fold emote.regex word = some text) (hMore : bits < amountValue text)
      (hRest : Reduces sets bits (reducedWord word (amountValue text) bits) emote' text') :
      Reduces sets bits word emote' text'

def Covers (sets : List CheerEmoteSet) (bits : Nat) (word : QString) : Prop :=
  ∃ emote text, Reduces fold sets bits word emote text ∧ amountValue text = min (typedAmount fold sets word) bits ∧
    emote.color.isSome = true

def CoversAll (sets : List CheerEmoteSet) : Nat → List QString → Prop
  | _, [] => True
  | bits, word :: words => (∀ amount ∈ cheerAmount fold sets word, 0 < bits → Covers fold sets bits word) ∧
    CoversAll sets (bits - (cheerAmount fold sets word).getD 0) words

theorem number_natCast (n : Nat) : number n = decimalDigits (n + 1) n := by
  rw [number, if_neg (by omega), Int.natAbs_natCast]

theorem decimalDigits_fuel {fuel fuel' n : Nat} (h : n < fuel) (h' : n < fuel') :
    decimalDigits fuel n = decimalDigits fuel' n := by
  induction fuel generalizing fuel' n with
  | zero => omega
  | succ fuel ih =>
    obtain _ | fuel' := fuel'
    · omega
    · rw [decimalDigits, decimalDigits]
      split
      · rfl
      · rw [ih (by omega) (by omega : n / 10 < fuel')]

theorem number_step {n : Nat} (h : 10 ≤ n) : number n = number (n / 10 : Nat) ++ [digitChar (n % 10)] := by
  rw [number_natCast, number_natCast, decimalDigits, if_neg (by omega),
    @decimalDigits_fuel n (n / 10 + 1) _ (by omega) (by omega)]

theorem number_digit {n : Nat} (h : n < 10) : number n = [digitChar n] := by
  rw [number_natCast, decimalDigits, if_pos h]

theorem digitsValue_number (n : Nat) : digitsValue 0 (number n) = some n := by
  rw [number_natCast]
  exact digitsValue_decimalDigits (Nat.lt_succ_self n)

@[simp] theorem amountValue_number (n : Nat) : amountValue (number n) = n := by
  rw [amountValue, digitsValue_number]
  rfl

theorem digitChar_of_isDigit {c : QChar} (h : isDigit c = true) : ∃ d < 10, c = digitChar d ∧ digitValue c = some d := by
  simp only [isDigit, Bool.and_eq_true, decide_eq_true_iff, UInt16.le_iff_toNat_le] at h
  have hLow : 0x30 ≤ c.toNat := h.1
  have hHigh : c.toNat ≤ 0x39 := h.2
  refine ⟨c.toNat - 0x30, by omega, ?_, ?_⟩
  · rw [digitChar, Nat.add_sub_cancel' hLow, UInt16.ofNat_toNat]
  · rw [digitValue, if_pos ⟨UInt16.le_iff_toNat_le.mpr hLow, UInt16.le_iff_toNat_le.mpr hHigh⟩]

theorem isDigit_digitChar {d : Nat} (h : d < 10) : isDigit (digitChar d) = true := by
  interval_cases d <;> decide

theorem isAmount_number {n : Nat} (h : 1 ≤ n) : isAmount (number n) = true := by
  induction n using Nat.strong_induction_on with
  | _ n ih =>
    rcases Nat.lt_or_ge n 10 with hSmall | hLarge
    · rw [number_digit hSmall]
      interval_cases n <;> decide
    · have hRest := ih (n / 10) (by omega) (by omega)
      rw [isAmount, Bool.and_eq_true] at hRest
      obtain ⟨c, rest, hText⟩ := List.exists_cons_of_ne_nil (number_ne_nil (n / 10 : Nat))
      rw [hText] at hRest
      rw [number_step hLarge, hText, isAmount, List.cons_append, List.head?_cons, ← List.cons_append, List.all_append, hRest.2]
      have hFirst := hRest.1
      rw [List.head?_cons] at hFirst
      rw [hFirst, List.all_cons, isDigit_digitChar (Nat.mod_lt _ (by decide))]
      rfl

theorem exists_number_of_isAmount {text : QString} (h : isAmount text = true) : ∃ n : Nat, 1 ≤ n ∧ text = number n := by
  induction text using List.reverseRecOn with
  | nil => cases h
  | append_singleton text c ih =>
    rw [isAmount, Bool.and_eq_true, List.all_append, Bool.and_eq_true, List.all_cons, Bool.and_eq_true] at h
    obtain ⟨hHead, hDigits, hLast, -⟩ := h
    obtain ⟨d, hd, rfl, -⟩ := digitChar_of_isDigit hLast
    cases text with
    | nil =>
      refine ⟨d, ?_, (number_digit hd).symm⟩
      by_contra hZero
      have hNone : d = 0 := by omega
      subst hNone
      exact absurd hHead (by decide)
    | cons c text =>
      obtain ⟨n, hn, hText⟩ := ih (by rw [isAmount, Bool.and_eq_true]; exact ⟨hHead, hDigits⟩)
      refine ⟨10 * n + d, by omega, ?_⟩
      have hDiv : (10 * n + d) / 10 = n := by omega
      have hMod : (10 * n + d) % 10 = d := by omega
      rw [number_step (by omega), hDiv, hMod, hText]

theorem toInt_of_number {n : Nat} : toInt (number n) = if n ≤ 2147483647 then some (n : Int) else none := by
  split
  · exact toInt_number (Int.natCast_nonneg n) ⟨by omega, by omega⟩
  · have hRange : ¬IsInt32 n := fun h => by have hMax := h.2; omega
    rw [toInt, integerValue_number (Int.natCast_nonneg n), Option.filter_some, if_neg (by simpa using hRange)]

variable {fold}

theorem captured_eq_some {regex string text : QString} : captured fold regex string = some text ↔
    (string.take regex.length).map fold = regex.map fold ∧ string = string.take regex.length ++ text ∧
      ∃ n : Nat, 1 ≤ n ∧ text = number n := by
  rw [captured]
  constructor
  · intro h
    split_ifs at h with hMatch
    cases h
    exact ⟨hMatch.1, (List.take_append_drop _ _).symm, exists_number_of_isAmount hMatch.2⟩
  · rintro ⟨hPrefix, hString, n, hn, rfl⟩
    have hDrop : string.drop regex.length = number n := by
      refine (List.append_right_inj (string.take regex.length)).mp ?_
      rw [List.take_append_drop, ← hString]
    rw [hDrop, if_pos ⟨hPrefix, isAmount_number hn⟩]

def LowestTierIsOne (sets : List CheerEmoteSet) : Prop :=
  ∀ set ∈ sets, ∃ emote ∈ set.cheerEmotes, emote.minBits = 1 ∧ ∀ other ∈ set.cheerEmotes, 1 ≤ other.minBits

variable {sets : List CheerEmoteSet}

theorem exists_captured_of_cheerEmote (hTiers : LowestTierIsOne sets) {word : QString} {emote : CheerEmote}
    (h : cheerEmote fold sets word = some emote) :
    ∃ set ∈ sets, emote.regex = set.regex ∧ ∃ n : Nat, 1 ≤ n ∧ n ≤ 2147483647 ∧
      captured fold emote.regex word = some (number n) := by
  obtain ⟨set, hSet, hFound⟩ := List.exists_of_findSome?_eq_some h
  obtain ⟨text, hText, hTier⟩ := Option.bind_eq_some_iff.mp hFound
  have hMem := List.mem_of_find?_eq_some hTier
  have hBits := List.find?_some hTier
  rw [decide_eq_true_iff] at hBits
  obtain ⟨-, -, n, hn, rfl⟩ := captured_eq_some.mp hText
  obtain ⟨-, -, -, hAll⟩ := hTiers set hSet
  have hOne := hAll emote hMem
  have hRegex := set.regex_eq emote hMem
  refine ⟨set, hSet, hRegex, n, hn, ?_, hRegex ▸ hText⟩
  by_contra hBig
  rw [toInt_of_number, if_neg hBig, Option.getD_none] at hBits
  omega

theorem exists_cheerEmote (hTiers : LowestTierIsOne sets) {set : CheerEmoteSet} (hSet : set ∈ sets) {word : QString}
    {n : Nat} (hn : 1 ≤ n) (hMax : n ≤ 2147483647) (hText : captured fold set.regex word = some (number n)) :
    ∃ emote, cheerEmote fold sets word = some emote := by
  obtain ⟨lowest, hMem, hOne, -⟩ := hTiers set hSet
  rw [cheerEmote, ← Option.isSome_iff_exists, List.findSome?_isSome_iff]
  refine ⟨set, hSet, ?_⟩
  rw [hText, Option.bind_some, List.find?_isSome]
  refine ⟨lowest, hMem, ?_⟩
  rw [decide_eq_true_iff, toInt_of_number, if_pos hMax, Option.getD_some, hOne]
  omega

theorem reducedWord_eq {regex word : QString} {n bits : Nat} (hText : captured fold regex word = some (number n))
    (hMore : bits < n) :
    reducedWord word n bits = word.take regex.length ++ number (n - bits : Nat) ∧
      captured fold regex (reducedWord word n bits) = some (number (n - bits : Nat)) := by
  obtain ⟨hPrefix, hWord, -⟩ := captured_eq_some.mp hText
  have hLength : (word.take regex.length).length = regex.length := by
    have hMap := congrArg List.length hPrefix
    rwa [List.length_map, List.length_map] at hMap
  have hChop : word.take (word.length - (number n).length) = word.take regex.length := by
    have hTotal := congrArg List.length hWord
    rw [List.length_append, hLength] at hTotal
    congr 1
    omega
  have hReduced : reducedWord word n bits = word.take regex.length ++ number (n - bits : Nat) := by
    rw [reducedWord, hChop, Nat.cast_sub hMore.le]
  have hTake : (reducedWord word n bits).take regex.length = word.take regex.length := by
    have hLeft : (word.take regex.length ++ number (n - bits : Nat)).take (word.take regex.length).length =
        word.take regex.length := List.take_left
    rw [hReduced]
    rwa [hLength] at hLeft
  refine ⟨hReduced, captured_eq_some.mpr ⟨hTake ▸ hPrefix, hTake ▸ hReduced, _, by omega, rfl⟩⟩

def readDigit (n : Nat) (c : QChar) : Nat := if isDigit c then 10 * n + (digitValue c).getD 0 else 0

def trailingNumber (word : QString) : Nat := word.foldl readDigit 0

theorem readDigit_digitChar (n : Nat) {d : Nat} (h : d < 10) : readDigit n (digitChar d) = 10 * n + d := by
  rw [readDigit, if_pos (isDigit_digitChar h), digitValue_digitChar h, Option.getD_some]

theorem foldl_readDigit_number (front n : Nat) :
    (number n).foldl readDigit front = front * 10 ^ (number n).length + n := by
  induction n using Nat.strong_induction_on with
  | _ n ih =>
    rcases Nat.lt_or_ge n 10 with hSmall | hLarge
    · rw [number_digit hSmall, List.foldl_cons, List.foldl_nil, readDigit_digitChar _ hSmall, List.length_singleton]
      omega
    · rw [number_step hLarge, List.foldl_append, ih (n / 10) (by omega), List.foldl_cons, List.foldl_nil,
        readDigit_digitChar _ (Nat.mod_lt _ (by decide)), List.length_append, List.length_singleton, Nat.pow_succ]
      have hMul : front * (10 ^ (number (n / 10 : Nat)).length * 10) = 10 * (front * 10 ^ (number (n / 10 : Nat)).length) := by
        rw [← Nat.mul_assoc, Nat.mul_comm]
      omega

theorem length_number_mono {m n : Nat} (h : m ≤ n) : (number m).length ≤ (number n).length := by
  induction n using Nat.strong_induction_on generalizing m with
  | _ n ih =>
    rcases Nat.lt_or_ge m 10 with hSmall | hLarge
    · rw [number_digit hSmall, List.length_singleton]
      exact List.length_pos_iff.mpr (number_ne_nil _)
    · have hRest := ih (n / 10) (by omega) (Nat.div_le_div_right h : m / 10 ≤ n / 10)
      rw [number_step hLarge, number_step (hLarge.trans h), List.length_append, List.length_append, List.length_singleton,
        List.length_singleton]
      omega

theorem trailingNumber_lt (front : QString) {m n : Nat} (h : m < n) :
    trailingNumber (front ++ number m) < trailingNumber (front ++ number n) := by
  rw [trailingNumber, trailingNumber, List.foldl_append, List.foldl_append, foldl_readDigit_number, foldl_readDigit_number]
  have hPow : (10 : Nat) ^ (number m).length ≤ 10 ^ (number n).length :=
    Nat.pow_le_pow_right (by decide) (length_number_mono h.le)
  have hFront := Nat.mul_le_mul_left (front.foldl readDigit 0) hPow
  omega

theorem exists_reduces (hTiers : LowestTierIsOne sets) {bits : Nat} (hBits : 0 < bits) {word : QString}
    {emote : CheerEmote} (h : cheerEmote fold sets word = some emote) :
    ∃ emote' text, Reduces fold sets bits word emote' text := by
  induction hMeasure : trailingNumber word using Nat.strong_induction_on generalizing word emote with
  | _ measure ih =>
    obtain ⟨set, hSet, hRegex, n, hn, hMax, hText⟩ := exists_captured_of_cheerEmote hTiers h
    rcases Nat.lt_or_ge bits n with hMore | hFits
    · obtain ⟨hReduced, hCaptured⟩ := reducedWord_eq hText hMore
      obtain ⟨next, hNext⟩ := exists_cheerEmote hTiers hSet (by omega) (by omega) (hRegex ▸ hCaptured)
      obtain ⟨-, hWord, -⟩ := captured_eq_some.mp hText
      have hLess := trailingNumber_lt (word.take emote.regex.length) (Nat.sub_lt hn hBits)
      rw [← hReduced, ← hWord] at hLess
      obtain ⟨emote', text, hRest⟩ := ih _ (hMeasure ▸ hLess) hNext rfl
      refine ⟨emote', text, .subtract h hText ?_ ?_⟩
      · rwa [amountValue_number]
      · rwa [amountValue_number]
    · exact ⟨emote, number n, .fits h hText (by rwa [amountValue_number])⟩

theorem Reduces.amount (hTiers : LowestTierIsOne sets) {bits : Nat} {word text : QString} {emote : CheerEmote}
    (h : Reduces fold sets bits word emote text) :
    ∃ n : Nat, 1 ≤ n ∧ n ≤ bits ∧ text = number n := by
  induction h with
  | fits hEmote hText hFits =>
    obtain ⟨-, -, -, n, hn, -, hText'⟩ := exists_captured_of_cheerEmote hTiers hEmote
    rw [hText] at hText'
    cases hText'
    rw [amountValue_number] at hFits
    exact ⟨n, hn, hFits, rfl⟩
  | subtract _ _ _ _ ih => exact ih

theorem Reduces.unique {bits : Nat} {word text text' : QString} {emote emote' : CheerEmote}
    (h : Reduces fold sets bits word emote text) (h' : Reduces fold sets bits word emote' text') :
    emote = emote' ∧ text = text' := by
  induction h with
  | fits hEmote hText hFits =>
    cases h' with
    | fits hEmote' hText' _ =>
      rw [hEmote] at hEmote'
      cases hEmote'
      rw [hText] at hText'
      cases hText'
      exact ⟨rfl, rfl⟩
    | subtract hEmote' hText' hMore _ =>
      rw [hEmote] at hEmote'
      cases hEmote'
      rw [hText] at hText'
      cases hText'
      omega
  | subtract hEmote hText hMore _ ih =>
    cases h' with
    | fits hEmote' hText' hFits =>
      rw [hEmote] at hEmote'
      cases hEmote'
      rw [hText] at hText'
      cases hText'
      omega
    | subtract hEmote' hText' _ hRest =>
      rw [hEmote] at hEmote'
      cases hEmote'
      rw [hText] at hText'
      cases hText'
      exact ih hRest

theorem cheerValue_eq (hTiers : LowestTierIsOne sets) {word text : QString} {emote : CheerEmote}
    (hEmote : cheerEmote fold sets word = some emote) (hText : captured fold emote.regex word = some text) :
    (toInt text).getD 0 = (amountValue text : Int) := by
  obtain ⟨-, -, -, n, -, hMax, hText'⟩ := exists_captured_of_cheerEmote hTiers hEmote
  rw [hText] at hText'
  cases hText'
  rw [toInt_of_number, if_pos hMax, Option.getD_some, amountValue_number]

theorem reduces_of_tryAppendCheermote (hTiers : LowestTierIsOne sets) {fuel bits : Nat} (hBits : 0 < bits) {word : QString}
    {appended : Appended} (h : tryAppendCheermote fold sets false fuel ⟨bits, false⟩ word = some appended)
    {emote : CheerEmote} (hEmote : cheerEmote fold sets word = some emote) :
    ∃ emote' text, Reduces fold sets bits word emote' text ∧
      appended = ⟨true, ⟨(bits - amountValue text : Nat), false⟩, cheerElements emote' text⟩ := by
  induction fuel generalizing word emote with
  | zero => cases h
  | succ fuel ih =>
    obtain ⟨set, hSet, hRegex, n, hn, hMax, hText⟩ := exists_captured_of_cheerEmote hTiers hEmote
    have hValue := cheerValue_eq hTiers hEmote hText
    have hSome : ¬(bits : Int) = 0 := by omega
    rw [tryAppendCheermote, if_neg hSome, hEmote] at h
    dsimp only at h
    rw [hText] at h
    dsimp only at h
    rw [if_neg Bool.false_ne_true, hValue, amountValue_number] at h
    split_ifs at h with hFits
    · cases h
      refine ⟨emote, number n, .fits hEmote hText (by rw [amountValue_number]; omega), ?_⟩
      rw [amountValue_number, Nat.cast_sub (by omega)]
    · have hMore : bits < n := by omega
      obtain ⟨-, hCaptured⟩ := reducedWord_eq hText hMore
      obtain ⟨next, hNext⟩ := exists_cheerEmote hTiers hSet (by omega) (by omega) (hRegex ▸ hCaptured)
      obtain ⟨emote', text, hRest, hAppended⟩ := ih h hNext
      exact ⟨emote', text, .subtract hEmote hText (by rwa [amountValue_number]) (by rwa [amountValue_number]), hAppended⟩

theorem tryAppendCheermote_of_reduces (hTiers : LowestTierIsOne sets) {bits : Nat} (hBits : 0 < bits)
    {word text : QString} {emote : CheerEmote} (h : Reduces fold sets bits word emote text) :
    ∃ fuel, ∀ more, tryAppendCheermote fold sets false (fuel + more) ⟨bits, false⟩ word =
      some ⟨true, ⟨(bits - amountValue text : Nat), false⟩, cheerElements emote text⟩ := by
  have hSome : ¬(bits : Int) = 0 := by omega
  induction h with
  | @fits word text emote hEmote hText hFits =>
    refine ⟨1, fun more => ?_⟩
    rw [Nat.add_comm, tryAppendCheermote, if_neg hSome, hEmote]
    dsimp only
    rw [hText]
    dsimp only
    rw [if_neg Bool.false_ne_true, cheerValue_eq hTiers hEmote hText, if_pos (by omega), Nat.cast_sub hFits]
  | @subtract word text text' emote emote' hEmote hText hMore _ ih =>
    obtain ⟨fuel, hFuel⟩ := ih
    refine ⟨fuel + 1, fun more => ?_⟩
    rw [Nat.add_right_comm, tryAppendCheermote, if_neg hSome, hEmote]
    dsimp only
    rw [hText]
    dsimp only
    rw [if_neg Bool.false_ne_true, cheerValue_eq hTiers hEmote hText, if_neg (by omega)]
    exact hFuel more

theorem tryAppendCheermote_failure {fuel bits : Nat} {word : QString}
    (h : bits = 0 ∨ cheerEmote fold sets word = none) :
    tryAppendCheermote fold sets false (fuel + 1) ⟨bits, false⟩ word = some ⟨false, ⟨bits, false⟩, []⟩ := by
  rw [tryAppendCheermote]
  rcases h with rfl | h
  · rfl
  · rw [h]
    split <;> rfl

theorem labels_cheerElements (emote : CheerEmote) (text : QString) :
    labels (cheerElements emote text) = if emote.color.isSome then [text] else [] := by
  obtain ⟨regex, minBits, staticEmote, animatedEmote, color⟩ := emote
  cases staticEmote <;> cases animatedEmote <;> cases color <;> rfl

theorem cheerAmount_eq (hTiers : LowestTierIsOne sets) {word : QString} {emote : CheerEmote}
    (h : cheerEmote fold sets word = some emote) :
    ∃ n : Nat, 1 ≤ n ∧ captured fold emote.regex word = some (number n) ∧ cheerAmount fold sets word = some n ∧
      typedAmount fold sets word = n := by
  obtain ⟨-, -, -, n, hn, -, hText⟩ := exists_captured_of_cheerEmote hTiers h
  have hAmount : cheerAmount fold sets word = some n := by
    rw [cheerAmount, h, Option.bind_some, hText, Option.map_some, amountValue_number]
  exact ⟨n, hn, hText, hAmount, by rw [typedAmount, hAmount, Option.getD_some]⟩

theorem cheerAmount_eq_none {word : QString} (h : cheerEmote fold sets word = none) : cheerAmount fold sets word = none := by
  rw [cheerAmount, h, Option.bind_none]

theorem labels_iff_covers (hTiers : LowestTierIsOne sets) {bits : Nat} {word text : QString} {emote : CheerEmote}
    (h : Reduces fold sets bits word emote text) :
    labels (cheerElements emote text) = [number (min (typedAmount fold sets word : Int) bits)] ↔
      Covers fold sets bits word := by
  obtain ⟨n, -, -, rfl⟩ := h.amount hTiers
  have hNumber : number n = number (min (typedAmount fold sets word : Int) bits) ↔
      n = min (typedAmount fold sets word) bits := by
    rw [← Nat.cast_min]
    refine ⟨fun hEq => ?_, fun hEq => by rw [hEq]⟩
    have hValue := congrArg amountValue hEq
    rwa [amountValue_number, amountValue_number] at hValue
  rw [labels_cheerElements]
  constructor
  · intro hLabel
    split at hLabel
    · rename_i hColor
      exact ⟨emote, number n, h, by rw [amountValue_number, hNumber.mp (List.cons.inj hLabel).1], hColor⟩
    · cases hLabel
  · rintro ⟨emote', text', h', hAmount, hColor⟩
    obtain ⟨rfl, rfl⟩ := h.unique h'
    rw [amountValue_number] at hAmount
    rw [if_pos hColor, hNumber.mpr hAmount]

def Labelled (fold : QChar → QChar) (sets : List CheerEmoteSet) (cheered : List Cheered) : Prop :=
  ∀ c ∈ cheered, c.appended.success = true →
    labels c.appended.elements = [number (min (typedAmount fold sets c.word : Int) c.bitsBefore)]

theorem appended_cases (hTiers : LowestTierIsOne sets) {fuel bits : Nat} {word : QString} {appended : Appended}
    (h : tryAppendCheermote fold sets false fuel ⟨bits, false⟩ word = some appended) :
    ((bits = 0 ∨ cheerAmount fold sets word = none) ∧ appended = ⟨false, ⟨bits, false⟩, []⟩) ∨
      ∃ emote text, ∃ n : Nat, 0 < bits ∧ cheerAmount fold sets word = some n ∧ typedAmount fold sets word = n ∧
        Reduces fold sets bits word emote text ∧
        appended = ⟨true, ⟨(bits - amountValue text : Nat), false⟩, cheerElements emote text⟩ := by
  obtain _ | fuel := fuel
  · cases h
  · cases hEmote : cheerEmote fold sets word with
    | none =>
      rw [tryAppendCheermote_failure (Or.inr hEmote)] at h
      cases h
      exact Or.inl ⟨Or.inr (cheerAmount_eq_none hEmote), rfl⟩
    | some emote =>
      rcases Nat.eq_zero_or_pos bits with hZero | hBits
      · rw [tryAppendCheermote_failure (Or.inl hZero)] at h
        cases h
        exact Or.inl ⟨Or.inl hZero, rfl⟩
      · obtain ⟨n, -, -, hAmount, hTyped⟩ := cheerAmount_eq hTiers hEmote
        obtain ⟨emote', text, hReduces, hAppended⟩ := reduces_of_tryAppendCheermote hTiers hBits h hEmote
        exact Or.inr ⟨emote', text, n, hBits, hAmount, hTyped, hReduces, hAppended⟩

theorem exists_appendWords (hTiers : LowestTierIsOne sets) (bits : Nat) (words : List QString) :
    ∃ fuel, ∀ more, ∃ cheered, appendWords fold sets (fuel + more) ⟨bits, false⟩ words = some cheered := by
  induction words generalizing bits with
  | nil => exact ⟨0, fun more => ⟨[], rfl⟩⟩
  | cons word words ih =>
    have hFirst : ∃ fuel appended, ∃ bits' : Nat, appended.state = ⟨bits', false⟩ ∧
        ∀ more, tryAppendCheermote fold sets false (fuel + more) ⟨bits, false⟩ word = some appended := by
      by_cases hFailure : bits = 0 ∨ cheerEmote fold sets word = none
      · refine ⟨1, ⟨false, ⟨bits, false⟩, []⟩, bits, rfl, fun more => ?_⟩
        rw [Nat.add_comm, tryAppendCheermote_failure hFailure]
      · obtain ⟨hBits, hEmote⟩ := not_or.mp hFailure
        obtain ⟨emote, hEmote⟩ := Option.ne_none_iff_exists'.mp hEmote
        obtain ⟨emote', text, hReduces⟩ := exists_reduces hTiers (Nat.pos_of_ne_zero hBits) hEmote
        obtain ⟨fuel, hFuel⟩ := tryAppendCheermote_of_reduces hTiers (Nat.pos_of_ne_zero hBits) hReduces
        exact ⟨fuel, _, _, rfl, hFuel⟩
    obtain ⟨fuel, appended, bits', hState, hAppended⟩ := hFirst
    obtain ⟨fuel', hRest⟩ := ih bits'
    refine ⟨fuel + fuel', fun more => ?_⟩
    obtain ⟨cheered, hCheered⟩ := hRest (fuel + more)
    refine ⟨⟨word, bits, appended⟩ :: cheered, ?_⟩
    rw [appendWords, Nat.add_assoc, hAppended, Option.bind_some, hState]
    rw [show fuel + (fuel' + more) = fuel' + (fuel + more) by omega, hCheered]
    rfl

theorem appendWords_cons {fuel : Nat} {state : TextState} {word : QString} {words : List QString} {cheered : List Cheered}
    (h : appendWords fold sets fuel state (word :: words) = some cheered) :
    ∃ appended rest, tryAppendCheermote fold sets false fuel state word = some appended ∧
      appendWords fold sets fuel appended.state words = some rest ∧
      cheered = ⟨word, state.bitsLeft, appended⟩ :: rest := by
  obtain ⟨appended, hAppended, h⟩ := Option.bind_eq_some_iff.mp h
  obtain ⟨rest, hRest, rfl⟩ := Option.map_eq_some_iff.mp h
  exact ⟨appended, rest, hAppended, hRest, rfl⟩

theorem bitsLeft_nonneg (hTiers : LowestTierIsOne sets) {fuel bits : Nat} {words : List QString} {cheered : List Cheered}
    (h : appendWords fold sets fuel ⟨bits, false⟩ words = some cheered) :
    ∀ c ∈ cheered, 0 ≤ c.appended.state.bitsLeft := by
  induction words generalizing bits cheered with
  | nil =>
    cases h
    exact fun c hc => absurd hc List.not_mem_nil
  | cons word words ih =>
    obtain ⟨appended, rest, hAppended, hRest, rfl⟩ := appendWords_cons h
    rcases appended_cases hTiers hAppended with ⟨-, rfl⟩ | ⟨emote, text, n, -, -, -, -, rfl⟩
    · exact List.forall_mem_cons.mpr ⟨Int.natCast_nonneg _, ih hRest⟩
    · exact List.forall_mem_cons.mpr ⟨Int.natCast_nonneg _, ih hRest⟩

theorem labelled_iff (hTiers : LowestTierIsOne sets) {fuel bits : Nat} {words : List QString} {cheered : List Cheered}
    (h : appendWords fold sets fuel ⟨bits, false⟩ words = some cheered) :
    Labelled fold sets cheered ↔ CoversAll fold sets bits words := by
  induction words generalizing bits cheered with
  | nil =>
    cases h
    exact ⟨fun _ => trivial, fun _ c hc => absurd hc List.not_mem_nil⟩
  | cons word words ih =>
    obtain ⟨appended, rest, hAppended, hRest, rfl⟩ := appendWords_cons h
    rw [Labelled, List.forall_mem_cons, CoversAll]
    rcases appended_cases hTiers hAppended with ⟨hFailure, rfl⟩ | ⟨emote, text, n, hBits, hAmount, hTyped, hReduces, rfl⟩
    · have hNext : bits - (cheerAmount fold sets word).getD 0 = bits := by
        rcases hFailure with hZero | hNone
        · omega
        · rw [hNone]
          rfl
      rw [hNext, ← ih hRest]
      refine and_congr_left fun _ => ⟨fun _ amount hMem hPos => ?_, fun _ hSuccess => by cases hSuccess⟩
      rcases hFailure with hZero | hNone
      · omega
      · rw [hNone] at hMem
        cases hMem
    · have hLabel := labels_iff_covers hTiers hReduces
      have hFirst : (∀ amount ∈ cheerAmount fold sets word, 0 < bits → Covers fold sets bits word) ↔
          Covers fold sets bits word :=
        ⟨fun hAll => hAll n hAmount hBits, fun hCovers _ _ _ => hCovers⟩
      rw [hFirst, hAmount, Option.getD_some]
      constructor
      · rintro ⟨hHead, hTail⟩
        have hCovers := hLabel.mp (hHead rfl)
        obtain ⟨emote', text', h', hMin, -⟩ := hCovers
        obtain ⟨rfl, rfl⟩ := hReduces.unique h'
        have hSame : bits - amountValue text = bits - n := by
          rw [hMin, hTyped]
          omega
        exact ⟨hLabel.mp (hHead rfl), hSame ▸ (ih hRest).mp hTail⟩
      · rintro ⟨hCovers, hAll⟩
        obtain ⟨emote', text', h', hMin, -⟩ := id hCovers
        obtain ⟨rfl, rfl⟩ := hReduces.unique h'
        have hSame : bits - amountValue text = bits - n := by
          rw [hMin, hTyped]
          omega
        exact ⟨fun _ => hLabel.mpr hCovers, (ih hRest).mpr (hSame ▸ hAll)⟩

def cheerTotal (fold : QChar → QChar) (sets : List CheerEmoteSet) (words : List QString) : Nat :=
  (words.map fun word => (cheerAmount fold sets word).getD 0).sum

def labelTotal (cheered : List Cheered) : Int :=
  ((cheered.flatMap fun c => labels c.appended.elements).map fun label => (amountValue label : Int)).sum

theorem labelTotal_cons (c : Cheered) (cheered : List Cheered) : labelTotal (c :: cheered) =
    ((labels c.appended.elements).map fun label => (amountValue label : Int)).sum + labelTotal cheered := by
  rw [labelTotal, List.flatMap_cons, List.map_append, List.sum_append]
  rfl

theorem labelTotal_eq (hTiers : LowestTierIsOne sets) {fuel bits : Nat} {words : List QString} {cheered : List Cheered}
    (h : appendWords fold sets fuel ⟨bits, false⟩ words = some cheered) (hLabels : Labelled fold sets cheered) :
    labelTotal cheered = min bits (cheerTotal fold sets words) := by
  induction words generalizing bits cheered with
  | nil =>
    cases h
    simp [labelTotal, cheerTotal]
  | cons word words ih =>
    obtain ⟨appended, rest, hAppended, hRest, rfl⟩ := appendWords_cons h
    have hTotal : cheerTotal fold sets (word :: words) =
        (cheerAmount fold sets word).getD 0 + cheerTotal fold sets words := rfl
    obtain ⟨hHead, hTail⟩ := List.forall_mem_cons.mp hLabels
    rw [labelTotal_cons]
    rcases appended_cases hTiers hAppended with ⟨hFailure, rfl⟩ | ⟨emote, text, n, hBits, hAmount, hTyped, hReduces, rfl⟩
    · rw [ih hRest hTail, hTotal]
      have hNone : labels ([] : List CheerElement) = [] := rfl
      rw [hNone, List.map_nil, List.sum_nil]
      rcases hFailure with hZero | hNone
      · omega
      · rw [hNone, Option.getD_none]
        omega
    · have hLabel := hHead rfl
      have hMin : amountValue text = min n bits := by
        obtain ⟨emote', text', h', hMin, -⟩ := (labels_iff_covers hTiers hReduces).mp hLabel
        obtain ⟨rfl, rfl⟩ := hReduces.unique h'
        rw [hMin, hTyped]
      rw [ih hRest hTail, hTotal, hAmount, Option.getD_some]
      dsimp only at hLabel ⊢
      rw [hLabel, List.map_singleton, List.sum_singleton, ← Nat.cast_min, amountValue_number, hTyped, hMin]
      omega

def AllShown (fold : QChar → QChar) (sets : List CheerEmoteSet) (words : List QString) : Prop :=
  ∀ word ∈ words, typedAmount fold sets word = (cheerAmount fold sets word).getD 0

theorem cheerTotal_le_typed (words : List QString) :
    cheerTotal fold sets words ≤ (words.map (typedAmount fold sets)).sum ∧
      (cheerTotal fold sets words = (words.map (typedAmount fold sets)).sum ↔ AllShown fold sets words) := by
  induction words with
  | nil => exact ⟨le_rfl, fun _ word hMem => absurd hMem List.not_mem_nil, fun _ => rfl⟩
  | cons word words ih =>
    have hTotal : cheerTotal fold sets (word :: words) =
        (cheerAmount fold sets word).getD 0 + cheerTotal fold sets words := rfl
    have hLe : (cheerAmount fold sets word).getD 0 ≤ typedAmount fold sets word := by
      rw [typedAmount]
      cases cheerAmount fold sets word with
      | none => exact Nat.zero_le _
      | some n => exact le_rfl
    rw [hTotal, List.map_cons, List.sum_cons, AllShown, List.forall_mem_cons]
    have hRest := ih.2
    rw [AllShown] at hRest
    rw [← hRest]
    omega

/-- Every call returns, and the labels account for the bits, if and only if each cheermote is covered by the bits that
are left for it and no amount is too large for a cheermote before the bits are used up. -/
theorem accountsFor_iff (hTiers : LowestTierIsOne sets) (bits : Nat) (words : List QString) :
    AccountsFor fold sets bits words ↔
      CoversAll fold sets bits words ∧ (bits ≤ cheerTotal fold sets words ∨ AllShown fold sets words) := by
  obtain ⟨hLe, hShown⟩ := @cheerTotal_le_typed fold sets words
  rw [← hShown]
  constructor
  · rintro ⟨fuel, cheered, hCheered, -, hLabels, hTotal⟩
    have hSum : labelTotal cheered = _ := hTotal
    rw [labelTotal_eq hTiers hCheered hLabels] at hSum
    exact ⟨(labelled_iff hTiers hCheered).mp hLabels, by omega⟩
  · rintro ⟨hCovers, hTotal⟩
    obtain ⟨fuel, hFuel⟩ := @exists_appendWords fold sets hTiers bits words
    obtain ⟨cheered, hCheered⟩ := hFuel 0
    have hLabels := (labelled_iff hTiers hCheered).mpr hCovers
    have hSum := labelTotal_eq hTiers hCheered hLabels
    refine ⟨_, cheered, hCheered, bitsLeft_nonneg hTiers hCheered, hLabels, ?_⟩
    exact hSum.trans (by omega)

def Unambiguous (fold : QChar → QChar) (sets : List CheerEmoteSet) : Prop :=
  ∀ set ∈ sets, ∀ set' ∈ sets, ∀ word, (captured fold set.regex word).isSome = true →
    (captured fold set'.regex word).isSome = true → set = set'

theorem Reduces.amount_eq_mod (hTiers : LowestTierIsOne sets) (hSets : Unambiguous fold sets) {bits : Nat}
    (hBits : 0 < bits) {word text : QString} {emote : CheerEmote} (h : Reduces fold sets bits word emote text) :
    amountValue text = (typedAmount fold sets word - 1) % bits + 1 := by
  induction h with
  | @fits word text emote hEmote hText hFits =>
    obtain ⟨n, hn, hText', -, hTyped⟩ := cheerAmount_eq hTiers hEmote
    rw [hText] at hText'
    cases hText'
    rw [amountValue_number] at hFits ⊢
    rw [hTyped, Nat.mod_eq_of_lt (by omega)]
    omega
  | @subtract word text text' emote emote' hEmote hText hMore _ ih =>
    obtain ⟨set, hSet, hRegex, n, hn, hMax, hText'⟩ := exists_captured_of_cheerEmote hTiers hEmote
    obtain ⟨n', -, hText'', -, hTyped⟩ := cheerAmount_eq hTiers hEmote
    rw [hText] at hText' hText''
    cases hText'
    rw [amountValue_number] at hMore ih
    have hSame := congrArg amountValue (Option.some.inj hText'')
    rw [amountValue_number, amountValue_number] at hSame
    obtain ⟨-, hCaptured⟩ := reducedWord_eq hText hMore
    obtain ⟨next, hNext⟩ := exists_cheerEmote hTiers hSet (by omega) (by omega) (hRegex ▸ hCaptured)
    obtain ⟨set', hSet', hRegex', m, -, -, hNextText⟩ := exists_captured_of_cheerEmote hTiers hNext
    have hEq : set' = set := hSets set' hSet' set hSet _ (by rw [← hRegex', hNextText]; rfl)
      (by rw [← hRegex, hCaptured]; rfl)
    obtain ⟨k, -, hk, -, hNextTyped⟩ := cheerAmount_eq hTiers hNext
    rw [hRegex', hEq, ← hRegex, hCaptured] at hk
    have hNextAmount := congrArg amountValue (Option.some.inj hk)
    rw [amountValue_number, amountValue_number] at hNextAmount
    rw [ih, hTyped, hNextTyped, ← hNextAmount, ← hSame, Nat.mod_eq_sub_mod (by omega : bits ≤ n - 1)]
    congr 2
    omega

theorem amount_eq_min_iff (hTiers : LowestTierIsOne sets) (hSets : Unambiguous fold sets) {bits : Nat} (hBits : 0 < bits)
    {word text : QString} {emote : CheerEmote} (h : Reduces fold sets bits word emote text) :
    amountValue text = min (typedAmount fold sets word) bits ↔
      typedAmount fold sets word ≤ bits ∨ bits ∣ typedAmount fold sets word := by
  have hPositive : 1 ≤ typedAmount fold sets word := by
    cases h with
    | fits hEmote _ _ | subtract hEmote _ _ _ =>
      obtain ⟨n, hn, -, -, hTyped⟩ := cheerAmount_eq hTiers hEmote
      rw [hTyped]
      exact hn
  rw [h.amount_eq_mod hTiers hSets hBits]
  generalize typedAmount fold sets word = amount at hPositive
  rcases Nat.lt_or_ge bits amount with hMore | hFits
  · have hMod : amount % bits = ((amount - 1) % bits + 1) % bits := by
      rw [Nat.mod_add_mod, Nat.sub_add_cancel hPositive]
    have hLess := Nat.mod_lt (amount - 1) hBits
    rw [Nat.min_eq_right hMore.le, Nat.dvd_iff_mod_eq_zero, hMod]
    constructor
    · intro hEq
      rw [hEq, Nat.mod_self]
      exact Or.inr rfl
    · rintro (hLe | hZero)
      · omega
      · by_contra hOther
        rw [Nat.mod_eq_of_lt (by omega)] at hZero
        omega
  · rw [Nat.min_eq_left hFits, Nat.mod_eq_of_lt (by omega)]
    exact ⟨fun _ => Or.inl hFits, fun _ => by omega⟩

def cheerSet : CheerEmoteSet where
  regex := lit "cheer"
  cheerEmotes := [⟨lit "cheer", 1, some 0, some 1, some 2⟩]
  sorted := List.pairwise_singleton _ _
  regex_eq := by
    intro emote h
    rw [List.mem_singleton.mp h]

theorem lowestTierIsOne_cheerSet : LowestTierIsOne [cheerSet] := by
  intro set h
  rw [List.mem_singleton.mp h]
  refine ⟨_, List.mem_singleton_self _, rfl, fun other hOther => ?_⟩
  rw [List.mem_singleton.mp hOther]

theorem amount_eq_min_iff_cheer6 :
    amountValue (lit "2") = min (typedAmount id [cheerSet] (lit "cheer6")) 4 ↔
      typedAmount id [cheerSet] (lit "cheer6") ≤ 4 ∨ 4 ∣ typedAmount id [cheerSet] (lit "cheer6") :=
  amount_eq_min_iff lowestTierIsOne_cheerSet
    (fun _ h _ h' _ _ _ => (List.mem_singleton.mp h).trans (List.mem_singleton.mp h').symm) (by decide)
    (.subtract (by rfl) (by rfl) (by decide) (.fits (by rfl) (by rfl) (by decide)))

theorem accountsFor_twoWords : AccountsFor id [cheerSet] (10 : Nat) [lit "cheer4", lit "cheer6"] := by
  refine (accountsFor_iff lowestTierIsOne_cheerSet 10 _).mpr ⟨⟨fun amount _ _ => ?_, fun amount _ _ => ?_, trivial⟩, ?_⟩
  · exact ⟨_, _, .fits (by rfl) (by rfl) (by decide), by decide, by rfl⟩
  · exact ⟨_, _, .fits (by rfl) (by rfl) (by decide), by decide, by rfl⟩
  · exact Or.inl (by decide)

theorem not_accountsFor_tooMany : ¬AccountsFor id [cheerSet] (10 : Nat) [lit "cheer6", lit "cheer6"] := by
  rintro ⟨fuel, cheered, hCheered, -, hLabels, -⟩
  obtain ⟨-, hSecond, -⟩ := (labelled_iff lowestTierIsOne_cheerSet hCheered).mp hLabels
  have hAmount : cheerAmount id [cheerSet] (lit "cheer6") = some 6 := by rfl
  have hLeft : 10 - (cheerAmount id [cheerSet] (lit "cheer6")).getD 0 = 4 := by
    rw [hAmount]
    rfl
  rw [hLeft] at hSecond
  obtain ⟨emote, text, hReduces, hMin, -⟩ := hSecond 6 hAmount (by decide)
  have hTwo : Reduces id [cheerSet] 4 (lit "cheer6") ⟨lit "cheer", 1, some 0, some 1, some 2⟩ (lit "2") :=
    .subtract (by rfl) (by rfl) (by decide) (.fits (by rfl) (by rfl) (by decide))
  obtain ⟨-, rfl⟩ := hReduces.unique hTwo
  rw [typedAmount, hAmount] at hMin
  exact absurd hMin (by decide)

end Chatterino.Cheermotes
