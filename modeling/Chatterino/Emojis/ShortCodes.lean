import Chatterino.Lib.Regex
import Chatterino.Lib.Splice
import Chatterino.Qt.QString

/-! # Short codes of emojis

The short codes of a text are replaced one after another in the text itself, and the difference of the lengths so far
moves the positions that were matched before.
-/

namespace Chatterino.Emojis

open Lib QString

/-- `\w`, which is one of ASCII. -/
def isWordCharacter (c : QChar) : Bool :=
  (0x30 ≤ c && c ≤ 0x39) || (0x41 ≤ c && c ≤ 0x5A) || (0x61 ≤ c && c ≤ 0x7A) || c == 0x5F

/-- `[-+\w]`. -/
def isCodeCharacter (c : QChar) : Bool := c == 0x2D || c == 0x2B || isWordCharacter c

def COLON : QChar := 0x3A

/-- `:(?:[-+\w]+):`. -/
def shortCodeRegex : Regex QChar :=
  .seq (.char (· = COLON)) (.seq (.plus (.char isCodeCharacter)) (.char (· = COLON)))

/-- What follows the match of `(?<!\w):(?:[-+\w]+):(?!\w)` at a position. The character before it is given. -/
def matchShortCode (previous : Option QChar) (text : QString) : Option QString :=
  if previous.any isWordCharacter then none
  else (shortCodeRegex.ends text).find? fun rest => !rest.head?.any isWordCharacter

structure ShortCodeMatch where
  capturedStart : Nat
  capturedEnd : Nat
  deriving DecidableEq

def findShortCodesFrom : Nat → Option QChar → Nat → QString → List ShortCodeMatch
  | _, _, _, [] => []
  | pos, _, skip + 1, c :: text => findShortCodesFrom (pos + 1) (some c) skip text
  | pos, previous, 0, c :: text =>
    match matchShortCode previous (c :: text) with
    | none => findShortCodesFrom (pos + 1) (some c) 0 text
    | some rest =>
      ⟨pos, pos + (text.length + 1 - rest.length)⟩ ::
        findShortCodesFrom (pos + 1) (some c) (text.length - rest.length) text

/-- `findShortCodesRegex_.globalMatch(text)`. -/
def findShortCodes (text : QString) : List ShortCodeMatch := findShortCodesFrom 0 none 0 text

def captured (text : QString) (found : ShortCodeMatch) : QString :=
  (text.take found.capturedEnd).drop found.capturedStart

/-- `toLower` of an ASCII text. -/
def toLower (text : QString) : QString := text.map fun c => if 0x41 ≤ c ∧ c ≤ 0x5A then c + 0x20 else c

section

-- the value of the emoji of a short code
variable (emojiShortCodeToEmoji_ : QString → Option QString)

def emojiValue (capturedString : QString) : Option QString :=
  emojiShortCodeToEmoji_ (((toLower capturedString).drop 1).take (capturedString.length - 2))

/-- `QString::replace`, which leaves the text as it is where the position is not in it. -/
def replaceAt (ret : QString) (position : Int) (n : Nat) (after : QString) : QString :=
  if 0 ≤ position ∧ position ≤ ret.length then splice ret position.toNat n after else ret

/-- The loop over the matches. -/
def replaceFound (text : QString) : (ret : QString) → (offset : Int) → List ShortCodeMatch → QString
  | ret, _, [] => ret
  | ret, offset, found :: rest =>
    match emojiValue emojiShortCodeToEmoji_ (captured text found) with
    | none => replaceFound text ret offset rest
    | some value =>
      let capturedLength := found.capturedEnd - found.capturedStart
      replaceFound text (replaceAt ret (offset + found.capturedStart) capturedLength value)
        (offset + (value.length - capturedLength)) rest

def replaceShortCodes (text : QString) : QString :=
  replaceFound emojiShortCodeToEmoji_ text text 0 (findShortCodes text)

def substitute (text : QString) : Nat → List ShortCodeMatch → QString
  | pos, [] => text.drop pos
  | pos, found :: rest =>
    (text.take found.capturedStart).drop pos ++
      ((emojiValue emojiShortCodeToEmoji_ (captured text found)).getD (captured text found) ++
        substitute text found.capturedEnd rest)

end

/-- `(?<!\w):(?:[-+\w]+):(?!\w)`, from one position to another. -/
def IsShortCode (text : QString) (start stop : Nat) : Prop :=
  ∃ before code after, text = before ++ (COLON :: (code ++ COLON :: after)) ∧ start = before.length ∧
    stop = start + code.length + 2 ∧ code ≠ [] ∧ (∀ c ∈ code, isCodeCharacter c) ∧
    (before.getLast?.any isWordCharacter) = false ∧ (after.head?.any isWordCharacter) = false

inductive LeftmostFrom (text : QString) : Nat → List ShortCodeMatch → Prop where
  | done {pos : Nat} (hNone : ∀ start ≥ pos, ∀ stop, ¬IsShortCode text start stop) : LeftmostFrom text pos []
  | next {pos start stop : Nat} {rest : List ShortCodeMatch} (hPos : pos ≤ start) (hMatch : IsShortCode text start stop)
      (hFirst : ∀ earlier ≥ pos, earlier < start → ∀ stop, ¬IsShortCode text earlier stop)
      (hRest : LeftmostFrom text stop rest) : LeftmostFrom text pos (⟨start, stop⟩ :: rest)

theorem matches_shortCodeRegex_iff {w : QString} : Regex.Matches shortCodeRegex w ↔
    ∃ code, code ≠ [] ∧ (∀ c ∈ code, isCodeCharacter c) ∧ w = COLON :: (code ++ [COLON]) := by
  rw [shortCodeRegex, Regex.matches_seq]
  constructor
  · rintro ⟨v, rest, rfl, hFirst, hRest⟩
    obtain ⟨c, rfl, hc⟩ := Regex.matches_char.mp hFirst
    obtain ⟨code, last, rfl, hCode, hLast⟩ := Regex.matches_seq.mp hRest
    obtain ⟨d, rfl, hd⟩ := Regex.matches_char.mp hLast
    obtain ⟨hNe, hAll⟩ := Regex.matches_plus_char.mp hCode
    exact ⟨code, hNe, hAll, by rw [of_decide_eq_true hc, of_decide_eq_true hd]; rfl⟩
  · rintro ⟨code, hNe, hAll, rfl⟩
    refine ⟨[COLON], code ++ [COLON], rfl, Regex.matches_char.mpr ⟨COLON, rfl, by decide⟩, ?_⟩
    exact Regex.matches_seq.mpr ⟨code, [COLON], rfl, Regex.matches_plus_char.mpr ⟨hNe, hAll⟩,
      Regex.matches_char.mpr ⟨COLON, rfl, by decide⟩⟩

theorem eq_of_code_append_eq {code code' after after' : QString} (hCode : ∀ c ∈ code, isCodeCharacter c)
    (hCode' : ∀ c ∈ code', isCodeCharacter c) (h : code ++ COLON :: after = code' ++ COLON :: after') :
    code = code' ∧ after = after' := by
  have hRun {word rest : QString} (hWord : ∀ c ∈ word, isCodeCharacter c) :
      (word ++ COLON :: rest).takeWhile isCodeCharacter = word := by
    rw [List.takeWhile_append_of_pos hWord, List.takeWhile_cons_of_neg (by decide), List.append_nil]
  have hSame := congrArg (List.takeWhile isCodeCharacter) h
  rw [hRun hCode, hRun hCode'] at hSame
  subst hSame
  exact ⟨rfl, (List.cons.inj (List.append_cancel_left h)).2⟩

theorem matchShortCode_eq_some_iff {previous : Option QChar} {text rest : QString} :
    matchShortCode previous text = some rest ↔ previous.any isWordCharacter = false ∧ rest.head?.any isWordCharacter = false ∧
      ∃ code, code ≠ [] ∧ (∀ c ∈ code, isCodeCharacter c) ∧ text = COLON :: (code ++ COLON :: rest) := by
  have hEnds {rest : QString} (h : rest ∈ shortCodeRegex.ends text) :
      ∃ code, code ≠ [] ∧ (∀ c ∈ code, isCodeCharacter c) ∧ text = COLON :: (code ++ COLON :: rest) := by
    obtain ⟨w, hText, hMatches⟩ := Regex.matches_of_mem_ends _ _ _ h
    obtain ⟨code, hNe, hAll, rfl⟩ := matches_shortCodeRegex_iff.mp hMatches
    exact ⟨code, hNe, hAll, by simpa using hText⟩
  unfold matchShortCode
  by_cases hPrevious : previous.any isWordCharacter = true
  · rw [if_pos hPrevious]
    exact iff_of_false (by rintro ⟨⟩) fun h => absurd h.1 (by simp [hPrevious])
  · rw [if_neg hPrevious]
    constructor
    · intro h
      have hLast := List.find?_some h
      exact ⟨by simpa using hPrevious, by simpa using hLast, hEnds (List.mem_of_find?_eq_some h)⟩
    · rintro ⟨-, hLast, code, hNe, hAll, hText⟩
      have hMem : rest ∈ shortCodeRegex.ends text := by
        have hWord : Regex.Matches shortCodeRegex (COLON :: (code ++ [COLON])) :=
          matches_shortCodeRegex_iff.mpr ⟨code, hNe, hAll, rfl⟩
        have hEnd := Regex.mem_ends_of_matches hWord rest
        rw [hText]
        simpa using hEnd
      cases hFind : (shortCodeRegex.ends text).find? fun rest => !rest.head?.any isWordCharacter with
      | none => exact absurd hLast (by simpa using List.find?_eq_none.mp hFind rest hMem)
      | some other =>
        obtain ⟨code', -, hAll', hText'⟩ := hEnds (List.mem_of_find?_eq_some hFind)
        rw [hText', List.cons.injEq] at hText
        rw [(eq_of_code_append_eq hAll' hAll hText.2).2]

variable {before text : QString}

theorem isShortCode_iff {start stop : Nat} (hStart : start = before.length) : IsShortCode (before ++ text) start stop ↔
    ∃ rest, matchShortCode before.getLast? text = some rest ∧ stop = start + (text.length - rest.length) := by
  constructor
  · rintro ⟨before', code, after, hText, hBefore, rfl, hNe, hAll, hFirst, hLast⟩
    obtain ⟨rfl, rfl⟩ := List.append_inj hText (hStart.symm.trans hBefore)
    refine ⟨after, matchShortCode_eq_some_iff.mpr ⟨hFirst, hLast, code, hNe, hAll, rfl⟩, ?_⟩
    simp only [List.length_cons, List.length_append]
    omega
  · rintro ⟨rest, hMatch, rfl⟩
    obtain ⟨hFirst, hLast, code, hNe, hAll, rfl⟩ := matchShortCode_eq_some_iff.mp hMatch
    refine ⟨before, code, rest, rfl, hStart, ?_, hNe, hAll, hFirst, hLast⟩
    simp only [List.length_cons, List.length_append]
    omega

theorem IsShortCode.bounds {start stop : Nat} (h : IsShortCode text start stop) : start + 2 < stop ∧ stop ≤ text.length := by
  obtain ⟨before, code, after, rfl, rfl, rfl, hNe, -⟩ := h
  have hPos := List.length_pos_iff.mpr hNe
  simp only [List.length_append, List.length_cons]
  omega

theorem LeftmostFrom.extend {pos : Nat} {found : List ShortCodeMatch} (h : LeftmostFrom text (pos + 1) found)
    (hNone : ∀ stop, ¬IsShortCode text pos stop) : LeftmostFrom text pos found := by
  have hFrom {start : Nat} (hGe : start ≥ pos) : start = pos ∨ start ≥ pos + 1 := by omega
  cases h with
  | done hAll =>
    refine .done fun start hGe stop hMatch => ?_
    rcases hFrom hGe with rfl | hGe
    · exact hNone stop hMatch
    · exact hAll start hGe stop hMatch
  | next hPos hMatch hFirst hRest =>
    refine .next (Nat.le_of_succ_le hPos) hMatch (fun earlier hGe hLt stop hEarlier => ?_) hRest
    rcases hFrom hGe with rfl | hGe
    · exact hNone stop hEarlier
    · exact hFirst earlier hGe hLt stop hEarlier

theorem leftmostFrom_findShortCodesFrom {skip : Nat} (h : skip ≤ text.length) :
    LeftmostFrom (before ++ text) (before.length + skip) (findShortCodesFrom before.length before.getLast? skip text) := by
  induction text generalizing before skip with
  | nil =>
    refine .done fun start hGe stop hMatch => ?_
    have hBounds := hMatch.bounds
    rw [List.append_nil] at hBounds
    omega
  | cons c text ih =>
    have hNext {skip : Nat} (h : skip ≤ text.length) : LeftmostFrom (before ++ c :: text) (before.length + (skip + 1))
        (findShortCodesFrom (before.length + 1) (some c) skip text) := by
      have hIh := @ih (before ++ [c]) skip h
      rw [List.append_assoc, List.length_append, List.length_singleton, List.getLast?_concat] at hIh
      rwa [Nat.add_comm skip, ← Nat.add_assoc]
    cases skip with
    | succ skip => exact hNext (Nat.le_of_succ_le_succ h)
    | zero =>
      rw [findShortCodesFrom]
      cases hMatch : matchShortCode before.getLast? (c :: text) with
      | none =>
        refine (hNext (Nat.zero_le _)).extend fun stop hStop => ?_
        obtain ⟨rest, hRest, -⟩ := (isShortCode_iff rfl).mp hStop
        rw [hMatch] at hRest
        cases hRest
      | some rest =>
        have hCode : IsShortCode (before ++ c :: text) before.length (before.length + (text.length + 1 - rest.length)) :=
          (isShortCode_iff rfl).mpr ⟨rest, hMatch, rfl⟩
        have hShort := hCode.bounds
        refine .next le_rfl hCode (fun earlier hGe hLt => absurd hLt (Nat.not_lt.mpr hGe)) ?_
        have hRest := hNext (Nat.sub_le text.length rest.length)
        rwa [show text.length - rest.length + 1 = text.length + 1 - rest.length by omega] at hRest

theorem leftmostFrom_findShortCodes (text : QString) : LeftmostFrom text 0 (findShortCodes text) :=
  @leftmostFrom_findShortCodesFrom [] text 0 (Nat.zero_le _)

section

variable {emojiShortCodeToEmoji_ : QString → Option QString}

theorem replaceAt_append (done word rest after : QString) :
    replaceAt (done ++ (word ++ rest)) done.length word.length after = done ++ (after ++ rest) := by
  have hInside : (0 : Int) ≤ done.length ∧ (done.length : Int) ≤ (done ++ (word ++ rest)).length := by
    rw [List.length_append]
    omega
  rw [replaceAt, if_pos hInside, Int.toNat_natCast, splice, List.take_left, ← List.drop_drop, List.drop_left, List.drop_left]

theorem replaceFound_eq_substitute {pos : Nat} {found : List ShortCodeMatch} (h : LeftmostFrom text pos found)
    (done : QString) :
    replaceFound emojiShortCodeToEmoji_ text (done ++ text.drop pos) (done.length - pos) found =
      done ++ substitute emojiShortCodeToEmoji_ text pos found := by
  induction h generalizing done with
  | done => rfl
  | @next pos start stop rest hStart hMatch _ _ ih =>
    obtain ⟨hLong, hStop⟩ := hMatch.bounds
    obtain ⟨gap, hGap⟩ : ∃ gap, gap = (text.take start).drop pos := ⟨_, rfl⟩
    obtain ⟨word, hWord⟩ : ∃ word, word = captured text ⟨start, stop⟩ := ⟨_, rfl⟩
    have hGapLength : gap.length = start - pos := by
      rw [hGap, List.length_drop, List.length_take]
      omega
    have hWordLength : word.length = stop - start := by
      rw [hWord, captured, List.length_drop, List.length_take]
      dsimp only
      omega
    have hParts : text.drop pos = gap ++ (word ++ text.drop stop) := by
      rw [hGap, hWord, captured, drop_eq_append_drop hStart (by omega), drop_eq_append_drop (by omega : start ≤ stop) hStop]
    rw [replaceFound, substitute, ← hWord, ← hGap]
    cases emojiValue emojiShortCodeToEmoji_ word with
    | none =>
      have hDone := ih (done ++ (gap ++ word))
      have hOffset : ((done ++ (gap ++ word)).length : Int) - stop = done.length - pos := by
        rw [List.length_append, List.length_append]
        omega
      rw [hOffset] at hDone
      simp only [List.append_assoc] at hDone
      rw [Option.getD_none, ← hDone, hParts]
    | some value =>
      have hDone := ih (done ++ (gap ++ value))
      have hOffset : ((done ++ (gap ++ value)).length : Int) - stop =
          done.length - pos + (value.length - ((stop - start : Nat) : Int)) := by
        rw [List.length_append, List.length_append]
        omega
      rw [hOffset] at hDone
      simp only [List.append_assoc] at hDone
      dsimp only
      rw [Option.getD_some, ← hDone, hParts]
      have hPosition : ((done.length : Int) - pos) + start = ((done ++ gap).length : Int) := by
        rw [List.length_append]
        omega
      rw [hPosition, ← hWordLength, ← List.append_assoc, replaceAt_append, List.append_assoc]

def penguin : QString → Option QString := fun code => if code = lit "penguin" then some [0xD83D, 0xDC27] else none

example : replaceShortCodes penguin (lit "::Penguin::x::penguin:") = lit ":" ++ [0xD83D, 0xDC27] ++ lit ":x:" ++ [0xD83D, 0xDC27] := by
  decide

end

end Chatterino.Emojis
