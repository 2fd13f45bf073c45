import Chatterino.Commands.Expansion

/-! # The matches of a template

The pattern matches a placeholder together with the character in front of its braces, of which only the first code
unit is kept. The result of the loop is compared with the pass from the left, which never gives a shorter text.
-/

namespace Chatterino.Commands

open Lib QString

def endsInPair : QString → Bool
  | [] => false
  | [_] => false
  | [c, d] => isHighSurrogate c && isLowSurrogate d
  | _ :: d :: e :: text => endsInPair (d :: e :: text)

theorem endsInPair_append (before : QString) (c d : QChar) (text : QString) :
    endsInPair (before ++ c :: d :: text) = endsInPair (c :: d :: text) := by
  induction before with
  | nil => rfl
  | cons e before ih =>
    cases before with
    | nil => rfl
    | cons f before => cases before with
      | nil => exact ih
      | cons g before => exact ih

theorem endsInPair_braces (c : QChar) (n : Nat) (d : QChar) : endsInPair (c :: (braces (n + 1) ++ [d])) = false := by
  have hSplit : c :: (braces (n + 1) ++ [d]) = (c :: braces n) ++ [BRACE, d] := by
    rw [braces_succ_append]
    rfl
  rw [hSplit, endsInPair_append]
  rfl

section

variable {isNewline : QChar → Bool}

theorem matchBraced_run (n : Nat) {rest : QString} (h : ∀ c ∈ rest.head?, c ≠ BRACE) :
    matchBraced isNewline (braces n ++ rest) = if n % 2 = 1 then
      (matchPlaceholder isNewline rest).map fun captured => (n + captured.placeholder.length + 1, captured) else none := by
  have hTake : ((braces n ++ rest).takeWhile (· = BRACE)).length = n := by
    have hRest : rest.takeWhile (· = BRACE) = [] := by
      cases rest with
      | nil => rfl
      | cons c rest => exact List.takeWhile_cons_of_neg (by simpa using h c rfl)
    rw [List.takeWhile_append_of_pos (by simp [braces]), hRest, List.append_nil, List.length_replicate]
  rw [matchBraced]
  rw [hTake, List.drop_left' List.length_replicate]

theorem searchFrom_braces (n pos : Nat) (text : QString) :
    searchFrom isNewline (pos + 1) (braces n ++ text) = searchFrom isNewline (pos + 1 + n) text := by
  induction n generalizing pos with
  | zero => rfl
  | succ n ih =>
    have hBrace : braces (n + 1) ++ text = BRACE :: (braces n ++ text) := rfl
    have hNone : matchAt isNewline (pos + 1) (BRACE :: (braces n ++ text)) = none := rfl
    rw [hBrace, searchFrom, hNone, Option.none_or, ih, Nat.add_right_comm, Nat.add_assoc, Nat.add_assoc]

theorem searchFrom_nil (pos : Nat) : searchFrom isNewline pos [] = none := by
  rw [searchFrom, matchAt]
  split_ifs <;> rfl

def matchBehind (pos : Nat) (c : QChar) (segment : Segment) : Match where
  capturedStart := pos + segment.before.length - if endsInPair (c :: segment.before) then 1 else 0
  capturedEnd := pos + segment.before.length + 2 * segment.pairs + segment.captured.placeholder.length + 3
  captured := segment.captured

theorem matchAt_cons {c : QChar} (h : c ≠ BRACE) (pos : Nat) (text : QString) {n : Nat}
    (hFirst : firstLength (c :: text) = some n) : matchAt isNewline pos (c :: text) =
      (matchBraced isNewline ((c :: text).drop n)).map fun found => ⟨pos, pos + n + found.1, found.2⟩ := by
  have hNone : matchBraced isNewline (c :: text) = none := by
    refine @matchBraced_run isNewline 0 (c :: text) ?_
    rintro d ⟨⟩
    exact h
  rw [matchAt, hNone, hFirst, ite_self, Option.map_none, Option.none_or]
  rfl

theorem firstLength_cons {c : QChar} (h : c ≠ BRACE) (text : QString) :
    (firstLength (c :: text) = some 1 ∧ ∀ d ∈ text.head?, endsInPair [c, d] = false) ∨
      ∃ d rest, text = d :: rest ∧ d ≠ BRACE ∧ firstLength (c :: text) = some 2 ∧ endsInPair [c, d] = true := by
  rw [firstLength, if_neg h]
  cases text with
  | nil =>
    refine .inl ⟨if_neg fun hBoth => Bool.false_ne_true hBoth.2, ?_⟩
    rintro d ⟨⟩
  | cons d rest =>
    by_cases hPair : isHighSurrogate c = true ∧ isLowSurrogate d = true
    · refine .inr ⟨d, rest, rfl, ?_, if_pos hPair, (Bool.and_eq_true _ _).mpr hPair⟩
      rintro rfl
      exact absurd hPair.2 (by decide)
    · refine .inl ⟨if_neg hPair, ?_⟩
      rintro _ ⟨⟩
      exact Bool.eq_false_iff.mpr fun hBoth => hPair ((Bool.and_eq_true _ _).mp hBoth)

theorem endsInPair_cons_of_ne_nil (c : QChar) {text : QString} (h : 2 ≤ text.length) : endsInPair (c :: text) = endsInPair text := by
  cases text with
  | nil => exact absurd h (by decide)
  | cons d text =>
    cases text with
    | nil => exact absurd h (by simp)
    | cons e text => rfl

theorem matchBehind_extend {c d : QChar} {n : Nat} (hPair : n = 0 → endsInPair [c, d] = false) (pos : Nat) (segment : Segment) :
    matchBehind (pos + 1 + n) d segment =
      matchBehind pos c { segment with before := braces n ++ d :: segment.before } := by
  have hSame : endsInPair (c :: (braces n ++ d :: segment.before)) = endsInPair (d :: segment.before) := by
    cases hBefore : segment.before with
    | nil =>
      cases n with
      | zero => exact hPair rfl
      | succ n => exact endsInPair_braces c n d
    | cons e before => exact endsInPair_append (c :: braces n) d e before
  rw [matchBehind, matchBehind]
  dsimp only
  rw [hSame, List.length_append, List.length_replicate, List.length_cons]
  congr 1
  · omega
  · omega

theorem matchBraced_of_cut {n : Nat} {captured : Captured} {text rest : QString}
    (h : nextSegment isNewline 0 text = some (⟨[], n, captured⟩, rest)) :
    matchBraced isNewline text = some (2 * n + 1 + captured.placeholder.length + 1, captured) := by
  obtain ⟨run, after, rfl, hAfter⟩ := exists_run text
  rw [matchBraced_run run hAfter]
  rw [nextSegment_run, Nat.zero_add] at h
  cases after with
  | nil => cases h
  | cons c after =>
    rcases nextSegment_cons (hAfter c rfl) run after with ⟨found, hOdd, hMatch, hFound⟩ | ⟨-, hFound⟩
    · rw [hFound] at h
      cases h
      have hRun : 2 * (run / 2) + 1 = run := by omega
      rw [if_pos hOdd, hMatch, hRun]
      rfl
    · rw [hFound] at h
      obtain ⟨⟨next, tail⟩, -, hEq⟩ := Option.map_eq_some_iff.mp h
      have hBefore := congrArg (fun found => found.1.before) hEq
      exact absurd hBefore (List.append_ne_nil_of_right_ne_nil _ (List.cons_ne_nil _ _))

theorem cut_of_matchBraced {text : QString} {found : Nat × Captured} (h : matchBraced isNewline text = some found) :
    ∃ n rest, nextSegment isNewline 0 text = some (⟨[], n, found.2⟩, rest) ∧
      found.1 = 2 * n + 1 + found.2.placeholder.length + 1 := by
  obtain ⟨run, after, rfl, hAfter⟩ := exists_run text
  rw [matchBraced_run run hAfter] at h
  rw [nextSegment_run, Nat.zero_add]
  split_ifs at h with hOdd
  obtain ⟨captured, hMatch, rfl⟩ := Option.map_eq_some_iff.mp h
  cases after with
  | nil => cases hMatch
  | cons c after =>
    rcases nextSegment_cons (hAfter c rfl) run after with ⟨found, -, hMatch', hFound⟩ | ⟨hNone, -⟩
    · rw [hMatch] at hMatch'
      cases hMatch'
      refine ⟨run / 2, _, hFound, ?_⟩
      dsimp only
      omega
    · rw [hMatch] at hNone
      cases hNone hOdd

theorem searchFrom_cons (length : Nat) {text : QString} (hLength : text.length ≤ length) {c : QChar} (h : c ≠ BRACE) (pos : Nat) :
    searchFrom isNewline pos (c :: text) = (nextSegment isNewline 0 text).map fun found => matchBehind pos c found.1 := by
  induction length generalizing text c pos with
  | zero =>
    obtain rfl := List.length_eq_zero_iff.mp (Nat.le_zero.mp hLength)
    have hFirst : firstLength [c] = some 1 := ((firstLength_cons h []).resolve_right (by rintro ⟨_, _, ⟨⟩, -⟩)).1
    rw [searchFrom, matchAt_cons h pos [] hFirst, searchFrom_nil]
    rfl
  | succ length ih =>
    rcases firstLength_cons h text with ⟨hFirst, hNoPair⟩ | ⟨d, rest, rfl, hBrace, hFirst, hPair⟩
    · rw [searchFrom, matchAt_cons h pos text hFirst, List.drop_one, List.tail_cons]
      cases hMatch : matchBraced isNewline text with
      | some found =>
        obtain ⟨n, rest, hCut, hEnd⟩ := cut_of_matchBraced hMatch
        have hSingle : endsInPair [c] = false := rfl
        rw [hCut, Option.map_some, Option.some_or, Option.map_some, matchBehind, hEnd]
        dsimp only
        rw [hSingle]
        congr 2
        rw [List.length_nil]
        omega
      | none =>
        obtain ⟨run, after, rfl, hAfter⟩ := exists_run text
        rw [Option.map_none, Option.none_or, searchFrom_braces, nextSegment_run, Nat.zero_add]
        cases after with
        | nil => rw [searchFrom_nil]; rfl
        | cons d after =>
          have hBrace := hAfter d rfl
          rcases nextSegment_cons hBrace run after with ⟨captured, hOdd, hMatch', -⟩ | ⟨-, hFound⟩
          · rw [matchBraced_run run hAfter, if_pos hOdd, hMatch'] at hMatch
            cases hMatch
          · have hShort : after.length ≤ length := by
              rw [List.length_append, List.length_cons] at hLength
              omega
            rw [ih hShort hBrace, hFound, Option.map_map]
            apply congrArg (Option.map · _)
            funext found
            refine matchBehind_extend ?_ pos found.1
            rintro rfl
            exact hNoPair d rfl
    · have hAfter : nextSegment isNewline 0 (d :: rest) =
          (nextSegment isNewline 0 rest).map fun found => ({ found.1 with before := d :: found.1.before }, found.2) := by
        rcases nextSegment_cons hBrace 0 rest with ⟨-, hOdd, -⟩ | ⟨-, hFound⟩
        · cases hOdd
        · exact hFound
      have hShort : rest.length ≤ length := Nat.le_of_succ_le_succ hLength
      rw [searchFrom, matchAt_cons h pos (d :: rest) hFirst, hAfter, Option.map_map]
      change ((matchBraced isNewline rest).map _).or _ = _
      cases hMatch : matchBraced isNewline rest with
      | some found =>
        obtain ⟨n, tail, hCut, hEnd⟩ := cut_of_matchBraced hMatch
        rw [hCut, Option.map_some, Option.some_or, Option.map_some, Function.comp_apply, matchBehind, hEnd]
        dsimp only
        rw [hPair, if_pos rfl]
        congr 2
        rw [List.length_singleton]
        omega
      | none =>
        rw [Option.map_none, Option.none_or, ih hShort hBrace]
        cases hCut : nextSegment isNewline 0 rest with
        | none => rfl
        | some found =>
          have hSome : found.1.before ≠ [] := by
            intro hNil
            have hEq : nextSegment isNewline 0 rest = some (⟨[], found.1.pairs, found.1.captured⟩, found.2) := by
              rw [hCut, ← hNil]
            rw [matchBraced_of_cut hEq] at hMatch
            cases hMatch
          have hSame : endsInPair (c :: d :: found.1.before) = endsInPair (d :: found.1.before) :=
            endsInPair_cons_of_ne_nil c (Nat.succ_le_succ (List.length_pos_iff.mpr hSome))
          rw [Option.map_some, Option.map_some, Function.comp_apply, matchBehind, matchBehind]
          dsimp only
          rw [hSame, List.length_cons]
          congr 2
          · omega
          · omega

theorem endsInPair_closing (text : QString) : endsInPair (CLOSING :: text) = endsInPair text := by
  cases text with
  | nil => rfl
  | cons c text =>
    cases text with
    | nil => rfl
    | cons d text => rfl

def Segment.kept (segment : Segment) : QString :=
  segment.before.take (segment.before.length - if endsInPair segment.before then 1 else 0)

theorem parseCommand_zero (func : QString) :
    parseCommand isNewline func 0 = (nextSegment isNewline 0 func).map fun found =>
      { capturedStart := found.1.before.length - 1 - if endsInPair found.1.before then 1 else 0
        capturedEnd := found.1.before.length + 2 * found.1.pairs + found.1.captured.placeholder.length + 2
        captured := found.1.captured } := by
  obtain ⟨run, after, rfl, hAfter⟩ := exists_run func
  rw [parseCommand, List.drop_zero]
  cases run with
  | zero =>
    cases after with
    | nil => exact searchFrom_nil 0
    | cons c after =>
      have hBrace := hAfter c rfl
      rcases nextSegment_cons hBrace 0 after with ⟨-, hOdd, -⟩ | ⟨-, hFound⟩
      · cases hOdd
      · refine (searchFrom_cons after.length le_rfl hBrace 0).trans ?_
        refine Eq.trans ?_ (congrArg (Option.map _) hFound).symm
        rw [Option.map_map]
        apply congrArg (Option.map · _)
        funext found
        rw [Function.comp_apply, matchBehind]
        dsimp only
        rw [List.length_append, List.length_replicate, List.length_cons]
        congr 1
        omega
  | succ run =>
    have hAt : matchAt isNewline 0 (braces (run + 1) ++ after) =
        (matchBraced isNewline (braces (run + 1) ++ after)).map fun found => ⟨0, 0 + found.1, found.2⟩ := Option.or_none
    have hBrace : braces (run + 1) ++ after = BRACE :: (braces run ++ after) := rfl
    have hSearch : searchFrom isNewline 0 (braces (run + 1) ++ after) =
        ((matchBraced isNewline (braces (run + 1) ++ after)).map fun found => (⟨0, 0 + found.1, found.2⟩ : Match)).or
          (searchFrom isNewline (0 + 1 + run) after) := by
      rw [← hAt, ← searchFrom_braces, hBrace, searchFrom]
    rw [hSearch]
    cases hMatch : matchBraced isNewline (braces (run + 1) ++ after) with
    | some found =>
      obtain ⟨n, rest, hCut, hEnd⟩ := cut_of_matchBraced hMatch
      rw [hCut, Option.map_some, Option.some_or, Option.map_some, hEnd]
      dsimp only
      congr 2
      rw [List.length_nil]
      omega
    | none =>
      rw [Option.map_none, Option.none_or, nextSegment_run]
      cases after with
      | nil => rw [searchFrom_nil]; rfl
      | cons c after =>
        have hBrace := hAfter c rfl
        rcases nextSegment_cons hBrace (0 + (run + 1)) after with ⟨captured, hOdd, hMatch', -⟩ | ⟨-, hFound⟩
        · rw [matchBraced_run _ hAfter, if_pos (by omega), hMatch'] at hMatch
          cases hMatch
        · rw [searchFrom_cons after.length le_rfl hBrace, hFound, Option.map_map]
          apply congrArg (Option.map · _)
          funext found
          have hSame : endsInPair (braces (0 + (run + 1)) ++ c :: found.1.before) = endsInPair (c :: found.1.before) := by
            cases hBefore : found.1.before with
            | nil =>
              rw [Nat.zero_add, braces_succ_append, endsInPair_append]
              rfl
            | cons d before => exact endsInPair_append _ c d before
          rw [Function.comp_apply, matchBehind]
          dsimp only
          rw [hSame, List.length_append, List.length_replicate, List.length_cons]
          congr 1
          · omega
          · omega

theorem parseCommand_closing (before text : QString) :
    parseCommand isNewline (before ++ CLOSING :: text) before.length =
      (nextSegment isNewline 0 text).map fun found => matchBehind before.length CLOSING found.1 := by
  rw [parseCommand, List.drop_left]
  exact searchFrom_cons text.length le_rfl (by decide) before.length

end

def segments (isNewline : QChar → Bool) (text : QString) : List Segment × QString :=
  match h : nextSegment isNewline 0 text with
  | none => ([], text)
  | some found =>
    have := length_nextSegment h
    (found.1 :: (segments isNewline found.2).1, (segments isNewline found.2).2)
termination_by text.length

section

variable {env : Surroundings} {words : List QString} {isNewline : QChar → Bool}

theorem segments_none {text : QString} (h : nextSegment isNewline 0 text = none) : segments isNewline text = ([], text) := by
  rw [segments]
  split
  · rfl
  · rename_i hFound
    rw [h] at hFound
    cases hFound

theorem segments_some {text rest : QString} {segment : Segment} (h : nextSegment isNewline 0 text = some (segment, rest)) :
    segments isNewline text = (segment :: (segments isNewline rest).1, (segments isNewline rest).2) := by
  rw [segments]
  split
  · rename_i hFound
    rw [h] at hFound
    cases hFound
  · rename_i hFound
    rw [h] at hFound
    cases hFound
    rfl

variable (env words) in
def replaced (cut : List Segment × QString) : QString :=
  (cut.1.flatMap fun segment => segment.kept ++ replacement env words segment.captured) ++ cut.2

theorem replaced_cons (segment : Segment) (segments : List Segment) (tail : QString) :
    replaced env words (segment :: segments, tail) =
      segment.kept ++ replacement env words segment.captured ++ replaced env words (segments, tail) := by
  rw [replaced, replaced, List.flatMap_cons, List.append_assoc]

theorem take_kept {segment : Segment} (after : QString) : (segment.before ++ after).take
    (segment.before.length - if endsInPair segment.before then 1 else 0) = segment.kept := by
  rw [List.take_append_of_le_length (Nat.sub_le _ _), Segment.kept]

theorem length_pos_of_endsInPair {text : QString} (h : endsInPair text = true) : 2 ≤ text.length := by
  cases text with
  | nil => cases h
  | cons c text =>
    cases text with
    | nil => cases h
    | cons d text => exact Nat.le_add_left 2 text.length

theorem replaceMatches_closing {fuel : Nat} {text : QString} (hFuel : text.length ≤ fuel) (before result : QString) :
    replaceMatches env words isNewline (before ++ CLOSING :: text) fuel (before.length + 1) before.length result =
      result ++ replaced env words (segments isNewline text) := by
  have hDrop : (before ++ CLOSING :: text).drop (before.length + 1) = text := by
    rw [List.drop_append, List.drop_of_length_le (Nat.le_succ _), Nat.add_sub_cancel_left]
    rfl
  induction fuel generalizing text before result with
  | zero =>
    obtain rfl := List.length_eq_zero_iff.mp (Nat.le_zero.mp hFuel)
    rw [replaceMatches, hDrop, segments_none rfl]
    rfl
  | succ fuel ih =>
    rw [replaceMatches, parseCommand_closing]
    cases hCut : nextSegment isNewline 0 text with
    | none =>
      rw [Option.map_none, segments_none hCut]
      dsimp only
      rw [hDrop]
      rfl
    | some found =>
      obtain ⟨segment, rest⟩ := found
      obtain ⟨hText, -⟩ := eq_append_of_nextSegment hCut
      have hZero : text = segment.before ++ (braces (2 * segment.pairs + 1) ++ (segment.captured.placeholder ++ CLOSING :: rest)) := by
        rw [← List.append_assoc, ← List.append_assoc]
        exact hText
      have hShort := length_nextSegment hCut
      have hKept : (text.take ((matchBehind before.length CLOSING segment).capturedStart + 1 - (before.length + 1))) = segment.kept := by
        have hStart : (matchBehind before.length CLOSING segment).capturedStart + 1 - (before.length + 1) =
            segment.before.length - if endsInPair segment.before then 1 else 0 := by
          rw [matchBehind, endsInPair_closing]
          dsimp only
          split_ifs with hPair
          · have hTwo := length_pos_of_endsInPair hPair
            omega
          · omega
        rw [hStart]
        conv_lhs => rw [hZero]
        exact take_kept _
      -- the text up to the closing brace of the match
      have hFunc : before ++ CLOSING :: text = (before ++ CLOSING :: (segment.before ++ braces (2 * segment.pairs + 1) ++
          segment.captured.placeholder)) ++ CLOSING :: rest := by
        conv_lhs => rw [hZero]
        rw [List.append_assoc, List.cons_append, List.append_assoc, List.append_assoc]
      have hEnd : (matchBehind before.length CLOSING segment).capturedEnd = (before ++ CLOSING :: (segment.before ++
          braces (2 * segment.pairs + 1) ++ segment.captured.placeholder)).length + 1 := by
        rw [matchBehind]
        simp only [List.length_append, List.length_cons, braces, List.length_replicate]
        omega
      rw [Option.map_some, segments_some hCut, replaced_cons]
      dsimp only
      rw [hDrop, hKept, hEnd, Nat.add_sub_cancel, hFunc, ih (by omega)]
      · rw [List.append_assoc, List.append_assoc, List.append_assoc]
        rfl
      · rw [List.drop_append, List.drop_of_length_le (Nat.le_succ _), Nat.add_sub_cancel_left]
        rfl

end

def startsOpen (isNewline : QChar → Bool) (func : QString) : Bool :=
  (nextSegment isNewline 0 func).all fun found => found.1.before ≠ []

section

variable {env : Surroundings} {words : List QString} {isNewline : QChar → Bool}

theorem replaceMatches_zero (func : QString) :
    replaceMatches env words isNewline func func.length 0 0 [] =
      (if startsOpen isNewline func then [] else [BRACE]) ++ replaced env words (segments isNewline func) := by
  cases hLength : func.length with
  | zero =>
    obtain rfl := List.length_eq_zero_iff.mp hLength
    rw [segments_none rfl]
    rfl
  | succ fuel =>
    rw [replaceMatches, parseCommand_zero, startsOpen]
    cases hCut : nextSegment isNewline 0 func with
    | none =>
      rw [segments_none hCut]
      rfl
    | some found =>
      obtain ⟨segment, rest⟩ := found
      obtain ⟨hText, -⟩ := eq_append_of_nextSegment hCut
      have hZero : func = segment.before ++ (braces (2 * segment.pairs + 1) ++ (segment.captured.placeholder ++ CLOSING :: rest)) := by
        rw [← List.append_assoc, ← List.append_assoc]
        exact hText
      have hShort := length_nextSegment hCut
      have hKept : func.take (segment.before.length - 1 - (if endsInPair segment.before then 1 else 0) + 1) =
          (if decide (segment.before ≠ []) = true then [] else [BRACE]) ++ segment.kept := by
        by_cases hBefore : segment.before = []
        · conv_lhs => rw [hZero]
          rw [Segment.kept, hBefore]
          rfl
        · have hPos := List.length_pos_iff.mpr hBefore
          have hStart : segment.before.length - 1 - (if endsInPair segment.before then 1 else 0) + 1 =
              segment.before.length - if endsInPair segment.before then 1 else 0 := by
            split_ifs with hPair
            · have hTwo := length_pos_of_endsInPair hPair
              omega
            · omega
          conv_lhs => rw [hZero]
          rw [hStart, take_kept, if_pos (decide_eq_true hBefore)]
          rfl
      have hFunc : func = (segment.before ++ braces (2 * segment.pairs + 1) ++ segment.captured.placeholder) ++
          CLOSING :: rest := hText
      have hEnd : segment.before.length + 2 * segment.pairs + segment.captured.placeholder.length + 2 =
          (segment.before ++ braces (2 * segment.pairs + 1) ++ segment.captured.placeholder).length + 1 := by
        simp only [List.length_append, braces, List.length_replicate]
        omega
      rw [Option.map_some, Option.all_some, segments_some hCut, replaced_cons]
      dsimp only
      rw [List.drop_zero, Nat.sub_zero, hKept, hEnd, Nat.add_sub_cancel]
      conv_lhs => rw [hFunc]
      rw [replaceMatches_closing (by omega), List.nil_append, List.append_assoc, List.append_assoc, List.append_assoc]

theorem undouble_drop (text : QString) :
    undouble BRACE (if text.head? = some BRACE then text.drop 1 else text) = undoubleFrom BRACE true text := by
  cases text with
  | nil => rfl
  | cons c text =>
    by_cases hBrace : c = BRACE
    · subst hBrace
      have hHead : (BRACE :: text).head? = some BRACE := rfl
      rw [if_pos hHead, undouble_eq, undoubleFrom_true_self]
      rfl
    · have hHead : (c :: text).head? ≠ some BRACE := fun hEq => hBrace (Option.some.inj hEq)
      rw [if_neg hHead, undouble_eq, undoubleFrom_cons_of_ne hBrace, undoubleFrom_cons_of_ne hBrace]

theorem execCustomCommand_eq (command : Command) : execCustomCommand env words isNewline command =
    undoubleFrom BRACE (startsOpen isNewline command.func) (replaced env words (segments isNewline command.func)) := by
  rw [execCustomCommand, undouble_drop, replaceMatches_zero]
  cases startsOpen isNewline command.func with
  | true => rfl
  | false => exact undoubleFrom_true_self _

variable (env words) in
def expanded (cut : List Segment × QString) : QString :=
  (cut.1.flatMap fun segment => undouble BRACE (segment.before ++ braces (2 * segment.pairs)) ++
    expandPlaceholder env words segment.captured) ++ undouble BRACE cut.2

theorem expanded_cons (segment : Segment) (segments : List Segment) (tail : QString) :
    expanded env words (segment :: segments, tail) = undouble BRACE (segment.before ++ braces (2 * segment.pairs)) ++
      (expandPlaceholder env words segment.captured ++ expanded env words (segments, tail)) := by
  rw [expanded, expanded, List.flatMap_cons, List.append_assoc, List.append_assoc]

theorem expand_eq (func : QString) : expand env words isNewline func = expanded env words (segments isNewline func) := by
  induction hLength : func.length using Nat.strong_induction_on generalizing func with
  | _ length ih =>
    obtain ⟨hNone, hSome⟩ := @expandFrom_nextSegment env words isNewline 0 func
    cases hCut : nextSegment isNewline 0 func with
    | none =>
      rw [segments_none hCut]
      exact hNone hCut
    | some found =>
      obtain ⟨segment, rest⟩ := found
      have hRest := ih rest.length (hLength ▸ length_nextSegment hCut) rest rfl
      rw [segments_some hCut, expanded_cons, ← hRest]
      exact hSome segment rest hCut

variable (env) in
def GivesAltText (captured : Captured) : Prop :=
  wordIndex captured = none → env.context captured.varName = none →
    ∀ replacer ∈ COMMAND_VARS env captured.varName, replacer [] = [] → replacer captured.altText = captured.altText

variable (env words) in
def FitsIn (isOpen : Bool) (captured : Captured) : Prop :=
  match insertion env words captured with
  | .verbatim text => Single BRACE (if isOpen = true then BRACE :: text else text)
  | .template text => isOpen = true → LeadsEven BRACE text

variable (env words) in
/-- No pair of braces and no surrogate stands in front of a placeholder, and what is put in behind an open brace adds
none to it. -/
def Lossless : (isOpen : Bool) → List Segment → (tail : QString) → Prop
  | isOpen, [], tail => isOpen = true → LeadsEven BRACE tail
  | isOpen, segment :: segments, tail =>
    segment.pairs = 0 ∧ endsInPair segment.before = false ∧ (isOpen = true → LeadsEven BRACE segment.before) ∧
      GivesAltText env segment.captured ∧ FitsIn env words (opens BRACE isOpen segment.before) segment.captured ∧
      Lossless (opens BRACE (opens BRACE isOpen segment.before) (insertion env words segment.captured).text) segments tail

end

section

variable {env : Surroundings} {words : List QString} {isNewline : QChar → Bool}

def Replaces (replacer : QString → QString) : Prop :=
  ∀ altText, (replacer [] = [] ∧ (replacer altText = altText ∨ replacer altText = [])) ∨
    replacer [] ≠ [] ∧ replacer altText = replacer []

theorem replaces_const (text : QString) : Replaces fun _ => text := by
  intro altText
  by_cases h : text = []
  · exact .inl ⟨h, .inr h⟩
  · exact .inr ⟨h, rfl⟩

theorem replaces_id : Replaces fun altText => altText := fun _ => .inl ⟨rfl, .inl rfl⟩

theorem replaces_orAltText (text : QString) : Replaces (orAltText text) := by
  intro altText
  by_cases h : text = []
  · exact .inl ⟨if_pos h, .inl (if_pos h)⟩
  · have hText : ∀ altText, orAltText text altText = text := fun altText => if_neg h
    rw [hText, hText]
    exact .inr ⟨h, rfl⟩

theorem replaces_ofStream (text : StreamStatus → QString) : Replaces (ofStream env text) := by
  cases hChannel : env.channel.twitchChannel with
  | none =>
    have hSame : ofStream env text = fun altText => altText := by
      funext altText
      rw [ofStream, hChannel]
    rw [hSame]
    exact replaces_id
  | some tc =>
    cases hLive : tc.streamStatus.live with
    | true =>
      have hSame : ofStream env text = fun _ => text tc.streamStatus := by
        funext altText
        rw [ofStream, hChannel]
        exact if_pos hLive
      rw [hSame]
      exact replaces_const _
    | false =>
      have hSame : ofStream env text = fun altText => altText := by
        funext altText
        rw [ofStream, hChannel]
        exact if_neg (Bool.eq_false_iff.mp hLive)
      rw [hSame]
      exact replaces_id

theorem replaces_ofMessage (text : Message → QString) : Replaces (ofMessage env text) := by
  cases hMessage : env.message with
  | none =>
    have hSame : ofMessage env text = fun altText => altText := by
      funext altText
      rw [ofMessage, hMessage]
    rw [hSame]
    exact replaces_id
  | some message =>
    have hSame : ofMessage env text = orAltText (text message) := by
      funext altText
      rw [ofMessage, hMessage]
    rw [hSame]
    exact replaces_orAltText _

theorem replaces_ite {p : Prop} [Decidable p] {replacer : QString → QString} {others : Option (QString → QString)}
    (hReplacer : Replaces replacer) (hOthers : ∀ other ∈ others, Replaces other) :
    ∀ other ∈ (if p then some replacer else others), Replaces other := by
  split_ifs
  · rintro _ ⟨⟩
    exact hReplacer
  · exact hOthers

theorem replaces_of_commandVar (varName : QString) : ∀ replacer ∈ COMMAND_VARS env varName, Replaces replacer := by
  rw [COMMAND_VARS]
  refine replaces_ite (replaces_const _) ?_
  refine replaces_ite ?_ ?_
  · cases env.channel.twitchChannel with
    | none => exact replaces_id
    | some tc => exact replaces_const tc.roomId
  refine replaces_ite (replaces_const _) ?_
  refine replaces_ite (replaces_ofStream _) ?_
  refine replaces_ite (replaces_ofStream _) ?_
  refine replaces_ite (replaces_orAltText _) ?_
  refine replaces_ite (replaces_orAltText _) ?_
  iterate 6 refine replaces_ite (replaces_ofMessage _) ?_
  refine replaces_ite replaces_id ?_
  rintro _ ⟨⟩

theorem joinedWords_false (words : List QString) : joinedWords false words = words.flatMap ([SPACE] ++ ·) := by
  induction words with
  | nil => rfl
  | cons word words ih =>
    rw [joinedWords, ih]
    rfl

theorem joinedWords_true (words : List QString) : joinedWords true words = [SPACE].intercalate words := by
  cases words with
  | nil => rfl
  | cons word words =>
    rw [joinedWords, joinedWords_false, if_pos rfl, List.nil_append]
    induction words generalizing word with
    | nil => exact (List.append_nil _).trans (List.append_nil _).symm
    | cons next words ih =>
      rw [List.intercalate_cons_cons, ← ih next, List.flatMap_cons, List.append_assoc, List.append_assoc]

theorem replacement_cases (captured : Captured) :
    (GivesAltText env captured ∧ replacement env words captured = (insertion env words captured).text) ∨
      ¬GivesAltText env captured ∧ replacement env words captured = [] ∧
        ∃ altText, altText ≠ [] ∧ insertion env words captured = .template altText := by
  cases hIndex : wordIndex captured with
  | some n =>
    refine .inl ⟨fun hNone => absurd (hNone.symm.trans hIndex) (Option.some_ne_none n).symm, ?_⟩
    rw [replacement, insertion, hIndex, Insertion.text]
    dsimp only
    split_ifs with hLength hPlus hPlus
    · rw [List.drop_of_length_le hLength]
      rfl
    · rw [List.getElem?_eq_none hLength]
      rfl
    · exact joinedWords_true _
    · rfl
  | none =>
    rw [insertion, replacement, hIndex]
    dsimp only
    rw [value]
    cases hContext : env.context captured.varName with
    | some text =>
      refine .inl ⟨fun _ hNone => absurd (hNone.symm.trans hContext) (Option.some_ne_none text).symm, ?_⟩
      dsimp only [Option.some_or]
      split_ifs <;> rfl
    | none =>
      cases hReplacer : COMMAND_VARS env captured.varName with
      | none =>
        refine .inl ⟨fun _ _ replacer hMem => ?_, rfl⟩
        rw [hReplacer] at hMem
        cases hMem
      | some replacer =>
        dsimp only [Option.none_or, Option.map_some]
        have hGives : replacer [] ≠ [] ∨ replacer captured.altText = captured.altText → GivesAltText env captured := by
          intro hEither _ _ other hMem hEmpty
          rw [hReplacer] at hMem
          cases hMem
          exact hEither.resolve_left fun hNot => hNot hEmpty
        rcases replaces_of_commandVar _ replacer hReplacer captured.altText with ⟨hEmpty, hAlt⟩ | ⟨hValue, hSame⟩
        · rw [if_pos hEmpty]
          by_cases hGiven : replacer captured.altText = captured.altText
          · exact .inl ⟨hGives (.inr hGiven), hGiven⟩
          · refine .inr ⟨fun h => hGiven (h hIndex hContext replacer hReplacer hEmpty), hAlt.resolve_left hGiven, _, ?_, rfl⟩
            intro hNil
            exact hGiven ((hAlt.resolve_left hGiven).trans hNil.symm)
        · rw [if_neg hValue]
          exact .inl ⟨hGives (.inl hValue), hSame⟩

end

section

variable {env : Surroundings} {words : List QString} {isNewline : QChar → Bool}

theorem opens_of_getLast {text : QString} (h : ∀ c ∈ text.getLast?, c ≠ BRACE) : opens BRACE false text = false := by
  cases hLast : text.getLast? with
  | none =>
    rw [List.getLast?_eq_none_iff.mp hLast]
    rfl
  | some c =>
    obtain ⟨front, rfl⟩ := List.getLast?_eq_some_iff.mp hLast
    exact opens_concat_of_ne (h c hLast) false front

theorem eq_append_of_endsInPair {text : QString} (h : endsInPair text = true) :
    ∃ c, text = text.take (text.length - 1) ++ [c] ∧ c ≠ BRACE := by
  have hTwo := length_pos_of_endsInPair h
  have hNonempty : text ≠ [] := List.length_pos_iff.mp (by omega)
  obtain ⟨front, c, rfl⟩ := (List.eq_nil_or_concat' text).resolve_left hNonempty
  obtain ⟨front, d, rfl⟩ := (List.eq_nil_or_concat' front).resolve_left (by rintro rfl; exact absurd hTwo (by simp))
  have hSplit : front ++ [d] ++ [c] = front ++ d :: [c] := List.append_assoc _ _ _
  refine ⟨c, ?_, ?_⟩
  · rw [List.length_append, List.length_singleton, Nat.add_sub_cancel, List.take_left]
  · rintro rfl
    rw [hSplit, endsInPair_append] at h
    exact absurd ((Bool.and_eq_true _ _).mp h).2 (by decide)

theorem undoubleFrom_kept {segment : Segment} (hLast : ∀ c ∈ segment.before.getLast?, c ≠ BRACE) (isOpen : Bool) :
    (undoubleFrom BRACE isOpen segment.kept).length ≤
        (undouble BRACE (segment.before ++ braces (2 * segment.pairs))).length ∧
      (undoubleFrom BRACE isOpen segment.kept = undouble BRACE (segment.before ++ braces (2 * segment.pairs)) ↔
        segment.pairs = 0 ∧ endsInPair segment.before = false ∧ (isOpen = true → LeadsEven BRACE segment.before)) := by
  have hBraces : undouble BRACE (braces (2 * segment.pairs)) = braces segment.pairs := by
    have hPairs := undouble_braces segment.pairs []
    rwa [List.append_nil, undouble, List.append_nil] at hPairs
  have hBefore : undouble BRACE (segment.before ++ braces (2 * segment.pairs)) =
      undouble BRACE segment.before ++ braces segment.pairs := by
    rw [← hBraces, undouble_eq, undouble_eq, undouble_eq, undoubleFrom_append, opens_of_getLast hLast]
  have hLe := @length_undoubleFrom_le_undouble _ _ BRACE isOpen segment.before
  rw [hBefore]
  cases hPair : endsInPair segment.before with
  | false =>
    have hKept : segment.kept = segment.before := by
      rw [Segment.kept, hPair]
      exact List.take_length
    have hSplit := @append_eq_append_iff_of_length_le _ (undoubleFrom BRACE isOpen segment.before) (undouble BRACE segment.before)
      [] (braces segment.pairs) hLe (Nat.zero_le _)
    rw [List.append_nil] at hSplit
    rw [hKept, hSplit, undoubleFrom_eq_undouble_iff, List.length_append, and_iff_right rfl]
    refine ⟨hLe.trans (Nat.le_add_right _ _), and_comm.trans (and_congr_left fun _ => ?_)⟩
    constructor
    · intro h
      exact (List.replicate_eq_nil_iff _).mp h.symm
    · intro h
      rw [h]
      rfl
  | true =>
    obtain ⟨c, hText, hBrace⟩ := eq_append_of_endsInPair hPair
    have hKept : segment.kept = segment.before.take (segment.before.length - 1) := by rw [Segment.kept, hPair]; rfl
    have hUndouble : undouble BRACE segment.before = undouble BRACE segment.kept ++ [c] := by
      conv_lhs => rw [hText, ← hKept]
      rw [undouble_eq, undouble_eq, undoubleFrom_append, undoubleFrom_cons_of_ne hBrace]
      rfl
    have hLength := @length_undoubleFrom_le_undouble _ _ BRACE isOpen segment.kept
    have hShort : (undoubleFrom BRACE isOpen segment.kept).length <
        (undouble BRACE segment.before ++ braces segment.pairs).length := by
      rw [hUndouble, List.length_append, List.length_append, List.length_singleton]
      omega
    refine ⟨hShort.le, iff_of_false ?_ ?_⟩
    · intro hEq
      rw [hEq] at hShort
      exact lt_irrefl _ hShort
    · rintro ⟨-, ⟨⟩, -⟩

theorem undoubleFrom_replacement (captured : Captured) (isOpen : Bool) :
    (undoubleFrom BRACE isOpen (replacement env words captured)).length ≤ (expandPlaceholder env words captured).length ∧
      (undoubleFrom BRACE isOpen (replacement env words captured) = expandPlaceholder env words captured ↔
        GivesAltText env captured ∧ FitsIn env words isOpen captured) := by
  rcases @replacement_cases env words captured with ⟨hGives, hSame⟩ | ⟨hNot, hNil, altText, hNonempty, hInsertion⟩
  · rw [hSame, and_iff_right hGives, expandPlaceholder, FitsIn]
    cases insertion env words captured with
    | verbatim text => exact ⟨length_undoubleFrom_le isOpen text, undoubleFrom_eq_self_iff isOpen text⟩
    | template text => exact ⟨length_undoubleFrom_le_undouble isOpen text, undoubleFrom_eq_undouble_iff isOpen text⟩
  · rw [hNil, expandPlaceholder, hInsertion]
    refine ⟨Nat.zero_le _, iff_of_false ?_ fun h => hNot h.1⟩
    intro hEq
    exact undouble_ne_nil hNonempty hEq.symm

theorem undoubleFrom_replaced {segments : List Segment}
    (hLast : ∀ segment ∈ segments, ∀ c ∈ segment.before.getLast?, c ≠ BRACE) (tail : QString) (isOpen : Bool) :
    (undoubleFrom BRACE isOpen (replaced env words (segments, tail))).length ≤ (expanded env words (segments, tail)).length ∧
      (undoubleFrom BRACE isOpen (replaced env words (segments, tail)) = expanded env words (segments, tail) ↔
        Lossless env words isOpen segments tail) := by
  induction segments generalizing isOpen with
  | nil =>
    rw [Lossless]
    exact ⟨length_undoubleFrom_le_undouble isOpen tail, undoubleFrom_eq_undouble_iff isOpen tail⟩
  | cons segment segments ih =>
    obtain ⟨hHead, hSegments⟩ := List.forall_mem_cons.mp hLast
    obtain ⟨hKeptLe, hKept⟩ := undoubleFrom_kept hHead isOpen
    obtain ⟨hPutLe, hPut⟩ := @undoubleFrom_replacement env words segment.captured (opens BRACE isOpen segment.kept)
    obtain ⟨hRestLe, hRest⟩ := ih hSegments
      (opens BRACE (opens BRACE isOpen segment.kept) (replacement env words segment.captured))
    have hTailLe := Nat.add_le_add hPutLe hRestLe
    rw [← List.length_append, ← List.length_append] at hTailLe
    have hLe := Nat.add_le_add hKeptLe hTailLe
    rw [← List.length_append, ← List.length_append] at hLe
    rw [replaced_cons, expanded_cons, List.append_assoc, undoubleFrom_append, undoubleFrom_append,
      append_eq_append_iff_of_length_le hKeptLe hTailLe, append_eq_append_iff_of_length_le hPutLe hRestLe, hKept, hPut, hRest]
    refine ⟨hLe, ?_⟩
    rw [Lossless, and_assoc, and_assoc, and_assoc]
    refine and_congr_right fun _ => and_congr_right fun hPair => and_congr_right fun _ => and_congr_right fun hGives => ?_
    have hSame : segment.kept = segment.before := by
      rw [Segment.kept, hPair]
      exact List.take_length
    have hText : replacement env words segment.captured = (insertion env words segment.captured).text := by
      rcases @replacement_cases env words segment.captured with ⟨-, hText⟩ | ⟨hNot, -⟩
      · exact hText
      · exact absurd hGives hNot
    rw [hSame, hText]

theorem getLast_of_mem_segments {func : QString} :
    ∀ segment ∈ (segments isNewline func).1, ∀ c ∈ segment.before.getLast?, c ≠ BRACE := by
  induction hLength : func.length using Nat.strong_induction_on generalizing func with
  | _ length ih =>
    cases hCut : nextSegment isNewline 0 func with
    | none =>
      rw [segments_none hCut]
      intro segment hMem
      cases hMem
    | some found =>
      obtain ⟨segment, rest⟩ := found
      rw [segments_some hCut]
      refine List.forall_mem_cons.mpr ⟨(eq_append_of_nextSegment hCut).2, ?_⟩
      exact ih rest.length (hLength ▸ length_nextSegment hCut) rfl

end

def plainSurroundings : Surroundings where
  current := ⟨[], []⟩
  channel := ⟨[], none⟩
  message := none
  context _ := none

end Chatterino.Commands
