import Chatterino.Commands.CustomCommand

/-! # The placeholders of a template

A template is cut at its placeholders. In front of the brace of a placeholder there may be pairs of braces, and in
front of these there is no brace.
-/

namespace Chatterino.Commands

open Lib QString

section

variable {isNewline : QChar → Bool}

theorem eq_takeWhile_append (p : QChar → Bool) (text : QString) :
    text = text.takeWhile p ++ text.drop (text.takeWhile p).length := by
  conv_lhs => rw [← List.take_append_drop (text.takeWhile p).length text]
  rw [← List.prefix_iff_eq_take.mp (List.takeWhile_prefix p)]

theorem eq_append_of_matchPlaceholder {text : QString} {captured : Captured}
    (h : matchPlaceholder isNewline text = some captured) :
    text = captured.placeholder ++ CLOSING :: text.drop (captured.placeholder.length + 1) := by
  -- what stands in front of the closing brace is enough
  have hEnough : ∀ before rest, text = before ++ CLOSING :: rest →
      text = before ++ CLOSING :: text.drop (before.length + 1) := by
    rintro before rest rfl
    rw [List.drop_append, List.drop_of_length_le (Nat.le_succ _), Nat.add_sub_cancel_left]
    rfl
  rw [matchPlaceholder] at h
  dsimp only at h
  split_ifs at h with hDigits hName
  · cases hRest : text.drop (text.takeWhile isDigit).length with
    | nil =>
      rw [hRest] at h
      cases h
    | cons c rest =>
      have hText := eq_takeWhile_append isDigit text
      rw [hRest] at h hText
      dsimp only at h
      split_ifs at h with hClosing hPlus
      · cases h
        exact hEnough _ rest (hClosing ▸ hText)
      · cases h
        obtain ⟨rfl, hHead⟩ := hPlus
        obtain ⟨rest, rfl⟩ := List.head?_eq_some_iff.mp hHead
        refine hEnough _ rest (hText.trans ?_)
        rw [List.append_assoc]
        rfl
  · cases hRest : text.drop (text.takeWhile isNameCharacter).length with
    | nil =>
      rw [hRest] at h
      cases h
    | cons c rest =>
      have hText := eq_takeWhile_append isNameCharacter text
      rw [hRest] at h hText
      dsimp only at h
      split_ifs at h with hClosing hSemicolon
      · cases h
        exact hEnough _ rest (hClosing ▸ hText)
      · cases rest with
        | nil => cases h
        | cons d rest =>
          dsimp only at h
          split_ifs at h with hEnd
          cases h
          obtain ⟨more, hMore⟩ := List.head?_eq_some_iff.mp (List.head?_drop.trans hEnd.2)
          have hRest := eq_takeWhile_append (fun e => e ≠ CLOSING ∧ isNewline e = false) rest
          rw [hMore] at hRest
          refine hEnough _ more (hText.trans ?_)
          rw [hSemicolon, List.append_assoc]
          exact congrArg (fun t => _ ++ 0x3B :: d :: t) hRest

end

abbrev braces (n : Nat) : QString := List.replicate n BRACE

theorem braces_succ_append (n : Nat) (text : QString) : braces (n + 1) ++ text = braces n ++ BRACE :: text := by
  rw [braces, braces, List.replicate_succ', List.append_assoc]
  rfl

theorem exists_run (text : QString) : ∃ n rest, text = braces n ++ rest ∧ ∀ c ∈ rest.head?, c ≠ BRACE := by
  induction text with
  | nil => exact ⟨0, [], rfl, by rintro c ⟨⟩⟩
  | cons c text ih =>
    by_cases hBrace : c = BRACE
    · obtain ⟨n, rest, rfl, hRest⟩ := ih
      exact ⟨n + 1, rest, congrArg (· :: _) hBrace, hRest⟩
    · refine ⟨0, c :: text, rfl, ?_⟩
      rintro d ⟨⟩
      exact hBrace

theorem undouble_braces (k : Nat) (text : QString) : undouble BRACE (braces (2 * k) ++ text) = braces k ++ undouble BRACE text := by
  induction k with
  | zero => rfl
  | succ k ih =>
    have hPair : braces (2 * (k + 1)) ++ text = BRACE :: BRACE :: (braces (2 * k) ++ text) := rfl
    rw [hPair, undouble, if_pos ⟨rfl, rfl⟩, ih]
    rfl

theorem undouble_cons_of_ne {c : QChar} (h : c ≠ BRACE) (text : QString) :
    undouble BRACE (c :: text) = c :: undouble BRACE text := by
  rw [undouble_eq, undouble_eq, undoubleFrom_cons_of_ne h]

theorem undouble_brace_cons {c : QChar} (h : c ≠ BRACE) (text : QString) :
    undouble BRACE (BRACE :: c :: text) = BRACE :: c :: undouble BRACE text := by
  rw [undouble_eq, undouble_eq, undoubleFrom_false_self, undoubleFrom_cons_of_ne h]

theorem braces_eq (n : Nat) : braces n = braces (2 * (n / 2)) ++ braces (n % 2) := by
  rw [← List.replicate_add, Nat.div_add_mod]

structure Segment where
  before : QString
  pairs : Nat
  captured : Captured

/-- The part up to the end of the next placeholder, with the rest, where some braces stand in front of the text. -/
def nextSegment (isNewline : QChar → Bool) : (run : Nat) → QString → Option (Segment × QString)
  | _, [] => none
  | run, c :: text =>
    if c = BRACE then nextSegment isNewline (run + 1) text
    else
      match if run % 2 = 1 then matchPlaceholder isNewline (c :: text) else none with
      | some captured => some (⟨[], run / 2, captured⟩, (c :: text).drop (captured.placeholder.length + 1))
      | none =>
        (nextSegment isNewline 0 text).map fun found =>
          ({ found.1 with before := braces run ++ c :: found.1.before }, found.2)

section

variable {isNewline : QChar → Bool}

theorem nextSegment_run (run n : Nat) (text : QString) :
    nextSegment isNewline run (braces n ++ text) = nextSegment isNewline (run + n) text := by
  induction n generalizing run with
  | zero => rfl
  | succ n ih =>
    have hBrace : braces (n + 1) ++ text = BRACE :: (braces n ++ text) := rfl
    rw [hBrace, nextSegment, if_pos rfl, ih, Nat.add_assoc, Nat.add_comm 1 n]

theorem nextSegment_cons {c : QChar} (h : c ≠ BRACE) (run : Nat) (text : QString) :
    (∃ captured, run % 2 = 1 ∧ matchPlaceholder isNewline (c :: text) = some captured ∧
        nextSegment isNewline run (c :: text) =
          some (⟨[], run / 2, captured⟩, (c :: text).drop (captured.placeholder.length + 1))) ∨
      ((run % 2 = 1 → matchPlaceholder isNewline (c :: text) = none) ∧ nextSegment isNewline run (c :: text) =
        (nextSegment isNewline 0 text).map fun found =>
          ({ found.1 with before := braces run ++ c :: found.1.before }, found.2)) := by
  rw [nextSegment, if_neg h]
  by_cases hOdd : run % 2 = 1
  · rw [if_pos hOdd]
    cases hMatch : matchPlaceholder isNewline (c :: text) with
    | none => exact .inr ⟨fun _ => rfl, rfl⟩
    | some captured => exact .inl ⟨captured, hOdd, rfl, rfl⟩
  · rw [if_neg hOdd]
    exact .inr ⟨fun hOdd' => absurd hOdd' hOdd, rfl⟩

theorem eq_append_of_nextSegment {run : Nat} {text rest : QString} {segment : Segment}
    (h : nextSegment isNewline run text = some (segment, rest)) :
    braces run ++ text = segment.before ++ braces (2 * segment.pairs + 1) ++ segment.captured.placeholder ++
        CLOSING :: rest ∧ ∀ c ∈ segment.before.getLast?, c ≠ BRACE := by
  induction text generalizing run segment with
  | nil => cases h
  | cons c text ih =>
    by_cases hBrace : c = BRACE
    · subst hBrace
      rw [nextSegment, if_pos rfl] at h
      obtain ⟨hText, hLast⟩ := ih h
      refine ⟨?_, hLast⟩
      rw [← hText, braces_succ_append]
    · rcases nextSegment_cons hBrace run text with ⟨captured, hOdd, hMatch, hFound⟩ | ⟨-, hFound⟩
      · rw [hFound] at h
        cases h
        have hRun : 2 * (run / 2) + 1 = run := by omega
        refine ⟨?_, by rintro d ⟨⟩⟩
        conv_lhs => rw [eq_append_of_matchPlaceholder hMatch]
        rw [hRun, List.nil_append, List.append_assoc]
      · rw [hFound] at h
        obtain ⟨⟨next, tail⟩, hNext, hEq⟩ := Option.map_eq_some_iff.mp h
        cases hEq
        obtain ⟨hText, hLast⟩ := ih hNext
        refine ⟨?_, ?_⟩
        · have hZero : text = next.before ++ braces (2 * next.pairs + 1) ++ next.captured.placeholder ++ CLOSING :: tail := hText
          dsimp only
          conv_lhs => rw [hZero]
          rw [List.append_assoc, List.append_assoc, List.append_assoc, List.append_assoc, List.append_assoc]
          rfl
        · intro d hd
          dsimp only at hd
          cases hBefore : next.before with
          | nil =>
            rw [hBefore, List.getLast?_append_cons] at hd
            cases hd
            exact hBrace
          | cons e before =>
            rw [hBefore, List.getLast?_append_cons, List.getLast?_cons_cons] at hd
            rw [hBefore] at hLast
            exact hLast d hd

theorem length_nextSegment {text rest : QString} {segment : Segment} (h : nextSegment isNewline 0 text = some (segment, rest)) :
    rest.length < text.length := by
  obtain ⟨hText, -⟩ := eq_append_of_nextSegment h
  have hLength := congrArg List.length hText
  simp only [braces, List.length_append, List.length_cons, List.length_replicate] at hLength
  omega

end

section

variable {env : Surroundings} {words : List QString} {isNewline : QChar → Bool}

theorem expandFrom_drop (skip : Nat) (text : QString) :
    expandFrom env words isNewline skip text = expandFrom env words isNewline 0 (text.drop skip) := by
  induction text generalizing skip with
  | nil => rw [List.drop_nil]; cases skip <;> rfl
  | cons c text ih =>
    cases skip with
    | zero => rfl
    | succ skip => exact ih skip

theorem expandFrom_pair (text : QString) :
    expandFrom env words isNewline 0 (BRACE :: BRACE :: text) = BRACE :: expandFrom env words isNewline 0 text := by
  have hHead : (BRACE :: text).head? = some BRACE := rfl
  rw [expandFrom, if_pos rfl, if_pos hHead]
  rfl

theorem expandFrom_braces (k : Nat) (text : QString) :
    expandFrom env words isNewline 0 (braces (2 * k) ++ text) = braces k ++ expandFrom env words isNewline 0 text := by
  induction k with
  | zero => rfl
  | succ k ih =>
    have hPair : braces (2 * (k + 1)) ++ text = BRACE :: BRACE :: (braces (2 * k) ++ text) := rfl
    rw [hPair, expandFrom_pair, ih]
    rfl

theorem expandFrom_cons_of_ne {c : QChar} (h : c ≠ BRACE) (text : QString) :
    expandFrom env words isNewline 0 (c :: text) = c :: expandFrom env words isNewline 0 text := if_neg h

theorem expandFrom_brace_cons {c : QChar} (h : c ≠ BRACE) (text : QString) :
    expandFrom env words isNewline 0 (BRACE :: c :: text) =
      match matchPlaceholder isNewline (c :: text) with
      | some captured => expandPlaceholder env words captured ++
          expandFrom env words isNewline 0 ((c :: text).drop (captured.placeholder.length + 1))
      | none => BRACE :: c :: expandFrom env words isNewline 0 text := by
  have hHead : (c :: text).head? ≠ some BRACE := fun hEq => h (Option.some.inj hEq)
  rw [expandFrom, if_pos rfl, if_neg hHead, expandFrom_cons_of_ne h]
  cases matchPlaceholder isNewline (c :: text) with
  | none => rfl
  | some captured =>
    dsimp only
    rw [expandFrom_drop]

theorem expandFrom_run (run : Nat) {c : QChar} (h : c ≠ BRACE) {text : QString}
    (hNone : run % 2 = 1 → matchPlaceholder isNewline (c :: text) = none) :
    ∃ n, expandFrom env words isNewline 0 (braces run ++ c :: text) = braces n ++ c :: expandFrom env words isNewline 0 text ∧
      ∀ s, undouble BRACE (braces run ++ c :: s) = braces n ++ c :: undouble BRACE s := by
  rcases Nat.mod_two_eq_zero_or_one run with hEven | hOdd
  · have hBraces : braces run = braces (2 * (run / 2)) := by
      rw [braces_eq, hEven]
      exact List.append_nil _
    refine ⟨run / 2, ?_, fun s => ?_⟩
    · rw [hBraces, expandFrom_braces, expandFrom_cons_of_ne h]
    · rw [hBraces, undouble_braces, undouble_cons_of_ne h]
  · have hBraces : ∀ s, braces run ++ c :: s = braces (2 * (run / 2)) ++ BRACE :: c :: s := by
      intro s
      rw [braces_eq, hOdd, List.append_assoc]
      rfl
    refine ⟨run / 2 + 1, ?_, fun s => ?_⟩
    · rw [hBraces, expandFrom_braces, expandFrom_brace_cons h, hNone hOdd, braces_succ_append]
    · rw [hBraces, undouble_braces, undouble_brace_cons h, braces_succ_append]

theorem expandFrom_nextSegment (run : Nat) (text : QString) :
    (nextSegment isNewline run text = none →
      expandFrom env words isNewline 0 (braces run ++ text) = undouble BRACE (braces run ++ text)) ∧
    ∀ segment rest, nextSegment isNewline run text = some (segment, rest) →
      expandFrom env words isNewline 0 (braces run ++ text) =
        undouble BRACE (segment.before ++ braces (2 * segment.pairs)) ++
          (expandPlaceholder env words segment.captured ++ expandFrom env words isNewline 0 rest) := by
  induction text generalizing run with
  | nil =>
    refine ⟨fun _ => ?_, by rintro _ _ ⟨⟩⟩
    rw [List.append_nil, braces_eq, expandFrom_braces, undouble_braces]
    rcases Nat.mod_two_eq_zero_or_one run with hEven | hOdd
    · rw [hEven]
      rfl
    · rw [hOdd]
      rfl
  | cons c text ih =>
    by_cases hBrace : c = BRACE
    · subst hBrace
      rw [nextSegment, if_pos rfl, ← braces_succ_append]
      exact ih (run + 1)
    · obtain ⟨hNone, hSome⟩ := ih 0
      rcases nextSegment_cons hBrace run text with ⟨captured, hOdd, hMatch, hFound⟩ | ⟨hNoMatch, hFound⟩
      · rw [hFound]
        refine ⟨by rintro ⟨⟩, ?_⟩
        rintro _ _ ⟨⟩
        have hBraces : braces run ++ c :: text = braces (2 * (run / 2)) ++ BRACE :: c :: text := by
          rw [braces_eq, hOdd, List.append_assoc]
          rfl
        have hPairs := undouble_braces (run / 2) []
        rw [List.append_nil] at hPairs
        rw [hBraces, expandFrom_braces, expandFrom_brace_cons hBrace, hMatch, List.nil_append, hPairs, undouble, List.append_nil]
      · obtain ⟨n, hExpand, hUndouble⟩ := @expandFrom_run env words isNewline run c hBrace text hNoMatch
        rw [hFound, hExpand]
        constructor
        · intro h
          rw [hUndouble]
          exact congrArg (fun s => braces n ++ c :: s) (hNone (Option.map_eq_none_iff.mp h))
        · intro segment rest h
          obtain ⟨⟨next, tail⟩, hNext, hEq⟩ := Option.map_eq_some_iff.mp h
          cases hEq
          have hTail := hSome next tail hNext
          have hBefore : braces run ++ c :: next.before ++ braces (2 * next.pairs) =
              braces run ++ c :: (next.before ++ braces (2 * next.pairs)) := List.append_assoc _ _ _
          dsimp only
          rw [hBefore, hUndouble, List.append_assoc]
          exact congrArg (fun s => braces n ++ c :: s) hTail

end

end Chatterino.Commands
