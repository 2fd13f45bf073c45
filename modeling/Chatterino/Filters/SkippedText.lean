import Chatterino.Filters.Filter

/-! # The text between the tokens

Text that is no token is passed over by the tokenizer, and the parser never sees it.
-/

namespace Chatterino.Filters

open Lib QString

/-- The text without its tokens. A text that is no valid UTF-16 has none. -/
def remainder (text : QString) : QString :=
  if isValidUtf16 text then Regex.remainderFrom TOKEN_REGEX 0 text else text

/-- If the text is accepted, its tokens leave only whitespace. -/
def LosesNothing (text : QString) : Prop :=
  ∀ filter, Filter.fromString text = .ok filter → ∀ c ∈ remainder text, isSpace c = true

/-- An operator of two equal characters needs both of them, and a quote needs another one. -/
def startsToken (c : QChar) (rest : QString) : Bool :=
  isWordChar c || c ∈ lit "(){}," || c ∈ lit "<>!+-*/%" || (c ∈ lit "=|&" && rest.head? == some c) ||
    (c == 0x22 && rest.contains 0x22)

theorem startsToken_iff {c : QChar} {rest : QString} : startsToken c rest = true ↔
    isWordChar c = true ∨ c ∈ lit "(){}," ∨ c ∈ lit "<>!+-*/%" ∨ (c ∈ lit "=|&" ∧ rest.head? = some c) ∨
      (c = 0x22 ∧ 0x22 ∈ rest) := by
  simp [startsToken, or_assoc]

theorem matches_of_mem_operatorTexts {w : QString} (h : w ∈ operatorTexts) : operatorRegex.Matches w := by
  have hMatch : operatorRegex.matchEnd (w ++ []) = some [] := matchEnd_operatorRegex h fun _ hc => absurd hc (by simp)
  obtain ⟨v, hText, hMatches⟩ := Regex.matches_of_matchEnd hMatch
  rw [List.append_cancel_right hText]
  exact hMatches

theorem startsToken_of_matches {c : QChar} {w rest s : QString} (h : TOKEN_REGEX.Matches w)
    (hText : c :: rest = w ++ s) : startsToken c rest = true := by
  rw [startsToken_iff]
  simp only [TOKEN_REGEX, Regex.alts_cons_cons, Regex.alts_singleton, Regex.matches_alt] at h
  rcases h with hLiteral | hWord | hOperators | hSymbol
  · obtain ⟨u, v, rfl, hStart, hBody⟩ := Regex.matches_seq.mp hLiteral
    obtain ⟨x, y, rfl, -, hQuote⟩ := Regex.matches_seq.mp hBody
    obtain ⟨start, hMem, rfl⟩ := matches_literalStartRegex.mp hStart
    obtain ⟨quote, rfl, hIs⟩ := Regex.matches_char.mp hQuote
    obtain rfl := of_decide_eq_true hIs
    have hPrefixes : ∀ start ∈ literalPrefixes, ∀ d ∈ start.head?, isWordChar d = true := by decide
    cases start with
    | nil =>
      obtain ⟨rfl, rfl⟩ := List.cons.inj hText
      exact .inr (.inr (.inr (.inr ⟨rfl, by simp⟩)))
    | cons d start =>
      obtain ⟨rfl, -⟩ := List.cons.inj hText
      exact .inl (hPrefixes _ hMem c rfl)
  · obtain ⟨hSome, hChars⟩ := Regex.matches_plus_char.mp hWord
    obtain ⟨d, w, rfl⟩ := List.exists_cons_of_ne_nil hSome
    obtain ⟨rfl, -⟩ := List.cons.inj hText
    exact .inl (hChars c List.mem_cons_self)
  · obtain ⟨u, v, rfl, hFirst, -⟩ := Regex.matches_seq.mp hOperators
    have hHeads : ∀ u ∈ operatorTexts, ∀ d ∈ u.head?, d ∈ lit "<>!+-*/%" ∨ d ∈ lit "=|&" ∧ u = [d, d] := by decide
    have hMem := mem_operatorTexts hFirst
    cases u with
    | nil => exact absurd hMem (by decide)
    | cons d u =>
      obtain ⟨rfl, rfl⟩ := List.cons.inj hText
      rcases hHeads _ hMem c rfl with hSingle | ⟨hDouble, hText⟩
      · exact .inr (.inr (.inl hSingle))
      · obtain ⟨-, rfl⟩ := List.cons.inj hText
        exact .inr (.inr (.inr (.inl ⟨hDouble, rfl⟩)))
  · obtain ⟨d, hMem, rfl⟩ := matches_symbol hSymbol
    obtain ⟨rfl, -⟩ := List.cons.inj hText
    exact .inr (.inl hMem)

theorem matchEnd_eq_none_iff {c : QChar} {rest : QString} :
    TOKEN_REGEX.matchEnd (c :: rest) = none ↔ startsToken c rest = false := by
  have hPlain {w : QString} (s : QString) (hMatches : (Regex.plus (.char isWordChar)).Matches w ∨
      (Regex.plus operatorRegex).Matches w) : ∃ t, TOKEN_REGEX.matchEnd (w ++ s) = some t := by
    refine Regex.exists_matchEnd_of_matches ?_ s
    simp only [TOKEN_REGEX, Regex.alts_cons_cons, Regex.alts_singleton, Regex.matches_alt]
    exact .inr (hMatches.imp_right .inl)
  have hOperator {w : QString} (s : QString) (hMem : w ∈ operatorTexts) :
      ∃ t, TOKEN_REGEX.matchEnd (w ++ s) = some t := by
    refine hPlain s (.inr (Regex.matches_seq.mpr ⟨w, [], (List.append_nil w).symm, ?_, .starNil⟩))
    exact matches_of_mem_operatorTexts hMem
  rw [← not_iff_not, Bool.not_eq_false, ← ne_eq, Option.ne_none_iff_exists']
  constructor
  · rintro ⟨s, hMatch⟩
    obtain ⟨w, hText, hMatches⟩ := Regex.matches_of_matchEnd hMatch
    exact startsToken_of_matches hMatches hText
  · rw [startsToken_iff]
    rintro (hWord | hSymbol | hSingle | ⟨hDouble, hNext⟩ | ⟨rfl, hQuote⟩)
    · exact @hPlain [c] rest (.inl (Regex.matches_plus_char.mpr ⟨List.cons_ne_nil _ _, by simpa using hWord⟩))
    · exact ⟨rest, matchEnd_TOKEN_REGEX_symbol hSymbol rest⟩
    · have hAll : ∀ c ∈ lit "<>!+-*/%", [c] ∈ operatorTexts := by decide
      exact @hOperator [c] rest (hAll c hSingle)
    · have hAll : ∀ c ∈ lit "=|&", [c, c] ∈ operatorTexts := by decide
      obtain ⟨rest, rfl⟩ := List.head?_eq_some_iff.mp hNext
      exact @hOperator [c, c] rest (hAll c hDouble)
    · cases hClosing : closing rest with
      | none => exact absurd hQuote (closing_eq_none.mp hClosing)
      | some s =>
        have hStart : ([] : QString) ∈ literalPrefixes := by decide
        exact ⟨s, matchEnd_TOKEN_REGEX_literal hStart hClosing⟩

theorem Derives.ne_nil {ts : List Token} {e : Expression} (h : Derives .expr ts e) : ts ≠ [] := by
  have hUnary {ts : List Token} {e : Expression} (h : Derives .unary ts e) : ts ≠ [] := by
    cases h with
    | not => exact List.cons_ne_nil _ _
    | unary hCond =>
      obtain ⟨token, rest, rfl, -⟩ := hCond.head_cond
      exact List.cons_ne_nil _ _
  cases h with
  | expr hAnd _ =>
    cases hAnd with
    | and hFirst _ => exact List.append_ne_nil_of_left_ne_nil (List.append_ne_nil_of_left_ne_nil (hUnary hFirst) _) _

theorem isValidUtf16_of_fromString {text : QString} {filter : Filter}
    (h : Filter.fromString text = .ok filter) : isValidUtf16 text = true := by
  by_contra hInvalid
  have hTokens := (Filter.fromString_iff_derives.mp h).ne_nil
  rw [tokensOf, if_neg hInvalid] at hTokens
  exact hTokens rfl

/-- Nothing is lost exactly if the text is rejected, or wherever a token is looked for there is
whitespace or one starts. -/
theorem losesNothing_iff (text : QString) : LosesNothing text ↔
    (∀ filter, Filter.fromString text ≠ .ok filter) ∨
      ∀ place ∈ Regex.triedFrom TOKEN_REGEX 0 text, isSpace place.1 = true ∨ startsToken place.1 place.2 = true := by
  constructor
  · intro hLoses
    by_cases hAccepted : ∀ filter, Filter.fromString text ≠ .ok filter
    · exact .inl hAccepted
    right
    obtain ⟨filter, hAccepted⟩ := not_forall.mp hAccepted
    have hRead := not_ne_iff.mp hAccepted
    rintro ⟨c, rest⟩ hPlace
    by_cases hStarts : startsToken c rest = true
    · exact .inr hStarts
    · left
      refine hLoses filter hRead c ?_
      rw [remainder, if_pos (isValidUtf16_of_fromString hRead), Regex.mem_remainderFrom_iff]
      exact ⟨rest, hPlace, matchEnd_eq_none_iff.mpr (Bool.not_eq_true _ ▸ hStarts)⟩
  · rintro (hRejected | hPlaces) filter hRead c hc
    · exact absurd hRead (hRejected filter)
    · rw [remainder, if_pos (isValidUtf16_of_fromString hRead), Regex.mem_remainderFrom_iff] at hc
      obtain ⟨rest, hPlace, hNone⟩ := hc
      rcases hPlaces _ hPlace with hSpace | hStarts
      · exact hSpace
      · rw [matchEnd_eq_none_iff.mp hNone] at hStarts
        cases hStarts

theorem not_losesNothing_tilde : ¬LosesNothing (lit "author.subbed ~") := by
  have hTokens : tokensOf (lit "author.subbed ~") = [⟨lit "author.subbed", .IDENTIFIER⟩] := by decide +kernel
  have hParse : parseText (lit "author.subbed ~") = (.identifier (lit "author.subbed"), { rest := [] }) := by
    apply parseText_eq
    rw [hTokens]
    rfl
  have hRead : Filter.fromString (lit "author.subbed ~") = .ok ⟨_, .Bool, rfl⟩ :=
    Filter.fromString_eq_ok.mpr ⟨congrArg (·.2.valid_) hParse, congrArg (·.1) hParse⟩
  intro hLoses
  have hTilde : (0x7E : QChar) ∈ remainder (lit "author.subbed ~") := by decide +kernel
  have hSpace := hLoses _ hRead 0x7E hTilde
  cases hSpace

end Chatterino.Filters
