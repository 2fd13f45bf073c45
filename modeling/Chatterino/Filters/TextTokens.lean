import Chatterino.Filters.Tokenizer

/-! # The tokens of a text

A token with a quote is a literal. The values of the literals of a text are valid UTF-16 if the text
is, and only the last of them can end with a backslash.
-/

namespace Chatterino.Filters

open Lib QString

theorem isValidUtf16_cons {c : QChar} (h : isHighSurrogate c = false) (s : QString) :
    isValidUtf16 (c :: s) = (!isLowSurrogate c && isValidUtf16 s) := by
  cases s <;> simp [isValidUtf16, h]

theorem isValidUtf16_cons_high {c d : QChar} (h : isHighSurrogate c = true) (s : QString) :
    isValidUtf16 (c :: d :: s) = (isLowSurrogate d && isValidUtf16 s) := by
  simp [isValidUtf16, h]

theorem isValidUtf16_append {a b : QString} (ha : isValidUtf16 a = true) (hb : isValidUtf16 b = true) :
    isValidUtf16 (a ++ b) = true := by
  induction a using isValidUtf16.induct with
  | case1 => exact hb
  | case2 c hHigh d s ih =>
    rw [isValidUtf16_cons_high hHigh, Bool.and_eq_true] at ha
    rw [List.cons_append, List.cons_append, isValidUtf16_cons_high hHigh, ha.1, ih ha.2]
    rfl
  | case3 c hHigh => simp [isValidUtf16, hHigh] at ha
  | case4 c s hHigh ih =>
    rw [isValidUtf16_cons (by simpa using hHigh), Bool.and_eq_true] at ha
    rw [List.cons_append, isValidUtf16_cons (by simpa using hHigh), ha.1, ih ha.2]
    rfl

theorem isValidUtf16_of_append_quote {a b : QString} (h : isValidUtf16 (a ++ 0x22 :: b) = true) :
    isValidUtf16 a = true ∧ isValidUtf16 b = true := by
  induction a using isValidUtf16.induct with
  | case1 =>
    rw [List.nil_append, isValidUtf16_cons rfl, Bool.and_eq_true] at h
    exact ⟨rfl, h.2⟩
  | case2 c hHigh d s ih =>
    rw [List.cons_append, List.cons_append, isValidUtf16_cons_high hHigh, Bool.and_eq_true] at h
    rw [isValidUtf16_cons_high hHigh, h.1, (ih h.2).1]
    exact ⟨rfl, (ih h.2).2⟩
  | case3 c hHigh =>
    rw [List.singleton_append, isValidUtf16_cons_high hHigh] at h
    cases h
  | case4 c s hHigh ih =>
    rw [List.cons_append, isValidUtf16_cons (by simpa using hHigh), Bool.and_eq_true] at h
    rw [isValidUtf16_cons (by simpa using hHigh), h.1, (ih h.2).1]
    exact ⟨rfl, (ih h.2).2⟩

theorem isValidUtf16_escapeQuotes (s : QString) : isValidUtf16 (escapeQuotes s) = isValidUtf16 s := by
  induction s using isValidUtf16.induct with
  | case1 => rfl
  | case2 c hHigh d s ih =>
    have hc : c ≠ 0x22 := by
      rintro rfl
      cases hHigh
    rw [escapeQuotes_cons, escapeQuotes_cons, if_neg hc, isValidUtf16_cons_high hHigh]
    by_cases hd : d = 0x22
    · subst hd
      change isValidUtf16 (c :: 0x5C :: 0x22 :: escapeQuotes s) = _
      rw [isValidUtf16_cons_high hHigh]
      rfl
    · rw [if_neg hd, ← ih]
      exact isValidUtf16_cons_high hHigh _
  | case3 c hHigh =>
    have hc : c ≠ 0x22 := by
      rintro rfl
      cases hHigh
    rw [escapeQuotes_cons, if_neg hc]
    rfl
  | case4 c s hHigh ih =>
    rw [escapeQuotes_cons, isValidUtf16_cons (by simpa using hHigh), ← ih]
    by_cases hc : c = 0x22
    · subst hc
      rw [if_pos rfl]
      change isValidUtf16 (0x5C :: 0x22 :: escapeQuotes s) = _
      rw [isValidUtf16_cons rfl, isValidUtf16_cons rfl]
      rfl
    · rw [if_neg hc]
      exact isValidUtf16_cons (by simpa using hHigh) _

theorem matches_symbol {w : QString} (h : (Regex.char (· ∈ lit "()")).Matches w ∨
    (Regex.char (· ∈ lit "{},")).Matches w) : ∃ c ∈ lit "(){},", w = [c] := by
  have hSymbols : ∀ c, c ∈ lit "()" ∨ c ∈ lit "{}," → c ∈ lit "(){}," := by
    intro c hc
    have hSplit : lit "(){}," = lit "()" ++ lit "{}," := by decide
    rw [hSplit, List.mem_append]
    exact hc
  rcases h with h | h
  · obtain ⟨c, rfl, hc⟩ := Regex.matches_char.mp h
    exact ⟨c, hSymbols c (.inl (of_decide_eq_true hc)), rfl⟩
  · obtain ⟨c, rfl, hc⟩ := Regex.matches_char.mp h
    exact ⟨c, hSymbols c (.inr (of_decide_eq_true hc)), rfl⟩

inductive IsPlainToken (w : QString) : Prop
  | word : w ≠ [] → (∀ c ∈ w, isWordChar c = true) → IsPlainToken w
  | operators : w ≠ [] → (∀ c ∈ w, isOperatorChar c = true) → IsPlainToken w
  | symbol : (∃ c ∈ lit "(){},", w = [c]) → IsPlainToken w

theorem IsPlainToken.ne_nil {w : QString} (h : IsPlainToken w) : w ≠ [] := by
  cases h with
  | word hNonempty hWord => exact hNonempty
  | operators hNonempty hChars => exact hNonempty
  | symbol hSymbol =>
    obtain ⟨c, -, rfl⟩ := hSymbol
    nofun

theorem IsPlainToken.no_quote {w : QString} (h : IsPlainToken w) : 0x22 ∉ w := by
  intro hQuote
  cases h with
  | word hNonempty hWord => exact absurd (hWord _ hQuote) (by decide)
  | operators hNonempty hChars => exact absurd (hChars _ hQuote) (by decide)
  | symbol hSymbol =>
    obtain ⟨c, hc, rfl⟩ := hSymbol
    obtain rfl := List.mem_singleton.mp hQuote
    exact absurd hc (by decide)

def literalText (start raw : QString) : QString := start ++ 0x22 :: (raw ++ [0x22])

theorem token_cases {w rest : QString} (h : TOKEN_REGEX.matchEnd (w ++ rest) = some rest) :
    (∃ start ∈ literalPrefixes, ∃ raw, w = literalText start raw ∧
      closing (raw ++ 0x22 :: rest) = some rest) ∨ IsPlainToken w := by
  rw [matchEnd_TOKEN_REGEX] at h
  cases hLiteral : (Regex.seq literalStartRegex literalBodyRegex).matchEnd (w ++ rest) with
  | some t =>
    rw [hLiteral] at h
    obtain rfl := Option.some.inj h
    left
    have hEnds : literalStartRegex.ends (w ++ t) ≠ [] := by
      intro hNil
      rw [Regex.matchEnd_seq_of_ends_nil hNil] at hLiteral
      cases hLiteral
    obtain ⟨y, hy⟩ := List.exists_mem_of_ne_nil _ hEnds
    obtain ⟨v, hText, hMatches⟩ := Regex.matches_of_mem_ends _ _ y hy
    obtain ⟨start, hStart, rfl⟩ := matches_literalStartRegex.mp hMatches
    rw [List.append_assoc, List.singleton_append] at hText
    rw [hText, Regex.matchEnd_seq_of_ends (ends_literalStartRegex hStart y),
      matchEnd_literalBodyRegex] at hLiteral
    obtain ⟨raw, rfl, -⟩ := exists_of_closing hLiteral
    refine ⟨start, hStart, raw, List.append_cancel_right (hText.trans ?_), hLiteral⟩
    simp [literalText]
  | none =>
    rw [hLiteral, Option.none_or] at h
    right
    have hMatches {r : Regex QChar} (hEnd : r.matchEnd (w ++ rest) = some rest) : r.Matches w := by
      obtain ⟨v, hText, hv⟩ := Regex.matches_of_matchEnd hEnd
      rwa [List.append_cancel_right hText]
    rcases Option.or_eq_some_iff.mp h with hWord | ⟨-, h⟩
    · have hRound (v : QString) (hv : (Regex.char isWordChar).Matches v) :
          v ≠ [] ∧ ∀ c ∈ v, isWordChar c = true := by
        obtain ⟨d, rfl, hd⟩ := Regex.matches_char.mp hv
        exact ⟨nofun, fun c hc => by rwa [List.mem_singleton.mp hc]⟩
      exact .word (Regex.ne_nil_of_matches_plus (fun v hv => (hRound v hv).1) (hMatches hWord))
        (Regex.forall_of_matches_plus (fun v hv => (hRound v hv).2) (hMatches hWord))
    · rcases Option.or_eq_some_iff.mp h with hOperators | ⟨-, h⟩
      · exact .operators
          (Regex.ne_nil_of_matches_plus (fun v hv => (matches_operatorRegex hv).1) (hMatches hOperators))
          (Regex.forall_of_matches_plus (fun v hv => (matches_operatorRegex hv).2)
            (hMatches hOperators))
      · rcases Option.or_eq_some_iff.mp h with hSymbol | ⟨-, hSymbol⟩
        · exact .symbol (matches_symbol (.inl (hMatches hSymbol)))
        · exact .symbol (matches_symbol (.inr (hMatches hSymbol)))

theorem length_lt_of_matchEnd {s t : QString} (h : TOKEN_REGEX.matchEnd s = some t) :
    t.length < s.length := by
  obtain ⟨w, rfl, -⟩ := Regex.matches_of_matchEnd h
  have hNonempty : w ≠ [] := by
    rcases token_cases h with ⟨start, -, raw, rfl, -⟩ | hPlain
    · simp [literalText]
    · exact hPlain.ne_nil
  have hPositive := List.length_pos_of_ne_nil hNonempty
  rw [List.length_append]
  omega

def literalOf (token : Token) : Option QString :=
  match token.type with
  | .STRING => some (literalValue 1 token.text)
  | .REGULAR_EXPRESSION =>
    some (literalValue (if token.isCaseInsensitiveRegex then 3 else 2) token.text)
  | _ => none

theorem getLast?_literalText (start raw : QString) : (literalText start raw).getLast? = some 0x22 := by
  rw [literalText, ← List.cons_append, ← List.append_assoc]
  exact List.getLast?_concat

theorem tokenize_literalText {start : QString} (hStart : start ∈ literalPrefixes) (raw : QString) :
    tokenize (literalText start raw) = if start = [] then .STRING else .REGULAR_EXPRESSION := by
  have hFixed : ∀ entry ∈ fixedTokens, entry.1.getLast? ≠ some 0x22 := by decide
  have hNone : fixedTokens.lookup (literalText start raw) = none := by
    rw [List.lookup_eq_none_iff]
    intro entry hEntry
    rw [bne_iff_ne]
    intro hEq
    exact hFixed entry hEntry (hEq ▸ getLast?_literalText start raw)
  have hLast := getLast?_literalText start raw
  simp only [tokenize, hNone, hLast]
  simp only [literalPrefixes, List.mem_cons, List.not_mem_nil, or_false] at hStart
  rcases hStart with rfl | rfl | rfl <;> rfl

theorem literalOf_literalText {start : QString} (hStart : start ∈ literalPrefixes) (raw : QString) :
    literalOf ⟨literalText start raw, tokenize (literalText start raw)⟩ = some (unescapeQuotes raw) := by
  rw [tokenize_literalText hStart]
  simp only [literalPrefixes, List.mem_cons, List.not_mem_nil, or_false] at hStart
  rcases hStart with rfl | rfl | rfl <;>
    simp [literalOf, literalText, literalValue, Token.isCaseInsensitiveRegex, lit]

theorem literalOf_of_no_quote {w : QString} (h : 0x22 ∉ w) : literalOf ⟨w, tokenize w⟩ = none := by
  have hLast : w.getLast? ≠ some 0x22 := fun hLast => h (List.mem_of_getLast? hLast)
  have hFixed : ∀ entry ∈ fixedTokens, entry.2 ≠ .STRING ∧ entry.2 ≠ .REGULAR_EXPRESSION := by decide
  have hType : tokenize w ≠ .STRING ∧ tokenize w ≠ .REGULAR_EXPRESSION := by
    unfold tokenize
    split
    · rename_i type hLookup
      obtain ⟨before, after, hEntries, -⟩ := List.lookup_eq_some_iff.mp hLookup
      exact hFixed (w, type) (by rw [hEntries]; simp)
    · simp only [beq_iff_eq, hLast, Bool.and_eq_true, and_false, if_false]
      split
      · exact ⟨nofun, nofun⟩
      · split
        · exact ⟨nofun, nofun⟩
        · exact ⟨nofun, nofun⟩
  unfold literalOf
  split
  · exact absurd ‹_› hType.1
  · exact absurd ‹_› hType.2
  · rfl

def matchedLiterals (s : QString) : List QString :=
  (TOKEN_REGEX.globalMatch s).filterMap fun w => literalOf ⟨w, tokenize w⟩

theorem filterMap_literalOf_tokensOf {s : QString} (h : isValidUtf16 s = true) :
    (tokensOf s).filterMap literalOf = matchedLiterals s := by
  rw [tokensOf, if_pos h, List.filterMap_map]
  rfl

theorem matchedLiterals_eq_nil {s : QString} (h : s.count 0x22 ≤ 1) : matchedLiterals s = [] := by
  rw [matchedLiterals, List.filterMap_eq_nil_iff]
  intro w hw
  obtain ⟨before, after, rfl, hMatch⟩ :=
    Regex.exists_of_mem_globalMatch (fun _ _ => length_lt_of_matchEnd) hw
  rcases token_cases hMatch with ⟨start, -, raw, rfl, -⟩ | hPlain
  · simp only [literalText, List.count_append, List.count_cons_self] at h
    omega
  · exact literalOf_of_no_quote hPlain.no_quote

theorem getLast?_escapeQuotes {v : QString} (h : v.getLast? = some 0x5C) :
    (escapeQuotes v).getLast? = some 0x5C := by
  obtain ⟨v, rfl⟩ := List.getLast?_eq_some_iff.mp h
  rw [escapeQuotes, List.flatMap_append]
  exact List.getLast?_concat

theorem matchedLiterals_dropLast (s : QString) :
    ∀ v ∈ (matchedLiterals s).dropLast, v.getLast? ≠ some 0x5C := by
  unfold matchedLiterals
  refine Regex.globalMatch_induction (fun _ _ => length_lt_of_matchEnd) (motive := fun _ matched =>
    ∀ v ∈ (matched.filterMap fun w => literalOf ⟨w, tokenize w⟩).dropLast, v.getLast? ≠ some 0x5C)
    nofun (fun _ _ _ ih => ih) ?_ s
  intro w s hWord hMatch ih
  rcases token_cases hMatch with ⟨start, hStart, raw, rfl, hClosing⟩ | hPlain
  · rw [List.filterMap_cons, literalOf_literalText hStart]
    cases hRest : (TOKEN_REGEX.globalMatch s).filterMap fun w => literalOf ⟨w, tokenize w⟩ with
    | nil => exact nofun
    | cons u us =>
      intro v hv hLast
      rw [List.dropLast_cons_cons] at hv
      rcases List.mem_cons.mp hv with rfl | hv
      · obtain ⟨raw', hText, hEscape, hSlash⟩ := exists_of_closing hClosing
        obtain rfl : raw = raw' := List.append_cancel_right hText
        have hNoQuote : 0x22 ∉ s := hSlash (hEscape ▸ getLast?_escapeQuotes hLast)
        have hNil : matchedLiterals s = [] :=
          matchedLiterals_eq_nil (by rw [List.count_eq_zero_of_not_mem hNoQuote]; omega)
        cases hNil.symm.trans hRest
      · exact ih v (hRest ▸ hv) hLast
  · rw [List.filterMap_cons, literalOf_of_no_quote hPlain.no_quote]
    exact ih

theorem isValidUtf16_of_mem_matchedLiterals {s v : QString} (h : isValidUtf16 s = true)
    (hv : v ∈ matchedLiterals s) : isValidUtf16 v = true := by
  obtain ⟨w, hw, hLiteral⟩ := List.mem_filterMap.mp hv
  obtain ⟨before, after, rfl, hMatch⟩ :=
    Regex.exists_of_mem_globalMatch (fun _ _ => length_lt_of_matchEnd) hw
  rcases token_cases hMatch with ⟨start, hStart, raw, rfl, hClosing⟩ | hPlain
  · rw [literalOf_literalText hStart] at hLiteral
    obtain rfl := Option.some.inj hLiteral
    obtain ⟨raw', hText, hEscape, -⟩ := exists_of_closing hClosing
    obtain rfl : raw = raw' := List.append_cancel_right hText
    rw [← isValidUtf16_escapeQuotes, hEscape]
    have hSplit : before ++ (literalText start raw ++ after) =
        (before ++ start) ++ 0x22 :: (raw ++ 0x22 :: after) := by simp [literalText]
    rw [hSplit] at h
    exact (isValidUtf16_of_append_quote (isValidUtf16_of_append_quote h).2).1
  · rw [literalOf_of_no_quote hPlain.no_quote] at hLiteral
    cases hLiteral

structure WellFormedToken (token : Token) : Prop where
  int : token.type = .INT → ∃ n, token.text.toInt = some n ∧ 0 ≤ n
  identifier : token.type = .IDENTIFIER → token.text ∈ validIdentifiers
  literal : ∀ v, literalOf token = some v → isValidUtf16 v = true

theorem IsPlainToken.unsigned {w : QString} (h : IsPlainToken w) :
    0x2D ∈ w → ∀ c ∈ w, digitValue c = none := by
  intro hMinus c hc
  cases h with
  | word hNonempty hWord => exact absurd (hWord _ hMinus) (by decide)
  | operators hNonempty hChars =>
    have hOperators : ∀ c ∈ lit "<>=!|&+-*/%", digitValue c = none := by decide
    exact hOperators c (of_decide_eq_true (hChars c hc))
  | symbol hSymbol =>
    obtain ⟨d, hd, rfl⟩ := hSymbol
    obtain rfl := List.mem_singleton.mp hMinus
    exact absurd hd (by decide)

theorem tokenize_word (w : QString) :
    (tokenize w = .INT → ∃ n, w.toInt = some n) ∧ (tokenize w = .IDENTIFIER → w ∈ validIdentifiers) := by
  have hFixed : ∀ entry ∈ fixedTokens, entry.2 ≠ .INT ∧ entry.2 ≠ .IDENTIFIER := by decide
  unfold tokenize
  split
  · rename_i type hLookup
    obtain ⟨before, after, hEntries, -⟩ := List.lookup_eq_some_iff.mp hLookup
    have hNot := hFixed (w, type) (by rw [hEntries]; simp)
    exact ⟨fun hInt => absurd hInt hNot.1, fun hId => absurd hId hNot.2⟩
  · split
    · exact ⟨nofun, nofun⟩
    · split
      · exact ⟨nofun, nofun⟩
      · split
        · rename_i hValid
          exact ⟨nofun, fun _ => hValid⟩
        · split
          · rename_i hInt
            exact ⟨fun _ => Option.isSome_iff_exists.mp hInt, nofun⟩
          · exact ⟨nofun, nofun⟩

theorem wellFormedToken_of_mem_tokensOf {s : QString} {token : Token} (h : token ∈ tokensOf s) :
    WellFormedToken token := by
  unfold tokensOf at h
  split at h
  · rename_i hValid
    obtain ⟨w, hw, rfl⟩ := List.mem_map.mp h
    refine ⟨fun hInt => ?_, fun hId => ?_, fun v hv => ?_⟩
    · obtain ⟨n, hn⟩ := (tokenize_word w).1 hInt
      refine ⟨n, hn, nonneg_of_toInt hn ?_⟩
      obtain ⟨before, after, rfl, hMatch⟩ :=
        Regex.exists_of_mem_globalMatch (fun _ _ => length_lt_of_matchEnd) hw
      rcases token_cases hMatch with ⟨start, hStart, raw, rfl, -⟩ | hPlain
      · rw [tokenize_literalText hStart] at hInt
        split at hInt <;> cases hInt
      · exact hPlain.unsigned
    · exact (tokenize_word w).2 hId
    · exact isValidUtf16_of_mem_matchedLiterals hValid (List.mem_filterMap.mpr ⟨w, hw, hv⟩)
  · cases h

end Chatterino.Filters
