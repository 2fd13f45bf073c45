import Chatterino.Filters.Expression
import Chatterino.Lib.Regex

/-! # Splitting the text of a filter into tokens

Text that no token matches is passed over. Without a Unicode option `\w` is ASCII only, and a text
that is no valid UTF-16 has no matches.
-/

namespace Chatterino.Filters

open Lib

def isHighSurrogate (c : QChar) : Bool := 0xD800 ≤ c && c ≤ 0xDBFF

def isLowSurrogate (c : QChar) : Bool := 0xDC00 ≤ c && c ≤ 0xDFFF

/-- The surrogates of the text come in pairs. -/
def isValidUtf16 : QString → Bool
  | [] => true
  | c :: s =>
    if isHighSurrogate c then
      match s with
      | d :: s => isLowSurrogate d && isValidUtf16 s
      | [] => false
    else !isLowSurrogate c && isValidUtf16 s

/-- `[\w\.]` -/
def isWordChar (c : QChar) : Bool :=
  (0x30 ≤ c && c ≤ 0x39) || (0x41 ≤ c && c ≤ 0x5A) || (0x61 ≤ c && c ≤ 0x7A) || c == 0x5F || c == 0x2E

def quoteRegex : Regex QChar := .char (· = 0x22)

/-- `((\\")|[^"])*"` -/
def literalBodyRegex : Regex QChar :=
  .seq (.star (.alt (.word (QString.lit "\\\"")) (.char (· ≠ 0x22)))) quoteRegex

/-- `((r|ri)?")` -/
def literalStartRegex : Regex QChar :=
  .seq (.opt (.alt (.word (QString.lit "r")) (.word (QString.lit "ri")))) quoteRegex

def operatorRegex : Regex QChar :=
  .alts [.seq (.word (QString.lit "<")) (.opt (.word (QString.lit "="))),
    .seq (.word (QString.lit ">")) (.opt (.word (QString.lit "="))),
    .seq (.word (QString.lit "!")) (.opt (.word (QString.lit "="))), .word (QString.lit "=="), .word (QString.lit "||"),
    .word (QString.lit "&&"), .word (QString.lit "+"), .word (QString.lit "-"), .word (QString.lit "*"), .word (QString.lit "/"),
    .word (QString.lit "%")]

def TOKEN_REGEX : Regex QChar :=
  .alts [.seq literalStartRegex literalBodyRegex, .plus (.char isWordChar), .plus operatorRegex,
    .char (· ∈ QString.lit "()"), .char (· ∈ QString.lit "{},")]

/-- The keys of `VALID_IDENTIFIERS_MAP`. -/
def validIdentifiers : List QString :=
  ["author.badges", "author.color", "author.name", "author.user_id", "author.no_color",
    "author.subbed", "author.sub_length", "channel.name", "channel.watching", "channel.live",
    "flags.action", "flags.highlighted", "flags.points_redeemed", "flags.sub_message",
    "flags.system_message", "flags.reward_message", "flags.first_message", "flags.elevated_message",
    "flags.hype_chat", "flags.cheer_message", "flags.whisper", "flags.reply", "flags.automod",
    "flags.restricted", "flags.monitored", "flags.shared", "flags.similar", "message.content",
    "message.length", "reward.title", "reward.cost", "reward.id"].map QString.lit

/-- The tokens with a text of their own. -/
def fixedTokens : List (QString × TokenType) :=
  [(.lit "&&", .AND), (.lit "||", .OR), (.lit "(", .LP), (.lit ")", .RP), (.lit "\x7b", .LIST_START),
    (.lit "\x7d", .LIST_END), (.lit ",", .COMMA), (.lit "+", .PLUS), (.lit "-", .MINUS),
    (.lit "*", .MULTIPLY), (.lit "/", .DIVIDE), (.lit "==", .EQ), (.lit "!=", .NEQ),
    (.lit "%", .MOD), (.lit "<", .LT), (.lit ">", .GT), (.lit "<=", .LTE), (.lit ">=", .GTE),
    (.lit "contains", .CONTAINS), (.lit "startswith", .STARTS_WITH), (.lit "endswith", .ENDS_WITH),
    (.lit "match", .MATCH), (.lit "!", .NOT)]

def tokenize (text : QString) : TokenType :=
  match fixedTokens.lookup text with
  | some type => type
  | none =>
    if ((QString.lit "r\"").isPrefixOf text || (QString.lit "ri\"").isPrefixOf text) &&
        text.getLast? == some 0x22 then .REGULAR_EXPRESSION
    else if text.head? == some 0x22 && text.getLast? == some 0x22 then .STRING
    else if text ∈ validIdentifiers then .IDENTIFIER
    else if text.toInt.isSome then .INT
    else .NONE

/-- `Tokenizer(text)` -/
def tokensOf (text : QString) : List Token :=
  if isValidUtf16 text then
    (Regex.globalMatch TOKEN_REGEX text).map fun text => ⟨text, tokenize text⟩
  else []

open QString

/-- What is left after a literal whose opening quote has been read. -/
def closing : QString → Option QString
  | [] => none
  | [c] => if c = 0x22 then some [] else none
  | c :: d :: s =>
    if c = 0x22 then some (d :: s)
    else if c = 0x5C ∧ d = 0x22 then (closing s).or (some s)
    else closing (d :: s)

/-- `(\\")|[^"]`. -/
def literalCharRegex : Regex QChar := .alt (.word (lit "\\\"")) (.char (· ≠ 0x22))

theorem matchEnd_quoteRegex_cons (c : QChar) (s : QString) :
    quoteRegex.matchEnd (c :: s) = if c = 0x22 then some s else none := by
  by_cases h : c = 0x22 <;> simp [Regex.matchEnd, quoteRegex, h]

theorem ends_literalCharRegex_cons (c d : QChar) (s : QString) :
    literalCharRegex.ends (c :: d :: s) = (if c = 0x5C ∧ d = 0x22 then [s] else []) ++
      (if c = 0x22 then [] else [d :: s]) := by
  have hWord : (Regex.word (lit "\\\"")).ends (c :: d :: s) =
      if c = 0x5C ∧ d = 0x22 then [s] else [] := by
    by_cases hSlash : c = 0x5C <;> by_cases hQuote : d = 0x22 <;>
      simp [lit, Regex.ends_seq, hSlash, hQuote]
  rw [literalCharRegex, Regex.ends_alt, hWord]
  by_cases h : c = 0x22 <;> simp [h]

theorem findSome?_starEnds_literalCharRegex {n : Nat} {s : QString} (hFuel : s.length ≤ n) :
    (Regex.starEnds literalCharRegex.ends n s).findSome? quoteRegex.matchEnd = closing s := by
  induction n generalizing s with
  | zero =>
    obtain rfl : s = [] := by simpa using hFuel
    rfl
  | succ n ih =>
    rw [Regex.starEnds_findSome?]
    match s with
    | [] => rfl
    | [c] =>
      by_cases h : c = 0x22
      · subst h
        rfl
      · have hEnds : literalCharRegex.ends [c] = [[]] := by
          by_cases hSlash : c = 0x5C <;>
            simp [literalCharRegex, Regex.ends_alt, Regex.ends_seq, lit, h, hSlash]
        have hNil : (Regex.starEnds literalCharRegex.ends n []).findSome? quoteRegex.matchEnd = none :=
          ih (by simp)
        rw [hEnds, matchEnd_quoteRegex_cons, if_neg h, closing, if_neg h]
        simpa using hNil
    | c :: d :: s =>
      simp only [List.length_cons] at hFuel
      have hTail : (Regex.starEnds literalCharRegex.ends n s).findSome? quoteRegex.matchEnd = closing s :=
        ih (by omega)
      have hRest : (Regex.starEnds literalCharRegex.ends n (d :: s)).findSome? quoteRegex.matchEnd =
          closing (d :: s) := ih (by simp only [List.length_cons]; omega)
      rw [ends_literalCharRegex_cons, matchEnd_quoteRegex_cons, closing]
      by_cases hQuote : c = 0x22
      · subst hQuote
        simp
      · by_cases hEscape : c = 0x5C ∧ d = 0x22
        · simp only [if_neg hQuote, if_pos hEscape]
          obtain ⟨rfl, rfl⟩ := hEscape
          have hBack : closing (0x22 :: s) = some s := by cases s <;> rfl
          have hShorter : ([s, 0x22 :: s].filter fun t => t.length < (0x5C :: 0x22 :: s).length) =
              [s, 0x22 :: s] := by
            rw [List.filter_eq_self]
            intro t ht
            rcases List.mem_pair.mp ht with rfl | rfl <;> simp only [List.length_cons, decide_eq_true_eq] <;>
              omega
          simp only [List.cons_append, List.nil_append, hShorter, List.findSome?_cons, hTail, hRest, hBack]
          cases closing s <;> rfl
        · simp [hQuote, hEscape, hRest, List.findSome?_cons]
          cases closing (d :: s) <;> rfl

theorem matchEnd_literalBodyRegex (s : QString) : literalBodyRegex.matchEnd s = closing s := by
  rw [literalBodyRegex, Regex.matchEnd_seq, Regex.ends_star]
  exact findSome?_starEnds_literalCharRegex le_rfl

def literalPrefixes : List QString := [[], lit "r", lit "ri"]

theorem ends_literalStartRegex {start : QString} (h : start ∈ literalPrefixes) (s : QString) :
    literalStartRegex.ends (start ++ 0x22 :: s) = [s] := by
  simp only [literalPrefixes, List.mem_cons, List.not_mem_nil, or_false] at h
  rcases h with rfl | rfl | rfl <;>
    simp [literalStartRegex, Regex.opt, Regex.ends_alt, Regex.ends_seq, lit, quoteRegex]

theorem matches_literalStartRegex {w : QString} :
    literalStartRegex.Matches w ↔ ∃ start ∈ literalPrefixes, w = start ++ [0x22] := by
  simp only [literalStartRegex, Regex.opt, quoteRegex, Regex.matches_seq, Regex.matches_alt,
    Regex.matches_word, Regex.matches_empty, Regex.matches_char, decide_eq_true_eq]
  constructor
  · rintro ⟨start, _, rfl, hStart, _, rfl, rfl⟩
    exact ⟨start, by rcases hStart with (rfl | rfl) | rfl <;> simp [literalPrefixes], rfl⟩
  · rintro ⟨start, hStart, rfl⟩
    refine ⟨start, _, rfl, ?_, _, rfl, rfl⟩
    simp only [literalPrefixes, List.mem_cons, List.not_mem_nil, or_false] at hStart
    rcases hStart with rfl | rfl | rfl <;> simp

theorem ends_literalStartRegex_nil {s : QString}
    (h : ∀ start ∈ literalPrefixes, ¬(start ++ [0x22]) <+: s) : literalStartRegex.ends s = [] := by
  by_contra hEnds
  obtain ⟨t, ht⟩ := List.exists_mem_of_ne_nil _ hEnds
  obtain ⟨w, rfl, hMatches⟩ := Regex.matches_of_mem_ends _ _ t ht
  obtain ⟨start, hStart, rfl⟩ := matches_literalStartRegex.mp hMatches
  exact h start hStart (List.prefix_append _ _)

theorem matchEnd_TOKEN_REGEX (s : QString) :
    TOKEN_REGEX.matchEnd s =
      ((Regex.seq literalStartRegex literalBodyRegex).matchEnd s).or
        ((Regex.plus (.char isWordChar)).matchEnd s |>.or
          ((Regex.plus operatorRegex).matchEnd s |>.or
            ((Regex.char (· ∈ lit "()")).matchEnd s |>.or
              ((Regex.char (· ∈ lit "{},")).matchEnd s)))) := by
  simp [TOKEN_REGEX]

theorem matchEnd_TOKEN_REGEX_literal {start s rest : QString} (h : start ∈ literalPrefixes)
    (hClosing : closing s = some rest) : TOKEN_REGEX.matchEnd (start ++ 0x22 :: s) = some rest := by
  rw [matchEnd_TOKEN_REGEX, Regex.matchEnd_seq_of_ends (ends_literalStartRegex h s),
    matchEnd_literalBodyRegex, hClosing]
  rfl

theorem matchEnd_TOKEN_REGEX_of_no_literal {s : QString}
    (h : ∀ start ∈ literalPrefixes, ¬(start ++ [0x22]) <+: s) :
    TOKEN_REGEX.matchEnd s = ((Regex.plus (.char isWordChar)).matchEnd s).or
      ((Regex.plus operatorRegex).matchEnd s |>.or
        ((Regex.char (· ∈ lit "()")).matchEnd s |>.or ((Regex.char (· ∈ lit "{},")).matchEnd s))) := by
  rw [matchEnd_TOKEN_REGEX, Regex.matchEnd_seq_of_ends_nil (ends_literalStartRegex_nil h)]
  rfl

theorem not_literal_of_head {c : QChar} {s : QString} (hQuote : c ≠ 0x22) (hPrefix : c ≠ 0x72) :
    ∀ start ∈ literalPrefixes, ¬(start ++ [0x22]) <+: c :: s := by
  intro start hStart hStarts
  simp only [literalPrefixes, List.mem_cons, List.not_mem_nil, or_false] at hStart
  rcases hStart with rfl | rfl | rfl
  · exact hQuote (List.cons_prefix_cons.mp hStarts).1.symm
  · exact hPrefix (List.cons_prefix_cons.mp hStarts).1.symm
  · exact hPrefix (List.cons_prefix_cons.mp hStarts).1.symm

theorem matchEnd_plus_nil {p : QChar → Bool} {c : QChar} {s : QString} (h : p c = false) :
    (Regex.plus (.char p)).matchEnd (c :: s) = none :=
  Regex.matchEnd_seq_of_ends_nil (by simp [h])

theorem matchEnd_TOKEN_REGEX_word {w rest : QString} (hWord : ∀ c ∈ w, isWordChar c = true)
    (hNonempty : w ≠ []) (hRest : ∀ c ∈ rest.head?, isWordChar c = false ∧ c ≠ 0x22) :
    TOKEN_REGEX.matchEnd (w ++ rest) = some rest := by
  have hPrefixes : ∀ start ∈ literalPrefixes, ∀ c ∈ start, isWordChar c = true := by decide
  have hQuote : (0x22 : QChar) ∉ w := fun h => absurd (hWord _ h) (by decide)
  have hNoLiteral : ∀ start ∈ literalPrefixes, ¬(start ++ [0x22]) <+: w ++ rest := by
    intro start hStart hStarts
    rcases List.prefix_or_prefix_of_prefix hStarts (List.prefix_append w rest) with h | h
    · exact hQuote (h.subset (by simp))
    · rcases List.prefix_concat_iff.mp h with rfl | ⟨x, rfl⟩
      · exact hQuote (by simp)
      · rw [List.append_assoc, List.prefix_append_right_inj] at hStarts
        obtain ⟨y, rfl⟩ := hStarts
        cases x with
        | nil => exact (hRest 0x22 rfl).2 rfl
        | cons c x =>
          have hHead := (hRest c rfl).1
          rw [hPrefixes _ hStart c (by simp)] at hHead
          cases hHead
  rw [matchEnd_TOKEN_REGEX_of_no_literal hNoLiteral,
    Regex.matchEnd_plus_char hWord hNonempty fun c hc => (hRest c hc).1]
  rfl

def isOperatorChar (c : QChar) : Bool := c ∈ lit "<>=!|&+-*/%"

def operatorTexts : List QString :=
  ["<", "<=", ">", ">=", "!", "!=", "==", "||", "&&", "+", "-", "*", "/", "%"].map lit

theorem mem_operatorTexts {w : QString} (h : operatorRegex.Matches w) : w ∈ operatorTexts := by
  simp only [operatorRegex, Regex.alts_cons_cons, Regex.alts_singleton, Regex.opt, Regex.matches_alt, Regex.matches_seq,
    Regex.matches_word, Regex.matches_empty] at h
  rcases h with ⟨_, _, rfl, rfl, rfl | rfl⟩ | ⟨_, _, rfl, rfl, rfl | rfl⟩ |
    ⟨_, _, rfl, rfl, rfl | rfl⟩ | rfl | rfl | rfl | rfl | rfl | rfl | rfl | rfl <;> decide

theorem matches_operatorRegex {w : QString} (h : operatorRegex.Matches w) :
    w ≠ [] ∧ ∀ c ∈ w, isOperatorChar c = true := by
  have hAll : ∀ w ∈ operatorTexts, w ≠ [] ∧ ∀ c ∈ w, isOperatorChar c = true := by decide
  exact hAll w (mem_operatorTexts h)

theorem ends_operatorRegex_nil {s : QString} (h : ∀ c ∈ s.head?, isOperatorChar c = false) :
    operatorRegex.ends s = [] := by
  by_contra hEnds
  obtain ⟨t, ht⟩ := List.exists_mem_of_ne_nil _ hEnds
  obtain ⟨w, rfl, hMatches⟩ := Regex.matches_of_mem_ends _ _ t ht
  obtain ⟨hNonempty, hChars⟩ := matches_operatorRegex hMatches
  cases w with
  | nil => exact hNonempty rfl
  | cons c w => exact absurd (h c rfl) (by simp [hChars c List.mem_cons_self])

theorem matchEnd_opt_equals {rest : QString} (hRest : ∀ c ∈ rest.head?, isOperatorChar c = false) :
    (Regex.opt (.word (lit "="))).matchEnd rest = some rest := by
  have hEqual : (Regex.word (lit "=")).ends rest = [] := by
    cases rest with
    | nil => rfl
    | cons c rest =>
      have hChar : c ≠ 0x3D := by
        rintro rfl
        exact absurd (hRest _ rfl) (by decide)
      simp [lit, hChar]
  rw [Regex.opt, Regex.matchEnd_alt, Regex.matchEnd, hEqual]
  rfl

theorem matchEnd_operatorRegex {t rest : QString} (h : t ∈ operatorTexts)
    (hRest : ∀ c ∈ rest.head?, isOperatorChar c = false) :
    operatorRegex.matchEnd (t ++ rest) = some rest := by
  have hContinued (c : QChar) : (Regex.seq (.word [c]) (.opt (.word (lit "=")))).matchEnd (c :: rest) =
      some rest := by
    have hFirst : (Regex.word [c]).ends (c :: rest) = [rest] := by simp
    rw [Regex.matchEnd_seq_of_ends hFirst, matchEnd_opt_equals hRest]
  have hLess : (Regex.seq (.word (lit "<")) (.opt (.word (lit "=")))).matchEnd (lit "<" ++ rest) =
      some rest := hContinued 0x3C
  have hGreater : (Regex.seq (.word (lit ">")) (.opt (.word (lit "=")))).matchEnd (lit ">" ++ rest) =
      some rest := hContinued 0x3E
  have hNot : (Regex.seq (.word (lit "!")) (.opt (.word (lit "=")))).matchEnd (lit "!" ++ rest) =
      some rest := hContinued 0x21
  simp only [operatorTexts, List.map_cons, List.map_nil, List.mem_cons, List.not_mem_nil, or_false] at h
  rcases h with rfl | rfl | rfl | rfl | rfl | rfl | rfl | rfl | rfl | rfl | rfl | rfl | rfl | rfl
  case inl =>
    simp only [operatorRegex, Regex.alts_cons_cons, Regex.alts_singleton, Regex.matchEnd_alt, hLess]
    rfl
  case inr.inr.inl =>
    simp only [operatorRegex, Regex.alts_cons_cons, Regex.alts_singleton, Regex.matchEnd_alt, hGreater]
    rfl
  case inr.inr.inr.inr.inl =>
    simp only [operatorRegex, Regex.alts_cons_cons, Regex.alts_singleton, Regex.matchEnd_alt, hNot]
    rfl
  all_goals rfl

theorem matchEnd_TOKEN_REGEX_operator {t rest : QString} (h : t ∈ operatorTexts)
    (hRest : ∀ c ∈ rest.head?, isOperatorChar c = false) :
    TOKEN_REGEX.matchEnd (t ++ rest) = some rest := by
  have hHeads : ∀ t ∈ operatorTexts, ∃ c ∈ t.head?, c ≠ 0x22 ∧ c ≠ 0x72 ∧ isWordChar c = false := by
    decide
  obtain ⟨c, hHead, hQuote, hPrefix, hWord⟩ := hHeads t h
  obtain ⟨t, rfl⟩ := List.head?_eq_some_iff.mp hHead
  have hOperator : (Regex.plus operatorRegex).matchEnd (c :: (t ++ rest)) = some rest :=
    Regex.matchEnd_plus (matchEnd_operatorRegex h hRest) (ends_operatorRegex_nil hRest)
  rw [List.cons_append, matchEnd_TOKEN_REGEX_of_no_literal (not_literal_of_head hQuote hPrefix),
    matchEnd_plus_nil hWord, hOperator]
  rfl

theorem matchEnd_TOKEN_REGEX_symbol {c : QChar} (h : c ∈ lit "(){},") (rest : QString) :
    TOKEN_REGEX.matchEnd (c :: rest) = some rest := by
  have hHeads : ∀ c ∈ lit "(){},", (c ≠ 0x22 ∧ c ≠ 0x72 ∧ isWordChar c = false ∧
      isOperatorChar c = false) ∧ (c ∈ lit "()" ∨ c ∉ lit "()" ∧ c ∈ lit "{},") := by decide
  obtain ⟨⟨hQuote, hPrefix, hWord, hOperator⟩, hSymbol⟩ := hHeads c h
  have hNone : (Regex.plus operatorRegex).matchEnd (c :: rest) = none :=
    Regex.matchEnd_seq_of_ends_nil (ends_operatorRegex_nil (by simpa using hOperator))
  rw [matchEnd_TOKEN_REGEX_of_no_literal (not_literal_of_head hQuote hPrefix), matchEnd_plus_nil hWord,
    hNone]
  rcases hSymbol with hParen | ⟨hParen, hList⟩
  · simp [Regex.matchEnd, hParen]
  · simp [Regex.matchEnd, hParen, hList]

@[simp] theorem escapeQuotes_nil : escapeQuotes [] = [] := rfl

theorem escapeQuotes_cons (c : QChar) (s : QString) :
    escapeQuotes (c :: s) = (if c = 0x22 then [0x5C, 0x22] else [c]) ++ escapeQuotes s := by
  rw [escapeQuotes, List.flatMap_cons]
  rfl

theorem head?_escapeQuotes (s : QString) : (escapeQuotes s).head? ≠ some 0x22 := by
  cases s with
  | nil => nofun
  | cons c s =>
    rw [escapeQuotes_cons]
    by_cases h : c = 0x22 <;> simp [h]

theorem unescapeQuotes_cons {c : QChar} {s : QString} (h : ¬(c = 0x5C ∧ s.head? = some 0x22)) :
    unescapeQuotes (c :: s) = c :: unescapeQuotes s := by
  cases s with
  | nil => rfl
  | cons d s => rw [unescapeQuotes, if_neg (by simpa using h)]

theorem unescapeQuotes_escapeQuotes (s : QString) : unescapeQuotes (escapeQuotes s) = s := by
  induction s with
  | nil => rfl
  | cons c s ih =>
    rw [escapeQuotes_cons]
    by_cases h : c = 0x22
    · simp [h, unescapeQuotes, ih]
    · rw [if_neg h, List.singleton_append, unescapeQuotes_cons fun hHead => head?_escapeQuotes s hHead.2, ih]

theorem closing_cons {c : QChar} {s : QString} (hQuote : c ≠ 0x22)
    (hEscape : ¬(c = 0x5C ∧ s.head? = some 0x22)) : closing (c :: s) = closing s := by
  cases s with
  | nil => simp [closing, hQuote]
  | cons d s =>
    rw [closing, if_neg hQuote, if_neg (by simpa using hEscape)]

theorem closing_quote (s : QString) : closing (0x22 :: s) = some s := by
  cases s <;> rfl

theorem closing_escaped (s : QString) : closing (0x5C :: 0x22 :: s) = (closing s).or (some s) := rfl

theorem closing_eq_none {s : QString} : closing s = none ↔ 0x22 ∉ s := by
  induction s using closing.induct with
  | case1 | case2 | case4 d s => simp [closing]
  | case3 c hQuote => simp [closing, hQuote, Ne.symm hQuote]
  | case5 c d s hQuote hEscape ih => simp [closing, hEscape]
  | case6 c d s hQuote hEscape ih =>
    simp [closing, hQuote, hEscape, ih, Ne.symm hQuote]

theorem closing_escapeQuotes {v rest : QString} (h : v.getLast? = some 0x5C → 0x22 ∉ rest) :
    closing (escapeQuotes v ++ 0x22 :: rest) = some rest := by
  induction v with
  | nil => exact closing_quote rest
  | cons c v ih =>
    have hTail : v.getLast? = some 0x5C → 0x22 ∉ rest := by
      intro hLast
      exact h (by rw [List.getLast?_cons, hLast]; rfl)
    rw [escapeQuotes_cons]
    by_cases hQuote : c = 0x22
    · rw [if_pos hQuote]
      change closing (0x5C :: 0x22 :: (escapeQuotes v ++ 0x22 :: rest)) = some rest
      rw [closing_escaped, ih hTail]
      rfl
    · rw [if_neg hQuote, List.singleton_append, List.cons_append]
      cases v with
      | nil =>
        by_cases hSlash : c = 0x5C
        · subst hSlash
          have hNone : closing rest = none := closing_eq_none.mpr (h rfl)
          rw [escapeQuotes_nil, List.nil_append, closing_escaped, hNone]
          rfl
        · rw [closing_cons hQuote fun hEscape => hSlash hEscape.1]
          exact closing_quote rest
      | cons d v =>
        refine (closing_cons hQuote fun hEscape => ?_).trans (ih hTail)
        have hHead := hEscape.2
        rw [escapeQuotes_cons] at hHead
        by_cases hd : d = 0x22 <;> simp [hd] at hHead

theorem exists_of_closing {s rest : QString} (h : closing s = some rest) :
    ∃ raw, s = raw ++ 0x22 :: rest ∧ escapeQuotes (unescapeQuotes raw) = raw ∧
      (raw.getLast? = some 0x5C → 0x22 ∉ rest) := by
  induction s using closing.induct with
  | case1 => cases h
  | case2 | case4 d s =>
    obtain rfl := Option.some.inj h
    exact ⟨[], rfl, rfl, by rintro ⟨⟩⟩
  | case3 c hQuote => simp [closing, hQuote] at h
  | case5 c d s hQuote hEscape ih =>
    obtain ⟨rfl, rfl⟩ := hEscape
    rw [closing_escaped] at h
    cases hTail : closing s with
    | none =>
      rw [hTail] at h
      obtain rfl := Option.some.inj h
      exact ⟨[0x5C], rfl, rfl, fun _ => closing_eq_none.mp hTail⟩
    | some t =>
      rw [hTail] at h
      obtain rfl := Option.some.inj h
      obtain ⟨raw, rfl, hRaw, hLast⟩ := ih hTail
      refine ⟨0x5C :: 0x22 :: raw, rfl, ?_, ?_⟩
      · rw [unescapeQuotes, if_pos ⟨rfl, rfl⟩, escapeQuotes_cons, hRaw]
        rfl
      · intro h
        cases raw with
        | nil => cases h
        | cons e raw => exact hLast (by simpa using h)
  | case6 c d s hQuote hEscape ih =>
    rw [closing, if_neg hQuote, if_neg hEscape] at h
    obtain ⟨raw, hText, hRaw, hLast⟩ := ih h
    have hNoEscape : ¬(c = 0x5C ∧ raw.head? = some 0x22) := by
      rintro ⟨rfl, hHead⟩
      obtain ⟨raw, rfl⟩ := List.head?_eq_some_iff.mp hHead
      exact hEscape ⟨rfl, (List.cons.inj hText).1⟩
    refine ⟨c :: raw, by rw [hText]; rfl, ?_, ?_⟩
    · rw [unescapeQuotes_cons hNoEscape, escapeQuotes_cons, if_neg hQuote, hRaw]
      rfl
    · intro h
      cases raw with
      | nil =>
        obtain rfl := Option.some.inj h
        exact absurd ⟨rfl, (List.cons.inj hText).1⟩ hEscape
      | cons e raw => exact hLast (by simpa using h)

end Chatterino.Filters
