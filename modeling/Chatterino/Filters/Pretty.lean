import Chatterino.Filters.Items
import Chatterino.Filters.ParserCompleteness

/-! # The intended text of an expression

Its tokens derive the expression.
-/

namespace Chatterino.Filters

open Lib QString

def operatorItem (op : TokenType) : Item :=
  if binaryOpText op ∈ operatorTexts then .operator (binaryOpText op) else .word (binaryOpText op)

namespace Expression

mutual

def items : Expression → List Item
  | .binaryOperation op left right =>
    .symbol 0x28 :: (items left ++ .space :: operatorItem op :: .space :: (items right ++ [.symbol 0x29]))
  | .unaryOperation op right => .symbol 0x28 :: .operator (unaryOpText op) :: (items right ++ [.symbol 0x29])
  | .listExpression list => .symbol 0x7B :: (itemsAll true list ++ [.symbol 0x7D])
  | .regexExpression regex caseInsensitive =>
    [.literal (lit (if caseInsensitive then "ri" else "r")) regex]
  | .intValue value => [.word (number value)]
  | .stringValue value => [.literal [] value]
  | .identifier name => [.word name]

def itemsAll (first : Bool) : List Expression → List Item
  | [] => []
  | e :: list => (if first then [] else [.symbol 0x2C, .space]) ++ (items e ++ itemsAll false list)

end

end Expression

open Expression

theorem isWordChar_of_mem_validIdentifiers {name : QString} (h : name ∈ validIdentifiers) :
    name ≠ [] ∧ ∀ c ∈ name, isWordChar c = true := by
  have hAll : ∀ name ∈ validIdentifiers, name ≠ [] ∧ ∀ c ∈ name, isWordChar c = true := by
    decide
  exact hAll name h

theorem isWordChar_of_mem_number {n : Int} (h : 0 ≤ n) : ∀ c ∈ number n, isWordChar c = true := by
  intro c hc
  obtain ⟨d, hd, rfl⟩ := exists_digit_of_mem_number h hc
  interval_cases d <;> decide

theorem precedes_operatorItem {op : TokenType} (h : op.isInfix = true) :
    (operatorItem op).Precedes (some 0x20) := by
  have hTexts : op.isInfix = true → binaryOpText op ∈ operatorTexts ∨
      (binaryOpText op ∉ operatorTexts ∧ binaryOpText op ≠ [] ∧
        ∀ c ∈ binaryOpText op, isWordChar c = true) := by
    cases op <;> decide
  rcases hTexts h with hOperator | ⟨hWord, hNonempty, hChars⟩
  · rw [operatorItem, if_pos hOperator]
    exact ⟨hOperator, by decide⟩
  · rw [operatorItem, if_neg hWord]
    exact ⟨hNonempty, hChars, by decide⟩

theorem source_operatorItem (op : TokenType) : (operatorItem op).source = binaryOpText op := by
  unfold operatorItem
  split <;> rfl

theorem sourceOf_binaryOperation (op : TokenType) (left right : Expression) :
    sourceOf (items (.binaryOperation op left right)) =
      0x28 :: (sourceOf left.items ++ 0x20 :: (binaryOpText op ++
        0x20 :: (sourceOf right.items ++ [0x29]))) := by
  simp [items, source_operatorItem]

theorem sourceOf_unaryOperation (op : TokenType) (right : Expression) :
    sourceOf (items (.unaryOperation op right)) =
      0x28 :: (unaryOpText op ++ (sourceOf right.items ++ [0x29])) := by
  simp [items]

theorem sourceOf_listExpression (list : List Expression) :
    sourceOf (items (.listExpression list)) = 0x7B :: (sourceOf (itemsAll true list) ++ [0x7D]) := by
  simp [items]

theorem head?_not_operator {w : QString} (hNonempty : w ≠ []) (hWord : ∀ c ∈ w, isWordChar c = true) :
    ∃ c ∈ w.head?, isOperatorChar c = false := by
  cases w with
  | nil => exact absurd rfl hNonempty
  | cons c w =>
    refine ⟨c, rfl, ?_⟩
    by_contra hOperator
    have hNone : ∀ c ∈ lit "<>=!|&+-*/%", isWordChar c = false := by decide
    have hMem : c ∈ lit "<>=!|&+-*/%" := by simpa [isOperatorChar] using hOperator
    simp [hNone c hMem] at hWord

theorem head?_sourceOf_items {e : Expression} (h : e.WellFormed) :
    ∃ c ∈ (sourceOf e.items).head?, isOperatorChar c = false := by
  cases e with
  | binaryOperation => exact ⟨0x28, rfl, rfl⟩
  | unaryOperation => exact ⟨0x28, rfl, rfl⟩
  | listExpression => exact ⟨0x7B, rfl, rfl⟩
  | regexExpression regex caseInsensitive => cases caseInsensitive <;> exact ⟨0x72, rfl, rfl⟩
  | intValue n =>
    simp only [items, sourceOf_cons, sourceOf_nil, List.append_nil]
    exact head?_not_operator (number_ne_nil n) (isWordChar_of_mem_number h.1)
  | stringValue => exact ⟨0x22, rfl, rfl⟩
  | identifier name =>
    simp only [items, sourceOf_cons, sourceOf_nil, List.append_nil]
    obtain ⟨hNonempty, hWord⟩ := isWordChar_of_mem_validIdentifiers h
    exact head?_not_operator hNonempty hWord

def IsBoundary (c : QChar) : Prop := isWordChar c = false ∧ c ≠ 0x22

instance (c : QChar) : Decidable (IsBoundary c) := inferInstanceAs (Decidable (_ ∧ _))

theorem separated_itemsAll {list : List Expression} {first : Bool} {next : Option QChar}
    (ih : ∀ e ∈ list, e.WellFormed → ∀ {next : Option QChar}, (∀ c ∈ next, IsBoundary c) →
      Separated next e.items)
    (h : WellFormedAll list) (hNext : ∀ c ∈ next, IsBoundary c) :
    Separated next (itemsAll first list) := by
  induction list generalizing first with
  | nil => trivial
  | cons e list ihList =>
    have hTail : Separated next (itemsAll false list) :=
      ihList (fun e' he' => ih e' (List.mem_cons_of_mem e he')) h.2
    have hHead : Separated ((sourceOf (itemsAll false list)).head?.or next) e.items := by
      refine ih e List.mem_cons_self h.1 ?_
      cases list with
      | nil => exact hNext
      | cons e' list =>
        rintro c ⟨⟩
        decide
    have hBoth : Separated next (e.items ++ itemsAll false list) := separated_append.mpr ⟨hHead, hTail⟩
    rw [itemsAll]
    cases first with
    | true => exact hBoth
    | false => exact ⟨by simp only [Item.Precedes]; decide, trivial, hBoth⟩

theorem separated_items {e : Expression} (h : e.WellFormed) {next : Option QChar}
    (hNext : ∀ c ∈ next, IsBoundary c) : Separated next e.items := by
  induction e generalizing next with
  | binaryOperation op left right ihLeft ihRight =>
    obtain ⟨hInfix, hLeft, hRight⟩ := h
    have hParen : Item.Precedes next (.symbol 0x29) := by
      simp only [Item.Precedes]
      decide
    refine ⟨by simp only [Item.Precedes]; decide, separated_append.mpr ⟨?_, ?_⟩⟩
    · exact ihLeft hLeft (by rintro c ⟨⟩; decide)
    · refine ⟨trivial, ?_, trivial, separated_append.mpr ⟨?_, hParen, trivial⟩⟩
      · exact precedes_operatorItem hInfix
      · exact ihRight hRight (by rintro c ⟨⟩; decide)
  | unaryOperation op right ih =>
    obtain ⟨rfl, hRight⟩ := h
    obtain ⟨c, hHead, hOperator⟩ := head?_sourceOf_items hRight
    have hParen : Item.Precedes next (.symbol 0x29) := by
      simp only [Item.Precedes]
      decide
    refine ⟨by simp only [Item.Precedes]; decide, ⟨by decide, ?_⟩,
      separated_append.mpr ⟨ih hRight (by rintro c ⟨⟩; decide), hParen, trivial⟩⟩
    intro d hd
    rw [sourceOf_append, List.head?_append, Option.mem_def.mp hHead] at hd
    obtain rfl : c = d := Option.some.inj hd
    exact hOperator
  | listExpression list ih =>
    have hBrace : Item.Precedes next (.symbol 0x7D) := by
      simp only [Item.Precedes]
      decide
    refine ⟨by simp only [Item.Precedes]; decide, separated_append.mpr ⟨?_, hBrace, trivial⟩⟩
    exact separated_itemsAll (fun e he hWF => ih e he hWF) h (by rintro c ⟨⟩; decide)
  | regexExpression regex caseInsensitive =>
    refine ⟨?_, trivial⟩
    cases caseInsensitive <;> simp only [Item.Precedes] <;> decide
  | intValue n => exact ⟨⟨number_ne_nil n, isWordChar_of_mem_number h.1, hNext⟩, trivial⟩
  | stringValue s => exact ⟨List.mem_cons_self, trivial⟩
  | identifier name =>
    obtain ⟨hNonempty, hWord⟩ := isWordChar_of_mem_validIdentifiers h
    exact ⟨⟨hNonempty, hWord, hNext⟩, trivial⟩

theorem literals_operatorItem (op : TokenType) : (operatorItem op).literals = [] := by
  unfold operatorItem
  split <;> rfl

theorem literalsOf_itemsAll {list : List Expression} {first : Bool}
    (ih : ∀ e ∈ list, literalsOf e.items = e.literals) :
    literalsOf (itemsAll first list) = literalsAll list := by
  induction list generalizing first with
  | nil => rfl
  | cons e list ihList =>
    rw [itemsAll, literalsOf_append, literalsOf_append, ih e List.mem_cons_self,
      ihList fun e' he' => ih e' (List.mem_cons_of_mem e he')]
    cases first <;> rfl

theorem literalsOf_items (e : Expression) : literalsOf e.items = e.literals := by
  induction e with
  | binaryOperation op left right ihLeft ihRight =>
    simp only [items, literalsOf_cons, literalsOf_append, literals_operatorItem, ihLeft, ihRight]
    simp [Item.literals, Expression.literals]
  | unaryOperation op right ih =>
    simp only [items, literalsOf_cons, literalsOf_append, ih]
    simp [Item.literals, Expression.literals]
  | listExpression list ih =>
    simp only [items, literalsOf_cons, literalsOf_append, literalsOf_itemsAll ih]
    simp [Item.literals, Expression.literals]
  | regexExpression => rfl
  | intValue => rfl
  | stringValue => rfl
  | identifier => rfl

def tokensOfTexts (texts : List QString) : List Token := texts.map fun text => ⟨text, tokenize text⟩

def Expression.tokens (e : Expression) : List Token := tokensOfTexts (textsOf e.items)

theorem Derives.cond_of_value {ts : List Token} {e : Expression} (h : Derives .value ts e) :
    Derives .cond ts e := by
  simpa using Derives.cond h .operatorsNil

theorem Derives.and_of_cond {ts : List Token} {e : Expression} (h : Derives .cond ts e) :
    Derives .and ts e := by
  simpa using Derives.and (.unary h) .andsNil

theorem Derives.expr_of_and {ts : List Token} {e : Expression} (h : Derives .and ts e) :
    Derives .expr ts e := by
  simpa using Derives.expr h .orsNil

theorem Derives.expr_of_value {ts : List Token} {e : Expression} (h : Derives .value ts e) :
    Derives .expr ts e := h.cond_of_value.and_of_cond.expr_of_and

theorem derives_operation {op : Token} {ts ts' : List Token} {left right : Expression}
    (h : op.type.isInfix = true) (hLeft : Derives .value ts left) (hRight : Derives .value ts' right) :
    Derives .expr (ts ++ op :: ts') (.binaryOperation op.type left right) := by
  simp only [TokenType.isInfix, Bool.or_eq_true, beq_iff_eq] at h
  rcases h with ((hMath | hBinary) | hAnd) | hOr
  · have hOperators := Derives.mathOp (e := left) hMath hRight .operatorsNil
    rw [List.append_nil] at hOperators
    exact (Derives.cond hLeft hOperators).and_of_cond.expr_of_and
  · exact (Derives.cond hLeft (.binaryOp hBinary hRight)).and_of_cond.expr_of_and
  · have hAnds := Derives.andsCons (e := left) hAnd (.unary hRight.cond_of_value) .andsNil
    rw [List.append_nil] at hAnds
    rw [hAnd]
    exact (Derives.and (.unary hLeft.cond_of_value) hAnds).expr_of_and
  · have hOrs := Derives.orsCons (e := left) hOr hRight.cond_of_value.and_of_cond .orsNil
    rw [List.append_nil] at hOrs
    rw [hOr]
    exact Derives.expr hLeft.cond_of_value.and_of_cond hOrs

theorem tokenize_binaryOpText {op : TokenType} (h : op.isInfix = true) :
    tokenize (binaryOpText op) = op := by
  have hTypes : op.isInfix = true → tokenize (binaryOpText op) = op := by
    cases op <;> decide
  exact hTypes h

@[simp] theorem tokensOfTexts_nil : tokensOfTexts [] = [] := rfl

@[simp] theorem tokensOfTexts_cons (text : QString) (texts : List QString) :
    tokensOfTexts (text :: texts) = ⟨text, tokenize text⟩ :: tokensOfTexts texts := rfl

@[simp] theorem tokensOfTexts_append (texts texts' : List QString) :
    tokensOfTexts (texts ++ texts') = tokensOfTexts texts ++ tokensOfTexts texts' := List.map_append

theorem texts_operatorItem (op : TokenType) : (operatorItem op).texts = [binaryOpText op] := by
  unfold operatorItem
  split <;> rfl

theorem tokenize_number {n : Int} (hNonneg : 0 ≤ n) (hRange : IsInt32 n) : tokenize (number n) = .INT := by
  have hDigits (c : QChar) (hc : c ∈ number n) : digitValue c ≠ none := by
    obtain ⟨d, hd, rfl⟩ := exists_digit_of_mem_number hNonneg hc
    rw [digitValue_digitChar hd]
    nofun
  obtain ⟨c, s, hText⟩ := List.exists_cons_of_ne_nil (number_ne_nil n)
  have hHead : digitValue c ≠ none := hDigits c (by simp [hText])
  have hFixed : ∀ entry ∈ fixedTokens, ∀ c ∈ entry.1.head?, digitValue c = none := by decide
  have hIdentifiers : ∀ name ∈ validIdentifiers, ∀ c ∈ name.head?, digitValue c = none := by
    decide
  have hNone : fixedTokens.lookup (number n) = none := by
    rw [List.lookup_eq_none_iff]
    intro entry hEntry
    rw [bne_iff_ne]
    intro hEq
    exact hHead (hFixed entry hEntry c (by simp [← hEq, hText]))
  have hName : number n ∉ validIdentifiers :=
    fun hName => hHead (hIdentifiers _ hName c (by simp [hText]))
  have hRegex : c ≠ 0x72 := by
    rintro rfl
    exact hHead rfl
  have hQuote : c ≠ 0x22 := by
    rintro rfl
    exact hHead rfl
  unfold tokenize
  rw [hNone, if_neg hName, toInt_number hNonneg hRange, hText]
  simp [lit, Ne.symm hRegex, hQuote]

theorem tokenize_identifier {name : QString} (h : name ∈ validIdentifiers) :
    tokenize name = .IDENTIFIER := by
  have hAll : ∀ name ∈ validIdentifiers, tokenize name = .IDENTIFIER := by decide
  exact hAll name h

theorem tokens_binaryOperation {op : TokenType} (h : op.isInfix = true) (left right : Expression) :
    tokens (.binaryOperation op left right) =
      ⟨[0x28], .LP⟩ :: (left.tokens ++ ⟨binaryOpText op, op⟩ :: right.tokens ++ [⟨[0x29], .RP⟩]) := by
  have hTypes : tokenize [0x28] = .LP ∧ tokenize [0x29] = .RP := by decide
  simp [tokens, items, texts_operatorItem, tokenize_binaryOpText h, hTypes]

theorem tokens_unaryOperation (right : Expression) :
    tokens (.unaryOperation .NOT right) =
      ⟨[0x28], .LP⟩ :: (⟨unaryOpText .NOT, .NOT⟩ :: right.tokens ++ [⟨[0x29], .RP⟩]) := by
  have hTypes : tokenize [0x28] = .LP ∧ tokenize [0x29] = .RP ∧ tokenize (unaryOpText .NOT) = .NOT := by
    decide
  simp [tokens, items, hTypes]

theorem tokens_listExpression (list : List Expression) :
    tokens (.listExpression list) =
      ⟨[0x7B], .LIST_START⟩ :: (tokensOfTexts (textsOf (itemsAll true list)) ++ [⟨[0x7D], .LIST_END⟩]) := by
  have hTypes : tokenize [0x7B] = .LIST_START ∧ tokenize [0x7D] = .LIST_END := by decide
  simp [tokens, items, hTypes]

theorem tokensOfTexts_itemsAll_false (e : Expression) (list : List Expression) :
    tokensOfTexts (textsOf (itemsAll false (e :: list))) =
      ⟨[0x2C], .COMMA⟩ :: (e.tokens ++ tokensOfTexts (textsOf (itemsAll false list))) := by
  have hType : tokenize [0x2C] = .COMMA := by decide
  simp [tokens, itemsAll, hType]

theorem derives_moreElements {list list' : List Expression}
    (ih : ∀ e ∈ list', e.WellFormed → Derives .value e.tokens e) (h : WellFormedAll list') :
    Derives (.moreElements list)
      (tokensOfTexts (textsOf (itemsAll false list')) ++ [⟨[0x7D], .LIST_END⟩])
      (.listExpression (list ++ list')) := by
  induction list' generalizing list with
  | nil =>
    rw [List.append_nil]
    exact .elementsEnd rfl
  | cons e list' ihList =>
    have hTail := @ihList (list ++ [e]) (fun e' he' => ih e' (List.mem_cons_of_mem e he')) h.2
    rw [List.append_assoc, List.singleton_append] at hTail
    rw [tokensOfTexts_itemsAll_false, List.cons_append, List.append_assoc]
    exact .nextElement rfl (ih e List.mem_cons_self h.1) hTail

theorem derives_elements {list : List Expression}
    (ih : ∀ e ∈ list, e.WellFormed → Derives .value e.tokens e) (h : WellFormedAll list) :
    Derives .elements (tokensOfTexts (textsOf (itemsAll true list)) ++ [⟨[0x7D], .LIST_END⟩])
      (.listExpression list) := by
  cases list with
  | nil => exact .noElements rfl
  | cons e list =>
    have hTail := @derives_moreElements [e] list (fun e' he' => ih e' (List.mem_cons_of_mem e he')) h.2
    rw [itemsAll, if_pos rfl, List.nil_append, textsOf_append, tokensOfTexts_append, List.append_assoc]
    exact .firstElement (ih e List.mem_cons_self h.1) hTail

theorem regexValue_literalText (regex : QString) (caseInsensitive : Bool) :
    regexValue ⟨literalText (lit (if caseInsensitive then "ri" else "r")) (escapeQuotes regex),
      .REGULAR_EXPRESSION⟩ = .regexExpression regex caseInsensitive := by
  have hCase : Token.isCaseInsensitiveRegex ⟨literalText (lit (if caseInsensitive then "ri" else "r"))
      (escapeQuotes regex), .REGULAR_EXPRESSION⟩ = caseInsensitive := by
    cases caseInsensitive <;> rfl
  rw [regexValue, hCase]
  cases caseInsensitive <;> simp [literalValue, literalText, lit, unescapeQuotes_escapeQuotes]

theorem derives_tokens {e : Expression} (h : e.WellFormed) : Derives .value e.tokens e := by
  induction e with
  | binaryOperation op left right ihLeft ihRight =>
    obtain ⟨hInfix, hLeft, hRight⟩ := h
    rw [tokens_binaryOperation hInfix]
    exact .parentheses rfl (derives_operation hInfix (ihLeft hLeft) (ihRight hRight)) rfl
  | unaryOperation op right ih =>
    obtain ⟨rfl, hRight⟩ := h
    rw [tokens_unaryOperation]
    have hNot : Derives .unary (⟨unaryOpText .NOT, .NOT⟩ :: right.tokens) (.unaryOperation .NOT right) :=
      .not rfl (ih hRight).cond_of_value
    have hAnd := Derives.and hNot .andsNil
    rw [List.append_nil] at hAnd
    exact .parentheses rfl hAnd.expr_of_and rfl
  | listExpression list ih =>
    rw [tokens_listExpression]
    exact .list rfl (derives_elements ih h)
  | regexExpression regex caseInsensitive =>
    have hDerives := @Derives.regex
      ⟨literalText (lit (if caseInsensitive then "ri" else "r")) (escapeQuotes regex), .REGULAR_EXPRESSION⟩
      rfl
    rw [regexValue_literalText] at hDerives
    have hType : tokenize (literalText (lit (if caseInsensitive then "ri" else "r")) (escapeQuotes regex)) =
        .REGULAR_EXPRESSION := by
      cases caseInsensitive <;> exact tokenize_literalText (by decide) _
    simpa [tokens, items, hType] using hDerives
  | intValue n =>
    have hDerives := @Derives.int ⟨number n, .INT⟩ rfl
    rw [toInt_number h.1 h.2] at hDerives
    simpa [tokens, items, tokenize_number h.1 h.2] using hDerives
  | stringValue s =>
    have hDerives := @Derives.string ⟨literalText [] (escapeQuotes s), .STRING⟩ rfl
    have hValue : literalValue 1 (literalText [] (escapeQuotes s)) = s := by
      simp [literalValue, literalText, unescapeQuotes_escapeQuotes]
    have hType : tokenize (literalText [] (escapeQuotes s)) = .STRING :=
      tokenize_literalText List.mem_cons_self _
    rw [hValue] at hDerives
    simpa [tokens, items, hType] using hDerives
  | identifier name =>
    have hDerives := @Derives.identifier ⟨name, .IDENTIFIER⟩ rfl
    simpa [tokens, items, tokenize_identifier h] using hDerives

def IsNoSurrogate (c : QChar) : Prop := isHighSurrogate c = false ∧ isLowSurrogate c = false

instance (c : QChar) : Decidable (IsNoSurrogate c) := inferInstanceAs (Decidable (_ ∧ _))

theorem isValidUtf16_of_noSurrogate {s : QString} (h : ∀ c ∈ s, IsNoSurrogate c) :
    isValidUtf16 s = true := by
  induction s with
  | nil => rfl
  | cons c s ih =>
    obtain ⟨hHigh, hLow⟩ := h c List.mem_cons_self
    rw [isValidUtf16_cons hHigh, hLow, ih fun d hd => h d (List.mem_cons_of_mem c hd)]
    rfl

theorem isNoSurrogate_of_isWordChar {c : QChar} (h : isWordChar c = true) : IsNoSurrogate c := by
  simp only [isWordChar, Bool.or_eq_true, Bool.and_eq_true, decide_eq_true_eq, beq_iff_eq,
    UInt16.le_iff_toNat_le, ← UInt16.toNat_inj] at h
  simp only [IsNoSurrogate, isHighSurrogate, isLowSurrogate, Bool.and_eq_false_iff, decide_eq_false_iff_not,
    UInt16.le_iff_toNat_le]
  have hBound : c.toNat ≤ 0x7A := by
    rcases h with (((⟨-, h⟩ | ⟨-, h⟩) | ⟨-, h⟩) | h) | h
    all_goals simp only [UInt16.reduceToNat] at h; omega
  constructor <;> left <;> simp only [UInt16.reduceToNat] <;> omega

theorem Item.Precedes.isValidUtf16 {item : Item} {next : Option QChar} (h : item.Precedes next)
    (hLiterals : ∀ v ∈ item.literals, isValidUtf16 v = true) : isValidUtf16 item.source = true := by
  cases item with
  | space => rfl
  | symbol c =>
    have hSymbols : ∀ c ∈ lit "(){},", IsNoSurrogate c := by decide
    exact isValidUtf16_of_noSurrogate fun d hd => hSymbols d (List.mem_singleton.mp hd ▸ h)
  | word w => exact isValidUtf16_of_noSurrogate fun d hd => isNoSurrogate_of_isWordChar (h.2.1 d hd)
  | operator t =>
    have hOperators : ∀ t ∈ operatorTexts, ∀ c ∈ t, IsNoSurrogate c := by decide
    exact isValidUtf16_of_noSurrogate (hOperators t h.1)
  | literal start value =>
    have hStarts : ∀ start ∈ literalPrefixes, ∀ c ∈ start, IsNoSurrogate c := by decide
    have hValue : Filters.isValidUtf16 (escapeQuotes value) = true := by
      rw [isValidUtf16_escapeQuotes]
      exact hLiterals value List.mem_cons_self
    refine isValidUtf16_append (isValidUtf16_of_noSurrogate (hStarts start h)) ?_
    rw [isValidUtf16_cons rfl]
    exact isValidUtf16_append hValue rfl

theorem isValidUtf16_sourceOf {items : List Item} {next : Option QChar} (h : Separated next items)
    (hLiterals : ∀ v ∈ literalsOf items, isValidUtf16 v = true) :
    isValidUtf16 (sourceOf items) = true := by
  induction items with
  | nil => rfl
  | cons item items ih =>
    rw [literalsOf_cons, List.forall_mem_append] at hLiterals
    exact isValidUtf16_append (h.1.isValidUtf16 hLiterals.1) (ih h.2 hLiterals.2)

theorem isValidUtf16_literalsAll {list : List Expression}
    (ih : ∀ e ∈ list, e.WellFormed → ∀ v ∈ e.literals, isValidUtf16 v = true)
    (h : WellFormedAll list) : ∀ v ∈ literalsAll list, isValidUtf16 v = true := by
  induction list with
  | nil => exact nofun
  | cons e list ihList =>
    exact List.forall_mem_append.mpr ⟨ih e List.mem_cons_self h.1,
      ihList (fun e' he' => ih e' (List.mem_cons_of_mem e he')) h.2⟩

theorem isValidUtf16_literals {e : Expression} (h : e.WellFormed) :
    ∀ v ∈ e.literals, isValidUtf16 v = true := by
  induction e with
  | binaryOperation op left right ihLeft ihRight =>
    obtain ⟨-, hLeft, hRight⟩ := h
    exact List.forall_mem_append.mpr ⟨ihLeft hLeft, ihRight hRight⟩
  | unaryOperation op right ih => exact ih h.2
  | listExpression list ih => exact isValidUtf16_literalsAll ih h
  | regexExpression | stringValue => exact List.forall_mem_singleton.mpr h
  | intValue => exact nofun
  | identifier => exact nofun

theorem tokensOf_sourceOf {e : Expression} (h : e.WellFormed)
    (hLiterals : ∀ v ∈ e.literals.dropLast, v.getLast? ≠ some 0x5C) :
    tokensOf (sourceOf e.items) = e.tokens := by
  have hSeparated : Separated none e.items := separated_items h nofun
  have hLexable : Lexable [] e.items := by
    refine lexable_of_separated hSeparated fun before v after hSplit hLast => ⟨?_, List.not_mem_nil⟩
    by_contra hAfter
    rw [literalsOf_items] at hSplit
    refine hLiterals v ?_ hLast
    rw [hSplit, List.dropLast_append_of_ne_nil (List.cons_ne_nil _ _), List.dropLast_cons_of_ne_nil hAfter]
    simp
  have hMatches := globalMatch_sourceOf hLexable
  rw [List.append_nil] at hMatches
  rw [tokensOf, if_pos (isValidUtf16_sourceOf hSeparated (by
    rw [literalsOf_items]
    exact isValidUtf16_literals h)), hMatches]
  simp [Expression.tokens, tokensOfTexts, Regex.globalMatch, Regex.globalMatchFrom]

end Chatterino.Filters
