import Chatterino.Filters.ParserCompleteness

/-! # The parser accepts its grammar

Every function returns, and what it has read without an error derives from its symbol.
-/

namespace Chatterino.Filters

open TokenType

structure Outcome (symbol : Symbol) (p : ParserState) (e : Expression) (p' : ParserState) : Prop where
  length_le : p'.rest.length ≤ p.rest.length
  progress : symbol = .value → p.rest ≠ [] → p'.rest.length < p.rest.length
  sound : p'.valid_ = true → p.valid_ = true ∧ ∃ ts, p.rest = ts ++ p'.rest ∧ Derives symbol ts e

def Returns (fuel : Nat) (symbol : Symbol) (p : ParserState) : Prop :=
  ∃ e p', symbol.parse fuel p = some (e, p') ∧ Outcome symbol p e p'

namespace Outcome

variable {symbol symbol' symbol'' : Symbol} {p q p₁ p₂ : ParserState} {e e' : Expression}

theorem errorLog (text : QString) (hLength : p₁.rest.length ≤ p.rest.length)
    (hProgress : symbol = .value → p.rest ≠ [] → p₁.rest.length < p.rest.length) :
    Outcome symbol p e (p₁.errorLog text) :=
  ⟨hLength, hProgress, fun hValid => absurd hValid (by simp [ParserState.errorLog])⟩

theorem cons (h : Outcome symbol q e p₁) (before : List Token) (hRest : p.rest = before ++ q.rest)
    (hValid : q.valid_ = p.valid_) (hSymbol : symbol' = .value → before ≠ [])
    (rule : ∀ ts, Derives symbol ts e → Derives symbol' (before ++ ts) e') :
    Outcome symbol' p e' p₁ := by
  have hLength := congrArg List.length hRest
  rw [List.length_append] at hLength
  refine ⟨by have := h.length_le; omega, fun hEq _ => ?_, fun hEnd => ?_⟩
  · have hSome := List.length_pos_iff.mpr (hSymbol hEq)
    have := h.length_le
    omega
  · obtain ⟨hStart, ts, hTokens, hDerives⟩ := h.sound hEnd
    exact ⟨hValid ▸ hStart, before ++ ts, by rw [hRest, hTokens, List.append_assoc],
      rule ts hDerives⟩

theorem seq (h : Outcome symbol q e p₁) (h' : Outcome symbol' p₁ e' p₂) (before : List Token)
    (hRest : p.rest = before ++ q.rest) (hValid : q.valid_ = p.valid_) (hSymbol : symbol'' ≠ .value)
    (rule : ∀ ts ts', Derives symbol ts e → Derives symbol' ts' e' →
      Derives symbol'' (before ++ (ts ++ ts')) e') : Outcome symbol'' p e' p₂ := by
  have hLength := congrArg List.length hRest
  rw [List.length_append] at hLength
  refine ⟨by have := h.length_le; have := h'.length_le; omega, fun hEq => absurd hEq hSymbol,
    fun hEnd => ?_⟩
  obtain ⟨hMiddle, ts', hTokens', hDerives'⟩ := h'.sound hEnd
  obtain ⟨hStart, ts, hTokens, hDerives⟩ := h.sound hMiddle
  exact ⟨hValid ▸ hStart, before ++ (ts ++ ts'),
    by rw [hRest, hTokens, hTokens', List.append_assoc, List.append_assoc],
    rule ts ts' hDerives hDerives'⟩

end Outcome

variable {fuel : Nat} {p : ParserState}

theorem returns_expr (hAnd : Returns fuel .and p)
    (hOrs : ∀ e p', p'.rest.length ≤ p.rest.length → Returns fuel (.ors e) p') :
    Returns (fuel + 1) .expr p := by
  obtain ⟨e, p₁, hParse, hOut⟩ := hAnd
  obtain ⟨e', p₂, hParse', hOut'⟩ := hOrs e p₁ hOut.length_le
  refine ⟨e', p₂, ?_, hOut.seq hOut' [] rfl rfl (by rintro ⟨⟩) fun _ _ => .expr⟩
  simp only [Symbol.parse] at hParse hParse' ⊢
  simp only [parseExpression, hParse, hParse', Option.bind_eq_bind, Option.bind_some]
  split <;> rfl

theorem returns_ors (e : Expression)
    (hAnd : ∀ p', p'.rest.length < p.rest.length → Returns fuel .and p')
    (hOrs : ∀ e p', p'.rest.length < p.rest.length → Returns fuel (.ors e) p') :
    Returns (fuel + 1) (.ors e) p := by
  have hStop : Outcome (.ors e) p e p :=
    ⟨le_refl _, (by rintro ⟨⟩), fun hValid => ⟨hValid, [], rfl, .orsNil⟩⟩
  unfold Returns
  simp only [Symbol.parse]
  unfold parseOrs
  split
  · rename_i token rest hRest
    split
    · rename_i hOr
      have hShort : rest.length < p.rest.length := by simp [hRest]
      obtain ⟨e₁, p₁, hParse, hOut⟩ := hAnd { p with rest } hShort
      obtain ⟨e₂, p₂, hParse', hOut'⟩ := hOrs (.binaryOperation .OR e e₁) p₁
        (hOut.length_le.trans_lt hShort)
      simp only [Symbol.parse] at hParse hParse'
      exact ⟨e₂, p₂, by simp only [hParse, hParse', Option.bind_eq_bind, Option.bind_some],
        hOut.seq hOut' [token] hRest rfl (by rintro ⟨⟩) fun _ _ => .orsCons hOr⟩
    · exact ⟨e, p, rfl, hStop⟩
  · exact ⟨e, p, rfl, hStop⟩

theorem returns_and (hUnary : Returns fuel .unary p)
    (hAnds : ∀ e p', p'.rest.length ≤ p.rest.length → Returns fuel (.ands e) p') :
    Returns (fuel + 1) .and p := by
  obtain ⟨e, p₁, hParse, hOut⟩ := hUnary
  obtain ⟨e', p₂, hParse', hOut'⟩ := hAnds e p₁ hOut.length_le
  refine ⟨e', p₂, ?_, hOut.seq hOut' [] rfl rfl (by rintro ⟨⟩) fun _ _ => .and⟩
  simp only [Symbol.parse] at hParse hParse' ⊢
  simp only [parseAnd, hParse, hParse', Option.bind_eq_bind, Option.bind_some]

theorem returns_ands (e : Expression)
    (hUnary : ∀ p', p'.rest.length < p.rest.length → Returns fuel .unary p')
    (hAnds : ∀ e p', p'.rest.length < p.rest.length → Returns fuel (.ands e) p') :
    Returns (fuel + 1) (.ands e) p := by
  have hStop : Outcome (.ands e) p e p :=
    ⟨le_refl _, (by rintro ⟨⟩), fun hValid => ⟨hValid, [], rfl, .andsNil⟩⟩
  unfold Returns
  simp only [Symbol.parse]
  unfold parseAnds
  split
  · rename_i token rest hRest
    split
    · rename_i hAnd
      have hShort : rest.length < p.rest.length := by simp [hRest]
      obtain ⟨e₁, p₁, hParse, hOut⟩ := hUnary { p with rest } hShort
      obtain ⟨e₂, p₂, hParse', hOut'⟩ := hAnds (.binaryOperation .AND e e₁) p₁
        (hOut.length_le.trans_lt hShort)
      simp only [Symbol.parse] at hParse hParse'
      exact ⟨e₂, p₂, by simp only [hParse, hParse', Option.bind_eq_bind, Option.bind_some],
        hOut.seq hOut' [token] hRest rfl (by rintro ⟨⟩) fun _ _ => .andsCons hAnd⟩
    · exact ⟨e, p, rfl, hStop⟩
  · exact ⟨e, p, rfl, hStop⟩

theorem returns_unary (hCond : ∀ p', p'.rest.length ≤ p.rest.length → Returns fuel .cond p') :
    Returns (fuel + 1) .unary p := by
  have hPlain : ∃ e p', parseCondition fuel p = some (e, p') ∧ Outcome .unary p e p' := by
    obtain ⟨e, p₁, hParse, hOut⟩ := hCond p le_rfl
    exact ⟨e, p₁, hParse, hOut.cons [] rfl rfl (by rintro ⟨⟩) fun _ => .unary⟩
  unfold Returns
  simp only [Symbol.parse]
  unfold parseUnary
  split
  · rename_i token rest hRest
    split
    · rename_i hUnary
      have hNot := typeIsUnaryOp_iff.mp hUnary
      obtain ⟨e, p₁, hParse, hOut⟩ := hCond { p with rest } (by simp [hRest])
      simp only [Symbol.parse] at hParse
      refine ⟨_, p₁, by rw [hParse]; rfl, hOut.cons [token] hRest rfl (by rintro ⟨⟩) fun _ h => ?_⟩
      rw [hNot]
      exact .not hNot h
    · exact hPlain
  · exact hPlain

theorem parseParentheses_returns (hExpr : ∀ p', p'.rest.length < p.rest.length → Returns fuel .expr p')
    {left : Token} {rest : List Token} (hRest : p.rest = left :: rest) (hLeft : left.type = .LP) :
    ∃ e p', parseParentheses (fuel + 1) p = some (e, p') ∧ Outcome .value p e p' := by
  have hShort : rest.length < p.rest.length := by simp [hRest]
  obtain ⟨e, p₁, hParse, hOut⟩ := hExpr { p with rest } hShort
  simp only [Symbol.parse] at hParse
  simp only [parseParentheses, hRest, List.tail_cons, hParse, Option.bind_eq_bind, Option.bind_some]
  split
  · rename_i right rest' hRest'
    have hLength := hOut.length_le
    rw [hRest'] at hLength
    simp only [List.length_cons] at hLength
    split
    · rename_i hRight
      refine ⟨e, _, rfl, by simp only; omega, fun _ _ => by simp only; omega, fun hValid => ?_⟩
      obtain ⟨hStart, ts, hTokens, hDerives⟩ := hOut.sound hValid
      refine ⟨hStart, left :: (ts ++ [right]), ?_, .parentheses hLeft hDerives hRight⟩
      simp only at hTokens
      rw [hRest, hTokens, hRest']
      simp
    · exact ⟨e, _, rfl, .errorLog _ (by rw [hRest']; simp only [List.length_cons]; omega)
        fun _ _ => by rw [hRest']; simp only [List.length_cons]; omega⟩
  · exact ⟨e, _, rfl, .errorLog _ (hOut.length_le.trans hShort.le)
      fun _ _ => hOut.length_le.trans_lt hShort⟩

theorem returns_cond (hValue : Returns fuel .value p)
    (hExpr : ∀ p', p'.rest.length < p.rest.length → Returns (fuel - 1) .expr p') (hFuel : 0 < fuel)
    (hOperators : ∀ e p', p'.rest.length ≤ p.rest.length → Returns fuel (.operators e) p') :
    Returns (fuel + 1) .cond p := by
  have hFirst : ∃ e p', (p.rest.head?.any (·.type = .LP) = true →
      parseParentheses fuel p = some (e, p')) ∧ (p.rest.head?.any (·.type = .LP) ≠ true →
      parseValue fuel p = some (e, p')) ∧ Outcome .value p e p' := by
    cases hLP : p.rest.head?.any (·.type = .LP) with
    | true =>
      cases hRest : p.rest with
      | nil => simp [hRest] at hLP
      | cons left rest =>
        have hLeft : left.type = .LP := by simpa [hRest] using hLP
        obtain ⟨fuel, rfl⟩ : ∃ n, fuel = n + 1 := ⟨fuel - 1, by omega⟩
        obtain ⟨e, p', hParse, hOut⟩ := parseParentheses_returns hExpr hRest hLeft
        exact ⟨e, p', fun _ => hParse, fun hNot => absurd rfl hNot, hOut⟩
    | false =>
      obtain ⟨e, p', hParse, hOut⟩ := hValue
      exact ⟨e, p', (by rintro ⟨⟩), fun _ => hParse, hOut⟩
  obtain ⟨e, p₁, hParens, hParse, hOut⟩ := hFirst
  obtain ⟨e', p₂, hParse', hOut'⟩ := hOperators e p₁ hOut.length_le
  refine ⟨e', p₂, ?_, hOut.seq hOut' [] rfl rfl (by rintro ⟨⟩) fun _ _ => .cond⟩
  simp only [Symbol.parse] at hParse' ⊢
  unfold parseCondition
  split <;> rename_i hLP
  · simp only [hParens hLP, hParse', Option.bind_eq_bind, Option.bind_some]
  · simp only [hParse hLP, hParse', Option.bind_eq_bind, Option.bind_some]

theorem returns_operators (e : Expression)
    (hValue : ∀ p', p'.rest.length < p.rest.length → Returns fuel .value p')
    (hOperators : ∀ e p', p'.rest.length < p.rest.length → Returns fuel (.operators e) p') :
    Returns (fuel + 1) (.operators e) p := by
  have hStop : Outcome (.operators e) p e p :=
    ⟨le_refl _, (by rintro ⟨⟩), fun hValid => ⟨hValid, [], rfl, .operatorsNil⟩⟩
  unfold Returns
  simp only [Symbol.parse]
  unfold parseOperators
  split
  · rename_i token rest hRest
    have hShort : rest.length < p.rest.length := by simp [hRest]
    obtain ⟨v, p₁, hParse, hOut⟩ := hValue { p with rest } hShort
    simp only [Symbol.parse] at hParse
    split
    · rename_i hBinary
      exact ⟨_, p₁, by rw [hParse]; rfl, hOut.cons [token] hRest rfl (by rintro ⟨⟩) fun _ => .binaryOp hBinary⟩
    · split
      · rename_i hMath
        obtain ⟨e', p₂, hParse', hOut'⟩ := hOperators (.binaryOperation token.type e v) p₁
          (hOut.length_le.trans_lt hShort)
        simp only [Symbol.parse] at hParse'
        exact ⟨e', p₂, by simp only [hParse, hParse', Option.bind_eq_bind, Option.bind_some],
          hOut.seq hOut' [token] hRest rfl (by rintro ⟨⟩) fun _ _ => .mathOp hMath⟩
      · split
        · exact ⟨e, p, rfl, hStop⟩
        · split
          · exact ⟨e, _, rfl, .errorLog _ le_rfl (by rintro ⟨⟩)⟩
          · exact ⟨e, p, rfl, hStop⟩
  · exact ⟨e, p, rfl, hStop⟩

theorem Outcome.token {token : Token} {rest : List Token} {e : Expression}
    (hRest : p.rest = token :: rest) (h : Derives .value [token] e) :
    Outcome .value p e { p with rest } :=
  ⟨by simp [hRest], fun _ _ => by simp [hRest], fun hValid => ⟨hValid, [token], hRest, h⟩⟩

theorem returns_value
    (hExpr : ∀ p', p'.rest.length < p.rest.length → Returns (fuel - 1) .expr p')
    (hElements : ∀ p', p'.rest.length < p.rest.length → Returns (fuel - 1) .elements p')
    (hFuel : 0 < fuel) : Returns (fuel + 1) .value p := by
  obtain ⟨fuel, rfl⟩ : ∃ n, fuel = n + 1 := ⟨fuel - 1, by omega⟩
  unfold Returns
  simp only [Symbol.parse]
  unfold parseValue
  split
  · rename_i token rest hRest
    split
    · rename_i hType
      exact ⟨_, _, rfl, .token hRest (.int hType)⟩
    · rename_i hType
      exact ⟨_, _, rfl, .token hRest (.string hType)⟩
    · rename_i hType
      exact ⟨_, _, rfl, .token hRest (.identifier hType)⟩
    · rename_i hType
      exact ⟨_, _, rfl, .token hRest (.regex hType)⟩
    · rename_i hType
      exact parseParentheses_returns hExpr hRest hType
    · rename_i hType
      obtain ⟨e, p₁, hParse, hOut⟩ := hElements { p with rest } (by simp [hRest])
      simp only [Symbol.parse, Nat.add_sub_cancel] at hParse
      refine ⟨e, p₁, by simp only [parseList, hRest, List.tail_cons, hParse],
        hOut.cons [token] hRest rfl (fun _ => by simp) fun _ => .list hType⟩
    · exact ⟨_, _, rfl, .errorLog _ (by simp [hRest]) fun _ _ => by simp [hRest]⟩
  · rename_i hRest
    exact ⟨_, _, rfl, .errorLog _ le_rfl fun _ hSome => absurd hRest hSome⟩

theorem returns_elements (hValue : Returns fuel .value p)
    (hMore : ∀ list p', p'.rest.length < p.rest.length → Returns fuel (.moreElements list) p') :
    Returns (fuel + 1) .elements p := by
  obtain ⟨v, p₁, hParse, hOut⟩ := hValue
  unfold Returns
  simp only [Symbol.parse] at hParse ⊢
  unfold parseElements
  split
  · rename_i token rest hRest
    split
    · rename_i hEnd
      exact ⟨_, _, rfl, by simp [hRest], (by rintro ⟨⟩),
        fun hValid => ⟨hValid, [token], hRest, .noElements hEnd⟩⟩
    · obtain ⟨e, p₂, hParse', hOut'⟩ := hMore [v] p₁ (hOut.progress rfl (by simp [hRest]))
      simp only [Symbol.parse] at hParse'
      refine ⟨e, p₂, ?_, hOut.seq hOut' [] rfl rfl (by rintro ⟨⟩) fun _ _ => .firstElement⟩
      simp [hParse, hParse']
  · exact ⟨_, _, rfl, .errorLog _ le_rfl (by rintro ⟨⟩)⟩

theorem returns_moreElements (list : List Expression)
    (hValue : ∀ p', p'.rest.length < p.rest.length → Returns fuel .value p')
    (hMore : ∀ list p', p'.rest.length < p.rest.length → Returns fuel (.moreElements list) p') :
    Returns (fuel + 1) (.moreElements list) p := by
  unfold Returns
  simp only [Symbol.parse]
  unfold parseElements
  split
  · rename_i token rest hRest
    have hShort : rest.length < p.rest.length := by simp [hRest]
    split
    · rename_i hEnd
      exact ⟨_, _, rfl, by simp [hRest], (by rintro ⟨⟩),
        fun hValid => ⟨hValid, [token], hRest, .elementsEnd hEnd⟩⟩
    · split
      · rename_i hComma
        obtain ⟨v, p₁, hParse, hOut⟩ := hValue { p with rest } hShort
        obtain ⟨e, p₂, hParse', hOut'⟩ := hMore (list ++ [v]) p₁ (hOut.length_le.trans_lt hShort)
        simp only [Symbol.parse] at hParse hParse'
        exact ⟨e, p₂, by simp only [hParse, hParse', Option.bind_eq_bind, Option.bind_some],
          hOut.seq hOut' [token] hRest rfl (by rintro ⟨⟩) fun _ _ => .nextElement hComma.1⟩
      · exact ⟨_, _, rfl, .errorLog _ le_rfl (by rintro ⟨⟩)⟩
  · exact ⟨_, _, rfl, .errorLog _ le_rfl (by rintro ⟨⟩)⟩

theorem returns (fuel : Nat) (symbol : Symbol) (p : ParserState)
    (hFuel : 6 * p.rest.length + symbol.depth ≤ fuel) : Returns fuel symbol p := by
  induction fuel using Nat.strongRecOn generalizing symbol p with
  | ind fuel ih =>
    have hPos : 0 < symbol.depth := by cases symbol <;> simp [Symbol.depth]
    obtain ⟨fuel, rfl⟩ : ∃ n, fuel = n + 1 := ⟨fuel - 1, by omega⟩
    cases symbol <;> simp only [Symbol.depth] at hFuel
    case expr =>
      exact returns_expr (ih _ (by omega) _ _ (by simp only [Symbol.depth]; omega))
        fun e p' _ => ih _ (by omega) _ _ (by simp only [Symbol.depth]; omega)
    case ors e =>
      exact returns_ors e (fun p' _ => ih _ (by omega) _ _ (by simp only [Symbol.depth]; omega))
        fun e p' _ => ih _ (by omega) _ _ (by simp only [Symbol.depth]; omega)
    case and =>
      exact returns_and (ih _ (by omega) _ _ (by simp only [Symbol.depth]; omega))
        fun e p' _ => ih _ (by omega) _ _ (by simp only [Symbol.depth]; omega)
    case ands e =>
      exact returns_ands e (fun p' _ => ih _ (by omega) _ _ (by simp only [Symbol.depth]; omega))
        fun e p' _ => ih _ (by omega) _ _ (by simp only [Symbol.depth]; omega)
    case unary =>
      exact returns_unary fun p' _ => ih _ (by omega) _ _ (by simp only [Symbol.depth]; omega)
    case cond =>
      exact returns_cond (ih _ (by omega) _ _ (by simp only [Symbol.depth]; omega))
        (fun p' _ => ih _ (by omega) _ _ (by simp only [Symbol.depth]; omega)) (by omega)
        fun e p' _ => ih _ (by omega) _ _ (by simp only [Symbol.depth]; omega)
    case operators e =>
      exact returns_operators e
        (fun p' _ => ih _ (by omega) _ _ (by simp only [Symbol.depth]; omega))
        fun e p' _ => ih _ (by omega) _ _ (by simp only [Symbol.depth]; omega)
    case value =>
      exact returns_value (fun p' _ => ih _ (by omega) _ _ (by simp only [Symbol.depth]; omega))
        (fun p' _ => ih _ (by omega) _ _ (by simp only [Symbol.depth]; omega)) (by omega)
    case elements =>
      exact returns_elements (ih _ (by omega) _ _ (by simp only [Symbol.depth]; omega))
        fun list p' _ => ih _ (by omega) _ _ (by simp only [Symbol.depth]; omega)
    case moreElements list =>
      exact returns_moreElements list
        (fun p' _ => ih _ (by omega) _ _ (by simp only [Symbol.depth]; omega))
        fun list p' _ => ih _ (by omega) _ _ (by simp only [Symbol.depth]; omega)

theorem parseExpression_top {e : Expression} {p' : ParserState}
    (h : parseExpression fuel false p = some (e, p')) :
    ∃ end_, parseExpression fuel true p = some (e, end_) ∧
      (end_.valid_ = true ↔ p'.valid_ = true ∧ p'.rest = []) := by
  cases fuel with
  | zero => cases h
  | succ fuel =>
    simp only [parseExpression, Option.bind_eq_bind, Option.bind_eq_some_iff] at h
    obtain ⟨⟨e₁, p₁⟩, hAnd, ⟨e₂, p₂⟩, hOrs, hEnd⟩ := h
    cases hRest : p₂.rest with
    | nil =>
      simp only [hRest, Option.pure_def, Option.some.injEq, Prod.mk.injEq] at hEnd
      obtain ⟨rfl, rfl⟩ := hEnd
      refine ⟨p₂, ?_, by simp [hRest]⟩
      simp only [parseExpression, hAnd, hOrs, hRest, Option.bind_eq_bind, Option.bind_some]
      rfl
    | cons token rest =>
      simp only [hRest, Option.pure_def, Option.some.injEq, Prod.mk.injEq] at hEnd
      obtain ⟨rfl, rfl⟩ := hEnd
      refine ⟨p₂.errorLog (gotMessage "Unexpected token at end: %1" token), ?_, by
        simp [ParserState.errorLog, hRest]⟩
      simp only [parseExpression, hAnd, hOrs, hRest, Option.bind_eq_bind, Option.bind_some]
      rfl

theorem parseTokens_isSome (tokens : List Token) : (parseTokens tokens).isSome = true := by
  obtain ⟨e, p, hParse, -⟩ := returns (parseFuel tokens) .expr { rest := tokens } (by
    simp only [Symbol.depth, parseFuel]
    omega)
  obtain ⟨end_, hTop, -⟩ := parseExpression_top hParse
  rw [parseTokens, hTop]
  rfl

theorem derives_of_parseTokens {tokens : List Token} {e : Expression} {p : ParserState}
    (h : parseTokens tokens = some (e, p)) (hValid : p.valid_ = true) : Derives .expr tokens e := by
  obtain ⟨e', p', hParse, hOut⟩ := returns (parseFuel tokens) .expr { rest := tokens } (by
    simp only [Symbol.depth, parseFuel]
    omega)
  obtain ⟨end_, hTop, hEnd⟩ := parseExpression_top hParse
  obtain ⟨rfl, rfl⟩ : e' = e ∧ end_ = p := by simpa using hTop.symm.trans h
  obtain ⟨hValid', hNil⟩ := hEnd.mp hValid
  obtain ⟨-, ts, hTokens, hDerives⟩ := hOut.sound hValid'
  obtain rfl : tokens = ts := by simpa [hNil] using hTokens
  exact hDerives

theorem parseTokens_of_derives {tokens : List Token} {e : Expression} (h : Derives .expr tokens e) :
    ∃ p, parseTokens tokens = some (e, p) ∧ p.valid_ = true := by
  have hParse := h.parse_eq (parseFuel tokens) [] true []
    (by simp only [Symbol.depth, parseFuel]; omega) (by simp)
  rw [List.append_nil] at hParse
  obtain ⟨p, hTop, hEnd⟩ := parseExpression_top hParse
  exact ⟨p, hTop, hEnd.mpr ⟨rfl, rfl⟩⟩

/-- The parser finishes on every token list, without an error exactly when the list derives from
the grammar, and with the one tree it derives with. -/
theorem parseTokens_iff_derives (tokens : List Token) :
    ∃ e p, parseTokens tokens = some (e, p) ∧
      (p.valid_ = true ↔ ∃ tree, Derives .expr tokens tree) ∧
      ∀ tree, Derives .expr tokens tree → e = tree := by
  obtain ⟨⟨e, p⟩, hParse⟩ := Option.isSome_iff_exists.mp (parseTokens_isSome tokens)
  have hComplete (tree : Expression) (h : Derives .expr tokens tree) : e = tree ∧ p.valid_ = true := by
    obtain ⟨p', hTree, hValid⟩ := parseTokens_of_derives h
    obtain ⟨rfl, rfl⟩ : e = tree ∧ p = p' := by simpa using hParse.symm.trans hTree
    exact ⟨rfl, hValid⟩
  refine ⟨e, p, hParse, ⟨fun hValid => ⟨e, derives_of_parseTokens hParse hValid⟩, ?_⟩,
    fun tree h => (hComplete tree h).1⟩
  rintro ⟨tree, h⟩
  exact (hComplete tree h).2

end Chatterino.Filters
