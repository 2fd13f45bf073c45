import Chatterino.Filters.TextTokens

/-! # The grammar of filters

A symbol with an expression or a list stands for what may follow in the production, and carries the
tree built so far: the trees lean to the left.
-/

namespace Chatterino.Filters

inductive Symbol where
  | expr
  | ors (e : Expression)
  | and
  | ands (e : Expression)
  | unary
  | cond
  | operators (e : Expression)
  | value
  | elements
  | moreElements (list : List Expression)

inductive Derives : Symbol → List Token → Expression → Prop
  /-- `expr := and ('||' and)*` -/
  | expr {ts ts' e e'} : Derives .and ts e → Derives (.ors e) ts' e' → Derives .expr (ts ++ ts') e'
  | orsNil {e} : Derives (.ors e) [] e
  | orsCons {e token ts ts' e' e''} : token.type = .OR → Derives .and ts e' →
      Derives (.ors (.binaryOperation .OR e e')) ts' e'' →
      Derives (.ors e) (token :: (ts ++ ts')) e''
  /-- `and := unary ('&&' unary)*` -/
  | and {ts ts' e e'} : Derives .unary ts e → Derives (.ands e) ts' e' →
      Derives .and (ts ++ ts') e'
  | andsNil {e} : Derives (.ands e) [] e
  | andsCons {e token ts ts' e' e''} : token.type = .AND → Derives .unary ts e' →
      Derives (.ands (.binaryOperation .AND e e')) ts' e'' →
      Derives (.ands e) (token :: (ts ++ ts')) e''
  /-- `unary := '!'? cond` -/
  | not {token ts e} : token.type = .NOT → Derives .cond ts e →
      Derives .unary (token :: ts) (.unaryOperation .NOT e)
  | unary {ts e} : Derives .cond ts e → Derives .unary ts e
  /-- `cond := value (mathop value)* (binop value)?` -/
  | cond {ts ts' e e'} : Derives .value ts e → Derives (.operators e) ts' e' →
      Derives .cond (ts ++ ts') e'
  | operatorsNil {e} : Derives (.operators e) [] e
  | mathOp {e token ts ts' v e'} : token.type.typeIsMathOp → Derives .value ts v →
      Derives (.operators (.binaryOperation token.type e v)) ts' e' →
      Derives (.operators e) (token :: (ts ++ ts')) e'
  | binaryOp {e token ts v} : token.type.typeIsBinaryOp → Derives .value ts v →
      Derives (.operators e) (token :: ts) (.binaryOperation token.type e v)
  /-- `value := INT | STRING | IDENTIFIER | REGEX | '(' expr ')' | list` -/
  | int {token} : token.type = .INT →
      Derives .value [token] (.intValue (token.text.toInt.getD 0))
  | string {token} : token.type = .STRING →
      Derives .value [token] (.stringValue (literalValue 1 token.text))
  | identifier {token} : token.type = .IDENTIFIER →
      Derives .value [token] (.identifier token.text)
  | regex {token} : token.type = .REGULAR_EXPRESSION → Derives .value [token] (regexValue token)
  | parentheses {left ts right e} : left.type = .LP → Derives .expr ts e → right.type = .RP →
      Derives .value (left :: (ts ++ [right])) e
  /-- `list := '{' (value (',' value)*)? '}'`, the closing brace with the elements -/
  | list {left ts e} : left.type = .LIST_START → Derives .elements ts e →
      Derives .value (left :: ts) e
  | noElements {right} : right.type = .LIST_END →
      Derives .elements [right] (.listExpression [])
  | firstElement {ts ts' v e} : Derives .value ts v → Derives (.moreElements [v]) ts' e →
      Derives .elements (ts ++ ts') e
  | elementsEnd {right list} : right.type = .LIST_END →
      Derives (.moreElements list) [right] (.listExpression list)
  | nextElement {token ts ts' list v e} : token.type = .COMMA → Derives .value ts v →
      Derives (.moreElements (list ++ [v])) ts' e →
      Derives (.moreElements list) (token :: (ts ++ ts')) e

theorem typeIsUnaryOp_iff {type : TokenType} : type.typeIsUnaryOp = true ↔ type = .NOT := by
  cases type <;> decide

def startsValue : TokenType → Bool
  | .INT | .STRING | .IDENTIFIER | .REGULAR_EXPRESSION | .LP | .LIST_START => true
  | _ => false

theorem typeIsBinaryOp_of_typeIsMathOp {type : TokenType} (h : type.typeIsMathOp = true) :
    type.typeIsBinaryOp = false := by
  cases type <;> first | rfl | cases h

theorem typeIsUnaryOp_of_startsValue {type : TokenType} (h : startsValue type = true) :
    type.typeIsUnaryOp = false := by
  cases type <;> first | rfl | cases h

theorem parseValue_of_LP {fuel : Nat} {p : ParserState} (h : p.rest.head?.any (·.type = .LP) = true) :
    parseValue (fuel + 1) p = parseParentheses fuel p := by
  cases hRest : p.rest with
  | nil => simp [hRest] at h
  | cons token rest =>
    have hType : token.type = .LP := by simpa [hRest] using h
    simp only [parseValue, hRest, hType]

def Symbol.parse (fuel : Nat) : Symbol → ParserState → Option (Expression × ParserState)
  | expr => parseExpression fuel false
  | ors e => parseOrs fuel e
  | and => parseAnd fuel
  | ands e => parseAnds fuel e
  | unary => parseUnary fuel
  | cond => parseCondition fuel
  | operators e => parseOperators fuel e
  | value => parseValue fuel
  | elements => parseElements fuel [] true
  | moreElements list => parseElements fuel list false

/-- The fuel the function of a symbol takes beyond six for each token. -/
def Symbol.depth : Symbol → Nat
  | expr => 6
  | and => 5
  | unary => 4
  | cond | elements | moreElements _ => 3
  | value => 2
  | ors _ | ands _ | operators _ => 1

def Symbol.stops : Symbol → TokenType → Bool
  | expr, type | ors _, type => type == .RP
  | and, type | ands _, type => type == .RP || type == .OR
  | unary, type | cond, type | operators _, type => type == .RP || type == .OR || type == .AND
  | value, _ | elements, _ | moreElements _, _ => true

def TokenType.isInfix (op : TokenType) : Bool :=
  op.typeIsMathOp || op.typeIsBinaryOp || op == .AND || op == .OR

namespace Expression

mutual

def literals : Expression → List QString
  | .binaryOperation _ left right => literals left ++ literals right
  | .unaryOperation _ right => literals right
  | .listExpression list => literalsAll list
  | .regexExpression regex _ => [regex]
  | .stringValue value => [value]
  | _ => []

def literalsAll : List Expression → List QString
  | [] => []
  | e :: list => literals e ++ literalsAll list

end

mutual

def WellFormed : Expression → Prop
  | .binaryOperation op left right => op.isInfix = true ∧ WellFormed left ∧ WellFormed right
  | .unaryOperation op right => op = .NOT ∧ WellFormed right
  | .listExpression list => WellFormedAll list
  | .regexExpression regex _ => isValidUtf16 regex = true
  | .intValue value => 0 ≤ value ∧ IsInt32 value
  | .stringValue value => isValidUtf16 value = true
  | .identifier name => name ∈ validIdentifiers

def WellFormedAll : List Expression → Prop
  | [] => True
  | e :: list => WellFormed e ∧ WellFormedAll list

end

theorem literalsAll_append (list list' : List Expression) :
    literalsAll (list ++ list') = literalsAll list ++ literalsAll list' := by
  induction list with
  | nil => rfl
  | cons e list ih => rw [List.cons_append, literalsAll, literalsAll, ih, List.append_assoc]

theorem wellFormedAll_append {list list' : List Expression} :
    WellFormedAll (list ++ list') ↔ WellFormedAll list ∧ WellFormedAll list' := by
  induction list with
  | nil => exact (true_and _).symm.to_iff
  | cons e list ih => rw [List.cons_append, WellFormedAll, WellFormedAll, ih, and_assoc]

theorem WellFormedAll.of_mem {list : List Expression} (h : WellFormedAll list) {e : Expression}
    (he : e ∈ list) : e.WellFormed := by
  obtain ⟨before, after, rfl⟩ := List.append_of_mem he
  exact (wellFormedAll_append.mp h).2.1

end Expression

open Expression QString

def Symbol.trees : Symbol → List Expression
  | ors e | ands e | operators e => [e]
  | moreElements list => list
  | _ => []

theorem literalOf_eq_none {token : Token} (hString : token.type ≠ .STRING)
    (hRegex : token.type ≠ .REGULAR_EXPRESSION) : literalOf token = none := by
  unfold literalOf
  split
  · exact absurd ‹_› hString
  · exact absurd ‹_› hRegex
  · rfl

theorem literalOf_operator {token : Token} (h : token.type.isInfix = true) : literalOf token = none := by
  apply literalOf_eq_none
  · intro hType
    rw [hType] at h
    cases h
  · intro hType
    rw [hType] at h
    cases h

theorem Derives.literals {symbol : Symbol} {ts : List Token} {e : Expression} (h : Derives symbol ts e) :
    e.literals = literalsAll symbol.trees ++ ts.filterMap literalOf := by
  induction h with
  | expr _ _ ih ih' | and _ _ ih ih' | cond _ _ ih ih' =>
    simp only [ih', ih, Symbol.trees, literalsAll, List.filterMap_append]
    simp
  | orsNil | andsNil | operatorsNil => simp [Symbol.trees, literalsAll]
  | orsCons hType _ _ ih ih' | andsCons hType _ _ ih ih' =>
    rw [ih', List.filterMap_cons, literalOf_operator (by rw [hType]; rfl), List.filterMap_append]
    simp [Symbol.trees, literalsAll, Expression.literals, ih]
  | not hType _ ih =>
    rw [Expression.literals, ih, List.filterMap_cons,
      literalOf_eq_none (by rw [hType]; decide) (by rw [hType]; decide)]
    rfl
  | unary _ ih => exact ih
  | mathOp hMath _ _ ih ih' =>
    rw [ih', List.filterMap_cons, literalOf_operator (by simp [TokenType.isInfix, hMath]),
      List.filterMap_append]
    simp [Symbol.trees, literalsAll, Expression.literals, ih]
  | binaryOp hBinary _ ih =>
    rw [List.filterMap_cons, literalOf_operator (by simp [TokenType.isInfix, hBinary])]
    simp [Symbol.trees, literalsAll, Expression.literals, ih]
  | int hType | identifier hType | noElements hType =>
    rw [List.filterMap_cons, literalOf_eq_none (by rw [hType]; decide) (by rw [hType]; decide)]
    rfl
  | string hType | regex hType =>
    rw [List.filterMap_cons]
    simp only [literalOf, hType]
    rfl
  | parentheses hLeft _ hRight ih =>
    rw [List.filterMap_cons, literalOf_eq_none (by rw [hLeft]; decide) (by rw [hLeft]; decide),
      List.filterMap_append, List.filterMap_cons,
      literalOf_eq_none (by rw [hRight]; decide) (by rw [hRight]; decide), ih]
    simp [Symbol.trees]
  | list hType _ ih =>
    rw [List.filterMap_cons, literalOf_eq_none (by rw [hType]; decide) (by rw [hType]; decide)]
    exact ih
  | firstElement _ _ ih ih' =>
    rw [ih', List.filterMap_append]
    simp [Symbol.trees, literalsAll, ih]
  | elementsEnd hType =>
    rw [List.filterMap_cons, literalOf_eq_none (by rw [hType]; decide) (by rw [hType]; decide)]
    simp [Symbol.trees, Expression.literals]
  | nextElement hType _ _ ih ih' =>
    rw [ih', List.filterMap_cons, literalOf_eq_none (by rw [hType]; decide) (by rw [hType]; decide),
      List.filterMap_append]
    simp [Symbol.trees, literalsAll, literalsAll_append, ih]

theorem Derives.wellFormed {symbol : Symbol} {ts : List Token} {e : Expression}
    (h : Derives symbol ts e) (hTokens : ∀ token ∈ ts, WellFormedToken token)
    (hTrees : WellFormedAll symbol.trees) : WellFormed e := by
  induction h with
  | expr _ _ ih ih' | and _ _ ih ih' | cond _ _ ih ih' | firstElement _ _ ih ih' =>
    rw [List.forall_mem_append] at hTokens
    exact ih' hTokens.2 ⟨ih hTokens.1 trivial, trivial⟩
  | orsNil | andsNil | operatorsNil => exact hTrees.1
  | orsCons hType _ _ ih ih' | andsCons hType _ _ ih ih' =>
    rw [List.forall_mem_cons, List.forall_mem_append] at hTokens
    exact ih' hTokens.2.2 ⟨⟨rfl, hTrees.1, ih hTokens.2.1 trivial⟩, trivial⟩
  | not hType _ ih =>
    rw [List.forall_mem_cons] at hTokens
    exact ⟨rfl, ih hTokens.2 trivial⟩
  | unary _ ih => exact ih hTokens hTrees
  | mathOp hMath _ _ ih ih' =>
    rw [List.forall_mem_cons, List.forall_mem_append] at hTokens
    exact ih' hTokens.2.2
      ⟨⟨by simp [TokenType.isInfix, hMath], hTrees.1, ih hTokens.2.1 trivial⟩, trivial⟩
  | binaryOp hBinary _ ih =>
    rw [List.forall_mem_cons] at hTokens
    exact ⟨by simp [TokenType.isInfix, hBinary], hTrees.1, ih hTokens.2 trivial⟩
  | int hType =>
    obtain ⟨n, hInt, hNonneg⟩ := (List.forall_mem_singleton.mp hTokens).int hType
    rw [hInt]
    exact ⟨hNonneg, isInt32_of_toInt hInt⟩
  | string hType | regex hType =>
    refine (List.forall_mem_singleton.mp hTokens).literal _ ?_
    simp only [literalOf, hType]
  | identifier hType => exact (List.forall_mem_singleton.mp hTokens).identifier hType
  | parentheses _ _ _ ih =>
    rw [List.forall_mem_cons, List.forall_mem_append] at hTokens
    exact ih hTokens.2.1 trivial
  | list _ _ ih =>
    rw [List.forall_mem_cons] at hTokens
    exact ih hTokens.2 trivial
  | noElements => trivial
  | elementsEnd => exact hTrees
  | nextElement _ _ _ ih ih' =>
    rw [List.forall_mem_cons, List.forall_mem_append] at hTokens
    exact ih' hTokens.2.2 (wellFormedAll_append.mpr ⟨hTrees, ih hTokens.2.1 trivial, trivial⟩)

end Chatterino.Filters
