import Chatterino.Qt.QStringArg

/-! # Token types and filter types -/

namespace Chatterino.Filters

inductive TokenType where
  | AND | OR | LP | RP | LIST_START | LIST_END | COMMA
  | EQ | NEQ | LT | GT | LTE | GTE | CONTAINS | STARTS_WITH | ENDS_WITH | MATCH
  | NOT
  | PLUS | MINUS | MULTIPLY | DIVIDE | MOD
  | STRING | INT | IDENTIFIER | REGULAR_EXPRESSION | NONE
deriving DecidableEq, Repr

namespace TokenType

/-- The number of the enumerator. The ranges between the markers are the classes of operators. -/
def value : TokenType → Nat
  | AND => 1 | OR => 2 | LP => 3 | RP => 4 | LIST_START => 5 | LIST_END => 6 | COMMA => 7
  | EQ => 21 | NEQ => 22 | LT => 23 | GT => 24 | LTE => 25 | GTE => 26 | CONTAINS => 27
  | STARTS_WITH => 28 | ENDS_WITH => 29 | MATCH => 30
  | NOT => 51
  | PLUS => 101 | MINUS => 102 | MULTIPLY => 103 | DIVIDE => 104 | MOD => 105
  | STRING => 151 | INT => 152 | IDENTIFIER => 153 | REGULAR_EXPRESSION => 154 | NONE => 200

def typeIsBinaryOp (token : TokenType) : Bool := 20 < token.value && token.value < 49

def typeIsUnaryOp (token : TokenType) : Bool := 50 < token.value && token.value < 99

def typeIsMathOp (token : TokenType) : Bool := 100 < token.value && token.value < 149

def typeIsOp (token : TokenType) : Bool :=
  token.typeIsBinaryOp || token.typeIsUnaryOp || token.typeIsMathOp || token == AND || token == OR

def tokenTypeToInfoString (type : TokenType) : QString :=
  .lit <| match type with
  | AND => "And"
  | OR => "Or"
  | LP => "<left parenthesis>"
  | RP => "<right parenthesis>"
  | LIST_START => "<list start>"
  | LIST_END => "<list end>"
  | COMMA => "<comma>"
  | PLUS => "Plus"
  | MINUS => "Minus"
  | MULTIPLY => "Multiply"
  | DIVIDE => "Divide"
  | MOD => "Mod"
  | EQ => "Eq"
  | NEQ => "NotEq"
  | LT => "LessThan"
  | GT => "GreaterThan"
  | LTE => "LessThanEq"
  | GTE => "GreaterThanEq"
  | CONTAINS => "Contains"
  | STARTS_WITH => "StartsWith"
  | ENDS_WITH => "EndsWith"
  | MATCH => "Match"
  | NOT => "Not"
  | STRING => "<string>"
  | INT => "<int>"
  | IDENTIFIER => "<identifier>"
  | REGULAR_EXPRESSION | NONE => "<unknown>"

end TokenType

/-- The source's `Type`. -/
inductive FilterType where
  | String | Int | Bool | Color | RegularExpression | List | StringList | MatchingSpecifier | Map
deriving DecidableEq, Repr

def isList : FilterType → Bool
  | .List | .StringList | .MatchingSpecifier => true
  | _ => false

abbrev TypingContext := List (QString × FilterType)

/-- The nodes of the tree. A `ValueExpression` is one of the last three. -/
inductive Expression where
  | binaryOperation (op : TokenType) (left right : Expression)
  | unaryOperation (op : TokenType) (right : Expression)
  | listExpression (list : List Expression)
  | regexExpression (regex : QString) (caseInsensitive : Bool)
  | intValue (value : Int)
  | stringValue (value : QString)
  | identifier (name : QString)

namespace Expression

@[induction_eliminator]
theorem induction {motive : Expression → Prop}
    (binaryOperation : ∀ op left right, motive left → motive right →
      motive (.binaryOperation op left right))
    (unaryOperation : ∀ op right, motive right → motive (.unaryOperation op right))
    (listExpression : ∀ list, (∀ e ∈ list, motive e) → motive (.listExpression list))
    (regexExpression : ∀ regex caseInsensitive, motive (.regexExpression regex caseInsensitive))
    (intValue : ∀ value, motive (.intValue value))
    (stringValue : ∀ value, motive (.stringValue value))
    (identifier : ∀ name, motive (.identifier name)) (e : Expression) : motive e :=
  Expression.rec (motive_1 := motive) (motive_2 := fun list => ∀ e ∈ list, motive e)
    binaryOperation unaryOperation listExpression regexExpression intValue stringValue identifier
    (fun _ h => absurd h List.not_mem_nil)
    (fun _ _ hHead hTail _ h => (List.mem_cons.mp h).elim (fun hEq => hEq ▸ hHead) (hTail _)) e

end Expression

structure IllTyped where
  expr : Expression
  message : QString

abbrev PossibleType := Except IllTyped FilterType

def illTyped (expr : Expression) (message : String) : PossibleType :=
  .error ⟨expr, .lit message⟩

/-- The type of the operation `self`, from those of its operands. -/
def binaryOperationType (self : Expression) (op : TokenType) (left right : FilterType) :
    PossibleType :=
  match op with
  | .PLUS =>
    if left = .String then .ok .String
    else if left = .Int ∧ right = .Int then .ok .Int
    else illTyped self "Can only add Ints or concatenate a String"
  | .MINUS | .MULTIPLY | .DIVIDE | .MOD =>
    if left = .Int ∧ right = .Int then .ok .Int
    else illTyped self "Can only perform operation with Ints"
  | .OR | .AND =>
    if left = .Bool ∧ right = .Bool then .ok .Bool
    else illTyped self "Can only perform logical operations with Bools"
  | .EQ | .NEQ => .ok .Bool
  | .LT | .GT | .LTE | .GTE =>
    if left = .Int ∧ right = .Int then .ok .Bool
    else illTyped self "Can only perform comparisons with Ints"
  | .STARTS_WITH | .ENDS_WITH =>
    if isList left then .ok .Bool
    else if left = .String ∧ right = .String then .ok .Bool
    else illTyped self "Can only perform starts/ends with a List or two Strings"
  | .CONTAINS =>
    if isList left ∨ left = .Map then .ok .Bool
    else if left = .String ∧ right = .String then .ok .Bool
    else illTyped self "Can only perform contains with a List, a Map, or two Strings"
  | .MATCH =>
    if left ≠ .String then illTyped self "Left argument of match must be a String"
    else if right = .RegularExpression then .ok .Bool
    else if right = .MatchingSpecifier then .ok .String
    else illTyped self "Can only match on a RegularExpression or a MatchingSpecifier"
  | _ => illTyped self "Not implemented"

def unaryOperationType (self : Expression) (op : TokenType) (right : FilterType) : PossibleType :=
  match op with
  | .NOT => if right = .Bool then .ok .Bool else illTyped self "Can only negate boolean values"
  | _ => illTyped self "Not implemented"

def listExpressionType (types : List FilterType) : FilterType :=
  if types = [.RegularExpression, .Int] then .MatchingSpecifier
  else if types.all (· = .String) then .StringList
  else .List

namespace Expression

mutual

def synthesizeType (context : TypingContext) : Expression → PossibleType
  | .binaryOperation op left right => do
    let leftType ← synthesizeType context left
    let rightType ← synthesizeType context right
    binaryOperationType (.binaryOperation op left right) op leftType rightType
  | .unaryOperation op right => do
    let rightType ← synthesizeType context right
    unaryOperationType (.unaryOperation op right) op rightType
  | .listExpression list => do
    let types ← synthesizeTypes context list
    return listExpressionType types
  | .regexExpression .. => .ok .RegularExpression
  | .intValue _ => .ok .Int
  | .stringValue _ => .ok .String
  | .identifier name =>
    match context.lookup name with
    | some type => .ok type
    | none => illTyped (.identifier name) "Unbound identifier"

def synthesizeTypes (context : TypingContext) : List Expression → Except IllTyped (List FilterType)
  | [] => .ok []
  | e :: list => do
    let type ← synthesizeType context e
    let types ← synthesizeTypes context list
    return type :: types

end

end Expression

open QString

/-- `replace("\"", "\\\"")`. -/
def escapeQuotes (s : QString) : QString := s.flatMap fun c => if c = 0x22 then lit "\\\"" else [c]

def binaryOpText (op : TokenType) : QString :=
  lit <| match op with
  | .AND => "&&"
  | .OR => "||"
  | .PLUS => "+"
  | .MINUS => "-"
  | .MULTIPLY => "*"
  | .DIVIDE => "/"
  | .MOD => "%"
  | .EQ => "=="
  | .NEQ => "!="
  | .LT => "<"
  | .GT => ">"
  | .LTE => "<="
  | .GTE => ">="
  | .CONTAINS => "contains"
  | .STARTS_WITH => "startswith"
  | .ENDS_WITH => "endswith"
  | .MATCH => "match"
  | _ => ""

def unaryOpText (op : TokenType) : QString :=
  lit <| match op with
  | .NOT => "!"
  | _ => ""

namespace Expression

mutual

def filterString : Expression → QString
  | .binaryOperation op left right =>
    (((lit "(%1 %2 %3)").arg (filterString left)).arg (binaryOpText op)).arg (filterString right)
  | .unaryOperation op right => ((lit "(%1%2)").arg (unaryOpText op)).arg (filterString right)
  | .listExpression list => (lit "{%1}").arg ((lit ", ").intercalate (filterStrings list))
  | .regexExpression regex caseInsensitive =>
    ((lit "%1\"%2\"").arg (lit (if caseInsensitive then "ri" else "r"))).arg (escapeQuotes regex)
  | .intValue value => number value
  | .stringValue value => (lit "\"%1\"").arg (escapeQuotes value)
  | .identifier name => name

def filterStrings : List Expression → List QString
  | [] => []
  | e :: list => filterString e :: filterStrings list

end

end Expression

structure Token where
  text : QString
  type : TokenType
deriving DecidableEq

structure ParserState where
  rest : List Token
  valid_ : Bool := true
  parseLog_ : List QString := []
deriving DecidableEq

/-- The first error is kept, further ones with `expand` only. -/
def ParserState.errorLog (p : ParserState) (text : QString) (expand : Bool := false) : ParserState :=
  { p with
    valid_ := false
    parseLog_ := if expand || p.parseLog_.isEmpty then p.parseLog_ ++ [text] else p.parseLog_ }

/-- `replace("\\\"", "\"")`. -/
def unescapeQuotes : QString → QString
  | [] => []
  | [c] => [c]
  | c :: d :: s =>
    if c = 0x5C ∧ d = 0x22 then 0x22 :: unescapeQuotes s else c :: unescapeQuotes (d :: s)

/-- The text between the quotes of a literal that starts with `skip` characters. -/
def literalValue (skip : Nat) (text : QString) : QString := unescapeQuotes (text.drop skip).dropLast

def Token.isCaseInsensitiveRegex (token : Token) : Bool := (QString.lit "ri").isPrefixOf token.text

def regexValue (token : Token) : Expression :=
  let caseInsensitive := token.isCaseInsensitiveRegex
  .regexExpression (literalValue (if caseInsensitive then 3 else 2) token.text) caseInsensitive

/-- The message about the token `got`. -/
def gotMessage (message : String) (got : Token) : QString := (QString.lit message).arg got.text

def gotTypeMessage (message : String) (got : Token) : QString :=
  (gotMessage message got).arg got.type.tokenTypeToInfoString

mutual

def parseExpression : Nat → Bool → ParserState → Option (Expression × ParserState)
  | 0, _, _ => none
  | fuel + 1, top, p => do
    let (e, p) ← parseAnd fuel p
    let (e, p) ← parseOrs fuel e p
    match p.rest with
    | token :: _ =>
      return (e, if top then p.errorLog (gotMessage "Unexpected token at end: %1" token) else p)
    | [] => return (e, p)

/-- The loop of `parseExpression`. -/
def parseOrs : Nat → Expression → ParserState → Option (Expression × ParserState)
  | 0, _, _ => none
  | fuel + 1, e, p =>
    match p.rest with
    | token :: rest =>
      if token.type = .OR then do
        let (nextAnd, p) ← parseAnd fuel { p with rest }
        parseOrs fuel (.binaryOperation .OR e nextAnd) p
      else return (e, p)
    | [] => return (e, p)

def parseAnd : Nat → ParserState → Option (Expression × ParserState)
  | 0, _ => none
  | fuel + 1, p => do
    let (e, p) ← parseUnary fuel p
    parseAnds fuel e p

/-- The loop of `parseAnd`. -/
def parseAnds : Nat → Expression → ParserState → Option (Expression × ParserState)
  | 0, _, _ => none
  | fuel + 1, e, p =>
    match p.rest with
    | token :: rest =>
      if token.type = .AND then do
        let (nextUnary, p) ← parseUnary fuel { p with rest }
        parseAnds fuel (.binaryOperation .AND e nextUnary) p
      else return (e, p)
    | [] => return (e, p)

def parseUnary : Nat → ParserState → Option (Expression × ParserState)
  | 0, _ => none
  | fuel + 1, p =>
    match p.rest with
    | token :: rest =>
      if token.type.typeIsUnaryOp then do
        let (nextCondition, p) ← parseCondition fuel { p with rest }
        return (.unaryOperation token.type nextCondition, p)
      else parseCondition fuel p
    | [] => parseCondition fuel p

/-- Called when the next token is a left parenthesis. -/
def parseParentheses : Nat → ParserState → Option (Expression × ParserState)
  | 0, _ => none
  | fuel + 1, p => do
    let (e, p) ← parseExpression fuel false { p with rest := p.rest.tail }
    match p.rest with
    | token :: rest =>
      if token.type = .RP then return (e, { p with rest })
      else return (e, p.errorLog (gotMessage "Missing closing parentheses: got %1" token))
    | [] => return (e, p.errorLog (.lit "Missing closing parentheses at end of statement"))

def parseCondition : Nat → ParserState → Option (Expression × ParserState)
  | 0, _ => none
  | fuel + 1, p => do
    let (value, p) ←
      if p.rest.head?.any (·.type = .LP) then parseParentheses fuel p else parseValue fuel p
    parseOperators fuel value p

/-- The loop of `parseCondition`, which ends after the first binary operator. -/
def parseOperators : Nat → Expression → ParserState → Option (Expression × ParserState)
  | 0, _, _ => none
  | fuel + 1, value, p =>
    match p.rest with
    | token :: rest =>
      if token.type.typeIsBinaryOp then do
        let (nextValue, p) ← parseValue fuel { p with rest }
        return (.binaryOperation token.type value nextValue, p)
      else if token.type.typeIsMathOp then do
        let (nextValue, p) ← parseValue fuel { p with rest }
        parseOperators fuel (.binaryOperation token.type value nextValue) p
      else if token.type = .RP then return (value, p)
      else if !token.type.typeIsOp then
        return (value, p.errorLog (gotTypeMessage "Expected an operator but got %1 %2" token))
      else return (value, p)
    | [] => return (value, p)

def parseValue : Nat → ParserState → Option (Expression × ParserState)
  | 0, _ => none
  | fuel + 1, p =>
    match p.rest with
    | token :: rest =>
      match token.type with
      | .INT => return (.intValue (token.text.toInt.getD 0), { p with rest })
      | .STRING => return (.stringValue (literalValue 1 token.text), { p with rest })
      | .IDENTIFIER => return (.identifier token.text, { p with rest })
      | .REGULAR_EXPRESSION => return (regexValue token, { p with rest })
      | .LP => parseParentheses fuel p
      | .LIST_START => parseList fuel p
      | _ =>
        let p := { p with rest }
        return (.intValue 0, p.errorLog (gotTypeMessage "Expected value but got %1 %2" token))
    | [] => return (.intValue 0, p.errorLog (.lit "Unexpected end of statement"))

def parseList : Nat → ParserState → Option (Expression × ParserState)
  | 0, _ => none
  | fuel + 1, p => parseElements fuel [] true { p with rest := p.rest.tail }

/-- The loop of `parseList`. -/
def parseElements : Nat → List Expression → Bool → ParserState → Option (Expression × ParserState)
  | 0, _, _, _ => none
  | fuel + 1, list, first, p =>
    match p.rest with
    | token :: rest =>
      if token.type = .LIST_END then return (.listExpression list, { p with rest })
      else if token.type = .COMMA ∧ first = false then do
        let (value, p) ← parseValue fuel { p with rest }
        parseElements fuel (list ++ [value]) false p
      else if first then do
        let (value, p) ← parseValue fuel p
        parseElements fuel (list ++ [value]) false p
      else
        return (.listExpression [], p.errorLog (gotMessage "Missing closing list braces: got %1" token))
    | [] =>
      return (.listExpression [], p.errorLog (.lit "Missing closing list braces at end of statement"))

end

def parseFuel (tokens : List Token) : Nat := 6 * tokens.length + 6

/-- What `parseExpression(true)` builds from the tokens, and the parser after it. -/
def parseTokens (tokens : List Token) : Option (Expression × ParserState) :=
  parseExpression (parseFuel tokens) true { rest := tokens }

end Chatterino.Filters
