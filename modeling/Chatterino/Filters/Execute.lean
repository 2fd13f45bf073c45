import Chatterino.Filters.Expression
import Chatterino.Qt.QVariant

/-! # Evaluating filter expressions

The evaluation is parametrised by the integer operations. The program's are those of a 32-bit `int`,
where a result that does not fit and a division by zero are undefined.
-/

namespace Chatterino.Filters

open QVariant

abbrev ContextMap := List (QString × QVariant)

def ContextMap.value (context : ContextMap) (name : QString) : QVariant :=
  (context.lookup name).getD .invalid

inductive Trap where
  | divisionByZero | overflow
deriving DecidableEq, Repr

/-- The result of an operation in unbounded integers, with zero for a division by zero. -/
def integerResult (op : TokenType) (a b : Int) : Int :=
  match op with
  | .PLUS => a + b
  | .MINUS => a - b
  | .MULTIPLY => a * b
  | .DIVIDE => a.tdiv b
  | .MOD => a.tmod b
  | _ => 0

def int32Result (op : TokenType) (a b : Int) : Except Trap Int :=
  match op with
  | .DIVIDE | .MOD =>
    if b = 0 then .error .divisionByZero
    else if a = -2147483648 ∧ b = -1 then .error .overflow
    else .ok (integerResult op a b)
  | _ =>
    if IsInt32 (integerResult op a b) then .ok (integerResult op a b) else .error .overflow

section values

variable (qt : QtLibrary)

def convertToInts (left right : QVariant) : Option (Int × Int) := do
  let l ← left.intValue
  let r ← right.intValue
  return (l, r)

def convertToBools (left right : QVariant) : Option (Bool × Bool) := do
  let l ← left.boolValue qt
  let r ← right.boolValue qt
  return (l, r)

/-- The conversion goes to the type of `lhs` if there is one, else to that of `rhs`. -/
def looselyCompareVariants (lhs rhs : QVariant) : Bool :=
  if lhs.metaType ≠ rhs.metaType then
    if rhs.canConvert lhs.metaType then
      match rhs.convert qt lhs.metaType with
      | none => false
      | some rhs => lhs.equals rhs
    else
      match lhs.convert qt rhs.metaType with
      | none => false
      | some lhs => rhs.equals lhs
  else lhs.equals rhs

def equalVariants (left right : QVariant) : Bool :=
  match left, right with
  | string l, string r => qt.equalsCaseInsensitive l r
  | left, right => looselyCompareVariants qt left right

def compareInts (relation : Int → Int → Bool) (left right : QVariant) : Bool :=
  match convertToInts left right with
  | some (l, r) => relation l r
  | none => false

def containsVariant (left right : QVariant) : Bool :=
  match left with
  | stringList l =>
    if right.canConvert .QString then l.any (qt.equalsCaseInsensitive · (right.toString qt))
    else textRelation qt.containsCaseInsensitive left right
  | map keys _ => right.canConvert .QString && right.toString qt ∈ keys
  | list l => l.any (·.equals right)
  | left => textRelation qt.containsCaseInsensitive left right
where
  textRelation (relation : QString → QString → Bool) (left right : QVariant) : Bool :=
    left.canConvert .QString && right.canConvert .QString &&
      relation (left.toString qt) (right.toString qt)

/-- `STARTS_WITH` and `ENDS_WITH`: the element a list is asked for, and the relation of texts. -/
def endOfVariant (pick : {α : Type} → List α → Option α) (relation : QString → QString → Bool)
    (left right : QVariant) : Bool :=
  match left with
  | stringList l =>
    if right.canConvert .QString then
      match pick l with
      | none => false
      | some s => qt.equalsCaseInsensitive s (right.toString qt)
    else containsVariant.textRelation qt relation left right
  | list l =>
    match pick l with
    | none => false
    | some v => v.equals right
  | left => containsVariant.textRelation qt relation left right

def captured (groups : List QString) (n : Int) : QString :=
  if n < 0 then [] else groups.getD n.toNat []

def matchVariant (left right : QVariant) : QVariant :=
  if !left.canConvert .QString then bool false
  else
    let matching := left.toString qt
    match right with
    | regularExpression pattern caseInsensitive =>
      bool (qt.regexMatch pattern caseInsensitive matching).isSome
    | list [regularExpression pattern caseInsensitive, int group] =>
      match qt.regexMatch pattern caseInsensitive matching with
      | some groups => string (captured groups group)
      | none => string []
    | _ => bool false

def unaryOperationValue (op : TokenType) (right : QVariant) : QVariant :=
  match op with
  | .NOT => bool (right.canConvert .Bool && !right.toBool qt)
  | _ => bool false

def listExpressionValue (results : List QVariant) : QVariant :=
  if results.all (·.metaType = .QString) then stringList (results.map (·.toString qt))
  else list results

end values

section execute

variable {m : Type → Type} [Monad m] (arith : TokenType → Int → Int → m Int) (qt : QtLibrary)

def arithmeticValue (op : TokenType) (left right : QVariant) : m QVariant :=
  match convertToInts left right with
  | some (l, r) => int <$> arith op l r
  | none => pure (int 0)

def binaryOperationValue (op : TokenType) (left right : QVariant) : m QVariant :=
  match op with
  | .PLUS =>
    if left.metaType = .QString ∧ right.canConvert .QString then
      pure (string (left.toString qt ++ right.toString qt))
    else arithmeticValue arith op left right
  | .MINUS | .MULTIPLY | .DIVIDE | .MOD => arithmeticValue arith op left right
  | .OR => pure (bool (match convertToBools qt left right with
    | some (l, r) => l || r
    | none => false))
  | .AND => pure (bool (match convertToBools qt left right with
    | some (l, r) => l && r
    | none => false))
  | .EQ => pure (bool (equalVariants qt left right))
  | .NEQ => pure (bool (!equalVariants qt left right))
  | .LT => pure (bool (compareInts (· < ·) left right))
  | .GT => pure (bool (compareInts (· > ·) left right))
  | .LTE => pure (bool (compareInts (· ≤ ·) left right))
  | .GTE => pure (bool (compareInts (· ≥ ·) left right))
  | .CONTAINS => pure (bool (containsVariant qt left right))
  | .STARTS_WITH =>
    pure (bool (endOfVariant qt List.head? qt.startsWithCaseInsensitive left right))
  | .ENDS_WITH =>
    pure (bool (endOfVariant qt List.getLast? qt.endsWithCaseInsensitive left right))
  | .MATCH => pure (matchVariant qt left right)
  | _ => pure (bool false)

variable (context : ContextMap)

namespace Expression

mutual

/-- Both operands are always evaluated. -/
def execute : Expression → m QVariant
  | .binaryOperation op left right => do
    let l ← execute left
    let r ← execute right
    binaryOperationValue arith qt op l r
  | .unaryOperation op right => do
    let r ← execute right
    return unaryOperationValue qt op r
  | .listExpression es => do
    let results ← executeAll es
    return listExpressionValue qt results
  | .regexExpression regex caseInsensitive => return regularExpression regex caseInsensitive
  | .intValue value => return int value
  | .stringValue value => return string value
  | .identifier name => return context.value name

def executeAll : List Expression → m (List QVariant)
  | [] => return []
  | e :: es => do
    let v ← execute e
    let results ← executeAll es
    return v :: results

end

end Expression

end execute

end Chatterino.Filters
