import Chatterino.Qt.QString

/-! # Variants

The types a filter computes with, and the conversions between them that `QVariant::convert` has in
Qt 6.
-/

namespace Chatterino

structure QColor where
  isValid : Bool := false
  alpha : UInt16 := 0
  red : UInt16 := 0
  green : UInt16 := 0
  blue : UInt16 := 0
deriving DecidableEq

/-- What rests on the tables of Qt: case folding, the names of colours, and the regular expression engine. -/
structure QtLibrary where
  equalsCaseInsensitive : QString → QString → Bool
  containsCaseInsensitive : QString → QString → Bool
  startsWithCaseInsensitive : QString → QString → Bool
  endsWithCaseInsensitive : QString → QString → Bool
  toLower : QString → QString
  colorName : QColor → QString
  colorFromString : QString → Option QColor
  regexMatch : QString → Bool → QString → Option (List QString)

inductive MetaType where
  | UnknownType | Bool | Int | LongLong | QString | QColor | QRegularExpression | QStringList
  | QVariantList | QVariantMap
deriving DecidableEq, Repr

inductive QVariant where
  | invalid
  | bool (value : Bool)
  | int (value : Int)
  | longLong (value : Int)
  | string (value : QString)
  | color (value : QColor)
  | regularExpression (pattern : QString) (caseInsensitive : Bool)
  | stringList (value : List QString)
  | list (value : List QVariant)
  | map (keys : List QString) (values : List QVariant)

namespace QVariant

def metaType : QVariant → MetaType
  | invalid => .UnknownType
  | bool _ => .Bool
  | int _ => .Int
  | longLong _ => .LongLong
  | string _ => .QString
  | color _ => .QColor
  | regularExpression .. => .QRegularExpression
  | stringList _ => .QStringList
  | list _ => .QVariantList
  | map .. => .QVariantMap

/-- `QMetaType::canConvert`. -/
def canConvertMetaType : MetaType → MetaType → Bool
  | .UnknownType, _ | _, .UnknownType => false
  | .Bool, .Int | .Bool, .LongLong | .Bool, .QString => true
  | .Int, .Bool | .Int, .LongLong | .Int, .QString => true
  | .LongLong, .Bool | .LongLong, .Int | .LongLong, .QString => true
  | .QString, .Bool | .QString, .Int | .QString, .LongLong | .QString, .QColor => true
  | .QString, .QStringList => true
  | .QColor, .QString => true
  | .QStringList, .QString | .QStringList, .QVariantList => true
  | .QVariantList, .QStringList => true
  | source, target => source == target

def canConvert (v : QVariant) (target : MetaType) : Bool := canConvertMetaType v.metaType target

/-- The conversion of a 64-bit integer to an `int`. -/
def truncate (n : Int) : Int := n.bmod 4294967296

variable (qt : QtLibrary)

/-- A text is true unless it is empty, `0` or `false`. -/
def boolOfString (s : QString) : Bool :=
  let lower := qt.toLower s
  !(lower.isEmpty || lower == .lit "0" || lower == .lit "false")

def boolText (b : Bool) : QString := if b then .lit "true" else .lit "false"

/-- The text of a variant, `none` when there is none to convert to. -/
def stringValue : QVariant → Option QString
  | bool b => some (boolText b)
  | int n | longLong n => some (.number n)
  | string s => some s
  | color c => some (qt.colorName c)
  | stringList [s] => some s
  | _ => none

def intValue : QVariant → Option Int
  | bool b => some (if b then 1 else 0)
  | int n => some n
  | longLong n => some (truncate n)
  | string s => s.toInt
  | _ => none

def longLongValue : QVariant → Option Int
  | bool b => some (if b then 1 else 0)
  | int n | longLong n => some n
  | string s => s.toLongLong
  | _ => none

def boolValue : QVariant → Option Bool
  | bool b => some b
  | int n | longLong n => some (n ≠ 0)
  | string s => some (boolOfString qt s)
  | _ => none

/-- `QVariant::toString`. -/
def toString (v : QVariant) : QString := (v.stringValue qt).getD []

def toBool (v : QVariant) : Bool := (v.boolValue qt).getD false

/-- `QVariant::convert`, `none` when it fails. -/
def convert (v : QVariant) : MetaType → Option QVariant
  | .UnknownType => none
  | .Bool => (v.boolValue qt).map bool
  | .Int => v.intValue.map int
  | .LongLong => v.longLongValue.map longLong
  | .QString => (v.stringValue qt).map string
  | .QColor =>
    match v with
    | color c => some (color c)
    | string s => (qt.colorFromString s).map color
    | _ => none
  | .QRegularExpression =>
    match v with
    | regularExpression pattern caseInsensitive => some (regularExpression pattern caseInsensitive)
    | _ => none
  | .QStringList =>
    match v with
    | stringList l => some (stringList l)
    | string s => some (stringList [s])
    | list l => some (stringList (l.map fun v => v.toString qt))
    | _ => none
  | .QVariantList =>
    match v with
    | list l => some (list l)
    | stringList l => some (list (l.map string))
    | _ => none
  | .QVariantMap =>
    match v with
    | map keys values => some (map keys values)
    | _ => none

def numericValue : QVariant → Option Int
  | bool b => some (if b then 1 else 0)
  | int n | longLong n => some n
  | _ => none

mutual

/-- `QVariant::operator==`. -/
def equals : QVariant → QVariant → Bool
  | invalid, invalid => true
  | string s, string t => s == t
  | color c, color d => c == d
  | regularExpression p c, regularExpression q d => p == q && c == d
  | stringList l, stringList k => l == k
  | list l, list k => equalsList l k
  | map keys values, map keys' values' => keys == keys' && equalsList values values'
  | v, w =>
    match v.numericValue, w.numericValue with
    | some m, some n => m == n
    | _, _ => false

def equalsList : List QVariant → List QVariant → Bool
  | [], [] => true
  | v :: l, w :: k => equals v w && equalsList l k
  | _, _ => false

end

end QVariant

end Chatterino
