import Chatterino.Filters.Arithmetic

/-! # The types of filters and of their values

A String expression can evaluate to something else: a concatenation with an operand that has no
text is the number zero, and a match whose group is given by a 64-bit integer is false.
-/

namespace Chatterino.Filters

open QVariant

def HasRuntimeType (v : QVariant) : FilterType → Prop
  | .String => v.metaType = .QString
  | .Int => v.metaType = .Int ∨ v.metaType = .LongLong
  | .Bool => v.metaType = .Bool
  | .Color => v.metaType = .QColor
  | .RegularExpression => v.metaType = .QRegularExpression
  | .StringList | .List | .MatchingSpecifier => v.metaType = .QStringList ∨ v.metaType = .QVariantList
  | .Map => v.metaType = .QVariantMap

namespace Expression

def specifiesGroup : Expression → Bool
  | .listExpression [_, .identifier name] => name ≠ QString.lit "message.length"
  | .listExpression [_, _] => true
  | _ => false

mutual

/-- The expression evaluates to a string: a concatenation if its left operand does and its right
operand has a text, and a match if it specifies a group. -/
def Textual : Expression → Bool
  | .binaryOperation op left right =>
    match op with
    | .PLUS => Textual left && HasText right
    | .MATCH => specifiesGroup right
    | _ => false
  | .stringValue _ => true
  | .identifier name => MESSAGE_TYPING_CONTEXT.lookup name = some .String
  | _ => false

/-- The value converts to a string: that of a regular expression does not, and that of a list does
only if all its elements are strings. -/
def HasText : Expression → Bool
  | .regexExpression .. => false
  | .listExpression es => AllTextual es
  | _ => true

def AllTextual : List Expression → Bool
  | [] => true
  | e :: es => Textual e && AllTextual es

end

@[simp] theorem textual_concatenation (left right : Expression) :
    Textual (.binaryOperation .PLUS left right) = (Textual left && HasText right) := rfl

@[simp] theorem textual_match (left right : Expression) :
    Textual (.binaryOperation .MATCH left right) = specifiesGroup right := rfl

@[simp] theorem textual_binaryOperation {op : TokenType} (hPlus : op ≠ .PLUS) (hMatch : op ≠ .MATCH)
    (left right : Expression) : Textual (.binaryOperation op left right) = false := by
  cases op
  case PLUS => exact absurd rfl hPlus
  case MATCH => exact absurd rfl hMatch
  all_goals rfl

@[simp] theorem textual_unaryOperation (op : TokenType) (right : Expression) :
    Textual (.unaryOperation op right) = false := rfl

@[simp] theorem textual_listExpression (es : List Expression) : Textual (.listExpression es) = false := rfl

@[simp] theorem textual_regexExpression (regex : QString) (caseInsensitive : Bool) :
    Textual (.regexExpression regex caseInsensitive) = false := rfl

@[simp] theorem textual_intValue (n : Int) : Textual (.intValue n) = false := rfl

@[simp] theorem textual_stringValue (text : QString) : Textual (.stringValue text) = true := rfl

@[simp] theorem textual_identifier (name : QString) :
    Textual (.identifier name) = decide (MESSAGE_TYPING_CONTEXT.lookup name = some .String) := rfl

theorem hasText_listExpression (es : List Expression) : HasText (.listExpression es) = AllTextual es := rfl

theorem allTextual_cons (e : Expression) (es : List Expression) :
    AllTextual (e :: es) = (Textual e && AllTextual es) := rfl

end Expression

/-- What is known of the value of an expression of a type. -/
def ValueShape (e : Expression) (v : QVariant) : FilterType → Prop
  | .String => v.metaType = .QString ∨ v.metaType = .Int ∨ v.metaType = .Bool
  | .Int =>
    v.metaType = .Int ∧ e ≠ .identifier (QString.lit "message.length") ∨
      v.metaType = .LongLong ∧ e = .identifier (QString.lit "message.length")
  | .Bool => v.metaType = .Bool
  | .Color => v.metaType = .QColor
  | .RegularExpression => e.specifiesGroup = false ∧ ∃ p c, v = regularExpression p c
  | .StringList | .List => v.metaType = .QStringList ∨ v.metaType = .QVariantList
  | .MatchingSpecifier =>
    ∃ p c group, v = list [regularExpression p c, group] ∧
      (group.metaType = .Int ∧ e.specifiesGroup = true ∨
        group.metaType = .LongLong ∧ e.specifiesGroup = false)
  | .Map => False

structure ValueOf (e : Expression) (T : FilterType) (v : QVariant) : Prop where
  textual : v.metaType = .QString ↔ e.Textual = true
  hasText : v.canConvert .QString = e.HasText
  shape : ValueShape e v T

theorem ValueOf.hasRuntimeType_iff {e : Expression} {T : FilterType} {v : QVariant}
    (h : ValueOf e T v) : HasRuntimeType v T ↔ (T = .String → e.Textual = true) := by
  have hShape := h.shape
  cases T
  case String => simpa [HasRuntimeType] using h.textual
  case RegularExpression =>
    obtain ⟨-, p, c, rfl⟩ := hShape
    simp [HasRuntimeType, metaType]
  case MatchingSpecifier =>
    obtain ⟨p, c, group, rfl, -⟩ := hShape
    simp [HasRuntimeType, metaType]
  case Int => rcases hShape with ⟨hInt, -⟩ | ⟨hLong, -⟩ <;> simp [HasRuntimeType, *]
  case Map => exact hShape.elim
  all_goals simp only [ValueShape] at hShape; simp [HasRuntimeType, hShape]

theorem ValueOf.ofBool {e : Expression} {v : QVariant} {b : Bool} (hValue : v = bool b)
    (hTextual : e.Textual = false) (hText : e.HasText = true) : ValueOf e .Bool v := by
  subst hValue
  exact ⟨by simp [metaType, hTextual], hText.symm, rfl⟩

theorem exists_int_of_metaType {v : QVariant} (h : v.metaType = .Int) : ∃ n, v = int n := by
  cases v <;> first | exact ⟨_, rfl⟩ | cases h

theorem exists_longLong_of_metaType {v : QVariant} (h : v.metaType = .LongLong) :
    ∃ n, v = longLong n := by
  cases v <;> first | exact ⟨_, rfl⟩ | cases h

section operations

variable (qt : QtLibrary)

theorem binaryOperationValue_bool {op : TokenType} (left right : QVariant)
    (hMath : op.typeIsMathOp = false) (hMatch : op ≠ .MATCH) :
    ∃ b, Id.run (binaryOperationValue (fun op a b => pure (integerResult op a b)) qt op left right) =
      bool b := by
  cases op
  case PLUS | MINUS | MULTIPLY | DIVIDE | MOD => cases hMath
  case MATCH => exact absurd rfl hMatch
  all_goals exact ⟨_, rfl⟩

theorem arithmeticValue_int (op : TokenType) (left right : QVariant) :
    ∃ n, Id.run (arithmeticValue (fun op a b => pure (integerResult op a b)) op left right) = int n := by
  unfold arithmeticValue
  split
  · exact ⟨_, rfl⟩
  · exact ⟨0, rfl⟩

theorem binaryOperationValue_int {op : TokenType} {left right : QVariant}
    (hMath : op.typeIsMathOp = true)
    (hConcat : ¬(op = .PLUS ∧ left.metaType = .QString ∧ right.canConvert .QString = true)) :
    ∃ n, Id.run (binaryOperationValue (fun op a b => pure (integerResult op a b)) qt op left right) =
      int n := by
  cases op
  case PLUS =>
    simp only [binaryOperationValue, if_neg fun h => hConcat ⟨rfl, h⟩]
    exact arithmeticValue_int .PLUS left right
  case MINUS | MULTIPLY | DIVIDE | MOD => exact arithmeticValue_int _ left right
  all_goals cases hMath

theorem binaryOperationValue_concat {left right : QVariant}
    (hConcat : left.metaType = .QString ∧ right.canConvert .QString = true) :
    ∃ s, Id.run (binaryOperationValue (fun op a b => pure (integerResult op a b)) qt .PLUS left right) =
      string s := by
  simp only [binaryOperationValue, if_pos hConcat]
  exact ⟨_, rfl⟩

theorem matchVariant_regex {left : QVariant} (p : QString) (c : Bool)
    (hLeft : left.canConvert .QString = true) :
    ∃ b, matchVariant qt left (regularExpression p c) = bool b := by
  simp [matchVariant, hLeft]

theorem matchVariant_specifier {left : QVariant} (p : QString) (c : Bool) (n : Int)
    (hLeft : left.canConvert .QString = true) :
    ∃ s, matchVariant qt left (list [regularExpression p c, int n]) = string s := by
  simp only [matchVariant, hLeft, Bool.not_true, Bool.false_eq_true, if_false]
  cases qt.regexMatch p c (left.toString qt) <;> exact ⟨_, rfl⟩

theorem matchVariant_longLong {left : QVariant} (p : QString) (c : Bool) (n : Int)
    (hLeft : left.canConvert .QString = true) :
    matchVariant qt left (list [regularExpression p c, longLong n]) = bool false := by
  simp [matchVariant, hLeft]

end operations

section values

variable {qt : QtLibrary} {context : ContextMap} {op : TokenType} {left right : Expression}

theorem valueOf_concatenation {r : FilterType}
    (hLeft : ValueOf left .String (left.exactValue qt context))
    (hRight : ValueOf right r (right.exactValue qt context)) :
    ValueOf (.binaryOperation .PLUS left right) .String
      (Expression.exactValue qt context (.binaryOperation .PLUS left right)) := by
  rw [Expression.exactValue_binaryOperation]
  by_cases hConcat : (left.exactValue qt context).metaType = .QString ∧
      (right.exactValue qt context).canConvert .QString = true
  · obtain ⟨s, hValue⟩ := binaryOperationValue_concat qt hConcat
    have hTextual : left.Textual = true := hLeft.textual.mp hConcat.1
    have hText : right.HasText = true := hRight.hasText ▸ hConcat.2
    rw [hValue]
    exact ⟨by simp [metaType, hTextual, hText], rfl, .inl rfl⟩
  · have hNot (h : TokenType.PLUS = .PLUS ∧ _) := hConcat h.2
    obtain ⟨n, hValue⟩ := binaryOperationValue_int qt rfl hNot
    rw [hValue]
    refine ⟨?_, rfl, .inr (.inl rfl)⟩
    rw [hLeft.textual, hRight.hasText] at hConcat
    simpa [metaType] using hConcat

theorem valueOf_arithmetic (hMath : op.typeIsMathOp = true)
    (hLeft : ValueOf left .Int (left.exactValue qt context)) :
    ValueOf (.binaryOperation op left right) .Int
      (Expression.exactValue qt context (.binaryOperation op left right)) := by
  have hString : (left.exactValue qt context).metaType ≠ .QString := by
    rcases hLeft.shape with ⟨hInt, -⟩ | ⟨hLong, -⟩
    · simp [hInt]
    · simp [hLong]
  have hTextual : left.Textual = false := by
    simpa using fun h => hString (hLeft.textual.mpr h)
  obtain ⟨n, hValue⟩ := binaryOperationValue_int qt hMath
    fun h : op = .PLUS ∧ _ ∧ (right.exactValue qt context).canConvert .QString = true => hString h.2.1
  rw [Expression.exactValue_binaryOperation, hValue]
  refine ⟨?_, rfl, .inl ⟨rfl, nofun⟩⟩
  cases op
  case MATCH => cases hMath
  all_goals simp [metaType, hTextual]

theorem canConvert_of_string {v : QVariant} {e : Expression} (h : ValueOf e .String v) :
    v.canConvert .QString = true := by
  rcases h.shape with hType | hType | hType <;> rw [canConvert, hType] <;> rfl

theorem valueOf_match_regex (hLeft : ValueOf left .String (left.exactValue qt context))
    (hRight : ValueOf right .RegularExpression (right.exactValue qt context)) :
    ValueOf (.binaryOperation .MATCH left right) .Bool
      (Expression.exactValue qt context (.binaryOperation .MATCH left right)) := by
  obtain ⟨hGroup, p, c, hRegex⟩ := hRight.shape
  obtain ⟨b, hValue⟩ := matchVariant_regex qt p c (canConvert_of_string hLeft)
  rw [Expression.exactValue_binaryOperation, hRegex]
  exact .ofBool hValue (by simpa using hGroup) rfl

theorem valueOf_match_specifier (hLeft : ValueOf left .String (left.exactValue qt context))
    (hRight : ValueOf right .MatchingSpecifier (right.exactValue qt context)) :
    ValueOf (.binaryOperation .MATCH left right) .String
      (Expression.exactValue qt context (.binaryOperation .MATCH left right)) := by
  obtain ⟨p, c, group, hList, hGroup⟩ := hRight.shape
  have hText := canConvert_of_string hLeft
  rw [Expression.exactValue_binaryOperation, hList]
  change ValueOf _ _ (matchVariant qt _ _)
  rcases hGroup with ⟨hInt, hGroup⟩ | ⟨hLong, hGroup⟩
  · obtain ⟨n, rfl⟩ := exists_int_of_metaType hInt
    obtain ⟨s, hValue⟩ := matchVariant_specifier qt p c n hText
    rw [hValue]
    exact ⟨by simp [metaType, hGroup], rfl, .inl rfl⟩
  · obtain ⟨n, rfl⟩ := exists_longLong_of_metaType hLong
    rw [matchVariant_longLong qt p c n hText]
    exact ⟨by simp [metaType, hGroup], rfl, .inr (.inr rfl)⟩

theorem valueOf_comparison (hMath : op.typeIsMathOp = false) (hMatch : op ≠ .MATCH) :
    ValueOf (.binaryOperation op left right) .Bool
      (Expression.exactValue qt context (.binaryOperation op left right)) := by
  obtain ⟨b, hValue⟩ := binaryOperationValue_bool qt (left.exactValue qt context)
    (right.exactValue qt context) hMath hMatch
  refine .ofBool hValue ?_ rfl
  cases op
  case PLUS => cases hMath
  case MATCH => exact absurd rfl hMatch
  all_goals simp

theorem valueOf_identifier {name : QString} {T : FilterType} (hContext : ContextTyped context)
    (hLookup : MESSAGE_TYPING_CONTEXT.lookup name = some T) :
    ValueOf (.identifier name) T (Expression.exactValue qt context (.identifier name)) := by
  have hType : (Expression.exactValue qt context (.identifier name)).metaType =
      identifierMetaType name T := hContext name T hLookup
  have hTextual : (Expression.identifier name).Textual = decide (T = .String) := by
    simp [hLookup]
  have hText (hConvert : canConvertMetaType (identifierMetaType name T) .QString = true) :
      (Expression.exactValue qt context (.identifier name)).canConvert .QString =
        (Expression.identifier name).HasText := by
    rw [canConvert, hType, hConvert]
    rfl
  rcases identifier_type hLookup with rfl | rfl | rfl | rfl | rfl
  case inr.inl =>
    by_cases hLength : name = QString.lit "message.length"
    · simp only [identifierMetaType, if_pos hLength] at hType hText
      exact ⟨by simp [hType, hTextual], hText rfl, .inr ⟨hType, by rw [hLength]⟩⟩
    · simp only [identifierMetaType, if_neg hLength] at hType hText
      exact ⟨by simp [hType, hTextual], hText rfl, .inl ⟨hType, by simpa using hLength⟩⟩
  case inl => exact ⟨by simp [hType, hTextual, identifierMetaType], hText rfl, .inl hType⟩
  case inr.inr.inr.inr => exact ⟨by simp [hType, hTextual, identifierMetaType], hText rfl, .inl hType⟩
  all_goals exact ⟨by simp [hType, hTextual, identifierMetaType], hText rfl, hType⟩

theorem allTextual_iff {es : List Expression} {types : List FilterType}
    (h : List.Forall₂ (fun e T => ValueOf e T (e.exactValue qt context)) es types) :
    (Expression.exactValues qt context es).all (·.metaType = .QString) = Expression.AllTextual es := by
  rw [Expression.exactValues_eq_map]
  induction h with
  | nil => rfl
  | cons hHead hTail ih =>
    rw [List.map_cons, List.all_cons, ih, Expression.allTextual_cons, Bool.eq_iff_iff]
    simp [hHead.textual]

theorem valueShape_specifier {es : List Expression}
    (h : List.Forall₂ (fun e T => ValueOf e T (e.exactValue qt context)) es [.RegularExpression, .Int]) :
    ValueShape (.listExpression es) (Expression.exactValue qt context (.listExpression es))
      .MatchingSpecifier := by
  cases h with
  | cons hRegex hTail =>
    cases hTail with
    | @cons group _ _ _ hGroup hNil =>
      cases hNil
      obtain ⟨-, p, c, hPattern⟩ := hRegex.shape
      refine ⟨p, c, group.exactValue qt context, ?_, ?_⟩
      · rw [Expression.exactValue_listExpression, Expression.exactValues_eq_map]
        simp [hPattern, listExpressionValue, metaType]
      · rcases hGroup.shape with ⟨hInt, hName⟩ | ⟨hLong, rfl⟩
        · refine .inl ⟨hInt, ?_⟩
          cases group
          case identifier name => simpa [Expression.specifiesGroup] using hName
          all_goals rfl
        · exact .inr ⟨hLong, by simp [Expression.specifiesGroup]⟩

theorem valueOf_listExpression {es : List Expression} {types : List FilterType}
    (h : List.Forall₂ (fun e T => ValueOf e T (e.exactValue qt context)) es types) :
    ValueOf (.listExpression es) (listExpressionType types)
      (Expression.exactValue qt context (.listExpression es)) := by
  have hAll := allTextual_iff h
  refine ⟨?_, ?_, ?_⟩
  · rw [Expression.exactValue_listExpression, listExpressionValue]
    split <;> simp [metaType]
  · rw [Expression.exactValue_listExpression, listExpressionValue, hAll, Expression.hasText_listExpression]
    cases Expression.AllTextual es <;> rfl
  · unfold listExpressionType
    split
    · rename_i hSpecifier
      subst hSpecifier
      exact valueShape_specifier h
    · rw [Expression.exactValue_listExpression, listExpressionValue]
      split <;> split <;> simp [ValueShape, metaType]

end values

variable {qt : QtLibrary} {context : ContextMap}

theorem valueOf_exactValue {e : Expression} {T : FilterType} (hContext : ContextTyped context)
    (hType : e.synthesizeType MESSAGE_TYPING_CONTEXT = .ok T) :
    ValueOf e T (e.exactValue qt context) := by
  induction e generalizing T with
  | binaryOperation op left right ihLeft ihRight =>
    obtain ⟨l, r, hLeft, hRight, hOp⟩ := Expression.synthesizeType_binaryOperation hType
    have hLeftValue := ihLeft hLeft
    have hRightValue := ihRight hRight
    rcases binaryOperationType_cases hOp with ⟨rfl, rfl, rfl⟩ | ⟨hMath, rfl, rfl, rfl⟩ |
      ⟨rfl, rfl, ⟨rfl, rfl⟩ | ⟨rfl, rfl⟩⟩ | ⟨hMath, hMatch, rfl⟩
    · exact valueOf_concatenation hLeftValue hRightValue
    · exact valueOf_arithmetic hMath hLeftValue
    · exact valueOf_match_regex hLeftValue hRightValue
    · exact valueOf_match_specifier hLeftValue hRightValue
    · exact valueOf_comparison hMath hMatch
  | unaryOperation op right ih =>
    obtain ⟨-, rfl, rfl⟩ := Expression.synthesizeType_unaryOperation hType
    exact .ofBool rfl rfl rfl
  | listExpression es ih =>
    obtain ⟨types, hTypes, rfl⟩ := Expression.synthesizeType_listExpression hType
    have hValues := (List.forall₂_and_left es types).mpr ⟨fun e he => @ih e he, hTypes⟩
    exact valueOf_listExpression (hValues.imp fun e T h => h.1 h.2)
  | regexExpression regex caseInsensitive =>
    obtain rfl := Except.ok.inj hType
    exact ⟨by simp [metaType], rfl, rfl, regex, caseInsensitive, rfl⟩
  | intValue n =>
    obtain rfl := Except.ok.inj hType
    exact ⟨by simp [metaType], rfl, .inl ⟨rfl, nofun⟩⟩
  | stringValue s =>
    obtain rfl := Except.ok.inj hType
    exact ⟨by simp [metaType], rfl, .inl rfl⟩
  | identifier name =>
    exact valueOf_identifier hContext (Expression.synthesizeType_identifier hType)

end Chatterino.Filters
