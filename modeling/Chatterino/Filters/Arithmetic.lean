import Chatterino.Filters.Filter

/-! # Filters that do not trap

The evaluation in unbounded integers says which operands every arithmetic operation meets. The
program agrees with it up to the first operation without a divisor or a result that fits.
-/

namespace Chatterino.Filters

open QVariant

def arithmeticOperands (op : TokenType) (left right : QVariant) : Option (Int × Int) :=
  match op with
  | .PLUS =>
    if left.metaType = .QString ∧ right.canConvert .QString then none else convertToInts left right
  | .MINUS | .MULTIPLY | .DIVIDE | .MOD => convertToInts left right
  | _ => none

def ResultFits (op : TokenType) (a b : Int) : Prop :=
  match op with
  | .DIVIDE | .MOD => b ≠ 0 ∧ ¬(a = -2147483648 ∧ b = -1)
  | _ => IsInt32 (integerResult op a b)

def OperationFits (op : TokenType) (left right : QVariant) : Prop :=
  ∀ a b, arithmeticOperands op left right = some (a, b) → ResultFits op a b

variable {qt : QtLibrary} {context : ContextMap}

namespace Expression

section exact

variable (qt : QtLibrary) (context : ContextMap)

def exactValue (e : Expression) : QVariant :=
  Id.run (e.execute (fun op a b => pure (integerResult op a b)) qt context)

def exactValues (es : List Expression) : List QVariant :=
  Id.run (executeAll (fun op a b => pure (integerResult op a b)) qt context es)

mutual

/-- Every arithmetic operation has a divisor and a result that fits, for the exact values of its
operands. -/
def Fits : Expression → Prop
  | .binaryOperation op left right =>
    Fits left ∧ Fits right ∧ OperationFits op (exactValue qt context left) (exactValue qt context right)
  | .unaryOperation _ right => Fits right
  | .listExpression es => FitsAll es
  | _ => True

def FitsAll : List Expression → Prop
  | [] => True
  | e :: es => Fits e ∧ FitsAll es

end

end exact

theorem exactValue_binaryOperation (op : TokenType) (left right : Expression) :
    exactValue qt context (.binaryOperation op left right) =
      Id.run (binaryOperationValue (fun op a b => pure (integerResult op a b)) qt op
        (exactValue qt context left) (exactValue qt context right)) := rfl

theorem exactValue_listExpression (es : List Expression) :
    exactValue qt context (.listExpression es) =
      listExpressionValue qt (exactValues qt context es) := rfl

@[simp] theorem exactValue_regexExpression (regex : QString) (caseInsensitive : Bool) :
    exactValue qt context (.regexExpression regex caseInsensitive) =
      regularExpression regex caseInsensitive := rfl

@[simp] theorem exactValue_intValue (n : Int) : exactValue qt context (.intValue n) = int n := rfl

@[simp] theorem exactValue_stringValue (s : QString) :
    exactValue qt context (.stringValue s) = string s := rfl

theorem exactValues_eq_map (es : List Expression) :
    exactValues qt context es = es.map (exactValue qt context) := by
  induction es with
  | nil => rfl
  | cons e es ih =>
    rw [List.map_cons, ← ih]
    rfl

end Expression

theorem int32Result_of_fits {op : TokenType} {a b : Int} (h : ResultFits op a b) :
    int32Result op a b = .ok (integerResult op a b) := by
  cases op
  case DIVIDE => simp only [int32Result, if_neg h.1, if_neg h.2]
  case MOD => simp only [int32Result, if_neg h.1, if_neg h.2]
  all_goals
    simp only [int32Result]
    exact if_pos h

theorem int32Result_of_not_fits {op : TokenType} {a b : Int} (h : ¬ResultFits op a b) :
    ∃ trap, int32Result op a b = .error trap := by
  have hDivision (hOp : op = .DIVIDE ∨ op = .MOD) : b = 0 ∨ a = -2147483648 ∧ b = -1 := by
    by_contra hNot
    obtain ⟨hZero, hMin⟩ := not_or.mp hNot
    rcases hOp with rfl | rfl <;> exact h ⟨hZero, hMin⟩
  cases op
  case DIVIDE =>
    simp only [int32Result]
    rcases hDivision (.inl rfl) with hZero | hMin
    · exact ⟨_, if_pos hZero⟩
    · exact ⟨_, by rw [if_neg (by omega), if_pos hMin]⟩
  case MOD =>
    simp only [int32Result]
    rcases hDivision (.inr rfl) with hZero | hMin
    · exact ⟨_, if_pos hZero⟩
    · exact ⟨_, by rw [if_neg (by omega), if_pos hMin]⟩
  all_goals
    simp only [int32Result]
    exact ⟨_, if_neg h⟩

section operation

variable {m : Type → Type} [Monad m] (arith : TokenType → Int → Int → m Int)

theorem binaryOperationValue_of_operands {op : TokenType} {left right : QVariant} {a b : Int}
    (h : arithmeticOperands op left right = some (a, b)) :
    binaryOperationValue arith qt op left right = int <$> arith op a b := by
  cases op
  case PLUS =>
    simp only [arithmeticOperands] at h
    split at h
    · cases h
    · rename_i hConcat
      simp only [binaryOperationValue, if_neg hConcat, arithmeticValue, h]
  case MINUS | MULTIPLY | DIVIDE | MOD =>
    simp only [arithmeticOperands] at h
    simp only [binaryOperationValue, arithmeticValue, h]
  all_goals cases h

theorem binaryOperationValue_of_no_operands (qt : QtLibrary) {op : TokenType}
    {left right : QVariant}
    (h : arithmeticOperands op left right = none) :
    ∃ v, ∀ {m : Type → Type} [Monad m] (arith : TokenType → Int → Int → m Int),
      binaryOperationValue arith qt op left right = pure v := by
  cases op
  case PLUS =>
    simp only [arithmeticOperands] at h
    by_cases hConcat : left.metaType = .QString ∧ right.canConvert .QString
    · exact ⟨_, fun arith => by
        simp only [binaryOperationValue]
        exact if_pos hConcat⟩
    · rw [if_neg hConcat] at h
      exact ⟨int 0, fun arith => by
        simp only [binaryOperationValue, if_neg hConcat, arithmeticValue, h]⟩
  case MINUS | MULTIPLY | DIVIDE | MOD =>
    simp only [arithmeticOperands] at h
    exact ⟨int 0, fun arith => by simp only [binaryOperationValue, arithmeticValue, h]⟩
  all_goals exact ⟨_, fun arith => rfl⟩

end operation

theorem binaryOperationValue_of_fits {op : TokenType} {left right : QVariant}
    (h : OperationFits op left right) :
    binaryOperationValue int32Result qt op left right =
      .ok (Id.run (binaryOperationValue (fun op a b => pure (integerResult op a b)) qt op left right)) := by
  cases hOperands : arithmeticOperands op left right with
  | none =>
    obtain ⟨v, hValue⟩ := binaryOperationValue_of_no_operands qt hOperands
    rw [hValue, hValue]
    rfl
  | some operands =>
    obtain ⟨a, b⟩ := operands
    rw [binaryOperationValue_of_operands _ hOperands, binaryOperationValue_of_operands _ hOperands,
      int32Result_of_fits (h a b hOperands)]
    rfl

theorem binaryOperationValue_of_not_fits {op : TokenType} {left right : QVariant}
    (h : ¬OperationFits op left right) :
    ∃ trap, binaryOperationValue int32Result qt op left right = .error trap := by
  simp only [OperationFits, not_forall] at h
  obtain ⟨a, b, hOperands, hResult⟩ := h
  obtain ⟨trap, hTrap⟩ := int32Result_of_not_fits hResult
  exact ⟨trap, by rw [binaryOperationValue_of_operands _ hOperands, hTrap]; rfl⟩

namespace Expression

theorem executeAll_of_fits {es : List Expression}
    (ih : ∀ e ∈ es, Fits qt context e →
      e.execute int32Result qt context = .ok (exactValue qt context e))
    (h : FitsAll qt context es) :
    executeAll int32Result qt context es = .ok (exactValues qt context es) := by
  induction es with
  | nil => rfl
  | cons e es ihList =>
    obtain ⟨hHead, hTail⟩ := h
    simp only [executeAll, ih e (List.mem_cons_self) hHead,
      ihList (fun e' he' => ih e' (List.mem_cons_of_mem e he')) hTail]
    rfl

theorem execute_of_fits {e : Expression} (h : Fits qt context e) :
    e.execute int32Result qt context = .ok (exactValue qt context e) := by
  induction e with
  | binaryOperation op left right ihLeft ihRight =>
    obtain ⟨hLeft, hRight, hOp⟩ := h
    simp only [execute, ihLeft hLeft, ihRight hRight]
    exact binaryOperationValue_of_fits hOp
  | unaryOperation op right ih =>
    simp only [execute, ih h]
    rfl
  | listExpression es ih =>
    simp only [execute, executeAll_of_fits ih h]
    rfl
  | regexExpression => rfl
  | intValue => rfl
  | stringValue => rfl
  | identifier => rfl

theorem executeAll_of_not_fits {es : List Expression}
    (ih : ∀ e ∈ es, ¬Fits qt context e →
      ∃ trap, e.execute int32Result qt context = .error trap)
    (h : ¬FitsAll qt context es) :
    ∃ trap, executeAll int32Result qt context es = .error trap := by
  induction es with
  | nil => exact absurd trivial h
  | cons e es ihList =>
    by_cases hHead : Fits qt context e
    · obtain ⟨trap, hTrap⟩ := ihList (fun e' he' => ih e' (List.mem_cons_of_mem e he'))
        fun hTail => h ⟨hHead, hTail⟩
      exact ⟨trap, by simp only [executeAll, execute_of_fits hHead, hTrap]; rfl⟩
    · obtain ⟨trap, hTrap⟩ := ih e List.mem_cons_self hHead
      exact ⟨trap, by simp only [executeAll, hTrap]; rfl⟩

theorem execute_of_not_fits {e : Expression} (h : ¬Fits qt context e) :
    ∃ trap, e.execute int32Result qt context = .error trap := by
  induction e with
  | binaryOperation op left right ihLeft ihRight =>
    by_cases hLeft : Fits qt context left
    · by_cases hRight : Fits qt context right
      · simp only [execute, execute_of_fits hLeft, execute_of_fits hRight]
        exact binaryOperationValue_of_not_fits fun hOp => h ⟨hLeft, hRight, hOp⟩
      · obtain ⟨trap, hTrap⟩ := ihRight hRight
        exact ⟨trap, by simp only [execute, execute_of_fits hLeft, hTrap]; rfl⟩
    · obtain ⟨trap, hTrap⟩ := ihLeft hLeft
      exact ⟨trap, by simp only [execute, hTrap]; rfl⟩
  | unaryOperation op right ih =>
    obtain ⟨trap, hTrap⟩ := ih h
    exact ⟨trap, by simp only [execute, hTrap]; rfl⟩
  | listExpression es ih =>
    obtain ⟨trap, hTrap⟩ := executeAll_of_not_fits ih h
    exact ⟨trap, by simp only [execute, hTrap]; rfl⟩
  | regexExpression | intValue | stringValue | identifier => exact absurd trivial h

end Expression

end Chatterino.Filters
