import Chatterino.Filters.Execute

/-! # Equality in filters

Operands of different types are compared after one of them is converted to the type of the other. Which one that is
depends on their sides.
-/

namespace Chatterino

namespace QVariant

theorem equals_comm (v w : QVariant) : v.equals w = w.equals v := by
  refine @QVariant.rec (fun v => ∀ w, v.equals w = w.equals v) (fun l => ∀ k, equalsList l k = equalsList k l)
    ?_ ?_ ?_ ?_ ?_ ?_ ?_ ?_ ?_ ?_ ?_ ?_ v w
  · intro w
    cases w <;> rfl
  · intro b w
    cases w <;> first | rfl | exact BEq.comm
  · intro n w
    cases w <;> first | rfl | exact BEq.comm
  · intro n w
    cases w <;> first | rfl | exact BEq.comm
  · intro s w
    cases w <;> first | rfl | exact BEq.comm
  · intro c w
    cases w <;> first | rfl | exact BEq.comm
  · intro pattern caseInsensitive w
    cases w with
    | regularExpression pattern' caseInsensitive' =>
      rw [equals, equals, @BEq.comm _ _ _ pattern pattern', @BEq.comm _ _ _ caseInsensitive caseInsensitive']
    | _ => rfl
  · intro l w
    cases w <;> first | rfl | exact BEq.comm
  · intro l ih w
    cases w with
    | list k => exact ih k
    | _ => rfl
  · intro keys values ih w
    cases w with
    | map keys' values' => rw [equals, equals, ih, @BEq.comm _ _ _ keys keys']
    | _ => rfl
  · intro k
    cases k <;> rfl
  · intro v l hValue hList k
    cases k with
    | nil => rfl
    | cons w k => rw [equalsList, equalsList, hValue, hList]

end QVariant

end Chatterino

namespace Chatterino.Filters

open QVariant

/-- What the conversions keep of two operands. -/
def Agrees (qt : QtLibrary) : QVariant → QVariant → Prop
  | .bool b, .int n => b = true → n = 0 ∨ n = 1
  | .int n, .bool b => b = true → n = 0 ∨ n = 1
  | .bool b, .longLong n => b = true → n = 0 ∨ n = 1
  | .longLong n, .bool b => b = true → n = 0 ∨ n = 1
  | .bool b, .string s => boolOfString qt s = b ↔ s = boolText b
  | .string s, .bool b => boolOfString qt s = b ↔ s = boolText b
  | .int n, .longLong m => truncate m = n ↔ m = n
  | .longLong m, .int n => truncate m = n ↔ m = n
  | .int n, .string s => s.toInt = some n ↔ s = .number n
  | .string s, .int n => s.toInt = some n ↔ s = .number n
  | .longLong n, .string s => s.toLongLong = some n ↔ s = .number n
  | .string s, .longLong n => s.toLongLong = some n ↔ s = .number n
  | .string s, .color c => qt.colorFromString s = some c ↔ s = qt.colorName c
  | .color c, .string s => qt.colorFromString s = some c ↔ s = qt.colorName c
  | .stringList l, .list k => l = k.map (fun v => v.toString qt) → ∀ v ∈ k, v.metaType = .QString
  | .list k, .stringList l => l = k.map (fun v => v.toString qt) → ∀ v ∈ k, v.metaType = .QString
  | _, _ => True

section

variable {qt : QtLibrary}

theorem looselyCompare_of_canConvert {left right : QVariant} (hType : left.metaType ≠ right.metaType)
    (hConvert : right.canConvert left.metaType = true) : looselyCompareVariants qt left right =
      (right.convert qt left.metaType).elim false fun right => left.equals right := by
  rw [looselyCompareVariants, if_pos hType, if_pos hConvert]
  cases right.convert qt left.metaType <;> rfl

theorem convert_of_not_canConvert {v w : QVariant} (h : v.canConvert w.metaType = false) : v.convert qt w.metaType = none := by
  cases v <;> cases w <;> first | rfl | cases h

theorem looselyCompare_of_not_canConvert {left right : QVariant} (hType : left.metaType ≠ right.metaType)
    (hLeft : left.canConvert right.metaType = false) (hRight : right.canConvert left.metaType = false) :
    looselyCompareVariants qt left right = false := by
  rw [looselyCompareVariants, if_pos hType, if_neg (Bool.eq_false_iff.mp hRight), convert_of_not_canConvert hLeft]

variable (qt) in
def Symmetric (left right : QVariant) : Prop := equalVariants qt left right = equalVariants qt right left

theorem symmetric_comm {left right : QVariant} : Symmetric qt left right ↔ Symmetric qt right left := eq_comm

theorem symmetric_of_not_canConvert {left right : QVariant}
    (hLeftEq : equalVariants qt left right = looselyCompareVariants qt left right)
    (hRightEq : equalVariants qt right left = looselyCompareVariants qt right left)
    (hType : left.metaType ≠ right.metaType) (hLeft : left.canConvert right.metaType = false)
    (hRight : right.canConvert left.metaType = false) : Symmetric qt left right := by
  rw [Symmetric, hLeftEq, hRightEq, looselyCompare_of_not_canConvert hType hLeft hRight,
    looselyCompare_of_not_canConvert hType.symm hRight hLeft]

theorem beq_eq_beq_iff {α β : Type} [BEq α] [LawfulBEq α] [BEq β] [LawfulBEq β] (a a' : α) (b b' : β) :
    (a == a') = (b == b') ↔ (a = a' ↔ b = b') := by
  rw [Bool.eq_iff_iff, beq_iff_eq, beq_iff_eq]

theorem elim_beq {α : Type} [BEq α] [LawfulBEq α] (o : Option α) (a : α) : o.elim false (a == ·) = true ↔ o = some a := by
  cases o with
  | none => exact iff_of_false Bool.false_ne_true (by rintro ⟨⟩)
  | some b => rw [Option.elim_some, Option.some_inj, beq_iff_eq, eq_comm]

def ofBool (b : Bool) : Int := if b then 1 else 0

theorem ofBool_inj {b b' : Bool} : ofBool b = ofBool b' ↔ b = b' := by
  cases b <;> cases b' <;> decide

theorem symmetric_bool {b : Bool} {n : Int} {v : QVariant}
    (hLeft : equalVariants qt (.bool b) v = (ofBool b == ofBool (decide (n ≠ 0))))
    (hRight : equalVariants qt v (.bool b) = (n == ofBool b)) :
    Symmetric qt (.bool b) v ↔ (b = true → n = 0 ∨ n = 1) := by
  rw [Symmetric, hLeft, hRight, beq_eq_beq_iff, ofBool_inj]
  cases b with
  | false =>
    refine iff_of_true ?_ fun h => absurd h Bool.false_ne_true
    rw [eq_comm, decide_eq_false_iff_not, not_not]
    rfl
  | true =>
    rw [eq_comm, decide_eq_true_eq, imp_iff_right rfl]
    change (n ≠ 0 ↔ n = 1) ↔ n = 0 ∨ n = 1
    omega

theorem symmetric_bool_string (b : Bool) (s : QString) :
    Symmetric qt (.bool b) (.string s) ↔ (boolOfString qt s = b ↔ s = boolText b) := by
  have hLeft : equalVariants qt (.bool b) (.string s) = (ofBool b == ofBool (boolOfString qt s)) := rfl
  have hRight : equalVariants qt (.string s) (.bool b) = (s == boolText b) := rfl
  rw [Symmetric, hLeft, hRight, beq_eq_beq_iff, ofBool_inj, eq_comm]

theorem symmetric_int_longLong (n m : Int) : Symmetric qt (.int n) (.longLong m) ↔ (truncate m = n ↔ m = n) := by
  have hLeft : equalVariants qt (.int n) (.longLong m) = (n == truncate m) := rfl
  have hRight : equalVariants qt (.longLong m) (.int n) = (m == n) := rfl
  rw [Symmetric, hLeft, hRight, beq_eq_beq_iff, eq_comm]

theorem symmetric_string {α : Type} [BEq α] [LawfulBEq α] {o : Option α} {a : α} {s t : QString} {v : QVariant}
    (hLeft : equalVariants qt v (.string s) = o.elim false (a == ·)) (hRight : equalVariants qt (.string s) v = (s == t)) :
    Symmetric qt v (.string s) ↔ (o = some a ↔ s = t) := by
  rw [Symmetric, hLeft, hRight, Bool.eq_iff_iff, elim_beq, beq_iff_eq]

theorem equal_int_string (n : Int) (s : QString) : equalVariants qt (.int n) (.string s) = s.toInt.elim false (n == ·) := by
  refine (looselyCompare_of_canConvert (by rintro ⟨⟩) rfl).trans ?_
  change (s.toInt.map QVariant.int).elim _ _ = _
  cases s.toInt <;> rfl

theorem equal_longLong_string (n : Int) (s : QString) :
    equalVariants qt (.longLong n) (.string s) = s.toLongLong.elim false (n == ·) := by
  refine (looselyCompare_of_canConvert (by rintro ⟨⟩) rfl).trans ?_
  change (s.toLongLong.map QVariant.longLong).elim _ _ = _
  cases s.toLongLong <;> rfl

theorem equal_color_string (c : QColor) (s : QString) :
    equalVariants qt (.color c) (.string s) = (qt.colorFromString s).elim false (c == ·) := by
  refine (looselyCompare_of_canConvert (by rintro ⟨⟩) rfl).trans ?_
  change ((qt.colorFromString s).map QVariant.color).elim _ _ = _
  cases qt.colorFromString s <;> rfl

theorem symmetric_string_stringList (s : QString) (l : List QString) : Symmetric qt (.string s) (.stringList l) := by
  have hRight : equalVariants qt (.stringList l) (.string s) = (l == [s]) := rfl
  rw [Symmetric, hRight]
  cases l with
  | nil => rfl
  | cons t l =>
    cases l with
    | nil =>
      have hLeft : equalVariants qt (.string s) (.stringList [t]) = (s == t) := rfl
      rw [hLeft, beq_eq_beq_iff, List.cons.injEq, and_iff_left rfl, eq_comm]
    | cons u l =>
      have hLeft : equalVariants qt (.string s) (.stringList (t :: u :: l)) = false := rfl
      rw [hLeft]
      refine (beq_eq_false_iff_ne.mpr ?_).symm
      rintro ⟨⟩

theorem equals_string_iff (v : QVariant) (s : QString) :
    v.equals (.string s) = true ↔ s = v.toString qt ∧ v.metaType = .QString := by
  cases v with
  | string t =>
    change (t == s) = true ↔ _
    rw [beq_iff_eq, eq_comm]
    exact (and_iff_left rfl).symm
  | _ =>
    refine iff_of_false (by rintro ⟨⟩) ?_
    rintro ⟨-, ⟨⟩⟩

theorem equalsList_strings_iff (k : List QVariant) (l : List QString) :
    equalsList k (l.map .string) = true ↔ l = k.map (fun v => v.toString qt) ∧ ∀ v ∈ k, v.metaType = .QString := by
  induction k generalizing l with
  | nil =>
    cases l with
    | nil => exact iff_of_true rfl ⟨rfl, by rintro _ ⟨⟩⟩
    | cons s l =>
      refine iff_of_false (by rintro ⟨⟩) ?_
      rintro ⟨⟨⟩, -⟩
  | cons v k ih =>
    cases l with
    | nil =>
      refine iff_of_false (by rintro ⟨⟩) ?_
      rintro ⟨⟨⟩, -⟩
    | cons s l =>
      rw [List.map_cons, equalsList, Bool.and_eq_true, @equals_string_iff qt, ih, List.map_cons, List.cons.injEq,
        List.forall_mem_cons]
      exact and_and_and_comm

theorem symmetric_stringList_list (l : List QString) (k : List QVariant) : Symmetric qt (.stringList l) (.list k) ↔
    (l = k.map (fun v => v.toString qt) → ∀ v ∈ k, v.metaType = .QString) := by
  have hLeft : equalVariants qt (.stringList l) (.list k) = (l == k.map fun v => v.toString qt) := rfl
  have hRight : equalVariants qt (.list k) (.stringList l) = equalsList k (l.map .string) := rfl
  have hList := @equalsList_strings_iff qt k l
  rw [Symmetric, hLeft, hRight, Bool.eq_iff_iff, beq_iff_eq, hList]
  constructor
  · intro h hTexts
    exact (h.mp hTexts).2
  · intro h
    exact ⟨fun hTexts => ⟨hTexts, h hTexts⟩, fun hBoth => hBoth.1⟩

theorem symmetric_of_equals {left right : QVariant} (hLeft : equalVariants qt left right = left.equals right)
    (hRight : equalVariants qt right left = right.equals left) : Symmetric qt left right := by
  rw [Symmetric, hLeft, hRight, equals_comm]

theorem symmetric_string_string {fold : QString → QString}
    (hFold : ∀ s t, qt.equalsCaseInsensitive s t = true ↔ fold s = fold t) (s t : QString) :
    Symmetric qt (.string s) (.string t) := by
  have hEqual : ∀ s t, equalVariants qt (.string s) (.string t) = qt.equalsCaseInsensitive s t := fun _ _ => rfl
  rw [Symmetric, hEqual, hEqual, Bool.eq_iff_iff, hFold, hFold, eq_comm]

theorem symmetric_iff_agrees {fold : QString → QString}
    (hFold : ∀ s t, qt.equalsCaseInsensitive s t = true ↔ fold s = fold t) (left right : QVariant) :
    Symmetric qt left right ↔ Agrees qt left right := by
  cases left with
  | invalid =>
    cases right with
    | invalid => exact iff_of_true (symmetric_of_equals rfl rfl) trivial
    | _ => exact iff_of_true (symmetric_of_not_canConvert rfl rfl (by rintro ⟨⟩) rfl rfl) trivial
  | bool b =>
    cases right with
    | bool b' => exact iff_of_true (symmetric_of_equals rfl rfl) trivial
    | int n => exact symmetric_bool rfl rfl
    | longLong n => exact symmetric_bool rfl rfl
    | string s => exact symmetric_bool_string b s
    | _ => exact iff_of_true (symmetric_of_not_canConvert rfl rfl (by rintro ⟨⟩) rfl rfl) trivial
  | int n =>
    cases right with
    | bool b => exact symmetric_comm.trans (symmetric_bool rfl rfl)
    | int m => exact iff_of_true (symmetric_of_equals rfl rfl) trivial
    | longLong m => exact symmetric_int_longLong n m
    | string s => exact symmetric_string (equal_int_string n s) rfl
    | _ => exact iff_of_true (symmetric_of_not_canConvert rfl rfl (by rintro ⟨⟩) rfl rfl) trivial
  | longLong m =>
    cases right with
    | bool b => exact symmetric_comm.trans (symmetric_bool rfl rfl)
    | int n => exact symmetric_comm.trans (symmetric_int_longLong n m)
    | longLong n => exact iff_of_true (symmetric_of_equals rfl rfl) trivial
    | string s => exact symmetric_string (equal_longLong_string m s) rfl
    | _ => exact iff_of_true (symmetric_of_not_canConvert rfl rfl (by rintro ⟨⟩) rfl rfl) trivial
  | string s =>
    cases right with
    | bool b => exact symmetric_comm.trans (symmetric_bool_string b s)
    | int n => exact symmetric_comm.trans (symmetric_string (equal_int_string n s) rfl)
    | longLong n => exact symmetric_comm.trans (symmetric_string (equal_longLong_string n s) rfl)
    | string t => exact iff_of_true (symmetric_string_string hFold s t) trivial
    | color c => exact symmetric_comm.trans (symmetric_string (equal_color_string c s) rfl)
    | stringList l => exact iff_of_true (symmetric_string_stringList s l) trivial
    | _ => exact iff_of_true (symmetric_of_not_canConvert rfl rfl (by rintro ⟨⟩) rfl rfl) trivial
  | color c =>
    cases right with
    | string s => exact symmetric_string (equal_color_string c s) rfl
    | color c' => exact iff_of_true (symmetric_of_equals rfl rfl) trivial
    | _ => exact iff_of_true (symmetric_of_not_canConvert rfl rfl (by rintro ⟨⟩) rfl rfl) trivial
  | regularExpression pattern caseInsensitive =>
    cases right with
    | regularExpression pattern' caseInsensitive' => exact iff_of_true (symmetric_of_equals rfl rfl) trivial
    | _ => exact iff_of_true (symmetric_of_not_canConvert rfl rfl (by rintro ⟨⟩) rfl rfl) trivial
  | stringList l =>
    cases right with
    | string s => exact iff_of_true (symmetric_comm.mp (symmetric_string_stringList s l)) trivial
    | stringList l' => exact iff_of_true (symmetric_of_equals rfl rfl) trivial
    | list k => exact symmetric_stringList_list l k
    | _ => exact iff_of_true (symmetric_of_not_canConvert rfl rfl (by rintro ⟨⟩) rfl rfl) trivial
  | list k =>
    cases right with
    | stringList l => exact symmetric_comm.trans (symmetric_stringList_list l k)
    | list k' => exact iff_of_true (symmetric_of_equals rfl rfl) trivial
    | _ => exact iff_of_true (symmetric_of_not_canConvert rfl rfl (by rintro ⟨⟩) rfl rfl) trivial
  | map keys values =>
    cases right with
    | map keys' values' => exact iff_of_true (symmetric_of_equals rfl rfl) trivial
    | _ => exact iff_of_true (symmetric_of_not_canConvert rfl rfl (by rintro ⟨⟩) rfl rfl) trivial

end

def EqualitySymmetric (qt : QtLibrary) (context : ContextMap) (a b : Expression) : Prop :=
  ∀ left right, a.execute int32Result qt context = .ok left → b.execute int32Result qt context = .ok right →
    ∃ equal,
      (Expression.binaryOperation .EQ a b).execute int32Result qt context = .ok (.bool equal) ∧
      (Expression.binaryOperation .EQ b a).execute int32Result qt context = .ok (.bool equal) ∧
      (Expression.binaryOperation .NEQ a b).execute int32Result qt context = .ok (.bool (!equal))

section

variable {qt : QtLibrary} {context : ContextMap}

theorem execute_binaryOperation {a b : Expression} {left right : QVariant} (op : TokenType)
    (hLeft : a.execute int32Result qt context = .ok left) (hRight : b.execute int32Result qt context = .ok right) :
    (Expression.binaryOperation op a b).execute int32Result qt context = binaryOperationValue int32Result qt op left right := by
  rw [Expression.execute, hLeft, hRight]
  rfl

def plainLibrary : QtLibrary where
  equalsCaseInsensitive s t := s == t
  containsCaseInsensitive _ _ := false
  startsWithCaseInsensitive _ _ := false
  endsWithCaseInsensitive _ _ := false
  toLower s := s
  colorName _ := []
  colorFromString _ := none
  regexMatch _ _ _ := none

end

end Chatterino.Filters
