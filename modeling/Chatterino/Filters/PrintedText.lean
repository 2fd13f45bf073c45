import Chatterino.Filters.Filter
import Chatterino.Filters.Pretty

/-! # Place markers in printed expressions

An operation puts its operator and its right operand into the place markers with the lowest
numbers. A marker that came in with a literal of the left operand takes part.
-/

namespace Chatterino.Filters

open QString

namespace Expression

mutual

/-- No literal in the left operand of an operation has a place marker with a number up to 3. -/
def Printable : Expression → Prop
  | .binaryOperation _ left right =>
    Printable left ∧ Printable right ∧ ∀ v ∈ left.literals, ∀ n ∈ markers v, 3 < n
  | .unaryOperation _ right => Printable right
  | .listExpression list => PrintableAll list
  | _ => True

def PrintableAll : List Expression → Prop
  | [] => True
  | e :: list => Printable e ∧ PrintableAll list

end

end Expression

open Expression

theorem markers_escapeQuotes (v : QString) : markers (escapeQuotes v) = markers v := by
  induction hLength : v.length using Nat.strongRecOn generalizing v with
  | ind n ih =>
    by_cases hQuote : 0x22 ∈ v
    · obtain ⟨a, b, rfl, ha⟩ := List.eq_append_cons_of_mem hQuote
      have hPlain : escapeQuotes a = a := by
        rw [escapeQuotes]
        refine (List.flatMap_congr fun c hc => if_neg ?_).trans (List.flatMap_singleton' a)
        rintro rfl
        exact ha hc
      have hEscaped : escapeQuotes (a ++ 0x22 :: b) = a ++ ([0x5C, 0x22] ++ escapeQuotes b) := by
        rw [escapeQuotes, List.flatMap_append, ← escapeQuotes, hPlain]
        rfl
      have hShort : b.length < n := by
        rw [← hLength, List.length_append, List.length_cons]
        omega
      have hText : a ++ 0x22 :: b = a ++ ([0x22] ++ b) := rfl
      have hSlash : StartsNoMarker ([0x5C, 0x22] ++ escapeQuotes b) := by
        rintro c ⟨⟩
        decide
      have hStart : StartsNoMarker ([0x22] ++ b) := by
        rintro c ⟨⟩
        decide
      rw [hEscaped, hText, markers_append hSlash, markers_append hStart,
        markers_append_of_noPercent (by decide), markers_append_of_noPercent (by decide),
        ih b.length hShort b rfl]
    · have hPlain : escapeQuotes v = v := by
        rw [escapeQuotes]
        refine (List.flatMap_congr fun c hc => if_neg ?_).trans (List.flatMap_singleton' v)
        rintro rfl
        exact hQuote hc
      rw [hPlain]

theorem markers_literalText {start : QString} (h : start ∈ literalPrefixes) (v : QString) :
    markers (literalText start (escapeQuotes v)) = markers v := by
  have hStarts : ∀ start ∈ literalPrefixes, 0x25 ∉ start ++ [0x22] := by decide
  have hText : literalText start (escapeQuotes v) = (start ++ [0x22]) ++ (escapeQuotes v ++ [0x22]) := by
    simp [literalText]
  have hQuote : StartsNoMarker [0x22] := by
    rintro c ⟨⟩
    decide
  rw [hText, markers_append_of_noPercent (hStarts start h), markers_append hQuote, markers_escapeQuotes]
  exact List.append_nil _

theorem markers_eq_nil {s : QString} (h : 0x25 ∉ s) : markers s = [] := by
  have hMarkers := markers_append_of_noPercent h []
  rwa [List.append_nil] at hMarkers

theorem noPercent_of_isWordChar {w : QString} (h : ∀ c ∈ w, isWordChar c = true) : 0x25 ∉ w :=
  fun hPercent => absurd (h _ hPercent) (by decide)

theorem markers_space_binaryOpText (op : TokenType) : markers (0x20 :: binaryOpText op) = [] := by
  cases op <;> decide

theorem startsNoMarker_space (s : QString) : StartsNoMarker (0x20 :: s) := by
  rintro c ⟨⟩
  decide

theorem startsNoMarker_paren : StartsNoMarker [0x29] := by
  rintro c ⟨⟩
  decide

theorem markers_between {before part after : QString} (hBefore : 0x25 ∉ before)
    (hAfter : StartsNoMarker after) :
    markers (before ++ (part ++ after)) = markers part ++ markers after := by
  rw [markers_append_of_noPercent hBefore, markers_append hAfter]

theorem markers_itemsAll {list : List Expression} {first : Bool}
    (ih : ∀ e ∈ list, e.WellFormed → markers (sourceOf e.items) = e.literals.flatMap markers)
    (h : WellFormedAll list) :
    markers (sourceOf (itemsAll first list)) = (literalsAll list).flatMap markers := by
  induction list generalizing first with
  | nil => rfl
  | cons e list ihList =>
    have hTail := @ihList false (fun e' he' => ih e' (List.mem_cons_of_mem e he')) h.2
    have hStart : StartsNoMarker (sourceOf (itemsAll false list)) := by
      cases list with
      | nil => exact nofun
      | cons e' list =>
        rintro c ⟨⟩
        decide
    rw [itemsAll, sourceOf_append, sourceOf_append, literalsAll, List.flatMap_append,
      ← ih e List.mem_cons_self h.1, ← hTail]
    refine markers_between ?_ hStart
    cases first <;> decide

theorem markers_sourceOf_items {e : Expression} (h : e.WellFormed) :
    markers (sourceOf e.items) = e.literals.flatMap markers := by
  induction e with
  | binaryOperation op left right ihLeft ihRight =>
    obtain ⟨hInfix, hLeft, hRight⟩ := h
    rw [sourceOf_binaryOperation, markers_cons (by decide), markers_append (startsNoMarker_space _),
      ← List.cons_append, markers_append (startsNoMarker_space _), markers_space_binaryOpText,
      markers_cons (by decide), markers_append startsNoMarker_paren, ihLeft hLeft, ihRight hRight,
      Expression.literals, List.flatMap_append]
    simp [markers_eq_nil]
  | unaryOperation op right ih =>
    obtain ⟨rfl, hRight⟩ := h
    rw [sourceOf_unaryOperation, markers_cons (by decide), markers_append_of_noPercent (by decide),
      markers_append startsNoMarker_paren, ih hRight]
    exact List.append_nil _
  | listExpression list ih =>
    have hBrace : StartsNoMarker [0x7D] := by
      rintro c ⟨⟩
      decide
    rw [sourceOf_listExpression, markers_cons (by decide), markers_append hBrace, markers_itemsAll ih h]
    exact List.append_nil _
  | regexExpression regex caseInsensitive =>
    have hStart : lit (if caseInsensitive then "ri" else "r") ∈ literalPrefixes := by
      cases caseInsensitive <;> decide
    simpa [items, Expression.literals] using markers_literalText hStart regex
  | intValue n =>
    simpa [items, Expression.literals] using
      markers_eq_nil (noPercent_of_isWordChar (isWordChar_of_mem_number h.1))
  | stringValue s =>
    simpa [items, Expression.literals] using
      markers_literalText List.mem_cons_self s
  | identifier name =>
    simpa [items, Expression.literals] using
      markers_eq_nil (noPercent_of_isWordChar (isWordChar_of_mem_validIdentifiers h).2)

theorem arg_of_min {s a : QString} {k : Nat} (hMem : k ∈ markers s) (hMin : ∀ n ∈ markers s, k ≤ n) :
    s.arg a = filled k a s := by
  have hLeast : (markers s).min? = some k := List.min?_eq_some_iff.mpr ⟨hMem, hMin⟩
  rw [arg, hLeast]

theorem exists_arg_eq_filled (s a : QString) : ∃ k, s.arg a = filled k a s := by
  unfold arg
  split
  · rename_i hNone
    refine ⟨0, (filled_of_notMem ?_ a).symm⟩
    rw [List.min?_eq_none_iff.mp hNone]
    exact List.not_mem_nil
  · exact ⟨_, rfl⟩

theorem arg_binary_left (left : QString) :
    (lit "(%1 %2 %3)").arg left = 0x28 :: (left ++ lit " %2 %3)") := rfl

theorem startsNoMarker_operands : StartsNoMarker (lit " %2 %3)") := startsNoMarker_space (lit "%2 %3)")

theorem startsNoMarker_operand : StartsNoMarker (lit " %3)") := startsNoMarker_space (lit "%3)")

theorem markers_binary_left (left : QString) :
    markers (0x28 :: (left ++ lit " %2 %3)")) = markers left ++ [2, 3] := by
  rw [markers_cons (by decide), markers_append startsNoMarker_operands]
  rfl

theorem filled_binary_left (k : Nat) (a left : QString) :
    filled k a (0x28 :: (left ++ lit " %2 %3)")) =
      0x28 :: (filled k a left ++ filled k a (lit " %2 %3)")) := by
  rw [filled_cons (by decide), filled_append startsNoMarker_operands]

section operands

variable {left op right : QString}

theorem markers_binary_operator (left : QString) (hOp : markers (0x20 :: op) = []) :
    markers (0x28 :: (left ++ 0x20 :: (op ++ lit " %3)"))) = markers left ++ [3] := by
  rw [markers_cons (by decide), markers_append (startsNoMarker_space _), ← List.cons_append,
    markers_append startsNoMarker_operand, hOp]
  rfl

theorem filled_binary_operator (left right : QString) (hOp : markers (0x20 :: op) = []) :
    filled 3 right (0x28 :: (left ++ 0x20 :: (op ++ lit " %3)"))) =
      0x28 :: (filled 3 right left ++ 0x20 :: (op ++ 0x20 :: (right ++ [0x29]))) := by
  have hOpPlain : filled 3 right (0x20 :: op) = 0x20 :: op := filled_of_notMem (by simp [hOp]) right
  have hSplit : 0x20 :: (op ++ lit " %3)") = (0x20 :: op) ++ lit " %3)" := rfl
  rw [filled_cons (by decide), filled_append (startsNoMarker_space _), hSplit,
    filled_append startsNoMarker_operand, hOpPlain]
  rfl

theorem arg_binary_plain (hLeft : ∀ n ∈ markers left, 3 < n) (hOp : markers (0x20 :: op) = []) :
    (((lit "(%1 %2 %3)").arg left).arg op).arg right =
      0x28 :: (left ++ 0x20 :: (op ++ 0x20 :: (right ++ [0x29]))) := by
  have hPlain (k : Nat) (hk : k ≤ 3) (a : QString) : filled k a left = left :=
    filled_of_notMem (fun h => absurd (hLeft k h) (by omega)) a
  have hOperator : arg (0x28 :: (left ++ lit " %2 %3)")) op =
      0x28 :: (left ++ 0x20 :: (op ++ lit " %3)")) := by
    rw [arg_of_min (k := 2), filled_binary_left, hPlain 2 (by decide)]
    · rfl
    · simp [markers_binary_left]
    · intro n hn
      rw [markers_binary_left, List.mem_append, List.mem_pair] at hn
      rcases hn with hn | rfl | rfl
      · have hBig := hLeft n hn
        omega
      · decide
      · decide
  rw [arg_binary_left, hOperator, arg_of_min (k := 3), filled_binary_operator left right hOp,
    hPlain 3 le_rfl]
  · simp [markers_binary_operator left hOp]
  · intro n hn
    rw [markers_binary_operator left hOp, List.mem_append, List.mem_singleton] at hn
    rcases hn with hn | rfl
    · exact (hLeft n hn).le
    · exact le_rfl

theorem arg_binary_garbled (hLeft : ∃ n ∈ markers left, n ≤ 3) (hOp : markers (0x20 :: op) = [])
    (hOpHead : ∃ c ∈ op.head?, c ≠ 0x25) (hRightHead : ∃ c ∈ right.head?, c ≠ 0x25) :
    ∃ left' rest, (((lit "(%1 %2 %3)").arg left).arg op).arg right = 0x28 :: (left' ++ rest) ∧
      LosesPercent left left' := by
  obtain ⟨k, hLeast⟩ : ∃ k, (markers left ++ [2, 3]).min? = some k :=
    Option.ne_none_iff_exists'.mp (by simp)
  obtain ⟨hMem, hMin⟩ := List.min?_eq_some_iff.mp hLeast
  have hTwo : k ≤ 2 := hMin 2 (by simp)
  have hOperator : arg (0x28 :: (left ++ lit " %2 %3)")) op =
      0x28 :: (filled k op left ++ filled k op (lit " %2 %3)")) := by
    rw [arg, markers_binary_left, hLeast]
    exact filled_binary_left k op left
  rw [arg_binary_left, hOperator]
  by_cases hFilled : k ∈ markers left
  · obtain ⟨k', hRight⟩ :=
      exists_arg_eq_filled (0x28 :: (filled k op left ++ filled k op (lit " %2 %3)"))) right
    have hStart : StartsNoMarker (filled k op (lit " %2 %3)")) :=
      startsNoMarker_space (filled k op (lit "%2 %3)"))
    rw [hRight, filled_cons (by decide), filled_append hStart]
    refine ⟨_, _, rfl, ?_⟩
    have hLost : LosesPercent left (filled k op left) := losesPercent_filled hFilled hOpHead
    by_cases hAgain : k' ∈ markers (filled k op left)
    · exact hLost.trans (losesPercent_filled hAgain hRightHead)
    · rwa [filled_of_notMem hAgain]
  · obtain rfl : k = 2 := by
      rcases List.mem_append.mp hMem with hMem | hMem
      · exact absurd hMem hFilled
      · rcases List.mem_pair.mp hMem with rfl | rfl
        · rfl
        · omega
    have hBounds (n : Nat) (hn : n ∈ markers left) : 3 ≤ n := by
      have hGe := hMin n (by simp [hn])
      have hNe : n ≠ 2 := fun hEq => hFilled (hEq ▸ hn)
      omega
    obtain ⟨n, hn, hSmall⟩ := hLeft
    obtain rfl : n = 3 := by
      have hGe := hBounds n hn
      omega
    have hText : 0x28 :: (filled 2 op left ++ filled 2 op (lit " %2 %3)")) =
        0x28 :: (left ++ 0x20 :: (op ++ lit " %3)")) := by
      rw [filled_of_notMem hFilled]
      rfl
    rw [hText, arg_of_min (k := 3), filled_binary_operator left right hOp]
    · exact ⟨_, _, rfl, losesPercent_filled hn hRightHead⟩
    · simp [markers_binary_operator left hOp, hn]
    · intro m hm
      rw [markers_binary_operator left hOp, List.mem_append, List.mem_singleton] at hm
      rcases hm with hm | rfl
      · exact hBounds m hm
      · exact le_rfl

end operands

theorem printable_of_no_literals {e : Expression} (h : e.literals = []) : e.Printable := by
  induction e with
  | binaryOperation op left right ihLeft ihRight =>
    obtain ⟨hLeft, hRight⟩ := List.append_eq_nil_iff.mp h
    exact ⟨ihLeft hLeft, ihRight hRight, by simp [hLeft]⟩
  | unaryOperation op right ih => exact ih h
  | listExpression list ih =>
    change literalsAll list = [] at h
    change PrintableAll list
    induction list with
    | nil => trivial
    | cons e list ihList =>
      obtain ⟨hHead, hTail⟩ := List.append_eq_nil_iff.mp h
      exact ⟨ih e List.mem_cons_self hHead,
        ihList (fun e' he' => ih e' (List.mem_cons_of_mem e he')) hTail⟩
  | regexExpression => trivial
  | intValue => trivial
  | stringValue => trivial
  | identifier => trivial

theorem literals_of_int {context : TypingContext} {e : Expression}
    (h : e.synthesizeType context = .ok .Int) : e.literals = [] := by
  induction e with
  | binaryOperation op left right ihLeft ihRight =>
    obtain ⟨l, r, hLeft, hRight, hOp⟩ := synthesizeType_binaryOperation h
    rcases binaryOperationType_cases hOp with ⟨-, -, hEq⟩ | ⟨-, rfl, rfl, -⟩ |
      ⟨-, -, ⟨-, hEq⟩ | ⟨-, hEq⟩⟩ | ⟨-, -, hEq⟩
    · cases hEq
    · rw [Expression.literals, ihLeft hLeft, ihRight hRight]
      rfl
    · cases hEq
    · cases hEq
    · cases hEq
  | unaryOperation op right ih =>
    obtain ⟨-, -, hEq⟩ := synthesizeType_unaryOperation h
    cases hEq
  | listExpression list ih =>
    obtain ⟨types, -, hEq⟩ := synthesizeType_listExpression h
    unfold listExpressionType at hEq
    split at hEq
    · cases hEq
    · split at hEq <;> cases hEq
  | regexExpression => cases h
  | intValue => rfl
  | stringValue => cases h
  | identifier => rfl

theorem head?_binaryOpText {op : TokenType} (h : op.isInfix = true) (hMod : op ≠ .MOD) :
    ∃ c ∈ (binaryOpText op).head?, c ≠ 0x25 := by
  have hHeads : op.isInfix = true → op ≠ .MOD → ∃ c ∈ (binaryOpText op).head?, c ≠ 0x25 := by
    cases op <;> decide
  exact hHeads h hMod

theorem left_no_literals_of_mod {context : TypingContext} {left right : Expression} {T : FilterType}
    (h : (Expression.binaryOperation .MOD left right).synthesizeType context = .ok T) :
    left.literals = [] := by
  obtain ⟨l, r, hLeft, -, hOp⟩ := synthesizeType_binaryOperation h
  rcases binaryOperationType_cases hOp with ⟨hEq, -⟩ | ⟨-, rfl, -⟩ | ⟨hEq, -⟩ | ⟨hMath, -⟩
  · cases hEq
  · exact literals_of_int hLeft
  · cases hEq
  · cases hMath

theorem head?_filterString {e : Expression} (h : e.WellFormed) :
    ∃ c ∈ e.filterString.head?, c ≠ 0x25 := by
  have hWord {w : QString} (hNonempty : w ≠ []) (hChars : ∀ c ∈ w, isWordChar c = true) :
      ∃ c ∈ w.head?, c ≠ 0x25 := by
    obtain ⟨c, w, rfl⟩ := List.exists_cons_of_ne_nil hNonempty
    refine ⟨c, rfl, ?_⟩
    rintro rfl
    exact noPercent_of_isWordChar hChars List.mem_cons_self
  cases e with
  | binaryOperation op left right =>
    obtain ⟨k, hOperator⟩ :=
      exists_arg_eq_filled (0x28 :: (left.filterString ++ lit " %2 %3)")) (binaryOpText op)
    obtain ⟨k', hRight⟩ := exists_arg_eq_filled
      (0x28 :: filled k (binaryOpText op) (left.filterString ++ lit " %2 %3)")) right.filterString
    rw [filled_cons (by decide)] at hOperator hRight
    refine ⟨0x28, ?_, by decide⟩
    rw [filterString, arg_binary_left, hOperator, hRight]
    rfl
  | unaryOperation op right =>
    obtain ⟨rfl, -⟩ := h
    exact ⟨0x28, rfl, by decide⟩
  | listExpression list => exact ⟨0x7B, rfl, by decide⟩
  | regexExpression regex caseInsensitive =>
    cases caseInsensitive <;> exact ⟨0x72, rfl, by decide⟩
  | intValue n => exact hWord (number_ne_nil n) (isWordChar_of_mem_number h.1)
  | stringValue => exact ⟨0x22, rfl, by decide⟩
  | identifier name =>
    obtain ⟨hNonempty, hChars⟩ := isWordChar_of_mem_validIdentifiers h
    exact hWord hNonempty hChars

theorem filterString_binaryOperation {op : TokenType} {left right : Expression} (hInfix : op.isInfix = true)
    (hRight : right.WellFormed) (hMod : (∃ n ∈ markers left.filterString, n ≤ 3) → op ≠ .MOD) :
    (∀ n ∈ markers left.filterString, 3 < n) ∧
      filterString (.binaryOperation op left right) =
        0x28 :: (left.filterString ++ 0x20 :: (binaryOpText op ++
          0x20 :: (right.filterString ++ [0x29]))) ∨
    (∃ n ∈ markers left.filterString, n ≤ 3) ∧ ∃ left' rest,
      filterString (.binaryOperation op left right) = 0x28 :: (left' ++ rest) ∧
        LosesPercent left.filterString left' := by
  rw [filterString]
  by_cases hSmall : ∃ n ∈ markers left.filterString, n ≤ 3
  · exact .inr ⟨hSmall, arg_binary_garbled hSmall (markers_space_binaryOpText op)
      (head?_binaryOpText hInfix (hMod hSmall)) (head?_filterString hRight)⟩
  · have hPlain : ∀ n ∈ markers left.filterString, 3 < n := by simpa using hSmall
    exact .inl ⟨hPlain, arg_binary_plain hPlain (markers_space_binaryOpText op)⟩

end Chatterino.Filters
