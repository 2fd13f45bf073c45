import Chatterino.Filters.PrintedText

/-! # Expressions that are printed as intended -/

namespace Chatterino.Filters

open QString Expression

def PrintsIf (printable : Prop) (intended text : QString) : Prop :=
  (printable → text = intended) ∧ (¬printable → LosesPercent intended text)

theorem PrintsIf.between {printable : Prop} {intended text : QString}
    (h : PrintsIf printable intended text) (before after : QString) :
    PrintsIf printable (before ++ intended ++ after) (before ++ text ++ after) := by
  constructor
  · intro hPrintable
    rw [h.1 hPrintable]
  · intro hNot
    exact (h.2 hNot).append before after after

theorem PrintsIf.append {printable printable' : Prop} {intended intended' text text' : QString}
    (h : PrintsIf printable intended text) (h' : PrintsIf printable' intended' text') :
    PrintsIf (printable ∧ printable') (intended ++ intended') (text ++ text') := by
  constructor
  · rintro ⟨hPrintable, hPrintable'⟩
    rw [h.1 hPrintable, h'.1 hPrintable']
  · intro hNot
    by_cases hPrintable : printable
    · have hLost := (h'.2 fun hPrintable' => hNot ⟨hPrintable, hPrintable'⟩).append intended [] []
      rw [h.1 hPrintable]
      simpa using hLost
    · simpa using (h.2 hPrintable).append [] intended' text'

def printedAll (first : Bool) : List Expression → QString
  | [] => []
  | e :: list => (if first then [] else lit ", ") ++ (e.filterString ++ printedAll false list)

theorem filterString_listExpression (list : List Expression) :
    filterString (.listExpression list) = [0x7B] ++ printedAll true list ++ [0x7D] := by
  have hMore (e : Expression) (list : List Expression) :
      (lit ", ").intercalate (filterStrings (e :: list)) = e.filterString ++ printedAll false list := by
    induction list generalizing e with
    | nil => simp [filterStrings, printedAll]
    | cons e' list ih =>
      have hTail := ih e'
      rw [filterStrings] at hTail
      rw [filterStrings, filterStrings, List.intercalate_cons_cons, hTail, printedAll]
      simp
  cases list with
  | nil => rfl
  | cons e list =>
    rw [filterString, hMore]
    rfl

theorem printsIf_itemsAll {list : List Expression} {first : Bool}
    (ih : ∀ e ∈ list, PrintsIf e.Printable (sourceOf e.items) e.filterString) :
    PrintsIf (PrintableAll list) (sourceOf (itemsAll first list)) (printedAll first list) := by
  induction list generalizing first with
  | nil => exact ⟨fun _ => rfl, fun hNot => absurd trivial hNot⟩
  | cons e list ihList =>
    have hTail := @ihList false fun e' he' => ih e' (List.mem_cons_of_mem e he')
    have hBoth := (ih e List.mem_cons_self).append hTail
    rw [itemsAll, sourceOf_append, sourceOf_append, printedAll]
    have hSeparator : sourceOf (if first then [] else [.symbol 0x2C, .space]) =
        if first then [] else lit ", " := by
      cases first <;> rfl
    rw [hSeparator]
    have hText := hBoth.between (if first then [] else lit ", ") []
    rw [List.append_nil, List.append_nil] at hText
    exact hText

theorem printsIf_binaryOperation {op : TokenType} {left right : Expression} (hInfix : op.isInfix = true)
    (hLeft : left.WellFormed) (hRight : right.WellFormed) (hMod : op = .MOD → left.literals = [])
    (ihLeft : PrintsIf left.Printable (sourceOf left.items) left.filterString)
    (ihRight : PrintsIf right.Printable (sourceOf right.items) right.filterString) :
    PrintsIf (Expression.Printable (.binaryOperation op left right))
      (sourceOf (items (.binaryOperation op left right)))
      (filterString (.binaryOperation op left right)) := by
  have hMarkers : markers (sourceOf left.items) = left.literals.flatMap markers :=
    markers_sourceOf_items hLeft
  have hNoMod (hSmall : ∃ n ∈ markers left.filterString, n ≤ 3) : op ≠ .MOD := by
    intro hOp
    obtain ⟨n, hn, -⟩ := hSmall
    rw [ihLeft.1 (printable_of_no_literals (hMod hOp)), hMarkers, hMod hOp] at hn
    cases hn
  rw [sourceOf_binaryOperation]
  rcases filterString_binaryOperation hInfix hRight hNoMod with
    ⟨hPlain, hText⟩ | ⟨⟨n, hn, hSmall⟩, left', rest, hText, hLost⟩
  · have hTail := ihRight.between (0x20 :: (binaryOpText op ++ [0x20])) [0x29]
    have hBoth := (ihLeft.append hTail).between [0x28] []
    have hIff : Expression.Printable (.binaryOperation op left right) ↔
        left.Printable ∧ right.Printable := by
      refine ⟨fun h => ⟨h.1, h.2.1⟩, fun h => ⟨h.1, h.2, fun v hv n hn => hPlain n ?_⟩⟩
      rw [ihLeft.1 h.1, hMarkers]
      exact List.mem_flatMap.mpr ⟨v, hv, hn⟩
    rw [hText, hIff]
    simpa using hBoth
  · have hNot : ¬Expression.Printable (.binaryOperation op left right) := by
      rintro ⟨hPrintable, -, hLiterals⟩
      rw [ihLeft.1 hPrintable, hMarkers] at hn
      obtain ⟨v, hv, hn⟩ := List.mem_flatMap.mp hn
      have hBig := hLiterals v hv n hn
      omega
    refine ⟨fun h => absurd h hNot, fun _ => ?_⟩
    rw [hText]
    by_cases hPrintable : left.Printable
    · rw [ihLeft.1 hPrintable] at hLost
      simpa using hLost.append [0x28] (0x20 :: (binaryOpText op ++ 0x20 :: (sourceOf right.items ++ [0x29])))
        rest
    · have hLost := (ihLeft.2 hPrintable).trans hLost
      simpa using hLost.append [0x28] (0x20 :: (binaryOpText op ++ 0x20 :: (sourceOf right.items ++ [0x29])))
        rest

theorem printsIf_filterString {context : TypingContext} {e : Expression} {T : FilterType}
    (h : e.WellFormed) (hType : e.synthesizeType context = .ok T) :
    PrintsIf e.Printable (sourceOf e.items) e.filterString := by
  induction e generalizing T with
  | binaryOperation op left right ihLeft ihRight =>
    obtain ⟨hInfix, hLeft, hRight⟩ := h
    obtain ⟨l, r, hLeftType, hRightType, -⟩ := synthesizeType_binaryOperation hType
    refine printsIf_binaryOperation hInfix hLeft hRight ?_ (ihLeft hLeft hLeftType) (ihRight hRight hRightType)
    rintro rfl
    exact left_no_literals_of_mod hType
  | unaryOperation op right ih =>
    obtain ⟨rfl, hRight⟩ := h
    obtain ⟨hRightType, -, -⟩ := synthesizeType_unaryOperation hType
    have hText := (ih hRight hRightType).between [0x28, 0x21] [0x29]
    rw [List.append_assoc, List.append_assoc] at hText
    rw [sourceOf_unaryOperation]
    exact hText
  | listExpression list ih =>
    obtain ⟨types, hTypes, -⟩ := synthesizeType_listExpression hType
    have hElements : ∀ e ∈ list, PrintsIf e.Printable (sourceOf e.items) e.filterString := by
      intro e he
      obtain ⟨T, hElement⟩ := exists_type_of_mem hTypes he
      exact ih e he (WellFormedAll.of_mem h he) hElement
    have hText := (@printsIf_itemsAll list true hElements).between [0x7B] [0x7D]
    rw [sourceOf_listExpression, filterString_listExpression]
    exact hText
  | regexExpression regex caseInsensitive =>
    refine ⟨fun _ => ?_, fun hNot => absurd trivial hNot⟩
    cases caseInsensitive <;> simp [items, filterString] <;> rfl
  | intValue n | identifier name => exact ⟨fun _ => by simp [items, filterString], fun hNot => absurd trivial hNot⟩
  | stringValue s =>
    refine ⟨fun _ => ?_, fun hNot => absurd trivial hNot⟩
    simp [items, filterString]
    rfl

open Lib

def Spaced : List Item → Prop
  | [] => True
  | item :: items => (item.literals = [] → 0x25 ∈ item.source → item.source = [0x25] ∧
      (sourceOf items).head? = some 0x20) ∧ Spaced items

theorem Spaced.append {items items' : List Item} (h : Spaced items) (h' : Spaced items') :
    Spaced (items ++ items') := by
  induction items with
  | nil => exact h'
  | cons item items ih =>
    refine ⟨fun hLiterals hPercent => ?_, ih h.2⟩
    obtain ⟨hSource, hHead⟩ := h.1 hLiterals hPercent
    refine ⟨hSource, ?_⟩
    change (sourceOf (items ++ items')).head? = some 0x20
    rw [sourceOf_append, List.head?_append, hHead]
    rfl

theorem Spaced.of_noPercent (item : Item) (h : 0x25 ∉ item.source) : Spaced [item] :=
  ⟨fun _ hPercent => absurd hPercent h, trivial⟩

theorem spaced_itemsAll {list : List Expression} {first : Bool} (ih : ∀ e ∈ list, Spaced e.items) :
    Spaced (itemsAll first list) := by
  induction list generalizing first with
  | nil => trivial
  | cons e list ihList =>
    have hTail := @ihList false fun e' he' => ih e' (List.mem_cons_of_mem e he')
    have hSeparator : Spaced (if first then [] else [.symbol 0x2C, .space]) := by
      cases first
      · exact (Spaced.of_noPercent (.symbol 0x2C) (by decide)).append (.of_noPercent _ (by decide))
      · trivial
    exact hSeparator.append ((ih e List.mem_cons_self).append hTail)

theorem spaced_items {e : Expression} (h : e.WellFormed) : Spaced e.items := by
  induction e with
  | binaryOperation op left right ihLeft ihRight =>
    obtain ⟨hInfix, hLeft, hRight⟩ := h
    have hOperator : Spaced [operatorItem op, .space] := by
      refine ⟨fun _ hPercent => ⟨?_, rfl⟩, Spaced.of_noPercent _ (by decide)⟩
      rw [source_operatorItem] at hPercent ⊢
      have hTexts : 0x25 ∈ binaryOpText op → binaryOpText op = [0x25] := by
        cases op <;> decide
      exact hTexts hPercent
    exact (Spaced.of_noPercent (.symbol 0x28) (by decide)).append ((ihLeft hLeft).append
      ((Spaced.of_noPercent .space (by decide)).append (hOperator.append
        ((ihRight hRight).append (.of_noPercent _ (by decide))))))
  | unaryOperation op right ih =>
    obtain ⟨rfl, hRight⟩ := h
    exact (Spaced.of_noPercent (.symbol 0x28) (by decide)).append
      ((Spaced.of_noPercent (.operator (unaryOpText .NOT)) (by decide)).append
        ((ih hRight).append (.of_noPercent _ (by decide))))
  | listExpression list ih =>
    exact (Spaced.of_noPercent (.symbol 0x7B) (by decide)).append
      ((spaced_itemsAll fun e he => ih e he (WellFormedAll.of_mem h he)).append
        (.of_noPercent _ (by decide)))
  | regexExpression => exact ⟨nofun, trivial⟩
  | intValue n => exact .of_noPercent _ (noPercent_of_isWordChar (isWordChar_of_mem_number h.1))
  | stringValue => exact ⟨nofun, trivial⟩
  | identifier name =>
    exact .of_noPercent _ (noPercent_of_isWordChar (isWordChar_of_mem_validIdentifiers h).2)

theorem exists_of_append_eq {p q a m : QString} {c : QChar} (hNotMem : c ∉ p)
    (h : p ++ q = a ++ c :: m) : ∃ x, a = p ++ x ∧ q = x ++ c :: m := by
  rcases List.append_eq_append_iff.mp h with ⟨x, rfl, hRest⟩ | ⟨z, rfl, hRest⟩
  · exact ⟨x, rfl, hRest⟩
  · cases z with
    | nil => exact ⟨[], by simp, hRest.symm⟩
    | cons d z =>
      obtain ⟨rfl, -⟩ := List.cons.inj hRest
      exact absurd (by simp) hNotMem

theorem exists_of_append_eq_left {q s x m : QString} {c : QChar} (hNotMem : c ∉ s)
    (h : q ++ s = x ++ c :: m) : ∃ y, q = x ++ c :: y := by
  rcases List.append_eq_append_iff.mp h with ⟨z, rfl, rfl⟩ | ⟨z, rfl, hRest⟩
  · exact absurd (by simp) hNotMem
  · cases z with
    | nil =>
      rw [List.nil_append] at hRest
      exact absurd (hRest ▸ List.mem_cons_self) hNotMem
    | cons d z =>
      obtain ⟨rfl, -⟩ := List.cons.inj hRest
      exact ⟨z, rfl⟩

theorem exists_literal_of_percent {items : List Item} {next : Option QChar} {a b : QString}
    (hSeparated : Separated next items) (hSpaced : Spaced items)
    (hText : sourceOf items = a ++ 0x25 :: b) (hNext : ∃ c ∈ b.head?, c ≠ 0x20) :
    ∃ before start value after x y, items = before ++ .literal start value :: after ∧
      start ∈ literalPrefixes ∧ a = sourceOf before ++ (start ++ 0x22 :: x) ∧
      escapeQuotes value = x ++ 0x25 :: y := by
  induction items generalizing a with
  | nil => simp at hText
  | cons item items ih =>
    rw [sourceOf_cons] at hText
    rcases List.append_eq_append_iff.mp hText with ⟨m, rfl, hRest⟩ | ⟨m, hItem, hRest⟩
    · obtain ⟨before, start, value, after, x, y, rfl, hStart, rfl, hValue⟩ :=
        ih hSeparated.2 hSpaced.2 hRest
      exact ⟨item :: before, start, value, after, x, y, rfl, hStart, by simp, hValue⟩
    · cases m with
      | nil =>
        obtain ⟨before, start, value, after, x, y, rfl, hStart, hBefore, hValue⟩ :=
          @ih [] hSeparated.2 hSpaced.2 hRest.symm
        simp at hBefore
      | cons f m =>
        obtain ⟨rfl, rfl⟩ := List.cons.inj hRest
        by_cases hLiterals : item.literals = []
        · obtain ⟨hSource, hHead⟩ := hSpaced.1 hLiterals (by simp [hItem])
          obtain ⟨rfl, rfl⟩ : a = [] ∧ m = [] := by
            rw [hSource] at hItem
            cases a with
            | nil => exact ⟨rfl, (List.cons.inj hItem).2.symm⟩
            | cons g a => simp at hItem
          obtain ⟨c, hc, hSpace⟩ := hNext
          have hc' : c ∈ (sourceOf items).head? := hc
          rw [hHead] at hc'
          exact absurd (Option.some.inj hc').symm hSpace
        · cases item with
          | literal start value =>
            have hStart : start ∈ literalPrefixes := hSeparated.1
            have hStarts : ∀ start ∈ literalPrefixes, 0x25 ∉ start ++ [0x22] := by decide
            have hParts : (start ++ [0x22]) ++ (escapeQuotes value ++ [0x22]) = a ++ 0x25 :: m := by
              simpa [literalText] using hItem
            obtain ⟨x, rfl, hBody⟩ := exists_of_append_eq (hStarts start hStart) hParts
            obtain ⟨y, hValue⟩ := exists_of_append_eq_left (by decide) hBody
            exact ⟨[], start, value, items, x, y, rfl, hStart, by simp, hValue⟩
          | _ => exact absurd rfl hLiterals

theorem Item.Precedes.filterMap_literalOf {item : Item} {next : Option QChar} (h : item.Precedes next) :
    item.texts.filterMap (fun w => literalOf ⟨w, tokenize w⟩) = item.literals := by
  by_cases hLiterals : item.literals = []
  · have hNone := literalOf_of_no_quote (h.no_quote hLiterals)
    rw [hLiterals]
    cases item with
    | space => rfl
    | literal => cases hLiterals
    | _ => exact List.filterMap_cons_none hNone
  · cases item with
    | literal start value =>
      have hValue := literalOf_literalText h (escapeQuotes value)
      rw [unescapeQuotes_escapeQuotes] at hValue
      exact List.filterMap_cons_some hValue
    | _ => exact absurd rfl hLiterals

theorem filterMap_literalOf_textsOf {items : List Item} {next : Option QChar} (h : Separated next items) :
    (textsOf items).filterMap (fun w => literalOf ⟨w, tokenize w⟩) = literalsOf items := by
  induction items with
  | nil => rfl
  | cons item items ih =>
    rw [textsOf_cons, List.filterMap_append, h.1.filterMap_literalOf, ih h.2, literalsOf_cons]

theorem matchedLiterals_sourceOf {items : List Item} {rest : QString} (h : Separated rest.head? items)
    (hLiterals : ∀ v ∈ literalsOf items, v.getLast? ≠ some 0x5C) :
    matchedLiterals (sourceOf items ++ rest) = literalsOf items ++ matchedLiterals rest := by
  have hLexable : Lexable rest items := by
    refine lexable_of_separated h fun before v after hSplit hLast => ?_
    exact absurd hLast (hLiterals v (by rw [hSplit]; simp))
  rw [matchedLiterals, globalMatch_sourceOf hLexable, List.filterMap_append, filterMap_literalOf_textsOf h,
    matchedLiterals]

theorem matchedLiterals_start {start z v : QString} {vs : List QString} (hStart : start ∈ literalPrefixes)
    (h : matchedLiterals (start ++ 0x22 :: z) = v :: vs) : ∃ rest, z = escapeQuotes v ++ 0x22 :: rest := by
  cases hClosing : closing z with
  | none =>
    have hNoQuote : ∀ start ∈ literalPrefixes, start.count 0x22 = 0 := by decide
    have hNil : matchedLiterals (start ++ 0x22 :: z) = [] := by
      apply matchedLiterals_eq_nil
      rw [List.count_append, List.count_cons_self, hNoQuote start hStart,
        List.count_eq_zero_of_not_mem (closing_eq_none.mp hClosing)]
    cases hNil.symm.trans h
  | some rest =>
    obtain ⟨raw, rfl, hRaw, -⟩ := exists_of_closing hClosing
    have hMatch := matchEnd_TOKEN_REGEX_literal hStart hClosing
    have hText : start ++ 0x22 :: (raw ++ 0x22 :: rest) = literalText start raw ++ rest := by
      simp [literalText]
    rw [hText] at hMatch h
    rw [matchedLiterals, Regex.globalMatch_append (by simp [literalText]) hMatch, List.filterMap_cons,
      literalOf_literalText hStart] at h
    obtain ⟨rfl, -⟩ := List.cons.inj h
    exact ⟨rest, by rw [hRaw]⟩

namespace Derives

variable {text : QString} {e : Expression} (h : Derives .expr (tokensOf text) e)
include h

theorem wellFormed_of_text : e.WellFormed :=
  h.wellFormed (fun _ => wellFormedToken_of_mem_tokensOf) trivial

theorem literals_of_text (hValid : isValidUtf16 text = true) : e.literals = matchedLiterals text := by
  rw [h.literals, filterMap_literalOf_tokensOf hValid]
  rfl

theorem literals_of_invalid (hValid : isValidUtf16 text ≠ true) : e.literals = [] := by
  rw [h.literals, tokensOf, if_neg hValid]
  rfl

theorem literals_dropLast : ∀ v ∈ e.literals.dropLast, v.getLast? ≠ some 0x5C := by
  by_cases hValid : isValidUtf16 text = true
  · rw [h.literals_of_text hValid]
    exact matchedLiterals_dropLast text
  · rw [h.literals_of_invalid hValid]
    exact nofun

theorem of_sourceOf_items : Derives .expr (tokensOf (sourceOf e.items)) e := by
  rw [tokensOf_sourceOf h.wellFormed_of_text h.literals_dropLast]
  exact (derives_tokens h.wellFormed_of_text).expr_of_value

theorem not_of_losesPercent {printed : QString} (hLost : LosesPercent (sourceOf e.items) printed) :
    ¬Derives .expr (tokensOf printed) e := by
  intro hPrinted
  obtain ⟨a, b, c, d, hIntended, hText, hc, hNext⟩ := hLost
  have hSeparated : Separated none e.items := separated_items h.wellFormed_of_text nofun
  obtain ⟨before, start, value, after, x, y, hItems, hStart, rfl, hValue⟩ :=
    exists_literal_of_percent hSeparated (spaced_items h.wellFormed_of_text) hIntended hNext
  have hLiterals : e.literals = literalsOf before ++ value :: literalsOf after := by
    rw [← literalsOf_items, hItems]
    simp [Item.literals]
  have hValid : isValidUtf16 printed = true := by
    by_contra hValid
    rw [hPrinted.literals_of_invalid hValid] at hLiterals
    exact List.append_ne_nil_of_right_ne_nil _ (List.cons_ne_nil _ _) hLiterals.symm
  have hBefore : Separated (start ++ 0x22 :: (x ++ c :: d)).head? before := by
    rw [hItems, separated_append] at hSeparated
    have hHead := hSeparated.1
    simp only [sourceOf_cons, Item.source_literal, literalText, List.append_assoc, List.cons_append,
      List.head?_append, List.head?_cons, Option.or_some, Option.some_or] at hHead ⊢
    exact hHead
  have hSlash : ∀ v ∈ literalsOf before, v.getLast? ≠ some 0x5C := by
    intro v hv
    apply h.literals_dropLast v
    rw [hLiterals, List.dropLast_append_of_ne_nil (List.cons_ne_nil _ _)]
    exact List.mem_append_left _ hv
  have hMatched := hPrinted.literals_of_text hValid
  rw [hText, List.append_assoc, List.append_assoc, List.cons_append, matchedLiterals_sourceOf hBefore hSlash,
    hLiterals] at hMatched
  obtain ⟨rest, hRest⟩ := matchedLiterals_start hStart (List.append_cancel_left hMatched).symm
  rw [hValue, List.append_assoc] at hRest
  obtain ⟨rfl, -⟩ := List.cons.inj (List.append_cancel_left hRest)
  exact hc rfl

end Derives

namespace Filter

def ReadsBack (filter : Filter) : Prop :=
  ∃ filter', fromString filter.filterString = .ok filter' ∧ filter'.expression_ = filter.expression_

theorem readsBack_iff_derives {filter : Filter} :
    filter.ReadsBack ↔ Derives .expr (tokensOf filter.filterString) filter.expression_ := by
  constructor
  · rintro ⟨filter', hRead, hSame⟩
    rw [← hSame]
    exact fromString_iff_derives.mp hRead
  · intro h
    exact ⟨filter, fromString_iff_derives.mpr h, rfl⟩

/-- An accepted filter is read back exactly when no place marker of a literal gets in the way. -/
theorem fromString_filterString_iff {text : QString} {filter : Filter} (h : fromString text = .ok filter) :
    filter.ReadsBack ↔ filter.expression_.Printable := by
  have hDerives := fromString_iff_derives.mp h
  have hPrints := printsIf_filterString hDerives.wellFormed_of_text filter.wellTyped
  refine readsBack_iff_derives.trans ⟨fun hRead => ?_, fun hPrintable => ?_⟩
  · by_contra hNot
    exact hDerives.not_of_losesPercent (hPrints.2 hNot) hRead
  · rw [filterString, hPrints.1 hPrintable]
    exact hDerives.of_sourceOf_items

/-- A marker that stands in a right operand, or has a number above three, is no obstacle. -/
theorem fromString_filterString_percent : ∃ filter, fromString (lit "\"%9\" == \"%1\"") = .ok filter ∧
    filter.ReadsBack := by
  have hTokens : tokensOf (lit "\"%9\" == \"%1\"") = [⟨lit "\"%9\"", .STRING⟩, ⟨lit "==", .EQ⟩,
      ⟨lit "\"%1\"", .STRING⟩] := by decide +kernel
  have hParse : parseText (lit "\"%9\" == \"%1\"") =
      (.binaryOperation .EQ (.stringValue (lit "%9")) (.stringValue (lit "%1")), { rest := [] }) := by
    apply parseText_eq
    rw [hTokens]
    rfl
  have hRead : fromString (lit "\"%9\" == \"%1\"") = .ok ⟨_, .Bool, rfl⟩ :=
    fromString_eq_ok.mpr ⟨congrArg (·.2.valid_) hParse, congrArg (·.1) hParse⟩
  refine ⟨_, hRead, (fromString_filterString_iff hRead).mpr ?_⟩
  have hMarkers : ∀ n ∈ markers (lit "%9"), 3 < n := by decide +kernel
  exact ⟨trivial, trivial, List.forall_mem_singleton.mpr hMarkers⟩

/-- The operator goes into the marker of the left literal. -/
theorem filterString_second_marker : ∃ filter, fromString (lit "\"%2\" == \"x\"") = .ok filter ∧
    filter.filterString = lit "(\"==\" == \"x\")" ∧ ¬filter.ReadsBack := by
  have hTokens : tokensOf (lit "\"%2\" == \"x\"") = [⟨lit "\"%2\"", .STRING⟩, ⟨lit "==", .EQ⟩,
      ⟨lit "\"x\"", .STRING⟩] := by decide +kernel
  have hParse : parseText (lit "\"%2\" == \"x\"") =
      (.binaryOperation .EQ (.stringValue (lit "%2")) (.stringValue (lit "x")), { rest := [] }) := by
    apply parseText_eq
    rw [hTokens]
    rfl
  have hTokens' : tokensOf (lit "(\"==\" == \"x\")") = [⟨lit "(", .LP⟩, ⟨lit "\"==\"", .STRING⟩,
      ⟨lit "==", .EQ⟩, ⟨lit "\"x\"", .STRING⟩, ⟨lit ")", .RP⟩] := by decide +kernel
  have hParse' : parseText (lit "(\"==\" == \"x\")") =
      (.binaryOperation .EQ (.stringValue (lit "==")) (.stringValue (lit "x")), { rest := [] }) := by
    apply parseText_eq
    rw [hTokens']
    rfl
  have hPrinted : (Expression.binaryOperation .EQ (.stringValue (lit "%2"))
      (.stringValue (lit "x"))).filterString = lit "(\"==\" == \"x\")" := by decide +kernel
  refine ⟨⟨_, .Bool, rfl⟩,
    fromString_eq_ok.mpr ⟨congrArg (·.2.valid_) hParse, congrArg (·.1) hParse⟩, hPrinted, ?_⟩
  rintro ⟨filter', hRead, hSame⟩
  obtain ⟨-, hTree⟩ := fromString_eq_ok.mp hRead
  rw [filterString, hPrinted, hParse', hSame] at hTree
  have hLiteral : lit "==" ≠ lit "%2" := by decide
  exact hLiteral (stringValue.inj (binaryOperation.inj hTree).2.1)

end Filter

end Chatterino.Filters
