import Chatterino.Filters.TextTokens

/-! # Texts made of tokens and spaces

The text of a list of items splits at its items when no character after an item could continue it.
-/

namespace Chatterino.Filters

open Lib QString

inductive Item where
  | space
  | symbol (c : QChar)
  | word (w : QString)
  | operator (t : QString)
  | literal (start value : QString)

namespace Item

def source : Item → QString
  | space => [0x20]
  | symbol c => [c]
  | word w | operator w => w
  | literal start value => literalText start (escapeQuotes value)

def texts : Item → List QString
  | space => []
  | item => [item.source]

@[simp] theorem source_space : space.source = [0x20] := rfl

@[simp] theorem source_symbol (c : QChar) : (symbol c).source = [c] := rfl

@[simp] theorem source_word (w : QString) : (word w).source = w := rfl

@[simp] theorem source_operator (t : QString) : (operator t).source = t := rfl

@[simp] theorem source_literal (start value : QString) :
    (literal start value).source = literalText start (escapeQuotes value) := rfl

@[simp] theorem texts_space : space.texts = [] := rfl

@[simp] theorem texts_symbol (c : QChar) : (symbol c).texts = [[c]] := rfl

@[simp] theorem texts_word (w : QString) : (word w).texts = [w] := rfl

@[simp] theorem texts_operator (t : QString) : (operator t).texts = [t] := rfl

@[simp] theorem texts_literal (start value : QString) :
    (literal start value).texts = [literalText start (escapeQuotes value)] := rfl

def literals : Item → List QString
  | literal _ value => [value]
  | _ => []

def Precedes (next : Option QChar) : Item → Prop
  | space => True
  | symbol c => c ∈ lit "(){},"
  | word w => w ≠ [] ∧ (∀ c ∈ w, isWordChar c = true) ∧ ∀ c ∈ next, isWordChar c = false ∧ c ≠ 0x22
  | operator t => t ∈ operatorTexts ∧ ∀ c ∈ next, isOperatorChar c = false
  | literal start _ => start ∈ literalPrefixes

end Item

def sourceOf (items : List Item) : QString := items.flatMap Item.source

def textsOf (items : List Item) : List QString := items.flatMap Item.texts

def literalsOf (items : List Item) : List QString := items.flatMap Item.literals

@[simp] theorem sourceOf_nil : sourceOf [] = [] := rfl

@[simp] theorem sourceOf_cons (item : Item) (items : List Item) :
    sourceOf (item :: items) = item.source ++ sourceOf items := List.flatMap_cons

@[simp] theorem sourceOf_append (items items' : List Item) :
    sourceOf (items ++ items') = sourceOf items ++ sourceOf items' := List.flatMap_append

@[simp] theorem textsOf_nil : textsOf [] = [] := rfl

@[simp] theorem textsOf_cons (item : Item) (items : List Item) :
    textsOf (item :: items) = item.texts ++ textsOf items := List.flatMap_cons

@[simp] theorem textsOf_append (items items' : List Item) :
    textsOf (items ++ items') = textsOf items ++ textsOf items' := List.flatMap_append

@[simp] theorem literalsOf_nil : literalsOf [] = [] := rfl

@[simp] theorem literalsOf_cons (item : Item) (items : List Item) :
    literalsOf (item :: items) = item.literals ++ literalsOf items := List.flatMap_cons

@[simp] theorem literalsOf_append (items items' : List Item) :
    literalsOf (items ++ items') = literalsOf items ++ literalsOf items' := List.flatMap_append

/-- Every item precedes the one after it, and the last the character `next`. -/
def Separated (next : Option QChar) : List Item → Prop
  | [] => True
  | item :: items => item.Precedes ((sourceOf items).head?.or next) ∧ Separated next items

theorem separated_append {next : Option QChar} {items items' : List Item} :
    Separated next (items ++ items') ↔
      Separated ((sourceOf items').head?.or next) items ∧ Separated next items' := by
  induction items with
  | nil => exact (true_and _).symm.to_iff
  | cons item items ih =>
    rw [List.cons_append, Separated, Separated, ih, sourceOf_append, List.head?_append, Option.or_assoc,
      and_assoc]

/-- The text splits at the items if it ends with `rest`. -/
def Lexable (rest : QString) : List Item → Prop
  | [] => True
  | item :: items => item.Precedes ((sourceOf items).head?.or rest.head?) ∧
      (∀ v ∈ item.literals, v.getLast? = some 0x5C → 0x22 ∉ sourceOf items ++ rest) ∧ Lexable rest items

theorem Item.Precedes.no_quote {item : Item} {next : Option QChar} (h : item.Precedes next)
    (hLiterals : item.literals = []) : 0x22 ∉ item.source := by
  cases item with
  | space => decide
  | symbol c =>
    intro hQuote
    obtain rfl := List.mem_singleton.mp hQuote
    have hSymbol : (0x22 : QChar) ∉ lit "(){}," := by decide
    exact hSymbol h
  | word w => exact fun hQuote => absurd (h.2.1 _ hQuote) (by decide)
  | operator t =>
    have hOperators : ∀ t ∈ operatorTexts, 0x22 ∉ t := by decide
    exact hOperators t h.1
  | literal start value => cases hLiterals

theorem Separated.no_quote {items : List Item} {next : Option QChar} (h : Separated next items)
    (hLiterals : literalsOf items = []) : 0x22 ∉ sourceOf items := by
  induction items with
  | nil => exact List.not_mem_nil
  | cons item items ih =>
    rw [literalsOf_cons, List.append_eq_nil_iff] at hLiterals
    rw [sourceOf_cons, List.mem_append, not_or]
    exact ⟨h.1.no_quote hLiterals.1, ih h.2 hLiterals.2⟩

theorem lexable_of_separated {items : List Item} {rest : QString} (h : Separated rest.head? items)
    (hLiterals : ∀ before v after, literalsOf items = before ++ v :: after →
      v.getLast? = some 0x5C → after = [] ∧ 0x22 ∉ rest) : Lexable rest items := by
  induction items with
  | nil => trivial
  | cons item items ih =>
    refine ⟨h.1, fun v hv hLast => ?_, ih h.2 fun before v after hSplit => ?_⟩
    · cases item with
      | literal start value =>
        obtain rfl := List.mem_singleton.mp hv
        obtain ⟨hNil, hRest⟩ := hLiterals [] v (literalsOf items) rfl hLast
        rw [List.mem_append, not_or]
        exact ⟨h.2.no_quote hNil, hRest⟩
      | _ => cases hv
    · refine hLiterals (item.literals ++ before) v after ?_
      rw [literalsOf_cons, hSplit, List.append_assoc]

theorem matchEnd_TOKEN_REGEX_space (s : QString) : TOKEN_REGEX.matchEnd (0x20 :: s) = none := by
  have hHead : ∀ c ∈ (0x20 :: s).head?, isOperatorChar c = false := by
    rintro c ⟨⟩
    decide
  have hOperator : (Regex.plus operatorRegex).matchEnd (0x20 :: s) = none :=
    Regex.matchEnd_seq_of_ends_nil (ends_operatorRegex_nil hHead)
  rw [matchEnd_TOKEN_REGEX_of_no_literal (not_literal_of_head (by decide) (by decide)),
    matchEnd_plus_nil (by decide), hOperator]
  rfl

theorem globalMatch_sourceOf {items : List Item} {rest : QString} (h : Lexable rest items) :
    TOKEN_REGEX.globalMatch (sourceOf items ++ rest) =
      textsOf items ++ TOKEN_REGEX.globalMatch rest := by
  induction items with
  | nil => rfl
  | cons item items ih =>
    obtain ⟨hPrecedes, hLast, hItems⟩ := h
    rw [← List.head?_append] at hPrecedes
    rw [sourceOf_cons, List.append_assoc, textsOf_cons, List.append_assoc, ← ih hItems]
    cases item with
    | space => exact Regex.globalMatch_cons_of_none (matchEnd_TOKEN_REGEX_space _)
    | symbol c => exact Regex.globalMatch_append nofun (matchEnd_TOKEN_REGEX_symbol hPrecedes _)
    | word w =>
      obtain ⟨hNonempty, hWord, hNext⟩ := hPrecedes
      exact Regex.globalMatch_append hNonempty (matchEnd_TOKEN_REGEX_word hWord hNonempty hNext)
    | operator t =>
      have hNonempty : ∀ t ∈ operatorTexts, t ≠ [] := by decide
      exact Regex.globalMatch_append (hNonempty t hPrecedes.1)
        (matchEnd_TOKEN_REGEX_operator hPrecedes.1 hPrecedes.2)
    | literal start value =>
      have hClosing := closing_escapeQuotes (hLast value List.mem_cons_self)
      have hMatch := matchEnd_TOKEN_REGEX_literal hPrecedes hClosing
      refine Regex.globalMatch_append (by simp [Item.source, literalText]) ?_
      simpa [Item.source, literalText] using hMatch

end Chatterino.Filters
