import Mathlib.Data.List.Basic

/-! # JSON texts

The grammar of JSON over UTF-16 code units, and texts in which the braces outside of strings are balanced. Every
object is such a text.
-/

namespace Lib.JsonText

def quote : UInt16 := 0x22
def backslash : UInt16 := 0x5C
def openBrace : UInt16 := 0x7B
def closeBrace : UInt16 := 0x7D
def openBracket : UInt16 := 0x5B
def closeBracket : UInt16 := 0x5D
def comma : UInt16 := 0x2C
def colon : UInt16 := 0x3A

def IsWhitespace (c : UInt16) : Prop := c = 0x20 ∨ c = 0x09 ∨ c = 0x0A ∨ c = 0x0D

def Blank (text : List UInt16) : Prop := ∀ c ∈ text, IsWhitespace c

def IsDigit (c : UInt16) : Prop := 0x30 ≤ c ∧ c ≤ 0x39

def IsHexDigit (c : UInt16) : Prop := IsDigit c ∨ (0x41 ≤ c ∧ c ≤ 0x46) ∨ (0x61 ≤ c ∧ c ≤ 0x66)

def Digits (text : List UInt16) : Prop := text ≠ [] ∧ ∀ c ∈ text, IsDigit c

/-- `true`, `false` and `null`. -/
def literals : List (List UInt16) :=
  [[0x74, 0x72, 0x75, 0x65], [0x66, 0x61, 0x6C, 0x73, 0x65], [0x6E, 0x75, 0x6C, 0x6C]]

inductive Number : List UInt16 → Prop where
  | intro {minus integer fraction exponent : List UInt16} (hMinus : minus = [] ∨ minus = [0x2D])
      (hInteger : Digits integer) (hLeading : integer.head? = some 0x30 → integer = [0x30])
      (hFraction : fraction = [] ∨ ∃ digits, Digits digits ∧ fraction = 0x2E :: digits)
      (hExponent : exponent = [] ∨ ∃ e ∈ [(0x65 : UInt16), 0x45], ∃ sign ∈ [[], [(0x2B : UInt16)], [0x2D]],
        ∃ digits, Digits digits ∧ exponent = e :: (sign ++ digits)) :
      Number (minus ++ (integer ++ (fraction ++ exponent)))

inductive StringBody : List UInt16 → Prop where
  | nil : StringBody []
  | unescaped {c : UInt16} {body : List UInt16} (hControl : 0x20 ≤ c) (hQuote : c ≠ quote) (hBackslash : c ≠ backslash)
      (h : StringBody body) : StringBody (c :: body)
  | escaped {c : UInt16} {body : List UInt16}
      (hEscape : c ∈ [quote, backslash, 0x2F, 0x62, 0x66, 0x6E, 0x72, 0x74]) (h : StringBody body) :
      StringBody (backslash :: c :: body)
  | unicode {a b c d : UInt16} {body : List UInt16} (ha : IsHexDigit a) (hb : IsHexDigit b) (hc : IsHexDigit c)
      (hd : IsHexDigit d) (h : StringBody body) : StringBody (backslash :: 0x75 :: a :: b :: c :: d :: body)

inductive Symbol where
  | value
  | elements
  | members

inductive Derives : Symbol → List UInt16 → Prop where
  | literal {text : List UInt16} (h : text ∈ literals) : Derives .value text
  | number {text : List UInt16} (h : Number text) : Derives .value text
  | string {body : List UInt16} (h : StringBody body) : Derives .value (quote :: (body ++ [quote]))
  | emptyArray {gap : List UInt16} (h : Blank gap) : Derives .value (openBracket :: (gap ++ [closeBracket]))
  | array {text : List UInt16} (h : Derives .elements text) : Derives .value (openBracket :: (text ++ [closeBracket]))
  | emptyObject {gap : List UInt16} (h : Blank gap) : Derives .value (openBrace :: (gap ++ [closeBrace]))
  | object {text : List UInt16} (h : Derives .members text) : Derives .value (openBrace :: (text ++ [closeBrace]))
  | element {before value after : List UInt16} (hBefore : Blank before) (h : Derives .value value) (hAfter : Blank after) :
      Derives .elements (before ++ (value ++ after))
  | moreElements {first rest : List UInt16} (hFirst : Derives .elements first) (hRest : Derives .elements rest) :
      Derives .elements (first ++ comma :: rest)
  | member {before key between after value last : List UInt16} (hBefore : Blank before) (hKey : StringBody key)
      (hBetween : Blank between) (hAfter : Blank after) (h : Derives .value value) (hLast : Blank last) :
      Derives .members (before ++ (quote :: (key ++ quote :: (between ++ colon :: (after ++ (value ++ last))))))
  | moreMembers {first rest : List UInt16} (hFirst : Derives .members first) (hRest : Derives .members rest) :
      Derives .members (first ++ comma :: rest)

def IsObject (text : List UInt16) : Prop := text.head? = some openBrace ∧ Derives .value text

/-- A string as it is found by its quotes: a backslash hides what follows it. -/
inductive Quoted : List UInt16 → Prop where
  | nil : Quoted []
  | plain {c : UInt16} {body : List UInt16} (hQuote : c ≠ quote) (hBackslash : c ≠ backslash) (h : Quoted body) :
      Quoted (c :: body)
  | escaped {c : UInt16} {body : List UInt16} (h : Quoted body) : Quoted (backslash :: c :: body)

inductive Balanced : List UInt16 → Prop where
  | nil : Balanced []
  | other {c : UInt16} {rest : List UInt16} (hQuote : c ≠ quote) (hOpen : c ≠ openBrace) (hClose : c ≠ closeBrace)
      (h : Balanced rest) : Balanced (c :: rest)
  | string {body rest : List UInt16} (hBody : Quoted body) (h : Balanced rest) :
      Balanced (quote :: (body ++ quote :: rest))
  | group {inner rest : List UInt16} (hInner : Balanced inner) (h : Balanced rest) :
      Balanced (openBrace :: (inner ++ closeBrace :: rest))

def IsClosed (text : List UInt16) : Prop := ∃ inner, Balanced inner ∧ text = openBrace :: (inner ++ [closeBrace])

theorem Balanced.append {first second : List UInt16} (hFirst : Balanced first) (hSecond : Balanced second) :
    Balanced (first ++ second) := by
  induction hFirst with
  | nil => exact hSecond
  | other hQuote hOpen hClose _ ih => exact .other hQuote hOpen hClose ih
  | @string body rest hBody _ ih =>
    rw [List.cons_append, List.append_assoc]
    exact .string hBody ih
  | @group inner rest hInner _ _ ih =>
    rw [List.cons_append, List.append_assoc]
    exact .group hInner ih

theorem balanced_of_forall {text : List UInt16} (h : ∀ c ∈ text, c ≠ quote ∧ c ≠ openBrace ∧ c ≠ closeBrace) :
    Balanced text := by
  induction text with
  | nil => exact .nil
  | cons c text ih =>
    rw [List.forall_mem_cons] at h
    exact .other h.1.1 h.1.2.1 h.1.2.2 (ih h.2)

theorem IsHexDigit.plain {c : UInt16} (h : IsHexDigit c) :
    c ≠ quote ∧ c ≠ backslash ∧ c ≠ openBrace ∧ c ≠ closeBrace := by
  unfold IsHexDigit IsDigit at h
  refine ⟨?_, ?_, ?_, ?_⟩ <;>
  · rintro rfl
    revert h
    decide

theorem StringBody.quoted {body : List UInt16} (h : StringBody body) : Quoted body := by
  induction h with
  | nil => exact .nil
  | unescaped _ hQuote hBackslash _ ih => exact .plain hQuote hBackslash ih
  | escaped _ _ ih => exact .escaped ih
  | unicode ha hb hc hd _ ih =>
    refine .escaped (.plain ha.plain.1 ha.plain.2.1 (.plain hb.plain.1 hb.plain.2.1 ?_))
    exact .plain hc.plain.1 hc.plain.2.1 (.plain hd.plain.1 hd.plain.2.1 ih)

theorem Blank.balanced {text : List UInt16} (h : Blank text) : Balanced text := by
  refine balanced_of_forall fun c hc => ?_
  rcases h c hc with rfl | rfl | rfl | rfl <;> decide

theorem Digits.plain {text : List UInt16} (h : Digits text) : ∀ c ∈ text, c ≠ quote ∧ c ≠ openBrace ∧ c ≠ closeBrace :=
  fun c hc =>
    have hPlain := IsHexDigit.plain (Or.inl (h.2 c hc))
    ⟨hPlain.1, hPlain.2.2⟩

theorem Number.plain {text : List UInt16} (h : Number text) : ∀ c ∈ text, c ≠ quote ∧ c ≠ openBrace ∧ c ≠ closeBrace := by
  obtain ⟨hMinus, hInteger, -, hFraction, hExponent⟩ := h
  rw [List.forall_mem_append, List.forall_mem_append, List.forall_mem_append]
  refine ⟨?_, hInteger.plain, ?_, ?_⟩
  · rcases hMinus with rfl | rfl <;> simp [quote, openBrace, closeBrace]
  · rcases hFraction with rfl | ⟨digits, hDigits, rfl⟩
    · simp
    · exact List.forall_mem_cons.mpr ⟨by decide, hDigits.plain⟩
  · rcases hExponent with rfl | ⟨e, he, sign, hSign, digits, hDigits, rfl⟩
    · simp
    · have hLetter : ∀ e ∈ [(0x65 : UInt16), 0x45], e ≠ quote ∧ e ≠ openBrace ∧ e ≠ closeBrace := by
        simp [quote, openBrace, closeBrace]
      have hSigns : ∀ sign ∈ [[], [(0x2B : UInt16)], [0x2D]], ∀ c ∈ sign, c ≠ quote ∧ c ≠ openBrace ∧ c ≠ closeBrace := by
        simp [quote, openBrace, closeBrace]
      exact List.forall_mem_cons.mpr ⟨hLetter e he, List.forall_mem_append.mpr ⟨hSigns sign hSign, hDigits.plain⟩⟩

theorem plain_of_mem_literals : ∀ text ∈ literals, ∀ c ∈ text, c ≠ quote ∧ c ≠ openBrace ∧ c ≠ closeBrace := by
  simp [literals, quote, openBrace, closeBrace]

theorem balanced_singleton {c : UInt16} (h : c ≠ quote ∧ c ≠ openBrace ∧ c ≠ closeBrace) : Balanced [c] :=
  .other h.1 h.2.1 h.2.2 .nil

theorem balanced_comma {first rest : List UInt16} (hFirst : Balanced first) (hRest : Balanced rest) :
    Balanced (first ++ comma :: rest) :=
  hFirst.append (.other (by decide) (by decide) (by decide) hRest)

theorem balanced_brackets {text : List UInt16} (h : Balanced text) : Balanced (openBracket :: (text ++ [closeBracket])) :=
  .other (by decide) (by decide) (by decide) (h.append (balanced_singleton (by decide)))

theorem Derives.balanced {symbol : Symbol} {text : List UInt16} (h : Derives symbol text) : Balanced text := by
  induction h with
  | literal h => exact balanced_of_forall (plain_of_mem_literals _ h)
  | number h => exact balanced_of_forall h.plain
  | string h => exact .string h.quoted .nil
  | emptyArray h => exact balanced_brackets h.balanced
  | array _ ih => exact balanced_brackets ih
  | emptyObject h => exact .group h.balanced .nil
  | object _ ih => exact .group ih .nil
  | element hBefore _ hAfter ih => exact hBefore.balanced.append (ih.append hAfter.balanced)
  | moreElements _ _ ihFirst ihRest | moreMembers _ _ ihFirst ihRest => exact balanced_comma ihFirst ihRest
  | member hBefore hKey hBetween hAfter _ hLast ih =>
    refine hBefore.balanced.append (.string hKey.quoted (hBetween.balanced.append ?_))
    exact .other (by decide) (by decide) (by decide) (hAfter.balanced.append (ih.append hLast.balanced))

theorem IsObject.isClosed {text : List UInt16} (h : IsObject text) : IsClosed text := by
  obtain ⟨hHead, hValue⟩ := h
  cases hValue with
  | literal h => exact absurd rfl (plain_of_mem_literals _ h _ (List.mem_of_mem_head? hHead)).2.1
  | number h => exact absurd rfl (h.plain _ (List.mem_of_mem_head? hHead)).2.1
  | string h => exact absurd hHead (by simp [quote, openBrace])
  | emptyArray h | array h => exact absurd hHead (by simp [openBracket, openBrace])
  | emptyObject h => exact ⟨_, h.balanced, rfl⟩
  | object h => exact ⟨_, h.balanced, rfl⟩

end Lib.JsonText
