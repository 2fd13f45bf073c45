import Chatterino.Layouts.LineRuns

/-! # Wrapping a word

A word that fits in no line is cut into pieces, between graphemes where Qt's text engine can be used and else
between code points. What fonts measure is a parameter.
-/

namespace Chatterino

open QString

namespace QString

def SplitsPair (front back : QString) : Prop :=
  front.getLast?.any isHighSurrogate = true ∧ back.head?.any isLowSurrogate = true

end QString

/-- The measures of a font, and where the text engine sees boundaries of graphemes. -/
structure TextFont (R : Type) where
  height : R
  horizontalAdvance : QString → R
  charAdvance : QChar → R
  engineWidth : QString → Nat → Nat → R
  graphemeBoundary : QString → Nat → Bool
  keepsPairs : ∀ view i, graphemeBoundary view i = true → ¬SplitsPair (view.take i) (view.drop i)

structure TextSource (R : Type) where
  font : TextFont R
  flags : MessageElementFlags
  hasTrailingSpace : Bool
  isRightToLeft : QString → Bool
  isNeutral : QString → Bool

structure TextPiece (R : Type) where
  text : QString
  width : R
  trailingSpace : Bool

structure Wrapped (R : Type) where
  container : MessageLayoutContainer R
  added : List (TextPiece R)

namespace TextElement

variable {R : Type}

def nextBoundary (font : TextFont R) (view : QString) (pos : Nat) : Nat :=
  ((List.range' (pos + 1) (view.length - pos)).find? fun i => view.length ≤ i || font.graphemeBoundary view i).getD
    (pos + 1)

theorem lt_nextBoundary (font : TextFont R) (view : QString) (pos : Nat) : pos < nextBoundary font view pos := by
  rw [nextBoundary]
  cases hFound : (List.range' (pos + 1) (view.length - pos)).find? fun i => view.length ≤ i || font.graphemeBoundary view i with
  | none => exact Nat.lt_succ_self pos
  | some i => exact (List.mem_range'_1.mp (List.mem_of_find?_eq_some hFound)).1

def IsCut (font : TextFont R) (view : QString) (i : Nat) : Prop :=
  i = view.length ∨ font.graphemeBoundary view i = true

theorem IsCut.keepsPairs {font : TextFont R} {view : QString} {i : Nat} (h : IsCut font view i) :
    ¬SplitsPair (view.take i) (view.drop i) := by
  rcases h with rfl | hBoundary
  · rw [List.drop_length]
    rintro ⟨-, ⟨⟩⟩
  · exact font.keepsPairs view i hBoundary

theorem nextBoundary_spec (font : TextFont R) {view : QString} {pos : Nat} (h : pos < view.length) :
    nextBoundary font view pos ≤ view.length ∧ IsCut font view (nextBoundary font view pos) := by
  have hEnd : view.length ∈ List.range' (pos + 1) (view.length - pos) := List.mem_range'_1.mpr ⟨h, by omega⟩
  rw [nextBoundary]
  cases hFound : (List.range' (pos + 1) (view.length - pos)).find? fun i => view.length ≤ i || font.graphemeBoundary view i with
  | none =>
    have hNot := List.find?_eq_none.mp hFound view.length hEnd
    rw [decide_eq_true (Nat.le_refl view.length), Bool.true_or] at hNot
    exact (hNot rfl).elim
  | some i =>
    have hLe : i ≤ view.length := by
      have hRange := (List.mem_range'_1.mp (List.mem_of_find?_eq_some hFound)).2
      omega
    refine ⟨hLe, ?_⟩
    have hCut := List.find?_some hFound
    rw [Bool.or_eq_true, decide_eq_true_iff] at hCut
    exact hCut.imp_left fun hGe => Nat.le_antisymm hLe hGe

def KeepsPairs (texts : List QString) : Prop :=
  ∀ front back, texts = front ++ back → ¬SplitsPair front.flatten back.flatten

theorem keepsPairs_nil : KeepsPairs [] := by
  rintro front back hNil ⟨hHigh, -⟩
  rw [(List.append_eq_nil_iff.mp hNil.symm).1] at hHigh
  cases hHigh

theorem KeepsPairs.cons {text : QString} {texts : List QString} (h : KeepsPairs texts)
    (hCut : ¬SplitsPair text texts.flatten) : KeepsPairs (text :: texts) := by
  intro front back hEq
  rcases List.cons_eq_append_iff.mp hEq with ⟨rfl, -⟩ | ⟨front, rfl, rfl⟩
  · rintro ⟨⟨⟩, -⟩
  · intro hSplit
    rw [List.flatten_cons] at hSplit
    by_cases hNil : front.flatten = []
    · rw [hNil, List.append_nil] at hSplit
      rw [List.flatten_append, hNil, List.nil_append] at hCut
      exact hCut hSplit
    · apply h front back rfl
      rwa [SplitsPair, List.getLast?_append_of_ne_nil _ hNil] at hSplit

def selectedPiece (piece : TextPiece R) : LayoutElementKind × Bool := (.text piece.text.length, piece.trailingSpace)

/-- Pieces of a text are added, and they are in the container as long as this takes elements. -/
structure AddsPieces (s s' : Wrapped R) (text : QString) (pieces : List (TextPiece R)) : Prop where
  added : s'.added = s.added ++ pieces
  flatten : (pieces.map TextPiece.text).flatten = text
  keepsPairs : KeepsPairs (pieces.map TextPiece.text)
  taken : s'.container.canAddElements = true → s.container.canAddElements = true ∧
    s'.container.selected = s.container.selected ++ pieces.map selectedPiece

theorem AddsPieces.cons {s s₁ s' : Wrapped R} {piece : TextPiece R} {rest : QString} {pieces : List (TextPiece R)}
    (h : AddsPieces s s₁ piece.text [piece]) (hRest : AddsPieces s₁ s' rest pieces) (hCut : ¬SplitsPair piece.text rest) :
    AddsPieces s s' (piece.text ++ rest) (piece :: pieces) where
  added := by rw [hRest.added, h.added, List.append_assoc, List.singleton_append]
  flatten := by rw [List.map_cons, List.flatten_cons, hRest.flatten]
  keepsPairs := hRest.keepsPairs.cons (hRest.flatten ▸ hCut)
  taken hCan := by
    obtain ⟨hBetween, hSelected⟩ := hRest.taken hCan
    obtain ⟨hBefore, hPiece⟩ := h.taken hBetween
    refine ⟨hBefore, ?_⟩
    rw [hSelected, hPiece, List.append_assoc]
    rfl

variable [Qreal R] (style : LayoutStyle R) (source : TextSource R)

def getTextLayoutElement (piece : TextPiece R) : MessageLayoutElement R where
  kind := .text piece.text.length
  rect_ := ⟨0, 0, piece.width, source.font.height⟩
  flags := source.flags
  isRightToLeft := source.isRightToLeft piece.text
  isNeutral := source.isNeutral piece.text
  trailingSpace := piece.trailingSpace

def addElementNoLineBreak (piece : TextPiece R) (s : Wrapped R) : Wrapped R where
  container := s.container.addElementNoLineBreak style (getTextLayoutElement source piece)
  added := s.added ++ [piece]

def breakLine (s : Wrapped R) : Wrapped R := { s with container := s.container.breakLine style }

structure LineFill (R : Type) where
  nextBreak : Nat
  currentWidth : R
  needsBreak : Bool

/-- The graphemes that fit in the line, but at least one. -/
def fillLine (c : MessageLayoutContainer R) (view : QString) (pos : Nat) (currentWidth : R) : LineFill R :=
  let nextBreak := nextBoundary source.font view pos
  let nextWidth := currentWidth + source.font.engineWidth view pos (nextBreak - pos)
  if !c.fitsInLine style nextWidth then
    if pos = 0 then ⟨nextBreak, nextWidth, true⟩ else ⟨pos, currentWidth, true⟩
  else if nextBreak < view.length then fillLine c view nextBreak nextWidth
  else ⟨nextBreak, nextWidth, false⟩
termination_by view.length - pos
decreasing_by
  have hLess := lt_nextBoundary source.font view pos
  omega

/-- One line of the word from here on, and what is left of it. Nothing if a piece would reach behind the end. -/
def wrapLine (view : QString) (s : Wrapped R) : Option (QString × Wrapped R) :=
  let line := fillLine style source s.container view 0 0
  if view.length < line.nextBreak then none
  else
    let s := addElementNoLineBreak style source
      ⟨view.take line.nextBreak, line.currentWidth, !line.needsBreak && source.hasTrailingSpace⟩ s
    some (view.drop line.nextBreak, if line.needsBreak then breakLine style s else s)

def Overflows (view : QString) (c : MessageLayoutContainer R) : Prop :=
  nextBoundary source.font view 0 = view.length ∧
    c.fitsInLine style (0 + source.font.engineWidth view 0 view.length) = false

/-- Where a line ends: at a cut, and only at the end of the text if there is no break. -/
structure EndsLine (c : MessageLayoutContainer R) (view : QString) (line : LineFill R) : Prop where
  pos : 0 < line.nextBreak
  le : line.nextBreak ≤ view.length
  isCut : IsCut source.font view line.nextBreak
  atEnd : line.needsBreak = false → line.nextBreak = view.length
  overflows : line.needsBreak = true → line.nextBreak = view.length → Overflows style source view c

theorem endsLine_fillLine (c : MessageLayoutContainer R) (view : QString) {pos : Nat} (currentWidth : R)
    (hWidth : pos = 0 → currentWidth = 0) (hPos : pos < view.length) (hCut : 0 < pos → IsCut source.font view pos) :
    EndsLine style source c view (fillLine style source c view pos currentWidth) := by
  induction hLeft : view.length - pos using Nat.strong_induction_on generalizing pos currentWidth with
  | _ left ih =>
    obtain ⟨hLe, hNext⟩ := nextBoundary_spec source.font hPos
    have hLess := lt_nextBoundary source.font view pos
    rw [fillLine]
    split_ifs with hFits hStart hMore
    · refine ⟨Nat.zero_lt_of_lt hLess, hLe, hNext, (fun hNo => by cases hNo), fun _ hEnd => ⟨hStart ▸ hEnd, ?_⟩⟩
      rw [Bool.not_eq_true'] at hFits
      dsimp only at hEnd
      rwa [hWidth hStart, hEnd, hStart, Nat.sub_zero] at hFits
    · exact ⟨Nat.pos_of_ne_zero hStart, hPos.le, hCut (Nat.pos_of_ne_zero hStart), (fun hNo => by cases hNo),
        fun _ hEnd => absurd hEnd hPos.ne⟩
    · exact ih _ (by omega) _ (fun hZero => by omega) hMore (fun _ => hNext) rfl
    · exact ⟨Nat.zero_lt_of_lt hLess, hLe, hNext, (fun _ => by dsimp only; omega), fun hYes => by cases hYes⟩

theorem fillLine_of_overflows {c : MessageLayoutContainer R} {view : QString} (h : Overflows style source view c) :
    fillLine style source c view 0 0 = ⟨view.length, 0 + source.font.engineWidth view 0 view.length, true⟩ := by
  obtain ⟨hEnd, hFits⟩ := h
  rw [fillLine, hEnd, Nat.sub_zero, hFits]
  rfl

theorem wrapLine_length {view rest : QString} {s s' : Wrapped R} (h : wrapLine style source view s = some (rest, s'))
    (hRest : rest ≠ []) : rest.length < view.length := by
  rw [wrapLine] at h
  split at h
  · cases h
  obtain ⟨rfl, -⟩ := Prod.mk.inj (Option.some.inj h)
  have hPositive := List.length_pos_of_ne_nil hRest
  have hBreak : 0 < (fillLine style source s.container view 0 0).nextBreak := by
    rw [List.length_drop] at hPositive
    exact (endsLine_fillLine style source s.container view 0 (fun _ => rfl) (by omega) (fun hNo => by omega)).pos
  rw [List.length_drop] at hPositive ⊢
  omega

def wrapLines (view : QString) (s : Wrapped R) : Option (Wrapped R) :=
  match _h : wrapLine style source view s with
  | none => none
  | some line => if _hRest : line.1 = [] then some line.2 else wrapLines line.1 line.2
termination_by view.length
decreasing_by exact wrapLine_length style source _h _hRest

/-- The loop over the code points of the word from a position on, of which those since `wordStart` are in the line. -/
def wrapUnits (word : QString) (i wordStart : Nat) (width : R) (s : Wrapped R) : Wrapped R :=
  if h : i < word.length then
    let isSurrogate := decide (i + 1 < word.length) && isHighSurrogate word[i]
    let charWidth := if isSurrogate then source.font.horizontalAdvance ((word.drop i).take 2)
      else source.font.charAdvance word[i]
    let next := if isSurrogate then i + 2 else i + 1
    if !s.container.fitsInLine style (width + charWidth) then
      wrapUnits word next i charWidth (breakLine style
        (addElementNoLineBreak style source ⟨(word.drop wordStart).take (i - wordStart), width, false⟩ s))
    else wrapUnits word next wordStart (width + charWidth) s
  else addElementNoLineBreak style source ⟨word.drop wordStart, width, source.hasTrailingSpace⟩ s
termination_by word.length - i
decreasing_by
  all_goals
    split
    all_goals omega

/-- The body of the loop over the words of an element, in both build variants. -/
def addWord (privateQtApi : Bool) (word : QString) (s : Wrapped R) : Option (Wrapped R) :=
  let width := source.font.horizontalAdvance word
  let whole : TextPiece R := ⟨word, width, source.hasTrailingSpace⟩
  if s.container.fitsInLine style width then some (addElementNoLineBreak style source whole s)
  else
    let broken := if s.container.atStartOfLine then s else breakLine style s
    if !s.container.atStartOfLine && broken.container.fitsInLine style width then
      some (addElementNoLineBreak style source whole broken)
    else if privateQtApi then wrapLines style source word broken
    else some (wrapUnits style source word 0 0 0 broken)

theorem taken_addElementNoLineBreak (piece : TextPiece R) (s : Wrapped R)
    (h : (addElementNoLineBreak style source piece s).container.canAddElements = true) :
    s.container.canAddElements = true ∧ (addElementNoLineBreak style source piece s).container.selected =
      s.container.selected ++ [selectedPiece piece] := by
  cases hCan : s.container.canAddElements with
  | false =>
    rw [addElementNoLineBreak, MessageLayoutContainer.addElementNoLineBreak, MessageLayoutContainer.addElementAt, hCan] at h
    exact absurd (hCan.symm.trans h) Bool.false_ne_true
  | true =>
    refine ⟨rfl, ?_⟩
    rw [addElementNoLineBreak, MessageLayoutContainer.addElementNoLineBreak, MessageLayoutContainer.addElementAt, hCan]
    exact List.map_append

theorem addsPieces_single (piece : TextPiece R) (s : Wrapped R) :
    AddsPieces s (addElementNoLineBreak style source piece s) piece.text [piece] where
  added := rfl
  flatten := List.append_nil _
  keepsPairs := keepsPairs_nil.cons fun hSplit => by cases hSplit.2
  taken := taken_addElementNoLineBreak style source piece s

theorem AddsPieces.breakLine {s s' : Wrapped R} {text : QString} {pieces : List (TextPiece R)}
    (h : AddsPieces s s' text pieces) : AddsPieces s (breakLine style s') text pieces where
  added := h.added
  flatten := h.flatten
  keepsPairs := h.keepsPairs
  taken hCan := by
    obtain ⟨hBefore, hSelected⟩ := h.taken (MessageLayoutContainer.canAdd_of_breakLine hCan)
    exact ⟨hBefore, (MessageLayoutContainer.selected_breakLine style s'.container).trans hSelected⟩

theorem AddsPieces.of_breakLine {s s' : Wrapped R} {text : QString} {pieces : List (TextPiece R)}
    (h : AddsPieces (TextElement.breakLine style s) s' text pieces) : AddsPieces s s' text pieces where
  added := h.added
  flatten := h.flatten
  keepsPairs := h.keepsPairs
  taken hCan := by
    obtain ⟨hBefore, hSelected⟩ := h.taken hCan
    refine ⟨MessageLayoutContainer.canAdd_of_breakLine hBefore, hSelected.trans ?_⟩
    exact congrArg (· ++ _) (MessageLayoutContainer.selected_breakLine style s.container)

inductive Reaches : QString → Wrapped R → QString → Wrapped R → Prop
  | here (view : QString) (s : Wrapped R) : Reaches view s view s
  | next {view rest view' : QString} {s s₁ s' : Wrapped R} (hLine : wrapLine style source view s = some (rest, s₁))
    (hRest : rest ≠ []) (h : Reaches rest s₁ view' s') : Reaches view s view' s'

def LastFits (view : QString) (s : Wrapped R) : Prop :=
  ∀ view' s', Reaches style source view s view' s' → ¬Overflows style source view' s'.container

theorem lastFits_of_end {view : QString} {s s₁ : Wrapped R} (h : wrapLine style source view s = some ([], s₁)) :
    LastFits style source view s ↔ ¬Overflows style source view s.container := by
  constructor
  · intro hFits
    exact hFits view s (.here view s)
  · rintro hFits _ _ (_ | ⟨hLine, hRest, -⟩)
    · exact hFits
    · rw [h, Option.some.injEq, Prod.mk.injEq] at hLine
      exact absurd hLine.1.symm hRest

theorem lastFits_next {view rest : QString} {s s₁ : Wrapped R} (h : wrapLine style source view s = some (rest, s₁))
    (hRest : rest ≠ []) (hFits : ¬Overflows style source view s.container) :
    LastFits style source view s ↔ LastFits style source rest s₁ := by
  constructor
  · intro hAll view' s' hReaches
    exact hAll view' s' (.next h hRest hReaches)
  · rintro hAll _ _ (_ | ⟨hLine, -, hReaches⟩)
    · exact hFits
    · rw [h, Option.some.injEq, Prod.mk.injEq] at hLine
      obtain ⟨rfl, rfl⟩ := hLine
      exact hAll _ _ hReaches

theorem wrapLine_spec {view : QString} (h : view ≠ []) (s : Wrapped R) :
    ∃ piece rest s₁, wrapLine style source view s = some (rest, s₁) ∧ view = piece.text ++ rest ∧
      AddsPieces s s₁ piece.text [piece] ∧ ¬SplitsPair piece.text rest ∧
      (rest = [] → (piece.trailingSpace = source.hasTrailingSpace ↔
        (source.hasTrailingSpace = true → ¬Overflows style source view s.container))) ∧
      (rest ≠ [] → piece.trailingSpace = false ∧ ¬Overflows style source view s.container) := by
  have hEnds := endsLine_fillLine style source s.container view 0 (fun _ => rfl) (List.length_pos_of_ne_nil h)
    (fun hNo => by omega)
  have hOverflows := @fillLine_of_overflows R _ style source s.container view
  generalize hLine : fillLine style source s.container view 0 0 = line at hEnds hOverflows
  obtain ⟨piece, hPiece⟩ : ∃ piece : TextPiece R, piece =
      ⟨view.take line.nextBreak, line.currentWidth, !line.needsBreak && source.hasTrailingSpace⟩ := ⟨_, rfl⟩
  have hText : piece.text = view.take line.nextBreak := by rw [hPiece]
  have hSpace : piece.trailingSpace = (!line.needsBreak && source.hasTrailingSpace) := by rw [hPiece]
  have hStep : wrapLine style source view s = some (view.drop line.nextBreak, if line.needsBreak then
      breakLine style (addElementNoLineBreak style source piece s) else addElementNoLineBreak style source piece s) := by
    rw [wrapLine, hLine, if_neg (Nat.not_lt.mpr hEnds.le), hPiece]
  refine ⟨piece, view.drop line.nextBreak, _, hStep, ?_, ?_, ?_, ?_, ?_⟩
  · rw [hText, List.take_append_drop]
  · cases line.needsBreak with
    | false => exact addsPieces_single style source piece s
    | true => exact (addsPieces_single style source piece s).breakLine style
  · rw [hText]
    exact hEnds.isCut.keepsPairs
  · intro hRest
    rw [hSpace]
    have hEnd : line.nextBreak = view.length := Nat.le_antisymm hEnds.le (List.drop_eq_nil_iff.mp hRest)
    cases hBreak : line.needsBreak with
    | false =>
      have hFits : ¬Overflows style source view s.container := by
        intro hOver
        rw [hOverflows hOver] at hBreak
        cases hBreak
      exact ⟨fun _ _ => hFits, fun _ => rfl⟩
    | true =>
      have hOver := hEnds.overflows hBreak hEnd
      cases source.hasTrailingSpace with
      | false => exact ⟨fun _ hNo => absurd hNo Bool.false_ne_true, fun _ => rfl⟩
      | true => exact ⟨(fun hNo => by cases hNo), fun hFits => absurd hOver (hFits rfl)⟩
  · intro hRest
    have hEnd : line.nextBreak ≠ view.length := by
      intro hEq
      apply hRest
      rw [hEq, List.drop_length]
    have hBreak : line.needsBreak = true := by
      rw [← Bool.not_eq_false]
      exact fun hNo => hEnd (hEnds.atEnd hNo)
    refine ⟨by rw [hSpace, hBreak]; rfl, fun hOver => hEnd ?_⟩
    rw [hOverflows hOver]

theorem wrapLines_spec {view : QString} (h : view ≠ []) (s : Wrapped R) :
    ∃ s' init last, wrapLines style source view s = some s' ∧ AddsPieces s s' view (init ++ [last]) ∧
      (∀ piece ∈ init, piece.trailingSpace = false) ∧ (last.trailingSpace = source.hasTrailingSpace ↔
        (source.hasTrailingSpace = true → LastFits style source view s)) := by
  induction hLength : view.length using Nat.strong_induction_on generalizing view s with
  | _ length ih =>
    obtain ⟨piece, rest, s₁, hLine, hText, hPiece, hCut, hLast, hMore⟩ := wrapLine_spec style source h s
    rw [wrapLines.eq_def, hLine]
    dsimp only
    by_cases hRest : rest = []
    · subst hRest
      rw [List.append_nil] at hText
      refine ⟨s₁, [], piece, dif_pos rfl, hText ▸ hPiece, fun _ hMem => absurd hMem List.not_mem_nil, ?_⟩
      rw [hLast rfl, lastFits_of_end style source hLine]
    · obtain ⟨hSpace, hFits⟩ := hMore hRest
      have hShorter : rest.length < length := hLength ▸ wrapLine_length style source hLine hRest
      obtain ⟨s', init, last, hLines, hAdds, hInit, hIff⟩ := ih rest.length hShorter hRest s₁ rfl
      refine ⟨s', piece :: init, last, (dif_neg hRest).trans hLines, ?_, List.forall_mem_cons.mpr ⟨hSpace, hInit⟩, ?_⟩
      · rw [hText]
        exact hPiece.cons hAdds hCut
      · rw [hIff, lastFits_next style source hLine hRest hFits]

theorem isLowSurrogate_of_high {c : QChar} (h : isHighSurrogate c = true) : isLowSurrogate c = false := by
  simp only [isHighSurrogate, isLowSurrogate, Bool.and_eq_true, Bool.and_eq_false_iff, decide_eq_true_iff,
    decide_eq_false_iff_not, UInt16.le_iff_toNat_le] at h ⊢
  exact .inl fun hLow => absurd (hLow.trans h.2) (by decide)

theorem head_utf16 (text : List Char) : (utf16 text).head?.any isLowSurrogate = false := by
  cases text with
  | nil => rfl
  | cons c text =>
    rw [utf16_cons]
    rcases encodeChar_cases c with ⟨u, hUnit, -, hLow⟩ | ⟨high, low, hUnits, hHigh, -⟩
    · rw [hUnit]
      exact hLow
    · rw [hUnits]
      exact isLowSurrogate_of_high hHigh

theorem of_drop_eq_cons {word rest : QString} {i : Nat} {u : QChar} (h : word.drop i = u :: rest) :
    ∃ hLength : i < word.length, word[i] = u ∧ word.drop (i + 1) = rest := by
  have hLength : i < word.length := by
    rw [← Nat.not_le, ← List.drop_eq_nil_iff, h]
    exact List.cons_ne_nil _ _
  exact ⟨hLength, List.cons.inj ((List.drop_eq_getElem_cons hLength).symm.trans h)⟩

theorem wrapUnits_step {word : QString} {i : Nat} {c : Char} {rest : List Char}
    (h : word.drop i = encodeChar c ++ utf16 rest) (wordStart : Nat) (width : R) (s : Wrapped R) :
    ∃ next charWidth, word.drop next = utf16 rest ∧ i < next ∧ wrapUnits style source word i wordStart width s =
      if s.container.fitsInLine style (width + charWidth) then
        wrapUnits style source word next wordStart (width + charWidth) s
      else wrapUnits style source word next i charWidth (breakLine style
        (addElementNoLineBreak style source ⟨(word.drop wordStart).take (i - wordStart), width, false⟩ s)) := by
  have hLoop (hLength : i < word.length) (isSurrogate : Bool)
      (hSurrogate : (decide (i + 1 < word.length) && isHighSurrogate word[i]) = isSurrogate) :
      ∃ charWidth, wrapUnits style source word i wordStart width s =
        if s.container.fitsInLine style (width + charWidth) then
          wrapUnits style source word (if isSurrogate then i + 2 else i + 1) wordStart (width + charWidth) s
        else wrapUnits style source word (if isSurrogate then i + 2 else i + 1) i charWidth (breakLine style
          (addElementNoLineBreak style source ⟨(word.drop wordStart).take (i - wordStart), width, false⟩ s)) := by
    refine ⟨if isSurrogate then source.font.horizontalAdvance ((word.drop i).take 2) else source.font.charAdvance word[i], ?_⟩
    rw [wrapUnits, dif_pos hLength]
    dsimp only
    rw [hSurrogate]
    generalize (if isSurrogate then source.font.horizontalAdvance ((word.drop i).take 2)
      else source.font.charAdvance word[i]) = charWidth
    cases s.container.fitsInLine style (width + charWidth) <;> rfl
  rcases encodeChar_cases c with ⟨u, hUnit, hHigh, -⟩ | ⟨high, low, hUnits, hHigh, -⟩
  · obtain ⟨hLength, hWord, hRest⟩ := of_drop_eq_cons (hUnit ▸ h)
    obtain ⟨charWidth, hStep⟩ := hLoop hLength false (by rw [hWord, hHigh, Bool.and_false])
    exact ⟨i + 1, charWidth, hRest, Nat.lt_succ_self i, hStep⟩
  · obtain ⟨hLength, hWord, hRest⟩ := of_drop_eq_cons (hUnits ▸ h)
    obtain ⟨hLength', -, hRest⟩ := of_drop_eq_cons hRest
    obtain ⟨charWidth, hStep⟩ := hLoop hLength true (by rw [hWord, hHigh, decide_eq_true hLength']; rfl)
    exact ⟨i + 2, charWidth, hRest, Nat.lt_add_of_pos_right Nat.two_pos, hStep⟩

theorem wrapUnits_spec {word : QString} {i wordStart : Nat} {rest : List Char} (hRest : word.drop i = utf16 rest)
    (hStart : wordStart ≤ i) (width : R) (s : Wrapped R) :
    ∃ init last, AddsPieces s (wrapUnits style source word i wordStart width s) (word.drop wordStart) (init ++ [last]) ∧
      (∀ piece ∈ init, piece.trailingSpace = false) ∧ last.trailingSpace = source.hasTrailingSpace := by
  induction rest generalizing i wordStart width s with
  | nil =>
    have hEnd : ¬i < word.length := Nat.not_lt.mpr (List.drop_eq_nil_iff.mp hRest)
    rw [wrapUnits, dif_neg hEnd]
    exact ⟨[], ⟨word.drop wordStart, width, source.hasTrailingSpace⟩, addsPieces_single style source _ s,
      fun _ hMem => absurd hMem List.not_mem_nil, rfl⟩
  | cons c rest ih =>
    have hChar : word.drop i = encodeChar c ++ utf16 rest := hRest
    obtain ⟨next, charWidth, hNext, hLess, hLoop⟩ := wrapUnits_step style source hChar wordStart width s
    rw [hLoop]
    split_ifs with hFits
    · exact ih hNext (hStart.trans hLess.le) _ s
    · obtain ⟨init, last, hAdds, hInit, hLast⟩ := ih hNext hLess.le charWidth (breakLine style
        (addElementNoLineBreak style source ⟨(word.drop wordStart).take (i - wordStart), width, false⟩ s))
      refine ⟨⟨(word.drop wordStart).take (i - wordStart), width, false⟩ :: init, last, ?_,
        List.forall_mem_cons.mpr ⟨rfl, hInit⟩, hLast⟩
      have hFirst := (addsPieces_single style source ⟨(word.drop wordStart).take (i - wordStart), width, false⟩ s).breakLine
        style
      have hAll := hFirst.cons hAdds ?_
      · dsimp only at hAll
        have hText : (word.drop wordStart).take (i - wordStart) ++ word.drop i = word.drop wordStart := by
          have hDrop := List.take_append_drop (i - wordStart) (word.drop wordStart)
          rwa [List.drop_drop, Nat.add_sub_cancel' hStart] at hDrop
        rwa [hText] at hAll
      · rintro ⟨-, hLow⟩
        rw [hRest, head_utf16] at hLow
        cases hLow

/-- The pieces of a word are all of it, no cut is in a pair of surrogates, and the last piece alone has the space of
the element. -/
def WrapsWord (word : QString) (s : Wrapped R) (result : Option (Wrapped R)) : Prop :=
  ∃ s' init last, result = some s' ∧ AddsPieces s s' word (init ++ [last]) ∧
    (∀ piece ∈ init, piece.trailingSpace = false) ∧ last.trailingSpace = source.hasTrailingSpace

def broken (s : Wrapped R) : Wrapped R := if s.container.atStartOfLine then s else breakLine style s

def FitsWhole (word : QString) (s : Wrapped R) : Prop :=
  s.container.fitsInLine style (source.font.horizontalAdvance word) = true ∨
    s.container.atStartOfLine = false ∧
      (breakLine style s).container.fitsInLine style (source.font.horizontalAdvance word) = true

theorem AddsPieces.of_broken {s s' : Wrapped R} {text : QString} {pieces : List (TextPiece R)}
    (h : AddsPieces (broken style s) s' text pieces) : AddsPieces s s' text pieces := by
  rw [broken] at h
  split_ifs at h
  · exact h
  · exact h.of_breakLine

theorem wrapsWord_whole (word : QString) {s s' : Wrapped R} (h : ∀ {text pieces}, AddsPieces s' (addElementNoLineBreak
    style source ⟨word, source.font.horizontalAdvance word, source.hasTrailingSpace⟩ s') text pieces →
      AddsPieces s (addElementNoLineBreak style source
        ⟨word, source.font.horizontalAdvance word, source.hasTrailingSpace⟩ s') text pieces) :
    WrapsWord source word s (some (addElementNoLineBreak style source
      ⟨word, source.font.horizontalAdvance word, source.hasTrailingSpace⟩ s')) :=
  ⟨_, [], _, rfl, h (addsPieces_single style source _ s'), fun _ hMem => absurd hMem List.not_mem_nil, rfl⟩

theorem addWord_cases (privateQtApi : Bool) (word : QString) (s : Wrapped R) :
    (FitsWhole style source word s ∧ WrapsWord source word s (addWord style source privateQtApi word s)) ∨
      (¬FitsWhole style source word s ∧ addWord style source privateQtApi word s =
        if privateQtApi then wrapLines style source word (broken style s)
        else some (wrapUnits style source word 0 0 0 (broken style s))) := by
  rw [addWord, FitsWhole, broken]
  dsimp only
  cases hFits : s.container.fitsInLine style (source.font.horizontalAdvance word) with
  | true => exact .inl ⟨.inl rfl, wrapsWord_whole style source word id⟩
  | false =>
    rw [if_neg Bool.false_ne_true]
    cases hStart : s.container.atStartOfLine with
    | true =>
      refine .inr ⟨?_, rfl⟩
      rintro (⟨⟨⟩⟩ | ⟨⟨⟩, -⟩)
    | false =>
      rw [if_neg Bool.false_ne_true]
      cases hNext : (breakLine style s).container.fitsInLine style (source.font.horizontalAdvance word) with
      | true => exact .inl ⟨.inr ⟨rfl, rfl⟩, wrapsWord_whole style source word fun hAdds => hAdds.of_breakLine⟩
      | false =>
        refine .inr ⟨?_, rfl⟩
        rintro (⟨⟨⟩⟩ | ⟨-, ⟨⟩⟩)

theorem wrapLines_nil (s : Wrapped R) : wrapLines style source [] s = none := by
  have hBreak : (fillLine style source s.container [] 0 0).nextBreak = 1 := by
    rw [fillLine]
    split_ifs with hFits hZero hMore
    · rfl
    · exact absurd rfl hZero
    · exact absurd hMore (Nat.not_lt_zero _)
    · rfl
  have hLine : wrapLine style source [] s = none := by
    rw [wrapLine, hBreak]
    rfl
  rw [wrapLines.eq_def, hLine]

theorem wrapsWord_wrapLines_iff {word : QString} (hNil : word ≠ []) (s : Wrapped R) :
    WrapsWord source word s (wrapLines style source word (broken style s)) ↔
      (source.hasTrailingSpace = true → LastFits style source word (broken style s)) := by
  obtain ⟨s', init, last, hResult, hAdds, hInit, hLast⟩ := wrapLines_spec style source hNil (broken style s)
  rw [← hLast, hResult]
  constructor
  · rintro ⟨_, init', last', ⟨⟩, hAdds', -, hLast'⟩
    have hPieces := List.append_cancel_left (hAdds.of_broken.added.symm.trans hAdds'.added)
    obtain ⟨-, hSame⟩ := List.append_inj' hPieces rfl
    rw [(List.cons.inj hSame).1]
    exact hLast'
  · intro hSpace
    exact ⟨s', init, last, rfl, hAdds.of_broken, hInit, hSpace⟩

/-- Without the text engine a word is always wrapped. With it, what the line has left of the word must fit. -/
theorem wrapsWord_iff (chars : List Char) (s : Wrapped R) :
    WrapsWord source (utf16 chars) s (addWord style source false (utf16 chars) s) ∧
      (WrapsWord source (utf16 chars) s (addWord style source true (utf16 chars) s) ↔
        FitsWhole style source (utf16 chars) s ∨ utf16 chars ≠ [] ∧
          (source.hasTrailingSpace = true → LastFits style source (utf16 chars) (broken style s))) := by
  constructor
  · rcases addWord_cases style source false (utf16 chars) s with ⟨-, hWraps⟩ | ⟨-, hUnits⟩
    · exact hWraps
    · rw [hUnits]
      obtain ⟨init, last, hAdds, hInit, hLast⟩ := @wrapUnits_spec R _ style source (utf16 chars) 0 0 chars
        List.drop_zero (Nat.le_refl 0) 0 (broken style s)
      exact ⟨_, init, last, rfl, hAdds.of_broken, hInit, hLast⟩
  · rcases addWord_cases style source true (utf16 chars) s with ⟨hWhole, hWraps⟩ | ⟨hWhole, hLines⟩
    · exact ⟨fun _ => .inl hWhole, fun _ => hWraps⟩
    · rw [hLines, if_pos rfl, or_iff_right hWhole]
      by_cases hNil : utf16 chars = []
      · rw [hNil, wrapLines_nil]
        constructor
        · rintro ⟨_, _, _, ⟨⟩, -⟩
        · rintro ⟨hNot, -⟩
          exact absurd rfl hNot
      · rw [and_iff_right hNil, wrapsWord_wrapLines_iff style source hNil]

def wideFont : TextFont Rat where
  height := 10
  horizontalAdvance word := 10 * (word.length : Rat)
  charAdvance _ := 10
  engineWidth _ _ n := 10 * (n : Rat)
  graphemeBoundary _ _ := false
  keepsPairs _ _ h := absurd h Bool.false_ne_true

def wideSource : TextSource Rat where
  font := wideFont
  flags := {.Text}
  hasTrailingSpace := true
  isRightToLeft _ := false
  isNeutral _ := false

def plainStyle : LayoutStyle Rat where
  collpseMessagesMinLines := 0
  removeSpacesBetweenEmotes := false
  textLineHeight := 10
  spaceWidth := 3
  dotdotdotWidth := 9

def narrow : Wrapped Rat where
  container :=
    { scale_ := 1, width_ := 20, flags_ := {}, line_ := 0, height_ := 0, currentX_ := 0, currentY_ := 0, charIndex_ := 0
      lineStart_ := 0, lineHeight_ := 0, canAddMessages_ := true, isCollapsed_ := false, lineContainsRTL_ := false
      anyReorderingDone_ := false, textDirection_ := .Neutral, elements_ := [], lines_ := [] }
  added := []

theorem not_wrapsWord_wide : ¬WrapsWord wideSource (utf16 ['W']) narrow (addWord plainStyle wideSource true (utf16 ['W']) narrow) := by
  rcases addWord_cases plainStyle wideSource true (utf16 ['W']) narrow with ⟨hWhole, -⟩ | ⟨-, hLines⟩
  · rcases hWhole with hFits | ⟨hStart, -⟩
    · exact absurd hFits (by decide +kernel)
    · exact absurd hStart (by decide)
  · rw [hLines, if_pos rfl, wrapsWord_wrapLines_iff plainStyle wideSource (by decide)]
    intro hFits
    exact hFits rfl (utf16 ['W']) narrow (.here _ _) ⟨by decide, by decide +kernel⟩

end TextElement

end Chatterino
