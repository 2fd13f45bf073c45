import Chatterino.Qt.QString
import Mathlib.Data.List.Sort

/-! # Emojis in a text

The emojis that begin with a character are looked through by the length of their value, and each of them is compared
with its unqualified form too.
-/

namespace Chatterino.Emojis

open QString

structure EmojiData where
  value : QString
  nonQualified : Option QString
  unifiedCode : QString := []
  value_ne_nil : value ≠ []
  nonQualified_ne_nil : nonQualified ≠ some []

def isLowSurrogate (c : QChar) : Bool := 0xDC00 ≤ c && c ≤ 0xDFFF

/-- `emojiFirstByte_`, sorted. -/
def possibleEmojis (emojis : List EmojiData) (character : QChar) : List EmojiData :=
  (emojis.filter fun emoji => emoji.value.head? = some character).insertionSort
    fun lhs rhs => lhs.value.length ≥ rhs.value.length

/-- `mid(position, n)`. -/
def mid (text : QString) (position n : Nat) : QString := (text.drop position).take n

/-- How much of the text from a position on an emoji takes. -/
def matchedLength (text : QString) (i : Nat) (emoji : EmojiData) : Option Nat :=
  let remainingCharacters := text.length - i - 1
  let emojiExtraCharacters := emoji.value.length - 1
  if remainingCharacters ≥ emojiExtraCharacters ∧
      emoji.value.drop 1 = mid text (i + 1) emojiExtraCharacters then
    some emoji.value.length
  else
    match emoji.nonQualified with
    | none => none
    | some nonQualified =>
      let emojiNonQualifiedExtraCharacters := nonQualified.length - 1
      if remainingCharacters ≥ emojiNonQualifiedExtraCharacters ∧
          nonQualified.drop 1 = mid text (i + 1) emojiNonQualifiedExtraCharacters then
        some nonQualified.length
      else none

def findMatch (text : QString) (i : Nat) : List EmojiData → Option (EmojiData × Nat)
  | [] => none
  | emoji :: rest =>
    match matchedLength text i emoji with
    | some n => some (emoji, n)
    | none => findMatch text i rest

def matchedEmoji (emojis : List EmojiData) (text : QString) (i : Nat) : Option (EmojiData × Nat) :=
  match text[i]? with
  | none => none
  | some character => if isLowSurrogate character then none else findMatch text i (possibleEmojis emojis character)

inductive ParsedPiece where
  | text (s : QString)
  | emoji (emoji : EmojiData)

def ParsedPiece.isText : ParsedPiece → Bool
  | text _ => true
  | emoji _ => false

/-- The loop over the text, which takes at most as many rounds as there are characters left. -/
def parseFrom (emojis : List EmojiData) (text : QString) : (rounds i lastParsedEmojiEndIndex : Nat) → List ParsedPiece
  | 0, _, last => if last < text.length then [.text (text.drop last)] else []
  | rounds + 1, i, last =>
    match matchedEmoji emojis text i with
    | none => parseFrom emojis text rounds (i + 1) last
    | some (emoji, n) =>
      (if i - last > 0 then [.text (mid text last (i - last))] else []) ++
        .emoji emoji :: parseFrom emojis text rounds (i + n) (i + n)

def parse (emojis : List EmojiData) (text : QString) : List ParsedPiece := parseFrom emojis text text.length 0 0

def EmojiData.forms (emoji : EmojiData) : List QString :=
  emoji.value :: emoji.nonQualified.toList.map fun nonQualified => emoji.value.take 1 ++ nonQualified.drop 1

inductive Tiles (stands : EmojiData → (source rest : QString) → Prop) : QString → List ParsedPiece → Prop where
  | nil : Tiles stands [] []
  | text {s rest : QString} {pieces : List ParsedPiece} (hText : s ≠ []) (hAlone : pieces.head?.any ParsedPiece.isText = false)
      (hRest : Tiles stands rest pieces) : Tiles stands (s ++ rest) (.text s :: pieces)
  | emoji {emoji : EmojiData} {source rest : QString} {pieces : List ParsedPiece} (hStands : stands emoji source rest)
      (hRest : Tiles stands rest pieces) : Tiles stands (source ++ rest) (.emoji emoji :: pieces)

section

variable (emojis : List EmojiData)

def Stands (emoji : EmojiData) (source _rest : QString) : Prop := emoji ∈ emojis ∧ source ∈ emoji.forms

def StandsLongest (emoji : EmojiData) (source rest : QString) : Prop :=
  Stands emojis emoji source rest ∧
    ∀ other ∈ emojis, ∀ form ∈ other.forms, form <+: source ++ rest → form.length ≤ source.length

def FoundWhole : Prop := ∀ emoji ∈ emojis, ∀ form ∈ emoji.forms, (form.head?.any isLowSurrogate) = false →
  (matchedEmoji emojis form 0).map Prod.snd = some form.length

end

theorem forall_mem_forms {emoji : EmojiData} {form : QString} (h : form ∈ emoji.forms) :
    form ≠ [] ∧ form.head? = emoji.value.head? := by
  obtain ⟨c, value, hValue⟩ := List.exists_cons_of_ne_nil emoji.value_ne_nil
  rcases List.mem_cons.mp h with rfl | h
  · exact ⟨emoji.value_ne_nil, rfl⟩
  · obtain ⟨nonQualified, -, rfl⟩ := List.mem_map.mp h
    rw [hValue]
    exact ⟨List.cons_ne_nil _ _, rfl⟩

variable {emojis : List EmojiData} {text : QString} {i : Nat}

theorem isPrefix_drop_iff {c : QChar} {form : QString} (hGet : text[i]? = some c) (hHead : form.head? = some c) :
    text.length - i - 1 ≥ form.length - 1 ∧ form.drop 1 = mid text (i + 1) (form.length - 1) ↔ form <+: text.drop i := by
  obtain ⟨hLt, rfl⟩ := List.getElem?_eq_some_iff.mp hGet
  cases form with
  | nil => cases hHead
  | cons d rest =>
    obtain rfl : d = text[i] := Option.some.inj hHead
    rw [List.drop_eq_getElem_cons hLt, List.prefix_cons_inj, List.prefix_iff_eq_take, List.length_cons, Nat.add_sub_cancel,
      List.drop_succ_cons, List.drop_zero, mid]
    refine ⟨And.right, fun h => ⟨?_, h⟩⟩
    have hLength := congrArg List.length h
    rw [List.length_take, List.length_drop] at hLength
    omega

theorem length_unqualified {emoji : EmojiData} {nonQualified : QString} (h : emoji.nonQualified = some nonQualified) :
    (emoji.value.take 1 ++ nonQualified.drop 1).length = nonQualified.length := by
  have hValue := List.length_pos_iff.mpr emoji.value_ne_nil
  have hForm : 0 < nonQualified.length := List.length_pos_iff.mpr fun hNil => emoji.nonQualified_ne_nil (hNil ▸ h)
  rw [List.length_append, List.length_take, List.length_drop]
  omega

theorem matchedLength_eq {emoji : EmojiData} {c : QChar} (hGet : text[i]? = some c) (hHead : emoji.value.head? = some c) :
    matchedLength text i emoji = (emoji.forms.find? (· <+: text.drop i)).map List.length := by
  rw [matchedLength, EmojiData.forms, List.find?_cons]
  by_cases hValue : emoji.value <+: text.drop i
  · rw [if_pos ((isPrefix_drop_iff hGet hHead).mpr hValue), decide_eq_true hValue]
    rfl
  · rw [if_neg ((isPrefix_drop_iff hGet hHead).not.mpr hValue), decide_eq_false hValue]
    cases hNone : emoji.nonQualified with
    | none => rfl
    | some nonQualified =>
      have hLength := length_unqualified hNone
      have hForm : (emoji.value.take 1 ++ nonQualified.drop 1).head? = some c :=
        (forall_mem_forms (by simp [EmojiData.forms, hNone])).2.trans hHead
      have hDrop : (emoji.value.take 1 ++ nonQualified.drop 1).drop 1 = nonQualified.drop 1 := by
        obtain ⟨d, value, hValue⟩ := List.exists_cons_of_ne_nil emoji.value_ne_nil
        rw [hValue]
        rfl
      have hPrefix := isPrefix_drop_iff hGet hForm
      rw [hLength, hDrop] at hPrefix
      dsimp only
      simp only [Option.toList_some, List.map_singleton, List.find?_singleton]
      by_cases hFound : emoji.value.take 1 ++ nonQualified.drop 1 <+: text.drop i
      · rw [if_pos (hPrefix.mpr hFound), if_pos (decide_eq_true hFound), Option.map_some, hLength]
      · rw [if_neg (hPrefix.not.mpr hFound), if_neg (by simpa using hFound), Option.map_none]

def firstMatch (text : QString) (candidates : List EmojiData) : Option (EmojiData × Nat) :=
  candidates.findSome? fun emoji => (emoji.forms.find? (· <+: text)).map fun form => (emoji, form.length)

theorem findMatch_eq {c : QChar} (hGet : text[i]? = some c) {candidates : List EmojiData}
    (hCandidates : ∀ emoji ∈ candidates, emoji.value.head? = some c) :
    findMatch text i candidates = firstMatch (text.drop i) candidates := by
  induction candidates with
  | nil => rfl
  | cons emoji candidates ih =>
    rw [List.forall_mem_cons] at hCandidates
    rw [findMatch, firstMatch, List.findSome?_cons, matchedLength_eq hGet hCandidates.1]
    cases emoji.forms.find? (· <+: text.drop i) with
    | none => exact ih hCandidates.2
    | some form => rfl

theorem mem_possibleEmojis {emoji : EmojiData} {c : QChar} :
    emoji ∈ possibleEmojis emojis c ↔ emoji ∈ emojis ∧ emoji.value.head? = some c := by
  rw [possibleEmojis, List.mem_insertionSort, List.mem_filter, decide_eq_true_iff]

theorem matchedEmoji_eq {c : QChar} (hGet : text[i]? = some c) : matchedEmoji emojis text i =
    if isLowSurrogate c then none else firstMatch (text.drop i) (possibleEmojis emojis c) := by
  rw [matchedEmoji, hGet]
  dsimp only
  rw [findMatch_eq hGet fun emoji h => (mem_possibleEmojis.mp h).2]

theorem exists_form_of_matchedEmoji {emoji : EmojiData} {n : Nat} (h : matchedEmoji emojis text i = some (emoji, n)) :
    emoji ∈ emojis ∧ ∃ form ∈ emoji.forms, form.length = n ∧ form <+: text.drop i := by
  cases hGet : text[i]? with
  | none =>
    rw [matchedEmoji, hGet] at h
    cases h
  | some c =>
    rw [matchedEmoji_eq hGet] at h
    split_ifs at h
    obtain ⟨found, hFound, hMatch⟩ := List.exists_of_findSome?_eq_some h
    obtain ⟨form, hForm, hPair⟩ := Option.map_eq_some_iff.mp hMatch
    cases hPair
    have hPrefix := List.find?_some hForm
    exact ⟨(mem_possibleEmojis.mp hFound).1, form, List.mem_of_find?_eq_some hForm, rfl, of_decide_eq_true hPrefix⟩

theorem not_isText_parse_cons (emoji : EmojiData) (pieces : List ParsedPiece) :
    ((ParsedPiece.emoji emoji :: pieces).head?.any ParsedPiece.isText) = false := rfl

theorem tiles_parseFrom {stands : EmojiData → QString → QString → Prop}
    (hStands : ∀ i emoji n, matchedEmoji emojis text i = some (emoji, n) → stands emoji (mid text i n) (text.drop (i + n)))
    (rounds : Nat) {last : Nat} (hLast : last ≤ i) (hRounds : text.length - i ≤ rounds) :
    Tiles stands (text.drop last) (parseFrom emojis text rounds i last) := by
  induction rounds generalizing i last with
  | zero =>
    rw [parseFrom]
    split_ifs with hLeft
    · have hText : text.drop last ≠ [] := by
        rw [Ne, List.drop_eq_nil_iff]
        omega
      have hTile : Tiles stands (text.drop last ++ []) [.text (text.drop last)] := .text hText rfl .nil
      rwa [List.append_nil] at hTile
    · rw [List.drop_eq_nil_of_le (Nat.le_of_not_lt hLeft)]
      exact .nil
  | succ rounds ih =>
    cases hMatch : matchedEmoji emojis text i with
    | none =>
      rw [parseFrom, hMatch]
      exact ih (hLast.trans (Nat.le_succ i)) (by omega)
    | some found =>
      obtain ⟨emoji, n⟩ := found
      obtain ⟨-, form, hForm, hLength, hPrefix⟩ := exists_form_of_matchedEmoji hMatch
      have hPos : 0 < n := hLength ▸ List.length_pos_iff.mpr (forall_mem_forms hForm).1
      have hRest := ih (le_refl (i + n)) (by omega)
      have hEmoji := Tiles.emoji (hStands i emoji n hMatch) hRest
      have hDrop : mid text i n ++ text.drop (i + n) = text.drop i := by
        rw [mid, ← List.drop_drop, List.take_append_drop]
      rw [hDrop] at hEmoji
      rw [parseFrom, hMatch]
      dsimp only
      split_ifs with hGap
      · have hShort : i ≤ text.length := by
          have hFits := hPrefix.length_le
          rw [List.length_drop] at hFits
          omega
        have hText : mid text last (i - last) ≠ [] := by
          rw [← List.length_pos_iff, mid, List.length_take, List.length_drop]
          omega
        have hWhole : mid text last (i - last) ++ text.drop i = text.drop last := by
          rw [mid]
          nth_rewrite 2 [← Nat.add_sub_cancel' hLast]
          rw [← List.drop_drop, List.take_append_drop]
        rw [← hWhole]
        exact .text hText (not_isText_parse_cons _ _) hEmoji
      · obtain rfl : i = last := by omega
        exact hEmoji

theorem tiles_parse {stands : EmojiData → QString → QString → Prop}
    (hStands : ∀ i emoji n, matchedEmoji emojis text i = some (emoji, n) → stands emoji (mid text i n) (text.drop (i + n))) :
    Tiles stands text (parse emojis text) :=
  tiles_parseFrom hStands text.length (le_refl 0) (Nat.sub_le _ _)

theorem stands_of_matchedEmoji {emoji : EmojiData} {n : Nat} (h : matchedEmoji emojis text i = some (emoji, n)) :
    Stands emojis emoji (mid text i n) (text.drop (i + n)) := by
  obtain ⟨hEmoji, form, hForm, rfl, hPrefix⟩ := exists_form_of_matchedEmoji h
  rw [mid, ← List.prefix_iff_eq_take.mp hPrefix]
  exact ⟨hEmoji, hForm⟩

theorem find?_isPrefix_of_isPrefix {forms : List QString} {form found : QString} (hForm : form <+: text)
    (hFind : forms.find? (· <+: text) = some found) (hShort : found.length ≤ form.length) :
    forms.find? (· <+: form) = some found := by
  obtain ⟨hFound, before, after, rfl, hBefore⟩ := List.find?_eq_some_iff_append.mp hFind
  refine List.find?_eq_some_iff_append.mpr ⟨?_, before, after, rfl, fun other hOther => ?_⟩
  · exact decide_eq_true (List.prefix_of_prefix_length_le (of_decide_eq_true hFound) hForm hShort)
  · have hNot := hBefore other hOther
    simp only [Bool.not_eq_true', decide_eq_false_iff_not] at hNot ⊢
    exact fun h => hNot (h.trans hForm)

theorem firstMatch_of_isPrefix {form : QString} (hForm : form <+: text) {candidates : List EmojiData} {emoji : EmojiData}
    {n : Nat} (h : firstMatch text candidates = some (emoji, n)) (hShort : n ≤ form.length) :
    firstMatch form candidates = some (emoji, n) := by
  induction candidates with
  | nil => cases h
  | cons candidate candidates ih =>
    rw [firstMatch, List.findSome?_cons] at h ⊢
    cases hFind : candidate.forms.find? (· <+: text) with
    | none =>
      rw [hFind] at h
      have hNone : candidate.forms.find? (· <+: form) = none := by
        rw [List.find?_eq_none] at hFind ⊢
        intro other hOther hPrefix
        exact hFind other hOther (decide_eq_true ((of_decide_eq_true hPrefix).trans hForm))
      rw [hNone]
      exact ih h
    | some found =>
      rw [hFind] at h
      cases h
      rw [find?_isPrefix_of_isPrefix hForm hFind hShort]
      rfl

theorem length_le_of_foundWhole (hWhole : FoundWhole emojis) {emoji : EmojiData} {n : Nat}
    (h : matchedEmoji emojis text i = some (emoji, n)) {other : EmojiData} (hOther : other ∈ emojis) {form : QString}
    (hForm : form ∈ other.forms) (hPrefix : form <+: text.drop i) : form.length ≤ n := by
  obtain ⟨hNe, hHead⟩ := forall_mem_forms hForm
  obtain ⟨c, rest, rfl⟩ := List.exists_cons_of_ne_nil hNe
  have hGet : text[i]? = some c := by
    rw [← List.head?_drop]
    obtain ⟨after, hAfter⟩ := hPrefix
    rw [← hAfter]
    rfl
  rw [matchedEmoji_eq hGet] at h
  split_ifs at h with hLow
  by_contra hLonger
  have hFirst := firstMatch_of_isPrefix hPrefix h (Nat.le_of_not_le hLonger)
  have hFound := hWhole other hOther _ hForm (by simpa using hLow)
  rw [matchedEmoji_eq (List.getElem?_cons_zero : (c :: rest)[0]? = some c), if_neg hLow, List.drop_zero, hFirst,
    Option.map_some, Option.some_inj] at hFound
  omega

theorem Tiles.exists_of_emoji {stands : EmojiData → QString → QString → Prop} {emoji : EmojiData} {pieces : List ParsedPiece}
    (h : Tiles stands text (.emoji emoji :: pieces)) :
    ∃ source rest, text = source ++ rest ∧ stands emoji source rest ∧ Tiles stands rest pieces := by
  cases h with
  | emoji hStands hRest => exact ⟨_, _, rfl, hStands, hRest⟩

theorem Tiles.eq_nil_of_pieces {stands : EmojiData → QString → QString → Prop} (h : Tiles stands text []) : text = [] := by
  cases h
  rfl

theorem Tiles.eq_nil {pieces : List ParsedPiece} (h : Tiles (Stands emojis) [] pieces) : pieces = [] := by
  generalize hText : ([] : QString) = text at h
  cases h with
  | nil => rfl
  | text hNe => exact absurd (List.append_eq_nil_iff.mp hText.symm).1 hNe
  | emoji hStands => exact absurd (List.append_eq_nil_iff.mp hText.symm).1 (forall_mem_forms hStands.2).1

theorem Tiles.mono {stands stands' : EmojiData → QString → QString → Prop}
    (h : ∀ emoji source rest, stands emoji source rest → stands' emoji source rest) {pieces : List ParsedPiece}
    (hTiles : Tiles stands text pieces) : Tiles stands' text pieces := by
  induction hTiles with
  | nil => exact .nil
  | text hText hAlone _ ih => exact .text hText hAlone ih
  | emoji hStands _ ih => exact .emoji (h _ _ _ hStands) ih

theorem exists_matchedEmoji {emoji : EmojiData} (hEmoji : emoji ∈ emojis) {form : QString} (hForm : form ∈ emoji.forms)
    (hHigh : form.head?.any isLowSurrogate = false) : ∃ found, matchedEmoji emojis form 0 = some found := by
  obtain ⟨hNe, hHead⟩ := forall_mem_forms hForm
  obtain ⟨c, rest, rfl⟩ := List.exists_cons_of_ne_nil hNe
  rw [matchedEmoji_eq (List.getElem?_cons_zero : (c :: rest)[0]? = some c), if_neg (by simpa using hHigh), List.drop_zero,
    ← Option.isSome_iff_exists, firstMatch, List.findSome?_isSome_iff]
  refine ⟨emoji, mem_possibleEmojis.mpr ⟨hEmoji, hHead.symm⟩, ?_⟩
  rw [Option.isSome_map, List.find?_isSome]
  exact ⟨_, hForm, decide_eq_true (List.prefix_refl _)⟩

theorem foundWhole_of_tiles (h : ∀ text, Tiles (StandsLongest emojis) text (parse emojis text)) : FoundWhole emojis := by
  intro emoji hEmoji form hForm hHigh
  obtain ⟨⟨found, n⟩, hMatch⟩ := exists_matchedEmoji hEmoji hForm hHigh
  obtain ⟨-, shown, hShown, rfl, hPrefix⟩ := exists_form_of_matchedEmoji hMatch
  obtain ⟨rounds, hRounds⟩ := Nat.exists_eq_succ_of_ne_zero (List.length_pos_iff.mpr (forall_mem_forms hForm).1).ne'
  have hParse : parse emojis form = .emoji found :: parseFrom emojis form rounds shown.length shown.length := by
    rw [parse, hRounds, parseFrom, hMatch]
    dsimp only
    rw [if_neg (Nat.lt_irrefl 0), Nat.zero_add, List.nil_append]
  have hTiles := h form
  rw [hParse] at hTiles
  obtain ⟨source, rest, hSplit, hStands, hRest⟩ := hTiles.exists_of_emoji
  have hLongest := hStands.2 emoji hEmoji form hForm (hSplit ▸ List.prefix_refl form)
  have hNil : rest = [] := by
    have hLength := congrArg List.length hSplit
    rw [List.length_append] at hLength
    exact List.length_eq_zero_iff.mp (by omega)
  subst hNil
  -- nothing is left after the first piece
  have hNone := (hRest.mono fun _ _ _ hStands => hStands.1).eq_nil
  have hPos := List.length_pos_iff.mpr (forall_mem_forms hShown).1
  have hEnough : form.length - shown.length ≤ rounds := by omega
  have hLeft : Tiles (Stands emojis) (form.drop shown.length) (parseFrom emojis form rounds shown.length shown.length) :=
    tiles_parseFrom (fun _ _ _ hMatch => stands_of_matchedEmoji hMatch) rounds le_rfl hEnough
  rw [hNone] at hLeft
  have hAll := List.drop_eq_nil_iff.mp hLeft.eq_nil_of_pieces
  rw [hMatch]
  exact congrArg some (Nat.le_antisymm hPrefix.length_le hAll)

def flag : EmojiData := ⟨[0x2691, 0xFE0F, 0x2640, 0xFE0F], some [0x2691, 0x2640], [], by decide, by decide⟩

def longFlag : EmojiData := ⟨[0x2691, 0x2640, 0x2642], none, [], by decide, by decide⟩

end Chatterino.Emojis
