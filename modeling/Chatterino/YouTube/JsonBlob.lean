import Chatterino.Lib.JsonText
import Chatterino.Qt.QJson

/-! # The data of a page

The JSON object of a page is found by its marker and by the braces outside of strings. The parser that reads the
object is a parameter.
-/

namespace Chatterino.YouTube

open Lib.JsonText QString

/-- `indexOf`, counted on from a position. -/
def indexOfFrom (needle : QString) : Nat → QString → Option Nat
  | i, [] => if needle <+: [] then some i else none
  | i, c :: text => if needle <+: c :: text then some i else indexOfFrom needle (i + 1) text

/-- The loop over the page: how many characters there are up to the brace that ends the object. -/
def scanBlob (depth : Int) (inString escaped : Bool) : QString → Option Nat
  | [] => none
  | c :: html =>
    (if inString then
      if escaped then scanBlob depth true false html
      else if c = backslash then scanBlob depth true true html
      else if c = quote then scanBlob depth false escaped html
      else scanBlob depth true escaped html
    else if c = quote then scanBlob depth true escaped html
    else if c = openBrace then scanBlob (depth + 1) false escaped html
    else if c = closeBrace then if depth - 1 = 0 then some 0 else scanBlob (depth - 1) false escaped html
    else scanBlob depth false escaped html).map Nat.succ

variable {F : Type}

def extractJsonBlob (fromJson : QString → QJsonObject F) (html marker : QString) : QJsonObject F :=
  match indexOfFrom marker 0 html with
  | none => []
  | some pos =>
    match (html.drop pos).findIdx? (· = openBrace) with
    | none => []
    | some gap =>
      let blob := html.drop (pos + gap)
      match scanBlob 0 false false blob with
      | none => []
      | some size => fromJson (blob.take size)

theorem scanBlob_quoted {body : QString} (hBody : Quoted body) (depth : Int) (rest : QString) :
    scanBlob depth true false (body ++ quote :: rest) = (scanBlob depth false false rest).map (· + (body.length + 1)) := by
  induction hBody with
  | nil => rfl
  | plain hQuote hBackslash _ ih =>
    rw [List.cons_append, scanBlob, if_pos rfl, if_neg Bool.false_ne_true, if_neg hBackslash, if_neg hQuote, ih,
      Option.map_map]
    rfl
  | escaped _ ih =>
    rw [List.cons_append, List.cons_append, scanBlob, if_pos rfl, if_neg Bool.false_ne_true, if_pos rfl, scanBlob, if_pos rfl,
      if_pos rfl, ih, Option.map_map, Option.map_map]
    rfl

theorem scanBlob_balanced {text : QString} (hText : Balanced text) {depth : Int} (hDepth : 0 < depth) (rest : QString) :
    scanBlob depth false false (text ++ rest) = (scanBlob depth false false rest).map (· + text.length) := by
  induction hText generalizing depth rest with
  | nil => simp
  | other hQuote hOpen hClose _ ih =>
    rw [List.cons_append, scanBlob, if_neg Bool.false_ne_true, if_neg hQuote, if_neg hOpen, if_neg hClose, ih hDepth,
      Option.map_map]
    rfl
  | @string body following hBody _ ih =>
    rw [List.cons_append, List.append_assoc, List.cons_append, scanBlob, if_neg Bool.false_ne_true, if_pos rfl,
      scanBlob_quoted hBody, ih hDepth, Option.map_map, Option.map_map]
    congr 1
    funext n
    simp only [Function.comp_apply, List.length_cons, List.length_append]
    omega
  | @group inner following _ _ ihInner ih =>
    rw [List.cons_append, List.append_assoc, List.cons_append, scanBlob, if_neg Bool.false_ne_true, if_neg (by decide),
      if_pos rfl, ihInner (by omega), scanBlob, if_neg Bool.false_ne_true, if_neg (by decide), if_neg (by decide), if_pos rfl,
      if_neg (by omega), Int.add_sub_cancel, ih hDepth, Option.map_map, Option.map_map, Option.map_map]
    congr 1
    funext n
    simp only [Function.comp_apply, List.length_cons, List.length_append]
    omega

theorem scanBlob_closed {text : QString} (hText : IsClosed text) (rest : QString) :
    scanBlob 0 false false (text ++ rest) = some text.length := by
  obtain ⟨inner, hInner, rfl⟩ := hText
  rw [List.cons_append, List.append_assoc, scanBlob, if_neg Bool.false_ne_true, if_neg (by decide), if_pos rfl,
    scanBlob_balanced hInner (by decide), List.singleton_append, scanBlob, if_neg Bool.false_ne_true, if_neg (by decide),
    if_neg (by decide), if_pos rfl, if_pos (by decide)]
  simp [Nat.add_comm]

inductive Closes : Int → QString → Prop where
  | last {text : QString} (h : Balanced text) : Closes 1 (text ++ [closeBrace])
  | more {depth : Int} {text rest : QString} (h : Balanced text) (hRest : Closes depth rest) :
      Closes (depth + 1) (text ++ closeBrace :: rest)

theorem Closes.pos {depth : Int} {text : QString} (h : Closes depth text) : 0 < depth := by
  induction h with
  | last => decide
  | more _ _ ih => omega

theorem Closes.prepend {depth : Int} {text before : QString} (hBefore : Balanced before) (h : Closes depth text) :
    Closes depth (before ++ text) := by
  cases h with
  | last h =>
    rw [← List.append_assoc]
    exact .last (hBefore.append h)
  | more h hRest =>
    rw [← List.append_assoc]
    exact .more (hBefore.append h) hRest

theorem Closes.exists_group {deeper depth : Int} {text : QString} (h : Closes deeper text) (hDeeper : deeper = depth + 1)
    (hDepth : 0 < depth) : ∃ inner rest, text = inner ++ closeBrace :: rest ∧ Balanced inner ∧ Closes depth rest := by
  cases h with
  | last h => omega
  | @more depth' inner rest h hRest =>
    obtain rfl : depth' = depth := by omega
    exact ⟨inner, rest, rfl, h, hRest⟩

theorem exists_quoted_of_scanBlob {depth : Int} {text : QString} (h : scanBlob depth true false text ≠ none) :
    ∃ body rest, text = body ++ quote :: rest ∧ Quoted body ∧ scanBlob depth false false rest ≠ none := by
  induction hLength : text.length using Nat.strong_induction_on generalizing text with
  | _ n ih =>
    cases text with
    | nil => exact absurd rfl h
    | cons c text =>
      rw [scanBlob, if_pos rfl, if_neg Bool.false_ne_true, Ne, Option.map_eq_none_iff] at h
      rw [List.length_cons] at hLength
      by_cases hBackslash : c = backslash
      · rw [if_pos hBackslash] at h
        cases text with
        | nil => exact absurd rfl h
        | cons e text =>
          rw [scanBlob, if_pos rfl, if_pos rfl, Option.map_eq_none_iff] at h
          rw [List.length_cons] at hLength
          obtain ⟨body, rest, rfl, hBody, hRest⟩ := ih text.length (by omega) h rfl
          exact ⟨backslash :: e :: body, rest, by rw [hBackslash]; rfl, .escaped hBody, hRest⟩
      · rw [if_neg hBackslash] at h
        by_cases hQuote : c = quote
        · rw [if_pos hQuote] at h
          exact ⟨[], text, by rw [hQuote]; rfl, .nil, h⟩
        · rw [if_neg hQuote] at h
          obtain ⟨body, rest, rfl, hBody, hRest⟩ := ih text.length (by omega) h rfl
          exact ⟨c :: body, rest, rfl, .plain hQuote hBackslash hBody, hRest⟩

theorem exists_closes_of_scanBlob {depth : Int} (hDepth : 0 < depth) {text : QString}
    (h : scanBlob depth false false text ≠ none) : ∃ read rest, text = read ++ rest ∧ Closes depth read := by
  induction hLength : text.length using Nat.strong_induction_on generalizing text depth with
  | _ n ih =>
    cases text with
    | nil => exact absurd rfl h
    | cons c text =>
      rw [scanBlob, if_neg Bool.false_ne_true, Ne, Option.map_eq_none_iff] at h
      rw [List.length_cons] at hLength
      by_cases hQuote : c = quote
      · rw [if_pos hQuote] at h
        obtain ⟨body, after, rfl, hBody, hAfter⟩ := exists_quoted_of_scanBlob h
        have hShorter : after.length < n := by
          rw [List.length_append, List.length_cons] at hLength
          omega
        obtain ⟨read, rest, rfl, hRead⟩ := ih after.length hShorter hDepth hAfter rfl
        have hString : Balanced (quote :: (body ++ [quote])) := .string hBody .nil
        exact ⟨quote :: (body ++ [quote]) ++ read, rest, by simp [hQuote], hRead.prepend hString⟩
      · rw [if_neg hQuote] at h
        by_cases hOpen : c = openBrace
        · rw [if_pos hOpen] at h
          obtain ⟨read, rest, rfl, hRead⟩ := ih text.length (by omega) (by omega) h rfl
          obtain ⟨inner, after, rfl, hInner, hAfter⟩ := hRead.exists_group rfl hDepth
          have hGroup : Balanced (openBrace :: (inner ++ [closeBrace])) := .group hInner .nil
          exact ⟨openBrace :: (inner ++ [closeBrace]) ++ after, rest, by simp [hOpen], hAfter.prepend hGroup⟩
        · rw [if_neg hOpen] at h
          by_cases hClose : c = closeBrace
          · rw [if_pos hClose] at h
            by_cases hLast : depth - 1 = 0
            · obtain rfl : depth = 1 := by omega
              exact ⟨[closeBrace], text, by rw [hClose]; rfl, .last .nil⟩
            · rw [if_neg hLast] at h
              obtain ⟨read, rest, rfl, hRead⟩ := ih text.length (by omega) (by omega) h rfl
              have hOuter := Closes.more .nil hRead
              rw [Int.sub_add_cancel] at hOuter
              exact ⟨closeBrace :: read, rest, by rw [hClose]; rfl, hOuter⟩
          · rw [if_neg hClose] at h
            obtain ⟨read, rest, rfl, hRead⟩ := ih text.length (by omega) hDepth h rfl
            exact ⟨c :: read, rest, rfl, hRead.prepend (balanced_singleton ⟨hQuote, hOpen, hClose⟩)⟩

theorem exists_closed_of_scanBlob {text : QString} (h : scanBlob 0 false false text ≠ none)
    (hHead : text.head? = some openBrace) : ∃ read rest, text = read ++ rest ∧ IsClosed read := by
  cases text with
  | nil => cases hHead
  | cons c text =>
    obtain rfl : c = openBrace := Option.some.inj hHead
    rw [scanBlob, if_neg Bool.false_ne_true, if_neg (by decide), if_pos rfl, Ne, Option.map_eq_none_iff] at h
    obtain ⟨read, rest, rfl, hRead⟩ := exists_closes_of_scanBlob (by decide) h
    have hOne : ∃ inner, read = inner ++ [closeBrace] ∧ Balanced inner := by
      generalize hDepth : (0 : Int) + 1 = depth at hRead
      cases hRead with
      | last hInner => exact ⟨_, rfl, hInner⟩
      | more _ hRest =>
        have := hRest.pos
        omega
    obtain ⟨inner, rfl, hInner⟩ := hOne
    exact ⟨openBrace :: (inner ++ [closeBrace]), rest, rfl, inner, hInner, rfl⟩

theorem scanBlob_eq_none {text : QString} (hHead : text.head? = some openBrace)
    (h : ∀ read rest, text = read ++ rest → ¬IsClosed read) : scanBlob 0 false false text = none := by
  by_contra hSome
  obtain ⟨read, rest, hSplit, hClosed⟩ := exists_closed_of_scanBlob hSome hHead
  exact h read rest hSplit hClosed

theorem not_isClosed_of_cut {text cut : QString} (h : IsClosed (text ++ cut)) (hCut : cut ≠ []) :
    ∀ read rest, text = read ++ rest → ¬IsClosed read := by
  rintro read rest rfl hRead
  have hWhole := scanBlob_closed h []
  rw [List.append_nil, List.append_assoc, scanBlob_closed hRead, Option.some_inj, ← List.append_assoc, List.length_append,
    List.length_append] at hWhole
  have hPos := List.length_pos_iff.mpr hCut
  omega

theorem indexOfFrom_eq {needle before rest : QString} (hFirst : ∀ i < before.length, ¬needle <+: (before ++ (needle ++ rest)).drop i)
    (i : Nat) : indexOfFrom needle i (before ++ (needle ++ rest)) = some (i + before.length) := by
  induction before generalizing i with
  | nil =>
    have hHere : needle <+: needle ++ rest := List.prefix_append _ _
    rw [List.nil_append]
    cases hText : needle ++ rest with
    | nil => exact if_pos (hText ▸ hHere)
    | cons c text => exact if_pos (hText ▸ hHere)
  | cons c before ih =>
    have hNot := hFirst 0 (Nat.succ_pos _)
    rw [List.drop_zero, List.cons_append] at hNot
    rw [List.cons_append, indexOfFrom, if_neg hNot, ih]
    · rw [List.length_cons, Nat.add_assoc, Nat.add_comm 1]
    · intro k hk
      exact hFirst (k + 1) (Nat.succ_lt_succ hk)

structure FoundAt (html marker tail : QString) : Prop where
  page : ∃ before gap, html = before ++ (marker ++ (gap ++ tail)) ∧ (∀ i < before.length, ¬marker <+: html.drop i) ∧
    openBrace ∉ marker ++ gap
  head : tail.head? = some openBrace

variable {fromJson : QString → QJsonObject F} {html marker tail : QString}

theorem findIdx?_openBrace {before : QString} (hBefore : openBrace ∉ before) (hHead : tail.head? = some openBrace) :
    (before ++ tail).findIdx? (· = openBrace) = some before.length := by
  have hNone : before.findIdx? (· = openBrace) = none := by
    rw [List.findIdx?_eq_none_iff]
    intro c hc
    exact decide_eq_false fun h => hBefore (h ▸ hc)
  cases tail with
  | nil => cases hHead
  | cons c tail =>
    rw [List.findIdx?_append, hNone, Option.none_or, List.findIdx?_cons, decide_eq_true (Option.some.inj hHead)]
    simp

theorem extractJsonBlob_eq (h : FoundAt html marker tail) : extractJsonBlob fromJson html marker =
    match scanBlob 0 false false tail with
    | none => []
    | some size => fromJson (tail.take size) := by
  obtain ⟨⟨before, gap, rfl, hFirst, hGap⟩, hHead⟩ := h
  have hBlob : (before ++ (marker ++ (gap ++ tail))).drop (0 + before.length + (marker ++ gap).length) = tail := by
    rw [Nat.zero_add, ← List.drop_drop, List.drop_left, ← List.append_assoc, List.drop_left]
  have hGapLength : ((before ++ (marker ++ (gap ++ tail))).drop (0 + before.length)).findIdx? (· = openBrace) =
      some (marker ++ gap).length := by
    rw [Nat.zero_add, List.drop_left, ← List.append_assoc]
    exact findIdx?_openBrace hGap hHead
  rw [extractJsonBlob, indexOfFrom_eq hFirst]
  dsimp only
  rw [hGapLength]
  dsimp only
  rw [hBlob]

/-- What is parsed is the object and nothing else, and an object that does not end gives nothing. -/
theorem extractJsonBlob_of_foundAt (fromJson : QString → QJsonObject F) (h : FoundAt html marker tail) :
    (∀ object rest, IsObject object → tail = object ++ rest → extractJsonBlob fromJson html marker = fromJson object) ∧
    (∀ cut, cut ≠ [] → IsObject (tail ++ cut) → extractJsonBlob fromJson html marker = []) ∧
    ((∀ closed rest, tail = closed ++ rest → ¬IsClosed closed) → extractJsonBlob fromJson html marker = []) := by
  rw [extractJsonBlob_eq h]
  refine ⟨?_, ?_, ?_⟩
  · rintro object rest hObject rfl
    rw [scanBlob_closed hObject.isClosed]
    dsimp only
    rw [List.take_left]
  · intro cut hCut hObject
    rw [scanBlob_eq_none h.head (not_isClosed_of_cut hObject.isClosed hCut)]
  · intro hOpen
    rw [scanBlob_eq_none h.head hOpen]

def sampleObject : QString := lit "\x7b\"a\":\"\x7d\\\"\"\x7d"

def samplePage : QString := lit "<script>var ytInitialData = " ++ sampleObject ++ lit ";</script>"

theorem isObject_sampleObject : IsObject sampleObject := by
  have hBrace : StringBody (lit "\x7d\\\"") :=
    .unescaped (by decide) (by decide) (by decide) (.escaped (by decide) .nil)
  have hMember : Derives .members (lit "\"a\":\"\x7d\\\"\"") :=
    @Derives.member [] (lit "a") [] [] _ [] (by rintro _ ⟨⟩) (.unescaped (by decide) (by decide) (by decide) .nil)
      (by rintro _ ⟨⟩) (by rintro _ ⟨⟩) (.string hBrace) (by rintro _ ⟨⟩)
  exact ⟨rfl, .object hMember⟩

theorem foundAt_samplePage :
    FoundAt samplePage (lit "ytInitialData") (sampleObject ++ lit ";</script>") where
  page := ⟨lit "<script>var ", lit " = ", by decide, by decide, by decide⟩
  head := rfl

theorem extractJsonBlob_samplePage : IsObject sampleObject ∧
    extractJsonBlob (fun text => ([("text", .string text)] : QJsonObject Nat)) samplePage (lit "ytInitialData") =
      [("text", .string sampleObject)] :=
  ⟨isObject_sampleObject,
    (extractJsonBlob_of_foundAt _ foundAt_samplePage).1 sampleObject _ isObject_sampleObject rfl⟩

end Chatterino.YouTube
