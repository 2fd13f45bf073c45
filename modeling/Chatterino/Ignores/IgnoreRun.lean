import Chatterino.Ignores.ReplacementStep
import Chatterino.Lib.Run

/-! # The run of edits that a call makes

A call edits the message one replacement after the other. Too many of them end the call with
another text.
-/

namespace Chatterino.Ignores

open Lib

inductive Edit where
  | replace (phrase : IgnorePhrase) (from_ length : Nat) (replacement : QString)
  | tooMany

variable (library : Library) (accessEmotes : Option (List (EmoteName × EmotePtr)))

def State.edit (s : State) : Edit → State
  | .replace phrase from_ length replacement =>
    replaceMessageAt library accessEmotes phrase s from_ length replacement
  | .tooMany => { s with content := tooManyReplacements }

def plainEdits (phrase : IgnorePhrase) (hPattern : phrase.pattern_ ≠ []) (from_ : Nat) (s : State) :
    List Edit :=
  match library.indexOf s.content phrase.pattern_ from_ phrase.isCaseSensitive_ with
  | none => []
  | some p =>
    .replace phrase p phrase.pattern_.length phrase.replace_ ::
      plainEdits phrase hPattern (p + phrase.replace_.length)
        (replaceMessageAt library accessEmotes phrase s p phrase.pattern_.length phrase.replace_)
termination_by s.content.length - from_
decreasing_by
  have hLength := List.length_pos_iff.mpr hPattern
  have hBounds := p.property
  have hContent := length_splice (r := phrase.replace_) hBounds.2
  rw [content_replaceMessageAt]
  omega

def regexEdits (phrase : IgnorePhrase) : Nat → Nat → State → List Edit
  | 0, _, _ => [.tooMany]
  | left + 1, from_, s =>
    match library.firstMatch phrase.getRegex s.content from_ with
    | none => []
    | some m =>
      let replacement := regexReplacement library phrase s.content m
      .replace phrase m.capturedStart m.capturedLength replacement ::
        regexEdits phrase left (m.capturedStart + phrase.replace_.length)
          (replaceMessageAt library accessEmotes phrase s m.capturedStart m.capturedLength replacement)

def edits : List IgnorePhrase → State → List Edit
  | [], _ => []
  | phrase :: phrases, s =>
    if phrase.isBlock_ then edits phrases s
    else if hPattern : phrase.pattern_ = [] then edits phrases s
    else if phrase.isRegex_ then
      if library.isValid phrase.getRegex then
        regexEdits library accessEmotes phrase 128 0 s ++
          match replaceRegex library accessEmotes phrase 128 0 s with
          | .ok s => edits phrases s
          | .error _ => []
      else edits phrases s
    else
      plainEdits library accessEmotes phrase hPattern 0 s ++
        edits phrases (replacePlain library accessEmotes phrase hPattern 0 s)

theorem replacePlain_eq_foldl (phrase : IgnorePhrase) (hPattern : phrase.pattern_ ≠ []) (from_ : Nat)
    (s : State) : replacePlain library accessEmotes phrase hPattern from_ s =
      (plainEdits library accessEmotes phrase hPattern from_ s).foldl (State.edit library accessEmotes) s := by
  fun_induction plainEdits library accessEmotes phrase hPattern from_ s with
  | case1 from_ s hNone =>
    rw [replacePlain, hNone]
    rfl
  | case2 from_ s p hSome ih =>
    rw [replacePlain, hSome]
    exact ih

theorem replaceRegex_eq_foldl (phrase : IgnorePhrase) (left from_ : Nat) (s : State) :
    (match replaceRegex library accessEmotes phrase left from_ s with
      | .ok s => s
      | .error s => s.edit library accessEmotes .tooMany) =
      (regexEdits library accessEmotes phrase left from_ s).foldl (State.edit library accessEmotes) s := by
  induction left generalizing from_ s with
  | zero => rfl
  | succ left ih =>
    rw [replaceRegex, regexEdits]
    cases hMatch : library.firstMatch phrase.getRegex s.content from_ with
    | none => rfl
    | some m => exact ih _ _

theorem processIgnorePhrases_eq_foldl (phrases : List IgnorePhrase) (s : State) :
    processIgnorePhrases library accessEmotes phrases s =
      (edits library accessEmotes phrases s).foldl (State.edit library accessEmotes) s := by
  induction phrases generalizing s with
  | nil => rfl
  | cons phrase phrases ih =>
    rw [processIgnorePhrases, edits]
    split
    · exact ih s
    · split
      · exact ih s
      · split
        · split
          · have hRegex := replaceRegex_eq_foldl library accessEmotes phrase 128 0 s
            rw [List.foldl_append, ← hRegex]
            cases replaceRegex library accessEmotes phrase 128 0 s with
            | ok s' => exact ih s'
            | error s' => rfl
          · exact ih s
        · rw [List.foldl_append, ← replacePlain_eq_foldl]
          exact ih _

def Edit.InBounds (s : State) : Edit → Prop
  | .replace _ from_ length _ => from_ + length ≤ s.content.length
  | .tooMany => True

theorem inBounds_plainEdits (phrase : IgnorePhrase) (hPattern : phrase.pattern_ ≠ []) (from_ : Nat)
    (s : State) : AllSteps (State.edit library accessEmotes) Edit.InBounds s
      (plainEdits library accessEmotes phrase hPattern from_ s) := by
  fun_induction plainEdits library accessEmotes phrase hPattern from_ s with
  | case1 => trivial
  | case2 from_ s p hSome ih => exact ⟨p.property.2, ih⟩

theorem inBounds_regexEdits (phrase : IgnorePhrase) (left from_ : Nat) (s : State) :
    AllSteps (State.edit library accessEmotes) Edit.InBounds s
      (regexEdits library accessEmotes phrase left from_ s) := by
  induction left generalizing from_ s with
  | zero => exact ⟨trivial, trivial⟩
  | succ left ih =>
    rw [regexEdits]
    cases hMatch : library.firstMatch phrase.getRegex s.content from_ with
    | none => trivial
    | some m => exact ⟨(library.firstMatch_bounds hMatch).2, ih _ _⟩

theorem inBounds_edits (phrases : List IgnorePhrase) (s : State) :
    AllSteps (State.edit library accessEmotes) Edit.InBounds s (edits library accessEmotes phrases s) := by
  induction phrases generalizing s with
  | nil => trivial
  | cons phrase phrases ih =>
    rw [edits]
    split
    · exact ih s
    · split
      · exact ih s
      · split
        · split
          · have hRegex := replaceRegex_eq_foldl library accessEmotes phrase 128 0 s
            rw [AllSteps.append_iff, ← hRegex]
            refine ⟨inBounds_regexEdits library accessEmotes phrase 128 0 s, ?_⟩
            cases replaceRegex library accessEmotes phrase 128 0 s with
            | ok s' => exact ih s'
            | error s' => trivial
          · exact ih s
        · rw [AllSteps.append_iff, ← replacePlain_eq_foldl]
          exact ⟨inBounds_plainEdits library accessEmotes phrase _ 0 s, ih _⟩

end Chatterino.Ignores

namespace Chatterino.Ignores

open Lib QString TwitchEmoteOccurrence

variable (library : Library) (accessEmotes : Option (List (EmoteName × EmotePtr)))

def Edit.Keeps (s : State) : Edit → Prop
  | .replace phrase from_ length replacement =>
    KeepsOccurrences library accessEmotes s phrase from_ length replacement
  | .tooMany => ∀ emote ∈ s.twitchEmotes, emote.Stands tooManyReplacements

theorem consistent_edit_iff {s : State} {e : Edit} (h : s.Consistent) (hBounds : e.InBounds s) :
    (s.edit library accessEmotes e).Consistent ↔ e.Keeps library accessEmotes s := by
  cases e with
  | replace phrase from_ length replacement => exact consistent_replaceMessageAt_iff h hBounds
  | tooMany => exact ⟨State.Consistent.stands, fun hStands => ⟨hStands, h.apart⟩⟩

/-- The first position from `from_` on where the text continues with the word. -/
def firstPosition (content word : QString) (from_ : Nat) (p : Nat → Bool) :
    Option { p : Nat // from_ ≤ p ∧ p + word.length ≤ content.length } :=
  (List.range (content.length + 1)).findSome? fun k =>
    if h : from_ ≤ k ∧ k + word.length ≤ content.length then
      if word <+: content.drop k ∧ p k then some ⟨k, h⟩ else none
    else none

def isLetter (c : QChar) : Bool := (0x41 ≤ c && c ≤ 0x5A) || (0x61 ≤ c && c ≤ 0x7A)

def boundedWord (regex : QRegularExpression) : Option QString :=
  let word := (regex.pattern.drop 2).dropLast.dropLast
  if regex.pattern = lit "\\b" ++ word ++ lit "\\b" ∧ word.all isLetter then some word else none

def firstWord (word subject : QString) (from_ : Nat) :
    Option { p : Nat // from_ ≤ p ∧ p + word.length ≤ subject.length } :=
  firstPosition subject word from_ fun p =>
    !((subject.take p).getLast?.any isLetter) && !((subject.drop (p + word.length)).head?.any isLetter)

def letterLibrary : Library where
  indexOf content pattern from_ _ := firstPosition content pattern from_ fun _ => true
  isValid regex := (boundedWord regex).isSome
  captureCount _ := 0
  firstMatch regex subject from_ := (boundedWord regex).bind fun word =>
    (firstWord word subject from_).map fun p => ⟨p.val, word.length, []⟩
  firstMatch_bounds h := by
    obtain ⟨word, -, h⟩ := Option.bind_eq_some_iff.mp h
    obtain ⟨p, -, rfl⟩ := Option.map_eq_some_iff.mp h
    exact p.property
  digitValue c := if 0x30 ≤ c ∧ c ≤ 0x39 then (c - 0x30).toNat else -1
  partition p items := (items.filter p, items.filter (!p ·))
  partition_perm _ _ := ⟨.refl _, .refl _⟩

def examplePhrase (pattern replace : QString) : IgnorePhrase where
  pattern_ := pattern
  isRegex_ := false
  isBlock_ := false
  replace_ := replace
  isCaseSensitive_ := true

theorem edits_single {phrase : IgnorePhrase} {s : State} (hBlock : phrase.isBlock_ = false)
    (hPattern : phrase.pattern_ ≠ []) (hRegex : phrase.isRegex_ = false)
    {p : { p : Nat // 0 ≤ p ∧ p + phrase.pattern_.length ≤ s.content.length }}
    (hFirst : library.indexOf s.content phrase.pattern_ 0 phrase.isCaseSensitive_ = some p)
    (hNext : library.indexOf (splice s.content p phrase.pattern_.length phrase.replace_) phrase.pattern_
      (p + phrase.replace_.length) phrase.isCaseSensitive_ = none) :
    edits library accessEmotes [phrase] s =
      [.replace phrase p phrase.pattern_.length phrase.replace_] := by
  rw [edits, if_neg (by rw [hBlock]; decide), dif_neg hPattern, if_neg (by rw [hRegex]; decide), plainEdits,
    hFirst, edits, List.append_nil]
  have hNext' : library.indexOf (replaceMessageAt library accessEmotes phrase s p phrase.pattern_.length
      phrase.replace_).content phrase.pattern_ (p + phrase.replace_.length) phrase.isCaseSensitive_ =
        none := hNext
  dsimp only
  rw [plainEdits, hNext']

end Chatterino.Ignores
