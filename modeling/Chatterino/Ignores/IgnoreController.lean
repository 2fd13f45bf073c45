import Chatterino.Lib.Splice
import Chatterino.Qt.QString

/-! # Ignore phrases and emote occurrences

Positions count code units. The `int` positions of the source are taken unbounded, since a chat
message is far shorter than 2^31 code units.
-/

namespace Chatterino.Ignores

open QString

abbrev EmotePtr := Option Nat

abbrev EmoteName := QString

structure TwitchEmoteOccurrence where
  start : Int
  end_ : Int
  ptr : EmotePtr
  name : EmoteName
  deriving DecidableEq, Repr

/-- A pattern with its case option. The option for Unicode properties is always set. -/
structure QRegularExpression where
  pattern : QString
  caseInsensitive : Bool

/-- A match with position and length, and those of every capturing group that took part. -/
structure RegexMatch where
  capturedStart : Nat
  capturedLength : Nat
  groups : List (Option (Nat × Nat))

def RegexMatch.captured (m : RegexMatch) (source : QString) (captureNumber : Nat) : QString :=
  match m.groups[captureNumber - 1]? with
  | some (some (start, length)) => (source.drop start).take length
  | _ => []

structure Library where
  indexOf (content pattern : QString) (from_ : Nat) (caseSensitive : Bool) :
    Option { p : Nat // from_ ≤ p ∧ p + pattern.length ≤ content.length }
  isValid : QRegularExpression → Bool
  captureCount : QRegularExpression → Nat
  firstMatch (regex : QRegularExpression) (subject : QString) (from_ : Nat) : Option RegexMatch
  firstMatch_bounds {regex : QRegularExpression} {subject : QString} {from_ : Nat} {m : RegexMatch} :
    firstMatch regex subject from_ = some m →
      from_ ≤ m.capturedStart ∧ m.capturedStart + m.capturedLength ≤ subject.length
  /-- The value of a decimal digit of any script, or -1. -/
  digitValue : QChar → Int
  /-- std::partition keeps no order. -/
  partition (p : TwitchEmoteOccurrence → Bool) (items : List TwitchEmoteOccurrence) :
    List TwitchEmoteOccurrence × List TwitchEmoteOccurrence
  partition_perm (p : TwitchEmoteOccurrence → Bool) (items : List TwitchEmoteOccurrence) :
    (partition p items).1.Perm (items.filter p) ∧ (partition p items).2.Perm (items.filter (!p ·))

structure IgnorePhrase where
  pattern_ : QString
  isRegex_ : Bool
  isBlock_ : Bool
  replace_ : QString
  isCaseSensitive_ : Bool
  emotes_ : List (EmoteName × EmotePtr) := []
  emotesChecked_ : Bool := false

namespace IgnorePhrase

def getRegex (phrase : IgnorePhrase) : QRegularExpression := ⟨phrase.pattern_, !phrase.isCaseSensitive_⟩

/-- The emotes of the user that the replacement contains, looked for once. -/
def checkEmotes (accessEmotes : Option (List (EmoteName × EmotePtr))) (phrase : IgnorePhrase) :
    IgnorePhrase :=
  if phrase.emotesChecked_ then phrase
  else
    { phrase with
      emotes_ := phrase.emotes_ ++
        (accessEmotes.getD []).filter fun emote => decide (emote.1 <:+: phrase.replace_)
      emotesChecked_ := true }

/-- The emotes as they stand after `containsEmote`. -/
def getEmotes (accessEmotes : Option (List (EmoteName × EmotePtr))) (phrase : IgnorePhrase) :
    List (EmoteName × EmotePtr) :=
  (phrase.checkEmotes accessEmotes).emotes_

def containsEmote (accessEmotes : Option (List (EmoteName × EmotePtr))) (phrase : IgnorePhrase) :
    Bool :=
  !(phrase.getEmotes accessEmotes).isEmpty

end IgnorePhrase

structure QStringCapture where
  pos : Nat
  len : Nat
  captureNumber : Nat
  deriving DecidableEq, Repr

section

variable (digitValue : QChar → Int) (numCaptures : Nat)

/-- The number of the group a reference names. A second digit counts if there is such a group. -/
def captureReference (i : Nat) (no : Int) : QString → QStringCapture
  | [] => ⟨i, 2, no.toNat⟩
  | c :: _ =>
    let secondDigit := digitValue c
    if secondDigit ≠ -1 ∧ no * 10 + secondDigit ≤ numCaptures then
      ⟨i, 3, (no * 10 + secondDigit).toNat⟩
    else ⟨i, 2, no.toNat⟩

/-- The references in the part of a replacement that starts at `i`. -/
def backReferences (i : Nat) : QString → List QStringCapture
  | c :: d :: rest =>
    let later := backReferences (i + 1) (d :: rest)
    if c ≠ 0x5C then later
    else
      let no := digitValue d
      if no ≤ 0 ∨ no > numCaptures then later
      else captureReference digitValue numCaptures i no rest :: later
  | _ => []

end

/-- The replacement from `lastEnd` on, with the references expanded. -/
def expandReferences (source : QString) (m : RegexMatch) (replacement : QString) (lastEnd : Nat) :
    List QStringCapture → QString
  | [] => replacement.drop lastEnd
  | backReference :: backReferences =>
    (replacement.drop lastEnd).take (backReference.pos - lastEnd) ++
      (m.captured source backReference.captureNumber ++
        expandReferences source m replacement (backReference.pos + backReference.len) backReferences)

def makeRegexReplacement (library : Library) (source : QString) (regex : QRegularExpression)
    (m : RegexMatch) (replacement : QString) : QString :=
  expandReferences source m replacement 0
    (backReferences library.digitValue (library.captureCount regex) 0 replacement)

open Lib

structure State where
  content : QString
  twitchEmotes : List TwitchEmoteOccurrence

variable (library : Library) (accessEmotes : Option (List (EmoteName × EmotePtr)))

def inRange (pos len : Nat) (item : TwitchEmoteOccurrence) : Bool :=
  decide ((pos : Int) ≤ item.start ∧ item.start < (pos + len : Nat))

def removeEmotesInRange (pos len : Nat) (twitchEmotes : List TwitchEmoteOccurrence) :
    List TwitchEmoteOccurrence × List TwitchEmoteOccurrence :=
  library.partition (!inRange pos len ·) twitchEmotes

def shiftIndexAfter (pos : Nat) (amount : Int) (item : TwitchEmoteOccurrence) : TwitchEmoteOccurrence :=
  if (pos : Int) ≤ item.start then
    { item with start := item.start + amount, end_ := item.end_ + amount }
  else item

/-- The emotes of the phrase among the words, which start at `startIndex + pos`. -/
def addReplEmotes (emotes : List (EmoteName × EmotePtr)) (startIndex pos : Nat) :
    List QString → List TwitchEmoteOccurrence
  | [] => []
  | word :: words =>
    ((emotes.filter (word == ·.1)).map fun emote =>
      ⟨(startIndex + pos : Nat), (startIndex + pos + emote.1.length : Nat), emote.2, emote.1⟩) ++
      addReplEmotes emotes startIndex (pos + (word.length + 1)) words

def wordStart (content : QString) : Nat → Nat
  | 0 => 0
  | pos + 1 => if content[pos]? = some 0x20 then pos + 1 else wordStart content pos

def wordEnd (content : QString) (pos : Nat) : Nat :=
  pos + ((content.drop pos).takeWhile (· != 0x20)).length

/-- The replacement at `from_` with the rest of the words at its ends. -/
def midExtendedRef (content : QString) (from_ length : Nat) : QString :=
  (content.drop (wordStart content from_)).take (wordEnd content (from_ + length) - wordStart content from_)

def findAgain (mid : QString) (from_ : Nat) (emote : TwitchEmoteOccurrence) :
    Option TwitchEmoteOccurrence :=
  if emote.ptr = none then none
  else
    (library.firstMatch ⟨lit "\\b" ++ emote.name ++ lit "\\b", false⟩ mid 0).map fun m =>
      { emote with
        start := (from_ + m.capturedStart : Nat)
        end_ := (from_ + (m.capturedStart + m.capturedLength) : Nat) }

def replaceMessageAt (phrase : IgnorePhrase) (s : State) (from_ length : Nat) (replacement : QString) :
    State :=
  let (twitchEmotes, removedEmotes) := removeEmotesInRange library from_ length s.twitchEmotes
  let content := splice s.content from_ length replacement
  let shifted := twitchEmotes.map (shiftIndexAfter (from_ + length) (replacement.length - length))
  let mid := midExtendedRef content from_ replacement.length
  let found := removedEmotes.filterMap (findAgain library mid from_)
  let added :=
    if phrase.containsEmote accessEmotes then
      addReplEmotes (phrase.getEmotes accessEmotes) (wordStart content from_) 0 (mid.splitOn 0x20)
    else []
  ⟨content, shifted ++ (found ++ added)⟩

@[simp] theorem content_replaceMessageAt (phrase : IgnorePhrase) (s : State) (from_ length : Nat)
    (replacement : QString) :
    (replaceMessageAt library accessEmotes phrase s from_ length replacement).content =
      splice s.content from_ length replacement := rfl

/-- The matches of a text pattern from `from_` on. -/
def replacePlain (phrase : IgnorePhrase) (hPattern : phrase.pattern_ ≠ []) (from_ : Nat) (s : State) :
    State :=
  match library.indexOf s.content phrase.pattern_ from_ phrase.isCaseSensitive_ with
  | none => s
  | some p =>
    replacePlain phrase hPattern (p + phrase.replace_.length)
      (replaceMessageAt library accessEmotes phrase s p phrase.pattern_.length phrase.replace_)
termination_by s.content.length - from_
decreasing_by
  have hLength := List.length_pos_iff.mpr hPattern
  have hBounds := p.property
  have hContent := length_splice (r := phrase.replace_) hBounds.2
  rw [content_replaceMessageAt]
  omega

def regexReplacement (phrase : IgnorePhrase) (content : QString) (m : RegexMatch) : QString :=
  if library.captureCount phrase.getRegex > 0 then
    makeRegexReplacement library content phrase.getRegex m phrase.replace_
  else phrase.replace_

/-- The matches of a regex from `from_` on, as long as `left` lasts. An error is too many. -/
def replaceRegex (phrase : IgnorePhrase) : Nat → Nat → State → Except State State
  | 0, _, s => .error s
  | left + 1, from_, s =>
    match library.firstMatch phrase.getRegex s.content from_ with
    | none => .ok s
    | some m =>
      replaceRegex phrase left (m.capturedStart + phrase.replace_.length)
        (replaceMessageAt library accessEmotes phrase s m.capturedStart m.capturedLength
          (regexReplacement library phrase s.content m))

def tooManyReplacements : QString := lit "Too many replacements - check your ignores!"

def processIgnorePhrases : List IgnorePhrase → State → State
  | [], s => s
  | phrase :: phrases, s =>
    if phrase.isBlock_ then processIgnorePhrases phrases s
    else if hPattern : phrase.pattern_ = [] then processIgnorePhrases phrases s
    else if phrase.isRegex_ then
      if library.isValid phrase.getRegex then
        match replaceRegex library accessEmotes phrase 128 0 s with
        | .ok s => processIgnorePhrases phrases s
        | .error s => { s with content := tooManyReplacements }
      else processIgnorePhrases phrases s
    else processIgnorePhrases phrases (replacePlain library accessEmotes phrase hPattern 0 s)

end Chatterino.Ignores
