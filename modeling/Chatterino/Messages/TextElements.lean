import Chatterino.Common.LinkParser
import Chatterino.Ignores.IgnoreController
import Mathlib.Data.List.TakeWhile

/-! # The elements of a text

What the user reads of a message are its elements. An emote or emoji element keeps here, besides
its emote, the text that it stands for.
-/

namespace Chatterino.Messages

open QString Ignores

structure EmojiData where
  value : QString
  /-- Null where the emoji has no such form. -/
  nonQualified : Option QString
  emote : EmotePtr
  value_ne_nil : value ≠ []
  nonQualified_ne_nil : nonQualified ≠ some []

namespace Emojis

inductive Variant where
  | emote (emote : EmotePtr) (matched : QString)
  | text (string : QString)

def Variant.string : Variant → QString
  | emote _ matched => matched
  | text string => string

def isLowSurrogate (c : QChar) : Bool := 0xDC00 ≤ c && c ≤ 0xDFFF

/-- The length of the form that continues with the remaining text. Both forms start with the
character that the emoji was found by. -/
def matchedLength (emoji : EmojiData) (remaining : QString) : Option Nat :=
  if emoji.value.length - 1 ≤ remaining.length ∧
      emoji.value.drop 1 = remaining.take (emoji.value.length - 1) then some emoji.value.length
  else
    match emoji.nonQualified with
    | some nonQualified =>
      if nonQualified.length - 1 ≤ remaining.length ∧
          nonQualified.drop 1 = remaining.take (nonQualified.length - 1) then some nonQualified.length
      else none
    | none => none

def findEmoji (possibleEmojis : List EmojiData) (remaining : QString) : Option (EmotePtr × Nat) :=
  possibleEmojis.findSome? fun emoji =>
    (matchedLength emoji remaining).map fun length => (emoji.emote, length)

def textVariant (text : QString) : List Variant := if text = [] then [] else [.text text]

/-- The loop of the parser. What follows the last emoji is pending, and the characters of an emoji
that has been found are skipped. -/
def parseFrom (emojiFirstByte : QChar → List EmojiData) : (skip : Nat) → (pending : QString) →
    QString → List Variant
  | _, pending, [] => textVariant pending
  | skip + 1, pending, _ :: text => parseFrom emojiFirstByte skip pending text
  | 0, pending, character :: text =>
    if isLowSurrogate character then parseFrom emojiFirstByte 0 (pending ++ [character]) text
    else
      match findEmoji (emojiFirstByte character) text with
      | none => parseFrom emojiFirstByte 0 (pending ++ [character]) text
      | some (emote, length) =>
        textVariant pending ++ .emote emote ((character :: text).take length) ::
          parseFrom emojiFirstByte (length - 1) [] text

def parse (emojiFirstByte : QChar → List EmojiData) (text : QString) : List Variant :=
  parseFrom emojiFirstByte 0 [] text

theorem length_pos_of_findEmoji {possibleEmojis : List EmojiData} {remaining : QString}
    {emote : EmotePtr} {length : Nat} (h : findEmoji possibleEmojis remaining = some (emote, length)) :
    0 < length := by
  obtain ⟨emoji, -, hEmoji⟩ := List.exists_of_findSome?_eq_some h
  obtain ⟨length', hLength, hPair⟩ := Option.map_eq_some_iff.mp hEmoji
  have hEq : length' = length := congrArg Prod.snd hPair
  subst hEq
  unfold matchedLength at hLength
  split_ifs at hLength
  · cases hLength
    exact List.length_pos_of_ne_nil emoji.value_ne_nil
  · split at hLength
    · rename_i nonQualified hForm
      split_ifs at hLength
      cases hLength
      refine List.length_pos_of_ne_nil fun hNil => emoji.nonQualified_ne_nil ?_
      rw [hForm, hNil]
    · cases hLength

variable {emojiFirstByte : QChar → List EmojiData}

theorem string_textVariant (text : QString) : (textVariant text).flatMap Variant.string = text := by
  unfold textVariant
  split_ifs with hText
  · exact hText.symm
  · simp [Variant.string]

theorem ne_nil_of_mem_textVariant {text : QString} {variant : Variant}
    (h : variant ∈ textVariant text) : variant.string ≠ [] := by
  unfold textVariant at h
  split_ifs at h with hText
  · cases h
  · rw [List.mem_singleton.mp h]
    exact hText

theorem string_parseFrom (skip : Nat) (pending text : QString) :
    (parseFrom emojiFirstByte skip pending text).flatMap Variant.string = pending ++ text.drop skip := by
  fun_induction parseFrom emojiFirstByte skip pending text with
  | case1 => simp [string_textVariant]
  | case2 _ _ _ _ ih => simpa using ih
  | case3 _ _ _ _ ih => simpa using ih
  | case4 _ _ _ _ _ ih => simpa using ih
  | case5 pending character text _ emote length hFound ih =>
    obtain ⟨n, rfl⟩ := Nat.exists_eq_add_one.mpr (length_pos_of_findEmoji hFound)
    rw [Nat.add_sub_cancel, List.nil_append] at ih
    simp [ih, string_textVariant, Variant.string]

theorem string_parse (text : QString) : (parse emojiFirstByte text).flatMap Variant.string = text :=
  string_parseFrom 0 [] text

theorem ne_nil_of_mem_parseFrom {skip : Nat} {pending text : QString} {variant : Variant}
    (h : variant ∈ parseFrom emojiFirstByte skip pending text) : variant.string ≠ [] := by
  fun_induction parseFrom emojiFirstByte skip pending text with
  | case1 => exact ne_nil_of_mem_textVariant h
  | case2 _ _ _ _ ih => exact ih h
  | case3 _ _ _ _ ih => exact ih h
  | case4 _ _ _ _ _ ih => exact ih h
  | case5 pending character text _ emote length hFound ih =>
    rcases List.mem_append.mp h with h | h
    · exact ne_nil_of_mem_textVariant h
    · rcases List.mem_cons.mp h with rfl | h
      · obtain ⟨n, rfl⟩ := Nat.exists_eq_add_one.mpr (length_pos_of_findEmoji hFound)
        exact List.cons_ne_nil _ _
      · exact ih h

end Emojis

inductive MessageElementFlag where
  | Text
  | Mention
  | Emote
  | EmojiAll
  | other (bit : Nat)
  deriving DecidableEq

abbrev MessageElementFlags := List MessageElementFlag

inductive MessageColor where
  | Text
  | Link
  | System
  | custom (color : Nat)
  deriving DecidableEq

inductive MessageElement where
  | EmoteElement (emote : EmotePtr) (flags : MessageElementFlags) (trailingSpace : Bool)
      (standsFor : QString)
  | LayeredEmoteElement (emotes : List (EmotePtr × MessageElementFlags × QString))
      (flags : MessageElementFlags) (trailingSpace : Bool)
  | TextElement (words : List QString) (flags : MessageElementFlags) (color : MessageColor)
      (trailingSpace : Bool)
  | MentionElement (words : List QString) (userLoginName : QString) (fallbackColor userColor : MessageColor)
      (trailingSpace : Bool)
  | LinkElement (lowercase original fullUrl : QString) (trailingSpace : Bool)
  | other (flags : MessageElementFlags) (trailingSpace : Bool)

open MessageElement

def MessageElement.setTrailingSpace (value : Bool) : MessageElement → MessageElement
  | EmoteElement emote flags _ standsFor => .EmoteElement emote flags value standsFor
  | LayeredEmoteElement emotes flags _ => .LayeredEmoteElement emotes flags value
  | TextElement words flags color _ => .TextElement words flags color value
  | MentionElement words userLoginName fallbackColor userColor _ =>
    .MentionElement words userLoginName fallbackColor userColor value
  | LinkElement lowercase original fullUrl _ => .LinkElement lowercase original fullUrl value
  | other flags _ => .other flags value

def textElement (text : QString) (flags : MessageElementFlags) (color : MessageColor)
    (trailingSpace : Bool) : MessageElement := .TextElement (text.splitOn 0x20) flags color trailingSpace

/-- `this->message().elements.back()->setTrailingSpace(value)`. -/
def setBackTrailingSpace (value : Bool) (elements : List MessageElement) : List MessageElement :=
  match elements.getLast? with
  | none => elements
  | some back => elements.dropLast ++ [back.setTrailingSpace value]

structure Emote where
  ptr : EmotePtr
  zeroWidth : Bool

structure TwitchChannel where
  getUserColor : QString → Option MessageColor
  chatters : QString → Bool

structure TextState where
  hasBits : Bool := false
  bitsStacked : Bool := false
  bitsLeft : Int := 0
  deriving DecidableEq

structure Surroundings where
  emojiFirstByte : QChar → List EmojiData
  links : LinkParser.Tables
  toLower : QString → QString
  twitchChannel : Option TwitchChannel
  parseEmote : QString → Option Emote
  tryAppendCheermote : QString → TextState × List MessageElement →
    Option (TextState × List MessageElement)
  enableZeroWidthEmotes : Bool
  findAllUsernames : Bool
  textColor : MessageColor

variable (env : Surroundings)

def addEmoji (emote : EmotePtr) (matched : QString) (elements : List MessageElement) :
    List MessageElement := elements ++ [.EmoteElement emote [.EmojiAll] true matched]

def addLink {source : QString} (parsedLink : LinkParser.Parsed source) (elements : List MessageElement) :
    List MessageElement :=
  let origLink := parsedLink.link.toString
  let fullUrl := if parsedLink.protocol.isNone then lit "http://" ++ origLink else origLink
  let lowercase := (parsedLink.protocol.elim [] QStringView.toString) ++
    env.toLower parsedLink.host.toString ++ parsedLink.rest.toString
  elements ++
    (if parsedLink.hasPrefix then [textElement parsedLink.before [.Text] env.textColor false] else []) ++
    [.LinkElement lowercase origLink fullUrl (!parsedLink.hasSuffix)] ++
    (if parsedLink.hasSuffix then [textElement parsedLink.suffix [.Text] env.textColor true] else [])

def appendOrEmplaceText (text : QString) (color : MessageColor) (elements : List MessageElement) :
    List MessageElement :=
  match elements.getLast? with
  | some (.TextElement words flags backColor trailingSpace) =>
    if trailingSpace ∧ flags = [.Text] ∧ backColor = color then
      elements.dropLast ++ [.TextElement (words ++ text.splitOn 0x20) flags backColor trailingSpace]
    else elements ++ [textElement text [.Text] color true]
  | _ => elements ++ [textElement text [.Text] color true]

/-- An emote of another provider, on top of the emote before it if it has no width. -/
def tryAppendEmote (name : QString) (elements : List MessageElement) : Option (List MessageElement) :=
  (env.parseEmote name).map fun emote =>
    let plain := elements ++ [.EmoteElement emote.ptr [.Emote] true name]
    if emote.zeroWidth ∧ env.enableZeroWidthEmotes then
      match elements.getLast? with
      | some (.EmoteElement baseEmote flags _ standsFor) =>
        elements.dropLast ++ [.LayeredEmoteElement
          [(baseEmote, flags, standsFor), (emote.ptr, [.Emote], name)] (flags.insert .Emote) true]
      | some (.LayeredEmoteElement emotes flags trailingSpace) =>
        elements.dropLast ++ [.LayeredEmoteElement (emotes ++ [(emote.ptr, [.Emote], name)])
          (flags.insert .Emote) trailingSpace]
      | _ => plain
    else plain

/-- What `\w` matches without the option for Unicode properties. -/
def isWordChar (c : QChar) : Bool :=
  (0x30 ≤ c && c ≤ 0x39) || (0x41 ≤ c && c ≤ 0x5A) || (0x61 ≤ c && c ≤ 0x7A) || c == 0x5F

def isPunctuation (c : QChar) : Bool := c ∈ lit ".,!?;:"

/-- The capture of `^(\w+)[.,!?;:]*?$`. The two classes share no character, so the name is the
longest one, and the end may be before a last line feed. -/
def capturedName (string : QString) : Option QString :=
  let username := string.takeWhile isWordChar
  let rest := (string.dropWhile isWordChar).dropWhile isPunctuation
  if username ≠ [] ∧ (rest = [] ∨ rest = [0x0A]) then some username else none

def removeFrom (pattern : QString) : Nat → QString → QString
  | _, [] => []
  | skip + 1, _ :: string => removeFrom pattern skip string
  | 0, c :: string =>
    if pattern <+: c :: string then removeFrom pattern (pattern.length - 1) string
    else c :: removeFrom pattern 0 string

/-- `QString::remove`. -/
def remove (pattern string : QString) : QString :=
  if pattern = [] then string else removeFrom pattern 0 string

def addMention (prefixedUsername username string : QString) (elements : List MessageElement) :
    List MessageElement :=
  let userColor := (env.twitchChannel.bind fun channel => channel.getUserColor username).getD env.textColor
  let remainder := remove prefixedUsername string
  elements ++ [.MentionElement (prefixedUsername.splitOn 0x20) username env.textColor userColor
      remainder.isEmpty] ++
    if remainder = [] then [] else [textElement remainder [.Text] env.textColor true]

def addTextOrEmote (string : QString) (s : TextState × List MessageElement) :
    TextState × List MessageElement :=
  match if s.1.hasBits then env.tryAppendCheermote string s else none with
  | some s => s
  | none =>
    match tryAppendEmote env string s.2 with
    | some elements => (s.1, elements)
    | none =>
      match LinkParser.parse env.links string with
      | some link => (s.1, addLink env link s.2)
      | none =>
        match if string.head? = some 0x40 then capturedName (string.drop 1) else none with
        | some username => (s.1, addMention env (0x40 :: username) username string s.2)
        | none =>
          match if env.findAllUsernames then
              env.twitchChannel.bind fun channel => (capturedName string).filter channel.chatters
            else none with
          | some username => (s.1, addMention env username username string s.2)
          | none => (s.1, appendOrEmplaceText string env.textColor s.2)

def addVariant (s : TextState × List MessageElement) : Emojis.Variant → TextState × List MessageElement
  | .emote emote matched => (s.1, addEmoji emote matched s.2)
  | .text string => addTextOrEmote env string s

def addText (text : QString) (s : TextState × List MessageElement) : TextState × List MessageElement :=
  (Emojis.parse env.emojiFirstByte text).foldl (addVariant env) s

inductive Piece where
  | emote (emote : EmotePtr) (name : QString)
  | emoji (emote : EmotePtr) (matched : QString)
  | text (string : QString)
  deriving DecidableEq

namespace Piece

def string : Piece → QString
  | emote _ name => name
  | emoji _ matched => matched
  | text string => string

def isEmote : Piece → Bool
  | emote .. => true
  | _ => false

end Piece

def emotePiece (emote : EmotePtr) (flags : MessageElementFlags) (standsFor : QString) : Piece :=
  if .EmojiAll ∈ flags then .emoji emote standsFor else .emote emote standsFor

def MessageElement.read : MessageElement → List Piece
  | EmoteElement emote flags _ standsFor => [emotePiece emote flags standsFor]
  | LayeredEmoteElement emotes _ _ => emotes.map fun layer => emotePiece layer.1 layer.2.1 layer.2.2
  | TextElement words _ _ _ => words.map .text
  | MentionElement words _ _ _ _ => words.map .text
  | LinkElement _ original _ _ => [.text original]
  | other _ _ => []

@[simp] theorem read_emote (emote : EmotePtr) (flags : MessageElementFlags) (trailingSpace : Bool)
    (standsFor : QString) : (EmoteElement emote flags trailingSpace standsFor).read =
      [emotePiece emote flags standsFor] := rfl

@[simp] theorem read_text (words : List QString) (flags : MessageElementFlags) (color : MessageColor)
    (trailingSpace : Bool) : (TextElement words flags color trailingSpace).read = words.map .text := rfl

@[simp] theorem read_mention (words : List QString) (userLoginName : QString)
    (fallbackColor userColor : MessageColor) (trailingSpace : Bool) :
    (MentionElement words userLoginName fallbackColor userColor trailingSpace).read =
      words.map .text := rfl

@[simp] theorem read_link (lowercase original fullUrl : QString) (trailingSpace : Bool) :
    (LinkElement lowercase original fullUrl trailingSpace).read = [.text original] := rfl

def readElements (elements : List MessageElement) : List Piece := elements.flatMap MessageElement.read

@[simp] theorem readElements_append (elements elements' : List MessageElement) :
    readElements (elements ++ elements') = readElements elements ++ readElements elements' :=
  List.flatMap_append

@[simp] theorem readElements_cons (element : MessageElement) (elements : List MessageElement) :
    readElements (element :: elements) = element.read ++ readElements elements := List.flatMap_cons ..

@[simp] theorem readElements_nil : readElements [] = [] := rfl

@[simp] theorem read_setTrailingSpace (value : Bool) (element : MessageElement) :
    (element.setTrailingSpace value).read = element.read := by
  cases element <;> rfl

@[simp] theorem readElements_setBackTrailingSpace (value : Bool) (elements : List MessageElement) :
    readElements (setBackTrailingSpace value elements) = readElements elements := by
  unfold setBackTrailingSpace
  cases hBack : elements.getLast? with
  | none => rfl
  | some back =>
    obtain ⟨front, rfl⟩ := List.getLast?_eq_some_iff.mp hBack
    simp

structure Covers (text : QString) (pieces : List Piece) : Prop where
  string : pieces.flatMap Piece.string = text
  ne_nil : ∀ piece ∈ pieces, piece.string ≠ []
  not_isEmote : ∀ piece ∈ pieces, piece.isEmote = false

namespace Covers

theorem nil : Covers [] [] := ⟨rfl, by simp, by simp⟩

theorem append {text text' : QString} {pieces pieces' : List Piece} (h : Covers text pieces)
    (h' : Covers text' pieces') : Covers (text ++ text') (pieces ++ pieces') where
  string := by rw [List.flatMap_append, h.string, h'.string]
  ne_nil piece hMem := (List.mem_append.mp hMem).elim (h.ne_nil piece) (h'.ne_nil piece)
  not_isEmote piece hMem := (List.mem_append.mp hMem).elim (h.not_isEmote piece) (h'.not_isEmote piece)

theorem text {string : QString} (h : string ≠ []) : Covers string [.text string] :=
  ⟨List.append_nil _, by simpa [Piece.string] using h, by simp [Piece.isEmote]⟩

theorem emoji {emote : EmotePtr} {string : QString} (h : string ≠ []) :
    Covers string [.emoji emote string] :=
  ⟨List.append_nil _, by simpa [Piece.string] using h, by simp [Piece.isEmote]⟩

theorem ite {string : QString} {p : Prop} [Decidable p] (h : p ↔ string ≠ []) :
    Covers string (if p then [.text string] else []) := by
  split_ifs with hp
  · exact text (h.mp hp)
  · rw [not_not.mp (mt h.mpr hp)]
    exact nil

end Covers

def Appends (text : QString) (elements elements' : List MessageElement) : Prop :=
  ∃ pieces, readElements elements' = readElements elements ++ pieces ∧ Covers text pieces

theorem read_textElement {text : QString} (hSpace : 0x20 ∉ text) (flags : MessageElementFlags)
    (color : MessageColor) (trailingSpace : Bool) :
    (textElement text flags color trailingSpace).read = [.text text] := by
  simp [textElement, List.splitOn_eq_singleton hSpace]

variable {env}

theorem appends_addEmoji {emote : EmotePtr} {matched : QString} (h : matched ≠ [])
    (elements : List MessageElement) : Appends matched elements (addEmoji emote matched elements) :=
  ⟨[.emoji emote matched], by simp [addEmoji, emotePiece], Covers.emoji h⟩

theorem appends_appendOrEmplaceText {text : QString} (hText : text ≠ []) (hSpace : 0x20 ∉ text)
    (color : MessageColor) (elements : List MessageElement) :
    Appends text elements (appendOrEmplaceText text color elements) := by
  refine ⟨[.text text], ?_, Covers.text hText⟩
  unfold appendOrEmplaceText
  split
  · rename_i words flags backColor trailingSpace hBack
    split_ifs
    · obtain ⟨front, rfl⟩ := List.getLast?_eq_some_iff.mp hBack
      simp [List.splitOn_eq_singleton hSpace]
    · simp [read_textElement hSpace]
  · simp [read_textElement hSpace]

theorem not_mem_of_append {text text' string : QString} (h : text ++ text' = string)
    (hSpace : 0x20 ∉ string) : 0x20 ∉ text ∧ 0x20 ∉ text' := by
  subst h
  simpa using hSpace

theorem appends_addLink {source : QString} {parsedLink : LinkParser.Parsed source}
    (hLink : parsedLink.link.toString ≠ []) (hSpace : 0x20 ∉ source)
    (elements : List MessageElement) : Appends source elements (addLink env parsedLink elements) := by
  have hSource := parsedLink.before_append_link_append_suffix
  have hParts := not_mem_of_append hSource hSpace
  have hBefore := (not_mem_of_append rfl hParts.1).1
  refine ⟨(if parsedLink.hasPrefix then [.text parsedLink.before] else []) ++
    [.text parsedLink.link.toString] ++ (if parsedLink.hasSuffix then [.text parsedLink.suffix] else []),
    ?_, ?_⟩
  · unfold addLink
    cases parsedLink.hasPrefix <;> cases parsedLink.hasSuffix <;>
      simp [read_textElement hBefore, read_textElement hParts.2]
  · have hCovers := ((Covers.ite parsedLink.hasPrefix_iff).append (Covers.text hLink)).append
      (Covers.ite parsedLink.hasSuffix_iff)
    rwa [hSource] at hCovers

theorem capturedName_eq_some {string username : QString} (h : capturedName string = some username) :
    username ≠ [] ∧ (∀ c ∈ username, isWordChar c) ∧
      ∃ rest, string = username ++ rest ∧ ∀ c ∈ rest, isWordChar c = false ∧ c ≠ 0x40 := by
  unfold capturedName at h
  dsimp only at h
  split_ifs at h with hMatch
  cases h
  refine ⟨hMatch.1, fun c hc => List.mem_takeWhile_imp hc, string.dropWhile isWordChar,
    (List.takeWhile_append_dropWhile).symm, ?_⟩
  set rest := string.dropWhile isWordChar with hRest
  intro c hc
  have hPunctuation (d : QChar) (h : isPunctuation d = true) : isWordChar d = false ∧ d ≠ 0x40 := by
    have hd : d ∈ lit ".,!?;:" := of_decide_eq_true h
    have hAll : ∀ d ∈ lit ".,!?;:", isWordChar d = false ∧ d ≠ 0x40 := by decide
    exact hAll d hd
  rw [← List.takeWhile_append_dropWhile (p := isPunctuation) (l := rest)] at hc
  rcases List.mem_append.mp hc with hc | hc
  · exact hPunctuation c (List.mem_takeWhile_imp hc)
  · rcases hMatch.2 with hEnd | hEnd
    · rw [hEnd] at hc
      cases hc
    · rw [hEnd, List.mem_singleton] at hc
      subst hc
      decide

theorem removeFrom_length_append (pattern front rest : QString) :
    removeFrom pattern front.length (front ++ rest) = removeFrom pattern 0 rest := by
  induction front with
  | nil => rfl
  | cons c front ih => exact ih

theorem removeFrom_of_not_mem {c : QChar} {pattern rest : QString} (h : c ∉ rest) :
    removeFrom (c :: pattern) 0 rest = rest := by
  induction rest with
  | nil => rfl
  | cons d rest ih =>
    rw [List.mem_cons, not_or] at h
    rw [removeFrom, if_neg, ih h.2]
    intro hPrefix
    exact h.1 (List.cons_prefix_cons.mp hPrefix).1

theorem remove_append {c : QChar} {pattern rest : QString} (h : c ∉ rest) :
    remove (c :: pattern) (c :: pattern ++ rest) = rest := by
  have hPrefix : c :: pattern <+: c :: (pattern ++ rest) := List.prefix_append (c :: pattern) rest
  rw [remove, if_neg (List.cons_ne_nil _ _), List.cons_append, removeFrom, if_pos hPrefix,
    List.length_cons, Nat.add_sub_cancel, removeFrom_length_append, removeFrom_of_not_mem h]

theorem appends_addMention {name username rest : QString} {c : QChar} (hSpace : 0x20 ∉ c :: name ++ rest)
    (hRest : c ∉ rest) (elements : List MessageElement) :
    Appends (c :: name ++ rest) elements
      (addMention env (c :: name) username (c :: name ++ rest) elements) := by
  have hParts := not_mem_of_append rfl hSpace
  refine ⟨[.text (c :: name)] ++ if rest ≠ [] then [.text rest] else [], ?_,
    (Covers.text (List.cons_ne_nil _ _)).append (Covers.ite Iff.rfl)⟩
  unfold addMention
  rw [remove_append hRest]
  by_cases hNil : rest = []
  · simp [hNil, List.splitOn_eq_singleton hParts.1]
  · simp [hNil, List.splitOn_eq_singleton hParts.1, read_textElement hParts.2]

structure Plain (env : Surroundings) (state : TextState) : Prop where
  hasBits : state.hasBits = false
  parseEmote : ∀ name, env.parseEmote name = none

theorem addTextOrEmote_spec {state : TextState} (hPlain : Plain env state) {string : QString}
    (hString : string ≠ []) (hSpace : 0x20 ∉ string) (elements : List MessageElement) :
    (addTextOrEmote env string (state, elements)).1 = state ∧
      Appends string elements (addTextOrEmote env string (state, elements)).2 := by
  have hEmote : tryAppendEmote env string elements = none := by
    rw [tryAppendEmote, hPlain.parseEmote, Option.map_none]
  unfold addTextOrEmote
  simp only [hPlain.hasBits, Bool.false_eq_true, if_false, hEmote]
  cases hLink : LinkParser.parse env.links string with
  | some link => exact ⟨rfl, appends_addLink (LinkParser.link_ne_nil_of_parse hLink) hSpace elements⟩
  | none =>
    dsimp only
    split
    · rename_i username hMention
      refine ⟨rfl, ?_⟩
      split_ifs at hMention with hAt
      obtain ⟨-, -, rest, hRest, hChars⟩ := capturedName_eq_some hMention
      obtain ⟨string', rfl⟩ : ∃ string', string = 0x40 :: string' := by
        cases string with
        | nil => cases hAt
        | cons c string' =>
          cases hAt
          exact ⟨string', rfl⟩
      rw [List.drop_one, List.tail_cons] at hRest
      subst hRest
      exact appends_addMention hSpace (fun hMem => (hChars _ hMem).2 rfl) elements
    · split
      · rename_i username hName
        refine ⟨rfl, ?_⟩
        split_ifs at hName
        obtain ⟨channel, -, hFiltered⟩ := Option.bind_eq_some_iff.mp hName
        obtain ⟨hCaptured, -⟩ := Option.filter_eq_some_iff.mp hFiltered
        obtain ⟨hNil, hWord, rest, rfl, hChars⟩ := capturedName_eq_some hCaptured
        cases username with
        | nil => exact absurd rfl hNil
        | cons c name =>
          refine appends_addMention hSpace (fun hMem => ?_) elements
          have hFalse := (hChars _ hMem).1
          rw [hWord c List.mem_cons_self] at hFalse
          cases hFalse
      · exact ⟨rfl, appends_appendOrEmplaceText hString hSpace env.textColor elements⟩

theorem Appends.trans {text text' : QString} {elements elements' elements'' : List MessageElement}
    (h : Appends text elements elements') (h' : Appends text' elements' elements'') :
    Appends (text ++ text') elements elements'' := by
  obtain ⟨pieces, hRead, hCovers⟩ := h
  obtain ⟨pieces', hRead', hCovers'⟩ := h'
  exact ⟨pieces ++ pieces', by rw [hRead', hRead, List.append_assoc], hCovers.append hCovers'⟩

theorem addVariant_spec {state : TextState} (hPlain : Plain env state) {variant : Emojis.Variant}
    (hNil : variant.string ≠ []) (hSpace : 0x20 ∉ variant.string) (elements : List MessageElement) :
    (addVariant env (state, elements) variant).1 = state ∧
      Appends variant.string elements (addVariant env (state, elements) variant).2 := by
  cases variant with
  | emote emote matched => exact ⟨rfl, appends_addEmoji hNil elements⟩
  | text string => exact addTextOrEmote_spec hPlain hNil hSpace elements

theorem foldl_addVariant_spec {state : TextState} (hPlain : Plain env state)
    {variants : List Emojis.Variant} (hNil : ∀ variant ∈ variants, variant.string ≠ [])
    (hSpace : ∀ variant ∈ variants, 0x20 ∉ variant.string) (elements : List MessageElement) :
    (variants.foldl (addVariant env) (state, elements)).1 = state ∧
      Appends (variants.flatMap Emojis.Variant.string) elements
        (variants.foldl (addVariant env) (state, elements)).2 := by
  induction variants generalizing elements with
  | nil => exact ⟨rfl, [], (List.append_nil _).symm, Covers.nil⟩
  | cons variant variants ih =>
    rw [List.forall_mem_cons] at hNil hSpace
    have hHead := addVariant_spec hPlain hNil.1 hSpace.1 elements
    have hRest := ih hNil.2 hSpace.2 (addVariant env (state, elements) variant).2
    have hState : (state, (addVariant env (state, elements) variant).2) =
        addVariant env (state, elements) variant := Prod.ext hHead.1.symm rfl
    rw [hState] at hRest
    exact ⟨hRest.1, hHead.2.trans hRest.2⟩

theorem addText_spec {state : TextState} (hPlain : Plain env state) {text : QString}
    (hSpace : 0x20 ∉ text) (elements : List MessageElement) :
    (addText env text (state, elements)).1 = state ∧
      Appends text elements (addText env text (state, elements)).2 := by
  unfold addText
  generalize hParse : Emojis.parse env.emojiFirstByte text = variants
  have hString : variants.flatMap Emojis.Variant.string = text := hParse ▸ Emojis.string_parse text
  have hNil (v : Emojis.Variant) (hv : v ∈ variants) : v.string ≠ [] :=
    Emojis.ne_nil_of_mem_parseFrom (hParse.symm ▸ hv)
  have h := foldl_addVariant_spec hPlain hNil
    (fun v hv hMem => hSpace (hString ▸ List.mem_flatMap.mpr ⟨v, hv, hMem⟩)) elements
  rw [hString] at h
  exact h

end Chatterino.Messages
