import Chatterino.Messages.ShownWords

/-! # Emotes that are added to a message

When a user gets personal emotes, the words of the last message that are names of them become emotes. The map
finds an emote under its own name.
-/

namespace Chatterino.Messages.UpsertedEmotes

open QString
open Ignores (EmotePtr)

abbrev EmoteMap := QString → Option Emote

structure UpsertState where
  words : List QString
  anyChange : Bool
  elements : List MessageElement

def flush (flags : MessageElementFlags) (color : MessageColor) (s : UpsertState) : UpsertState :=
  { s with elements := s.elements ++ [.TextElement s.words flags color true], words := [] }

/-- Lays the emote onto the last element, if no words are pending and this is an emote. -/
def tryInsertZeroWidth (emote : Emote) (name : QString) (s : UpsertState) : Option UpsertState :=
  if s.words ≠ [] then none
  else
    match s.elements.getLast? with
    | some (.EmoteElement baseEmote flags _ standsFor) =>
      some { s with elements := s.elements.dropLast ++ [.LayeredEmoteElement
        [(baseEmote, flags, standsFor), (emote.ptr, [.Emote], name)] (flags.insert .Emote) true] }
    | some (.LayeredEmoteElement emotes flags trailingSpace) =>
      some { s with elements := s.elements.dropLast ++ [.LayeredEmoteElement (emotes ++ [(emote.ptr, [.Emote], name)])
        (flags.insert .Emote) trailingSpace] }
    | _ => none

section

variable (emoteMap : EmoteMap)

def upsertWord (flags : MessageElementFlags) (color : MessageColor) (s : UpsertState) (word : QString) : UpsertState :=
  match emoteMap word with
  | none => { s with words := s.words ++ [word] }
  | some emote =>
    let s := { s with anyChange := true }
    match if emote.zeroWidth then tryInsertZeroWidth emote word s else none with
    | some s => s
    | none =>
      let s := flush flags color s
      { s with elements := s.elements ++ [.EmoteElement emote.ptr [.Emote] true word] }

def upsertWords (words : List QString) (flags : MessageElementFlags) (color : MessageColor) (trailingSpace : Bool)
    (elements : List MessageElement) : List MessageElement :=
  let s := words.foldl (upsertWord emoteMap flags color) ⟨[], false, elements⟩
  if s.anyChange then (flush flags color s).elements
  else s.elements ++ [.TextElement words flags color trailingSpace]

def upsertElement (elements : List MessageElement) : MessageElement → List MessageElement
  | .TextElement words flags color trailingSpace =>
    if .Text ∈ flags then upsertWords emoteMap words flags color trailingSpace elements
    else elements ++ [.TextElement words flags color trailingSpace]
  | element => elements ++ [element]

def upsertElements (elements : List MessageElement) : List MessageElement := elements.foldl (upsertElement emoteMap) []

end

structure ShownMessage where
  loginName : QString
  elements : List MessageElement

def findMessage (userLogin : QString) (messages : List ShownMessage) : Option Nat :=
  (List.range' (messages.length - 5) (min 5 messages.length)).reverse.find? fun i =>
    messages[i]?.any fun message => message.loginName = userLogin

def upsertPersonalSeventvEmotes (emoteMap : EmoteMap) (userLogin : QString) (messages : List ShownMessage) :
    List ShownMessage :=
  match findMessage userLogin messages with
  | none => messages
  | some i => messages.modify i fun message => { message with elements := upsertElements emoteMap message.elements }

/-- What is read of a message: words of plain texts, names of emotes, and elements that stay as they are. -/
inductive Token where
  | word (string : QString) (flags : MessageElementFlags) (color : MessageColor)
  | emote (ptr : EmotePtr) (name : QString)
  | kept (element : MessageElement)

def tokens : MessageElement → List Token
  | .TextElement words flags color trailingSpace =>
    if .Text ∈ flags then words.map fun word => .word word flags color
    else [.kept (.TextElement words flags color trailingSpace)]
  | .EmoteElement ptr _ _ name => [.emote ptr name]
  | .LayeredEmoteElement emotes _ _ => emotes.map fun layer => .emote layer.1 layer.2.2
  | element => [.kept element]

def readTokens (elements : List MessageElement) : List Token := elements.flatMap tokens

def asEmote (emoteMap : EmoteMap) : Token → Token
  | .word string flags color => (emoteMap string).elim (.word string flags color) fun emote => .emote emote.ptr string
  | token => token

def layers : MessageElement → Option (List (EmotePtr × MessageElementFlags × QString) × MessageElementFlags)
  | .EmoteElement ptr flags _ name => some ([(ptr, flags, name)], flags)
  | .LayeredEmoteElement emotes flags _ => some (emotes, flags)
  | _ => none

def readLayers (elements : List MessageElement) :
    List (List (EmotePtr × MessageElementFlags × QString) × MessageElementFlags) := elements.filterMap layers

section

variable (env : Surroundings) (emoteMap : EmoteMap)

def knowing : Surroundings := { env with parseEmote := emoteMap, enableZeroWidthEmotes := true }

def builtWord (color : MessageColor) (elements : List MessageElement) (word : QString) : List MessageElement :=
  (tryAppendEmote (knowing env emoteMap) word elements).getD (appendOrEmplaceText word color elements)

def builtElement (elements : List MessageElement) : MessageElement → List MessageElement
  | .TextElement words flags color trailingSpace =>
    if .Text ∈ flags then words.foldl (builtWord env emoteMap color) elements
    else elements ++ [.TextElement words flags color trailingSpace]
  | element => elements ++ [element]

def builtElements (elements : List MessageElement) : List MessageElement :=
  elements.foldl (builtElement env emoteMap) []

def NoEmptyText (elements : List MessageElement) : Prop :=
  ∀ words flags color trailingSpace, .TextElement words flags color trailingSpace ∈ elements → words ≠ []

/-- The message reads as before with its new emotes, which are layered as by the builder. It has no empty text, and
the same emotes change nothing more. -/
structure Surgical (elements : List MessageElement) : Prop where
  reads : readTokens (upsertElements emoteMap elements) = (readTokens elements).map (asEmote emoteMap)
  layered : readLayers (upsertElements emoteMap elements) = readLayers (builtElements env emoteMap elements)
  noEmptyText : NoEmptyText (upsertElements emoteMap elements)
  again : upsertElements emoteMap (upsertElements emoteMap elements) = upsertElements emoteMap elements

structure UpsertsSurgically (userLogin : QString) (messages : List ShownMessage) : Prop where
  others (j : Nat) : findMessage userLogin messages ≠ some j →
    (upsertPersonalSeventvEmotes emoteMap userLogin messages)[j]? = messages[j]?
  rebuilt (i : Nat) (message : ShownMessage) : findMessage userLogin messages = some i → messages[i]? = some message →
    (upsertPersonalSeventvEmotes emoteMap userLogin messages)[i]? =
      some { message with elements := upsertElements emoteMap message.elements } ∧ Surgical env emoteMap message.elements
  again : upsertPersonalSeventvEmotes emoteMap userLogin (upsertPersonalSeventvEmotes emoteMap userLogin messages) =
    upsertPersonalSeventvEmotes emoteMap userLogin messages

end

def Parted (emoteMap : EmoteMap) : (afterWord onEmote : Bool) → List QString → Prop
  | afterWord, _, [] => afterWord = true
  | afterWord, onEmote, word :: words =>
    match emoteMap word with
    | none => Parted emoteMap true false words
    | some emote => (afterWord = true ∨ emote.zeroWidth = true ∧ onEmote = true) ∧ Parted emoteMap false true words

def isEmote (element : MessageElement) : Bool := (layers element).isSome

def AllParted (emoteMap : EmoteMap) : (onEmote : Bool) → List MessageElement → Prop
  | _, [] => True
  | onEmote, .TextElement words flags _ _ :: elements =>
    words ≠ [] ∧ (.Text ∈ flags → (∃ word ∈ words, (emoteMap word).isSome = true) → Parted emoteMap false onEmote words) ∧
      AllParted emoteMap false elements
  | _, element :: elements => AllParted emoteMap (isEmote element) elements

variable {env : Surroundings} {emoteMap : EmoteMap}

theorem readTokens_append (elements elements' : List MessageElement) :
    readTokens (elements ++ elements') = readTokens elements ++ readTokens elements' := List.flatMap_append

theorem readTokens_singleton (element : MessageElement) : readTokens [element] = tokens element := List.append_nil _

theorem readLayers_append (elements elements' : List MessageElement) :
    readLayers (elements ++ elements') = readLayers elements ++ readLayers elements' := List.filterMap_append

def endsInEmote (elements : List MessageElement) : Bool := elements.getLast?.any isEmote

theorem endsInEmote_append (elements : List MessageElement) (element : MessageElement) :
    endsInEmote (elements ++ [element]) = isEmote element := by
  rw [endsInEmote, List.getLast?_append_cons]
  rfl

/-- A layer on the last element, if it is an emote. -/
def layOnto (emote : Emote) (name : QString) (elements : List MessageElement) : Option (List MessageElement) :=
  match elements.getLast? with
  | some (.EmoteElement baseEmote flags _ standsFor) =>
    some (elements.dropLast ++ [.LayeredEmoteElement [(baseEmote, flags, standsFor), (emote.ptr, [.Emote], name)]
      (flags.insert .Emote) true])
  | some (.LayeredEmoteElement emotes flags trailingSpace) =>
    some (elements.dropLast ++ [.LayeredEmoteElement (emotes ++ [(emote.ptr, [.Emote], name)]) (flags.insert .Emote)
      trailingSpace])
  | _ => none

theorem layOnto_cases (emote : Emote) (name : QString) (elements : List MessageElement) :
    (endsInEmote elements = false ∧ layOnto emote name elements = none) ∨
      ∃ front base emotes flags element, elements = front ++ [base] ∧ layers base = some (emotes, flags) ∧
        endsInEmote elements = true ∧ layers element = some (emotes ++ [(emote.ptr, [.Emote], name)], flags.insert .Emote) ∧
        tokens element = tokens base ++ [.emote emote.ptr name] ∧
        (∀ words flags color trailingSpace, element ≠ .TextElement words flags color trailingSpace) ∧
        layOnto emote name elements = some (front ++ [element]) := by
  cases hBack : elements.getLast? with
  | none =>
    refine .inl ⟨?_, ?_⟩
    · rw [endsInEmote, hBack]
      rfl
    · rw [layOnto, hBack]
  | some base =>
    obtain ⟨front, rfl⟩ := List.getLast?_eq_some_iff.mp hBack
    rw [endsInEmote_append]
    cases base with
    | EmoteElement ptr flags trailingSpace standsFor =>
      refine .inr ⟨front, _, _, _, .LayeredEmoteElement [(ptr, flags, standsFor), (emote.ptr, [.Emote], name)]
        (flags.insert .Emote) true, rfl, rfl, rfl, rfl, rfl, ?_, ?_⟩
      · rintro _ _ _ _ ⟨⟩
      · rw [layOnto, hBack]
        dsimp only
        rw [List.dropLast_concat]
    | LayeredEmoteElement emotes flags trailingSpace =>
      refine .inr ⟨front, _, _, _, .LayeredEmoteElement (emotes ++ [(emote.ptr, [.Emote], name)]) (flags.insert .Emote)
        trailingSpace, rfl, rfl, rfl, rfl, List.map_append, ?_, ?_⟩
      · rintro _ _ _ _ ⟨⟩
      · rw [layOnto, hBack]
        dsimp only
        rw [List.dropLast_concat]
    | _ => exact .inl ⟨rfl, by rw [layOnto, hBack]⟩

theorem tryInsertZeroWidth_eq (emote : Emote) (name : QString) (s : UpsertState) :
    tryInsertZeroWidth emote name s =
      if s.words = [] then (layOnto emote name s.elements).map fun elements => { s with elements := elements } else none := by
  rw [tryInsertZeroWidth, layOnto]
  by_cases hWords : s.words = []
  · rw [if_neg (not_not.mpr hWords), if_pos hWords]
    split <;> rfl
  · rw [if_pos hWords, if_neg hWords]

theorem tryAppendEmote_eq (name : QString) (elements : List MessageElement) :
    tryAppendEmote (knowing env emoteMap) name elements = (emoteMap name).map fun emote =>
      ((if emote.zeroWidth then layOnto emote name elements else none).getD
        (elements ++ [.EmoteElement emote.ptr [.Emote] true name])) := by
  rw [tryAppendEmote]
  apply congrArg fun f => Option.map f (emoteMap name)
  funext emote
  have hKnowing : (knowing env emoteMap).enableZeroWidthEmotes = true := rfl
  rw [hKnowing, layOnto]
  cases emote.zeroWidth with
  | false => rfl
  | true =>
    rw [if_pos ⟨rfl, rfl⟩, if_pos rfl]
    cases elements.getLast? with
    | none => rfl
    | some base => cases base <;> rfl

theorem appendOrEmplaceText_spec (text : QString) (color : MessageColor) (elements : List MessageElement) :
    readLayers (appendOrEmplaceText text color elements) = readLayers elements ∧
      endsInEmote (appendOrEmplaceText text color elements) = false := by
  have hPlain : readLayers (elements ++ [textElement text [.Text] color true]) = readLayers elements ∧
      endsInEmote (elements ++ [textElement text [.Text] color true]) = false := by
    rw [readLayers_append, endsInEmote_append]
    exact ⟨List.append_nil _, rfl⟩
  rw [appendOrEmplaceText]
  split
  · rename_i words flags backColor trailingSpace hBack
    obtain ⟨front, rfl⟩ := List.getLast?_eq_some_iff.mp hBack
    split_ifs
    · rw [List.dropLast_concat, readLayers_append, readLayers_append, endsInEmote_append]
      exact ⟨rfl, rfl⟩
    · exact hPlain
  · exact hPlain

theorem upsertWord_cases (flags : MessageElementFlags) (color : MessageColor) (s : UpsertState) (word : QString) :
    (emoteMap word = none ∧ upsertWord emoteMap flags color s word = { s with words := s.words ++ [word] }) ∨
      ∃ emote, emoteMap word = some emote ∧
        ((s.words = [] ∧ emote.zeroWidth = true ∧ endsInEmote s.elements = true ∧ ∃ elements,
            layOnto emote word s.elements = some elements ∧ upsertWord emoteMap flags color s word = ⟨[], true, elements⟩) ∨
          (¬(s.words = [] ∧ emote.zeroWidth = true ∧ endsInEmote s.elements = true) ∧
            upsertWord emoteMap flags color s word = ⟨[], true, s.elements ++ [.TextElement s.words flags color true] ++
              [.EmoteElement emote.ptr [.Emote] true word]⟩)) := by
  rw [upsertWord]
  cases hWord : emoteMap word with
  | none => exact .inl ⟨rfl, rfl⟩
  | some emote =>
    refine .inr ⟨emote, rfl, ?_⟩
    dsimp only
    rw [tryInsertZeroWidth_eq]
    dsimp only
    cases hWidth : emote.zeroWidth with
    | false => exact .inr ⟨fun h => Bool.false_ne_true h.2.1, rfl⟩
    | true =>
      rw [if_pos rfl]
      by_cases hWords : s.words = []
      · rw [if_pos hWords]
        rcases layOnto_cases emote word s.elements with ⟨hEnds, hNone⟩ | ⟨front, base, emotes, fl, element, -, -, hEnds, -, -, -, hSome⟩
        · rw [hNone, hEnds]
          exact .inr ⟨fun h => Bool.false_ne_true h.2.2, rfl⟩
        · rw [hSome]
          refine .inl ⟨hWords, rfl, hEnds, _, rfl, ?_⟩
          rw [← hWords]
          rfl
      · rw [if_neg hWords]
        exact .inr ⟨fun h => hWords h.1, rfl⟩

theorem tokens_plain {flags : MessageElementFlags} (h : .Text ∈ flags) (words : List QString) (color : MessageColor)
    (trailingSpace : Bool) : tokens (.TextElement words flags color trailingSpace) =
      words.map fun word => .word word flags color := if_pos h

def readState (flags : MessageElementFlags) (color : MessageColor) (s : UpsertState) : List Token :=
  readTokens s.elements ++ s.words.map fun word => .word word flags color

theorem readState_upsertWord {flags : MessageElementFlags} (h : .Text ∈ flags) (color : MessageColor) (s : UpsertState)
    (word : QString) : readState flags color (upsertWord emoteMap flags color s word) =
      readState flags color s ++ [asEmote emoteMap (.word word flags color)] := by
  rcases upsertWord_cases flags color s word with ⟨hWord, hStep⟩ | ⟨emote, hWord, hStep⟩
  · rw [hStep, readState, readState, asEmote, hWord, List.map_append, List.append_assoc]
    rfl
  · rw [asEmote, hWord]
    rcases hStep with ⟨hWords, -, -, elements, hLaid, hStep⟩ | ⟨-, hStep⟩
    · rcases layOnto_cases emote word s.elements with ⟨-, hNone⟩ | ⟨front, base, emotes, fl, element, hFront, -, -, -, hTokens, -, hSome⟩
      · rw [hNone] at hLaid
        cases hLaid
      · rw [hSome] at hLaid
        cases hLaid
        rw [hStep, readState, readState, hWords, hFront, readTokens_append, readTokens_append, readTokens_singleton,
          readTokens_singleton, hTokens, List.map_nil, List.append_nil, List.append_nil, List.append_assoc]
        rfl
    · rw [hStep, readState, readState, readTokens_append, readTokens_append, readTokens_singleton, readTokens_singleton,
        tokens_plain h, List.map_nil, List.append_nil]
      rfl

theorem readState_foldl {flags : MessageElementFlags} (h : .Text ∈ flags) (color : MessageColor) (words : List QString)
    (s : UpsertState) : readState flags color (words.foldl (upsertWord emoteMap flags color) s) =
      readState flags color s ++ words.map fun word => asEmote emoteMap (.word word flags color) := by
  induction words generalizing s with
  | nil => exact (List.append_nil _).symm
  | cons word words ih =>
    rw [List.foldl_cons, ih, readState_upsertWord h, List.append_assoc]
    rfl

theorem anyChange_foldl (flags : MessageElementFlags) (color : MessageColor) (words : List QString) (s : UpsertState) :
    (words.foldl (upsertWord emoteMap flags color) s).anyChange =
      (s.anyChange || words.any fun word => (emoteMap word).isSome) := by
  induction words generalizing s with
  | nil => exact (Bool.or_false _).symm
  | cons word words ih =>
    rw [List.foldl_cons, ih, List.any_cons, ← Bool.or_assoc]
    apply congrArg (· || _)
    rcases upsertWord_cases flags color s word with ⟨hWord, hStep⟩ | ⟨emote, hWord, hStep⟩
    · rw [hStep, hWord]
      exact (Bool.or_false _).symm
    · rw [hWord, Option.isSome_some, Bool.or_true]
      rcases hStep with ⟨-, -, -, elements, -, hStep⟩ | ⟨-, hStep⟩
      · rw [hStep]
      · rw [hStep]

theorem foldl_unchanged (flags : MessageElementFlags) (color : MessageColor) {words : List QString}
    (h : ∀ word ∈ words, emoteMap word = none) (s : UpsertState) :
    words.foldl (upsertWord emoteMap flags color) s = { s with words := s.words ++ words } := by
  induction words generalizing s with
  | nil => rw [List.append_nil]; rfl
  | cons word words ih =>
    obtain ⟨hWord, hWords⟩ := List.forall_mem_cons.mp h
    rw [List.foldl_cons, ih hWords, upsertWord, hWord]
    dsimp only
    rw [List.append_assoc, List.singleton_append]

theorem upsertWords_cases (words : List QString) (flags : MessageElementFlags) (color : MessageColor) (trailingSpace : Bool)
    (elements : List MessageElement) :
    ((∀ word ∈ words, emoteMap word = none) ∧ upsertWords emoteMap words flags color trailingSpace elements =
        elements ++ [.TextElement words flags color trailingSpace]) ∨
      ((∃ word ∈ words, (emoteMap word).isSome = true) ∧ upsertWords emoteMap words flags color trailingSpace elements =
        (flush flags color (words.foldl (upsertWord emoteMap flags color) ⟨[], false, elements⟩)).elements) := by
  rw [upsertWords, anyChange_foldl, Bool.false_or]
  cases hAny : words.any fun word => (emoteMap word).isSome with
  | false =>
    have hNone : ∀ word ∈ words, emoteMap word = none := by
      intro word hMem
      exact Option.not_isSome_iff_eq_none.mp (List.any_eq_false.mp hAny word hMem)
    refine .inl ⟨hNone, ?_⟩
    rw [foldl_unchanged flags color hNone]
    rfl
  | true => exact .inr ⟨List.any_eq_true.mp hAny, rfl⟩

theorem upsertElement_plain {flags : MessageElementFlags} (h : .Text ∈ flags) (words : List QString) (color : MessageColor)
    (trailingSpace : Bool) (elements : List MessageElement) :
    upsertElement emoteMap elements (.TextElement words flags color trailingSpace) =
      upsertWords emoteMap words flags color trailingSpace elements := if_pos h

theorem map_asEmote_of_none {words : List QString} (h : ∀ word ∈ words, emoteMap word = none) (flags : MessageElementFlags)
    (color : MessageColor) : (words.map fun word => asEmote emoteMap (.word word flags color)) =
      words.map fun word => .word word flags color := by
  apply List.map_congr_left
  intro word hMem
  rw [asEmote, h word hMem]
  rfl

theorem upsertElement_other {element : MessageElement}
    (h : ∀ words flags color trailingSpace, element = .TextElement words flags color trailingSpace → .Text ∉ flags)
    (elements : List MessageElement) : upsertElement emoteMap elements element = elements ++ [element] ∧
      (tokens element).map (asEmote emoteMap) = tokens element := by
  cases element with
  | TextElement words flags color trailingSpace =>
    have hNot := h words flags color trailingSpace rfl
    rw [upsertElement, if_neg hNot, tokens, if_neg hNot]
    exact ⟨rfl, rfl⟩
  | LayeredEmoteElement emotes flags trailingSpace =>
    refine ⟨rfl, ?_⟩
    rw [tokens, List.map_map]
    rfl
  | _ => exact ⟨rfl, rfl⟩

theorem plain_or_other (element : MessageElement) :
    (∃ words flags color trailingSpace, element = .TextElement words flags color trailingSpace ∧ .Text ∈ flags) ∨
      ∀ words flags color trailingSpace, element = .TextElement words flags color trailingSpace → .Text ∉ flags := by
  cases element with
  | TextElement words flags color trailingSpace =>
    by_cases hText : .Text ∈ flags
    · exact .inl ⟨words, flags, color, trailingSpace, rfl, hText⟩
    · refine .inr ?_
      rintro _ _ _ _ ⟨⟩
      exact hText
  | _ => exact .inr (by rintro _ _ _ _ ⟨⟩)

theorem readTokens_upsertElement (elements : List MessageElement) (element : MessageElement) :
    readTokens (upsertElement emoteMap elements element) = readTokens elements ++ (tokens element).map (asEmote emoteMap) := by
  rcases plain_or_other element with ⟨words, flags, color, trailingSpace, rfl, hText⟩ | hOther
  · rw [upsertElement_plain hText, tokens_plain hText, List.map_map]
    change _ = _ ++ words.map fun word => asEmote emoteMap (.word word flags color)
    rcases upsertWords_cases words flags color trailingSpace elements with ⟨hNone, hSame⟩ | ⟨-, hChanged⟩
    · rw [hSame, readTokens_append, readTokens_singleton, tokens_plain hText, map_asEmote_of_none hNone]
    · have hRead := @readState_foldl emoteMap flags hText color words ⟨[], false, elements⟩
      rw [hChanged, flush, readTokens_append, readTokens_singleton, tokens_plain hText]
      refine hRead.trans ?_
      rw [readState, List.map_nil, List.append_nil]
  · obtain ⟨hAdded, hTokens⟩ := upsertElement_other hOther elements
    rw [hAdded, readTokens_append, readTokens_singleton, hTokens]

theorem readTokens_foldl (elements acc : List MessageElement) :
    readTokens (elements.foldl (upsertElement emoteMap) acc) =
      readTokens acc ++ (readTokens elements).map (asEmote emoteMap) := by
  induction elements generalizing acc with
  | nil => exact (List.append_nil _).symm
  | cons element elements ih =>
    rw [List.foldl_cons, ih, readTokens_upsertElement, List.append_assoc, ← List.map_append]
    rfl

theorem forall_text_append (P : List QString → MessageElementFlags → Prop) {elements elements' : List MessageElement} :
    (∀ words flags color trailingSpace, .TextElement words flags color trailingSpace ∈ elements ++ elements' → P words flags) ↔
      (∀ words flags color trailingSpace, .TextElement words flags color trailingSpace ∈ elements → P words flags) ∧
        ∀ words flags color trailingSpace, .TextElement words flags color trailingSpace ∈ elements' → P words flags := by
  constructor
  · intro h
    exact ⟨fun words flags color space hMem => h words flags color space (List.mem_append_left _ hMem),
      fun words flags color space hMem => h words flags color space (List.mem_append_right _ hMem)⟩
  · rintro ⟨h, h'⟩ words flags color space hMem
    exact (List.mem_append.mp hMem).elim (h words flags color space) (h' words flags color space)

def Settled (emoteMap : EmoteMap) (elements : List MessageElement) : Prop :=
  ∀ words flags color trailingSpace, .TextElement words flags color trailingSpace ∈ elements → .Text ∈ flags →
    ∀ word ∈ words, emoteMap word = none

theorem settled_append {elements elements' : List MessageElement} :
    Settled emoteMap (elements ++ elements') ↔ Settled emoteMap elements ∧ Settled emoteMap elements' :=
  forall_text_append fun words flags => MessageElementFlag.Text ∈ flags → ∀ word ∈ words, emoteMap word = none

theorem settled_singleton {element : MessageElement} (h : ∀ words flags color trailingSpace,
    element = .TextElement words flags color trailingSpace → .Text ∈ flags → ∀ word ∈ words, emoteMap word = none) :
    Settled emoteMap [element] := by
  intro words flags color space hMem
  exact h words flags color space (List.mem_singleton.mp hMem).symm

theorem settled_upsertWord {flags : MessageElementFlags} {color : MessageColor} {s : UpsertState} {word : QString}
    (h : Settled emoteMap s.elements ∧ ∀ word ∈ s.words, emoteMap word = none) :
    Settled emoteMap (upsertWord emoteMap flags color s word).elements ∧
      ∀ w ∈ (upsertWord emoteMap flags color s word).words, emoteMap w = none := by
  obtain ⟨hElements, hWords⟩ := h
  have hNoWords : ∀ w ∈ ([] : List QString), emoteMap w = none := fun w hMem => absurd hMem List.not_mem_nil
  rcases upsertWord_cases flags color s word with ⟨hWord, hStep⟩ | ⟨emote, -, hStep⟩
  · rw [hStep]
    exact ⟨hElements, List.forall_mem_append.mpr ⟨hWords, List.forall_mem_singleton.mpr hWord⟩⟩
  · rcases hStep with ⟨-, -, -, elements, hLaid, hStep⟩ | ⟨-, hStep⟩
    · rw [hStep]
      refine ⟨?_, hNoWords⟩
      rcases layOnto_cases emote word s.elements with ⟨-, hNone⟩ | ⟨front, base, emotes, fl, element, hFront, -, -, -, -, hNot, hSome⟩
      · rw [hNone] at hLaid
        cases hLaid
      · rw [hSome] at hLaid
        cases hLaid
        rw [hFront] at hElements
        exact settled_append.mpr ⟨(settled_append.mp hElements).1,
          settled_singleton fun words flags color space hEq => absurd hEq (hNot words flags color space)⟩
    · rw [hStep]
      refine ⟨settled_append.mpr ⟨settled_append.mpr ⟨hElements, settled_singleton ?_⟩, settled_singleton ?_⟩, hNoWords⟩
      · rintro _ _ _ _ ⟨⟩ _
        exact hWords
      · rintro _ _ _ _ ⟨⟩

theorem settled_upsertElement {elements : List MessageElement} (h : Settled emoteMap elements) (element : MessageElement) :
    Settled emoteMap (upsertElement emoteMap elements element) := by
  rcases plain_or_other element with ⟨words, flags, color, trailingSpace, rfl, hText⟩ | hOther
  · rw [upsertElement_plain hText]
    rcases upsertWords_cases words flags color trailingSpace elements with ⟨hNone, hSame⟩ | ⟨-, hChanged⟩
    · rw [hSame]
      refine settled_append.mpr ⟨h, settled_singleton ?_⟩
      rintro _ _ _ _ ⟨⟩ _
      exact hNone
    · have hState := List.foldlRecOn words (upsertWord emoteMap flags color)
        (motive := fun s => Settled emoteMap s.elements ∧ ∀ word ∈ s.words, emoteMap word = none)
        (b := ⟨[], false, elements⟩) ⟨h, fun w hMem => absurd hMem List.not_mem_nil⟩
        fun s hs word _ => settled_upsertWord hs
      rw [hChanged, flush]
      refine settled_append.mpr ⟨hState.1, settled_singleton ?_⟩
      rintro _ _ _ _ ⟨⟩ _
      exact hState.2
  · obtain ⟨hAdded, -⟩ := upsertElement_other hOther elements
    rw [hAdded]
    refine settled_append.mpr ⟨h, settled_singleton ?_⟩
    intro words flags color space hEq hText
    exact absurd hText (hOther words flags color space hEq)

theorem settled_foldl {acc : List MessageElement} (h : Settled emoteMap acc) (elements : List MessageElement) :
    Settled emoteMap (elements.foldl (upsertElement emoteMap) acc) := by
  induction elements generalizing acc with
  | nil => exact h
  | cons element elements ih => exact ih (settled_upsertElement h element)

theorem foldl_of_settled {elements : List MessageElement} (h : Settled emoteMap elements) (acc : List MessageElement) :
    elements.foldl (upsertElement emoteMap) acc = acc ++ elements := by
  induction elements generalizing acc with
  | nil => exact (List.append_nil acc).symm
  | cons element elements ih =>
    have hSplit : Settled emoteMap ([element] ++ elements) := h
    obtain ⟨hElement, hElements⟩ := settled_append.mp hSplit
    have hAdded : upsertElement emoteMap acc element = acc ++ [element] := by
      rcases plain_or_other element with ⟨words, flags, color, trailingSpace, rfl, hText⟩ | hOther
      · have hNone := hElement words flags color trailingSpace List.mem_cons_self hText
        rw [upsertElement_plain hText]
        rcases upsertWords_cases words flags color trailingSpace acc with ⟨-, hSame⟩ | ⟨⟨word, hMem, hSome⟩, -⟩
        · exact hSame
        · rw [hNone word hMem] at hSome
          cases hSome
      · exact (upsertElement_other hOther acc).1
    rw [List.foldl_cons, hAdded, ih hElements, List.append_assoc, List.singleton_append]

theorem upsertElements_again (elements : List MessageElement) :
    upsertElements emoteMap (upsertElements emoteMap elements) = upsertElements emoteMap elements := by
  have hSettled : Settled emoteMap (upsertElements emoteMap elements) :=
    settled_foldl (fun words flags color trailingSpace hMem => absurd hMem List.not_mem_nil) elements
  exact foldl_of_settled hSettled []

theorem noEmptyText_append {elements elements' : List MessageElement} :
    NoEmptyText (elements ++ elements') ↔ NoEmptyText elements ∧ NoEmptyText elements' :=
  forall_text_append fun words _ => words ≠ []

theorem noEmptyText_text (words : List QString) (flags : MessageElementFlags) (color : MessageColor) (trailingSpace : Bool) :
    NoEmptyText [.TextElement words flags color trailingSpace] ↔ words ≠ [] := by
  constructor
  · intro h
    exact h words flags color trailingSpace List.mem_cons_self
  · intro h _ _ _ _ hMem
    cases List.mem_singleton.mp hMem
    exact h

theorem noEmptyText_other {element : MessageElement}
    (h : ∀ words flags color trailingSpace, element ≠ .TextElement words flags color trailingSpace) :
    NoEmptyText [element] := by
  intro words flags color trailingSpace hMem
  exact absurd (List.mem_singleton.mp hMem).symm (h words flags color trailingSpace)

theorem not_text_of_layers {element : MessageElement} (h : (layers element).isSome = true) (words : List QString)
    (flags : MessageElementFlags) (color : MessageColor) (trailingSpace : Bool) :
    element ≠ .TextElement words flags color trailingSpace := by
  rintro rfl
  cases h

theorem noEmptyText_layOnto {emote : Emote} {name : QString} {elements elements' : List MessageElement}
    (h : layOnto emote name elements = some elements') :
    (NoEmptyText elements' ↔ NoEmptyText elements) ∧ endsInEmote elements' = true := by
  rcases layOnto_cases emote name elements with ⟨-, hNone⟩ | ⟨front, base, emotes, flags, element, hFront, hBase, -, hElement, -, hNot, hSome⟩
  · rw [hNone] at h
    cases h
  · rw [hSome] at h
    cases h
    have hBaseSome : (layers base).isSome = true := by rw [hBase]; rfl
    rw [hFront, noEmptyText_append, noEmptyText_append, endsInEmote_append, isEmote, hElement]
    refine ⟨and_congr_right fun _ => ?_, rfl⟩
    exact iff_of_true (noEmptyText_other hNot) (noEmptyText_other (not_text_of_layers hBaseSome))

def waits (s : UpsertState) : Bool := !s.words.isEmpty

def onEmote (s : UpsertState) : Bool := s.words.isEmpty && endsInEmote s.elements

theorem noEmptyText_flush (flags : MessageElementFlags) (color : MessageColor) (words : List QString) (s : UpsertState) :
    NoEmptyText (flush flags color (words.foldl (upsertWord emoteMap flags color) s)).elements ↔
      NoEmptyText s.elements ∧ Parted emoteMap (waits s) (onEmote s) words := by
  induction words generalizing s with
  | nil =>
    rw [List.foldl_nil, flush, noEmptyText_append, noEmptyText_text, Parted, waits]
    apply and_congr_right
    intro _
    rw [Bool.not_eq_true', List.isEmpty_eq_false_iff]
  | cons word words ih =>
    rw [List.foldl_cons, ih, Parted]
    rcases upsertWord_cases flags color s word with ⟨hWord, hStep⟩ | ⟨emote, hWord, hStep⟩
    · have hMore : (s.words ++ [word]).isEmpty = false := List.isEmpty_eq_false_iff.mpr (List.concat_ne_nil word s.words)
      have hWaits : waits { s with words := s.words ++ [word] } = true := congrArg not hMore
      have hOn : onEmote { s with words := s.words ++ [word] } = false := congrArg (· && _) hMore
      rw [hStep, hWaits, hOn, hWord]
    · rw [hWord]
      dsimp only
      rcases hStep with ⟨hWords, hWidth, hEnds, elements, hLaid, hStep⟩ | ⟨hNot, hStep⟩
      · obtain ⟨hTexts, hLast⟩ := noEmptyText_layOnto hLaid
        have hOn : onEmote s = true := by rw [onEmote, hWords, hEnds]; rfl
        have hOn' : onEmote ⟨[], true, elements⟩ = true := by rw [onEmote, hLast]; rfl
        rw [hStep, hOn', hOn, hTexts]
        apply and_congr_right
        intro _
        exact (and_iff_right (.inr ⟨hWidth, rfl⟩)).symm
      · have hOn : ¬(emote.zeroWidth = true ∧ onEmote s = true) := by
          rintro ⟨hWidth, hOn⟩
          obtain ⟨hEmpty, hEnds⟩ := (Bool.and_eq_true _ _).mp hOn
          exact hNot ⟨List.isEmpty_iff.mp hEmpty, hWidth, hEnds⟩
        have hOn' : onEmote ⟨[], true, s.elements ++ [.TextElement s.words flags color true] ++
            [.EmoteElement emote.ptr [.Emote] true word]⟩ = true := by
          rw [onEmote, endsInEmote_append]
          rfl
        have hEmote : NoEmptyText [.EmoteElement emote.ptr [.Emote] true word] := noEmptyText_other (by rintro _ _ _ _ ⟨⟩)
        have hWaits : s.words ≠ [] ↔ waits s = true := by
          rw [waits, Bool.not_eq_true', List.isEmpty_eq_false_iff]
        rw [hStep, hOn', noEmptyText_append, noEmptyText_append, noEmptyText_text, and_iff_left hEmote, or_iff_left hOn, hWaits,
          and_assoc]
        rfl

theorem endsInEmote_flush (flags : MessageElementFlags) (color : MessageColor) (s : UpsertState) :
    endsInEmote (flush flags color s).elements = false := endsInEmote_append _ _

theorem noEmptyText_upsertWords (words : List QString) (flags : MessageElementFlags) (color : MessageColor)
    (trailingSpace : Bool) (elements : List MessageElement) :
    (NoEmptyText (upsertWords emoteMap words flags color trailingSpace elements) ↔ NoEmptyText elements ∧ words ≠ [] ∧
      ((∃ word ∈ words, (emoteMap word).isSome = true) → Parted emoteMap false (endsInEmote elements) words)) ∧
      endsInEmote (upsertWords emoteMap words flags color trailingSpace elements) = false := by
  rcases @upsertWords_cases emoteMap words flags color trailingSpace elements with ⟨hNone, hSame⟩ | ⟨hSome, hChanged⟩
  · have hNot : ¬∃ word ∈ words, (emoteMap word).isSome = true := by
      rintro ⟨word, hMem, hSome⟩
      rw [hNone word hMem] at hSome
      cases hSome
    rw [hSame, noEmptyText_append, noEmptyText_text, endsInEmote_append, and_iff_left fun h => absurd h hNot]
    exact ⟨Iff.rfl, rfl⟩
  · have hWords : words ≠ [] := by
      rintro rfl
      obtain ⟨word, hMem, -⟩ := hSome
      cases hMem
    rw [hChanged, noEmptyText_flush, endsInEmote_flush, and_iff_right hWords, imp_iff_right hSome]
    exact ⟨Iff.rfl, rfl⟩

theorem allParted_other {element : MessageElement}
    (h : ∀ words flags color trailingSpace, element = .TextElement words flags color trailingSpace → .Text ∉ flags)
    (onEmote : Bool) (elements : List MessageElement) : AllParted emoteMap onEmote (element :: elements) ↔
      NoEmptyText [element] ∧ AllParted emoteMap (isEmote element) elements := by
  cases element with
  | TextElement words flags color trailingSpace =>
    have hNot := h words flags color trailingSpace rfl
    rw [AllParted, noEmptyText_text, and_iff_right fun hText => absurd hText hNot]
    rfl
  | _ =>
    rw [AllParted, and_iff_right (noEmptyText_other (by rintro _ _ _ _ ⟨⟩))]
    rintro _ _ _ _ ⟨⟩

theorem allParted_cons (element : MessageElement) (elements acc : List MessageElement) :
    NoEmptyText acc ∧ AllParted emoteMap (endsInEmote acc) (element :: elements) ↔
      NoEmptyText (upsertElement emoteMap acc element) ∧
        AllParted emoteMap (endsInEmote (upsertElement emoteMap acc element)) elements := by
  rcases plain_or_other element with ⟨words, flags, color, trailingSpace, rfl, hText⟩ | hOther
  · obtain ⟨hWords, hEnds⟩ := @noEmptyText_upsertWords emoteMap words flags color trailingSpace acc
    rw [upsertElement_plain hText, hWords, hEnds, AllParted, imp_iff_right hText, and_assoc, and_assoc]
  · rw [(upsertElement_other hOther acc).1, noEmptyText_append, endsInEmote_append, allParted_other hOther, and_assoc]

theorem noEmptyText_foldl (elements acc : List MessageElement) :
    NoEmptyText (elements.foldl (upsertElement emoteMap) acc) ↔
      NoEmptyText acc ∧ AllParted emoteMap (endsInEmote acc) elements := by
  induction elements generalizing acc with
  | nil => exact (and_iff_left trivial).symm
  | cons element elements ih => rw [List.foldl_cons, ih, allParted_cons]

/-- The rebuilt elements and those of the builder have the same layers, and the next emote finds the same. -/
structure SameLayers (s : UpsertState) (elements : List MessageElement) : Prop where
  readLayers : readLayers s.elements = readLayers elements
  onEmote : onEmote s = endsInEmote elements

theorem readLayers_layOnto {emote : Emote} {name : QString} {elements elements' laid : List MessageElement}
    (hSame : readLayers elements = readLayers elements') (hEnds : endsInEmote elements' = true)
    (hLaid : layOnto emote name elements = some laid) :
    ∃ laid', layOnto emote name elements' = some laid' ∧ readLayers laid = readLayers laid' ∧ endsInEmote laid' = true := by
  rcases layOnto_cases emote name elements with ⟨-, hNone⟩ | ⟨front, base, emotes, flags, element, rfl, hBase, -, hElement, -, -, hSome⟩
  · rw [hNone] at hLaid
    cases hLaid
  · rw [hSome] at hLaid
    cases hLaid
    rcases layOnto_cases emote name elements' with ⟨hNot, -⟩ | ⟨front', base', emotes', flags', element', rfl, hBase', -, hElement', -, -, hSome'⟩
    · rw [hEnds] at hNot
      cases hNot
    · have hSingle : ∀ e l, layers e = some l → readLayers [e] = [l] := by
        intro e l h
        rw [readLayers, List.filterMap_cons, h]
        rfl
      rw [readLayers_append, readLayers_append, hSingle base _ hBase, hSingle base' _ hBase'] at hSame
      obtain ⟨hFront, hBack⟩ := List.append_inj' hSame rfl
      cases hBack
      refine ⟨_, hSome', ?_, ?_⟩
      · rw [readLayers_append, readLayers_append, hSingle element _ hElement, hSingle element' _ hElement', hFront]
      · rw [endsInEmote_append, isEmote, hElement']
        rfl

theorem sameLayers_upsertWord {s : UpsertState} {elements : List MessageElement} (h : SameLayers s elements)
    (flags : MessageElementFlags) (color : MessageColor) (word : QString) :
    SameLayers (upsertWord emoteMap flags color s word) (builtWord env emoteMap color elements word) := by
  obtain ⟨hLayers, hOn⟩ := h
  rcases upsertWord_cases flags color s word with ⟨hWord, hStep⟩ | ⟨emote, hWord, hStep⟩
  · obtain ⟨hText, hEnds⟩ := appendOrEmplaceText_spec word color elements
    have hMore : (s.words ++ [word]).isEmpty = false := List.isEmpty_eq_false_iff.mpr (List.concat_ne_nil word s.words)
    rw [hStep, builtWord, tryAppendEmote_eq, hWord]
    exact ⟨hLayers.trans hText.symm, (congrArg (· && _) hMore).trans hEnds.symm⟩
  · rw [builtWord, tryAppendEmote_eq, hWord]
    dsimp only [Option.map_some, Option.getD_some]
    rcases hStep with ⟨hWords, hWidth, hEnds, laid, hLaid, hStep⟩ | ⟨hNot, hStep⟩
    · have hOnEmote : onEmote s = true := by rw [onEmote, hWords, hEnds]; rfl
      obtain ⟨laid', hLaid', hSame, hEnds'⟩ := readLayers_layOnto hLayers (hOn.symm.trans hOnEmote) hLaid
      rw [hStep, if_pos hWidth, hLaid']
      exact ⟨hSame, (noEmptyText_layOnto hLaid).2.trans hEnds'.symm⟩
    · have hNone : (if emote.zeroWidth = true then layOnto emote word elements else none) = none := by
        split_ifs with hWidth
        · rcases layOnto_cases emote word elements with ⟨-, hNone⟩ | ⟨-, -, -, -, -, -, -, hEnds, -⟩
          · exact hNone
          · obtain ⟨hEmpty, hEnds'⟩ := (Bool.and_eq_true _ _).mp (hOn.trans hEnds)
            exact absurd ⟨List.isEmpty_iff.mp hEmpty, hWidth, hEnds'⟩ hNot
        · rfl
      rw [hStep, hNone]
      refine ⟨?_, ?_⟩
      · rw [Option.getD_none, readLayers_append, readLayers_append, readLayers_append, hLayers]
        exact congrArg (· ++ _) (List.append_nil _)
      · rw [Option.getD_none, onEmote, endsInEmote_append, endsInEmote_append]
        rfl

theorem sameLayers_foldl {s : UpsertState} {elements : List MessageElement} (h : SameLayers s elements)
    (flags : MessageElementFlags) (color : MessageColor) (words : List QString) :
    SameLayers (words.foldl (upsertWord emoteMap flags color) s) (words.foldl (builtWord env emoteMap color) elements) := by
  induction words generalizing s elements with
  | nil => exact h
  | cons word words ih => exact ih (sameLayers_upsertWord h flags color word)

theorem sameLayers_upsertElement {acc acc' : List MessageElement} {element : MessageElement}
    (hLayers : readLayers acc = readLayers acc') (hEnds : endsInEmote acc = endsInEmote acc')
    (hTexts : NoEmptyText (upsertElement emoteMap acc element)) :
    readLayers (upsertElement emoteMap acc element) = readLayers (builtElement env emoteMap acc' element) ∧
      endsInEmote (upsertElement emoteMap acc element) = endsInEmote (builtElement env emoteMap acc' element) := by
  have hAdded : ∀ e, readLayers (acc ++ [e]) = readLayers (acc' ++ [e]) ∧ endsInEmote (acc ++ [e]) = endsInEmote (acc' ++ [e]) := by
    intro e
    rw [readLayers_append, readLayers_append, hLayers, endsInEmote_append, endsInEmote_append]
    exact ⟨rfl, rfl⟩
  rcases plain_or_other element with ⟨words, flags, color, trailingSpace, rfl, hText⟩ | hOther
  · have hStart : SameLayers ⟨[], false, acc⟩ acc' := ⟨hLayers, (Bool.true_and _).trans hEnds⟩
    have hSame := @sameLayers_foldl env emoteMap _ _ hStart flags color words
    have hBuilt : builtElement env emoteMap acc' (.TextElement words flags color trailingSpace) =
        words.foldl (builtWord env emoteMap color) acc' := if_pos hText
    rw [upsertElement_plain hText] at hTexts ⊢
    rw [hBuilt]
    -- with words that wait, the builder has put them behind the last emote
    have hEnd : ∀ s, SameLayers s (words.foldl (builtWord env emoteMap color) acc') → s.words ≠ [] →
        endsInEmote (words.foldl (builtWord env emoteMap color) acc') = false := by
      intro s hs hWords
      exact hs.onEmote.symm.trans (congrArg (· && _) (List.isEmpty_eq_false_iff.mpr hWords))
    rcases @upsertWords_cases emoteMap words flags color trailingSpace acc with ⟨hNone, hUnchanged⟩ | ⟨-, hChanged⟩
    · rw [hUnchanged] at hTexts ⊢
      rw [foldl_unchanged flags color hNone] at hSame
      rw [readLayers_append, endsInEmote_append, hEnd _ hSame ((noEmptyText_text _ _ _ _).mp (noEmptyText_append.mp hTexts).2)]
      exact ⟨(List.append_nil _).trans hSame.readLayers, rfl⟩
    · rw [hChanged] at hTexts ⊢
      rw [endsInEmote_flush, hEnd _ hSame ((noEmptyText_text _ _ _ _).mp (noEmptyText_append.mp hTexts).2), flush,
        readLayers_append]
      exact ⟨(List.append_nil _).trans hSame.readLayers, rfl⟩
  · have hBuilt : builtElement env emoteMap acc' element = acc' ++ [element] := by
      cases element with
      | TextElement words flags color trailingSpace => exact if_neg (hOther words flags color trailingSpace rfl)
      | _ => rfl
    rw [(upsertElement_other hOther acc).1, hBuilt]
    exact hAdded element

theorem readLayers_foldl {elements acc acc' : List MessageElement} (hLayers : readLayers acc = readLayers acc')
    (hEnds : endsInEmote acc = endsInEmote acc') (hTexts : NoEmptyText (elements.foldl (upsertElement emoteMap) acc)) :
    readLayers (elements.foldl (upsertElement emoteMap) acc) = readLayers (elements.foldl (builtElement env emoteMap) acc') := by
  induction elements generalizing acc acc' with
  | nil => exact hLayers
  | cons element elements ih =>
    rw [List.foldl_cons] at hTexts
    obtain ⟨hLayers', hEnds'⟩ := @sameLayers_upsertElement env emoteMap _ _ _ hLayers hEnds ((noEmptyText_foldl _ _).mp hTexts).1
    exact ih hLayers' hEnds' hTexts

theorem surgical_iff_allParted (env : Surroundings) (emoteMap : EmoteMap) (elements : List MessageElement) :
    Surgical env emoteMap elements ↔ AllParted emoteMap false elements := by
  have hTexts : NoEmptyText (upsertElements emoteMap elements) ↔ AllParted emoteMap false elements := by
    rw [upsertElements, noEmptyText_foldl]
    exact and_iff_right fun words flags color trailingSpace hMem => absurd hMem List.not_mem_nil
  constructor
  · intro h
    exact hTexts.mp h.noEmptyText
  · intro h
    have hNoEmpty := hTexts.mpr h
    exact ⟨readTokens_foldl elements [], readLayers_foldl rfl rfl hNoEmpty, hNoEmpty, upsertElements_again elements⟩

theorem findMessage_modify (userLogin : QString) (messages : List ShownMessage) (i : Nat)
    (f : List MessageElement → List MessageElement) :
    findMessage userLogin (messages.modify i fun message => { message with elements := f message.elements }) =
      findMessage userLogin messages := by
  rw [findMessage, findMessage, List.length_modify]
  apply congrArg fun p => List.find? p _
  funext j
  by_cases hIndex : i = j
  · subst hIndex
    rw [List.getElem?_modify_eq]
    cases messages[i]? with
    | none => rfl
    | some message => rfl
  · rw [List.getElem?_modify_ne _ _ hIndex]

theorem upsertPersonalSeventvEmotes_again (emoteMap : EmoteMap) (userLogin : QString) (messages : List ShownMessage) :
    upsertPersonalSeventvEmotes emoteMap userLogin (upsertPersonalSeventvEmotes emoteMap userLogin messages) =
      upsertPersonalSeventvEmotes emoteMap userLogin messages := by
  cases hFound : findMessage userLogin messages with
  | none =>
    have hSame : upsertPersonalSeventvEmotes emoteMap userLogin messages = messages := by
      rw [upsertPersonalSeventvEmotes, hFound]
    rw [hSame, hSame]
  | some i =>
    have hModify : ∀ other, findMessage userLogin other = some i → upsertPersonalSeventvEmotes emoteMap userLogin other =
        other.modify i fun message => { message with elements := upsertElements emoteMap message.elements } := by
      intro other hOther
      rw [upsertPersonalSeventvEmotes, hOther]
    rw [hModify messages hFound, hModify _ ((findMessage_modify userLogin messages i _).trans hFound), List.modify_modify_eq]
    apply congrArg fun f => messages.modify i f
    funext message
    exact congrArg (ShownMessage.mk message.loginName) (upsertElements_again message.elements)

theorem getElem?_upsertPersonalSeventvEmotes (emoteMap : EmoteMap) {userLogin : QString} {messages : List ShownMessage} {i : Nat}
    (hFound : findMessage userLogin messages = some i) {message : ShownMessage} (hMessage : messages[i]? = some message) :
    (upsertPersonalSeventvEmotes emoteMap userLogin messages)[i]? =
      some { message with elements := upsertElements emoteMap message.elements } := by
  rw [upsertPersonalSeventvEmotes, hFound]
  dsimp only
  rw [List.getElem?_modify_eq, hMessage]
  rfl

theorem getElem?_upsertPersonalSeventvEmotes_ne (emoteMap : EmoteMap) {userLogin : QString} {messages : List ShownMessage} {j : Nat}
    (h : findMessage userLogin messages ≠ some j) :
    (upsertPersonalSeventvEmotes emoteMap userLogin messages)[j]? = messages[j]? := by
  rw [upsertPersonalSeventvEmotes]
  cases hFound : findMessage userLogin messages with
  | none => rfl
  | some i =>
    have hIndex : i ≠ j := by
      rintro rfl
      exact h hFound
    exact List.getElem?_modify_ne _ _ hIndex

/-- The last message of the user is rebuilt surgically if it is parted. -/
theorem upsertsSurgically_iff (env : Surroundings) (emoteMap : EmoteMap) (userLogin : QString) (messages : List ShownMessage) :
    UpsertsSurgically env emoteMap userLogin messages ↔ ∀ i message, findMessage userLogin messages = some i →
      messages[i]? = some message → AllParted emoteMap false message.elements := by
  constructor
  · intro h i message hFound hMessage
    exact (surgical_iff_allParted env emoteMap message.elements).mp (h.rebuilt i message hFound hMessage).2
  · intro h
    refine ⟨fun j hNot => getElem?_upsertPersonalSeventvEmotes_ne emoteMap hNot, fun i message hFound hMessage => ?_,
      upsertPersonalSeventvEmotes_again emoteMap userLogin messages⟩
    exact ⟨getElem?_upsertPersonalSeventvEmotes emoteMap hFound hMessage,
      (surgical_iff_allParted env emoteMap message.elements).mpr (h i message hFound hMessage)⟩

def renamed : List ShownMessage := [⟨lit "user", [.TextElement [lit "EmoteA"] [.Text] .Text true]⟩]

theorem not_upsertsSurgically_renamed :
    ¬∀ (env : Surroundings) (emoteMap : EmoteMap) (userLogin : QString) (messages : List ShownMessage),
      UpsertsSurgically env emoteMap userLogin messages := by
  intro hAll
  have hSurgical := (hAll plainSurroundings (fun _ => some ⟨some 1, false⟩) (lit "user") renamed).rebuilt 0 _ rfl rfl
  exact hSurgical.2.noEmptyText [] [.Text] .Text true List.mem_cons_self rfl

end Chatterino.Messages.UpsertedEmotes
