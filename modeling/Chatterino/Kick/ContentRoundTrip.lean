import Chatterino.Lib.Regex
import Chatterino.Qt.QString
import Mathlib.Data.List.Induction

/-! # The content of Kick messages

The name of an emote is sent as a marker with the id of the emote, and the markers of a message that
comes without positions are found by their pattern. Texts are well-formed, as the engine asks for.
Images and tooltips are left out.
-/

namespace Chatterino.Kick

open Lib QString

structure NativeEmote where
  name : QString
  id : QString
  deriving DecidableEq

structure ThirdPartyEmote where
  name : QString
  homePage : QString := []
  deriving DecidableEq

inductive ContentElement where
  | text (word : QString)
  | emote (emote : NativeEmote)
  | thirdParty (emote : ThirdPartyEmote)
  deriving DecidableEq

def ContentElement.name : ContentElement → QString
  | .text word => word
  | .emote native => native.name
  | .thirdParty other => other.name

def ContentElement.isEmote : ContentElement → Bool
  | .emote _ => true
  | _ => false

/-- The emotes that a channel knows. The first of a name is the one of that name. -/
structure ChannelEmotes where
  nativeKickEmotes_ : List NativeEmote := []
  availableKickEmotes_ : List NativeEmote := []
  globalEmotes : List NativeEmote := []
  seventvEmotes_ : List ThirdPartyEmote := []
  globalSeventv : List ThirdPartyEmote := []
  globalBttv : List ThirdPartyEmote := []
  globalFfz : List ThirdPartyEmote := []

def SPACE : QChar := 0x20

def split (text : QString) : List QString := (text.splitOn SPACE).filter fun word => !word.isEmpty

def isDigit (c : QChar) : Bool := 0x30 ≤ c && c ≤ 0x39

def isNameCharacter (c : QChar) : Bool := c ≠ 0x5D

/-- `\[emote:(\d+):([^\]]+)\]`. -/
def emoteRegex : Regex QChar :=
  .seq (.word (lit "[emote:")) (.seq (.plus (.char isDigit)) (.seq (.word (lit ":"))
    (.seq (.plus (.char isNameCharacter)) (.word (lit "]")))))

/-- `[emote:%1:%2]`. -/
def marker (id name : QString) : QString := lit "[emote:" ++ (id ++ (lit ":" ++ (name ++ lit "]")))

structure EmoteMatch where
  start : Nat
  stop : Nat
  emoteId : QString
  emoteName : QString
  deriving DecidableEq

def captured (text : QString) : NativeEmote :=
  let id := (text.drop 7).takeWhile isDigit
  ⟨(text.drop (7 + id.length + 1)).dropLast, id⟩

def globalMatchFrom : Nat → Nat → QString → List EmoteMatch
  | _, _, [] => []
  | pos, skip + 1, _ :: content => globalMatchFrom (pos + 1) skip content
  | pos, 0, c :: content =>
    match Regex.matchEnd emoteRegex (c :: content) with
    | none => globalMatchFrom (pos + 1) 0 content
    | some rest =>
      let text := (c :: content).take (content.length + 1 - rest.length)
      let groups := captured text
      ⟨pos, pos + text.length, groups.id, groups.name⟩ ::
        globalMatchFrom (pos + 1) (content.length - rest.length) content

def globalMatch (content : QString) : List EmoteMatch := globalMatchFrom 0 0 content

namespace ChannelEmotes

variable (channel : ChannelEmotes)

def foundEmote (word : QString) : Option NativeEmote :=
  (channel.nativeKickEmotes_.find? (·.name = word)).or
    ((channel.availableKickEmotes_.find? (·.name = word)).or (channel.globalEmotes.find? (·.name = word)))

def convertWord (word : QString) : QString :=
  match channel.foundEmote word with
  | some emote => if emote.id.isEmpty then word else marker emote.id word
  | none => word

def convertEmotesForSending (message : QString) : QString :=
  if channel.nativeKickEmotes_.isEmpty && channel.availableKickEmotes_.isEmpty && channel.globalEmotes.isEmpty then
    message
  else [SPACE].intercalate ((message.splitOn SPACE).map channel.convertWord)

def findThirdPartyEmote (word : QString) : Option ThirdPartyEmote :=
  (channel.seventvEmotes_.find? (·.name = word)).or ((channel.globalSeventv.find? (·.name = word)).or
    ((channel.globalBttv.find? (·.name = word)).or (channel.globalFfz.find? (·.name = word))))

def wordElement (word : QString) : ContentElement :=
  match channel.findThirdPartyEmote word with
  | some emote => .thirdParty emote
  | none => .text word

def addTextOrEmote (text : QString) : List ContentElement := (split text).map channel.wordElement

def addTrimmed (text : QString) : List ContentElement :=
  if (trimmed text).isEmpty then [] else channel.addTextOrEmote (trimmed text)

def addMatches (content : QString) : Nat → List EmoteMatch → List ContentElement
  | currentPos, [] =>
    if currentPos < content.length then channel.addTrimmed (content.drop currentPos) else []
  | currentPos, em :: rest =>
    (if em.start > currentPos then channel.addTrimmed ((content.drop currentPos).take (em.start - currentPos)) else []) ++
      .emote ⟨em.emoteName, em.emoteId⟩ :: addMatches content em.stop rest

def learn (channel : ChannelEmotes) (em : EmoteMatch) : ChannelEmotes :=
  if channel.nativeKickEmotes_.any (·.name = em.emoteName) then channel
  else { channel with nativeKickEmotes_ := channel.nativeKickEmotes_ ++ [⟨em.emoteName, em.emoteId⟩] }

def parseMessageContent (content : QString) : ChannelEmotes × List ContentElement :=
  let found := globalMatch content
  (found.foldl learn channel, channel.addMatches content 0 found)

def shown (word : QString) : ContentElement :=
  match channel.foundEmote word with
  | some emote => .emote emote
  | none => channel.wordElement word

def ShownAsTyped (text : QString) : Prop :=
  (channel.parseMessageContent (channel.convertEmotesForSending text)).2 = (split text).map channel.shown

instance (text : QString) : Decidable (channel.ShownAsTyped text) := inferInstanceAs (Decidable (_ = _))

end ChannelEmotes

def isVisible (c : QChar) : Bool := c ≠ SPACE

theorem split_append (x y : QString) : split (x ++ SPACE :: y) = split x ++ split y := by
  rw [split, List.splitOn_append_cons_self, List.filter_append]
  rfl

@[simp] theorem split_nil : split [] = [] := rfl

theorem split_cons_space (x : QString) : split (SPACE :: x) = split x := split_append [] x

theorem split_append_space (x : QString) : split (x ++ [SPACE]) = split x := by
  rw [split_append, split_nil, List.append_nil]

theorem split_of_not_mem {word : QString} (h : SPACE ∉ word) : split word = [word].filter fun w => !w.isEmpty := by
  rw [split, List.splitOn_eq_singleton h]

theorem flatten_splitOn (x : QString) : (x.splitOn SPACE).flatten = x.filter isVisible := by
  induction x with
  | nil => rfl
  | cons c x ih =>
    rw [List.splitOn_cons_eq_if_modifyHead]
    by_cases hSpace : c = SPACE
    · rw [if_pos (beq_iff_eq.mpr hSpace), List.filter_cons_of_neg (by simpa [isVisible])]
      exact ih
    · rw [if_neg (by simpa using hSpace), List.filter_cons_of_pos (by simpa [isVisible]), ← ih]
      cases hSplit : x.splitOn SPACE with
      | nil => exact absurd hSplit (List.splitOn_ne_nil _ _)
      | cons word rest => rfl

theorem flatten_split (x : QString) : (split x).flatten = x.filter isVisible := by
  rw [split, List.flatten_filter_not_isEmpty, flatten_splitOn]

def spaced (words : List QString) : QString := words.flatMap fun word => SPACE :: word

theorem split_spaced {words : List QString} (h : ∀ word ∈ words, SPACE ∉ word) :
    split (spaced words) = words.filter fun word => !word.isEmpty := by
  induction words using List.reverseRecOn with
  | nil => rfl
  | append_singleton words word ih =>
    have hSpaced : spaced (words ++ [word]) = spaced words ++ SPACE :: word := by simp [spaced]
    rw [hSpaced, split_append, ih fun w hw => h w (List.mem_append_left _ hw),
      split_of_not_mem (h word (List.mem_append_right _ (List.mem_singleton_self word))), List.filter_append]

theorem split_dropWhile {x : QString} (h : ∀ c ∈ (x.filter isVisible).head?, isSpace c = false) :
    split (x.dropWhile isSpace) = split x := by
  induction x with
  | nil => rfl
  | cons c x ih =>
    by_cases hSpace : c = SPACE
    · rw [List.filter_cons_of_neg (by simpa [isVisible])] at h
      rw [hSpace, List.dropWhile_cons_of_pos (by decide), split_cons_space, ih h]
    · rw [List.filter_cons_of_pos (by simpa [isVisible])] at h
      rw [List.dropWhile_cons_of_neg (by simp [h c rfl])]

theorem length_filter_dropWhile {x : QString} (h : ¬∀ c ∈ (x.filter isVisible).head?, isSpace c = false) :
    ((x.dropWhile isSpace).filter isVisible).length < (x.filter isVisible).length := by
  induction x with
  | nil => exact absurd (by rintro _ ⟨⟩) h
  | cons c x ih =>
    by_cases hSpace : c = SPACE
    · rw [List.filter_cons_of_neg (by simpa [isVisible])] at h ⊢
      rw [hSpace, List.dropWhile_cons_of_pos (by decide)]
      exact ih h
    · rw [List.filter_cons_of_pos (by simpa [isVisible])] at h ⊢
      have hWhite : isSpace c = true := by simpa using h
      rw [List.dropWhile_cons_of_pos hWhite, List.length_cons]
      exact Nat.lt_succ_of_le ((List.dropWhile_sublist _).filter _).length_le

theorem split_dropWhile_reverse {x : QString} (h : ∀ c ∈ (x.filter isVisible).getLast?, isSpace c = false) :
    split (x.reverse.dropWhile isSpace).reverse = split x := by
  induction x using List.reverseRecOn with
  | nil => rfl
  | append_singleton x c ih =>
    rw [List.reverse_append, List.reverse_singleton, List.singleton_append]
    rw [List.filter_append] at h
    by_cases hSpace : c = SPACE
    · rw [List.filter_cons_of_neg (by simpa [isVisible]), List.filter_nil, List.append_nil] at h
      rw [hSpace, List.dropWhile_cons_of_pos (by decide), split_append_space, ih h]
    · rw [List.filter_cons_of_pos (by simpa [isVisible])] at h
      have hWhite : isSpace c = false := h c (by simp)
      rw [List.dropWhile_cons_of_neg (by simp [hWhite]), List.reverse_cons, List.reverse_reverse]

theorem length_filter_reverse (x : QString) : (x.reverse.filter isVisible).length = (x.filter isVisible).length := by
  rw [List.filter_reverse, List.length_reverse]

theorem length_filter_trimmed (x : QString) :
    ((trimmed x).filter isVisible).length ≤ (x.filter isVisible).length := by
  rw [trimmed, length_filter_reverse]
  refine ((List.dropWhile_sublist _).filter _).length_le.trans ?_
  rw [length_filter_reverse]
  exact ((List.dropWhile_sublist _).filter _).length_le

def Unpadded (characters : QString) : Prop :=
  (∀ c ∈ characters.head?, isSpace c = false) ∧ ∀ c ∈ characters.getLast?, isSpace c = false

instance (characters : QString) : Decidable (Unpadded characters) := inferInstanceAs (Decidable (_ ∧ _))

theorem length_filter_trimmed_le (x : QString) :
    ((trimmed x).filter isVisible).length ≤ ((x.dropWhile isSpace).filter isVisible).length := by
  rw [trimmed, length_filter_reverse, ← length_filter_reverse (x.dropWhile isSpace)]
  exact ((List.dropWhile_sublist _).filter _).length_le

theorem split_trimmed_iff (x : QString) : split (trimmed x) = split x ↔ Unpadded (split x).flatten := by
  rw [flatten_split]
  constructor
  · intro h
    have hLength : ((trimmed x).filter isVisible).length = (x.filter isVisible).length := by
      rw [← flatten_split, ← flatten_split, h]
    have hLe := length_filter_trimmed_le x
    have hHead : ∀ c ∈ (x.filter isVisible).head?, isSpace c = false := by
      by_contra hNot
      have hLt := length_filter_dropWhile hNot
      omega
    refine ⟨hHead, ?_⟩
    by_contra hNot
    have hSame : (x.dropWhile isSpace).filter isVisible = x.filter isVisible := by
      rw [← flatten_split, split_dropWhile hHead, flatten_split]
    have hLt := @length_filter_dropWhile (x.dropWhile isSpace).reverse (by
      rwa [List.filter_reverse, List.head?_reverse, hSame])
    rw [length_filter_reverse, hSame] at hLt
    rw [trimmed, length_filter_reverse] at hLength
    omega
  · rintro ⟨hHead, hLast⟩
    have hSame : (x.dropWhile isSpace).filter isVisible = x.filter isVisible := by
      rw [← flatten_split, split_dropWhile hHead, flatten_split]
    rw [trimmed, split_dropWhile_reverse (by rwa [hSame]), split_dropWhile hHead]

/-- The id is a number and the name is not empty and ends before a bracket. -/
structure IsMarker (id name : QString) : Prop where
  id_ne : id ≠ []
  digits : ∀ c ∈ id, isDigit c = true
  name_ne : name ≠ []
  name_characters : ∀ c ∈ name, isNameCharacter c = true

theorem matches_emoteRegex_iff {w : QString} :
    Regex.Matches emoteRegex w ↔ ∃ id name, IsMarker id name ∧ w = marker id name := by
  simp only [emoteRegex, Regex.matches_seq, Regex.matches_word, Regex.matches_plus_char]
  constructor
  · rintro ⟨_, _, rfl, rfl, id, _, rfl, ⟨hId, hDigits⟩, _, _, rfl, rfl, name, _, rfl, ⟨hName, hCharacters⟩, rfl⟩
    exact ⟨id, name, ⟨hId, hDigits, hName, hCharacters⟩, rfl⟩
  · rintro ⟨id, name, h, rfl⟩
    exact ⟨_, _, rfl, rfl, id, _, rfl, ⟨h.id_ne, h.digits⟩, _, _, rfl, rfl, name, _, rfl,
      ⟨h.name_ne, h.name_characters⟩, rfl⟩

theorem marker_append (id name rest : QString) :
    marker id name ++ rest = lit "[emote:" ++ (id ++ (lit ":" ++ (name ++ 0x5D :: rest))) := by
  simp only [marker, List.append_assoc]
  rfl

theorem takeWhile_stop {p : QChar → Bool} {w rest : QString} {c : QChar} (hWord : ∀ d ∈ w, p d = true)
    (hStop : p c = false) : (w ++ c :: rest).takeWhile p = w := by
  rw [List.takeWhile_append_of_pos hWord, List.takeWhile_cons_of_neg (by simp [hStop]), List.append_nil]

theorem captured_marker {id name : QString} (h : IsMarker id name) : captured (marker id name) = ⟨name, id⟩ := by
  have hDrop : (marker id name).drop 7 = id ++ (0x3A : QChar) :: (name ++ lit "]") := rfl
  have hId : ((marker id name).drop 7).takeWhile isDigit = id := by
    rw [hDrop]
    exact takeWhile_stop h.digits rfl
  have hName : (marker id name).drop (7 + id.length + 1) = name ++ lit "]" := by
    rw [Nat.add_assoc, ← List.drop_drop, hDrop, ← List.drop_drop, List.drop_left]
    rfl
  rw [captured, hId, hName]
  exact congrArg (NativeEmote.mk · id) (List.dropLast_concat)

theorem marker_append_inj {id name id' name' rest rest' : QString} (h : IsMarker id name) (h' : IsMarker id' name')
    (hEq : marker id name ++ rest = marker id' name' ++ rest') : rest = rest' := by
  rw [marker_append, marker_append, List.append_cancel_left_eq] at hEq
  have hId : id = id' := by
    have hTake := congrArg (List.takeWhile isDigit) hEq
    rwa [show ∀ t : QString, lit ":" ++ t = 0x3A :: t from fun _ => rfl,
      show ∀ t : QString, lit ":" ++ t = 0x3A :: t from fun _ => rfl,
      takeWhile_stop h.digits rfl, takeWhile_stop h'.digits rfl] at hTake
  rw [hId, List.append_cancel_left_eq, List.append_cancel_left_eq] at hEq
  have hName : name = name' := by
    have hTake := congrArg (List.takeWhile isNameCharacter) hEq
    rwa [takeWhile_stop h.name_characters rfl, takeWhile_stop h'.name_characters rfl] at hTake
  rw [hName, List.append_cancel_left_eq] at hEq
  exact (List.cons.inj hEq).2

theorem matchEnd_emoteRegex_iff {s rest : QString} :
    Regex.matchEnd emoteRegex s = some rest ↔ ∃ id name, IsMarker id name ∧ s = marker id name ++ rest := by
  have hSound {x : QString} (hMatch : Regex.matchEnd emoteRegex s = some x) :
      ∃ id name, IsMarker id name ∧ s = marker id name ++ x := by
    obtain ⟨w, hSplit, hMatches⟩ := Regex.matches_of_matchEnd hMatch
    obtain ⟨id, name, hMarker, rfl⟩ := matches_emoteRegex_iff.mp hMatches
    exact ⟨id, name, hMarker, hSplit⟩
  constructor
  · exact hSound
  · rintro ⟨id, name, hMarker, hSplit⟩
    obtain ⟨x, hMatch⟩ := Regex.exists_matchEnd_of_matches
      (matches_emoteRegex_iff.mpr ⟨id, name, hMarker, rfl⟩) rest
    rw [← hSplit] at hMatch
    obtain ⟨id', name', hMarker', hSplit'⟩ := hSound hMatch
    rw [hMatch, marker_append_inj hMarker hMarker' (hSplit.symm.trans hSplit')]

theorem matchEnd_of_ne {c : QChar} {s : QString} (h : c ≠ 0x5B) : Regex.matchEnd emoteRegex (c :: s) = none := by
  rw [Option.eq_none_iff_forall_ne_some]
  intro rest hMatch
  obtain ⟨id, name, -, hSplit⟩ := matchEnd_emoteRegex_iff.mp hMatch
  exact h (List.cons.inj hSplit).1

namespace ChannelEmotes

variable (channel : ChannelEmotes)

/-- The elements of a text behind a gap, without the first characters of the text. -/
def decode : QString → Nat → QString → List ContentElement
  | gap, _, [] => channel.addTrimmed gap
  | gap, skip + 1, _ :: content => decode gap skip content
  | gap, 0, c :: content =>
    match Regex.matchEnd emoteRegex (c :: content) with
    | none => decode (gap ++ [c]) 0 content
    | some rest =>
      channel.addTrimmed gap ++ .emote (captured ((c :: content).take (content.length + 1 - rest.length))) ::
        decode [] (content.length - rest.length) content

theorem addTrimmed_eq (text : QString) : channel.addTrimmed text = (split (trimmed text)).map channel.wordElement := by
  unfold addTrimmed addTextOrEmote
  split_ifs with hEmpty
  · rw [List.isEmpty_iff.mp hEmpty]
    rfl
  · rfl

theorem globalMatchFrom_drop (pos skip : Nat) (content : QString) (h : skip ≤ content.length) :
    globalMatchFrom pos skip content = globalMatchFrom (pos + skip) 0 (content.drop skip) := by
  induction content generalizing pos skip with
  | nil =>
    obtain rfl : skip = 0 := Nat.le_zero.mp h
    rfl
  | cons c content ih =>
    cases skip with
    | zero => rfl
    | succ skip =>
      rw [globalMatchFrom, ih (pos + 1) skip (Nat.le_of_succ_le_succ h), List.drop_succ_cons]
      congr 1
      omega

theorem decode_drop (gap : QString) (skip : Nat) (content : QString) :
    channel.decode gap skip content = channel.decode gap 0 (content.drop skip) := by
  induction content generalizing skip with
  | nil => cases skip <;> rfl
  | cons c content ih =>
    cases skip with
    | zero => rfl
    | succ skip => exact ih skip

theorem exists_of_matchEnd {c : QChar} {s rest : QString} (h : Regex.matchEnd emoteRegex (c :: s) = some rest) :
    ∃ id name tail, IsMarker id name ∧ marker id name = c :: tail ∧ s = tail ++ rest := by
  obtain ⟨id, name, hMarker, hSplit⟩ := matchEnd_emoteRegex_iff.mp h
  obtain ⟨tail, hTail⟩ : ∃ tail, marker id name = (0x5B : QChar) :: tail := ⟨_, rfl⟩
  rw [hTail, List.cons_append, List.cons.injEq] at hSplit
  exact ⟨id, name, tail, hMarker, by rw [hTail, hSplit.1], hSplit.2⟩

theorem take_append_sub (c : QChar) (tail rest : QString) :
    (c :: (tail ++ rest)).take ((tail ++ rest).length + 1 - rest.length) = c :: tail := by
  rw [List.length_append, show tail.length + rest.length + 1 - rest.length = tail.length + 1 by omega,
    List.take_succ_cons, List.take_left]

theorem length_append_sub (tail rest : QString) : (tail ++ rest).length - rest.length = tail.length := by
  rw [List.length_append, Nat.add_sub_cancel]

theorem addMatches_eq_decode (pre gap content : QString) :
    channel.addMatches (pre ++ gap ++ content) pre.length (globalMatchFrom (pre.length + gap.length) 0 content) =
      channel.decode gap 0 content := by
  induction hLength : content.length using Nat.strong_induction_on generalizing pre gap content with
  | _ n ih =>
    cases content with
    | nil =>
      rw [List.append_nil, globalMatchFrom, addMatches, decode, List.length_append, List.drop_left]
      split_ifs with hGap
      · rfl
      · rw [List.length_eq_zero_iff.mp (by omega : gap.length = 0)]
        rfl
    | cons c content =>
      cases hMatch : Regex.matchEnd emoteRegex (c :: content) with
      | none =>
        have hStep := ih content.length (by simp [← hLength]) pre (gap ++ [c]) content rfl
        rw [globalMatchFrom, decode, hMatch]
        rw [List.length_append, List.length_singleton, ← Nat.add_assoc] at hStep
        dsimp only
        rw [← hStep]
        simp only [List.append_assoc, List.singleton_append]
      | some rest =>
        obtain ⟨id, name, tail, -, hMarker, rfl⟩ := exists_of_matchEnd hMatch
        have hShort : rest.length < n := by
          simp only [List.length_cons, List.length_append] at hLength
          omega
        have hStep := ih rest.length hShort (pre ++ gap ++ c :: tail) [] rest rfl
        have hPos : pre.length + gap.length + 1 + tail.length = (pre ++ gap ++ c :: tail).length + ([] : QString).length := by
          simp only [List.length_append, List.length_cons, List.length_nil]
          omega
        have hDrop : (pre ++ gap ++ c :: (tail ++ rest)).drop pre.length = gap ++ c :: (tail ++ rest) := by
          rw [List.append_assoc, List.drop_left]
        have hSplit : pre ++ gap ++ c :: tail ++ [] ++ rest = pre ++ gap ++ c :: (tail ++ rest) := by simp
        rw [globalMatchFrom, decode, hMatch]
        dsimp only
        rw [take_append_sub, length_append_sub, globalMatchFrom_drop _ _ _ (by simp), List.drop_left, decode_drop,
          List.drop_left, ← hStep, hSplit, addMatches, hDrop, hPos, Nat.add_sub_cancel_left, List.take_left]
        congr 1
        · split_ifs with hGap
          · rfl
          · dsimp only at hGap
            rw [List.length_eq_zero_iff.mp (by omega : gap.length = 0)]
            rfl
        · congr 2
          simp only [List.length_append, List.length_cons]

theorem parseMessageContent_eq_decode (content : QString) :
    (channel.parseMessageContent content).2 = channel.decode [] 0 content :=
  channel.addMatches_eq_decode [] [] content

def NoMarkerIn (word following : QString) : Prop :=
  ∀ start ∈ word.tails, start ≠ [] → Regex.matchEnd emoteRegex (start ++ following) = none

theorem decode_append {word following : QString} (gap : QString) (h : NoMarkerIn word following) :
    channel.decode gap 0 (word ++ following) = channel.decode (gap ++ word) 0 following := by
  induction word generalizing gap with
  | nil => rw [List.nil_append, List.append_nil]
  | cons c word ih =>
    rw [NoMarkerIn, List.tails, List.forall_mem_cons] at h
    rw [List.cons_append, decode, ← List.cons_append, h.1 (List.cons_ne_nil _ _)]
    dsimp only
    rw [ih _ h.2, List.append_assoc, List.singleton_append]

theorem decode_marker (gap : QString) {id name rest : QString} (h : IsMarker id name) :
    channel.decode gap 0 (marker id name ++ rest) =
      channel.addTrimmed gap ++ .emote ⟨name, id⟩ :: channel.decode [] 0 rest := by
  obtain ⟨tail, hTail⟩ : ∃ tail, marker id name = (0x5B : QChar) :: tail := ⟨_, rfl⟩
  have hMatch : Regex.matchEnd emoteRegex (0x5B :: (tail ++ rest)) = some rest :=
    matchEnd_emoteRegex_iff.mpr ⟨id, name, h, by rw [hTail, List.cons_append]⟩
  rw [hTail, List.cons_append, decode, hMatch]
  dsimp only
  rw [take_append_sub, length_append_sub, ← hTail, captured_marker h, decode_drop, List.drop_left]

theorem decode_of_marker {word following : QString} (gap : QString) (h : ¬NoMarkerIn word following) :
    ∃ front back emote elements, word = front ++ back ∧ back ≠ [] ∧ channel.decode gap 0 (word ++ following) =
      channel.addTrimmed (gap ++ front) ++ .emote emote :: elements := by
  induction word generalizing gap with
  | nil => exact absurd (by simp [NoMarkerIn]) h
  | cons c word ih =>
    rw [List.cons_append, decode]
    cases hMatch : Regex.matchEnd emoteRegex (c :: (word ++ following)) with
    | some rest =>
      dsimp only
      exact ⟨[], c :: word, _, _, rfl, List.cons_ne_nil _ _,
        congrArg (channel.addTrimmed · ++ _) (List.append_nil gap).symm⟩
    | none =>
      have hRest : ¬NoMarkerIn word following := by
        intro hWord
        apply h
        rw [NoMarkerIn, List.tails, List.forall_mem_cons]
        exact ⟨fun _ => hMatch, hWord⟩
      obtain ⟨front, back, emote, elements, rfl, hBack, hDecode⟩ := ih (gap ++ [c]) hRest
      refine ⟨c :: front, back, emote, elements, rfl, hBack, hDecode.trans ?_⟩
      rw [List.append_assoc, List.singleton_append]

theorem name_wordElement (word : QString) : (channel.wordElement word).name = word := by
  unfold wordElement
  cases hFind : channel.findThirdPartyEmote word with
  | none => rfl
  | some emote =>
    have hNamed {emotes : List ThirdPartyEmote} (h : emotes.find? (·.name = word) = some emote) : emote.name = word := by
      simpa using List.find?_some h
    unfold findThirdPartyEmote at hFind
    rw [Option.or_eq_some_iff, Option.or_eq_some_iff, Option.or_eq_some_iff] at hFind
    rcases hFind with h | ⟨-, h | ⟨-, h | ⟨-, h⟩⟩⟩
    · exact hNamed h
    · exact hNamed h
    · exact hNamed h
    · exact hNamed h

theorem isEmote_wordElement (word : QString) : (channel.wordElement word).isEmote = false := by
  unfold wordElement
  cases channel.findThirdPartyEmote word with
  | none => rfl
  | some emote => rfl

theorem map_wordElement_inj {words words' : List QString} :
    words.map channel.wordElement = words'.map channel.wordElement ↔ words = words' := by
  constructor
  · intro h
    have hNames := congrArg (List.map ContentElement.name) h
    rw [List.map_map, List.map_map] at hNames
    have hId : ContentElement.name ∘ channel.wordElement = id := funext channel.name_wordElement
    rwa [hId, List.map_id, List.map_id] at hNames
  · exact congrArg _

theorem addTrimmed_eq_iff {text : QString} {words : List QString} (hWords : split text = words) :
    channel.addTrimmed text = words.map channel.wordElement ↔ Unpadded words.flatten := by
  rw [addTrimmed_eq, map_wordElement_inj, ← hWords, split_trimmed_iff]

def isNative (word : QString) : Bool := (channel.foundEmote word).isSome

def sent (words : List QString) : QString := spaced (words.map channel.convertWord)

def NoOtherMarkers : List QString → Prop
  | [] => True
  | word :: after =>
    (channel.isNative word = false → NoMarkerIn word (channel.sent after)) ∧ NoOtherMarkers after

def UnpaddedRuns (words : List QString) : Prop := ∀ run ∈ words.splitOnP channel.isNative, Unpadded run.flatten

def WellNamed : Prop :=
  ∀ emote ∈ channel.nativeKickEmotes_ ++ (channel.availableKickEmotes_ ++ channel.globalEmotes),
    IsMarker emote.id emote.name

theorem of_foundEmote {word : QString} {emote : NativeEmote} (hNames : channel.WellNamed)
    (h : channel.foundEmote word = some emote) : emote.name = word ∧ IsMarker emote.id word := by
  have hNamed {emotes : List NativeEmote} (hFind : emotes.find? (·.name = word) = some emote) :
      emote.name = word ∧ emote ∈ emotes :=
    ⟨by simpa using List.find?_some hFind, List.mem_of_find?_eq_some hFind⟩
  obtain ⟨hName, hMem⟩ : emote.name = word ∧
      emote ∈ channel.nativeKickEmotes_ ++ (channel.availableKickEmotes_ ++ channel.globalEmotes) := by
    unfold foundEmote at h
    rw [Option.or_eq_some_iff, Option.or_eq_some_iff] at h
    rw [List.mem_append, List.mem_append]
    rcases h with h | ⟨-, h | ⟨-, h⟩⟩
    · exact ⟨(hNamed h).1, .inl (hNamed h).2⟩
    · exact ⟨(hNamed h).1, .inr (.inl (hNamed h).2)⟩
    · exact ⟨(hNamed h).1, .inr (.inr (hNamed h).2)⟩
  refine ⟨hName, ?_⟩
  rw [← hName]
  exact hNames emote hMem

theorem append_cons_inj {α : Type} {p : α → Bool} {l l' r r' : List α} {x x' : α} (hl : ∀ y ∈ l, p y = false)
    (hl' : ∀ y ∈ l', p y = false) (hx : p x = true) (hx' : p x' = true) :
    l ++ x :: r = l' ++ x' :: r' ↔ l = l' ∧ x = x' ∧ r = r' := by
  induction l generalizing l' with
  | nil =>
    cases l' with
    | nil => simp
    | cons y l' =>
      refine iff_of_false ?_ (by simp)
      rintro ⟨⟩
      rw [hl' x List.mem_cons_self] at hx
      cases hx
  | cons y l ih =>
    cases l' with
    | nil =>
      refine iff_of_false ?_ (by simp)
      rintro ⟨⟩
      rw [hl x' List.mem_cons_self] at hx'
      cases hx'
    | cons y' l' =>
      rw [List.forall_mem_cons] at hl hl'
      rw [List.cons_append, List.cons_append, List.cons.injEq, ih hl.2 hl'.2, List.cons.injEq, and_assoc]

theorem exists_append_of_append_eq {α : Type} {p : α → Bool} {l l' r r' : List α} {x : α}
    (hl' : ∀ y ∈ l', p y = false) (hx : p x = true) (h : l ++ x :: r = l' ++ r') : ∃ t, l = l' ++ t := by
  rcases List.append_eq_append_iff.mp h with ⟨t, hLeft, hRight⟩ | ⟨t, hLeft, -⟩
  · cases t with
    | nil => exact ⟨[], by rw [hLeft, List.append_nil, List.append_nil]⟩
    | cons y t =>
      obtain rfl := (List.cons.inj hRight).1
      rw [hl' x (by simp [hLeft])] at hx
      cases hx
  · exact ⟨t, hLeft⟩

theorem isEmote_of_mem_map {words : List QString} : ∀ e ∈ words.map channel.wordElement, e.isEmote = false := by
  intro e hMem
  obtain ⟨word, -, rfl⟩ := List.mem_map.mp hMem
  exact channel.isEmote_wordElement word

theorem decode_ne_of_marker {run : List QString} {word following : QString} {rest : List ContentElement}
    (hRun : ∀ w ∈ run, SPACE ∉ w) (hWord : SPACE ∉ word) (h : ¬NoMarkerIn word following) :
    channel.decode (spaced run ++ [SPACE]) 0 (word ++ following) ≠
      ((run ++ [word]).filter fun w => !w.isEmpty).map channel.wordElement ++ rest := by
  intro hEq
  obtain ⟨front, back, emote, elements, rfl, hBack, hDecode⟩ :=
    channel.decode_of_marker (spaced run ++ [SPACE]) h
  rw [hDecode] at hEq
  obtain ⟨t, hPrefix⟩ := exists_append_of_append_eq channel.isEmote_of_mem_map rfl hEq
  have hNames := congrArg (fun elements => ((elements.map ContentElement.name).flatten).length) hPrefix
  have hId : ContentElement.name ∘ channel.wordElement = id := funext channel.name_wordElement
  have hText : split (spaced run ++ [SPACE] ++ front) =
      (run.filter fun w => !w.isEmpty) ++ [front].filter fun w => !w.isEmpty := by
    rw [List.append_assoc, List.singleton_append, split_append, split_spaced hRun,
      split_of_not_mem fun hMem => hWord (List.mem_append_left _ hMem)]
  have hShort : (split (trimmed (spaced run ++ [SPACE] ++ front))).flatten.length ≤
      run.flatten.length + front.length := by
    refine (congrArg List.length (flatten_split _)).le.trans ((length_filter_trimmed _).trans ?_)
    rw [← flatten_split, hText, List.flatten_append, List.flatten_filter_not_isEmpty,
      List.flatten_filter_not_isEmpty, List.length_append]
    simp
  have hPositive := List.length_pos_of_ne_nil hBack
  rw [addTrimmed_eq, List.map_map, hId, List.map_id, List.map_append, List.map_map, hId, List.map_id,
    List.flatten_append, List.length_append, List.flatten_filter_not_isEmpty, List.flatten_append,
    List.length_append] at hNames
  simp only [List.flatten_cons, List.flatten_nil, List.append_nil, List.length_append] at hNames
  omega

theorem decode_sent_eq_iff (hNames : channel.WellNamed) {words run : List QString}
    (hWords : ∀ word ∈ words, SPACE ∉ word) (hRun : ∀ word ∈ run, SPACE ∉ word) :
    channel.decode (spaced run) 0 (channel.sent words) =
        (run.filter fun w => !w.isEmpty).map channel.wordElement ++
          (words.filter fun w => !w.isEmpty).map channel.shown ↔
      channel.NoOtherMarkers words ∧
        ∀ r ∈ (words.splitOnP channel.isNative).modifyHead (run ++ ·), Unpadded r.flatten := by
  induction words generalizing run with
  | nil =>
    rw [List.filter_nil, List.map_nil, List.append_nil, List.splitOnP_nil, List.modifyHead_cons, List.append_nil,
      List.forall_mem_singleton, NoOtherMarkers, true_and, ← List.flatten_filter_not_isEmpty]
    exact channel.addTrimmed_eq_iff (split_spaced hRun)
  | cons word words ih =>
    rw [List.forall_mem_cons] at hWords
    have hSent : channel.sent (word :: words) = SPACE :: (channel.convertWord word ++ channel.sent words) := rfl
    have hStep (content : QString) : channel.decode (spaced run) 0 (SPACE :: content) =
        channel.decode (spaced run ++ [SPACE]) 0 content := by
      rw [decode, matchEnd_of_ne (by decide)]
    rw [hSent, hStep, List.splitOnP_cons_eq_if_modifyHead, NoOtherMarkers]
    cases hFound : channel.foundEmote word with
    | none =>
      have hNative : channel.isNative word = false := by rw [isNative, hFound]; rfl
      have hConvert : channel.convertWord word = word := by rw [convertWord, hFound]
      have hShown : channel.shown word = channel.wordElement word := by rw [shown, hFound]
      have hElements : (run.filter fun w => !w.isEmpty).map channel.wordElement ++
          ((word :: words).filter fun w => !w.isEmpty).map channel.shown =
            ((run ++ [word]).filter fun w => !w.isEmpty).map channel.wordElement ++
              (words.filter fun w => !w.isEmpty).map channel.shown := by
        rw [List.filter_append, List.map_append, List.append_assoc, ← List.singleton_append, List.filter_append,
          List.map_append]
        congr 2
        by_cases hEmpty : word = []
        · simp [hEmpty]
        · simp [hEmpty, hShown]
      rw [hConvert, hElements, if_neg (by simp [hNative]), List.modifyHead_modifyHead]
      by_cases hMarker : NoMarkerIn word (channel.sent words)
      · have hSpaced : spaced run ++ [SPACE] ++ word = spaced (run ++ [word]) := by simp [spaced]
        have hRun' : ∀ w ∈ run ++ [word], SPACE ∉ w := by
          rw [List.forall_mem_append, List.forall_mem_singleton]
          exact ⟨hRun, hWords.1⟩
        have hHead : (run ++ ·) ∘ List.cons word = ((run ++ [word]) ++ ·) := by
          funext r
          simp
        rw [channel.decode_append _ hMarker, hSpaced, ih hWords.2 hRun', hHead]
        exact and_congr_left fun _ => (and_iff_right fun _ => hMarker).symm
      · refine iff_of_false (channel.decode_ne_of_marker hRun hWords.1 hMarker) ?_
        rintro ⟨⟨hFirst, -⟩, -⟩
        exact hMarker (hFirst hNative)
    | some emote =>
      obtain ⟨hName, hMarker⟩ := channel.of_foundEmote hNames hFound
      have hNative : channel.isNative word = true := by rw [isNative, hFound]; rfl
      have hConvert : channel.convertWord word = marker emote.id word := by
        rw [convertWord, hFound]
        exact if_neg (by simpa using hMarker.id_ne)
      have hShown : channel.shown word = .emote ⟨word, emote.id⟩ := by
        rw [shown, hFound, ← hName]
      have hRest := @ih [] hWords.2 (by rintro _ ⟨⟩)
      have hHead (runs : List (List QString)) : runs.modifyHead ([] ++ ·) = runs := by
        cases runs with
        | nil => rfl
        | cons r runs => rfl
      have hRunWords : split (spaced run ++ [SPACE]) = run.filter fun w => !w.isEmpty := by
        rw [split_append_space, split_spaced hRun]
      have hElement (e : ContentElement) (hMem : e ∈ channel.addTrimmed (spaced run ++ [SPACE])) :
          e.isEmote = false := by
        rw [addTrimmed_eq] at hMem
        exact channel.isEmote_of_mem_map e hMem
      rw [hHead] at hRest
      rw [hConvert, decode_marker _ _ hMarker, List.filter_cons_of_pos (by simpa using hMarker.name_ne), List.map_cons,
        hShown, append_cons_inj hElement channel.isEmote_of_mem_map rfl rfl,
        channel.addTrimmed_eq_iff hRunWords, List.flatten_filter_not_isEmpty, if_pos hNative, List.modifyHead_cons,
        List.append_nil, List.forall_mem_cons]
      rw [show channel.decode [] 0 (channel.sent words) =
        (words.filter fun w => !w.isEmpty).map channel.shown ↔ _ from hRest]
      simp only [hNative, Bool.true_eq_false, false_implies, true_and]
      exact and_left_comm

theorem addTrimmed_cons_space (gap : QString) : channel.addTrimmed (SPACE :: gap) = channel.addTrimmed gap := by
  have hTrimmed : trimmed (SPACE :: gap) = trimmed gap := by
    rw [trimmed, List.dropWhile_cons_of_pos (by decide)]
    rfl
  rw [addTrimmed, addTrimmed, hTrimmed]

theorem decode_cons_space (gap : QString) (skip : Nat) (content : QString) :
    channel.decode (SPACE :: gap) skip content = channel.decode gap skip content := by
  induction content generalizing gap skip with
  | nil =>
    cases skip with
    | zero | succ skip => exact channel.addTrimmed_cons_space gap
  | cons c content ih =>
    cases skip with
    | succ skip => exact ih gap skip
    | zero =>
      rw [decode, decode]
      cases Regex.matchEnd emoteRegex (c :: content) with
      | none => exact ih (gap ++ [c]) 0
      | some rest =>
        dsimp only
        rw [addTrimmed_cons_space]

theorem spaced_eq {words : List QString} (h : words ≠ []) : spaced words = SPACE :: [SPACE].intercalate words := by
  cases words with
  | nil => exact absurd rfl h
  | cons word words =>
    clear h
    induction words generalizing word with
    | nil => simp [spaced]
    | cons word' words ih =>
      have hSpaced : spaced (word :: word' :: words) = SPACE :: (word ++ spaced (word' :: words)) := rfl
      rw [hSpaced, ih, List.intercalate_cons_cons, List.append_assoc]
      rfl

theorem convertEmotesForSending_eq (text : QString) : channel.convertEmotesForSending text =
    [SPACE].intercalate ((text.splitOn SPACE).map channel.convertWord) := by
  unfold convertEmotesForSending
  split_ifs with hEmpty
  · have hConvert : channel.convertWord = id := by
      simp only [Bool.and_eq_true, List.isEmpty_iff] at hEmpty
      funext word
      rw [convertWord, foundEmote, hEmpty.1.1, hEmpty.1.2, hEmpty.2]
      rfl
    rw [hConvert, List.map_id, List.intercalate_splitOn]
  · rfl

def clapping : ChannelEmotes := { globalEmotes := [⟨lit "Clap", lit "37218"⟩] }

end ChannelEmotes

end Chatterino.Kick
