import Chatterino.Ignores.ReplacementStep
import Chatterino.Messages.TextElements

/-! # The words of a message

The words are added one after the other, with the Twitch emotes that start and end in them. The
text is covered if its words are read as they are and the emotes are where they stand in it.
-/

namespace Chatterino.Messages

open QString Ignores

variable (env : Surroundings)

structure WordState where
  cursor : Int
  word : QString
  twitchEmotes : List TwitchEmoteOccurrence
  text : TextState × List MessageElement

def doesWordContainATwitchEmote (cursor : Int) (word : QString)
    (twitchEmotes : List TwitchEmoteOccurrence) : Bool :=
  match twitchEmotes with
  | [] => false
  | currentTwitchEmote :: _ =>
    let wordEnd := cursor + word.length
    !(currentTwitchEmote.start < cursor || wordEnd < currentTwitchEmote.end_)

def addTwitchEmote (currentTwitchEmote : TwitchEmoteOccurrence) (s : WordState) : WordState where
  cursor := s.cursor + currentTwitchEmote.name.length
  word := s.word.drop currentTwitchEmote.name.length
  twitchEmotes := s.twitchEmotes.tail
  text := (s.text.1, s.text.2 ++ [.EmoteElement currentTwitchEmote.ptr [.Emote] true currentTwitchEmote.name])

def addPreText (currentTwitchEmote : TwitchEmoteOccurrence) (s : WordState) : WordState :=
  let preText := s.word.take (currentTwitchEmote.start - s.cursor).toNat
  { s with
    cursor := s.cursor + preText.length
    word := s.word.drop preText.length
    text := addText env preText s.text }

/-- The loop over the emotes of a word. An emote takes two turns at most. -/
def addWordEmotes : Nat → WordState → WordState
  | 0, s => s
  | fuel + 1, s =>
    match s.twitchEmotes with
    | [] => s
    | currentTwitchEmote :: _ =>
      if doesWordContainATwitchEmote s.cursor s.word s.twitchEmotes then
        if currentTwitchEmote.start = s.cursor then
          let s := addTwitchEmote currentTwitchEmote s
          if s.word = [] then { s with cursor := s.cursor + 1 }
          else addWordEmotes fuel { s with text := (s.text.1, setBackTrailingSpace false s.text.2) }
        else addWordEmotes fuel (addPreText env currentTwitchEmote s)
      else s

def addWord (s : WordState) (word : QString) : WordState :=
  if word = [] then { s with cursor := s.cursor + 1 }
  else
    let s := addWordEmotes env (2 * s.twitchEmotes.length) { s with word := word }
    if s.word = [] then s
    else { s with cursor := s.cursor + (s.word.length + 1), text := addText env s.word s.text }

def addWords (words : List QString) (twitchEmotes : List TwitchEmoteOccurrence)
    (text : TextState × List MessageElement) : TextState × List MessageElement :=
  (words.foldl (addWord env) ⟨0, [], twitchEmotes, text⟩).text

/-- From a position on, the pieces are the text without its spaces. No piece has a space. -/
inductive Spells : Nat → QString → List (Nat × Piece) → Prop
  | nil {position : Nat} : Spells position [] []
  | space {position : Nat} {rest : QString} {tiles : List (Nat × Piece)} :
      Spells (position + 1) rest tiles → Spells position (0x20 :: rest) tiles
  | piece {position : Nat} {piece : Piece} {rest : QString} {tiles : List (Nat × Piece)} :
      piece.string ≠ [] → 0x20 ∉ piece.string → Spells (position + piece.string.length) rest tiles →
        Spells position (piece.string ++ rest) ((position, piece) :: tiles)

namespace Spells

variable {position : Nat} {text text' : QString} {tiles tiles' : List (Nat × Piece)}

theorem append (h : Spells position text tiles) (h' : Spells (position + text.length) text' tiles') :
    Spells position (text ++ text') (tiles ++ tiles') := by
  induction h with
  | nil => exact h'
  | space _ ih =>
    refine .space (ih ?_)
    rwa [List.length_cons, ← Nat.add_assoc, Nat.add_right_comm] at h'
  | piece hNil hSpace _ ih =>
    rw [List.append_assoc]
    refine .piece hNil hSpace (ih ?_)
    rwa [List.length_append, ← Nat.add_assoc] at h'

theorem not_mem_space (h : Spells position text tiles) : ∀ tile ∈ tiles, 0x20 ∉ tile.2.string := by
  induction h with
  | nil => simp
  | space _ ih => exact ih
  | piece _ hSpace _ ih => exact List.forall_mem_cons.mpr ⟨hSpace, ih⟩

theorem unique (h : Spells position text tiles) (h' : Spells position text tiles')
    (hPieces : tiles.map Prod.snd = tiles'.map Prod.snd) : tiles = tiles' := by
  induction h generalizing tiles' with
  | nil =>
    cases tiles' with
    | nil => rfl
    | cons tile tiles' => cases hPieces
  | @space position rest tiles _ ih =>
    generalize hText : 0x20 :: rest = text at h'
    cases h' with
    | nil => cases hText
    | space h' =>
      cases hText
      exact ih h' hPieces
    | @piece _ piece _ _ hNil hSpace _ =>
      cases hString : piece.string with
      | nil => exact absurd hString hNil
      | cons c string =>
        rw [hString, List.cons_append, List.cons.injEq] at hText
        rw [hString, ← hText.1] at hSpace
        exact absurd List.mem_cons_self hSpace
  | @piece position piece rest tiles hNil hSpace _ ih =>
    generalize hText : piece.string ++ rest = text at h'
    cases h' with
    | nil => exact absurd (List.append_eq_nil_iff.mp hText).1 hNil
    | space _ =>
      cases hString : piece.string with
      | nil => exact absurd hString hNil
      | cons c string =>
        rw [hString, List.cons_append, List.cons.injEq] at hText
        rw [hString, hText.1] at hSpace
        exact absurd List.mem_cons_self hSpace
    | @piece _ piece' _ tiles' _ _ h' =>
      rw [List.map_cons, List.map_cons, List.cons.injEq] at hPieces
      obtain ⟨hPiece, hPieces⟩ := hPieces
      have hPiece' : piece = piece' := hPiece
      subst hPiece'
      rw [List.append_cancel_left_eq] at hText
      subst hText
      rw [ih h' hPieces]

theorem of_covers {pieces : List Piece} (h : Covers text pieces) (hSpace : 0x20 ∉ text) (position : Nat) :
    ∃ tiles, tiles.map Prod.snd = pieces ∧ Spells position text tiles ∧
      ∀ tile ∈ tiles, tile.2.isEmote = false := by
  induction pieces generalizing text position with
  | nil =>
    obtain rfl : [] = text := h.string
    exact ⟨[], rfl, .nil, by simp⟩
  | cons piece pieces ih =>
    have hText : piece.string ++ pieces.flatMap Piece.string = text := by
      rw [← h.string, List.flatMap_cons]
    have hParts := not_mem_of_append hText hSpace
    have hRest : Covers (pieces.flatMap Piece.string) pieces :=
      ⟨rfl, fun p hp => h.ne_nil p (List.mem_cons_of_mem _ hp),
        fun p hp => h.not_isEmote p (List.mem_cons_of_mem _ hp)⟩
    obtain ⟨tiles, hPieces, hSpells, hPlain⟩ := ih hRest hParts.2 (position + piece.string.length)
    refine ⟨(position, piece) :: tiles, by rw [List.map_cons, hPieces], ?_, ?_⟩
    · rw [← hText]
      exact .piece (h.ne_nil piece List.mem_cons_self) hParts.1 hSpells
    · exact List.forall_mem_cons.mpr ⟨h.not_isEmote piece List.mem_cons_self, hPlain⟩

end Spells

def tileOf (emote : TwitchEmoteOccurrence) : Nat × Piece :=
  (emote.start.toNat, .emote emote.ptr emote.name)

def Between : Int → Int → List TwitchEmoteOccurrence → Prop
  | c, d, [] => c ≤ d
  | c, d, emote :: emotes => c ≤ emote.start ∧ 0x20 ∉ emote.name ∧ Between (emote.end_ + 1) d emotes

section Words

variable {content tail word : QString} {c : Nat} {emote : TwitchEmoteOccurrence}

theorem drop_start (hContent : content.drop c = word ++ tail) (hStart : (c : Int) ≤ emote.start)
    (hFits : emote.start ≤ c + word.length) :
    content.drop emote.start.toNat = word.drop (emote.start - c).toNat ++ tail := by
  obtain ⟨k, hk⟩ : ∃ k : Nat, emote.start = c + k := ⟨(emote.start - c).toNat, by omega⟩
  have hLength : k ≤ word.length := by omega
  rw [hk, show ((c : Int) + k).toNat = c + k by omega, show ((c : Int) + k - c).toNat = k by omega,
    ← List.drop_drop, hContent, List.drop_append_of_le_length hLength]

theorem drop_word_eq (hStands : emote.Stands content) (hContent : content.drop c = word ++ tail)
    (hStart : (c : Int) ≤ emote.start) (hEnd : emote.end_ < c + word.length) :
    word.drop (emote.start - c).toNat = emote.name ++ word.drop (emote.end_ + 1 - c).toNat := by
  obtain ⟨-, -, hLength, hPrefix⟩ := TwitchEmoteOccurrence.stands_iff.mp hStands
  have hLe := hStands.start_le_end
  rw [drop_start hContent hStart (by omega)] at hPrefix
  have hShort : emote.name.length ≤ (word.drop (emote.start - c).toNat).length := by
    rw [List.length_drop]
    omega
  obtain ⟨rest, hRest⟩ := List.prefix_of_prefix_length_le hPrefix (List.prefix_append _ _) hShort
  have hDrop : (word.drop (emote.start - c).toNat).drop emote.name.length = rest := by
    rw [← hRest, List.drop_left]
  rw [List.drop_drop, show (emote.start - c).toNat + emote.name.length = (emote.end_ + 1 - c).toNat by omega]
    at hDrop
  rw [hDrop, hRest]

theorem name_length_eq (hStands : emote.Stands content) :
    (emote.name.length : Int) = emote.end_ + 1 - emote.start := by
  obtain ⟨-, -, hLength, -⟩ := TwitchEmoteOccurrence.stands_iff.mp hStands
  omega

theorem mem_name_of_getElem? (hStands : emote.Stands content) {p : Nat} {x : QChar}
    (hp : content[p]? = some x) (hStart : emote.start ≤ p) (hEnd : p ≤ emote.end_) : x ∈ emote.name := by
  have hNonneg := hStands.start_nonneg
  rw [← hStands.text]
  refine List.mem_iff_getElem?.mpr ⟨p - emote.start.toNat, ?_⟩
  rw [List.getElem?_take, if_pos (by omega), List.getElem?_drop,
    show emote.start.toNat + (p - emote.start.toNat) = p by omega, hp]

end Words

variable {env}

def atEmote (env : Surroundings) (emote : TwitchEmoteOccurrence) (s : WordState) : WordState :=
  if emote.start = s.cursor then s else addPreText env emote s

theorem doesWordContain_cons {cursor : Int} {word : QString} {emote : TwitchEmoteOccurrence}
    {emotes : List TwitchEmoteOccurrence} :
    doesWordContainATwitchEmote cursor word (emote :: emotes) ↔
      cursor ≤ emote.start ∧ emote.end_ ≤ cursor + word.length := by
  simp [doesWordContainATwitchEmote]

theorem length_word_addPreText (emote : TwitchEmoteOccurrence) (s : WordState) :
    (addPreText env emote s).cursor + (addPreText env emote s).word.length =
      s.cursor + s.word.length := by
  simp only [addPreText, List.length_drop, List.length_take]
  omega

theorem cursor_addPreText {emote : TwitchEmoteOccurrence} {s : WordState}
    (hStart : s.cursor ≤ emote.start) (hEnd : emote.start ≤ s.cursor + s.word.length) :
    (addPreText env emote s).cursor = emote.start := by
  simp only [addPreText, List.length_take]
  omega

theorem addWordEmotes_of_fits {fuel : Nat} {s : WordState} {emote : TwitchEmoteOccurrence}
    {emotes : List TwitchEmoteOccurrence} (hEmotes : s.twitchEmotes = emote :: emotes)
    (hFuel : 2 * s.twitchEmotes.length ≤ fuel) (hLe : emote.start ≤ emote.end_)
    (hFits : doesWordContainATwitchEmote s.cursor s.word s.twitchEmotes) :
    ∃ fuel', 2 * emotes.length ≤ fuel' ∧ addWordEmotes env fuel s =
      let s := addTwitchEmote emote (atEmote env emote s)
      if s.word = [] then { s with cursor := s.cursor + 1 }
      else addWordEmotes env fuel' { s with text := (s.text.1, setBackTrailingSpace false s.text.2) } := by
  rw [hEmotes, List.length_cons] at hFuel
  obtain ⟨fuel, rfl⟩ : ∃ k, fuel = k + 2 := ⟨fuel - 2, by omega⟩
  have hBounds := hFits
  rw [hEmotes, doesWordContain_cons] at hBounds
  have hTurn (k : Nat) (s : WordState) (hEmotes : s.twitchEmotes = emote :: emotes)
      (hFits : doesWordContainATwitchEmote s.cursor s.word s.twitchEmotes) :
      addWordEmotes env (k + 1) s =
        if emote.start = s.cursor then
          let s := addTwitchEmote emote s
          if s.word = [] then { s with cursor := s.cursor + 1 }
          else addWordEmotes env k { s with text := (s.text.1, setBackTrailingSpace false s.text.2) }
        else addWordEmotes env k (addPreText env emote s) := by
    rw [addWordEmotes.eq_2]
    simp only [hEmotes] at hFits ⊢
    rw [if_pos hFits]
  by_cases hStart : emote.start = s.cursor
  · refine ⟨fuel + 1, by omega, ?_⟩
    rw [hTurn (fuel + 1) s hEmotes hFits, if_pos hStart, atEmote, if_pos hStart]
  · refine ⟨fuel, by omega, ?_⟩
    have hCursor : (addPreText env emote s).cursor = emote.start :=
      cursor_addPreText hBounds.1 (hLe.trans hBounds.2)
    have hLength : (addPreText env emote s).cursor + (addPreText env emote s).word.length =
      s.cursor + s.word.length := length_word_addPreText emote s
    have hFits' : doesWordContainATwitchEmote (addPreText env emote s).cursor
        (addPreText env emote s).word (addPreText env emote s).twitchEmotes := by
      rw [show (addPreText env emote s).twitchEmotes = emote :: emotes from hEmotes,
        doesWordContain_cons, hLength, hCursor]
      exact ⟨le_rfl, hBounds.2⟩
    rw [hTurn (fuel + 1) s hEmotes hFits, if_neg hStart,
      hTurn fuel (addPreText env emote s) hEmotes hFits', if_pos hCursor.symm, atEmote, if_neg hStart]

theorem addWordEmotes_of_not_fits {fuel : Nat} {s : WordState}
    (hFits : doesWordContainATwitchEmote s.cursor s.word s.twitchEmotes = false) :
    addWordEmotes env fuel s = s := by
  cases fuel with
  | zero => rfl
  | succ fuel =>
    rw [addWordEmotes.eq_2]
    split
    · rfl
    · rw [hFits]
      rfl

def AppendsTiles (tiles : List (Nat × Piece)) (elements elements' : List MessageElement) : Prop :=
  readElements elements' = readElements elements ++ tiles.map Prod.snd

theorem AppendsTiles.trans {tiles tiles' : List (Nat × Piece)}
    {elements elements' elements'' : List MessageElement} (h : AppendsTiles tiles elements elements')
    (h' : AppendsTiles tiles' elements' elements'') : AppendsTiles (tiles ++ tiles') elements elements'' := by
  unfold AppendsTiles at *
  rw [h', h, List.append_assoc, List.map_append]

def emoteTiles (tiles : List (Nat × Piece)) : List (Nat × Piece) := tiles.filter fun tile => tile.2.isEmote

theorem emoteTiles_append (tiles tiles' : List (Nat × Piece)) :
    emoteTiles (tiles ++ tiles') = emoteTiles tiles ++ emoteTiles tiles' := List.filter_append ..

theorem addText_tiles {state : TextState} (hPlain : Plain env state) {text : QString}
    (hSpace : 0x20 ∉ text) (position : Nat) {s : TextState × List MessageElement} (hState : s.1 = state) :
    (addText env text s).1 = state ∧ ∃ tiles, AppendsTiles tiles s.2 (addText env text s).2 ∧
      Spells position text tiles ∧ emoteTiles tiles = [] := by
  obtain ⟨state', elements⟩ := s
  cases hState
  obtain ⟨hKept, pieces, hRead, hCovers⟩ := addText_spec hPlain hSpace elements
  obtain ⟨tiles, rfl, hSpells, hNone⟩ := Spells.of_covers hCovers hSpace position
  refine ⟨hKept, tiles, hRead, hSpells, ?_⟩
  rw [emoteTiles, List.filter_eq_nil_iff]
  intro tile hTile
  rw [hNone tile hTile]
  exact Bool.false_ne_true

theorem atEmote_spec {state : TextState} (hPlain : Plain env state) {s : WordState} {c : Nat}
    {emote : TwitchEmoteOccurrence} (hState : s.text.1 = state) (hCursor : s.cursor = c)
    (hSpace : 0x20 ∉ s.word) (hStart : s.cursor ≤ emote.start)
    (hEnd : emote.start ≤ s.cursor + s.word.length) :
    (atEmote env emote s).cursor = emote.start ∧
      (atEmote env emote s).word = s.word.drop (emote.start - c).toNat ∧
      (atEmote env emote s).twitchEmotes = s.twitchEmotes ∧ (atEmote env emote s).text.1 = state ∧
      ∃ tiles, AppendsTiles tiles s.text.2 (atEmote env emote s).text.2 ∧
        Spells c (s.word.take (emote.start - c).toNat) tiles ∧ emoteTiles tiles = [] := by
  unfold atEmote
  split_ifs with hAt
  · have hZero : (emote.start - c).toNat = 0 := by omega
    rw [hZero, List.drop_zero, List.take_zero]
    exact ⟨hAt.symm, rfl, rfl, hState, [], (List.append_nil _).symm, .nil, rfl⟩
  · have hPreText : 0x20 ∉ s.word.take (emote.start - c).toNat := fun hMem =>
      hSpace (List.mem_of_mem_take hMem)
    have hText := addText_tiles hPlain hPreText c hState
    refine ⟨cursor_addPreText hStart hEnd, ?_, rfl, ?_, ?_⟩
    · simp only [addPreText, hCursor, List.length_take]
      rw [Nat.min_eq_left (by omega)]
    · simp only [addPreText, hCursor]
      exact hText.1
    · simp only [addPreText, hCursor]
      exact hText.2

structure TakesWithin (c : Nat) (s s' : WordState) (taken : List TwitchEmoteOccurrence) : Prop where
  added : ∃ done tiles, s.word = done ++ s'.word ∧ AppendsTiles tiles s.text.2 s'.text.2 ∧
    Spells c done tiles ∧ emoteTiles tiles = taken.map tileOf ∧ Between c (c + done.length) taken ∧
    s'.cursor = c + done.length + (if s'.word = [] then 1 else 0) ∧
    (done ≠ [] → ∃ emote ∈ taken, emote.end_ + 1 = c + done.length)
  stops : s'.word = [] ∨ doesWordContainATwitchEmote s'.cursor s'.word s'.twitchEmotes = false

/-- The last emote that the loop has taken ends with the space after the word. -/
structure TakesSpace (c : Nat) (s s' : WordState) (taken : List TwitchEmoteOccurrence) : Prop where
  added : ∃ (front : List TwitchEmoteOccurrence) (emote : TwitchEmoteOccurrence) (new : List Piece)
    (d : Int), taken = front ++ [emote] ∧ Between c d front ∧ d ≤ emote.start ∧
    d < c + s.word.length ∧ emote.end_ = c + s.word.length ∧
    readElements s'.text.2 = readElements s.text.2 ++ new ∧ .emote emote.ptr emote.name ∈ new
  ends : s'.word = []

theorem addTwitchEmote_within {state : TextState} (hPlain : Plain env state) {content tail : QString}
    {c : Nat} {s : WordState} {emote : TwitchEmoteOccurrence} (hState : s.text.1 = state)
    (hCursor : s.cursor = c) (hSpace : 0x20 ∉ s.word) (hContent : content.drop c = s.word ++ tail)
    (hStands : emote.Stands content) (hStart : (c : Int) ≤ emote.start)
    (hEnd : emote.end_ < c + s.word.length) :
    let s' := addTwitchEmote emote (atEmote env emote s)
    let n := (emote.end_ + 1 - c).toNat
    s'.cursor = emote.end_ + 1 ∧ s'.word = s.word.drop n ∧ s'.twitchEmotes = s.twitchEmotes.tail ∧
      s'.text.1 = state ∧ ∃ tiles, AppendsTiles tiles s.text.2 s'.text.2 ∧ Spells c (s.word.take n) tiles ∧
        emoteTiles tiles = [tileOf emote] := by
  intro s' n
  have hLe := hStands.start_le_end
  have hLength := name_length_eq hStands
  obtain ⟨hAt, hWord, hEmotes, hState', tiles, hAppends, hSpells, hNone⟩ :=
    atEmote_spec hPlain hState hCursor hSpace (hCursor.trans_le hStart) (by omega)
  have hName := drop_word_eq hStands hContent hStart hEnd
  have hTake : s.word.take n = s.word.take (emote.start - c).toNat ++ emote.name := by
    have hSplit := List.take_append_drop (emote.start - c).toNat s.word
    rw [hName, ← List.append_assoc] at hSplit
    have hPrefix := @List.take_left _ (s.word.take (emote.start - c).toNat ++ emote.name)
      (s.word.drop (emote.end_ + 1 - c).toNat)
    rw [hSplit, List.length_append, List.length_take] at hPrefix
    rw [← hPrefix]
    congr 1
    omega
  have hNameSpace : 0x20 ∉ emote.name := fun hMem =>
    hSpace (List.mem_of_mem_take (hTake ▸ List.mem_append_right _ hMem))
  have hNameNil := (TwitchEmoteOccurrence.stands_iff.mp hStands).2.1
  refine ⟨?_, ?_, ?_, hState', tiles ++ [tileOf emote], ?_, ?_, ?_⟩
  · change (atEmote env emote s).cursor + emote.name.length = emote.end_ + 1
    omega
  · change (atEmote env emote s).word.drop emote.name.length = s.word.drop n
    rw [hWord, List.drop_drop]
    congr 1
    omega
  · change (atEmote env emote s).twitchEmotes.tail = s.twitchEmotes.tail
    rw [hEmotes]
  · refine hAppends.trans ?_
    simp [AppendsTiles, s', addTwitchEmote, tileOf, emotePiece]
  · rw [hTake]
    refine hSpells.append ?_
    have hPosition : c + (s.word.take (emote.start - c).toNat).length = emote.start.toNat := by
      rw [List.length_take]
      omega
    rw [hPosition]
    have hPiece : Spells emote.start.toNat (emote.name ++ []) [tileOf emote] :=
      @Spells.piece _ (.emote emote.ptr emote.name) _ _ hNameNil hNameSpace .nil
    rwa [List.append_nil] at hPiece
  · rw [emoteTiles_append, hNone]
    rfl

theorem addTwitchEmote_space {state : TextState} (hPlain : Plain env state) {content : QString}
    {c : Nat} {s : WordState} {emote : TwitchEmoteOccurrence} (hState : s.text.1 = state)
    (hCursor : s.cursor = c) (hSpace : 0x20 ∉ s.word) (hStands : emote.Stands content)
    (hStart : (c : Int) ≤ emote.start) (hEnd : emote.end_ = c + s.word.length) :
    let s' := addTwitchEmote emote (atEmote env emote s)
    s'.word = [] ∧ s'.twitchEmotes = s.twitchEmotes.tail ∧ s'.text.1 = state ∧
      ∃ new, readElements s'.text.2 = readElements s.text.2 ++ new ∧ .emote emote.ptr emote.name ∈ new := by
  intro s'
  have hLe := hStands.start_le_end
  have hLength := name_length_eq hStands
  obtain ⟨-, hWord, hEmotes, hState', tiles, hAppends, -, -⟩ :=
    atEmote_spec hPlain hState hCursor hSpace (hCursor.trans_le hStart) (by omega)
  refine ⟨?_, ?_, hState', tiles.map Prod.snd ++ [.emote emote.ptr emote.name], ?_, by simp⟩
  · change (atEmote env emote s).word.drop emote.name.length = []
    rw [hWord, List.drop_drop, List.drop_eq_nil_iff]
    omega
  · change (atEmote env emote s).twitchEmotes.tail = s.twitchEmotes.tail
    rw [hEmotes]
  · change readElements ((atEmote env emote s).text.2 ++ _) = _
    rw [readElements_append, hAppends, List.append_assoc]
    simp [emotePiece]

def WordOutcome (state : TextState) (c : Nat) (s s' : WordState) : Prop :=
  ∃ taken, s.twitchEmotes = taken ++ s'.twitchEmotes ∧ s'.text.1 = state ∧
    (TakesWithin c s s' taken ∨ TakesSpace c s s' taken)

theorem wordOutcome_self {state : TextState} {c : Nat} {s : WordState} (hState : s.text.1 = state)
    (hCursor : s.cursor = c) (hWord : s.word ≠ [])
    (hFits : doesWordContainATwitchEmote s.cursor s.word s.twitchEmotes = false) :
    WordOutcome state c s s := by
  refine ⟨[], rfl, hState, .inl ⟨⟨[], [], rfl, (List.append_nil _).symm, .nil, rfl, le_rfl, ?_, ?_⟩,
    .inr hFits⟩⟩
  · rw [if_neg hWord]
    simpa using hCursor
  · exact fun h => absurd rfl h

theorem WordOutcome.cons {state : TextState} {c n : Nat} {s s' s'' : WordState}
    {emote : TwitchEmoteOccurrence} {tiles : List (Nat × Piece)}
    (hEmotes : s.twitchEmotes = emote :: s'.twitchEmotes) (hStart : (c : Int) ≤ emote.start)
    (hEnd : emote.end_ + 1 = c + n) (hWord : s'.word = s.word.drop n) (hLength : n ≤ s.word.length)
    (hAppends : AppendsTiles tiles s.text.2 s'.text.2) (hSpells : Spells c (s.word.take n) tiles)
    (hTiles : emoteTiles tiles = [tileOf emote]) (h : WordOutcome state (c + n) s' s'') :
    WordOutcome state c s s'' := by
  have hTake : (s.word.take n).length = n := List.length_take_of_le hLength
  have hSplit : s.word = s.word.take n ++ s'.word := by rw [hWord, List.take_append_drop]
  have hName : 0x20 ∉ emote.name :=
    hSpells.not_mem_space (tileOf emote) (List.mem_of_mem_filter (hTiles ▸ List.mem_singleton_self _))
  obtain ⟨taken, hTaken, hState, h | h⟩ := h
  · obtain ⟨⟨done, tiles', hDone, hAppends', hSpells', hTiles', hBetween, hCursor, hLast⟩, hStops⟩ := h
    have hSum : (s.word.take n ++ done).length = n + done.length := by rw [List.length_append, hTake]
    refine ⟨emote :: taken, by rw [hEmotes, hTaken, List.cons_append], hState,
      .inl ⟨⟨s.word.take n ++ done, tiles ++ tiles', ?_, hAppends.trans hAppends', ?_, ?_, ?_, ?_, ?_⟩,
        hStops⟩⟩
    · rw [List.append_assoc, ← hDone]
      exact hSplit
    · refine hSpells.append ?_
      rwa [hTake]
    · rw [emoteTiles_append, hTiles, hTiles']
      rfl
    · refine ⟨hStart, hName, ?_⟩
      rw [hEnd, hSum]
      rwa [Nat.cast_add, add_assoc, ← Nat.cast_add] at hBetween
    · rw [hCursor, hSum]
      push_cast
      omega
    · intro _
      by_cases hNil : done = []
      · refine ⟨emote, List.mem_cons_self, ?_⟩
        rw [hSum, hNil, hEnd]
        rfl
      · obtain ⟨last, hMem, hLastEnd⟩ := hLast hNil
        refine ⟨last, List.mem_cons_of_mem _ hMem, ?_⟩
        rw [hSum, hLastEnd]
        omega
  · obtain ⟨front, last, new, d, hFront, hBetween, hStart', hBefore, hLastEnd, hRead, hMem⟩ := h.added
    have hSum : s.word.length = n + s'.word.length := by
      rw [hWord, List.length_drop]
      omega
    refine ⟨emote :: taken, by rw [hEmotes, hTaken, List.cons_append], hState,
      .inr ⟨⟨emote :: front, last, tiles.map Prod.snd ++ new, d, by rw [hFront, List.cons_append],
        ⟨hStart, hName, ?_⟩, hStart', by omega, by omega, ?_, List.mem_append_right _ hMem⟩, h.ends⟩⟩
    · rw [hEnd]
      rwa [Nat.cast_add] at hBetween
    · rw [hRead, hAppends, List.append_assoc]

theorem addWordEmotes_spec {state : TextState} (hPlain : Plain env state) {content tail : QString}
    {emotes : List TwitchEmoteOccurrence} (hStands : ∀ emote ∈ emotes, emote.Stands content)
    {fuel c : Nat} {s : WordState} (hEmotes : s.twitchEmotes = emotes) (hFuel : 2 * emotes.length ≤ fuel)
    (hState : s.text.1 = state) (hCursor : s.cursor = c) (hWord : s.word ≠ []) (hSpace : 0x20 ∉ s.word)
    (hContent : content.drop c = s.word ++ tail) : WordOutcome state c s (addWordEmotes env fuel s) := by
  induction emotes generalizing fuel c s with
  | nil =>
    have hFits : doesWordContainATwitchEmote s.cursor s.word s.twitchEmotes = false := by
      rw [hEmotes]
      rfl
    rw [addWordEmotes_of_not_fits hFits]
    exact wordOutcome_self hState hCursor hWord hFits
  | cons emote emotes ih =>
    cases hFits : doesWordContainATwitchEmote s.cursor s.word s.twitchEmotes with
    | false =>
      rw [addWordEmotes_of_not_fits hFits]
      exact wordOutcome_self hState hCursor hWord hFits
    | true =>
      rw [List.forall_mem_cons] at hStands
      have hBounds := hFits
      rw [hEmotes, doesWordContain_cons, hCursor] at hBounds
      have hLe := hStands.1.start_le_end
      obtain ⟨fuel', hFuel', hStep⟩ :=
        addWordEmotes_of_fits hEmotes (hEmotes ▸ hFuel) hLe hFits
      rw [hStep]
      dsimp only
      rcases lt_or_eq_of_le hBounds.2 with hEnd | hEnd
      · obtain ⟨hCursor', hWord', hEmotes', hState', tiles, hAppends, hSpells, hTiles⟩ :=
          addTwitchEmote_within hPlain hState hCursor hSpace hContent hStands.1 hBounds.1 hEnd
        rw [hEmotes, List.tail_cons] at hEmotes'
        generalize addTwitchEmote emote (atEmote env emote s) = s' at *
        obtain ⟨n, hn⟩ : ∃ n : Nat, emote.end_ + 1 = c + n := ⟨(emote.end_ + 1 - c).toNat, by omega⟩
        rw [hn, show ((c : Int) + n - c).toNat = n by omega] at hWord' hSpells
        have hLength : n ≤ s.word.length := by omega
        split_ifs with hNil
        · -- The emote is the last thing of the word, and the cursor moves on past the space.
          refine ⟨[emote], by rw [hEmotes, hEmotes']; rfl, hState', .inl ⟨⟨s.word.take n, tiles, ?_,
            hAppends, hSpells, hTiles, ⟨hBounds.1, ?_, ?_⟩, ?_, fun _ => ⟨emote, by simp, ?_⟩⟩, .inl hNil⟩⟩
          · dsimp only
            rw [hWord', List.take_append_drop]
          · exact hSpells.not_mem_space (tileOf emote)
              (List.mem_of_mem_filter (hTiles ▸ List.mem_singleton_self _))
          · rw [List.length_take_of_le hLength]
            exact hn.le
          · dsimp only
            rw [if_pos hNil, List.length_take_of_le hLength, hCursor', hn]
          · rw [List.length_take_of_le hLength]
            exact hn
        · have hSpace' : 0x20 ∉ s'.word := fun hMem => hSpace (List.mem_of_mem_drop (hWord' ▸ hMem))
          have hContent' : content.drop (c + n) = s'.word ++ tail := by
            rw [← List.drop_drop, hContent, List.drop_append_of_le_length hLength, hWord']
          let s'' : WordState := { s' with text := (s'.text.1, setBackTrailingSpace false s'.text.2) }
          have hAppends' : AppendsTiles tiles s.text.2 s''.text.2 := by
            unfold AppendsTiles at hAppends ⊢
            rw [readElements_setBackTrailingSpace, hAppends]
          have hCursor'' : s''.cursor = (c + n : Nat) := hCursor'.trans (hn.trans (Nat.cast_add c n).symm)
          have hRest := ih hStands.2 (s := s'') hEmotes' hFuel' hState' hCursor'' hNil hSpace' hContent'
          have hFirst : s.twitchEmotes = emote :: s''.twitchEmotes := hEmotes.trans (by rw [← hEmotes'])
          exact hRest.cons hFirst hBounds.1 hn hWord' hLength hAppends' hSpells hTiles
      · obtain ⟨hNil, hEmotes', hState', new, hRead, hMem⟩ :=
          addTwitchEmote_space hPlain hState hCursor hSpace hStands.1 hBounds.1 hEnd
        rw [hEmotes, List.tail_cons] at hEmotes'
        rw [if_pos hNil]
        have hPos := List.length_pos_of_ne_nil hWord
        exact ⟨[emote], by rw [hEmotes, hEmotes']; rfl, hState', .inr ⟨⟨[], emote, new, c, rfl, le_rfl,
          hBounds.1, by omega, hEnd, hRead, hMem⟩, hNil⟩⟩

end Chatterino.Messages
