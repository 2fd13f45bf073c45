import Chatterino.Messages.AddWords

/-! # What is shown of the words

The first occurrence that does not fit ends the emotes of a message: the iterator stays at it.
-/

namespace Chatterino.Messages

open QString Ignores TwitchEmoteOccurrence

variable {env : Surroundings}

def Misfit (earlier : List TwitchEmoteOccurrence) (emote : TwitchEmoteOccurrence) : Prop :=
  0x20 ∈ emote.name ∨ ∃ e ∈ earlier, ¬e.Apart emote

/-- Its last character is the space after a part of a word that no earlier one has. -/
structure EndsWithSpace (content : QString) (earlier : List TwitchEmoteOccurrence)
    (emote : TwitchEmoteOccurrence) : Prop where
  apart : ∀ e ∈ earlier, e.Apart emote ∧ e.end_ + 1 ≠ emote.end_
  last : content[emote.end_.toNat]? = some 0x20
  others : ∀ p : Nat, emote.start ≤ p → (p : Int) < emote.end_ → content[p]? ≠ some 0x20
  before : ∃ p : Nat, (p : Int) + 1 = emote.end_ ∧ content[p]? ≠ some 0x20

structure Fitting (emotes : List TwitchEmoteOccurrence) : Prop where
  not_mem_space : ∀ emote ∈ emotes, 0x20 ∉ emote.name
  apart : emotes.Pairwise Apart

theorem between_bounds {content : QString} {emotes : List TwitchEmoteOccurrence} {c d : Int}
    (hStands : ∀ emote ∈ emotes, emote.Stands content) (h : Between c d emotes) :
    c ≤ d ∧ ∀ emote ∈ emotes, c ≤ emote.start ∧ emote.end_ < d ∧ 0x20 ∉ emote.name := by
  induction emotes generalizing c with
  | nil => exact ⟨h, by simp⟩
  | cons emote emotes ih =>
    rw [List.forall_mem_cons] at hStands
    obtain ⟨hStart, hName, hRest⟩ := h
    obtain ⟨hLe, hBounds⟩ := ih hStands.2 hRest
    have hEmote := hStands.1.start_le_end
    refine ⟨by omega, List.forall_mem_cons.mpr ⟨⟨hStart, by omega, hName⟩, fun e he => ?_⟩⟩
    obtain ⟨hStart', hEnd', hName'⟩ := hBounds e he
    exact ⟨by omega, hEnd', hName'⟩

theorem between_apart {content : QString} {emotes : List TwitchEmoteOccurrence} {c d : Int}
    (hStands : ∀ emote ∈ emotes, emote.Stands content) (h : Between c d emotes) :
    emotes.Pairwise Apart := by
  induction emotes generalizing c with
  | nil => exact .nil
  | cons emote emotes ih =>
    rw [List.forall_mem_cons] at hStands
    obtain ⟨-, -, hRest⟩ := h
    refine List.pairwise_cons.mpr ⟨fun e he => .inl ?_, ih hStands.2 hRest⟩
    have hBounds := (between_bounds hStands.2 hRest).2 e he
    omega

def PassedOver (c n : Nat) (taken : List TwitchEmoteOccurrence) (emote : TwitchEmoteOccurrence) : Prop :=
  (∃ e ∈ taken, e.end_ + 1 = c + n ∨ emote.start ≤ e.end_) ∨ emote.start < c ∨ (c : Int) + n < emote.end_

theorem addWord_nil (s : WordState) : addWord env s [] = { s with cursor := s.cursor + 1 } := rfl

theorem addWord_spec {state : TextState} (hPlain : Plain env state) {content tail word : QString}
    {s : WordState} (hStands : ∀ emote ∈ s.twitchEmotes, emote.Stands content) {c : Nat}
    (hState : s.text.1 = state) (hCursor : s.cursor = c) (hWord : word ≠ []) (hSpace : 0x20 ∉ word)
    (hContent : content.drop c = word ++ tail) :
    ∃ taken, s.twitchEmotes = taken ++ (addWord env s word).twitchEmotes ∧
      (addWord env s word).text.1 = state ∧
      ((∃ tiles, AppendsTiles tiles s.text.2 (addWord env s word).text.2 ∧ Spells c word tiles ∧
          emoteTiles tiles = taken.map tileOf ∧ Between c (c + word.length) taken ∧
          (addWord env s word).cursor = c + word.length + 1 ∧
          ∀ emote ∈ (addWord env s word).twitchEmotes.head?, PassedOver c word.length taken emote) ∨
        TakesSpace c { s with word := word } (addWord env s word) taken) := by
  have hOutcome : WordOutcome state c { s with word := word } _ :=
    addWordEmotes_spec (s := { s with word := word }) hPlain hStands rfl le_rfl hState hCursor hWord hSpace
      hContent
  have hAdd : addWord env s word =
      let s' := addWordEmotes env (2 * s.twitchEmotes.length) { s with word := word }
      if s'.word = [] then s'
      else { s' with cursor := s'.cursor + (s'.word.length + 1), text := addText env s'.word s'.text } :=
    if_neg hWord
  dsimp only at hAdd
  generalize addWordEmotes env (2 * s.twitchEmotes.length) { s with word := word } = s' at *
  obtain ⟨taken, hTaken, hState', hOutcome⟩ := hOutcome
  rw [hAdd]
  rcases hOutcome with ⟨⟨done, tiles, hDone, hAppends, hSpells, hTiles, hBetween, hCursor', hLast⟩, hStops⟩ |
    hOutcome
  · dsimp only at hDone
    by_cases hNil : s'.word = []
    · rw [if_pos hNil] at hCursor' ⊢
      rw [hNil, List.append_nil] at hDone
      subst hDone
      obtain ⟨e, he, hEnd⟩ := hLast hWord
      exact ⟨taken, hTaken, hState', .inl ⟨tiles, hAppends, hSpells, hTiles, hBetween, hCursor',
        fun _ _ => .inl ⟨e, he, .inl hEnd⟩⟩⟩
    · rw [if_neg hNil] at hCursor' ⊢
      have hLength : word.length = done.length + s'.word.length := by rw [hDone, List.length_append]
      have hSpace' : 0x20 ∉ s'.word := fun hMem => hSpace (hDone ▸ List.mem_append_right _ hMem)
      obtain ⟨hState'', tiles', hAppends', hSpells', hTiles'⟩ :=
        addText_tiles hPlain hSpace' (c + done.length) hState'
      have hUpTo {d d' : Int} (hd : d ≤ d') {emotes : List TwitchEmoteOccurrence} {c : Int}
          (h : Between c d emotes) : Between c d' emotes := by
        induction emotes generalizing c with
        | nil => exact h.trans hd
        | cons emote emotes ih => exact ⟨h.1, h.2.1, ih h.2.2⟩
      refine ⟨taken, hTaken, hState'', .inl ⟨tiles ++ tiles', hAppends.trans hAppends', ?_, ?_,
        hUpTo (by omega) hBetween, ?_, ?_⟩⟩
      · rw [hDone]
        exact hSpells.append hSpells'
      · rw [emoteTiles_append, hTiles, hTiles', List.append_nil]
      · dsimp only
        omega
      · intro emote hHead
        have hFits := hStops.resolve_left hNil
        obtain ⟨emotes, hEmotes⟩ : ∃ emotes, s'.twitchEmotes = emote :: emotes := by
          cases hEmotes : s'.twitchEmotes with
          | nil =>
            rw [hEmotes] at hHead
            cases hHead
          | cons e emotes =>
            rw [hEmotes] at hHead
            cases hHead
            exact ⟨emotes, rfl⟩
        rw [hEmotes, ← Bool.not_eq_true, doesWordContain_cons, not_and_or, not_le, not_le] at hFits
        rcases hFits with hBefore | hAfter
        · by_cases hEmpty : done = []
          · rw [hEmpty, List.length_nil] at hCursor'
            exact .inr (.inl (by omega))
          · obtain ⟨e, he, hEnd⟩ := hLast hEmpty
            exact .inl ⟨e, he, .inr (by omega)⟩
        · exact .inr (.inr (by omega))
  · rw [if_pos hOutcome.ends]
    exact ⟨taken, hTaken, hState', .inr hOutcome⟩

def Extends (state : TextState) (s s' : TextState × List MessageElement) : Prop :=
  s'.1 = state ∧ ∃ new, readElements s'.2 = readElements s.2 ++ new

theorem Extends.refl {state : TextState} {s : TextState × List MessageElement} (h : s.1 = state) :
    Extends state s s := ⟨h, [], (List.append_nil _).symm⟩

theorem Extends.trans {state : TextState} {s s' s'' : TextState × List MessageElement}
    (h : Extends state s s') (h' : Extends state s' s'') : Extends state s s'' := by
  obtain ⟨-, new, hRead⟩ := h
  obtain ⟨hState, new', hRead'⟩ := h'
  exact ⟨hState, new ++ new', by rw [hRead', hRead, List.append_assoc]⟩

theorem addText_extends {state : TextState} (hPlain : Plain env state) {text : QString}
    (hSpace : 0x20 ∉ text) {s : TextState × List MessageElement} (hState : s.1 = state) :
    Extends state s (addText env text s) := by
  obtain ⟨hKept, tiles, hAppends, -⟩ := addText_tiles hPlain hSpace 0 hState
  exact ⟨hKept, _, hAppends⟩

theorem addWordEmotes_extends {state : TextState} (hPlain : Plain env state) {fuel : Nat} {s : WordState}
    (hSpace : 0x20 ∉ s.word) (hState : s.text.1 = state) :
    Extends state s.text (addWordEmotes env fuel s).text ∧ 0x20 ∉ (addWordEmotes env fuel s).word := by
  have hEmote (emote : TwitchEmoteOccurrence) (s : WordState) (hState : s.text.1 = state) :
      Extends state s.text (addTwitchEmote emote s).text :=
    ⟨hState, _, readElements_append _ _⟩
  have hDrop (s : WordState) (n : Nat) (hSpace : 0x20 ∉ s.word) : 0x20 ∉ s.word.drop n :=
    fun hMem => hSpace (List.mem_of_mem_drop hMem)
  fun_induction addWordEmotes env fuel s with
  | case1 s => exact ⟨.refl hState, hSpace⟩
  | case2 fuel s hNone => exact ⟨.refl hState, hSpace⟩
  | case3 fuel s emote rest hSome hFits hStart s' hEnd => exact ⟨hEmote emote s hState, hDrop s _ hSpace⟩
  | case4 fuel s emote rest hSome hFits hStart s' hEnd ih =>
    obtain ⟨hRest, hSpace'⟩ := ih (hDrop s _ hSpace) hState
    have hTrailing : Extends state s'.text (s'.text.1, setBackTrailingSpace false s'.text.2) :=
      ⟨hState, [], by rw [readElements_setBackTrailingSpace, List.append_nil]⟩
    exact ⟨(hEmote emote s hState).trans (hTrailing.trans hRest), hSpace'⟩
  | case5 fuel s emote rest hSome hFits hStart ih =>
    have hText : Extends state s.text (addPreText env emote s).text :=
      addText_extends hPlain (fun hMem => hSpace (List.mem_of_mem_take hMem)) hState
    obtain ⟨hRest, hSpace'⟩ := ih (hDrop s _ hSpace) hText.1
    exact ⟨hText.trans hRest, hSpace'⟩
  | case6 fuel s emote rest hSome hFits => exact ⟨.refl hState, hSpace⟩

theorem addWord_extends {state : TextState} (hPlain : Plain env state) {word : QString} (hSpace : 0x20 ∉ word)
    {s : WordState} (hState : s.text.1 = state) : Extends state s.text (addWord env s word).text := by
  unfold addWord
  split_ifs with hNil
  · exact .refl hState
  · obtain ⟨hLoop, hSpace'⟩ := addWordEmotes_extends (s := { s with word := word }) hPlain hSpace hState
    dsimp only
    split_ifs
    · exact hLoop
    · exact hLoop.trans (addText_extends hPlain hSpace' hLoop.1)

theorem foldl_addWord_extends {state : TextState} (hPlain : Plain env state) {words : List QString}
    (hSpace : ∀ word ∈ words, 0x20 ∉ word) {s : WordState} (hState : s.text.1 = state) :
    Extends state s.text (words.foldl (addWord env) s).text := by
  induction words generalizing s with
  | nil => exact .refl hState
  | cons word words ih =>
    rw [List.forall_mem_cons] at hSpace
    have hHead := addWord_extends hPlain hSpace.1 hState
    exact hHead.trans (ih hSpace.2 hHead.1)

def HeadPlaced (content : QString) (c : Nat) (taken left : List TwitchEmoteOccurrence) : Prop :=
  ∀ emote ∈ left.head?, (c : Int) ≤ emote.start ∨
    emote.start < c ∧ Misfit taken emote ∧ ¬EndsWithSpace content taken emote

/-- Before a word everything up to the cursor is read, with the emotes in front of the iterator. -/
structure Progress (content : QString) (emotes : List TwitchEmoteOccurrence)
    (elements : List MessageElement) (state : TextState) (c : Nat) (s : WordState)
    (taken : List TwitchEmoteOccurrence) : Prop where
  split : emotes = taken ++ s.twitchEmotes
  state : s.text.1 = state
  cursor : s.cursor = c
  tiles : ∃ tiles, AppendsTiles tiles elements s.text.2 ∧ Spells 0 (content.take c) tiles ∧
    emoteTiles tiles = taken.map tileOf
  fitting : Fitting taken
  behind : ∀ emote ∈ taken, emote.end_ + 1 < c
  boundary : ∀ p : Nat, p + 1 = c → p < content.length → content[p]? = some 0x20
  head : HeadPlaced content c taken s.twitchEmotes

theorem Misfit.append {taken taken' : List TwitchEmoteOccurrence} {emote : TwitchEmoteOccurrence}
    (h : Misfit taken emote) : Misfit (taken ++ taken') emote :=
  h.imp_right fun ⟨e, he, hApart⟩ => ⟨e, List.mem_append_left _ he, hApart⟩

theorem EndsWithSpace.of_append {content : QString} {taken taken' : List TwitchEmoteOccurrence}
    {emote : TwitchEmoteOccurrence} (h : EndsWithSpace content (taken ++ taken') emote) :
    EndsWithSpace content taken emote :=
  ⟨fun e he => h.apart e (List.mem_append_left _ he), h.last, h.others, h.before⟩

theorem misfit_of_covers_space {content : QString} {taken : List TwitchEmoteOccurrence}
    {emote : TwitchEmoteOccurrence} (hStands : emote.Stands content) {p : Nat}
    (hSpace : content[p]? = some 0x20) (hStart : emote.start ≤ p) (hEnd : (p : Int) ≤ emote.end_)
    (hStays : (p : Int) = emote.end_ → (∃ e ∈ taken, e.end_ + 1 = p) ∨
      ∀ q : Nat, q + 1 = p → content[q]? = some 0x20) :
    Misfit taken emote ∧ ¬EndsWithSpace content taken emote := by
  refine ⟨.inl (mem_name_of_getElem? hStands hSpace hStart hEnd), fun h => ?_⟩
  rcases lt_or_eq_of_le hEnd with hLt | hEq
  · exact h.others p hStart hLt hSpace
  · rcases hStays hEq with ⟨e, he, hLast⟩ | hBefore
    · exact (h.apart e he).2 (hLast.trans hEq)
    · obtain ⟨q, hq, hNot⟩ := h.before
      exact hNot (hBefore q (by omega))

theorem Fitting.append {content : QString} {taken taken' : List TwitchEmoteOccurrence} {c : Nat} {d : Int}
    (h : Fitting taken) (hBehind : ∀ emote ∈ taken, emote.end_ + 1 < c)
    (hStands : ∀ emote ∈ taken', emote.Stands content) (h' : Between c d taken') :
    Fitting (taken ++ taken') where
  not_mem_space emote hMem := by
    rcases List.mem_append.mp hMem with hMem | hMem
    · exact h.not_mem_space emote hMem
    · exact ((between_bounds hStands h').2 emote hMem).2.2
  apart := by
    refine List.pairwise_append.mpr ⟨h.apart, between_apart hStands h', fun e he e' he' => .inl ?_⟩
    have hBefore := hBehind e he
    have hAfter := ((between_bounds hStands h').2 e' he').1
    omega

def TookSpace (content : QString) (emotes : List TwitchEmoteOccurrence)
    (elements elements' : List MessageElement) : Prop :=
  ∃ taken emote rest new, emotes = taken ++ emote :: rest ∧ Fitting taken ∧ 0x20 ∈ emote.name ∧
    EndsWithSpace content taken emote ∧ readElements elements' = readElements elements ++ new ∧
    .emote emote.ptr emote.name ∈ new

section Step

variable {content word tail : QString} {c : Nat} {emotes taken : List TwitchEmoteOccurrence}
  {elements : List MessageElement} {state : TextState} {s : WordState}

theorem getElem?_of_drop (hContent : content.drop c = word ++ tail) (k : Nat) :
    content[c + k]? = (word ++ tail)[k]? := by
  rw [← hContent, List.getElem?_drop]

theorem getElem?_word_end (hContent : content.drop c = word ++ tail)
    (hTail : tail = [] ∨ ∃ rest, tail = 0x20 :: rest) (hLt : c + word.length < content.length) :
    content[c + word.length]? = some 0x20 := by
  have hLength := congrArg List.length hContent
  rw [List.length_drop, List.length_append] at hLength
  rw [getElem?_of_drop hContent, List.getElem?_append_right le_rfl, Nat.sub_self]
  rcases hTail with rfl | ⟨rest, rfl⟩
  · rw [List.length_nil] at hLength
    omega
  · rfl

theorem getElem?_word_ne (hContent : content.drop c = word ++ tail) (hSpace : 0x20 ∉ word) {p : Nat}
    (hStart : c ≤ p) (hEnd : p < c + word.length) : content[p]? ≠ some 0x20 := by
  obtain ⟨k, rfl⟩ := Nat.exists_eq_add_of_le hStart
  rw [getElem?_of_drop hContent, List.getElem?_append_left (by omega)]
  intro hGet
  exact hSpace (List.mem_of_getElem? hGet)

theorem spells_take (hContent : content.drop c = word ++ tail) (hLe : c ≤ content.length)
    (hTail : tail = [] ∨ ∃ rest, tail = 0x20 :: rest) {tiles tiles' : List (Nat × Piece)}
    (h : Spells 0 (content.take c) tiles) (h' : Spells c word tiles') :
    Spells 0 (content.take (c + word.length + 1)) (tiles ++ tiles') := by
  have hTake : content.take (c + word.length + 1) = content.take c ++ (word ++ tail.take 1) := by
    rw [Nat.add_assoc, List.take_add, hContent, List.take_length_add_append]
  have hEnd : Spells (c + word.length) (tail.take 1) [] := by
    rcases hTail with rfl | ⟨rest, rfl⟩
    · exact .nil
    · exact .space .nil
  rw [hTake, ← List.append_nil tiles']
  refine h.append ?_
  rw [List.length_take_of_le hLe, Nat.zero_add]
  exact h'.append hEnd

theorem headPlaced_of_passedOver (hContent : content.drop c = word ++ tail)
    (hTail : tail = [] ∨ ∃ rest, tail = 0x20 :: rest) {taken' left : List TwitchEmoteOccurrence}
    (hStands : ∀ emote ∈ taken' ++ left, emote.Stands content)
    (hSorted : (taken' ++ left).Pairwise fun e e' => e.start < e'.start)
    (hHead : HeadPlaced content c taken (taken' ++ left))
    (hBetween : Between c (c + word.length) taken')
    (hPassed : ∀ emote ∈ left.head?, PassedOver c word.length taken' emote) :
    HeadPlaced content (c + word.length + 1) (taken ++ taken') left := by
  intro emote hEmote
  have hMem : emote ∈ left := List.mem_of_mem_head? hEmote
  have hStandsEmote := hStands emote (List.mem_append_right _ hMem)
  have hLe := hStandsEmote.start_le_end
  have hLength := hStandsEmote.end_lt
  rcases le_or_gt (((c + word.length + 1 : Nat)) : Int) emote.start with hAhead | hBehind
  · exact .inl hAhead
  refine .inr ⟨hBehind, ?_⟩
  have hAt : (c : Int) ≤ emote.start ∨ Misfit taken emote ∧ ¬EndsWithSpace content taken emote := by
    cases taken' with
    | nil =>
      rcases hHead emote hEmote with hStart | ⟨-, hStays⟩
      · exact .inl hStart
      · exact .inr hStays
    | cons first taken' =>
      have hFirst := (List.pairwise_append.mp hSorted).2.2 first List.mem_cons_self emote hMem
      have hStart := hBetween.1
      exact .inl (by omega)
  rcases hAt with hStart | ⟨hMisfit, hEnds⟩
  swap
  · exact ⟨hMisfit.append, fun h => hEnds h.of_append⟩
  push_cast at hBehind
  have hCovers (hEnd : (c : Int) + word.length ≤ emote.end_)
      (hStays : (c : Int) + word.length = emote.end_ → ∃ e ∈ taken', e.end_ + 1 = c + word.length) :
      Misfit (taken ++ taken') emote ∧ ¬EndsWithSpace content (taken ++ taken') emote := by
    have hSpace := getElem?_word_end hContent hTail (by omega)
    refine misfit_of_covers_space hStandsEmote hSpace (by push_cast; omega) (by push_cast; omega) ?_
    intro hEq
    obtain ⟨e, he, hLast⟩ := hStays (by push_cast at hEq; exact hEq)
    exact .inl ⟨e, List.mem_append_right _ he, by push_cast; exact hLast⟩
  have hOverlap (e : TwitchEmoteOccurrence) (he : e ∈ taken') (hOver : emote.start ≤ e.end_) :
      Misfit (taken ++ taken') emote ∧ ¬EndsWithSpace content (taken ++ taken') emote := by
    have hBefore := (List.pairwise_append.mp hSorted).2.2 e he emote hMem
    have hApart : ¬e.Apart emote := by
      rintro (hApart | hApart) <;> omega
    have he' : e ∈ taken ++ taken' := List.mem_append_right _ he
    exact ⟨.inr ⟨e, he', hApart⟩, fun h => hApart (h.apart e he').1⟩
  rcases hPassed emote hEmote with ⟨e, he, hLast | hOver⟩ | hBefore | hAfter
  · by_cases hOver : emote.start ≤ e.end_
    · exact hOverlap e he hOver
    · exact hCovers (by omega) fun _ => ⟨e, he, hLast⟩
  · exact hOverlap e he hOver
  · omega
  · exact hCovers (by omega) fun hEq => by omega

theorem boundary_of_word (hContent : content.drop c = word ++ tail)
    (hTail : tail = [] ∨ ∃ rest, tail = 0x20 :: rest) {p : Nat} (hp : p + 1 = c + word.length + 1)
    (hLt : p < content.length) : content[p]? = some 0x20 := by
  obtain rfl : p = c + word.length := by omega
  exact getElem?_word_end hContent hTail hLt

theorem Progress.addWord (hPlain : Plain env state) (hStands : ∀ emote ∈ emotes, emote.Stands content)
    (hSorted : emotes.Pairwise fun e e' => e.start < e'.start) (hLe : c ≤ content.length)
    (hContent : content.drop c = word ++ tail) (hTail : tail = [] ∨ ∃ rest, tail = 0x20 :: rest)
    (hSpace : 0x20 ∉ word) (h : Progress content emotes elements state c s taken) :
    (∃ taken', Progress content emotes elements state (c + word.length + 1) (addWord env s word)
        (taken ++ taken')) ∨
      TookSpace content emotes elements (Messages.addWord env s word).text.2 := by
  have hStands' : ∀ emote ∈ s.twitchEmotes, emote.Stands content := fun emote hMem =>
    hStands emote (h.split ▸ List.mem_append_right _ hMem)
  have hSorted' : s.twitchEmotes.Pairwise fun e e' => e.start < e'.start := by
    have hAll := hSorted
    rw [h.split] at hAll
    exact (List.pairwise_append.mp hAll).2.1
  obtain ⟨tiles, hAppends, hSpells, hTiles⟩ := h.tiles
  by_cases hWord : word = []
  · subst hWord
    refine .inl ⟨[], ?_⟩
    rw [List.append_nil, addWord_nil]
    have hPassed : ∀ emote ∈ s.twitchEmotes.head?, (c : Int) + 1 ≤ emote.start ∨
        emote.start < c + 1 ∧ Misfit taken emote ∧ ¬EndsWithSpace content taken emote := by
      intro emote hHead
      have hStandsEmote := hStands' emote (List.mem_of_mem_head? hHead)
      have hStart := hStandsEmote.start_le_end
      have hEnd := hStandsEmote.end_lt
      rcases h.head emote hHead with hAhead | ⟨hBehind, hStays⟩
      · rcases lt_or_eq_of_le hAhead with hLt | hEq
        · exact .inl hLt
        · refine .inr ⟨by omega, ?_⟩
          have hHere : content[c]? = some 0x20 := getElem?_word_end hContent hTail (by
            rw [List.length_nil]
            omega)
          exact misfit_of_covers_space hStandsEmote hHere (by omega) (by omega)
            fun _ => .inr fun q hq => h.boundary q hq (by omega)
      · exact .inr ⟨by omega, hStays⟩
    refine ⟨h.split, h.state, ?_, ⟨tiles, hAppends, ?_, hTiles⟩, h.fitting, ?_, ?_, ?_⟩
    · dsimp only
      rw [h.cursor]
      rfl
    · have hTake := spells_take hContent hLe hTail hSpells .nil
      rwa [List.append_nil] at hTake
    · intro emote hMem
      have hBehind := h.behind emote hMem
      push_cast
      omega
    · exact fun p hp hLt => boundary_of_word hContent hTail hp hLt
    · intro emote hHead
      have hPlaced := hPassed emote hHead
      rw [List.length_nil, Nat.add_zero]
      push_cast
      exact hPlaced
  · obtain ⟨taken', hTaken, hState, hOutcome⟩ :=
      addWord_spec hPlain hStands' h.state h.cursor hWord hSpace hContent
    have hSplit : emotes = taken ++ taken' ++ (Messages.addWord env s word).twitchEmotes := by
      rw [List.append_assoc, ← hTaken]
      exact h.split
    have hStandsTaken : ∀ emote ∈ taken', emote.Stands content := fun emote hMem =>
      hStands' emote (hTaken ▸ List.mem_append_left _ hMem)
    rcases hOutcome with ⟨tiles', hAppends', hSpells', hTiles', hBetween, hCursor, hPassed⟩ | hOutcome
    · refine .inl ⟨taken', hSplit, hState, by rw [hCursor]; push_cast; rfl,
        ⟨tiles ++ tiles', hAppends.trans hAppends', spells_take hContent hLe hTail hSpells hSpells', ?_⟩,
        h.fitting.append h.behind hStandsTaken hBetween, ?_,
        fun p hp hLt => boundary_of_word hContent hTail hp hLt, ?_⟩
      · rw [emoteTiles_append, hTiles, hTiles', List.map_append]
      · intro emote hMem
        push_cast
        rcases List.mem_append.mp hMem with hMem | hMem
        · have hBehind := h.behind emote hMem
          omega
        · have hBounds := ((between_bounds hStandsTaken hBetween).2 emote hMem).2.1
          omega
      · rw [hTaken] at hStands' hSorted'
        exact headPlaced_of_passedOver hContent hTail hStands' hSorted' (hTaken ▸ h.head) hBetween hPassed
    · obtain ⟨front, emote, new, d, rfl, hBetween, hStart, hBefore, hEnd, hRead, hMem⟩ := hOutcome.added
      dsimp only at hBefore hEnd hRead
      have hFront : ∀ e ∈ front, e.Stands content := fun e he => hStandsTaken e (List.mem_append_left _ he)
      have hEmote := hStandsTaken emote (List.mem_append_right _ (List.mem_singleton_self _))
      have hBounds := between_bounds hFront hBetween
      have hLast : content[c + word.length]? = some 0x20 :=
        getElem?_word_end hContent hTail (by have hLt := hEmote.end_lt; omega)
      have hEndNat : emote.end_.toNat = c + word.length := by omega
      refine .inr ⟨taken ++ front, emote, (Messages.addWord env s word).twitchEmotes,
        tiles.map Prod.snd ++ new, ?_, h.fitting.append h.behind hFront hBetween, ?_, ?_, ?_,
        List.mem_append_right _ hMem⟩
      · rw [hSplit]
        simp
      · exact mem_name_of_getElem? hEmote hLast (by have hLe := hEmote.start_le_end; omega) (by omega)
      · refine ⟨fun e he => ?_, by rw [hEndNat, hLast], fun p hp hLt => ?_,
          ⟨c + word.length - 1, ?_, ?_⟩⟩
        · rcases List.mem_append.mp he with he | he
          · have hBehind := h.behind e he
            exact ⟨.inl (by omega), by omega⟩
          · have hBounds' := hBounds.2 e he
            exact ⟨.inl (by omega), by omega⟩
        · exact getElem?_word_ne hContent hSpace (by omega) (by omega)
        · omega
        · exact getElem?_word_ne hContent hSpace (by omega) (by omega)
      · rw [hRead, hAppends, List.append_assoc]

def LineOutcome (content : QString) (emotes : List TwitchEmoteOccurrence)
    (elements elements' : List MessageElement) : Prop :=
  (∃ taken left tiles, emotes = taken ++ left ∧ Fitting taken ∧ AppendsTiles tiles elements elements' ∧
    Spells 0 content tiles ∧ emoteTiles tiles = taken.map tileOf ∧
    ∀ emote ∈ left.head?, Misfit taken emote ∧ ¬EndsWithSpace content taken emote) ∨
  TookSpace content emotes elements elements'

theorem Progress.lineOutcome (hPlain : Plain env state) (hStands : ∀ emote ∈ emotes, emote.Stands content)
    (hSorted : emotes.Pairwise fun e e' => e.start < e'.start) {rest : QString}
    (hLe : c ≤ content.length) (hContent : content.drop c = rest)
    (h : Progress content emotes elements state c s taken) :
    LineOutcome content emotes elements ((rest.splitOn 0x20).foldl (Messages.addWord env) s).text.2 := by
  induction hLength : rest.length using Nat.strong_induction_on generalizing rest c s taken with
  | _ n ih =>
    by_cases hSpace : 0x20 ∈ rest
    · obtain ⟨word, rest', rfl, hWord⟩ := List.eq_append_cons_of_mem hSpace
      rw [List.splitOn_append_cons_self_of_not_mem hWord, List.foldl_cons]
      rcases h.addWord hPlain hStands hSorted hLe hContent (.inr ⟨rest', rfl⟩) hWord with
        ⟨taken', hNext⟩ | ⟨taken', emote, left, new, hSplit, hFitting, hName, hEnds, hRead, hMem⟩
      · have hTotal := congrArg List.length hContent
        rw [List.length_drop, List.length_append, List.length_cons] at hTotal
        have hDrop : content.drop (c + word.length + 1) = rest' := by
          rw [Nat.add_assoc, ← List.drop_drop, hContent, List.drop_length_add_append]
          rfl
        rw [List.length_append, List.length_cons] at hLength
        exact ih rest'.length (by omega) (by omega) hDrop hNext rfl
      · obtain ⟨-, new', hRead'⟩ := foldl_addWord_extends hPlain
          (fun word hMem => not_mem_of_mem_splitOn hMem) (addWord_extends hPlain hWord h.state).1
        refine .inr ⟨taken', emote, left, new ++ new', hSplit, hFitting, hName, hEnds, ?_,
          List.mem_append_left _ hMem⟩
        rw [hRead', hRead, List.append_assoc]
    · rw [List.splitOn_eq_singleton hSpace, List.foldl_cons, List.foldl_nil]
      have hContent' : content.drop c = rest ++ [] := by rw [List.append_nil, hContent]
      rcases h.addWord hPlain hStands hSorted hLe hContent' (.inl rfl) hSpace with
        ⟨taken', hNext⟩ | hTook
      · obtain ⟨tiles, hAppends, hSpells, hTiles⟩ := hNext.tiles
        have hTotal := congrArg List.length hContent
        rw [List.length_drop] at hTotal
        rw [List.take_of_length_le (by omega)] at hSpells
        refine .inl ⟨taken ++ taken', _, tiles, hNext.split, hNext.fitting, hAppends, hSpells, hTiles,
          fun emote hHead => ?_⟩
        rcases hNext.head emote hHead with hAhead | ⟨-, hStays⟩
        · have hMem := hNext.split ▸ List.mem_append_right _ (List.mem_of_mem_head? hHead)
          have hLt := (hStands emote hMem).end_lt
          have hStart := (hStands emote hMem).start_le_end
          push_cast at hAhead
          omega
        · exact hStays
      · exact .inr hTook

end Step

theorem addWords_lineOutcome {state : TextState} (hPlain : Plain env state) {content : QString}
    {emotes : List TwitchEmoteOccurrence} (hStands : ∀ emote ∈ emotes, emote.Stands content)
    (hSorted : emotes.Pairwise fun e e' => e.start < e'.start) (elements : List MessageElement) :
    LineOutcome content emotes elements
      (addWords env (content.splitOn 0x20) emotes (state, elements)).2 := by
  have hStart : Progress content emotes elements state 0 ⟨0, [], emotes, (state, elements)⟩ [] :=
    { split := rfl
      state := rfl
      cursor := rfl
      tiles := ⟨[], (List.append_nil _).symm, .nil, rfl⟩
      fitting := ⟨by simp, .nil⟩
      behind := by simp
      boundary := fun p hp => by omega
      head := fun emote hHead => .inl (hStands emote (List.mem_of_mem_head? hHead)).start_nonneg }
  exact hStart.lineOutcome hPlain hStands hSorted (Nat.zero_le _) List.drop_zero

def Alone (emotes : List TwitchEmoteOccurrence) (emote : TwitchEmoteOccurrence) : Prop :=
  0x20 ∉ emote.name ∧ ∀ e ∈ emotes, e ≠ emote → e.Apart emote

/-- The new elements are the words, read in order. An occurrence alone in a word is an emote where it stands. -/
def ShowsText (content : QString) (emotes : List TwitchEmoteOccurrence)
    (elements elements' : List MessageElement) : Prop :=
  ∃ tiles, AppendsTiles tiles elements elements' ∧ Spells 0 content tiles ∧
    (∀ emote ∈ emotes, Alone emotes emote → tileOf emote ∈ tiles) ∧
    ∀ tile ∈ tiles, tile.2.isEmote → ∃ emote ∈ emotes, tile = tileOf emote ∧ 0x20 ∉ emote.name ∧
      ∀ e ∈ emotes, e.start < emote.start → e.Apart emote

/-- After the first occurrence that does not fit there is none alone in a word, and it does not end
with the space after a part of a word. -/
def LastMisfit (content : QString) (emotes : List TwitchEmoteOccurrence) : Prop :=
  ∀ earlier emote later, emotes = earlier ++ emote :: later → Fitting earlier → Misfit earlier emote →
    ¬EndsWithSpace content earlier emote ∧ ∀ e ∈ later, ¬Alone emotes e

theorem Fitting.not_misfit {front rest : List TwitchEmoteOccurrence} {emote : TwitchEmoteOccurrence}
    (h : Fitting (front ++ emote :: rest)) : ¬Misfit front emote := by
  rintro (hSpace | ⟨e, he, hApart⟩)
  · exact h.not_mem_space emote (by simp) hSpace
  · exact hApart ((List.pairwise_append.mp h.apart).2.2 e he emote List.mem_cons_self)

theorem first_misfit_unique {emotes front front' left rest : List TwitchEmoteOccurrence}
    {emote : TwitchEmoteOccurrence} (hSplit : emotes = front ++ left) (hFitting : Fitting front)
    (hHead : ∀ e ∈ left.head?, Misfit front e) (hSplit' : emotes = front' ++ emote :: rest)
    (hFitting' : Fitting front') (hMisfit : Misfit front' emote) : front = front' ∧ left = emote :: rest := by
  have hEq : front ++ left = front' ++ emote :: rest := hSplit.symm.trans hSplit'
  rcases List.append_eq_append_iff.mp hEq with ⟨more, rfl, hLeft⟩ | ⟨more, rfl, hRest⟩
  · cases more with
    | nil =>
      rw [List.nil_append] at hLeft
      exact ⟨(List.append_nil _).symm, hLeft⟩
    | cons e more =>
      have hMem : e ∈ left.head? := by rw [hLeft]; rfl
      exact absurd (hHead e hMem) hFitting'.not_misfit
  · cases more with
    | nil =>
      rw [List.nil_append] at hRest
      exact ⟨List.append_nil _, hRest.symm⟩
    | cons e more =>
      rw [List.cons_append, List.cons.injEq] at hRest
      obtain ⟨rfl, -⟩ := hRest
      exact absurd hMisfit hFitting.not_misfit

section Claim

variable {state : TextState} {content : QString} {emotes : List TwitchEmoteOccurrence}
  {elements elements' : List MessageElement}

theorem LineOutcome.showsText (hSorted : emotes.Pairwise fun e e' => e.start < e'.start)
    (h : LineOutcome content emotes elements elements') (hLast : LastMisfit content emotes) :
    ShowsText content emotes elements elements' := by
  rcases h with ⟨taken, left, tiles, rfl, hFitting, hAppends, hSpells, hTiles, hHead⟩ |
    ⟨taken, emote, rest, new, hSplit, hFitting, hSpace, hEnds, -⟩
  swap
  · exact absurd hEnds (hLast taken emote rest hSplit hFitting (.inl hSpace)).1
  have hBefore := (List.pairwise_append.mp hSorted).2.2
  refine ⟨tiles, hAppends, hSpells, fun emote hMem hAlone => ?_, fun tile hMem hEmote => ?_⟩
  · rcases List.mem_append.mp hMem with hTaken | hLeft
    · have hTile : tileOf emote ∈ emoteTiles tiles := hTiles ▸ List.mem_map_of_mem hTaken
      exact List.mem_of_mem_filter hTile
    · cases left with
      | nil => cases hLeft
      | cons first later =>
        have hMisfit := (hHead first rfl).1
        rcases List.mem_cons.mp hLeft with rfl | hLater
        · -- It shares no position with the emotes before it, and has no space.
          rcases hMisfit with hSpace | ⟨e, he, hApart⟩
          · exact absurd hSpace hAlone.1
          · have hStart := hBefore e he emote List.mem_cons_self
            have hNe : e ≠ emote := by
              rintro rfl
              exact lt_irrefl _ hStart
            exact absurd (hAlone.2 e (List.mem_append_left _ he) hNe) hApart
        · exact absurd hAlone ((hLast taken first later rfl hFitting hMisfit).2 emote hLater)
  · have hTile : tile ∈ emoteTiles tiles := List.mem_filter.mpr ⟨hMem, hEmote⟩
    rw [hTiles] at hTile
    obtain ⟨emote, hTaken, rfl⟩ := List.mem_map.mp hTile
    refine ⟨emote, List.mem_append_left _ hTaken, rfl, hFitting.not_mem_space emote hTaken,
      fun e he hStart => ?_⟩
    rcases List.mem_append.mp he with he | he
    · have hNe : e ≠ emote := by
        rintro rfl
        exact lt_irrefl _ hStart
      exact hFitting.apart.forall he hTaken hNe
    · have hAfter := hBefore emote hTaken e he
      omega

theorem LineOutcome.lastMisfit (hStands : ∀ emote ∈ emotes, emote.Stands content)
    (hSorted : emotes.Pairwise fun e e' => e.start < e'.start)
    (h : LineOutcome content emotes elements elements')
    (hShows : ShowsText content emotes elements elements') : LastMisfit content emotes := by
  obtain ⟨tiles', hAppends', hSpells', hAlone, -⟩ := hShows
  rcases h with ⟨taken, left, tiles, hSplit, hFitting, hAppends, hSpells, hTiles, hHead⟩ |
    ⟨taken, emote, rest, new, hSplit, hFitting, hSpace, hEnds, hRead, hMem⟩
  · have hPieces : tiles'.map Prod.snd = tiles.map Prod.snd :=
      List.append_cancel_left (hAppends'.symm.trans hAppends)
    obtain rfl := hSpells'.unique hSpells hPieces
    intro earlier emote later hSplit' hFitting' hMisfit
    obtain ⟨rfl, rfl⟩ :=
      first_misfit_unique hSplit hFitting (fun e he => (hHead e he).1) hSplit' hFitting' hMisfit
    refine ⟨(hHead emote rfl).2, fun e he hAloneE => ?_⟩
    have hMem : e ∈ emotes := by
      rw [hSplit]
      exact List.mem_append_right _ (List.mem_cons_of_mem _ he)
    have hTile : tileOf e ∈ emoteTiles tiles' := List.mem_filter.mpr ⟨hAlone e hMem hAloneE, rfl⟩
    rw [hTiles] at hTile
    obtain ⟨e', he', hEq⟩ := List.mem_map.mp hTile
    have hPosition : e'.start.toNat = e.start.toNat := congrArg Prod.fst hEq
    have hMem' : e' ∈ emotes := hSplit ▸ List.mem_append_left _ he'
    have hNonneg := (hStands e hMem).start_nonneg
    have hNonneg' := (hStands e' hMem').start_nonneg
    rw [hSplit] at hSorted
    have hBefore := (List.pairwise_append.mp hSorted).2.2 e' he' e (List.mem_cons_of_mem _ he)
    omega
  · have hPieces : tiles'.map Prod.snd = new := List.append_cancel_left (hAppends'.symm.trans hRead)
    rw [← hPieces] at hMem
    obtain ⟨tile, hTile, hPiece⟩ := List.mem_map.mp hMem
    have hNone := hSpells'.not_mem_space tile hTile
    rw [hPiece] at hNone
    exact absurd hSpace hNone

/-- The text is shown as it is, with its emotes, exactly if the first misfit stops none of them and
takes no space. -/
theorem showsText_iff_lastMisfit (hPlain : Plain env state)
    (hStands : ∀ emote ∈ emotes, emote.Stands content)
    (hSorted : emotes.Pairwise fun e e' => e.start < e'.start) (elements : List MessageElement) :
    ShowsText content emotes elements (addWords env (content.splitOn 0x20) emotes (state, elements)).2 ↔
      LastMisfit content emotes :=
  have hOutcome := addWords_lineOutcome hPlain hStands hSorted elements
  ⟨hOutcome.lastMisfit hStands hSorted, hOutcome.showsText hSorted⟩

def plainSurroundings : Surroundings where
  emojiFirstByte _ := []
  links := ⟨fun _ => false, fun _ => false⟩
  toLower := id
  twitchChannel := none
  parseEmote _ := none
  tryAppendCheermote _ _ := none
  enableZeroWidthEmotes := true
  findAllUsernames := false
  textColor := .Text

theorem plain_plainSurroundings : Plain plainSurroundings {} := ⟨rfl, fun _ => rfl⟩

def kappa (start : Int) : TwitchEmoteOccurrence := ⟨start, start + 4, some 0, lit "Kappa"⟩

theorem showsText_iff_lastMisfit_kappa :
    ShowsText (lit "hi Kappa") [kappa 3] []
        (addWords plainSurroundings ((lit "hi Kappa").splitOn 0x20) [kappa 3] ({}, [])).2 ↔
      LastMisfit (lit "hi Kappa") [kappa 3] :=
  showsText_iff_lastMisfit plain_plainSurroundings
    (by simpa using ⟨by decide, by decide, by decide, by decide⟩) (List.pairwise_singleton _ _) []

theorem not_showsText_stuck :
    ¬∀ (env : Surroundings) (state : TextState) (content : QString)
      (emotes : List TwitchEmoteOccurrence) (elements : List MessageElement),
      Plain env state → (∀ emote ∈ emotes, emote.Stands content) →
        emotes.Pairwise (fun e e' => e.start < e'.start) →
          ShowsText content emotes elements
            (addWords env (content.splitOn 0x20) emotes (state, elements)).2 := by
  intro hAll
  have hStands : ∀ emote ∈ [⟨0, 2, some 1, lit "a b"⟩, kappa 4],
      TwitchEmoteOccurrence.Stands (lit "a b Kappa") emote := by
    intro emote hMem
    rcases List.mem_pair.mp hMem with rfl | rfl
    · exact ⟨by decide, by decide, by decide, by decide⟩
    · exact ⟨by decide, by decide, by decide, by decide⟩
  have hSorted : List.Pairwise (fun e e' : TwitchEmoteOccurrence => e.start < e'.start)
      [⟨0, 2, some 1, lit "a b"⟩, kappa 4] := by decide
  have hShows := hAll plainSurroundings {} (lit "a b Kappa") _ [] plain_plainSurroundings hStands hSorted
  have hLast := (addWords_lineOutcome plain_plainSurroundings hStands hSorted []).lastMisfit hStands hSorted
    hShows
  refine (hLast [] ⟨0, 2, some 1, lit "a b"⟩ [kappa 4] rfl ⟨by simp, .nil⟩ (.inl (by decide))).2 (kappa 4)
    (List.mem_singleton_self _) ⟨by decide, fun e he hNe => ?_⟩
  rcases List.mem_pair.mp he with rfl | rfl
  · exact .inl (by decide)
  · exact absurd rfl hNe

end Claim

end Chatterino.Messages
