import Chatterino.Kick.ContentRoundTrip
import Chatterino.Lib.Coverage

/-! # Emotes that come with positions

The ranges of all emotes are checked against the content and sorted by their start. A range that ends before an
earlier one sends the position back, so that the text of the earlier one is read again.
-/

namespace Chatterino.Kick

open Lib QString

structure KickEmotePosition where
  start : Int := 0
  stop : Int := 0

structure KickEmote where
  emoteId : QString
  emoteName : QString := []
  positions : List KickEmotePosition

/-- `std::sort` by the start, which may order ranges of one start in any way. -/
structure StartSort where
  sort : List EmoteMatch → List EmoteMatch
  perm : ∀ ranges, (sort ranges).Perm ranges
  sorted : ∀ ranges, (sort ranges).Pairwise fun a b => a.start ≤ b.start

def hasValidApiEmotes (emotes : List KickEmote) : Bool :=
  emotes.any fun emote => !emote.positions.isEmpty && !emote.emoteId.isEmpty

def nameInContent (emoteText : QString) : QString :=
  if lit "[emote:" <+: emoteText ∧ lit "]" <:+ emoteText then
    let parts := ((emoteText.drop 7).take (emoteText.length - 8)).splitOn 0x3A
    if 2 ≤ parts.length then parts.getLast?.getD [] else []
  else trimmed emoteText

def emoteRange (content : QString) (emote : KickEmote) (pos : KickEmotePosition) : Option EmoteMatch :=
  if 0 ≤ pos.start ∧ pos.start < pos.stop ∧ pos.stop ≤ content.length then
    let emoteText := (content.take pos.stop.toNat).drop pos.start.toNat
    some ⟨pos.start.toNat, pos.stop.toNat, emote.emoteId,
      if emote.emoteName.isEmpty then nameInContent emoteText else emote.emoteName⟩
  else none

def emoteRanges (content : QString) (emotes : List KickEmote) : List EmoteMatch :=
  emotes.flatMap fun emote => emote.positions.filterMap (emoteRange content emote)

def EmoteMatch.named (range : EmoteMatch) : EmoteMatch :=
  { range with emoteName := if range.emoteName.isEmpty then range.emoteId else range.emoteName }

def shownRanges (order : StartSort) (content : QString) (emotes : List KickEmote) : List EmoteMatch :=
  if hasValidApiEmotes emotes ∧ emoteRanges content emotes ≠ [] then
    (order.sort (emoteRanges content emotes)).map EmoteMatch.named
  else globalMatch content

def ChannelEmotes.parsePositioned (channel : ChannelEmotes) (order : StartSort) (content : QString)
    (emotes : List KickEmote) : ChannelEmotes × List ContentElement :=
  let ranges := shownRanges order content emotes
  (ranges.foldl ChannelEmotes.learn channel, channel.addMatches content 0 ranges)

inductive Placed where
  | word (piece : Piece QChar)
  | emote (range : EmoteMatch)

namespace Placed

def start : Placed → Nat
  | word piece => piece.start
  | emote range => range.start

def word? : Placed → Option (Piece QChar)
  | word piece => some piece
  | emote _ => none

def emote? : Placed → Option EmoteMatch
  | word _ => none
  | emote range => some range

def Shows : Placed → ContentElement → Prop
  | word piece, element => element.isEmote = false ∧ element.name = piece.items
  | emote range, element => element = .emote ⟨range.emoteName, range.emoteId⟩

end Placed

def EmoteMatch.Contains (range : EmoteMatch) (p : Nat) : Prop := range.start ≤ p ∧ p < range.stop

instance (range : EmoteMatch) (p : Nat) : Decidable (range.Contains p) := inferInstanceAs (Decidable (_ ∧ _))

def placedWords (placed : List Placed) : List (Piece QChar) := placed.filterMap Placed.word?

/-- Elements in the order of the content: each range once as an emote, and what is outside of them once as text. -/
structure ShownOnce (content : QString) (ranges : List EmoteMatch) (placed : List Placed) : Prop where
  ordered : placed.Pairwise fun a b => a.start ≤ b.start
  words : ∀ piece ∈ placedWords placed, piece.In content
  emotes : (placed.filterMap Placed.emote?).Perm ranges
  outside : ∀ p, (∃ c ∈ content[p]?, isSpace c = false) → (∀ range ∈ ranges, ¬range.Contains p) →
    cover (placedWords placed) p = 1
  inside : ∀ range ∈ ranges, ∀ p, range.Contains p → cover (placedWords placed) p = 0

def ShowsContent (content : QString) (ranges : List EmoteMatch) (elements : List ContentElement) : Prop :=
  ∃ placed, List.Forall₂ Placed.Shows placed elements ∧ ShownOnce content ranges placed

/-- Where a range ends before an earlier one, only white space follows up to the end of that one or the next range. -/
def BlankBehind (content : QString) : (reached currentPos : Nat) → List EmoteMatch → Prop
  | reached, currentPos, [] => ∀ c ∈ (content.take reached).drop currentPos, isSpace c
  | reached, currentPos, range :: rest =>
    (∀ c ∈ (content.take (min reached range.start)).drop currentPos, isSpace c) ∧
      BlankBehind content (max reached range.stop) range.stop rest

instance decidableBlankBehind (content : QString) : (reached currentPos : Nat) → (ranges : List EmoteMatch) →
    Decidable (BlankBehind content reached currentPos ranges)
  | _, _, [] => decidableForallMem _
  | reached, _, range :: rest =>
    have := decidableBlankBehind content (max reached range.stop) range.stop rest
    instDecidableAnd

theorem exists_trimmed_parts (text : QString) : ∃ lead trail, text = lead ++ (trimmed text ++ trail) ∧
    (∀ c ∈ lead, isSpace c) ∧ (∀ c ∈ trail, isSpace c) ∧ ∀ c ∈ (trimmed text).head?, isSpace c = false := by
  have hRest : trimmed text ++ ((text.dropWhile isSpace).reverse.takeWhile isSpace).reverse = text.dropWhile isSpace := by
    rw [trimmed, ← List.reverse_append, List.takeWhile_append_dropWhile, List.reverse_reverse]
  refine ⟨text.takeWhile isSpace, ((text.dropWhile isSpace).reverse.takeWhile isSpace).reverse, ?_, ?_, ?_, ?_⟩
  · rw [hRest, List.takeWhile_append_dropWhile]
  · intro c hc
    exact List.mem_takeWhile_imp hc
  · intro c hc
    exact List.mem_takeWhile_imp (List.mem_reverse.mp hc)
  · intro c hc
    have hHead : c ∈ (text.dropWhile isSpace).head? := by
      rw [← hRest]
      exact List.mem_head?_append_of_mem_head? hc
    have := List.head?_dropWhile_not isSpace text
    rw [Option.mem_def.mp hHead] at this
    simpa using this

def IsVisibleAt (content : QString) (p : Nat) : Prop := ∃ c ∈ content[p]?, isSpace c = false

structure FillsGap (content : QString) (currentPos stop : Nat) (pieces : List (Piece QChar)) : Prop where
  ordered : pieces.Pairwise fun a b => a.start ≤ b.start
  within : ∀ piece ∈ pieces, piece.In content ∧ currentPos ≤ piece.start ∧ piece.start ≤ stop
  visible : ∀ p, IsVisibleAt content p → currentPos ≤ p → p < stop → cover pieces p = 1
  covered : ∀ p, cover pieces p ≠ 0 → p < stop ∧ ∃ first, currentPos ≤ first ∧ first ≤ p ∧ IsVisibleAt content first

theorem cover_filter_isEmpty (pieces : List (Piece QChar)) (p : Nat) :
    cover (pieces.filter fun piece => !piece.items.isEmpty) p = cover pieces p := by
  rw [cover, List.countP_filter, cover]
  refine List.countP_congr fun piece _ => ?_
  obtain ⟨start, items⟩ := piece
  cases items with
  | nil => simp [Piece.not_contains_nil]
  | cons c items => simp

theorem getElem?_trimmed {text lead trail : QString} (hParts : text = lead ++ (trimmed text ++ trail))
    (hLead : ∀ c ∈ lead, isSpace c) (hTrail : ∀ c ∈ trail, isSpace c) {k : Nat} {c : QChar} (hGet : text[k]? = some c)
    (hVisible : isSpace c = false) : lead.length ≤ k ∧ (trimmed text)[k - lead.length]? = some c := by
  rw [hParts, List.getElem?_append] at hGet
  split_ifs at hGet with hInLead
  · exact absurd (hLead c (List.mem_of_getElem? hGet)) (by simp [hVisible])
  · rw [List.getElem?_append] at hGet
    split_ifs at hGet with hInside
    · exact ⟨Nat.le_of_not_lt hInLead, hGet⟩
    · exact absurd (hTrail c (List.mem_of_getElem? hGet)) (by simp [hVisible])

theorem exists_fillsGap (channel : ChannelEmotes) {content : QString} {currentPos stop : Nat}
    (hGap : currentPos ≤ stop) :
    ∃ pieces, FillsGap content currentPos stop pieces ∧
      channel.addTrimmed ((content.drop currentPos).take (stop - currentPos)) =
        pieces.map fun piece => channel.wordElement piece.items := by
  obtain ⟨text, hText⟩ : ∃ text, text = (content.drop currentPos).take (stop - currentPos) := ⟨_, rfl⟩
  obtain ⟨lead, trail, hParts, hLead, hTrail, hHead⟩ := exists_trimmed_parts text
  have hGet {p : Nat} (hFrom : currentPos ≤ p) (hTo : p < stop) : content[p]? = text[p - currentPos]? := by
    rw [hText, List.getElem?_take_of_lt (by omega), List.getElem?_drop, Nat.add_sub_cancel' hFrom]
  have hLength : lead.length + (trimmed text).length ≤ stop - currentPos := by
    have hSum := congrArg List.length hParts
    have hShort : text.length ≤ stop - currentPos := hText ▸ List.length_take_le _ _
    simp only [List.length_append] at hSum
    omega
  have hIn : trimmed text <+: content.drop (currentPos + lead.length) := by
    have hPrefix : lead ++ trimmed text <+: content.drop currentPos := by
      refine List.IsPrefix.trans ?_ (List.take_prefix (stop - currentPos) _)
      rw [← hText]
      exact ⟨trail, by rw [List.append_assoc, ← hParts]⟩
    obtain ⟨after, hAfter⟩ := hPrefix
    refine ⟨after, ?_⟩
    rw [← List.drop_drop, ← hAfter, List.append_assoc, List.drop_left]
  have hPieces := forall_mem_splitPieces SPACE hIn
  refine ⟨(splitPieces SPACE (currentPos + lead.length) (trimmed text)).filter fun piece => !piece.items.isEmpty,
    ⟨(pairwise_splitPieces _ _ _).filter _, fun piece hPiece => ?_, fun p hVisible hFrom hTo => ?_, fun p hCover => ?_⟩, ?_⟩
  · obtain ⟨hPiece, hFrom, hTo⟩ := hPieces piece (List.mem_of_mem_filter hPiece)
    exact ⟨hPiece, by omega, by omega⟩
  · obtain ⟨c, hc, hNotSpace⟩ := hVisible
    rw [hGet hFrom hTo] at hc
    obtain ⟨hAfter, hTrimmed⟩ := getElem?_trimmed hParts hLead hTrail hc hNotSpace
    rw [cover_filter_isEmpty, cover_splitPieces, if_pos]
    refine ⟨by omega, c, ?_, ?_⟩
    · rwa [Nat.sub_add_eq]
    · rintro rfl
      exact absurd hNotSpace (by decide)
  · rw [cover_filter_isEmpty, cover_splitPieces] at hCover
    have hInside := of_not_not fun h => hCover (if_neg h)
    obtain ⟨hFrom, c, hc, -⟩ := hInside
    have hBound := (List.getElem?_eq_some_iff.mp hc).1
    refine ⟨by omega, currentPos + lead.length, Nat.le_add_right _ _, hFrom, ?_⟩
    cases hFirst : trimmed text with
    | nil => simp [hFirst] at hBound
    | cons first rest =>
      refine ⟨first, ?_, hHead first (by simp [hFirst])⟩
      obtain ⟨after, hAfter⟩ := hIn
      rw [← List.head?_drop, ← hAfter, hFirst]
      rfl
  · rw [← hText, channel.addTrimmed_eq, split, ← map_items_splitPieces SPACE (currentPos + lead.length), List.filter_map,
      List.map_map]
    rfl

theorem exists_gap (channel : ChannelEmotes) (content : QString) (currentPos stop : Nat) :
    ∃ pieces, FillsGap content currentPos stop pieces ∧
      (if currentPos < stop then channel.addTrimmed ((content.drop currentPos).take (stop - currentPos)) else []) =
        pieces.map fun piece => channel.wordElement piece.items := by
  rcases Nat.lt_or_ge currentPos stop with hGap | hGap
  · rw [if_pos hGap]
    exact exists_fillsGap channel hGap.le
  · rw [if_neg (Nat.not_lt.mpr hGap)]
    refine ⟨[], ⟨List.Pairwise.nil, by rintro _ ⟨⟩, fun p _ hFrom hTo => ?_, fun p hCover => absurd rfl hCover⟩, rfl⟩
    omega

structure Ordered (content : QString) (ranges : List EmoteMatch) : Prop where
  sorted : ranges.Pairwise fun a b => a.start ≤ b.start
  nonempty : ∀ range ∈ ranges, range.start < range.stop
  bounded : ∀ range ∈ ranges, range.stop ≤ content.length

structure Follows (content : QString) (reached currentPos : Nat) (ranges : List EmoteMatch) (placed : List Placed) :
    Prop where
  ordered : placed.Pairwise fun a b => a.start ≤ b.start
  words : ∀ piece ∈ placedWords placed, piece.In content
  emotes : placed.filterMap Placed.emote? = ranges
  starts : ∀ bound ≤ currentPos, (∀ range ∈ ranges, bound ≤ range.start) → ∀ x ∈ placed, bound ≤ x.start
  afterStops : ∀ bound ≤ currentPos, (∀ range ∈ ranges, bound ≤ range.stop) → ∀ x ∈ placedWords placed, bound ≤ x.start
  outside : ∀ p, IsVisibleAt content p → reached ≤ p → (∀ range ∈ ranges, ¬range.Contains p) →
    cover (placedWords placed) p = 1
  inside : BlankBehind content reached currentPos ranges → ∀ p, cover (placedWords placed) p ≠ 0 →
    reached ≤ p ∧ ∀ range ∈ ranges, ¬range.Contains p
  repeated : ¬BlankBehind content reached currentPos ranges → ∃ p, IsVisibleAt content p ∧
    cover (placedWords placed) p ≠ 0 ∧ (p < reached ∨ ∃ range ∈ ranges, range.Contains p)

theorem placedWords_map_word (pieces : List (Piece QChar)) : placedWords (pieces.map Placed.word) = pieces := by
  rw [placedWords, List.filterMap_map]
  exact List.filterMap_some

theorem exists_visible_of_not_blank {content : QString} {currentPos stop : Nat}
    (h : ¬∀ c ∈ (content.take stop).drop currentPos, isSpace c) :
    ∃ p, IsVisibleAt content p ∧ currentPos ≤ p ∧ p < stop := by
  push Not at h
  obtain ⟨c, hMem, hVisible⟩ := h
  obtain ⟨k, hk⟩ := List.getElem?_of_mem hMem
  rw [List.getElem?_drop, List.getElem?_take] at hk
  split_ifs at hk with hShort
  exact ⟨currentPos + k, ⟨c, hk, by simpa using hVisible⟩, Nat.le_add_right _ _, hShort⟩

theorem not_visible_of_blank {content : QString} {currentPos stop p : Nat}
    (h : ∀ c ∈ (content.take stop).drop currentPos, isSpace c) (hVisible : IsVisibleAt content p) (hFrom : currentPos ≤ p) :
    stop ≤ p := by
  obtain ⟨c, hc, hNotSpace⟩ := hVisible
  by_contra hTo
  have hMem : c ∈ (content.take stop).drop currentPos := by
    refine List.mem_of_getElem? (i := p - currentPos) ?_
    rw [List.getElem?_drop, Nat.add_sub_cancel' hFrom, List.getElem?_take_of_lt (by omega)]
    exact hc
  exact absurd (h c hMem) (by simp [hNotSpace])

theorem lt_length_of_isVisibleAt {content : QString} {p : Nat} (h : IsVisibleAt content p) : p < content.length := by
  obtain ⟨c, hc, -⟩ := h
  exact (List.getElem?_eq_some_iff.mp hc).1

theorem follows_nil {content : QString} {reached currentPos : Nat} {pieces : List (Piece QChar)}
    (h : FillsGap content currentPos content.length pieces) (hReached : currentPos ≤ reached) :
    Follows content reached currentPos [] (pieces.map Placed.word) where
  ordered := List.pairwise_map.mpr h.ordered
  words := by
    rw [placedWords_map_word]
    exact fun piece hPiece => (h.within piece hPiece).1
  emotes := by
    rw [List.filterMap_map]
    exact List.filterMap_eq_nil_iff.mpr fun _ _ => rfl
  starts bound hBound _ x hx := by
    obtain ⟨piece, hPiece, rfl⟩ := List.mem_map.mp hx
    exact hBound.trans (h.within piece hPiece).2.1
  afterStops bound hBound _ piece hPiece := by
    rw [placedWords_map_word] at hPiece
    exact hBound.trans (h.within piece hPiece).2.1
  outside p hVisible hFrom _ := by
    rw [placedWords_map_word]
    exact h.visible p hVisible (hReached.trans hFrom) (lt_length_of_isVisibleAt hVisible)
  inside hBlank p hCover := by
    rw [placedWords_map_word] at hCover
    obtain ⟨-, first, hFrom, hTo, hVisible⟩ := h.covered p hCover
    exact ⟨(not_visible_of_blank hBlank hVisible hFrom).trans hTo, by rintro _ ⟨⟩⟩
  repeated hNot := by
    obtain ⟨p, hVisible, hFrom, hTo⟩ := exists_visible_of_not_blank hNot
    refine ⟨p, hVisible, ?_, Or.inl hTo⟩
    rw [placedWords_map_word, h.visible p hVisible hFrom (lt_length_of_isVisibleAt hVisible)]
    exact Nat.one_ne_zero

section step

variable {content : QString} {reached currentPos : Nat} {range : EmoteMatch} {rest : List EmoteMatch}
  {pieces : List (Piece QChar)} {placed : List Placed}

theorem placedWords_step : placedWords (pieces.map Placed.word ++ Placed.emote range :: placed) = pieces ++ placedWords placed := by
  rw [placedWords, List.filterMap_append, ← placedWords, placedWords_map_word]
  rfl

theorem follows_cons (hGap : FillsGap content currentPos range.start pieces)
    (hRest : Follows content (max reached range.stop) range.stop rest placed) (hOrdered : Ordered content (range :: rest))
    (hReached : currentPos ≤ reached) :
    Follows content reached currentPos (range :: rest) (pieces.map Placed.word ++ Placed.emote range :: placed) := by
  obtain ⟨hStarts, -⟩ := List.pairwise_cons.mp hOrdered.sorted
  have hNonempty := hOrdered.nonempty range List.mem_cons_self
  have hLater (later : EmoteMatch) (hMem : later ∈ rest) : range.start < later.stop :=
    (hStarts later hMem).trans_lt (hOrdered.nonempty later (List.mem_cons_of_mem _ hMem))
  have hPlaced : ∀ x ∈ placed, range.start ≤ x.start := hRest.starts range.start hNonempty.le hStarts
  have hWords (piece : Piece QChar) (hPiece : piece ∈ placedWords placed) : range.start < piece.start :=
    hRest.afterStops (range.start + 1) hNonempty hLater piece hPiece
  have hRestAfter (p : Nat) (hCover : cover (placedWords placed) p ≠ 0) : range.start < p := by
    obtain ⟨piece, hPiece, hContains⟩ : ∃ piece ∈ placedWords placed, piece.Contains p := by
      by_contra hNone
      push Not at hNone
      exact hCover (cover_eq_zero_iff.mpr hNone)
    exact (hWords piece hPiece).trans_le hContains.1
  have hNotLater {p : Nat} (hp : p < range.start) : ∀ other ∈ range :: rest, ¬other.Contains p := by
    rw [List.forall_mem_cons]
    refine ⟨fun h => absurd h.1 (by omega), fun other hOther h => ?_⟩
    have := (hStarts other hOther).trans h.1
    omega
  constructor
  · rw [List.pairwise_append, List.pairwise_cons]
    refine ⟨List.pairwise_map.mpr hGap.ordered, ⟨hPlaced, hRest.ordered⟩, fun x hx y hy => ?_⟩
    obtain ⟨piece, hPiece, rfl⟩ := List.mem_map.mp hx
    have hTo := (hGap.within piece hPiece).2.2
    rcases List.mem_cons.mp hy with rfl | hy
    · exact hTo
    · exact hTo.trans (hPlaced y hy)
  · rw [placedWords_step, List.forall_mem_append]
    exact ⟨fun piece hPiece => (hGap.within piece hPiece).1, hRest.words⟩
  · rw [List.filterMap_append, List.filterMap_cons, ← hRest.emotes, List.filterMap_map]
    have hNil : pieces.filterMap (Placed.emote? ∘ Placed.word) = [] := List.filterMap_eq_nil_iff.mpr fun _ _ => rfl
    rw [hNil]
    rfl
  · intro bound hBound hAll
    rw [List.forall_mem_cons] at hAll
    rw [List.forall_mem_append, List.forall_mem_cons]
    refine ⟨fun x hx => ?_, hAll.1, fun x hx => hAll.1.trans (hPlaced x hx)⟩
    obtain ⟨piece, hPiece, rfl⟩ := List.mem_map.mp hx
    exact hBound.trans (hGap.within piece hPiece).2.1
  · intro bound hBound hAll
    rw [List.forall_mem_cons] at hAll
    rw [placedWords_step, List.forall_mem_append]
    exact ⟨fun piece hPiece => hBound.trans (hGap.within piece hPiece).2.1, hRest.afterStops bound hAll.1 hAll.2⟩
  · intro p hVisible hFrom hOutside
    rw [placedWords_step, cover_append]
    rcases Nat.lt_or_ge p range.start with hp | hp
    · have hZero : cover (placedWords placed) p = 0 := by
        by_contra hCover
        exact absurd (hRestAfter p hCover) (by omega)
      rw [hZero, hGap.visible p hVisible (hReached.trans hFrom) hp]
    · rw [List.forall_mem_cons] at hOutside
      have hStop : range.stop ≤ p := by
        by_contra hInside
        exact hOutside.1 ⟨hp, by omega⟩
      have hZero : cover pieces p = 0 := by
        by_contra hCover
        exact absurd (hGap.covered p hCover).1 (by omega)
      rw [hZero, hRest.outside p hVisible (Nat.max_le.mpr ⟨hFrom, hStop⟩) hOutside.2]
  · intro hBlank p hCover
    rw [placedWords_step, cover_append, Ne, Nat.add_eq_zero_iff, not_and_or] at hCover
    rcases hCover with hCover | hCover
    · obtain ⟨hTo, first, hFrom, hFirst, hVisible⟩ := hGap.covered p hCover
      have hBefore := not_visible_of_blank hBlank.1 hVisible hFrom
      exact ⟨by omega, hNotLater hTo⟩
    · obtain ⟨hFrom, hOutside⟩ := hRest.inside hBlank.2 p hCover
      refine ⟨(Nat.le_max_left _ _).trans hFrom, List.forall_mem_cons.mpr ⟨fun h => ?_, hOutside⟩⟩
      exact absurd h.2 (Nat.not_lt.mpr ((Nat.le_max_right _ _).trans hFrom))
  · intro hNot
    rw [BlankBehind, not_and_or] at hNot
    rcases hNot with hNot | hNot
    · obtain ⟨p, hVisible, hFrom, hTo⟩ := exists_visible_of_not_blank hNot
      refine ⟨p, hVisible, ?_, Or.inl (hTo.trans_le (Nat.min_le_left _ _))⟩
      rw [placedWords_step, cover_append, hGap.visible p hVisible hFrom (hTo.trans_le (Nat.min_le_right _ _))]
      omega
    · obtain ⟨p, hVisible, hCover, hWhere⟩ := hRest.repeated hNot
      refine ⟨p, hVisible, ?_, ?_⟩
      · rw [placedWords_step, cover_append]
        omega
      · rcases hWhere with hBefore | ⟨other, hOther, hContains⟩
        · rcases lt_max_iff.mp hBefore with hp | hp
          · exact Or.inl hp
          · exact Or.inr ⟨range, List.mem_cons_self, (hRestAfter p hCover).le, hp⟩
        · exact Or.inr ⟨other, List.mem_cons_of_mem _ hOther, hContains⟩

end step

theorem shows_map_word (channel : ChannelEmotes) (pieces : List (Piece QChar)) :
    List.Forall₂ Placed.Shows (pieces.map Placed.word) (pieces.map fun piece => channel.wordElement piece.items) := by
  rw [List.forall₂_map_left_iff, List.forall₂_map_right_iff, List.forall₂_same]
  exact fun piece _ => ⟨channel.isEmote_wordElement _, channel.name_wordElement _⟩

theorem exists_follows (channel : ChannelEmotes) {content : QString} {ranges : List EmoteMatch} {reached currentPos : Nat}
    (hOrdered : Ordered content ranges) (hReached : currentPos ≤ reached) :
    ∃ placed, Follows content reached currentPos ranges placed ∧
      List.Forall₂ Placed.Shows placed (channel.addMatches content currentPos ranges) := by
  induction ranges generalizing reached currentPos with
  | nil =>
    obtain ⟨pieces, hGap, hElements⟩ := exists_gap channel content currentPos content.length
    refine ⟨_, follows_nil hGap hReached, ?_⟩
    have hAll : (content.drop currentPos).take (content.length - currentPos) = content.drop currentPos :=
      List.take_of_length_le (List.length_drop ▸ le_rfl)
    rw [hAll] at hElements
    rw [ChannelEmotes.addMatches, hElements]
    exact shows_map_word channel pieces
  | cons range rest ih =>
    obtain ⟨pieces, hGap, hElements⟩ := exists_gap channel content currentPos range.start
    obtain ⟨placed, hRest, hShows⟩ := ih ⟨hOrdered.sorted.of_cons, fun r h => hOrdered.nonempty r (List.mem_cons_of_mem _ h),
      fun r h => hOrdered.bounded r (List.mem_cons_of_mem _ h)⟩ (le_max_right reached range.stop)
    refine ⟨_, follows_cons hGap hRest hOrdered hReached, ?_⟩
    have hGapShows := shows_map_word channel pieces
    rw [← hElements] at hGapShows
    exact List.rel_append hGapShows (List.Forall₂.cons rfl hShows)

def visibleText (elements : List ContentElement) : Nat :=
  (elements.map fun element => if element.isEmote then 0 else element.name.countP fun c => !isSpace c).sum

theorem visibleText_eq {placed : List Placed} {elements : List ContentElement} (h : List.Forall₂ Placed.Shows placed elements) :
    visibleText elements = ((placedWords placed).map fun piece => piece.items.countP fun c => !isSpace c).sum := by
  induction h with
  | nil => rfl
  | @cons x element placed elements hShows _ ih =>
    rw [visibleText, List.map_cons, List.sum_cons, ← visibleText, ih]
    cases x with
    | word piece =>
      rw [hShows.1, hShows.2]
      rfl
    | emote range =>
      rw [show element = ContentElement.emote ⟨range.emoteName, range.emoteId⟩ from hShows]
      exact Nat.zero_add _

theorem isVisibleAt_iff {content : QString} {p : Nat} :
    IsVisibleAt content p ↔ (content[p]?).any fun c => !isSpace c := by
  simp [IsVisibleAt, Option.any_eq_true]

theorem visibleText_eq_sum {content : QString} {placed : List Placed} {elements : List ContentElement}
    (hShows : List.Forall₂ Placed.Shows placed elements) (hWords : ∀ piece ∈ placedWords placed, piece.In content) :
    visibleText elements = ∑ p ∈ Finset.range content.length,
      if (content[p]?).any fun c => !isSpace c then cover (placedWords placed) p else 0 := by
  rw [visibleText_eq hShows, sum_countP_eq_sum _ hWords]

theorem showsContent_iff (channel : ChannelEmotes) {content : QString} {ranges : List EmoteMatch}
    (hOrdered : Ordered content ranges) :
    ShowsContent content ranges (channel.addMatches content 0 ranges) ↔ BlankBehind content 0 0 ranges := by
  obtain ⟨placed, hFollows, hShows⟩ := exists_follows channel hOrdered (le_refl 0)
  constructor
  · rintro ⟨other, hOtherShows, hOnce⟩
    by_contra hNot
    obtain ⟨p, hVisible, hCover, hWhere⟩ := hFollows.repeated hNot
    obtain ⟨range, hRange, hContains⟩ := hWhere.resolve_left (Nat.not_lt_zero p)
    have hSame := (visibleText_eq_sum hShows hFollows.words).symm.trans (visibleText_eq_sum hOtherShows hOnce.words)
    refine absurd hSame (Nat.ne_of_gt (Finset.sum_lt_sum (fun q _ => ?_) ⟨p, ?_, ?_⟩))
    · split_ifs with hq
      · have hVisibleAt := isVisibleAt_iff.mpr hq
        by_cases hOutside : ∀ range ∈ ranges, ¬range.Contains q
        · rw [hOnce.outside q hVisibleAt hOutside, hFollows.outside q hVisibleAt (Nat.zero_le q) hOutside]
        · push Not at hOutside
          obtain ⟨inner, hInner, hq⟩ := hOutside
          rw [hOnce.inside inner hInner q hq]
          exact Nat.zero_le _
      · exact le_rfl
    · exact Finset.mem_range.mpr (lt_length_of_isVisibleAt hVisible)
    · rw [if_pos (isVisibleAt_iff.mp hVisible), if_pos (isVisibleAt_iff.mp hVisible), hOnce.inside range hRange p hContains]
      exact Nat.pos_of_ne_zero hCover
  · intro hBlank
    refine ⟨placed, hShows, hFollows.ordered, hFollows.words, hFollows.emotes ▸ List.Perm.refl _, ?_, ?_⟩
    · exact fun p hVisible hOutside => hFollows.outside p hVisible (Nat.zero_le p) hOutside
    · intro range hRange p hContains
      by_contra hCover
      exact (hFollows.inside hBlank p hCover).2 range hRange hContains

theorem mem_emoteRanges {content : QString} {emotes : List KickEmote} {range : EmoteMatch}
    (h : range ∈ emoteRanges content emotes) : range.start < range.stop ∧ range.stop ≤ content.length := by
  obtain ⟨emote, -, hRange⟩ := List.mem_flatMap.mp h
  obtain ⟨pos, -, hPos⟩ := List.mem_filterMap.mp hRange
  rw [emoteRange, Option.ite_none_right_eq_some] at hPos
  obtain ⟨hInside, hRange⟩ := hPos
  rw [← Option.some.inj hRange]
  dsimp only
  omega

theorem forall_mem_globalMatchFrom (pos skip : Nat) (content : QString) :
    (∀ em ∈ globalMatchFrom pos skip content, pos + skip ≤ em.start ∧ em.start < em.stop ∧
      em.stop ≤ pos + content.length) ∧
    (globalMatchFrom pos skip content).Pairwise fun a b => a.stop ≤ b.start := by
  induction content generalizing pos skip with
  | nil => exact ⟨by rintro _ ⟨⟩, List.Pairwise.nil⟩
  | cons c content ih =>
    cases skip with
    | succ skip =>
      obtain ⟨hBounds, hPairs⟩ := ih (pos + 1) skip
      refine ⟨fun em hMem => ?_, hPairs⟩
      obtain ⟨hStart, hNonempty, hStop⟩ := hBounds em hMem
      exact ⟨by omega, hNonempty, by rw [List.length_cons]; omega⟩
    | zero =>
      cases hMatch : Regex.matchEnd emoteRegex (c :: content) with
      | none =>
        obtain ⟨hBounds, hPairs⟩ := ih (pos + 1) 0
        rw [globalMatchFrom, hMatch]
        refine ⟨fun em hMem => ?_, hPairs⟩
        obtain ⟨hStart, hNonempty, hStop⟩ := hBounds em hMem
        exact ⟨by omega, hNonempty, by rw [List.length_cons]; omega⟩
      | some rest =>
        obtain ⟨id, name, tail, -, -, rfl⟩ := ChannelEmotes.exists_of_matchEnd hMatch
        obtain ⟨hBounds, hPairs⟩ := ih (pos + 1) tail.length
        rw [globalMatchFrom, hMatch]
        dsimp only
        rw [ChannelEmotes.take_append_sub, ChannelEmotes.length_append_sub, List.forall_mem_cons, List.pairwise_cons]
        refine ⟨⟨?_, fun em hMem => ?_⟩, fun em hMem => ?_, hPairs⟩
        · simp only [List.length_cons, List.length_append]
          omega
        · obtain ⟨hStart, hNonempty, hStop⟩ := hBounds em hMem
          exact ⟨by omega, hNonempty, by rw [List.length_cons]; omega⟩
        · have := (hBounds em hMem).1
          simp only [List.length_cons]
          omega

theorem ordered_shownRanges (order : StartSort) (content : QString) (emotes : List KickEmote) :
    Ordered content (shownRanges order content emotes) := by
  unfold shownRanges
  split_ifs with hPositions
  · have hMem (range : EmoteMatch) (h : range ∈ (order.sort (emoteRanges content emotes)).map EmoteMatch.named) :
        range.start < range.stop ∧ range.stop ≤ content.length := by
      obtain ⟨unnamed, hUnnamed, rfl⟩ := List.mem_map.mp h
      have hAccepted : unnamed ∈ emoteRanges content emotes := (order.perm _).mem_iff.mp hUnnamed
      have hRange := mem_emoteRanges hAccepted
      exact hRange
    exact ⟨List.pairwise_map.mpr (order.sorted _), fun range h => (hMem range h).1, fun range h => (hMem range h).2⟩
  · obtain ⟨hBounds, hPairs⟩ := forall_mem_globalMatchFrom 0 0 content
    refine ⟨?_, fun em h => (hBounds em h).2.1, fun em h => by simpa using (hBounds em h).2.2⟩
    refine hPairs.imp_of_mem fun {a b} ha _ hab => ?_
    exact (hBounds a ha).2.1.le.trans hab

/-- The positions that come with a message lose and repeat no text unless one ends before an earlier one, with text
between their ends. -/
theorem parsePositioned_shows_iff (channel : ChannelEmotes) (order : StartSort) (content : QString)
    (emotes : List KickEmote) :
    ShowsContent content (shownRanges order content emotes) (channel.parsePositioned order content emotes).2 ↔
      BlankBehind content 0 0 (shownRanges order content emotes) :=
  showsContent_iff channel (ordered_shownRanges order content emotes)

def stableSort : StartSort where
  sort := List.insertionSort fun a b => a.start ≤ b.start
  perm := List.perm_insertionSort _
  sorted ranges := by
    have hTotal : Std.Total fun a b : EmoteMatch => a.start ≤ b.start := ⟨fun a b => Nat.le_total a.start b.start⟩
    have hTrans : IsTrans EmoteMatch fun a b => a.start ≤ b.start := ⟨fun _ _ _ => Nat.le_trans⟩
    exact List.pairwise_insertionSort _ ranges

def nestedEmotes : List KickEmote := [⟨lit "37218", lit "Kappa", [⟨0, 5⟩]⟩, ⟨lit "37219", lit "ap", [⟨1, 3⟩]⟩]

theorem not_shows_nestedEmotes : ¬ShowsContent (lit "Kappa Keepo") (shownRanges stableSort (lit "Kappa Keepo") nestedEmotes)
    (ChannelEmotes.parsePositioned {} stableSort (lit "Kappa Keepo") nestedEmotes).2 := by
  refine (showsContent_iff _ (ordered_shownRanges _ _ _)).not.mpr ?_
  decide

example : (ChannelEmotes.parsePositioned {} stableSort (lit "Kappa Keepo") nestedEmotes).2 =
    [.emote ⟨lit "Kappa", lit "37218"⟩, .emote ⟨lit "ap", lit "37219"⟩, .text (lit "pa"), .text (lit "Keepo")] := by
  decide

end Chatterino.Kick
