import Chatterino.Twitch.IrcMessageHandler

/-! # Emotes of a message

The tag counts code points of the whole message. An occurrence has the positions of code units in the content that is
left of it.
-/

namespace Chatterino.Twitch.IrcHandlers

open Lib QString Ignores

def DASH : QChar := 0x2D

def IsUInt (text : QString) (n : Nat) : Prop := integerValue text = some (n : Int) ∧ n < 4294967296

/-- The code point `k` of a text begins at `position`. -/
def IsPosition (content : QString) (k position : Int) : Prop :=
  ∃ before c after, content = before ++ c :: after ∧ isLowSurrogate c = false ∧ position = before.length ∧
    k = before.countP fun d => !isLowSurrogate d

structure Describes (content : QString) (messageOffset : Int) (range : QString) (occurrence : TwitchEmoteOccurrence) :
    Prop where
  start_nonneg : 0 ≤ occurrence.start
  start_le_end : occurrence.start ≤ occurrence.end_
  end_lt_length : occurrence.end_ < content.length
  name : occurrence.name = (content.take (occurrence.end_.toNat + 1)).drop occurrence.start.toNat
  coords : ∃ first last rest n m, range.splitOn DASH = first :: last :: rest ∧ IsUInt first n ∧ IsUInt last m ∧
    IsPosition content (n - messageOffset) occurrence.start ∧ IsPosition content (m - messageOffset) occurrence.end_

def emoteId (emote : QString) : QString := ((emote.splitOn COLON)[0]?).getD []

def emoteRanges (emote : QString) : List QString := ((emote.splitOn COLON)[1]?).elim [] (·.splitOn COMMA)

/-- The range lies in the table when what is no number counts as 0 and differences have 32 bits. -/
def Taken (content : QString) (messageOffset : Int) (range : QString) : Prop :=
  ∃ first last rest, range.splitOn DASH = first :: last :: rest ∧
    withoutOffset (toUInt first) messageOffset ≤ withoutOffset (toUInt last) messageOffset ∧
    withoutOffset (toUInt last) messageOffset < content.countP fun c => !isLowSurrogate c

def IsPlain (messageOffset : Int) (range : QString) : Prop :=
  ∃ first last rest n m, range.splitOn DASH = first :: last :: rest ∧ IsUInt first n ∧ IsUInt last m ∧
    (0 ≤ (n : Int) - messageOffset ∧ (n : Int) - messageOffset < 4294967296) ∧
    (0 ≤ (m : Int) - messageOffset ∧ (m : Int) - messageOffset < 4294967296)

def ReadsPlainly (content : QString) (messageOffset : Int) (emotes : List QString) : Prop :=
  ∀ emote ∈ emotes, ∀ earlier range later, emoteRanges emote = earlier ++ range :: later →
    (∀ r ∈ earlier ++ [range], Taken content messageOffset r) → IsPlain messageOffset range

def codePointPositions (content : QString) : List Nat :=
  (List.range content.length).filter fun i => content[i]?.any fun c => !isLowSurrogate c

theorem correctPositions_eq (content : QString) : correctPositions content = pure (codePointPositions content) := by
  have hFold (xs : List Nat) (acc : List Nat) (hxs : ∀ i ∈ xs, i < content.length) :
      xs.foldlM (fun positions i => do
        let c ← Checked.read content i
        return if isLowSurrogate c then positions else positions ++ [i]) acc =
      (pure (acc ++ xs.filter fun i => content[i]?.any fun c => !isLowSurrogate c) : Handler (List Nat)) := by
    induction xs generalizing acc with
    | nil => rw [List.foldlM_nil, List.filter_nil, List.append_nil]
    | cons i xs ih =>
      have hi := hxs i List.mem_cons_self
      have hGet := List.getElem?_eq_getElem hi
      rw [List.foldlM_cons, Checked.read_of_getElem? hGet]
      simp only [pure_bind]
      rw [ih _ fun j hj => hxs j (List.mem_cons_of_mem _ hj), List.filter_cons, hGet, Option.any_some]
      cases isLowSurrogate content[i] with
      | false => simp
      | true => simp
  refine (hFold (List.range content.length) [] fun i hi => List.mem_range.mp hi).trans ?_
  rw [List.nil_append]
  rfl

theorem codePointPositions_concat (content : QString) (c : QChar) : codePointPositions (content ++ [c]) =
    codePointPositions content ++ if isLowSurrogate c then [] else [content.length] := by
  have hFront : (List.range content.length).filter (fun i => (content ++ [c])[i]?.any fun c => !isLowSurrogate c) =
      codePointPositions content := by
    refine List.filter_congr fun i hi => ?_
    rw [List.getElem?_append_left (List.mem_range.mp hi)]
  rw [codePointPositions, List.length_append, List.length_singleton, List.range_succ, List.filter_append, hFront]
  cases hLow : isLowSurrogate c <;> simp [hLow]

theorem length_codePointPositions (content : QString) :
    (codePointPositions content).length = content.countP fun c => !isLowSurrogate c := by
  induction content using List.reverseRecOn with
  | nil => rfl
  | append_singleton content c ih =>
    rw [codePointPositions_concat, List.length_append, List.countP_append, ih]
    cases hLow : isLowSurrogate c <;> simp [hLow]

theorem isPosition_concat {content : QString} {c : QChar} {k position : Int} :
    IsPosition (content ++ [c]) k position ↔ IsPosition content k position ∨
      isLowSurrogate c = false ∧ position = content.length ∧ k = content.countP fun d => !isLowSurrogate d := by
  constructor
  · rintro ⟨before, d, after, hContent, hHigh, hPosition, hk⟩
    rcases List.eq_nil_or_concat after with rfl | ⟨after, e, rfl⟩
    · obtain ⟨rfl, hLast⟩ := List.append_inj' hContent rfl
      cases hLast
      exact Or.inr ⟨hHigh, hPosition, hk⟩
    · rw [List.concat_eq_append, ← List.cons_append, ← List.append_assoc] at hContent
      obtain ⟨rfl, -⟩ := List.append_inj' hContent rfl
      exact Or.inl ⟨before, d, after, rfl, hHigh, hPosition, hk⟩
  · rintro (⟨before, d, after, rfl, hHigh, hPosition, hk⟩ | ⟨hHigh, hPosition, hk⟩)
    · exact ⟨before, d, after ++ [c], by simp, hHigh, hPosition, hk⟩
    · exact ⟨content, c, [], rfl, hHigh, hPosition, hk⟩

theorem getElem?_codePointPositions {content : QString} {k p : Nat} :
    (codePointPositions content)[k]? = some p ↔ IsPosition content k p := by
  induction content using List.reverseRecOn with
  | nil =>
    refine ⟨fun h => ?_, fun h => ?_⟩
    · cases h
    · obtain ⟨before, c, after, hNil, -⟩ := h
      exact absurd hNil (by simp)
  | append_singleton content c ih =>
    have hLength := length_codePointPositions content
    rw [codePointPositions_concat, isPosition_concat, ← ih]
    cases hLow : isLowSurrogate c with
    | true => simp
    | false =>
      rw [if_neg Bool.false_ne_true]
      rcases Nat.lt_trichotomy k (codePointPositions content).length with hLt | hEq | hGt
      · rw [List.getElem?_append_left hLt]
        refine ⟨Or.inl, fun h => h.resolve_right fun hLast => ?_⟩
        omega
      · rw [hEq, List.getElem?_concat_length, List.getElem?_eq_none (Nat.le_refl _), ← hLength]
        simp [eq_comm]
      · rw [List.getElem?_eq_none (by rw [List.length_append, List.length_singleton]; omega),
          List.getElem?_eq_none (by omega)]
        refine ⟨fun h => (by cases h), fun h => h.elim (fun hNone => by cases hNone) fun hLast => ?_⟩
        omega

theorem IsPosition.lt_length {content : QString} {k position : Int} (h : IsPosition content k position) :
    0 ≤ k ∧ 0 ≤ position ∧ position < content.length := by
  obtain ⟨before, c, after, rfl, -, rfl, rfl⟩ := h
  rw [List.length_append, List.length_cons]
  omega

theorem IsPosition.unique {content : QString} {k k' position : Int} (h : IsPosition content k position)
    (h' : IsPosition content k' position) : k = k' := by
  obtain ⟨before, c, after, rfl, -, hPosition, rfl⟩ := h
  obtain ⟨before', c', after', hContent, -, hPosition', rfl⟩ := h'
  obtain ⟨rfl, -⟩ := List.append_inj hContent (by omega)
  rfl

theorem IsPosition.mono {content : QString} {k k' position position' : Int} (h : IsPosition content k position)
    (h' : IsPosition content k' position') (hLe : k ≤ k') : position ≤ position' := by
  by_contra hLt
  obtain ⟨before, c, after, rfl, -, rfl, rfl⟩ := h
  obtain ⟨before', c', after', hContent, hHigh, rfl, rfl⟩ := h'
  have hPrefix : before' ++ [c'] <+: before := by
    refine List.prefix_of_prefix_length_le ⟨after', by rw [List.append_assoc]; exact hContent.symm⟩
      (List.prefix_append before (c :: after)) ?_
    rw [List.length_append, List.length_singleton]
    omega
  have hCount := hPrefix.sublist.countP_le (p := fun d => !isLowSurrogate d)
  rw [List.countP_append, List.countP_singleton, hHigh] at hCount
  simp only [Bool.not_false, if_true] at hCount
  omega

variable (env : Surroundings)

def rangeOccurrence (id content : QString) (messageOffset : Int) (range : QString) : Option TwitchEmoteOccurrence :=
  match range.splitOn DASH with
  | first :: last :: _ =>
    let from_ := withoutOffset (toUInt first) messageOffset
    let to_ := withoutOffset (toUInt last) messageOffset
    if to_ < from_ then none
    else ((codePointPositions content)[from_]?).bind fun start =>
      ((codePointPositions content)[to_]?).map fun end_ =>
        let name := (content.drop start).take (end_ - start + 1)
        ⟨start, end_, env.getOrCreateEmote id name, name⟩
  | _ => none

def rangeOccurrences (id content : QString) (messageOffset : Int) : List QString → List TwitchEmoteOccurrence
  | [] => []
  | range :: ranges =>
    match rangeOccurrence env id content messageOffset range with
    | none => []
    | some occurrence => occurrence :: rangeOccurrences id content messageOffset ranges

theorem rangeOccurrence_eq_some {id content : QString} {messageOffset : Int} {range : QString}
    {occurrence : TwitchEmoteOccurrence} :
    rangeOccurrence env id content messageOffset range = some occurrence ↔
      ∃ first last rest, ∃ start end_ : Nat, range.splitOn DASH = first :: last :: rest ∧
        withoutOffset (toUInt first) messageOffset ≤ withoutOffset (toUInt last) messageOffset ∧
        IsPosition content (withoutOffset (toUInt first) messageOffset) start ∧
        IsPosition content (withoutOffset (toUInt last) messageOffset) end_ ∧
        occurrence = ⟨start, end_, env.getOrCreateEmote id ((content.drop start).take (end_ - start + 1)),
          (content.drop start).take (end_ - start + 1)⟩ := by
  constructor
  · intro h
    rw [rangeOccurrence] at h
    split at h
    · rename_i first last rest hSplit
      dsimp only at h
      split_ifs at h with hOrder
      obtain ⟨start, hStart, h⟩ := Option.bind_eq_some_iff.mp h
      obtain ⟨end_, hEnd, rfl⟩ := Option.map_eq_some_iff.mp h
      exact ⟨first, last, rest, start, end_, hSplit, not_lt.mp hOrder, getElem?_codePointPositions.mp hStart,
        getElem?_codePointPositions.mp hEnd, rfl⟩
    · cases h
  · rintro ⟨first, last, rest, start, end_, hSplit, hOrder, hStart, hEnd, rfl⟩
    rw [rangeOccurrence, hSplit]
    dsimp only
    rw [if_neg (not_lt.mpr hOrder), getElem?_codePointPositions.mpr hStart, getElem?_codePointPositions.mpr hEnd]
    rfl

theorem taken_iff {id content : QString} {messageOffset : Int} {range : QString} :
    Taken content messageOffset range ↔ (rangeOccurrence env id content messageOffset range).isSome = true := by
  rw [Option.isSome_iff_exists]
  constructor
  · rintro ⟨first, last, rest, hSplit, hOrder, hTable⟩
    rw [← length_codePointPositions] at hTable
    have hStart := List.getElem?_eq_getElem (hOrder.trans_lt hTable)
    have hEnd := List.getElem?_eq_getElem hTable
    exact ⟨_, (rangeOccurrence_eq_some env).mpr ⟨first, last, rest, _, _, hSplit, hOrder,
      getElem?_codePointPositions.mp hStart, getElem?_codePointPositions.mp hEnd, rfl⟩⟩
  · rintro ⟨occurrence, h⟩
    obtain ⟨first, last, rest, start, end_, hSplit, hOrder, -, hEnd, -⟩ := (rangeOccurrence_eq_some env).mp h
    refine ⟨first, last, rest, hSplit, hOrder, ?_⟩
    rw [← length_codePointPositions]
    exact (List.getElem?_eq_some_iff.mp (getElem?_codePointPositions.mpr hEnd)).1

theorem exists_cons_cons {α : Type} {xs : List α} (h : 2 ≤ xs.length) : ∃ x y rest, xs = x :: y :: rest := by
  obtain _ | ⟨x, _ | ⟨y, rest⟩⟩ := xs
  · cases h
  · rw [List.length_singleton] at h
    omega
  · exact ⟨x, y, rest, rfl⟩

theorem appendOccurrences_eq (id content : QString) (messageOffset : Int) (ranges : List QString)
    (vec : List TwitchEmoteOccurrence) :
    appendOccurrences env id content (codePointPositions content) messageOffset ranges vec =
      pure (vec ++ rangeOccurrences env id content messageOffset ranges) := by
  induction ranges generalizing vec with
  | nil => rw [appendOccurrences, rangeOccurrences, List.append_nil]
  | cons range ranges ih =>
    rw [appendOccurrences, rangeOccurrences]
    by_cases hCoords : (range.splitOn DASH).length < 2
    · have hNone : rangeOccurrence env id content messageOffset range = none := by
        rw [rangeOccurrence]
        split
        · rename_i hSplit
          rw [hSplit, List.length_cons, List.length_cons] at hCoords
          omega
        · rfl
      have hShort : (range.splitOn 0x2D).length < 2 := hCoords
      simp only [hNone, hShort, if_true, List.append_nil]
    · obtain ⟨first, last, rest, hSplit⟩ := exists_cons_cons (not_lt.mp hCoords)
      have hSplit' : range.splitOn 0x2D = first :: last :: rest := hSplit
      rw [rangeOccurrence, hSplit]
      simp only [hSplit', List.length_cons, if_neg (Nat.not_lt.mpr (Nat.le_add_left 2 rest.length))]
      rw [Checked.read_of_getElem? (a := first) rfl, Checked.read_of_getElem? (a := last) rfl, pure_bind, pure_bind]
      by_cases hOrder : withoutOffset (toUInt last) messageOffset < withoutOffset (toUInt first) messageOffset
      · rw [if_pos (Or.inl hOrder), if_pos hOrder, List.append_nil]
      · by_cases hTable : (codePointPositions content).length ≤ withoutOffset (toUInt last) messageOffset
        · rw [if_pos (Or.inr hTable), if_neg hOrder, List.getElem?_eq_none hTable]
          have hNone (start : Option Nat) (f : Nat → Nat → TwitchEmoteOccurrence) :
              (start.bind fun start => (none : Option Nat).map (f start)) = none := by
            cases start <;> rfl
          rw [hNone, List.append_nil]
        · have hEnd := List.getElem?_eq_getElem (not_le.mp hTable)
          have hStart := List.getElem?_eq_getElem ((not_lt.mp hOrder).trans_lt (not_le.mp hTable))
          have hEndPosition := getElem?_codePointPositions.mp hEnd
          have hMono := (getElem?_codePointPositions.mp hStart).mono hEndPosition
            (Int.ofNat_le.mpr (not_lt.mp hOrder))
          have hLength := hEndPosition.lt_length
          rw [if_neg (not_or.mpr ⟨hOrder, hTable⟩), if_neg hOrder, Checked.read_of_getElem? hStart,
            Checked.read_of_getElem? hEnd, hStart, hEnd, pure_bind, pure_bind, if_neg (by omega), ih,
            List.append_assoc]
          rfl

theorem describes_iff {id content : QString} {messageOffset : Int} {range : QString} {occurrence : TwitchEmoteOccurrence}
    (h : rangeOccurrence env id content messageOffset range = some occurrence) :
    Describes content messageOffset range occurrence ↔ IsPlain messageOffset range := by
  obtain ⟨first, last, rest, start, end_, hSplit, hOrder, hStart, hEnd, rfl⟩ := (rangeOccurrence_eq_some env).mp h
  have hUInt (text : QString) (n : Nat) (hn : IsUInt text n) : toUInt text = n := by
    rw [toUInt, hn.1]
    dsimp only
    rw [if_pos ⟨by omega, by have hLt := hn.2; omega⟩, Int.toNat_natCast]
  have hWrap (n : Nat) : (withoutOffset n messageOffset : Int) = ((n : Int) - messageOffset) % 4294967296 := by
    rw [withoutOffset]
    omega
  constructor
  · intro hDescribes
    obtain ⟨first', last', rest', n, m, hSplit', hn, hm, hStart', hEnd'⟩ := hDescribes.coords
    rw [hSplit] at hSplit'
    cases hSplit'
    have hFrom := hStart.unique hStart'
    have hTo := hEnd.unique hEnd'
    rw [hUInt first n hn, hWrap] at hFrom
    rw [hUInt last m hm, hWrap] at hTo
    refine ⟨first, last, rest, n, m, hSplit, hn, hm, ⟨?_, ?_⟩, ?_, ?_⟩ <;> omega
  · rintro ⟨first', last', rest', n, m, hSplit', hn, hm, hFrom, hTo⟩
    rw [hSplit] at hSplit'
    cases hSplit'
    rw [hUInt first n hn, hWrap, Int.emod_eq_of_lt hFrom.1 hFrom.2] at hStart
    rw [hUInt last m hm, hWrap, Int.emod_eq_of_lt hTo.1 hTo.2] at hEnd
    rw [hUInt first n hn, hUInt last m hm, ← Int.ofNat_le, hWrap, hWrap, Int.emod_eq_of_lt hFrom.1 hFrom.2,
      Int.emod_eq_of_lt hTo.1 hTo.2] at hOrder
    have hLe := hStart.mono hEnd hOrder
    refine ⟨by dsimp only; omega, hLe, hEnd.lt_length.2.2, ?_, first, last, rest, n, m, hSplit, hn, hm, hStart, hEnd⟩
    dsimp only
    rw [Int.toNat_natCast, Int.toNat_natCast, List.drop_take]
    congr 1
    omega

theorem forall₂_rangeOccurrences_iff {id content : QString} {messageOffset : Int} {ranges : List QString} :
    List.Forall₂ (Describes content messageOffset)
        (ranges.take (rangeOccurrences env id content messageOffset ranges).length)
        (rangeOccurrences env id content messageOffset ranges) ↔
      ∀ earlier range later, ranges = earlier ++ range :: later →
        (∀ r ∈ earlier ++ [range], Taken content messageOffset r) → IsPlain messageOffset range := by
  induction ranges with
  | nil =>
    refine ⟨fun _ earlier range later h => ?_, fun _ => List.Forall₂.nil⟩
    exact absurd h (by simp)
  | cons range ranges ih =>
    rw [rangeOccurrences]
    cases hOccurrence : rangeOccurrence env id content messageOffset range with
    | none =>
      refine ⟨fun _ earlier r later h hTaken => ?_, fun _ => List.Forall₂.nil⟩
      have hFirst : range ∈ earlier ++ [r] := by
        cases earlier with
        | nil => exact List.mem_singleton.mpr (List.cons.inj h).1
        | cons e earlier => exact List.mem_cons.mpr (Or.inl (List.cons.inj h).1)
      have hSome := (@taken_iff env id _ _ _).mp (hTaken range hFirst)
      rw [hOccurrence] at hSome
      cases hSome
    | some occurrence =>
      have hRange : Taken content messageOffset range := (taken_iff env).mpr (by rw [hOccurrence]; rfl)
      dsimp only
      rw [List.length_cons, List.take_succ_cons, List.forall₂_cons, describes_iff env hOccurrence, ih]
      constructor
      · rintro ⟨hPlain, hRest⟩ earlier r later h hTaken
        cases earlier with
        | nil =>
          rw [List.nil_append] at h
          cases h
          exact hPlain
        | cons e earlier =>
          rw [List.cons_append] at h
          cases h
          exact hRest earlier r later rfl fun r' hr' => hTaken r' (List.mem_cons_of_mem _ hr')
      · intro h
        refine ⟨h [] range ranges rfl (by simpa using hRange), fun earlier r later hSplit hTaken => ?_⟩
        exact h (range :: earlier) r later (by rw [hSplit]; rfl) (List.forall_mem_cons.mpr ⟨hRange, hTaken⟩)

theorem appendTwitchEmoteOccurrences_eq (content : QString) (messageOffset : Int) (vec : List TwitchEmoteOccurrence)
    (emote : QString) : appendTwitchEmoteOccurrences env content (codePointPositions content) messageOffset vec emote =
      pure (vec ++ rangeOccurrences env (emoteId emote) content messageOffset (emoteRanges emote)) := by
  rw [appendTwitchEmoteOccurrences, emoteRanges, emoteId]
  by_cases hParameters : (emote.splitOn COLON).length < 2
  · rw [List.getElem?_eq_none (by omega : (emote.splitOn COLON).length ≤ 1)]
    rw [if_pos (Or.inr hParameters), Option.elim_none, rangeOccurrences, List.append_nil]
  · have hColon : COLON ∈ emote := by
      by_contra hNone
      rw [List.splitOn_eq_singleton hNone, List.length_singleton] at hParameters
      omega
    obtain ⟨id, ranges, rest, hSplit⟩ := exists_cons_cons (not_lt.mp hParameters)
    rw [hSplit] at hParameters ⊢
    rw [if_neg (not_or.mpr ⟨not_not_intro hColon, hParameters⟩), Checked.read_of_getElem? (a := id) rfl,
      Checked.read_of_getElem? (a := ranges) rfl, pure_bind, pure_bind, appendOccurrences_eq]
    rfl

def tagEmotes (message : IrcMessage) : List QString := (message.tag (lit "emotes")).elim [] (·.splitOn SLASH)

theorem parseTwitchEmotes_eq (message : IrcMessage) (content : QString) (messageOffset : Int) :
    parseTwitchEmotes env message content messageOffset = pure ((tagEmotes message).map fun emote =>
      rangeOccurrences env (emoteId emote) content messageOffset (emoteRanges emote)).flatten := by
  have hFold (emotes : List QString) (vec : List TwitchEmoteOccurrence) :
      emotes.foldlM (appendTwitchEmoteOccurrences env content (codePointPositions content) messageOffset) vec =
        pure (vec ++ (emotes.map fun emote =>
          rangeOccurrences env (emoteId emote) content messageOffset (emoteRanges emote)).flatten) := by
    induction emotes generalizing vec with
    | nil => rw [List.foldlM_nil, List.map_nil, List.flatten_nil, List.append_nil]
    | cons emote emotes ih =>
      rw [List.foldlM_cons, appendTwitchEmoteOccurrences_eq, pure_bind, ih, List.map_cons, List.flatten_cons,
        List.append_assoc]
  rw [parseTwitchEmotes, tagEmotes]
  cases message.tag (lit "emotes") with
  | none => rfl
  | some emotes =>
    dsimp only
    rw [correctPositions_eq, pure_bind, hFold, List.nil_append]
    rfl

def DescribesTag (message : IrcMessage) (content : QString) (messageOffset : Int) : Prop :=
  ∃ parts, parseTwitchEmotes env message content messageOffset = pure parts.flatten ∧
    List.Forall₂ (fun emote part =>
      appendTwitchEmoteOccurrences env content (codePointPositions content) messageOffset [] emote = pure part ∧
        List.Forall₂ (Describes content messageOffset) ((emoteRanges emote).take part.length) part)
      (tagEmotes message) parts

theorem readsPlainly_of_describesTag {message : IrcMessage} {content : QString} {messageOffset : Int}
    (h : DescribesTag env message content messageOffset) : ReadsPlainly content messageOffset (tagEmotes message) := by
  obtain ⟨parts, -, hParts⟩ := h
  intro emote hEmote
  obtain ⟨i, hi, rfl⟩ := List.getElem_of_mem hEmote
  obtain ⟨hAppend, hDescribes⟩ := hParts.get hi (hParts.length_eq ▸ hi)
  rw [appendTwitchEmoteOccurrences_eq, List.nil_append] at hAppend
  have hPart := Checked.pure_inj hAppend
  rw [List.get_eq_getElem, List.get_eq_getElem] at hDescribes hPart
  rw [← hPart] at hDescribes
  exact (forall₂_rangeOccurrences_iff env).mp hDescribes

theorem describesTag_iff (message : IrcMessage) (content : QString) (messageOffset : Int) :
    DescribesTag env message content messageOffset ↔ ReadsPlainly content messageOffset (tagEmotes message) := by
  refine ⟨readsPlainly_of_describesTag env, fun h => ?_⟩
  refine ⟨_, parseTwitchEmotes_eq env message content messageOffset, List.forall₂_map_right_iff.mpr ?_⟩
  refine List.forall₂_same.mpr fun emote hEmote => ⟨?_, (forall₂_rangeOccurrences_iff env).mpr (h emote hEmote)⟩
  rw [appendTwitchEmoteOccurrences_eq, List.nil_append]

def malformedMessage : IrcMessage where
  command := lit "PRIVMSG"
  isPrivate := true
  tags := [(lit "emotes", lit "25:x-y")]
  parameters := [lit "#a", lit "b"]
  nick := lit "c"
  target := lit "#a"
  content := lit "b"
  isAction := false

/-- A range without numbers is shown at the begin of the message. -/
theorem not_describesTag_malformedMessage : ¬DescribesTag (default : Surroundings) malformedMessage (lit "b") 0 := by
  intro h
  have hSplit : (lit "x-y").splitOn DASH = [lit "x", lit "y"] := by decide
  have hEmotes : tagEmotes malformedMessage = [lit "25:x-y"] := by decide
  have hRanges : emoteRanges (lit "25:x-y") = [] ++ lit "x-y" :: [] := by decide
  have hTaken : Taken (lit "b") 0 (lit "x-y") := ⟨lit "x", lit "y", [], hSplit, by decide, by decide⟩
  have hPlain := readsPlainly_of_describesTag _ h (lit "25:x-y") (by rw [hEmotes]; exact List.mem_singleton_self _)
    [] (lit "x-y") [] hRanges (fun r hr => List.mem_singleton.mp hr ▸ hTaken)
  obtain ⟨first, last, rest, n, m, hOther, hn, -⟩ := hPlain
  rw [hSplit] at hOther
  cases hOther
  exact absurd hn.1 (by rw [show integerValue (lit "x") = none by decide]; exact Option.some_ne_none _ ∘ Eq.symm)

end Chatterino.Twitch.IrcHandlers
