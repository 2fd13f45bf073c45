import Chatterino.Ignores.IgnoreController
import Mathlib.Data.List.Pairwise

/-! # Consistent emote occurrences

An occurrence stands in the text if its range, with both ends, holds its name.
-/

namespace Chatterino.Ignores

open Lib QString

namespace TwitchEmoteOccurrence

structure Stands (content : QString) (emote : TwitchEmoteOccurrence) : Prop where
  start_nonneg : 0 ≤ emote.start
  start_le_end : emote.start ≤ emote.end_
  end_lt : emote.end_ < content.length
  text : (content.drop emote.start.toNat).take (emote.end_ - emote.start + 1).toNat = emote.name

def Apart (emote emote' : TwitchEmoteOccurrence) : Prop :=
  emote.end_ < emote'.start ∨ emote'.end_ < emote.start

theorem Apart.symm {emote emote' : TwitchEmoteOccurrence} (h : emote.Apart emote') :
    emote'.Apart emote := Or.symm h

instance : Std.Symm Apart := ⟨fun _ _ => Apart.symm⟩

theorem stands_iff {content : QString} {emote : TwitchEmoteOccurrence} :
    emote.Stands content ↔ 0 ≤ emote.start ∧ emote.name ≠ [] ∧
      emote.end_ + 1 = emote.start + emote.name.length ∧
        emote.name <+: content.drop emote.start.toNat := by
  constructor
  · rintro ⟨hStart, hLe, hEnd, hText⟩
    have hLength := congrArg List.length hText
    rw [List.length_take, List.length_drop] at hLength
    have hName : emote.end_ + 1 = emote.start + emote.name.length := by omega
    refine ⟨hStart, List.length_pos_iff.mp (by omega), hName, ?_⟩
    rw [← hText]
    exact List.take_prefix _ _
  · rintro ⟨hStart, hName, hEnd, hPrefix⟩
    have hLength := hPrefix.length_le
    have hPos := List.length_pos_iff.mpr hName
    rw [List.length_drop] at hLength
    have hCount : (emote.end_ - emote.start + 1).toNat = emote.name.length := by omega
    refine ⟨hStart, by omega, by omega, ?_⟩
    rw [hCount]
    exact (List.prefix_iff_eq_take.mp hPrefix).symm

end TwitchEmoteOccurrence

open TwitchEmoteOccurrence

structure State.Consistent (s : State) : Prop where
  stands : ∀ emote ∈ s.twitchEmotes, emote.Stands s.content
  apart : s.twitchEmotes.Pairwise Apart

section

variable {s : QString} {p n : Nat} {r : QString} {emote emote' : TwitchEmoteOccurrence}

def Outside (p n : Nat) (emote : TwitchEmoteOccurrence) : Prop :=
  emote.start < p ∨ (p + n : Nat) ≤ emote.start

theorem outside_iff : Outside p n emote ↔ inRange p n emote = false := by
  rw [inRange, decide_eq_false_iff_not, Outside]
  omega

def moved (p n : Nat) (r : QString) (emote : TwitchEmoteOccurrence) : TwitchEmoteOccurrence :=
  shiftIndexAfter (p + n) (r.length - n) emote

theorem moved_before (h : emote.start < p) : moved p n r emote = emote := by
  rw [moved, shiftIndexAfter, if_neg (by omega)]

theorem moved_after (h : (p + n : Nat) ≤ emote.start) : moved p n r emote =
    { emote with start := emote.start + (r.length - n), end_ := emote.end_ + (r.length - n) } := by
  rw [moved, shiftIndexAfter, if_pos h]

theorem stands_moved_after (h : (p + n : Nat) ≤ emote.start) (hRange : p + n ≤ s.length)
    (hStands : emote.Stands s) : (moved p n r emote).Stands (splice s p n r) := by
  rw [stands_iff] at hStands
  obtain ⟨hStart, hName, hEnd, hPrefix⟩ := hStands
  have hPosition : (emote.start + (r.length - n)).toNat = emote.start.toNat - n + r.length := by omega
  rw [moved_after h, stands_iff]
  dsimp only
  refine ⟨by omega, hName, by omega, ?_⟩
  rw [hPosition, drop_splice_of_ge (by omega) hRange]
  exact hPrefix

theorem stands_moved_before (h : emote.start < p) (hRange : p + n ≤ s.length) (hStands : emote.Stands s) :
    (moved p n r emote).Stands (splice s p n r) ↔ (p ≤ emote.end_ →
      emote.name.drop (p - emote.start).toNat <+: r ++ s.drop (p + n)) := by
  rw [stands_iff] at hStands
  obtain ⟨hStart, hName, hEnd, hPrefix⟩ := hStands
  rw [moved_before h, stands_iff]
  by_cases hCut : p ≤ emote.end_
  · have hOffset : (p - emote.start).toNat = p - emote.start.toNat := by omega
    rw [hOffset, ← isPrefix_drop_splice_cut (by omega) (by omega) (by omega) hPrefix]
    exact ⟨fun h _ => h.2.2.2, fun h => ⟨hStart, hName, hEnd, h hCut⟩⟩
  · have hSame := isPrefix_drop_splice_before (w := emote.name) (q := emote.start.toNat) (p := p) (n := n)
      (r := r) (s := s) (by omega) (by omega)
    exact ⟨fun _ h => absurd h hCut, fun _ => ⟨hStart, hName, hEnd, hSame.mpr hPrefix⟩⟩

theorem apart_moved (hOutside : Outside p n emote) (hOutside' : Outside p n emote')
    (hStands : emote.Stands s) (hStands' : emote'.Stands s) (h : emote.Apart emote') :
    (moved p n r emote).Apart (moved p n r emote') ↔
      (emote.start < p → (p + n : Nat) ≤ emote'.start →
        emote.end_ + n < emote'.start + r.length) ∧
      (emote'.start < p → (p + n : Nat) ≤ emote.start →
        emote'.end_ + n < emote.start + r.length) := by
  have hOrder := hStands.start_le_end
  have hOrder' := hStands'.start_le_end
  rcases hOutside with hBefore | hAfter <;> rcases hOutside' with hBefore' | hAfter'
  · rw [moved_before hBefore, moved_before hBefore']
    unfold Apart at h ⊢
    omega
  · rw [moved_before hBefore, moved_after hAfter']
    unfold Apart at h ⊢
    dsimp only
    omega
  · rw [moved_after hAfter, moved_before hBefore']
    unfold Apart at h ⊢
    dsimp only
    omega
  · rw [moved_after hAfter, moved_after hAfter']
    unfold Apart at h ⊢
    dsimp only
    omega

end

section

variable {emotes : List (EmoteName × EmotePtr)} {startIndex pos : Nat} {words : List QString}

theorem not_stands_of_mem_addReplEmotes {content : QString} {emote : TwitchEmoteOccurrence}
    (h : emote ∈ addReplEmotes emotes startIndex pos words) : ¬emote.Stands content := by
  induction words generalizing pos with
  | nil => cases h
  | cons word words ih =>
    rw [addReplEmotes, List.mem_append] at h
    rcases h with h | h
    · obtain ⟨entry, -, rfl⟩ := List.mem_map.mp h
      intro hStands
      obtain ⟨-, -, hEnd, -⟩ := stands_iff.mp hStands
      dsimp only at hEnd
      omega
    · exact ih h

theorem addReplEmotes_eq_nil : addReplEmotes emotes startIndex pos words = [] ↔
    ∀ word ∈ words, ∀ emote ∈ emotes, word ≠ emote.1 := by
  induction words generalizing pos with
  | nil => exact ⟨fun _ => nofun, fun _ => rfl⟩
  | cons word words ih =>
    rw [addReplEmotes, List.append_eq_nil_iff, ih, List.map_eq_nil_iff, List.filter_eq_nil_iff,
      List.forall_mem_cons]
    simp only [beq_iff_eq, ne_eq]

end

variable (library : Library) (accessEmotes : Option (List (EmoteName × EmotePtr)))

theorem mem_outside {p n : Nat} {items : List TwitchEmoteOccurrence} {emote : TwitchEmoteOccurrence} :
    emote ∈ (removeEmotesInRange library p n items).1 ↔ emote ∈ items ∧ Outside p n emote := by
  rw [removeEmotesInRange, (library.partition_perm _ _).1.mem_iff, List.mem_filter, outside_iff,
    Bool.not_eq_true']

theorem pairwise_outside {p n : Nat} {items : List TwitchEmoteOccurrence} (h : items.Pairwise Apart) :
    (removeEmotesInRange library p n items).1.Pairwise Apart :=
  (library.partition_perm _ _).1.symm.pairwise (h.filter _) fun hApart => hApart.symm

def replacedWords (content : QString) (p n : Nat) (r : QString) : QString :=
  midExtendedRef (splice content p n r) p r.length

def foundAgain (s : State) (p n : Nat) (r : QString) : List TwitchEmoteOccurrence :=
  (removeEmotesInRange library p n s.twitchEmotes).2.filterMap
    (findAgain library (replacedWords s.content p n r) p)

theorem twitchEmotes_replaceMessageAt (phrase : IgnorePhrase) (s : State) (p n : Nat) (r : QString) :
    (replaceMessageAt library accessEmotes phrase s p n r).twitchEmotes =
      (removeEmotesInRange library p n s.twitchEmotes).1.map (moved p n r) ++
        (foundAgain library s p n r ++ addReplEmotes (phrase.getEmotes accessEmotes)
          (wordStart (splice s.content p n r) p) 0 ((replacedWords s.content p n r).splitOn 0x20)) := by
  have hAdded (startIndex : Nat) (words : List QString) :
      (if phrase.containsEmote accessEmotes then
        addReplEmotes (phrase.getEmotes accessEmotes) startIndex 0 words else []) =
        addReplEmotes (phrase.getEmotes accessEmotes) startIndex 0 words := by
    unfold IgnorePhrase.containsEmote
    cases phrase.getEmotes accessEmotes with
    | nil => exact (addReplEmotes_eq_nil.mpr fun _ _ _ h => absurd h List.not_mem_nil).symm
    | cons => rfl
  exact congrArg (_ ++ ·) (congrArg (_ ++ ·) (hAdded _ _))

structure KeepsOccurrences (s : State) (phrase : IgnorePhrase) (p n : Nat) (r : QString) : Prop where
  /-- An emote that the match cuts goes on after the cut as before. -/
  cut : ∀ emote ∈ s.twitchEmotes, emote.start < p → p ≤ emote.end_ →
    emote.name.drop (p - emote.start).toNat <+: r ++ s.content.drop (p + n)
  /-- It does not reach the emotes after the match. -/
  cut_apart : ∀ emote ∈ s.twitchEmotes, emote.start < p → ∀ next ∈ s.twitchEmotes,
    (p + n : Nat) ≤ next.start → emote.end_ + n < next.start + r.length
  /-- An emote that is found again stands where it is put. -/
  found : ∀ emote ∈ foundAgain library s p n r, emote.Stands (splice s.content p n r)
  found_apart : (foundAgain library s p n r).Pairwise Apart
  found_outside : ∀ emote ∈ foundAgain library s p n r, ∀ other ∈ s.twitchEmotes, Outside p n other →
    (moved p n r other).Apart emote
  /-- No word is an emote of the phrase. -/
  added : ∀ word ∈ (replacedWords s.content p n r).splitOn 0x20,
    ∀ emote ∈ phrase.getEmotes accessEmotes, word ≠ emote.1

variable {library accessEmotes} {s : State} {phrase : IgnorePhrase} {p n : Nat} {r : QString}

theorem stands_moved_iff (h : s.Consistent) (hRange : p + n ≤ s.content.length) :
    (∀ emote ∈ (removeEmotesInRange library p n s.twitchEmotes).1.map (moved p n r),
        emote.Stands (splice s.content p n r)) ↔
      ∀ emote ∈ s.twitchEmotes, emote.start < p → p ≤ emote.end_ →
        emote.name.drop (p - emote.start).toNat <+: r ++ s.content.drop (p + n) := by
  rw [List.forall_mem_map]
  constructor
  · intro hMoved emote hEmote hBefore
    have hStands := hMoved emote ((mem_outside library).mpr ⟨hEmote, .inl hBefore⟩)
    exact (stands_moved_before hBefore hRange (h.stands emote hEmote)).mp hStands
  · intro hCut emote hEmote
    obtain ⟨hEmote, hBefore | hAfter⟩ := (mem_outside library).mp hEmote
    · exact (stands_moved_before hBefore hRange (h.stands emote hEmote)).mpr (hCut emote hEmote hBefore)
    · exact stands_moved_after hAfter hRange (h.stands emote hEmote)

theorem pairwise_moved_iff (h : s.Consistent) :
    ((removeEmotesInRange library p n s.twitchEmotes).1.map (moved p n r)).Pairwise Apart ↔
      ∀ emote ∈ s.twitchEmotes, emote.start < p → ∀ next ∈ s.twitchEmotes,
        (p + n : Nat) ≤ next.start → emote.end_ + n < next.start + r.length := by
  have hOutside := pairwise_outside library (p := p) (n := n) h.apart
  rw [List.pairwise_map]
  constructor
  · intro hMoved emote hEmote hBefore next hNext hAfter
    have hMem := (mem_outside library (n := n)).mpr ⟨hEmote, .inl hBefore⟩
    have hMem' := (mem_outside library).mpr ⟨hNext, .inr hAfter⟩
    have hNe : emote ≠ next := by
      rintro rfl
      omega
    have hSymm : Std.Symm fun a b => (moved p n r a).Apart (moved p n r b) := ⟨fun _ _ h => h.symm⟩
    have hApart := hOutside.forall hMem hMem' hNe
    have hApart' := hMoved.forall hMem hMem' hNe
    exact ((apart_moved (.inl hBefore) (.inr hAfter) (h.stands _ hEmote) (h.stands _ hNext)
      hApart).mp hApart').1 hBefore hAfter
  · intro hReach
    refine hOutside.imp_of_mem fun {emote next} hMem hMem' hApart => ?_
    obtain ⟨hEmote, hSide⟩ := (mem_outside library).mp hMem
    obtain ⟨hNext, hSide'⟩ := (mem_outside library).mp hMem'
    refine (apart_moved hSide hSide' (h.stands _ hEmote) (h.stands _ hNext) hApart).mpr ⟨?_, ?_⟩
    · exact fun hBefore hAfter => hReach emote hEmote hBefore next hNext hAfter
    · exact fun hBefore hAfter => hReach next hNext hBefore emote hEmote hAfter

theorem consistent_replaceMessageAt_iff (h : s.Consistent) (hRange : p + n ≤ s.content.length) :
    (replaceMessageAt library accessEmotes phrase s p n r).Consistent ↔
      KeepsOccurrences library accessEmotes s phrase p n r := by
  have hEmotes := twitchEmotes_replaceMessageAt library accessEmotes phrase s p n r
  constructor
  · rintro ⟨hStands, hApart⟩
    rw [hEmotes, content_replaceMessageAt] at hStands
    rw [hEmotes, List.pairwise_append, List.pairwise_append] at hApart
    obtain ⟨hMoved, hStands⟩ := List.forall_mem_append.mp hStands
    obtain ⟨hFound, hAdded⟩ := List.forall_mem_append.mp hStands
    obtain ⟨hMovedApart, ⟨hFoundApart, -, -⟩, hBetween⟩ := hApart
    refine ⟨(stands_moved_iff h hRange).mp hMoved, (pairwise_moved_iff h).mp hMovedApart, hFound,
      hFoundApart, fun emote hEmote other hOther hOutside => ?_, ?_⟩
    · exact hBetween _ (List.mem_map_of_mem ((mem_outside library).mpr ⟨hOther, hOutside⟩)) _
        (List.mem_append_left _ hEmote)
    · apply addReplEmotes_eq_nil.mp
      exact List.eq_nil_iff_forall_not_mem.mpr fun emote hEmote =>
        not_stands_of_mem_addReplEmotes hEmote (hAdded emote hEmote)
  · rintro ⟨hCut, hReach, hFound, hFoundApart, hBetween, hAdded⟩
    rw [addReplEmotes_eq_nil.mpr hAdded, List.append_nil] at hEmotes
    constructor
    · rw [hEmotes, content_replaceMessageAt]
      exact List.forall_mem_append.mpr ⟨(stands_moved_iff h hRange).mpr hCut, hFound⟩
    · rw [hEmotes, List.pairwise_append]
      refine ⟨(pairwise_moved_iff h).mpr hReach, hFoundApart, fun _ hMoved emote hEmote => ?_⟩
      obtain ⟨other, hOther, rfl⟩ := List.mem_map.mp hMoved
      obtain ⟨hOther, hOutside⟩ := (mem_outside library).mp hOther
      exact hBetween emote hEmote other hOther hOutside

end Chatterino.Ignores
