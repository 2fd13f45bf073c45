import Chatterino.Twitch.IrcMessageHandler

/-! # Escaped tags

A backslash and the character behind it stand for one character. The loop reads only the low byte of that character.
-/

namespace Chatterino.Twitch.IrcHandlers

open Lib QString

def BACKSLASH : QChar := 0x5C

/-- A character of a text in the value of a tag. -/
def escapeChar (c : QChar) : QString :=
  if c = 0x3B then lit "\\:"
  else if c = SPACE then lit "\\s"
  else if c = BACKSLASH then lit "\\\\"
  else if c = 0x0D then lit "\\r"
  else if c = 0x0A then lit "\\n"
  else [c]

def escapeTag (text : QString) : QString := text.flatMap escapeChar

def escapedMeaning (c : QChar) : QChar :=
  if c = 0x3A then 0x3B
  else if c = 0x73 then SPACE
  else if c = 0x72 then 0x0D
  else if c = 0x6E then 0x0A
  else c

def unescapeTag : QString → QString
  | [] => []
  | [c] => [c]
  | c :: d :: text => if c = BACKSLASH then escapedMeaning d :: unescapeTag text else c :: unescapeTag (d :: text)

def escapedChars : QString → QString
  | [] => []
  | [_] => []
  | c :: d :: text => if c = BACKSLASH then d :: escapedChars text else escapedChars (d :: text)

/-- No escaped character beyond Latin-1 ends with the low byte of an escape. -/
def EscapesLatin (raw : QString) : Prop :=
  ∀ c ∈ escapedChars raw, c.toNat < 256 ∨ c.toNat % 256 ∉ [0x3A, 0x73, 0x72, 0x6E, 0x5C]

def decodeTag : QString → QString
  | [] => []
  | [c] => [c]
  | c :: d :: text => if c = BACKSLASH then unescaped d ++ decodeTag text else c :: decodeTag (d :: text)

theorem parseTagFrom_eq (done text : QString) :
    parseTagFrom (done ++ text) done.length (done ++ text).length = pure (done ++ decodeTag text) := by
  induction text using decodeTag.induct generalizing done with
  | case1 | case2 c =>
    rw [parseTagFrom, dif_neg (by simp)]
    rfl
  | case3 d text ih =>
    have hFirst : (done ++ BACKSLASH :: d :: text)[done.length]? = some BACKSLASH := by simp
    have hSecond : (done ++ BACKSLASH :: d :: text)[done.length + 1]? = some d := by
      rw [List.getElem?_append_right (Nat.le_add_right _ _), Nat.add_sub_cancel_left]
      rfl
    have hReplaced : (done ++ BACKSLASH :: d :: text).take done.length ++ unescaped d ++
        (done ++ BACKSLASH :: d :: text).drop (done.length + 2) = done ++ unescaped d ++ text := by
      rw [List.take_left, List.drop_append, List.drop_eq_nil_of_le (by omega), Nat.add_sub_cancel_left]
      rfl
    have hPosition : done.length + 1 = (done ++ unescaped d).length := by rw [List.length_append, length_unescaped]
    have hLength : (done ++ BACKSLASH :: d :: text).length - 1 = (done ++ unescaped d ++ text).length := by
      rw [List.length_append, List.length_append, List.length_append, length_unescaped, List.length_cons, List.length_cons]
      omega
    have hMore : done.length + 1 < (done ++ BACKSLASH :: d :: text).length := by
      rw [List.length_append, List.length_cons, List.length_cons]
      omega
    rw [parseTagFrom, dif_pos hMore, Checked.read_of_getElem? hFirst, pure_bind,
      if_pos (by rfl : BACKSLASH = 0x5C), Checked.read_of_getElem? hSecond, pure_bind, hReplaced, hPosition, hLength, ih, decodeTag, if_pos rfl,
      List.append_assoc]
  | case4 c d text hBackslash ih =>
    have hFirst : (done ++ c :: d :: text)[done.length]? = some c := by simp
    have hMore : done.length + 1 < (done ++ c :: d :: text).length := by
      rw [List.length_append, List.length_cons, List.length_cons]
      omega
    have hMoved : done ++ c :: d :: text = done ++ [c] ++ d :: text := by rw [List.append_assoc, List.singleton_append]
    have hPosition : done.length + 1 = (done ++ [c]).length := by rw [List.length_append, List.length_singleton]
    have hOther : ¬c = 0x5C := hBackslash
    rw [parseTagFrom, dif_pos hMore, Checked.read_of_getElem? hFirst, pure_bind, if_neg hOther, hMoved, hPosition, ih,
      decodeTag, if_neg hBackslash, List.append_assoc]
    rfl

theorem parseTagString_eq (input : QString) : parseTagString input = pure (decodeTag input) := parseTagFrom_eq [] input

theorem unescaped_eq_iff (c : QChar) : unescaped c = [escapedMeaning c] ↔
    c.toNat < 256 ∨ c.toNat % 256 ∉ [0x3A, 0x73, 0x72, 0x6E, 0x5C] := by
  have hLatin (n : Nat) (hn : c.toNat % 256 = n) (hSmall : c.toNat < 256) : c = UInt16.ofNat n := by
    rw [← hn, Nat.mod_eq_of_lt hSmall, UInt16.ofNat_toNat]
  have hLarge (hBig : ¬c.toNat < 256) : escapedMeaning c = c := by
    have hOther (d : QChar) (hd : d.toNat < 256) : c ≠ d := by
      rintro rfl
      exact hBig hd
    rw [escapedMeaning, if_neg (hOther _ (by decide)), if_neg (hOther _ (by decide)), if_neg (hOther _ (by decide)),
      if_neg (hOther _ (by decide))]
  -- an escape whose low byte is the one that is read, and what the character itself stands for
  have hEscape (n : Nat) (d : QChar) (hn : c.toNat % 256 = n) (hd : d.toNat < 256)
      (hMem : n ∈ [0x3A, 0x73, 0x72, 0x6E, 0x5C]) (hMeaning : escapedMeaning (UInt16.ofNat n) = d) :
      [d] = [escapedMeaning c] ↔ c.toNat < 256 ∨ c.toNat % 256 ∉ [0x3A, 0x73, 0x72, 0x6E, 0x5C] := by
    constructor
    · intro hEq
      refine Or.inl ?_
      by_contra hBig
      rw [hLarge hBig] at hEq
      exact hBig ((List.cons.inj hEq).1 ▸ hd)
    · rintro (hSmall | hNone)
      · rw [hLatin n hn hSmall, hMeaning]
      · exact absurd (hn ▸ hMem) hNone
  rw [unescaped]
  split
  iterate 5
    · rename_i hn
      exact hEscape _ _ hn (by decide) (by decide) (by decide)
  · rename_i hN hR hS hBackslash hColon
    have hNone : c.toNat % 256 ∉ [0x3A, 0x73, 0x72, 0x6E, 0x5C] := by
      simp only [List.mem_cons, List.not_mem_nil, or_false, not_or]
      exact ⟨hColon, hS, hR, hN, hBackslash⟩
    have hSelf : escapedMeaning c = c := by
      have hOther (d : QChar) (hd : d.toNat % 256 ∈ [0x3A, 0x73, 0x72, 0x6E, 0x5C]) : c ≠ d := by
        rintro rfl
        exact hNone hd
      rw [escapedMeaning, if_neg (hOther _ (by decide)), if_neg (hOther _ (by decide)), if_neg (hOther _ (by decide)),
        if_neg (hOther _ (by decide))]
    rw [hSelf]
    exact ⟨fun _ => Or.inr hNone, fun _ => rfl⟩

theorem decodeTag_eq_iff (raw : QString) : decodeTag raw = unescapeTag raw ↔ EscapesLatin raw := by
  rw [EscapesLatin]
  induction raw using decodeTag.induct with
  | case1 => exact ⟨fun _ c hc => absurd hc List.not_mem_nil, fun _ => rfl⟩
  | case2 c => exact ⟨fun _ c hc => absurd hc List.not_mem_nil, fun _ => rfl⟩
  | case3 d text ih =>
    rw [decodeTag, unescapeTag, escapedChars, if_pos rfl, if_pos rfl, if_pos rfl, List.forall_mem_cons, ← ih,
      ← unescaped_eq_iff, ← List.singleton_append]
    refine ⟨fun h => List.append_inj h (length_unescaped d), fun h => ?_⟩
    rw [h.1, h.2]
  | case4 c d text hBackslash ih =>
    rw [decodeTag, unescapeTag, escapedChars, if_neg hBackslash, if_neg hBackslash, if_neg hBackslash, ← ih]
    exact ⟨fun h => (List.cons.inj h).2, fun h => by rw [h]⟩

theorem escapeChar_cases (c : QChar) :
    (∃ d, escapeChar c = [BACKSLASH, d] ∧ escapedMeaning d = c ∧ d.toNat < 256) ∨
      escapeChar c = [c] ∧ c ≠ BACKSLASH := by
  rw [escapeChar]
  split_ifs with hSemicolon hSpace hBackslash hReturn hFeed
  · exact Or.inl ⟨0x3A, by decide, by rw [hSemicolon]; decide, by decide⟩
  · exact Or.inl ⟨0x73, by decide, by rw [hSpace]; decide, by decide⟩
  · exact Or.inl ⟨0x5C, by decide, by rw [hBackslash]; decide, by decide⟩
  · exact Or.inl ⟨0x72, by decide, by rw [hReturn]; decide, by decide⟩
  · exact Or.inl ⟨0x6E, by decide, by rw [hFeed]; decide, by decide⟩
  · exact Or.inr ⟨rfl, hBackslash⟩

theorem escapesLatin_escapeTag (text : QString) : EscapesLatin (escapeTag text) := by
  induction text with
  | nil => exact fun c hc => absurd hc List.not_mem_nil
  | cons c text ih =>
    have hTag : escapeTag (c :: text) = escapeChar c ++ escapeTag text := List.flatMap_cons
    rw [hTag, EscapesLatin]
    rcases escapeChar_cases c with ⟨d, hEscape, -, hLatin⟩ | ⟨hSelf, hOther⟩
    · rw [hEscape, List.cons_append, List.singleton_append, escapedChars, if_pos rfl, List.forall_mem_cons]
      exact ⟨Or.inl hLatin, ih⟩
    · have hSkip : escapedChars (c :: escapeTag text) = escapedChars (escapeTag text) := by
        cases escapeTag text with
        | nil => rfl
        | cons d rest => rw [escapedChars, if_neg hOther]
      rw [hSelf, List.singleton_append, hSkip]
      exact ih

theorem unescapeTag_escapeTag (text : QString) : unescapeTag (escapeTag text) = text := by
  induction text with
  | nil => rfl
  | cons c text ih =>
    have hTag : escapeTag (c :: text) = escapeChar c ++ escapeTag text := List.flatMap_cons
    rw [hTag]
    rcases escapeChar_cases c with ⟨d, hEscape, hMeaning, -⟩ | ⟨hSelf, hOther⟩
    · rw [hEscape, List.cons_append, List.singleton_append, unescapeTag, if_pos rfl, hMeaning, ih]
    · have hKeep : unescapeTag (c :: escapeTag text) = c :: unescapeTag (escapeTag text) := by
        cases escapeTag text with
        | nil => rfl
        | cons d rest => rw [unescapeTag, if_neg hOther]
      rw [hSelf, List.singleton_append, hKeep, ih]

/-- An escaped text is read back, and every other value is read as it is meant if and only if its escaped characters do
not share their low byte with an escape. -/
theorem parseTagString_inverts_iff (raw : QString) :
    (∀ text, parseTagString (escapeTag text) = pure text) ∧
      (parseTagString raw = pure (unescapeTag raw) ↔ EscapesLatin raw) := by
  refine ⟨fun text => ?_, ?_⟩
  · rw [parseTagString_eq, (decodeTag_eq_iff _).mpr (escapesLatin_escapeTag text), unescapeTag_escapeTag]
  · rw [parseTagString_eq, ← decodeTag_eq_iff]
    exact ⟨Checked.pure_inj, fun h => by rw [h]⟩

theorem not_inverts_latinExtended : parseTagString [BACKSLASH, 0x016E] = pure [0x0A] ∧
    unescapeTag [BACKSLASH, 0x016E] = [0x016E] := by
  rw [parseTagString_eq]
  exact ⟨by rfl, by decide⟩

end Chatterino.Twitch.IrcHandlers
