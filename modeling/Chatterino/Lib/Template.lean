import Mathlib.Data.List.Nodup
import Mathlib.Data.List.Pairwise

/-! # Templates with placeholders

A matcher says how long the placeholder at the start of a text is. The items of a text have a character each, and can
carry more. Filling in a template by searching it again after each replacement is compared with filling in each of its
placeholders in place.
-/

namespace Lib

universe u v

structure Matcher (β : Type u) where
  length : List β → Option Nat
  pos : ∀ {text n}, length text = some n → 0 < n
  le : ∀ {text n}, length text = some n → n ≤ text.length
  stable : ∀ {text text' n}, length text = some n → text.take n <+: text' → length text' = some n

inductive TemplatePart (α : Type u) where
  | plain (c : α)
  | placeholder (items : List α)

section

variable {α : Type u} {β : Type v}

namespace TemplatePart

def items : TemplatePart α → List α
  | plain c => [c]
  | placeholder items => items

def map (char : α → β) : TemplatePart α → TemplatePart β
  | plain c => plain (char c)
  | placeholder items => placeholder (items.map char)

def word (char : α → β) : TemplatePart α → Option (List β)
  | plain _ => none
  | placeholder items => some (items.map char)

end TemplatePart

def StartsNowhere (p : List β → Prop) (rest : List β) : List β → Prop
  | [] => True
  | c :: text => ¬ p (c :: (text ++ rest)) ∧ StartsNowhere p rest text

theorem startsNowhere_mono {p q : List β → Prop} (h : ∀ text, p text → q text) {rest text : List β}
    (hNowhere : StartsNowhere q rest text) : StartsNowhere p rest text := by
  induction text with
  | nil => trivial
  | cons c text ih => exact ⟨fun hp => hNowhere.1 (h _ hp), ih hNowhere.2⟩

namespace Matcher

variable (m : Matcher β)

def IsWord (word : List β) : Prop := m.length word = some word.length

variable {m}

theorem IsWord.ne_nil {word : List β} (h : m.IsWord word) : word ≠ [] := by
  rintro rfl
  exact absurd (m.pos h) (Nat.lt_irrefl 0)

theorem IsWord.length_append {word : List β} (h : m.IsWord word) (rest : List β) :
    m.length (word ++ rest) = some word.length :=
  m.stable h (by rw [List.take_length]; exact List.prefix_append _ _)

theorem IsWord.length_of_prefix {word text : List β} (h : m.IsWord word) (hPrefix : word <+: text) :
    m.length text = some word.length := by
  obtain ⟨rest, rfl⟩ := hPrefix
  exact h.length_append rest

theorem IsWord.startsNowhere {word rest text : List β} (h : m.IsWord word)
    (hNowhere : StartsNowhere (fun text => m.length text ≠ none) rest text) :
    StartsNowhere (fun text => word <+: text) rest text := by
  refine startsNowhere_mono (fun text hPrefix => ?_) hNowhere
  rw [h.length_of_prefix hPrefix]
  exact Option.some_ne_none _

theorem isWord_take {text : List β} {n : Nat} (h : m.length text = some n) : m.IsWord (text.take n) := by
  rw [IsWord, List.length_take, Nat.min_eq_left (m.le h)]
  exact m.stable h (List.prefix_refl _)

variable (m)

def first : List β → Option (List β)
  | [] => none
  | c :: text =>
    match m.length (c :: text) with
    | some n => some ((c :: text).take n)
    | none => first text

theorem first_append {text rest : List β} (h : StartsNowhere (fun text => m.length text ≠ none) rest text) :
    m.first (text ++ rest) = m.first rest := by
  induction text with
  | nil => rfl
  | cons c text ih => rw [List.cons_append, first, not_not.mp h.1, ih h.2]

theorem first_word {word : List β} (h : m.IsWord word) (rest : List β) : m.first (word ++ rest) = some word := by
  cases word with
  | nil => exact absurd rfl h.ne_nil
  | cons c word =>
    have hLength := h.length_append rest
    rw [List.cons_append] at hLength ⊢
    rw [first, hLength]
    exact congrArg some (@List.take_left _ (c :: word) rest)

theorem startsNowhere_or_first (text rest : List β) :
    StartsNowhere (fun text => m.length text ≠ none) rest text ∨
      ∃ word, m.first (text ++ rest) = some word ∧ ¬ StartsNowhere (fun text => word <+: text) rest text := by
  induction text with
  | nil => exact .inl trivial
  | cons c text ih =>
    cases hLength : m.length (c :: (text ++ rest)) with
    | some n =>
      refine .inr ⟨(c :: (text ++ rest)).take n, by rw [List.cons_append, first, hLength], fun h => ?_⟩
      exact h.1 (List.take_prefix _ _)
    | none =>
      rcases ih with hNowhere | ⟨word, hFirst, hWord⟩
      · exact .inl ⟨not_not.mpr hLength, hNowhere⟩
      · exact .inr ⟨word, by rw [List.cons_append, first, hLength, hFirst], fun h => hWord h.2⟩

theorem isWord_first {text word : List β} (h : m.first text = some word) : m.IsWord word := by
  induction text with
  | nil => cases h
  | cons c text ih =>
    rw [first] at h
    cases hLength : m.length (c :: text) with
    | some n =>
      rw [hLength] at h
      obtain rfl := Option.some.inj h
      exact isWord_take hLength
    | none =>
      rw [hLength] at h
      exact ih h

variable (char : α → β)

/-- The parts of a text from left to right, after as many items as are still passed over. -/
def partsFrom : Nat → List α → List (TemplatePart α)
  | _, [] => []
  | n + 1, _ :: text => partsFrom n text
  | 0, c :: text =>
    match m.length ((c :: text).map char) with
    | some n => .placeholder ((c :: text).take n) :: partsFrom (n - 1) text
    | none => .plain c :: partsFrom 0 text

theorem partsFrom_eq_drop (n : Nat) (text : List α) : m.partsFrom char n text = m.partsFrom char 0 (text.drop n) := by
  induction n generalizing text with
  | zero => rfl
  | succ n ih =>
    cases text with
    | nil => rfl
    | cons c text => exact ih text

def parts (text : List α) : List (TemplatePart α) := m.partsFrom char 0 text

theorem parts_of_none {c : α} {text : List α} (h : m.length ((c :: text).map char) = none) :
    m.parts char (c :: text) = .plain c :: m.parts char text := by
  rw [parts, partsFrom, h, parts]

theorem parts_of_some {c : α} {text : List α} {n : Nat} (h : m.length ((c :: text).map char) = some n) :
    m.parts char (c :: text) = .placeholder ((c :: text).take n) :: m.parts char ((c :: text).drop n) := by
  obtain ⟨k, rfl⟩ := Nat.exists_eq_succ_of_ne_zero (Nat.pos_iff_ne_zero.mp (m.pos h))
  rw [parts, partsFrom, h]
  exact congrArg _ (m.partsFrom_eq_drop char k text)

theorem parts_induction {motive : List α → Prop} (nil : motive [])
    (plain : ∀ c text, m.length ((c :: text).map char) = none → motive text → motive (c :: text))
    (placeholder : ∀ c text n, m.length ((c :: text).map char) = some n →
      motive ((c :: text).drop n) → motive (c :: text)) (text : List α) : motive text := by
  induction hLength : text.length using Nat.strongRecOn generalizing text with
  | ind length ih =>
    cases text with
    | nil => exact nil
    | cons c text =>
      cases hPart : m.length ((c :: text).map char) with
      | none => exact plain c text hPart (ih text.length (by rw [← hLength]; exact Nat.lt_succ_self _) text rfl)
      | some n =>
        refine placeholder c text n hPart (ih _ ?_ _ rfl)
        have := m.pos hPart
        rw [← hLength, List.length_drop, List.length_cons]
        omega

theorem flatMap_items_parts (text : List α) : (m.parts char text).flatMap TemplatePart.items = text := by
  induction text using m.parts_induction char with
  | nil => rfl
  | plain c text hNone ih => rw [m.parts_of_none char hNone, List.flatMap_cons, ih]; rfl
  | placeholder c text n hSome ih =>
    rw [m.parts_of_some char hSome, List.flatMap_cons, ih]
    exact List.take_append_drop n (c :: text)

theorem isWord_of_mem_parts {text items : List α} (h : .placeholder items ∈ m.parts char text) :
    m.IsWord (items.map char) := by
  induction text using m.parts_induction char with
  | nil => cases h
  | plain c text hNone ih =>
    rw [m.parts_of_none char hNone] at h
    rcases List.mem_cons.mp h with h | h
    · cases h
    · exact ih h
  | placeholder c text n hSome ih =>
    rw [m.parts_of_some char hSome] at h
    rcases List.mem_cons.mp h with h | h
    · rw [TemplatePart.placeholder.inj h, List.map_take]
      exact isWord_take hSome
    · exact ih h

theorem map_parts (text : List α) :
    (m.parts char text).map (TemplatePart.map char) = m.parts id (text.map char) := by
  induction text using m.parts_induction char with
  | nil => rfl
  | plain c text hNone ih =>
    rw [m.parts_of_none char hNone, List.map_cons, ih, List.map_cons,
      m.parts_of_none id (by rw [List.map_id]; exact hNone)]
    rfl
  | placeholder c text n hSome ih =>
    rw [m.parts_of_some char hSome, List.map_cons, ih, List.map_cons,
      m.parts_of_some id (by rw [List.map_id]; exact hSome), TemplatePart.map, List.map_take, List.map_drop]
    rfl

end Matcher

section

variable [DecidableEq β] (char : α → β)

def replaceFrom (word : List β) (value : List α) : Nat → List α → List α
  | _, [] => []
  | n + 1, _ :: text => replaceFrom word value n text
  | 0, c :: text =>
    if word <+: (c :: text).map char then value ++ replaceFrom word value (word.length - 1) text
    else c :: replaceFrom word value 0 text

def replacedFrom (word : List β) : Nat → List α → List (List α)
  | _, [] => []
  | n + 1, _ :: text => replacedFrom word n text
  | 0, c :: text =>
    if word <+: (c :: text).map char then (c :: text).take word.length :: replacedFrom word (word.length - 1) text
    else replacedFrom word 0 text

theorem replaceFrom_eq_drop (word : List β) (value : List α) (n : Nat) (text : List α) :
    replaceFrom char word value n text = replaceFrom char word value 0 (text.drop n) := by
  induction n generalizing text with
  | zero => rfl
  | succ n ih =>
    cases text with
    | nil => rfl
    | cons c text => exact ih text

theorem replacedFrom_eq_drop (word : List β) (n : Nat) (text : List α) :
    replacedFrom char word n text = replacedFrom char word 0 (text.drop n) := by
  induction n generalizing text with
  | zero => rfl
  | succ n ih =>
    cases text with
    | nil => rfl
    | cons c text => exact ih text

theorem map_replaceFrom (word : List β) (value : List α) (n : Nat) (text : List α) :
    (replaceFrom char word value n text).map char = replaceFrom id word (value.map char) n (text.map char) := by
  induction text generalizing n with
  | nil => cases n <;> rfl
  | cons c text ih =>
    cases n with
    | succ n => exact ih n
    | zero =>
      simp only [replaceFrom, List.map_cons, List.map_id_fun, id_eq]
      split
      · rw [List.map_append, ih]
      · rw [List.map_cons, ih]

variable {char} {word : List β}

theorem replaceFrom_word (hWord : word ≠ []) {stretch : List α} (h : stretch.map char = word) (value rest : List α) :
    replaceFrom char word value 0 (stretch ++ rest) = value ++ replaceFrom char word value 0 rest := by
  subst h
  cases stretch with
  | nil => exact absurd rfl hWord
  | cons c stretch =>
    rw [List.cons_append, replaceFrom, if_pos (by rw [← List.cons_append, List.map_append]; exact List.prefix_append _ _),
      replaceFrom_eq_drop, List.length_map, List.length_cons, Nat.add_sub_cancel, List.drop_left]

theorem replacedFrom_word (hWord : word ≠ []) {stretch : List α} (h : stretch.map char = word) (rest : List α) :
    replacedFrom char word 0 (stretch ++ rest) = stretch :: replacedFrom char word 0 rest := by
  subst h
  cases stretch with
  | nil => exact absurd rfl hWord
  | cons c stretch =>
    rw [List.cons_append, replacedFrom, if_pos (by rw [← List.cons_append, List.map_append]; exact List.prefix_append _ _),
      replacedFrom_eq_drop, List.length_map, List.length_cons, Nat.add_sub_cancel, List.drop_left, ← List.cons_append,
      ← List.length_cons, List.take_left]

theorem replaceFrom_append {text rest : List α}
    (h : StartsNowhere (fun text => word <+: text) (rest.map char) (text.map char)) (value : List α) :
    replaceFrom char word value 0 (text ++ rest) = text ++ replaceFrom char word value 0 rest := by
  induction text with
  | nil => rfl
  | cons c text ih =>
    rw [List.cons_append, replaceFrom, if_neg (by rw [List.map_cons, List.map_append]; exact h.1), ih h.2, List.cons_append]

theorem replacedFrom_append {text rest : List α}
    (h : StartsNowhere (fun text => word <+: text) (rest.map char) (text.map char)) :
    replacedFrom char word 0 (text ++ rest) = replacedFrom char word 0 rest := by
  induction text with
  | nil => rfl
  | cons c text ih =>
    rw [List.cons_append, replacedFrom, if_neg (by rw [List.map_cons, List.map_append]; exact h.1), ih h.2]

theorem map_of_mem_replacedFrom {stretch : List α} {n : Nat} {text : List α}
    (h : stretch ∈ replacedFrom char word n text) : stretch.map char = word := by
  induction text generalizing n with
  | nil => cases n <;> cases h
  | cons c text ih =>
    cases n with
    | succ n => exact ih h
    | zero =>
      rw [replacedFrom] at h
      split at h
      · rename_i hPrefix
        rcases List.mem_cons.mp h with rfl | h
        · rw [List.map_take]
          exact (List.prefix_iff_eq_take.mp hPrefix).symm
        · exact ih h
      · exact ih h

theorem exists_replaced_of_not_startsNowhere (hWord : word ≠ []) {text rest : List α}
    (h : ¬ StartsNowhere (fun text => word <+: text) (rest.map char) (text.map char)) :
    ∃ stretch ∈ replacedFrom char word 0 (text ++ rest), ∃ c ∈ text, c ∈ stretch := by
  induction text with
  | nil => exact absurd trivial h
  | cons c text ih =>
    rw [List.cons_append, replacedFrom]
    by_cases hPrefix : word <+: (c :: (text ++ rest)).map char
    · rw [if_pos hPrefix]
      obtain ⟨k, hLength⟩ := Nat.exists_eq_succ_of_ne_zero (fun hZero => hWord (List.length_eq_zero_iff.mp hZero))
      refine ⟨_, List.mem_cons_self, c, List.mem_cons_self, ?_⟩
      rw [hLength]
      exact List.mem_cons_self
    · rw [if_neg hPrefix]
      have hRest : ¬ StartsNowhere (fun text => word <+: text) (rest.map char) (text.map char) := by
        intro hNowhere
        refine h ⟨?_, hNowhere⟩
        rw [List.map_cons, List.map_append] at hPrefix
        exact hPrefix
      obtain ⟨stretch, hMem, d, hText, hStretch⟩ := ih hRest
      exact ⟨stretch, hMem, d, List.mem_cons_of_mem _ hText, hStretch⟩

end

section

variable (char : α → β)

def words (parts : List (TemplatePart α)) : List (List β) := parts.filterMap (TemplatePart.word char)

variable {char}

theorem mem_words {word : List β} {parts : List (TemplatePart α)} :
    word ∈ words char parts ↔ ∃ items, .placeholder items ∈ parts ∧ items.map char = word := by
  rw [words, List.mem_filterMap]
  constructor
  · rintro ⟨part, hPart, hWord⟩
    cases part with
    | plain c => cases hWord
    | placeholder items => exact ⟨items, hPart, Option.some.inj hWord⟩
  · rintro ⟨items, hItems, rfl⟩
    exact ⟨_, hItems, rfl⟩

theorem words_append (parts parts' : List (TemplatePart α)) :
    words char (parts ++ parts') = words char parts ++ words char parts' :=
  List.filterMap_append

variable (char) in
theorem word_map (part : TemplatePart α) : (part.map char).word id = part.word char := by
  cases part with
  | plain c => rfl
  | placeholder items => exact congrArg some (List.map_id _)

variable (char) in
theorem words_map (parts : List (TemplatePart α)) :
    words id (parts.map (TemplatePart.map char)) = words char parts := by
  rw [words, List.filterMap_map, words]
  exact List.filterMap_congr fun part _ => word_map char part

theorem mem_words_concat_of_old {front : List (TemplatePart α)} {part : TemplatePart α}
    (h : ∀ word, part.word char = some word → word ∈ words char front) (word : List β) :
    word ∈ words char front ↔ word ∈ words char (front ++ [part]) := by
  rw [words_append, List.mem_append]
  refine (or_iff_left_of_imp fun hMem => ?_).symm
  obtain ⟨items, hItems, rfl⟩ := mem_words.mp hMem
  rw [List.mem_singleton] at hItems
  exact h _ (by rw [← hItems]; rfl)

theorem old_or_new (char : α → β) (front : List (TemplatePart α)) (part : TemplatePart α) :
    (∀ word, part.word char = some word → word ∈ words char front) ∨
      ∃ items, part = .placeholder items ∧ items.map char ∉ words char front := by
  cases part with
  | plain c => exact .inl fun word h => by cases h
  | placeholder items =>
    by_cases hMem : items.map char ∈ words char front
    · exact .inl fun word h => Option.some.inj h ▸ hMem
    · exact .inr ⟨items, rfl, hMem⟩

end

section

variable [DecidableEq β] (char : α → β) (value : List β → List α)

def TemplatePart.expand (done : List (List β)) : TemplatePart α → List α
  | .plain c => [c]
  | .placeholder items => if items.map char ∈ done then value (items.map char) else items

def filled (done : List (List β)) (parts : List (TemplatePart α)) : List α :=
  parts.flatMap (TemplatePart.expand char value done)

def TemplatePart.fill : TemplatePart α → List α
  | .plain c => [c]
  | .placeholder items => value (items.map char)

def StartsAsPlaceholder (word : List β) (done : List (List β)) : List (TemplatePart α) → Prop
  | [] => True
  | part :: parts =>
    (part.word char ≠ some word → StartsNowhere (fun text => word <+: text) ((filled char value done parts).map char)
      ((part.expand char value done).map char)) ∧ StartsAsPlaceholder word done parts

variable {char value} {done : List (List β)}

theorem filled_cons (part : TemplatePart α) (parts : List (TemplatePart α)) :
    filled char value done (part :: parts) = part.expand char value done ++ filled char value done parts :=
  List.flatMap_cons

theorem filled_append (parts parts' : List (TemplatePart α)) : filled char value done (parts ++ parts') =
    filled char value done parts ++ filled char value done parts' :=
  List.flatMap_append

theorem filled_congr {done' : List (List β)} {parts : List (TemplatePart α)}
    (h : ∀ word ∈ words char parts, word ∈ done ↔ word ∈ done') :
    filled char value done parts = filled char value done' parts := by
  refine List.flatMap_congr fun part hPart => ?_
  cases part with
  | plain c => rfl
  | placeholder items =>
    rw [TemplatePart.expand, TemplatePart.expand]
    exact if_congr (h _ (mem_words.mpr ⟨items, hPart, rfl⟩)) rfl rfl

theorem filled_words (parts : List (TemplatePart α)) :
    filled char value (words char parts) parts = parts.flatMap (TemplatePart.fill char value) := by
  refine List.flatMap_congr fun part hPart => ?_
  cases part with
  | plain c => rfl
  | placeholder items => exact if_pos (mem_words.mpr ⟨items, hPart, rfl⟩)

theorem replaceFrom_filled {word : List β} (hWord : word ≠ []) (hNew : word ∉ done)
    {parts : List (TemplatePart α)} (h : StartsAsPlaceholder char value word done parts) :
    replaceFrom char word (value word) 0 (filled char value done parts) =
      filled char value (done ++ [word]) parts := by
  induction parts with
  | nil => rfl
  | cons part parts ih =>
    rw [filled_cons, filled_cons]
    by_cases hPart : part.word char = some word
    · cases part with
      | plain c => cases hPart
      | placeholder items =>
        have hItems : items.map char = word := Option.some.inj hPart
        rw [TemplatePart.expand, TemplatePart.expand, hItems, if_neg hNew,
          if_pos (List.mem_append_right _ (List.mem_singleton_self _)), replaceFrom_word hWord hItems, ih h.2]
    · rw [replaceFrom_append (h.1 hPart), ih h.2]
      congr 1
      cases part with
      | plain c => rfl
      | placeholder items =>
        have hOther : items.map char ≠ word := fun hItems => hPart (congrArg some hItems)
        have hDone : items.map char ∈ done ++ [word] ↔ items.map char ∈ done := by
          rw [List.mem_append, List.mem_singleton, or_iff_left hOther]
        exact if_congr hDone.symm rfl rfl

theorem mem_replacedFrom_filled {word : List β} (hWord : word ≠ []) (hNew : word ∉ done)
    {parts : List (TemplatePart α)} (h : StartsAsPlaceholder char value word done parts) {stretch : List α} :
    stretch ∈ replacedFrom char word 0 (filled char value done parts) ↔
      .placeholder stretch ∈ parts ∧ stretch.map char = word := by
  induction parts with
  | nil => exact iff_of_false List.not_mem_nil fun hMem => List.not_mem_nil hMem.1
  | cons part parts ih =>
    rw [filled_cons, List.mem_cons]
    by_cases hPart : part.word char = some word
    · cases part with
      | plain c => cases hPart
      | placeholder items =>
        have hItems : items.map char = word := Option.some.inj hPart
        rw [TemplatePart.expand, hItems, if_neg hNew, replacedFrom_word hWord hItems, List.mem_cons, ih h.2,
          TemplatePart.placeholder.injEq, or_and_right]
        exact or_congr_left ⟨fun hEq => ⟨hEq, hEq ▸ hItems⟩, And.left⟩
    · rw [replacedFrom_append (h.1 hPart), ih h.2, or_and_right]
      refine (or_iff_right ?_).symm
      rintro ⟨rfl, hStretch⟩
      exact hPart (congrArg some hStretch)

end

section

variable [DecidableEq β] (m : Matcher β) (valid : List β → Bool) (char : α → β) (value : List β → List α)

def Matcher.find (text : List β) : Option (List β) := if valid text then m.first text else none

/-- The word that is found is replaced everywhere by its value, until none is found. Besides the text that is
left, the result has the occurrences that were replaced. -/
def fillLoop : Nat → List α → Option (List α × List (List α))
  | 0, _ => none
  | fuel + 1, text =>
    match m.find valid (text.map char) with
    | none => some (text, [])
    | some word =>
      (fillLoop fuel (replaceFrom char word (value word) 0 text)).map fun found =>
        (found.1, replacedFrom char word 0 text ++ found.2)

/-- The next placeholder is found and replaced in place. -/
structure FillsNext (front : List (TemplatePart α)) (word : List β) (back : List (TemplatePart α)) : Prop where
  valid : valid ((filled char value (words char front) front).map char ++
    (word ++ (filled char value (words char front) back).map char)) = true
  first : StartsNowhere (fun text => m.length text ≠ none)
    (word ++ (filled char value (words char front) back).map char)
    ((filled char value (words char front) front).map char)
  only : StartsAsPlaceholder char value word (words char front) back

/-- Each placeholder is filled in in place when its turn comes, and nothing is found afterwards. -/
structure FillsInPlace (parts : List (TemplatePart α)) : Prop where
  next : ∀ front items back, parts = front ++ .placeholder items :: back → items.map char ∉ words char front →
    FillsNext m valid char value front (items.map char) back
  last : m.find valid ((filled char value (words char parts) parts).map char) = none

variable {m valid char value}

theorem find_of_fillsNext {front back : List (TemplatePart α)} {word : List β} (hWord : m.IsWord word)
    (h : FillsNext m valid char value front word back) :
    m.find valid ((filled char value (words char front) front).map char ++
      (word ++ (filled char value (words char front) back).map char)) = some word := by
  rw [Matcher.find, if_pos h.valid, m.first_append h.first, m.first_word hWord]

theorem filled_words_placeholder {front back : List (TemplatePart α)} {items : List α}
    (hNew : items.map char ∉ words char front) :
    filled char value (words char front) (front ++ .placeholder items :: back) =
      filled char value (words char front) front ++ (items ++ filled char value (words char front) back) := by
  rw [filled_append, filled_cons, TemplatePart.expand, if_neg hNew]

theorem replace_of_fillsNext {front back : List (TemplatePart α)} {items : List α}
    (hWord : m.IsWord (items.map char)) (hNew : items.map char ∉ words char front)
    (h : FillsNext m valid char value front (items.map char) back) :
    m.find valid ((filled char value (words char front) (front ++ .placeholder items :: back)).map char) =
        some (items.map char) ∧
      replaceFrom char (items.map char) (value (items.map char)) 0
          (filled char value (words char front) (front ++ .placeholder items :: back)) =
        filled char value (words char (front ++ [.placeholder items])) (front ++ .placeholder items :: back) ∧
      replacedFrom char (items.map char) 0
          (filled char value (words char front) (front ++ .placeholder items :: back)) =
        items :: replacedFrom char (items.map char) 0 (filled char value (words char front) back) := by
  have hBefore : StartsNowhere (fun text => items.map char <+: text)
      ((items ++ filled char value (words char front) back).map char)
      ((filled char value (words char front) front).map char) := by
    rw [List.map_append]
    exact hWord.startsNowhere h.first
  have hDone : words char (front ++ [.placeholder items]) = words char front ++ [items.map char] :=
    words_append front [.placeholder items]
  have hFront : filled char value (words char front) front =
      filled char value (words char front ++ [items.map char]) front :=
    filled_congr fun word hMem => iff_of_true hMem (List.mem_append_left _ hMem)
  refine ⟨?_, ?_, ?_⟩
  · rw [filled_words_placeholder hNew, List.map_append, List.map_append]
    exact find_of_fillsNext hWord h
  · rw [hDone, filled_words_placeholder hNew, filled_append, filled_cons, replaceFrom_append hBefore,
      replaceFrom_word hWord.ne_nil rfl, replaceFrom_filled hWord.ne_nil hNew h.only, ← hFront,
      TemplatePart.expand, if_pos (List.mem_append_right _ (List.mem_singleton_self _))]
  · rw [filled_words_placeholder hNew, replacedFrom_append hBefore, replacedFrom_word hWord.ne_nil rfl]

theorem exists_fillLoop {parts : List (TemplatePart α)}
    (hWords : ∀ items, .placeholder items ∈ parts → m.IsWord (items.map char))
    (h : FillsInPlace m valid char value parts) {front back : List (TemplatePart α)} (hParts : parts = front ++ back) :
    ∃ fuel replaced, fillLoop m valid char value fuel (filled char value (words char front) parts) =
        some (filled char value (words char parts) parts, replaced) ∧
      ∀ stretch, stretch ∈ replaced ↔ .placeholder stretch ∈ back ∧ stretch.map char ∉ words char front := by
  induction back generalizing front with
  | nil =>
    rw [List.append_nil] at hParts
    subst hParts
    refine ⟨1, [], by rw [fillLoop, h.last], fun stretch => ?_⟩
    exact iff_of_false List.not_mem_nil fun hMem => List.not_mem_nil hMem.1
  | cons part back ih =>
    have hNext : parts = front ++ [part] ++ back := by rw [hParts, List.append_assoc, List.singleton_append]
    obtain ⟨fuel, replaced, hRun, hReplaced⟩ := ih hNext
    rcases old_or_new char front part with hOld | ⟨items, rfl, hNew⟩
    · have hSame := mem_words_concat_of_old hOld
      rw [filled_congr fun word _ => hSame word]
      refine ⟨fuel, replaced, hRun, fun stretch => ?_⟩
      rw [hReplaced, ← hSame, List.mem_cons]
      constructor
      · exact fun hMem => ⟨.inr hMem.1, hMem.2⟩
      · rintro ⟨rfl | hMem, hNew⟩
        · exact absurd (hOld _ rfl) hNew
        · exact ⟨hMem, hNew⟩
    · have hFills := h.next front items back hParts hNew
      have hWord := hWords items (hParts ▸ List.mem_append_right _ List.mem_cons_self)
      obtain ⟨hFind, hReplace, hStretches⟩ := replace_of_fillsNext hWord hNew hFills
      refine ⟨fuel + 1, items :: (replacedFrom char (items.map char) 0
        (filled char value (words char front) back) ++ replaced), ?_, fun stretch => ?_⟩
      · rw [fillLoop, hParts, hFind]
        simp only [hReplace, hStretches]
        rw [← hParts, hRun]
        rfl
      · rw [List.mem_cons, List.mem_append, mem_replacedFrom_filled hWord.ne_nil hNew hFills.only, hReplaced,
          words_append, List.mem_append, List.mem_cons, TemplatePart.placeholder.injEq]
        have hOnly : stretch.map char ∈ words char [TemplatePart.placeholder items] ↔
            stretch.map char = items.map char := List.mem_singleton
        rw [hOnly]
        by_cases hSame : stretch.map char = items.map char
        · simp only [hSame, hNew, and_true, or_true, not_true_eq_false, and_false, or_false, not_false_eq_true]
        · have hOther : stretch ≠ items := fun hEq => hSame (congrArg _ hEq)
          simp only [hSame, hOther, and_false, or_false, false_or]

theorem eq_placeholder_of_mem {parts : List (TemplatePart α)} (hNodup : (parts.flatMap TemplatePart.items).Nodup)
    (hFresh : ∀ word, ∀ c ∈ value word, c ∉ parts.flatMap TemplatePart.items) {part : TemplatePart α}
    (hPart : part ∈ parts) {stretch : List α} (hStretch : .placeholder stretch ∈ parts) {done : List (List β)} {c : α}
    (hText : c ∈ part.expand char value done) (hMem : c ∈ stretch) :
    part = .placeholder stretch ∧ stretch.map char ∉ done := by
  obtain ⟨-, hDisjoint⟩ := List.nodup_flatMap.mp hNodup
  have hEq (hItem : c ∈ part.items) : part = .placeholder stretch := by
    by_contra hNe
    have : Std.Symm (Function.onFun List.Disjoint (TemplatePart.items : TemplatePart α → List α)) :=
      ⟨fun _ _ h _ hItem hItem' => h hItem' hItem⟩
    have hApart : List.Disjoint part.items stretch := hDisjoint.forall hPart hStretch hNe
    exact hApart hItem hMem
  cases part with
  | plain d => exact absurd (hEq hText) (fun h => by cases h)
  | placeholder items =>
    rw [TemplatePart.expand] at hText
    split at hText
    · exact absurd (List.mem_flatMap.mpr ⟨_, hStretch, hMem⟩) (hFresh _ c hText)
    · rename_i hNew
      have hSame := hEq hText
      exact ⟨hSame, TemplatePart.placeholder.inj hSame ▸ hNew⟩

section

variable {parts : List (TemplatePart α)} (hWords : ∀ items, .placeholder items ∈ parts → m.IsWord (items.map char))
  (hNodup : (parts.flatMap TemplatePart.items).Nodup)
  (hFresh : ∀ word, ∀ c ∈ value word, c ∉ parts.flatMap TemplatePart.items)

include hNodup hFresh

theorem startsAsPlaceholder_of_replaced {word : List β} (hWord : word ≠ []) {done : List (List β)}
    (hNew : word ∉ done) {back : List (TemplatePart α)} (hBack : ∀ part ∈ back, part ∈ parts)
    (h : ∀ stretch ∈ replacedFrom char word 0 (filled char value done back), .placeholder stretch ∈ parts) :
    StartsAsPlaceholder char value word done back := by
  induction back with
  | nil => trivial
  | cons part back ih =>
    rw [filled_cons] at h
    have hRest (part' : TemplatePart α) (hMem : part' ∈ back) : part' ∈ parts := hBack part' (List.mem_cons_of_mem _ hMem)
    by_cases hPart : part.word char = some word
    · cases part with
      | plain c => cases hPart
      | placeholder items =>
        have hItems : items.map char = word := Option.some.inj hPart
        rw [TemplatePart.expand, hItems, if_neg hNew, replacedFrom_word hWord hItems] at h
        exact ⟨fun hOther => absurd hPart hOther, ih hRest fun stretch hMem => h stretch (List.mem_cons_of_mem _ hMem)⟩
    · have hNowhere : StartsNowhere (fun text => word <+: text) ((filled char value done back).map char)
          ((part.expand char value done).map char) := by
        by_contra hStarts
        obtain ⟨stretch, hMem, c, hText, hStretch⟩ := exists_replaced_of_not_startsNowhere hWord hStarts
        obtain ⟨rfl, -⟩ := eq_placeholder_of_mem hNodup hFresh (hBack part List.mem_cons_self) (h stretch hMem)
          hText hStretch
        exact hPart (congrArg some (map_of_mem_replacedFrom hMem))
      rw [replacedFrom_append hNowhere] at h
      exact ⟨fun _ => hNowhere, ih hRest h⟩

theorem startsNowhere_of_replaced {front : List (TemplatePart α)} (hFront : ∀ part ∈ front, part ∈ parts)
    {rest : List α} {word : List β}
    (hFirst : m.first ((filled char value (words char front) front ++ rest).map char) = some word)
    (h : ∀ stretch ∈ replacedFrom char word 0 (filled char value (words char front) front ++ rest),
      .placeholder stretch ∈ parts) :
    StartsNowhere (fun text => m.length text ≠ none) (rest.map char)
      ((filled char value (words char front) front).map char) := by
  rw [List.map_append] at hFirst
  rcases m.startsNowhere_or_first ((filled char value (words char front) front).map char) (rest.map char) with
    hNowhere | ⟨word', hFirst', hStarts⟩
  · exact hNowhere
  · obtain rfl := Option.some.inj (hFirst.symm.trans hFirst')
    obtain ⟨stretch, hMem, c, hText, hStretch⟩ :=
      exists_replaced_of_not_startsNowhere (Matcher.isWord_first m hFirst).ne_nil hStarts
    obtain ⟨part, hPart, hExpand⟩ := List.mem_flatMap.mp hText
    obtain ⟨rfl, hNew⟩ := eq_placeholder_of_mem hNodup hFresh (hFront part hPart) (h stretch hMem) hExpand hStretch
    exact absurd (mem_words.mpr ⟨stretch, hPart, rfl⟩) hNew

include hWords

theorem fillsNext_of_fillLoop {front back : List (TemplatePart α)} {items : List α}
    (hParts : parts = front ++ .placeholder items :: back) (hNew : items.map char ∉ words char front) {fuel : Nat}
    {result : List α} {replaced : List (List α)}
    (hRun : fillLoop m valid char value fuel (filled char value (words char front) parts) = some (result, replaced))
    (hOnly : ∀ stretch ∈ replaced, .placeholder stretch ∈ parts) (hItems : items ∈ replaced) :
    FillsNext m valid char value front (items.map char) back := by
  have hWord := hWords items (hParts ▸ List.mem_append_right _ List.mem_cons_self)
  have hText : filled char value (words char front) parts =
      filled char value (words char front) front ++ (items ++ filled char value (words char front) back) := by
    rw [hParts, filled_words_placeholder hNew]
  cases fuel with
  | zero => cases hRun
  | succ fuel =>
    rw [fillLoop] at hRun
    cases hFind : m.find valid ((filled char value (words char front) parts).map char) with
    | none =>
      rw [hFind] at hRun
      rw [← (Prod.mk.inj (Option.some.inj hRun)).2] at hItems
      cases hItems
    | some word =>
      rw [hFind] at hRun
      obtain ⟨found, -, hFound⟩ := Option.map_eq_some_iff.mp hRun
      have hReplaced : ∀ stretch ∈ replacedFrom char word 0 (filled char value (words char front) parts),
          .placeholder stretch ∈ parts := by
        intro stretch hMem
        refine hOnly stretch ?_
        rw [← (Prod.mk.inj hFound).2]
        exact List.mem_append_left _ hMem
      rw [Matcher.find] at hFind
      split at hFind
      · rename_i hValid
        rw [hText] at hFind hReplaced hValid
        have hFront (part : TemplatePart α) (hMem : part ∈ front) : part ∈ parts := hParts ▸ List.mem_append_left _ hMem
        have hNowhere := startsNowhere_of_replaced hNodup hFresh hFront hFind hReplaced
        have hSame : word = items.map char := by
          rw [List.map_append, m.first_append hNowhere, List.map_append, m.first_word hWord] at hFind
          exact (Option.some.inj hFind).symm
        subst hSame
        rw [List.map_append] at hNowhere
        refine ⟨?_, hNowhere, ?_⟩
        · rw [List.map_append, List.map_append] at hValid
          exact hValid
        · have hBefore := hWord.startsNowhere hNowhere
          rw [← List.map_append] at hBefore
          rw [replacedFrom_append hBefore, replacedFrom_word hWord.ne_nil rfl] at hReplaced
          refine startsAsPlaceholder_of_replaced hNodup hFresh hWord.ne_nil hNew (fun part hMem => ?_) fun stretch hMem =>
            hReplaced stretch (List.mem_cons_of_mem _ hMem)
          rw [hParts]
          exact List.mem_append_right _ (List.mem_cons_of_mem _ hMem)
      · cases hFind

theorem fillsNext_of_replaced {front back : List (TemplatePart α)} (hParts : parts = front ++ back) {fuel : Nat}
    {result : List α} {replaced : List (List α)}
    (hRun : fillLoop m valid char value fuel (filled char value (words char front) parts) = some (result, replaced))
    (hOnly : ∀ stretch ∈ replaced, .placeholder stretch ∈ parts)
    (hAll : ∀ stretch, .placeholder stretch ∈ back → stretch.map char ∉ words char front → stretch ∈ replaced) :
    (∀ front' items back', back = front' ++ .placeholder items :: back' →
      items.map char ∉ words char (front ++ front') →
        FillsNext m valid char value (front ++ front') (items.map char) back') ∧
    m.find valid ((filled char value (words char parts) parts).map char) = none := by
  induction back generalizing front fuel result replaced with
  | nil =>
    rw [List.append_nil] at hParts
    subst hParts
    refine ⟨fun front' items back' h => absurd h (by simp), ?_⟩
    cases fuel with
    | zero => cases hRun
    | succ fuel =>
      rw [fillLoop] at hRun
      cases hFind : m.find valid ((filled char value (words char parts) parts).map char) with
      | none => rfl
      | some word =>
        rw [hFind] at hRun
        obtain ⟨found, -, hFound⟩ := Option.map_eq_some_iff.mp hRun
        rw [Matcher.find] at hFind
        split at hFind
        · rw [← List.append_nil (filled char value (words char parts) parts)] at hFind hFound
          have hNowhere := startsNowhere_of_replaced hNodup hFresh (fun _ => id) hFind fun stretch hMem => by
            refine hOnly stretch ?_
            rw [← (Prod.mk.inj hFound).2]
            exact List.mem_append_left _ hMem
          rw [List.map_append, m.first_append hNowhere] at hFind
          cases hFind
        · cases hFind
  | cons part back ih =>
    have hNext : parts = front ++ [part] ++ back := by rw [hParts, List.append_assoc, List.singleton_append]
    rcases old_or_new char front part with hOld | ⟨items, rfl, hNew⟩
    · have hSame := mem_words_concat_of_old hOld
      rw [filled_congr fun word _ => hSame word] at hRun
      obtain ⟨hRest, hLast⟩ := ih hNext hRun hOnly fun stretch hMem hNew =>
        hAll stretch (List.mem_cons_of_mem _ hMem) fun hDone => hNew ((hSame _).mp hDone)
      refine ⟨fun front' items back' h hNew => ?_, hLast⟩
      cases front' with
      | nil =>
        obtain ⟨rfl, -⟩ := List.cons.inj h
        rw [List.append_nil] at hNew
        exact absurd (hOld _ rfl) hNew
      | cons part' front' =>
        obtain ⟨rfl, hBack⟩ := List.cons.inj h
        rw [List.append_cons] at hNew ⊢
        exact hRest front' items back' hBack hNew
    · have hFills := fillsNext_of_fillLoop hWords hNodup hFresh hParts hNew hRun hOnly
        (hAll items List.mem_cons_self hNew)
      have hWord := hWords items (hParts ▸ List.mem_append_right _ List.mem_cons_self)
      obtain ⟨hFind, hReplace, hStretches⟩ := replace_of_fillsNext hWord hNew hFills
      cases fuel with
      | zero => cases hRun
      | succ fuel =>
        rw [← hParts] at hFind hReplace hStretches
        rw [fillLoop, hFind] at hRun
        simp only [hReplace, hStretches] at hRun
        obtain ⟨found, hFound, hEq⟩ := Option.map_eq_some_iff.mp hRun
        obtain ⟨-, rfl⟩ := Prod.mk.inj hEq
        obtain ⟨hRest, hLast⟩ := ih hNext hFound (fun stretch hMem => hOnly stretch (List.mem_append_right _ hMem))
          fun stretch hMem hDone => by
            rw [words_append, List.mem_append, not_or] at hDone
            have hOther : stretch.map char ≠ items.map char := fun hEq => hDone.2 (hEq ▸ List.mem_singleton_self _)
            rcases List.mem_append.mp (hAll stretch (List.mem_cons_of_mem _ hMem) hDone.1) with hMem | hMem
            · rcases List.mem_cons.mp hMem with rfl | hMem
              · exact absurd rfl hOther
              · exact absurd (map_of_mem_replacedFrom hMem) hOther
            · exact hMem
        refine ⟨fun front' items' back' h hNew' => ?_, hLast⟩
        cases front' with
        | nil =>
          obtain ⟨hPart, rfl⟩ := List.cons.inj h
          obtain rfl := TemplatePart.placeholder.inj hPart
          rw [List.append_nil]
          exact hFills
        | cons part' front' =>
          obtain ⟨rfl, hBack⟩ := List.cons.inj h
          rw [List.append_cons] at hNew' ⊢
          exact hRest front' items' back' hBack hNew'

end

theorem filled_nil (text : List α) : filled char value (words char []) (m.parts char text) = text := by
  calc
    filled char value (words char []) (m.parts char text) = (m.parts char text).flatMap TemplatePart.items :=
      List.flatMap_congr fun part _ => by cases part <;> rfl
    _ = text := m.flatMap_items_parts char text

theorem fillsInPlace_of_fillLoop {text : List α} (hNodup : text.Nodup) (hFresh : ∀ word, ∀ c ∈ value word, c ∉ text)
    {fuel : Nat} {result : List α} {replaced : List (List α)}
    (hRun : fillLoop m valid char value fuel text = some (result, replaced))
    (hReplaced : ∀ stretch, stretch ∈ replaced ↔ .placeholder stretch ∈ m.parts char text) :
    FillsInPlace m valid char value (m.parts char text) := by
  have hItems := m.flatMap_items_parts char text
  have hParts : m.parts char text = [] ++ m.parts char text := rfl
  rw [← @filled_nil _ _ _ m char value text] at hRun
  obtain ⟨hNext, hLast⟩ := fillsNext_of_replaced (fun items => m.isWord_of_mem_parts char) (hItems.symm ▸ hNodup)
    (fun word c hMem => hItems.symm ▸ hFresh word c hMem) hParts hRun (fun stretch => (hReplaced stretch).mp)
    fun stretch hMem _ => (hReplaced stretch).mpr hMem
  exact ⟨hNext, hLast⟩

theorem exists_fillLoop_of_fillsInPlace {text : List α} (h : FillsInPlace m valid char value (m.parts char text)) :
    ∃ fuel replaced, fillLoop m valid char value fuel text =
        some ((m.parts char text).flatMap (TemplatePart.fill char value), replaced) ∧
      ∀ stretch, stretch ∈ replaced ↔ .placeholder stretch ∈ m.parts char text := by
  have hParts : m.parts char text = [] ++ m.parts char text := rfl
  obtain ⟨fuel, replaced, hRun, hReplaced⟩ := exists_fillLoop (fun items => m.isWord_of_mem_parts char) h hParts
  rw [filled_nil, filled_words] at hRun
  refine ⟨fuel, replaced, hRun, fun stretch => ?_⟩
  rw [hReplaced]
  exact and_iff_left List.not_mem_nil

section

variable (m valid char value)

abbrev valueOf (word : List β) : List β := (value word).map char

theorem map_expand (done : List (List β)) (part : TemplatePart α) :
    (part.expand char value done).map char = (part.map char).expand id (valueOf char value) done := by
  cases part with
  | plain c => rfl
  | placeholder items =>
    rw [TemplatePart.map, TemplatePart.expand, TemplatePart.expand, List.map_id, apply_ite (List.map char)]

theorem map_filled (done : List (List β)) (parts : List (TemplatePart α)) :
    (filled char value done parts).map char =
      filled id (valueOf char value) done (parts.map (TemplatePart.map char)) := by
  rw [filled, List.map_flatMap, filled, List.flatMap_map]
  exact List.flatMap_congr fun part _ => map_expand char value done part

theorem map_fill (parts : List (TemplatePart α)) :
    (parts.flatMap (TemplatePart.fill char value)).map char =
      (parts.map (TemplatePart.map char)).flatMap (TemplatePart.fill id (valueOf char value)) := by
  rw [← filled_words, map_filled, ← words_map char, filled_words]

theorem startsAsPlaceholder_map (word : List β) (done : List (List β)) (parts : List (TemplatePart α)) :
    StartsAsPlaceholder id (valueOf char value) word done (parts.map (TemplatePart.map char)) ↔
      StartsAsPlaceholder char value word done parts := by
  induction parts with
  | nil => exact Iff.rfl
  | cons part parts ih =>
    rw [List.map_cons, StartsAsPlaceholder, StartsAsPlaceholder, ih, word_map char, List.map_id, List.map_id, map_filled,
      map_expand]

theorem fillsNext_map (front : List (TemplatePart α)) (word : List β) (back : List (TemplatePart α)) :
    FillsNext m valid id (valueOf char value) (front.map (TemplatePart.map char)) word
        (back.map (TemplatePart.map char)) ↔ FillsNext m valid char value front word back := by
  have hValue (done : List (List β)) (parts : List (TemplatePart α)) :
      (filled id (valueOf char value) done (parts.map (TemplatePart.map char))).map id =
        (filled char value done parts).map char := by
    rw [List.map_id, map_filled]
  constructor
  · rintro ⟨hValid, hFirst, hOnly⟩
    rw [words_map char, hValue, hValue] at hValid hFirst
    rw [words_map char, startsAsPlaceholder_map] at hOnly
    exact ⟨hValid, hFirst, hOnly⟩
  · rintro ⟨hValid, hFirst, hOnly⟩
    refine ⟨?_, ?_, ?_⟩
    · rw [words_map char, hValue, hValue]
      exact hValid
    · rw [words_map char, hValue, hValue]
      exact hFirst
    · rw [words_map char, startsAsPlaceholder_map]
      exact hOnly

theorem fillsInPlace_map (parts : List (TemplatePart α)) :
    FillsInPlace m valid id (valueOf char value) (parts.map (TemplatePart.map char)) ↔
      FillsInPlace m valid char value parts := by
  constructor
  · rintro ⟨hNext, hLast⟩
    refine ⟨fun front items back h hNew => ?_, ?_⟩
    · rw [← fillsNext_map]
      have hNext := hNext (front.map (TemplatePart.map char)) (items.map char) (back.map (TemplatePart.map char))
        (by rw [h, List.map_append, List.map_cons]; rfl) (by rw [words_map char, List.map_id]; exact hNew)
      rw [List.map_id] at hNext
      exact hNext
    · rw [words_map char, List.map_id, ← map_filled] at hLast
      exact hLast
  · rintro ⟨hNext, hLast⟩
    refine ⟨fun front items back h hNew => ?_, ?_⟩
    · obtain ⟨front, rest, rfl, rfl, hRest⟩ := List.map_eq_append_iff.mp h
      obtain ⟨part, back, rfl, hPart, rfl⟩ := List.map_eq_cons_iff.mp hRest
      cases part with
      | plain c => cases hPart
      | placeholder items =>
        obtain rfl := TemplatePart.placeholder.inj hPart
        rw [words_map char, List.map_id] at hNew
        rw [List.map_id, fillsNext_map]
        exact hNext front items back rfl hNew
    · rw [words_map char, List.map_id, ← map_filled]
      exact hLast

theorem map_fillLoop (fuel : Nat) (text : List α) :
    (fillLoop m valid char value fuel text).map (fun found => found.1.map char) =
      (fillLoop m valid id (valueOf char value) fuel (text.map char)).map Prod.fst := by
  induction fuel generalizing text with
  | zero => rfl
  | succ fuel ih =>
    rw [fillLoop, fillLoop, List.map_id]
    cases m.find valid (text.map char) with
    | none => rfl
    | some word =>
      simp only [Option.map_map]
      rw [← map_replaceFrom]
      exact ih _

end

end

end

end Lib
