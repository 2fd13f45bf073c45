import Chatterino.Layouts.MessageLayoutContainer

/-! # Copied text

The elements of a selection are added to a text one after the other. Positions are not bounded, and an
element that is copied to its end is given no end.
-/

namespace Chatterino

open QString

namespace TwitchEmotes

def emoteNameReplacements : List (QString × QString) :=
  [(lit "[oO](_|\\.)[oO]", lit "O_o"), (lit "\\&gt\\;\\(", lit ">("), (lit "\\&lt\\;3", lit "<3"),
    (lit "\\:-?(o|O)", lit ":O"), (lit "\\:-?(p|P)", lit ":P"), (lit "\\:-?[\\\\/]", lit ":/"),
    (lit "\\:-?[z|Z|\\|]", lit ":Z"), (lit "\\:-?\\(", lit ":("), (lit "\\:-?\\)", lit ":)"),
    (lit "\\:-?D", lit ":D"), (lit "\\;-?(p|P)", lit ";P"), (lit "\\;-?\\)", lit ";)"),
    (lit "R-?\\)", lit "R)"), (lit "B-?\\)", lit "B)")]

def cleanUpEmoteCode (dirtyEmoteCode : QString) : QString :=
  (emoteNameReplacements.lookup dirtyEmoteCode).getD dirtyEmoteCode

end TwitchEmotes

open TwitchEmotes

inductive CopyMode where
  | Everything | EverythingButReplies | OnlyTextAndEmotes
deriving DecidableEq

inductive LayoutContent where
  -- an image whose creator is an emote element
  | emote (copyString : QString)
  | layeredEmotes (copyStrings : List QString)
  -- other images, and icons of text
  | image
  | text (text : QString)
  | replyCurve
deriving DecidableEq

def LayoutContent.kind : LayoutContent → LayoutElementKind
  | .emote _ => .image
  | .layeredEmotes _ => .image
  | .image => .image
  | .text string => .text string.length
  | .replyCurve => .replyCurve

structure CopiedElement where
  content : LayoutContent
  trailingSpace : Bool
  flags : MessageElementFlags

namespace CopiedElement

def getSelectionIndexCount (element : CopiedElement) : Nat :=
  element.content.kind.getSelectionIndexCount element.trailingSpace

def getCleanCopyString (copyStrings : List QString) : QString :=
  [0x20].intercalate (copyStrings.map cleanUpEmoteCode)

/-- The units from a position on, `n` of them if there is an `n`. -/
def mid (text : QString) (position : Nat) (n : Option Nat) : QString :=
  n.elim (text.drop position) fun n => (text.drop position).take n

/-- Adds the part of an element between two positions in it, of which the second may be missing. -/
def addCopyTextToString (element : CopiedElement) (str : QString) (from_ : Nat) (to_ : Option Nat) : QString :=
  match element.content with
  | .emote copyString =>
    let str := cleanUpEmoteCode (str ++ copyString)
    if element.trailingSpace && to_.all (2 ≤ ·) then str ++ [0x20] else str
  | .layeredEmotes copyStrings =>
    let str := str ++ getCleanCopyString copyStrings
    if element.trailingSpace && to_.all (2 ≤ ·) then str ++ [0x20] else str
  | .image => str
  | .text text =>
    let str := str ++ mid text from_ (to_.map (· - from_))
    if element.trailingSpace && to_.all (text.length < ·) then str ++ [0x20] else str
  | .replyCurve => str

def leftOut (copymode : CopyMode) (element : CopiedElement) : Bool :=
  (copymode != .Everything && element.flags.has .RepliedMessage) ||
    (copymode == .OnlyTextAndEmotes && ([.Timestamp, .Username, .BadgeGlobalAuthority, .BadgePredictions,
      .BadgeChannelAuthority, .BadgeSubscription, .BadgeVanity, .BadgeChatterino, .BadgeSevenTV, .BadgeFfz,
      .BadgeSharedChannel, .BadgeBttv, .BadgePlatform, .ChannelName] : List MessageElementFlag).any element.flags.has)

/-- The elements from an index on. `first` until one of them is selected. -/
def addElements (copymode : CopyMode) (from_ to_ : Nat) : List CopiedElement → Nat → Bool → QString → QString
  | [], _, _, str => str
  | element :: elements, index, first, str =>
    if element.leftOut copymode then addElements copymode from_ to_ elements index first str
    else
      let indexCount := element.getSelectionIndexCount
      if first then
        if from_ < index + indexCount then
          let str := element.addCopyTextToString str (from_ - index) (some (to_ - index))
          if to_ ≤ index + indexCount then str
          else addElements copymode from_ to_ elements (index + indexCount) false str
        else addElements copymode from_ to_ elements (index + indexCount) true str
      else if to_ ≤ index + indexCount then element.addCopyTextToString str 0 (some (to_ - index))
      else addElements copymode from_ to_ elements (index + indexCount) false (element.addCopyTextToString str 0 none)

def addSelectionText (copymode : CopyMode) (str : QString) (from_ to_ : Nat) (elements : List CopiedElement) : QString :=
  addElements copymode from_ to_ elements 0 true str

def copied (elements : List CopiedElement) (from_ to_ : Nat) : QString :=
  addSelectionText .Everything [] from_ to_ elements

def totalCount (elements : List CopiedElement) : Nat := (elements.map getSelectionIndexCount).sum

def copyText (element : CopiedElement) : QString := element.addCopyTextToString [] 0 none

/-- A range is copied in parts that meet between elements, and all elements are copied with all of their texts. -/
structure Compositional (allowed : Nat → Nat → Prop) (elements : List CopiedElement) : Prop where
  parts : ∀ from_ k to_, allowed from_ (totalCount (elements.take k)) → allowed (totalCount (elements.take k)) to_ →
    copied elements from_ to_ =
      copied elements from_ (totalCount (elements.take k)) ++ copied elements (totalCount (elements.take k)) to_
  whole : copied elements 0 (totalCount elements) = elements.flatMap copyText
  appends : ∀ str from_ to_, allowed from_ to_ →
    addSelectionText .Everything str from_ to_ elements = str ++ copied elements from_ to_

def ShowsNoEmote (element : CopiedElement) : Prop :=
  match element.content with
  | .emote _ => False
  | .layeredEmotes copyStrings => getCleanCopyString copyStrings = []
  | _ => True

def EndsNoPattern (element : CopiedElement) : Prop :=
  ∀ copyString, element.content = .emote copyString → ∀ replacement ∈ emoteNameReplacements, ¬copyString <:+ replacement.1

theorem cleanUpEmoteCode_replacement : ∀ replacement ∈ emoteNameReplacements,
    cleanUpEmoteCode replacement.1 = replacement.2 := by
  decide

theorem replacement_ne : ∀ replacement ∈ emoteNameReplacements,
    replacement.2 ≠ replacement.1 ∧ replacement.2 ≠ [] ∧ replacement.1.head? ≠ some 0x20 := by
  decide

theorem cleanUpEmoteCode_of_ne {code : QString} (h : ∀ replacement ∈ emoteNameReplacements, replacement.1 ≠ code) :
    cleanUpEmoteCode code = code := by
  rw [cleanUpEmoteCode, List.lookup_eq_none_iff.mpr, Option.getD_none]
  intro replacement hMem
  rw [bne_iff_ne]
  exact (h replacement hMem).symm

theorem cleanUpEmoteCode_append {code : QString} (h : ∀ replacement ∈ emoteNameReplacements, ¬code <:+ replacement.1)
    (str : QString) : cleanUpEmoteCode (str ++ code) = str ++ code := by
  apply cleanUpEmoteCode_of_ne
  intro replacement hMem hEq
  exact h replacement hMem ⟨str, hEq.symm⟩

theorem forall_cleanUpEmoteCode_iff {code : QString} :
    (∀ str, cleanUpEmoteCode (str ++ code) = str ++ cleanUpEmoteCode code) ↔
      ∀ replacement ∈ emoteNameReplacements, ¬code <:+ replacement.1 := by
  constructor
  · rintro h replacement hMem ⟨str, hEq⟩
    obtain ⟨hNe, -, -⟩ := replacement_ne replacement hMem
    have hClean : cleanUpEmoteCode code = code := by
      by_contra hOther
      have hCode : ∃ r ∈ emoteNameReplacements, r.1 = code := by
        by_contra hNone
        exact hOther (cleanUpEmoteCode_of_ne fun r hr hr' => hNone ⟨r, hr, hr'⟩)
      obtain ⟨r, hr, rfl⟩ := hCode
      -- no pattern starts with a space, so that the code is not cleaned behind one
      have hSpace : cleanUpEmoteCode ([0x20] ++ r.1) = [0x20] ++ r.1 := by
        apply cleanUpEmoteCode_of_ne
        intro r' hr' hEq'
        apply (replacement_ne r' hr').2.2
        rw [hEq']
        rfl
      rw [h [0x20]] at hSpace
      exact hOther (List.append_cancel_left hSpace)
    have hWhole := h str
    rw [hClean, hEq, cleanUpEmoteCode_replacement replacement hMem] at hWhole
    exact hNe hWhole
  · intro h str
    have hAlone := cleanUpEmoteCode_append h []
    rw [List.nil_append] at hAlone
    rw [cleanUpEmoteCode_append h str, hAlone]

variable {element : CopiedElement} {elements : List CopiedElement}

theorem EndsNoPattern.append (h : element.EndsNoPattern) (str : QString) (from_ : Nat) (to_ : Option Nat) :
    element.addCopyTextToString str from_ to_ = str ++ element.addCopyTextToString [] from_ to_ := by
  obtain ⟨content, trailingSpace, flags⟩ := element
  cases content with
  | emote copyString =>
    have hClean := forall_cleanUpEmoteCode_iff.mpr (h copyString rfl)
    simp only [addCopyTextToString, hClean str, List.nil_append]
    split
    · rw [List.append_assoc]
    · rfl
  | layeredEmotes copyStrings | text string =>
    simp only [addCopyTextToString, List.nil_append]
    split
    · rw [List.append_assoc]
    · rfl
  | image => exact (List.append_nil str).symm
  | replyCurve => exact (List.append_nil str).symm

theorem addCopyTextToString_end (str : QString) (from_ : Nat) {to_ : Nat} (h : element.getSelectionIndexCount ≤ to_) :
    element.addCopyTextToString str from_ (some to_) = element.addCopyTextToString str from_ none := by
  obtain ⟨content, trailingSpace, flags⟩ := element
  cases content with
  | emote copyString | layeredEmotes copyStrings =>
    cases trailingSpace with
    | false => rfl
    | true =>
      have hTwo : 2 ≤ to_ := h
      simp only [addCopyTextToString, Option.all_some, Option.all_none, decide_eq_true hTwo]
  | image => rfl
  | text string =>
    have hCount : string.length + (if trailingSpace then 1 else 0) ≤ to_ := h
    have hMid : mid string from_ (some (to_ - from_)) = mid string from_ none := by
      apply List.take_of_length_le
      rw [List.length_drop]
      omega
    cases trailingSpace with
    | false => simp only [addCopyTextToString, Option.map_some, Option.map_none, hMid, Bool.false_and]
    | true =>
      rw [if_pos rfl] at hCount
      simp only [addCopyTextToString, Option.map_some, Option.map_none, hMid, Option.all_some, Option.all_none,
        decide_eq_true (show string.length < to_ by omega)]
  | replyCurve => rfl

theorem addCopyTextToString_empty (h : element.getSelectionIndexCount = 0) (str : QString) (from_ : Nat)
    (to_ : Option Nat) : element.addCopyTextToString str from_ to_ = str := by
  obtain ⟨content, trailingSpace, flags⟩ := element
  cases content with
  | text string =>
    have hCount : string.length + (if trailingSpace then 1 else 0) = 0 := h
    cases trailingSpace with
    | false =>
      rw [List.eq_nil_of_length_eq_zero hCount]
      cases to_ <;> simp only [addCopyTextToString, mid, Option.map_some, Option.map_none, Option.elim_some,
        Option.elim_none, List.drop_nil, List.take_nil, List.append_nil, Bool.false_and, Bool.false_eq_true, if_false]
    | true => cases hCount
  | _ => cases trailingSpace <;> cases h

theorem ShowsNoEmote.empty (h : element.ShowsNoEmote) {i : Nat} (hIn : i < element.getSelectionIndexCount) :
    element.addCopyTextToString [] i (some i) = [] := by
  obtain ⟨content, trailingSpace, flags⟩ := element
  cases content with
  | emote copyString => exact h.elim
  | layeredEmotes copyStrings =>
    have hNone : getCleanCopyString copyStrings = [] := h
    have hLess : i < if trailingSpace then 2 else 1 := hIn
    have hSpace : (trailingSpace && decide (2 ≤ i)) = false := by
      cases trailingSpace with
      | false => rfl
      | true =>
        rw [if_pos rfl] at hLess
        rw [Bool.true_and, decide_eq_false_iff_not, Nat.not_le]
        exact hLess
    simp only [addCopyTextToString, hNone, Option.all_some, hSpace]
    rfl
  | image => rfl
  | text string =>
    have hLess : i < string.length + if trailingSpace then 1 else 0 := hIn
    have hSpace : (trailingSpace && decide (string.length < i)) = false := by
      cases trailingSpace with
      | false => rfl
      | true =>
        rw [if_pos rfl] at hLess
        rw [Bool.true_and, decide_eq_false_iff_not, Nat.not_lt]
        exact Nat.le_of_lt_succ hLess
    simp only [addCopyTextToString, mid, Option.map_some, Nat.sub_self, Option.elim_some, List.take_zero,
      Option.all_some, hSpace]
    rfl
  | replyCurve => rfl

theorem ShowsNoEmote.endsNoPattern (h : element.ShowsNoEmote) : element.EndsNoPattern := by
  intro copyString hContent
  rw [ShowsNoEmote, hContent] at h
  exact h.elim

def piece (element : CopiedElement) (index from_ to_ : Nat) : QString :=
  if 0 < element.getSelectionIndexCount ∧ from_ < index + element.getSelectionIndexCount ∧ index < to_ then
    element.addCopyTextToString [] (from_ - index) (some (to_ - index))
  else []

def slice : List CopiedElement → Nat → Nat → Nat → QString
  | [], _, _, _ => []
  | element :: elements, index, from_, to_ =>
    element.piece index from_ to_ ++ slice elements (index + element.getSelectionIndexCount) from_ to_

theorem totalCount_cons (element : CopiedElement) (elements : List CopiedElement) :
    totalCount (element :: elements) = element.getSelectionIndexCount + totalCount elements := by
  rw [totalCount, List.map_cons, List.sum_cons]
  rfl

theorem slice_append (front back : List CopiedElement) (index from_ to_ : Nat) :
    slice (front ++ back) index from_ to_ =
      slice front index from_ to_ ++ slice back (index + totalCount front) from_ to_ := by
  induction front generalizing index with
  | nil => rfl
  | cons element front ih =>
    rw [List.cons_append, slice, slice, ih, totalCount_cons, List.append_assoc, Nat.add_assoc]

theorem slice_behind {index from_ to_ : Nat} (h : to_ ≤ index) : slice elements index from_ to_ = [] := by
  induction elements generalizing index with
  | nil => rfl
  | cons element elements ih =>
    rw [slice, piece, if_neg (by omega), ih (by omega)]
    rfl

theorem slice_before {index from_ to_ : Nat} (h : index + totalCount elements ≤ from_) :
    slice elements index from_ to_ = [] := by
  induction elements generalizing index with
  | nil => rfl
  | cons element elements ih =>
    rw [totalCount_cons] at h
    rw [slice, piece, if_neg (by omega), ih (by omega)]
    rfl

theorem slice_end {index from_ to_ to' : Nat} (h : index + totalCount elements ≤ to_) (h' : index + totalCount elements ≤ to')
    : slice elements index from_ to_ = slice elements index from_ to' := by
  induction elements generalizing index with
  | nil => rfl
  | cons element elements ih =>
    rw [totalCount_cons] at h h'
    have hPiece : element.piece index from_ to_ = element.piece index from_ to' := by
      rw [piece, piece, addCopyTextToString_end _ _ (by omega), addCopyTextToString_end _ _ (by omega)]
      apply if_ctx_congr _ (fun _ => rfl) (fun _ => rfl)
      omega
    rw [slice, slice, hPiece, ih (by omega) (by omega)]

theorem slice_start {index from_ from' to_ : Nat} (h : from_ ≤ index) (h' : from' ≤ index) :
    slice elements index from_ to_ = slice elements index from' to_ := by
  induction elements generalizing index with
  | nil => rfl
  | cons element elements ih =>
    have hPiece : element.piece index from_ to_ = element.piece index from' to_ := by
      rw [piece, piece, Nat.sub_eq_zero_of_le h, Nat.sub_eq_zero_of_le h']
      apply if_ctx_congr _ (fun _ => rfl) (fun _ => rfl)
      omega
    rw [slice, slice, hPiece, ih (by omega) (by omega)]

theorem slice_parts (front back : List CopiedElement) {from_ to_ : Nat} (hFrom : from_ ≤ totalCount front)
    (hTo : totalCount front ≤ to_) : slice (front ++ back) 0 from_ to_ =
      slice (front ++ back) 0 from_ (totalCount front) ++ slice (front ++ back) 0 (totalCount front) to_ := by
  have hFront : 0 + totalCount front = totalCount front := Nat.zero_add _
  rw [slice_append, slice_append, slice_append, hFront, slice_behind (Nat.le_refl _), List.append_nil,
    slice_before (Nat.le_of_eq hFront), List.nil_append, slice_start hFrom (Nat.le_refl _)]
  exact congrArg (· ++ _) (slice_end (by omega) (by omega))

theorem slice_whole (elements : List CopiedElement) (index : Nat) :
    slice elements index index (index + totalCount elements) = elements.flatMap copyText := by
  induction elements generalizing index with
  | nil => rfl
  | cons element elements ih =>
    rw [slice, List.flatMap_cons, totalCount_cons, ← Nat.add_assoc,
      slice_start (Nat.le_add_right index element.getSelectionIndexCount) (Nat.le_refl _), ih]
    apply congrArg (· ++ _)
    rw [piece, Nat.sub_self, addCopyTextToString_end _ _ (by omega), copyText]
    split_ifs with hIn
    · rfl
    · exact (addCopyTextToString_empty (by omega) [] 0 none).symm

theorem leftOut_everything (element : CopiedElement) : element.leftOut .Everything = false := by
  rw [leftOut, bne_self_eq_false, Bool.false_and, Bool.false_or]
  rfl

theorem addElements_following (h : ∀ element ∈ elements, element.EndsNoPattern) {index from_ to_ : Nat}
    (hFrom : from_ ≤ index) (hTo : index < to_) (str : QString) :
    addElements .Everything from_ to_ elements index false str = str ++ slice elements index from_ to_ := by
  induction elements generalizing index str with
  | nil => exact (List.append_nil str).symm
  | cons element elements ih =>
    obtain ⟨hElement, hElements⟩ := List.forall_mem_cons.mp h
    have hPiece (hLast : element.getSelectionIndexCount ≤ to_ - index ∨ 0 < element.getSelectionIndexCount) :
        str ++ element.piece index from_ to_ = element.addCopyTextToString str 0 (some (to_ - index)) := by
      rw [piece, Nat.sub_eq_zero_of_le hFrom]
      split_ifs with hIn
      · exact (hElement.append str 0 _).symm
      · rw [addCopyTextToString_empty (by omega), List.append_nil]
    rw [addElements, leftOut_everything, if_neg Bool.false_ne_true, if_neg Bool.false_ne_true, slice, ← List.append_assoc]
    split_ifs with hLast
    · rw [slice_behind hLast, List.append_nil, hPiece (by omega)]
    · rw [ih hElements (by omega) (by omega), hPiece (by omega), addCopyTextToString_end str 0 (by omega)]

theorem addElements_eq (h : ∀ element ∈ elements, element.EndsNoPattern) {index from_ to_ : Nat} (hFrom : index ≤ from_)
    (hTo : from_ < to_) (str : QString) :
    addElements .Everything from_ to_ elements index true str = str ++ slice elements index from_ to_ := by
  induction elements generalizing index with
  | nil => exact (List.append_nil str).symm
  | cons element elements ih =>
    obtain ⟨hElement, hElements⟩ := List.forall_mem_cons.mp h
    rw [addElements, leftOut_everything, if_neg Bool.false_ne_true, if_pos rfl, slice, ← List.append_assoc]
    dsimp only
    split_ifs with hFirst hLast
    · rw [slice_behind hLast, List.append_nil, piece, if_pos (by omega), hElement.append str]
    · rw [addElements_following hElements (by omega) (by omega), piece, if_pos (by omega), hElement.append str]
    · rw [ih hElements (by omega), piece, if_neg (by omega), List.append_nil]

theorem addElements_empty (h : ∀ element ∈ elements, element.ShowsNoEmote) {index i : Nat} (hFrom : index ≤ i)
    (str : QString) : addElements .Everything i i elements index true str = str := by
  induction elements generalizing index with
  | nil => rfl
  | cons element elements ih =>
    obtain ⟨hElement, hElements⟩ := List.forall_mem_cons.mp h
    rw [addElements, leftOut_everything, if_neg Bool.false_ne_true, if_pos rfl]
    dsimp only
    split_ifs with hFirst hLast
    · rw [hElement.endsNoPattern.append, hElement.empty (by omega), List.append_nil]
    · omega
    · exact ih hElements (by omega)

theorem addElements_append {front : List CopiedElement} {back : List CopiedElement} {index from_ to_ : Nat}
    (h : index + totalCount front ≤ from_) (str : QString) :
    addElements .Everything from_ to_ (front ++ back) index true str =
      addElements .Everything from_ to_ back (index + totalCount front) true str := by
  induction front generalizing index with
  | nil => rfl
  | cons element front ih =>
    rw [totalCount_cons] at h ⊢
    rw [List.cons_append, addElements, leftOut_everything, if_neg Bool.false_ne_true, if_pos rfl]
    dsimp only
    rw [if_neg (by omega), ih (by omega), Nat.add_assoc]

theorem addSelectionText_one {front back : List CopiedElement} (hCount : 0 < element.getSelectionIndexCount)
    {n : Nat} (hn : n ≤ 1) (str : QString) :
    addSelectionText .Everything str (totalCount front) (totalCount front + n) (front ++ element :: back) =
      element.addCopyTextToString str 0 (some n) := by
  rw [addSelectionText, addElements_append (Nat.le_of_eq (Nat.zero_add _)), Nat.zero_add, addElements, leftOut_everything,
    if_neg Bool.false_ne_true, if_pos rfl]
  dsimp only
  rw [if_pos (by omega), if_pos (by omega), Nat.sub_self, Nat.add_sub_cancel_left]

theorem compositional_lt (h : ∀ element ∈ elements, element.EndsNoPattern) : Compositional (· < ·) elements := by
  have hCopied {from_ to_ : Nat} (hLt : from_ < to_) : copied elements from_ to_ = slice elements 0 from_ to_ :=
    addElements_eq h (Nat.zero_le _) hLt []
  refine ⟨fun from_ k to_ hFrom hTo => ?_, ?_, fun str from_ to_ hLt => ?_⟩
  · have hParts := slice_parts (elements.take k) (elements.drop k) hFrom.le hTo.le
    rw [List.take_append_drop] at hParts
    rw [hCopied (hFrom.trans hTo), hCopied hFrom, hCopied hTo, hParts]
  · have hWhole := slice_whole elements 0
    rw [Nat.zero_add] at hWhole
    rw [← hWhole]
    rcases Nat.eq_zero_or_pos (totalCount elements) with hNone | hSome
    · have hPassed := @addElements_append elements [] 0 0 0 (by omega) []
      rw [List.append_nil] at hPassed
      rw [hNone, slice_before (by omega)]
      exact hPassed
    · exact hCopied hSome
  · rw [hCopied hLt]
    exact addElements_eq h (Nat.zero_le _) hLt str

theorem compositional_le (h : ∀ element ∈ elements, element.ShowsNoEmote) : Compositional (· ≤ ·) elements := by
  have hLess := compositional_lt fun element hMem => (h element hMem).endsNoPattern
  have hEmpty (i : Nat) : copied elements i i = [] := addElements_empty h (Nat.zero_le i) []
  refine ⟨fun from_ k to_ hFrom hTo => ?_, hLess.whole, fun str from_ to_ hLe => ?_⟩
  · rcases hFrom.eq_or_lt with rfl | hFrom
    · rw [hEmpty, List.nil_append]
    · rcases hTo.eq_or_lt with rfl | hTo
      · rw [hEmpty, List.append_nil]
      · exact hLess.parts from_ k to_ hFrom hTo
  · rcases hLe.eq_or_lt with rfl | hLt
    · rw [hEmpty, List.append_nil]
      exact addElements_empty h (Nat.zero_le _) str
    · exact hLess.appends str from_ to_ hLt

theorem addCopyTextToString_emote {copyString : QString} (h : element.content = .emote copyString) {n : Nat} (hn : n ≤ 1)
    (str : QString) : element.addCopyTextToString str 0 (some n) = cleanUpEmoteCode (str ++ copyString) := by
  have hTwo : ¬2 ≤ n := by omega
  rw [addCopyTextToString, h]
  simp only [Option.all_some, decide_eq_false hTwo, Bool.and_false, Bool.false_eq_true, if_false]

theorem getSelectionIndexCount_pos (h : element.content.kind = .image) : 0 < element.getSelectionIndexCount := by
  rw [getSelectionIndexCount, h]
  cases element.trailingSpace <;> decide

theorem Compositional.empty {front back : List CopiedElement} (h : Compositional (· ≤ ·) (front ++ element :: back)) :
    copied (front ++ element :: back) (totalCount front) (totalCount front) = [] := by
  have hTake : totalCount ((front ++ element :: back).take front.length) = totalCount front := by
    rw [List.take_left]
  have hParts := h.parts (totalCount front) front.length (totalCount front) hTake.ge hTake.le
  rw [hTake] at hParts
  exact List.self_eq_append_left.mp hParts

theorem endsNoPattern_of_compositional (h : Compositional (· < ·) elements) : ∀ element ∈ elements,
    element.EndsNoPattern := by
  intro element hMem copyString hContent
  obtain ⟨front, back, rfl⟩ := List.append_of_mem hMem
  apply forall_cleanUpEmoteCode_iff.mp
  intro str
  have hAppends := h.appends str (totalCount front) (totalCount front + 1) (Nat.lt_succ_self _)
  have hCount : 0 < element.getSelectionIndexCount := getSelectionIndexCount_pos (by rw [hContent]; rfl)
  rw [copied, addSelectionText_one hCount (Nat.le_refl 1), addSelectionText_one hCount (Nat.le_refl 1),
    addCopyTextToString_emote hContent (Nat.le_refl 1), addCopyTextToString_emote hContent (Nat.le_refl 1)] at hAppends
  exact hAppends

theorem showsNoEmote_of_compositional (h : Compositional (· ≤ ·) elements) : ∀ element ∈ elements,
    element.ShowsNoEmote := by
  intro element hMem
  have hEnds := endsNoPattern_of_compositional ⟨fun from_ k to_ hFrom hTo => h.parts from_ k to_ hFrom.le hTo.le,
    h.whole, fun str from_ to_ hLt => h.appends str from_ to_ hLt.le⟩ element hMem
  obtain ⟨front, back, rfl⟩ := List.append_of_mem hMem
  have hNone (hKind : element.content.kind = .image) : element.addCopyTextToString [] 0 (some 0) = [] := by
    have hOne := @addSelectionText_one element front back (getSelectionIndexCount_pos hKind) 0 (Nat.zero_le 1) []
    rw [← hOne]
    exact h.empty
  cases hContent : element.content with
  | emote copyString =>
    have hClean := hNone (by rw [hContent]; rfl)
    rw [addCopyTextToString_emote hContent (Nat.zero_le 1), cleanUpEmoteCode_append (hEnds copyString hContent)] at hClean
    -- every pattern ends with an empty text
    have hSuffix := hEnds copyString hContent _ List.mem_cons_self
    rw [List.nil_append] at hClean
    rw [hClean] at hSuffix
    exact (hSuffix List.nil_suffix).elim
  | layeredEmotes copyStrings =>
    have hClean := hNone (by rw [hContent]; rfl)
    rw [addCopyTextToString, hContent] at hClean
    simp only [Option.all_some, decide_eq_false (show ¬2 ≤ 0 by decide), Bool.and_false, Bool.false_eq_true, if_false,
      List.nil_append] at hClean
    rw [ShowsNoEmote, hContent]
    exact hClean
  | _ =>
    rw [ShowsNoEmote, hContent]
    trivial

/-- Copying is compositional where no emote is copied. In ranges that are not empty, it is where no code of an emote
ends a pattern. -/
theorem compositional_iff (elements : List CopiedElement) :
    (Compositional (· ≤ ·) elements ↔ ∀ element ∈ elements, element.ShowsNoEmote) ∧
      (Compositional (· < ·) elements ↔ ∀ element ∈ elements, element.EndsNoPattern) :=
  ⟨⟨showsNoEmote_of_compositional, compositional_le⟩, ⟨endsNoPattern_of_compositional, compositional_lt⟩⟩

def greeting : List CopiedElement :=
  [⟨.text (lit "hi"), true, {.Text}⟩, ⟨.emote (lit "Kappa"), false, {.EmoteImage}⟩]

/-- The emote is copied in front of a selection that starts behind the word, and again where it is selected. -/
theorem not_compositional_greeting : ¬Compositional (· ≤ ·) greeting := by
  intro h
  have hParts := h.parts 0 1 3 (by decide) (by decide)
  exact absurd hParts (by decide)

end CopiedElement

end Chatterino
