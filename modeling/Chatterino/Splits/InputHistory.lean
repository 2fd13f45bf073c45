import Chatterino.Splits.SplitInput
import Mathlib.Data.List.Induction

/-! # Browsing the history of an input

Pressing previousMessage walks from the draft back through the messages that were sent, nextMessage
walks forth again and ends at the draft.
-/

namespace Chatterino.Splits.SplitInput

open QString InputContext

variable {context : InputContext}

/-- The index is one of a message or one past the last, and the draft and the text have been through
`editTextChanged`. -/
structure InHistory (context : InputContext) (input : SplitInput) : Prop where
  nonneg : 0 ≤ input.prevIndex_
  le_size : input.prevIndex_ ≤ input.prevMsg_.length
  text : context.Settled input.text
  currMsg_ : context.Settled input.currMsg_

theorem inHistory_start : InHistory context {} where
  nonneg := le_refl 0
  le_size := le_refl 0
  text := settled_nil
  currMsg_ := settled_nil

theorem InHistory.withIndex {input : SplitInput} (hText : context.Settled input.text)
    (hCurr : context.Settled input.currMsg_) {index : Int} (hNonneg : 0 ≤ index)
    (hSize : index ≤ input.prevMsg_.length) : InHistory context { input with prevIndex_ := index } :=
  ⟨hNonneg, hSize, hText, hCurr⟩

theorem InHistory.withTarget {input : SplitInput} (h : InHistory context input)
    (target : Option ReplyMessage) : InHistory context { input with replyTarget_ := target } :=
  ⟨h.nonneg, h.le_size, h.text, h.currMsg_⟩

theorem InHistory.withSent {input : SplitInput} (h : InHistory context input) (sent : List Outgoing) :
    InHistory context { input with sent } := ⟨h.nonneg, h.le_size, h.text, h.currMsg_⟩

theorem InHistory.setPlainText {input : SplitInput} (h : InHistory context input) (text : QString) :
    InHistory context (setPlainText context text input) := by
  obtain ⟨target, hEq⟩ := setPlainText_eq context text input
  rw [hEq]
  exact ⟨h.nonneg, h.le_size, settled_edited text, h.currMsg_⟩

theorem InHistory.postMessageSend {input : SplitInput} (h : InHistory context input) (message : QString)
    (arguments : List QString) : InHistory context (postMessageSend context message arguments input) := by
  obtain ⟨messages, hKept | ⟨target, -, hCleared⟩⟩ := postMessageSend_cases context message arguments input
  · rw [hKept]
    exact ⟨Int.natCast_nonneg _, le_refl _, h.text, h.currMsg_⟩
  · rw [hCleared]
    exact ⟨Int.natCast_nonneg _, le_refl _, settled_nil, settled_nil⟩

theorem InHistory.handleSendMessage {input : SplitInput} (h : InHistory context input)
    (arguments : List QString) : InHistory context (handleSendMessage context arguments input) := by
  unfold SplitInput.handleSendMessage
  split
  · exact (h.withSent _).postMessageSend _ _
  · split
    · exact (h.withSent _).postMessageSend _ _
    · exact h

theorem InHistory.setReply {input : SplitInput} (h : InHistory context input) (target : Option ReplyMessage) :
    InHistory context (setReply context target input) := by
  have hFreed : InHistory context (freed context input) := by
    unfold freed
    split
    · split
      · exact h.setPlainText _
      · exact h
    · exact h
  unfold SplitInput.setReply
  split
  · simp only
    split
    · exact (hFreed.withTarget _).setPlainText _
    · exact hFreed.withTarget _
  · exact hFreed.withTarget none

theorem messageAt_natCast (messages : List QString) (index : Nat) :
    messageAt messages index = messages[index]? := by
  rw [messageAt, if_neg (not_lt.mpr (Int.natCast_nonneg index)), Int.toNat_natCast]

theorem previousMessage_eq {input : SplitInput} {index : Nat} {message : QString}
    (hIndex : input.prevIndex_ = index + 1) (hAt : input.prevMsg_[index]? = some message) :
    previousMessage context input = some (SplitInput.setPlainText context message { input with
      currMsg_ := if index + 1 = input.prevMsg_.length then input.text else input.currMsg_,
      prevIndex_ := index }) := by
  have hNone : ¬ (input.prevMsg_ = [] ∨ input.prevIndex_ = 0) := by
    rintro (hNil | hZero)
    · rw [hNil] at hAt
      cases hAt
    · omega
  have hMessage : messageAt input.prevMsg_ (input.prevIndex_ - 1) = some message := by
    rw [hIndex, add_sub_cancel_right, messageAt_natCast, hAt]
  unfold previousMessage
  rw [if_neg hNone]
  by_cases hDraft : input.prevIndex_ = input.prevMsg_.length
  · simp only [if_pos hDraft, if_pos (by omega : index + 1 = input.prevMsg_.length), hMessage, Option.map_some]
    rw [hIndex, add_sub_cancel_right]
  · simp only [if_neg hDraft, if_neg (by omega : ¬ index + 1 = input.prevMsg_.length), hMessage, Option.map_some]
    rw [hIndex, add_sub_cancel_right]

theorem nextMessage_eq {input : SplitInput} {index : Nat} {message : QString}
    (hIndex : input.prevIndex_ = index) (hAt : input.prevMsg_[index + 1]? = some message) :
    nextMessage context input =
      some (SplitInput.setPlainText context message { input with prevIndex_ := index + 1 }) := by
  obtain ⟨hBelow, -⟩ := List.getElem?_eq_some_iff.mp hAt
  have hNone : input.prevMsg_ ≠ [] := List.ne_nil_of_length_pos (by omega)
  have hMessage : messageAt input.prevMsg_ (input.prevIndex_ + 1) = some message := by
    rw [hIndex, ← Int.natCast_succ, messageAt_natCast, hAt]
  unfold nextMessage
  rw [if_neg hNone, if_pos ⟨by omega, by omega⟩]
  simp only [hMessage, Option.map_some]
  rw [hIndex]

theorem nextMessage_last {input : SplitInput} {last : QString} (hLast : input.prevMsg_.getLast? = some last)
    (hIndex : input.prevIndex_ = input.prevMsg_.length - 1 ∨ input.prevIndex_ = input.prevMsg_.length) :
    nextMessage context input = some
      (if input.text = last then
        SplitInput.setPlainText context input.currMsg_ { input with prevIndex_ := input.prevMsg_.length }
      else { input with currMsg_ := input.text, prevIndex_ := input.prevMsg_.length }) := by
  have hNone : input.prevMsg_ ≠ [] := by
    intro hNil
    rw [hNil] at hLast
    cases hLast
  have hPos := List.length_pos_of_ne_nil hNone
  have hMessage : messageAt input.prevMsg_ (input.prevMsg_.length - 1) = some last := by
    rw [← Int.natCast_pred_of_pos hPos, messageAt_natCast, ← List.getLast?_eq_getElem?, hLast]
  unfold nextMessage
  rw [if_neg hNone, if_neg (by omega)]
  simp only [hMessage, Option.map_some]
  by_cases hText : input.text = input.currMsg_
  · simp only [hText, ne_eq, not_true_eq_false, if_false]
  · simp only [ne_eq, hText, not_false_eq_true, if_true]

theorem InHistory.previousMessage {input : SplitInput} (h : InHistory context input) :
    ∃ next, previousMessage context input = some next ∧ InHistory context next := by
  have hSize := h.le_size
  obtain ⟨place, hPlace⟩ := Int.eq_ofNat_of_zero_le h.nonneg
  cases place with
  | zero => exact ⟨input, if_pos (.inr hPlace), h⟩
  | succ index =>
    have hAt := List.getElem?_eq_getElem (by omega : index < input.prevMsg_.length)
    refine ⟨_, previousMessage_eq hPlace hAt, InHistory.setPlainText ?_ _⟩
    refine ⟨by simp only; omega, by simp only; omega, h.text, ?_⟩
    simp only
    split
    · exact h.text
    · exact h.currMsg_

theorem InHistory.nextMessage {input : SplitInput} (h : InHistory context input) :
    ∃ next, nextMessage context input = some next ∧ InHistory context next := by
  have hSize := h.le_size
  obtain ⟨index, hIndex⟩ := Int.eq_ofNat_of_zero_le h.nonneg
  by_cases hBelow : index + 1 < input.prevMsg_.length
  · refine ⟨_, nextMessage_eq hIndex (List.getElem?_eq_getElem hBelow), InHistory.setPlainText ?_ _⟩
    exact ⟨by simp only; omega, by simp only; omega, h.text, h.currMsg_⟩
  · cases hLast : input.prevMsg_.getLast? with
    | none => exact ⟨input, if_pos (List.getLast?_eq_none_iff.mp hLast), h⟩
    | some last =>
      refine ⟨_, nextMessage_last hLast (by omega), ?_⟩
      split
      · exact (InHistory.withIndex h.text h.currMsg_ (Int.natCast_nonneg _) (le_refl _)).setPlainText _
      · exact ⟨Int.natCast_nonneg _, le_refl _, h.text, h.text⟩

theorem exists_step {input : SplitInput} (h : InHistory context input) (event : InputEvent) :
    ∃ next, step context input event = some next ∧ InHistory context next := by
  cases event with
  | edit text => exact ⟨_, rfl, h.setPlainText text⟩
  | sendMessage arguments => exact ⟨_, rfl, h.handleSendMessage arguments⟩
  | previousMessage => exact h.previousMessage
  | nextMessage => exact h.nextMessage
  | setReply target => exact ⟨_, rfl, h.setReply target⟩

variable (context) in
theorem exists_run (events : List InputEvent) :
    ∃ input, run context events = some input ∧ InHistory context input := by
  induction events using List.reverseRecOn with
  | nil => exact ⟨{}, rfl, inHistory_start⟩
  | append_singleton events event ih =>
    obtain ⟨input, hRun, hInput⟩ := ih
    obtain ⟨next, hStep, hNext⟩ := exists_step hInput event
    refine ⟨next, ?_, hNext⟩
    rw [run] at hRun ⊢
    rw [List.foldlM_append, hRun]
    simpa using hStep

structure ShowsEntry (context : InputContext) (messages : List QString) (draft : QString) (index : Nat)
    (input : SplitInput) : Prop where
  prevMsg_ : input.prevMsg_ = messages
  currMsg_ : input.currMsg_ = draft
  prevIndex_ : input.prevIndex_ = index
  text : ∃ entry, messages[index]? = some entry ∧ input.text = edited context entry

variable (context) in
theorem exists_previousMessage {input : SplitInput} {index : Nat} (hIndex : input.prevIndex_ = index + 1)
    (hBelow : index < input.prevMsg_.length) :
    ∃ shown, previousMessage context input = some shown ∧ ShowsEntry context input.prevMsg_
      (if index + 1 = input.prevMsg_.length then input.text else input.currMsg_) index shown := by
  have hAt := List.getElem?_eq_getElem hBelow
  refine ⟨_, previousMessage_eq hIndex hAt, ?_⟩
  obtain ⟨target, hEq⟩ := setPlainText_eq context input.prevMsg_[index] { input with
    currMsg_ := if index + 1 = input.prevMsg_.length then input.text else input.currMsg_, prevIndex_ := index }
  rw [hEq]
  exact ⟨rfl, rfl, rfl, _, hAt, rfl⟩

namespace ShowsEntry

variable {messages : List QString} {draft : QString} {index : Nat} {input : SplitInput}

theorem lt_length (h : ShowsEntry context messages draft index input) : index < messages.length := by
  obtain ⟨entry, hAt, -⟩ := h.text
  exact (List.getElem?_eq_some_iff.mp hAt).1

theorem previous (h : ShowsEntry context messages draft (index + 1) input) :
    ∃ shown, previousMessage context input = some shown ∧ ShowsEntry context messages draft index shown := by
  have hBelow := h.lt_length
  obtain ⟨shown, hPressed, hShown⟩ := exists_previousMessage context h.prevIndex_ (h.prevMsg_ ▸ (by omega : index < messages.length))
  rw [h.prevMsg_, h.currMsg_, if_neg (by omega)] at hShown
  exact ⟨shown, hPressed, hShown⟩

theorem next (h : ShowsEntry context messages draft index input) (hBelow : index + 1 < messages.length) :
    ∃ shown, nextMessage context input = some shown ∧ ShowsEntry context messages draft (index + 1) shown := by
  have hAt : input.prevMsg_[index + 1]? = some messages[index + 1] := by
    rw [h.prevMsg_, List.getElem?_eq_getElem hBelow]
  refine ⟨_, nextMessage_eq h.prevIndex_ hAt, ?_⟩
  obtain ⟨target, hEq⟩ := setPlainText_eq context messages[index + 1] { input with prevIndex_ := index + 1 }
  rw [hEq]
  exact ⟨h.prevMsg_, h.currMsg_, rfl, _, List.getElem?_eq_getElem hBelow, rfl⟩

theorem next_last (h : ShowsEntry context messages draft index input) (hLast : index + 1 = messages.length)
    (hDraft : context.Settled draft) {last : QString} (hEntry : messages.getLast? = some last) :
    ∃ shown, nextMessage context input = some shown ∧ shown.prevIndex_ = messages.length ∧
      shown.text = if edited context last = last then draft else edited context last := by
  obtain ⟨entry, hAt, hText⟩ := h.text
  have hSame : entry = last := by
    rw [List.getLast?_eq_getElem?, ← hLast, Nat.add_sub_cancel, hAt] at hEntry
    exact Option.some.inj hEntry
  subst hSame
  have hIndex : input.prevIndex_ = input.prevMsg_.length - 1 := by
    rw [h.prevIndex_, h.prevMsg_, ← hLast]
    omega
  refine ⟨_, nextMessage_last (h.prevMsg_ ▸ hEntry) (.inl hIndex), ?_⟩
  by_cases hSame : edited context entry = entry
  · obtain ⟨target, hEq⟩ := setPlainText_eq context input.currMsg_
      { input with prevIndex_ := input.prevMsg_.length }
    rw [if_pos (hText.trans hSame), if_pos hSame, hEq]
    exact ⟨by rw [h.prevMsg_], by rw [h.currMsg_, edited_of_settled hDraft]⟩
  · rw [if_neg (hText.trans_ne hSame), if_neg hSame]
    exact ⟨by rw [h.prevMsg_], hText⟩

end ShowsEntry

def pressed (press : SplitInput → Option SplitInput) (times : Nat) (input : SplitInput) : Option SplitInput :=
  (fun input : Option SplitInput => input.bind press)^[times] (some input)

theorem pressed_succ (press : SplitInput → Option SplitInput) (times : Nat) (input : SplitInput) :
    pressed press (times + 1) input = (pressed press times input).bind press :=
  Function.iterate_succ_apply' _ _ _

theorem pressed_add {press : SplitInput → Option SplitInput} {times : Nat} {input shown : SplitInput}
    (h : pressed press times input = some shown) (more : Nat) :
    pressed press (times + more) input = pressed press more shown := by
  rw [pressed, Nat.add_comm, Function.iterate_add_apply, pressed.eq_def]
  exact congrArg _ h

namespace ShowsEntry

variable {messages : List QString} {draft : QString} {index : Nat} {input : SplitInput}

theorem pressed_previous (h : ShowsEntry context messages draft index input) {times : Nat}
    (hTimes : times ≤ index) :
    ∃ shown, pressed (previousMessage context) times input = some shown ∧
      ShowsEntry context messages draft (index - times) shown := by
  induction times with
  | zero => exact ⟨input, rfl, h⟩
  | succ times ih =>
    obtain ⟨shown, hPressed, hShown⟩ := ih (by omega)
    have hPlace : index - times = index - (times + 1) + 1 := by omega
    rw [hPlace] at hShown
    obtain ⟨shown', hOnce, hShown'⟩ := hShown.previous
    exact ⟨shown', by rw [pressed_succ, hPressed, Option.bind_some, hOnce], hShown'⟩

theorem pressed_next (h : ShowsEntry context messages draft index input) {times : Nat}
    (hTimes : index + times < messages.length) :
    ∃ shown, pressed (nextMessage context) times input = some shown ∧
      ShowsEntry context messages draft (index + times) shown := by
  induction times with
  | zero => exact ⟨input, rfl, h⟩
  | succ times ih =>
    obtain ⟨shown, hPressed, hShown⟩ := ih (by omega)
    obtain ⟨shown', hOnce, hShown'⟩ := hShown.next (by omega)
    exact ⟨shown', by rw [pressed_succ, hPressed, Option.bind_some, hOnce], hShown'⟩

end ShowsEntry

variable (context) in
def ComesBack (input : SplitInput) : Prop :=
  ∀ times : Nat, times ≤ input.prevIndex_ → ∃ shown,
    (pressed (previousMessage context) times input).bind (pressed (nextMessage context) times) = some shown ∧
      shown.text = input.text ∧ shown.prevIndex_ = input.prevIndex_

variable (context) in
def StaysDraft (input : SplitInput) : Prop :=
  input.prevIndex_ = input.prevMsg_.length →
    ∃ shown, nextMessage context input = some shown ∧ shown.text = input.text

variable (context) in
def UneditedEntry (input : SplitInput) : Prop :=
  ∀ index : Nat, input.prevIndex_ = index → 0 < index →
    ∀ entry, input.prevMsg_[index]? = some entry → input.text = edited context entry

variable (context) in
/-- The last entry is left alone by `editTextChanged`, or the draft is what becomes of it. -/
def ReadableLast (input : SplitInput) : Prop :=
  input.prevIndex_ = input.prevMsg_.length → ∀ last, input.prevMsg_.getLast? = some last →
    edited context last = last ∨ input.text = edited context last

def DistinctDraft (input : SplitInput) : Prop :=
  input.prevIndex_ = input.prevMsg_.length → input.prevMsg_.getLast? = some input.text →
    input.currMsg_ = input.text

theorem staysDraft_iff {input : SplitInput} (h : InHistory context input) :
    StaysDraft context input ↔ DistinctDraft input := by
  refine forall_congr' fun hIndex => ?_
  cases hLast : input.prevMsg_.getLast? with
  | none =>
    refine iff_of_true ⟨input, if_pos (List.getLast?_eq_none_iff.mp hLast), rfl⟩ fun hSame => ?_
    cases hSame
  | some last =>
    rw [nextMessage_last hLast (.inr hIndex)]
    by_cases hText : input.text = last
    · subst hText
      rw [if_pos rfl]
      constructor
      · rintro ⟨shown, hShown, hText⟩ -
        rw [← Option.some.inj hShown, text_setPlainText, edited_of_settled h.currMsg_] at hText
        exact hText
      · intro hKept
        exact ⟨_, rfl, by rw [text_setPlainText, edited_of_settled h.currMsg_, hKept rfl]⟩
    · rw [if_neg hText]
      exact ⟨fun _ hSame => absurd (Option.some.inj hSame).symm hText, fun _ => ⟨_, rfl, rfl⟩⟩

variable (context) in
theorem exists_back_of_entry {input : SplitInput} {index : Nat} (hIndex : input.prevIndex_ = index)
    (hBelow : index < input.prevMsg_.length) (times : Nat) (hTimes : times + 1 ≤ index) : ∃ shown,
      (pressed (previousMessage context) (times + 1) input).bind (pressed (nextMessage context) (times + 1)) =
        some shown ∧ ShowsEntry context input.prevMsg_ input.currMsg_ index shown := by
  obtain ⟨first, hFirst, hShows⟩ := exists_previousMessage context
    (by omega : input.prevIndex_ = (index - 1 : Nat) + 1) (by omega)
  rw [if_neg (by omega)] at hShows
  obtain ⟨back, hPressed, hBack⟩ := hShows.pressed_previous (by omega : times ≤ index - 1)
  obtain ⟨shown, hNext, hShown⟩ := hBack.pressed_next
    (by omega : index - 1 - times + (times + 1) < input.prevMsg_.length)
  rw [show index - 1 - times + (times + 1) = index by omega] at hShown
  have hOnce : pressed (previousMessage context) 1 input = some first := hFirst
  exact ⟨shown, by rw [Nat.add_comm times, pressed_add hOnce, hPressed, Option.bind_some, Nat.add_comm 1, hNext],
    hShown⟩

theorem comesBack_iff_of_entry {input : SplitInput} {index : Nat} (hIndex : input.prevIndex_ = index)
    (hBelow : index < input.prevMsg_.length) :
    ComesBack context input ↔ (0 < index → input.text = edited context input.prevMsg_[index]) := by
  have hShows {shown : SplitInput} (h : ShowsEntry context input.prevMsg_ input.currMsg_ index shown) :
      shown.text = edited context input.prevMsg_[index] := by
    obtain ⟨entry, hAt, hText⟩ := h.text
    rw [List.getElem?_eq_getElem hBelow] at hAt
    rw [hText, Option.some.inj hAt]
  constructor
  · intro h hPos
    obtain ⟨times, rfl⟩ := Nat.exists_eq_succ_of_ne_zero hPos.ne'
    obtain ⟨shown, hBack, hShown⟩ := exists_back_of_entry context hIndex hBelow 0 (Nat.le_add_left 1 times)
    obtain ⟨shown', hBack', hText, -⟩ := h 1 (by omega)
    rw [hBack] at hBack'
    rw [← hText, ← Option.some.inj hBack', hShows hShown]
  · intro h times hTimes
    cases times with
    | zero => exact ⟨input, rfl, rfl, rfl⟩
    | succ times =>
      obtain ⟨shown, hBack, hShown⟩ := exists_back_of_entry context hIndex hBelow times (by omega)
      exact ⟨shown, hBack, by rw [hShows hShown, h (by omega)], by rw [hShown.prevIndex_, hIndex]⟩

theorem exists_back_of_draft {input : SplitInput} {last : QString}
    (hText : context.Settled input.text) (hIndex : input.prevIndex_ = input.prevMsg_.length)
    (hLast : input.prevMsg_.getLast? = some last) (times : Nat) (hTimes : times + 1 ≤ input.prevMsg_.length) :
    ∃ shown,
      (pressed (previousMessage context) (times + 1) input).bind (pressed (nextMessage context) (times + 1)) =
        some shown ∧ shown.prevIndex_ = input.prevMsg_.length ∧
          shown.text = if edited context last = last then input.text else edited context last := by
  obtain ⟨first, hFirst, hShows⟩ := exists_previousMessage context
    (by omega : input.prevIndex_ = (input.prevMsg_.length - 1 : Nat) + 1) (by omega)
  rw [if_pos (by omega)] at hShows
  obtain ⟨back, hPressed, hBack⟩ := hShows.pressed_previous (by omega : times ≤ input.prevMsg_.length - 1)
  obtain ⟨atLast, hNext, hAtLast⟩ := hBack.pressed_next
    (by omega : input.prevMsg_.length - 1 - times + times < input.prevMsg_.length)
  obtain ⟨shown, hLastNext, hShown⟩ := hAtLast.next_last (by omega) hText hLast
  have hOnce : pressed (previousMessage context) 1 input = some first := hFirst
  refine ⟨shown, ?_, hShown⟩
  rw [Nat.add_comm times, pressed_add hOnce, hPressed, Option.bind_some, Nat.add_comm 1, pressed_succ, hNext,
    Option.bind_some, hLastNext]

theorem comesBack_iff_of_draft {input : SplitInput} (hText : context.Settled input.text)
    (hIndex : input.prevIndex_ = input.prevMsg_.length) :
    ComesBack context input ↔ ∀ last, input.prevMsg_.getLast? = some last →
      edited context last = last ∨ input.text = edited context last := by
  constructor
  · intro h last hLast
    have hPos : 0 < input.prevMsg_.length := by
      cases hMessages : input.prevMsg_ with
      | nil => rw [hMessages] at hLast; cases hLast
      | cons message messages => exact Nat.succ_pos _
    obtain ⟨shown, hBack, -, hShown⟩ := exists_back_of_draft hText hIndex hLast 0 hPos
    obtain ⟨shown', hBack', hText', -⟩ := h 1 (by omega)
    rw [hBack] at hBack'
    rw [← Option.some.inj hBack', hShown] at hText'
    by_cases hSame : edited context last = last
    · exact .inl hSame
    · rw [if_neg hSame] at hText'
      exact .inr hText'.symm
  · intro h times hTimes
    cases times with
    | zero => exact ⟨input, rfl, rfl, rfl⟩
    | succ times =>
      have hNonempty : input.prevMsg_ ≠ [] := List.ne_nil_of_length_pos (by omega)
      have hLast := List.getLast?_eq_some_getLast hNonempty
      obtain ⟨shown, hBack, hAt, hShown⟩ := exists_back_of_draft hText hIndex hLast times (by omega)
      refine ⟨shown, hBack, ?_, by rw [hAt, hIndex]⟩
      rw [hShown]
      split
      · rfl
      · rename_i hChanged
        exact ((h _ hLast).resolve_left hChanged).symm

variable (context) in
def NeverLosesDraft (events : List InputEvent) : Prop :=
  ∃ input, run context events = some input ∧ 0 ≤ input.prevIndex_ ∧ input.prevIndex_ ≤ input.prevMsg_.length ∧
    ComesBack context input ∧ StaysDraft context input

variable (context) in
/-- What is shown is what was kept: an entry that has not been edited, or a draft that is not taken for
the last entry. -/
structure ReadsAsKept (input : SplitInput) : Prop where
  entry : UneditedEntry context input
  last : ReadableLast context input
  draft : DistinctDraft input

theorem comesBack_iff {input : SplitInput} (h : InHistory context input) :
    ComesBack context input ↔ UneditedEntry context input ∧ ReadableLast context input := by
  have hSize := h.le_size
  obtain ⟨index, hIndex⟩ := Int.eq_ofNat_of_zero_le h.nonneg
  by_cases hBelow : index < input.prevMsg_.length
  · rw [comesBack_iff_of_entry hIndex hBelow]
    constructor
    · intro hEntry
      refine ⟨fun index' hIndex' hPos entry hAt => ?_, fun hDraft => by omega⟩
      obtain rfl : index' = index := by omega
      rw [List.getElem?_eq_getElem hBelow] at hAt
      rw [hEntry hPos, Option.some.inj hAt]
    · rintro ⟨hEntry, -⟩ hPos
      exact hEntry index hIndex hPos _ (List.getElem?_eq_getElem hBelow)
  · have hDraft : input.prevIndex_ = input.prevMsg_.length := by omega
    rw [comesBack_iff_of_draft h.text hDraft]
    constructor
    · intro hLast
      refine ⟨fun index' hIndex' _ entry hAt => ?_, fun _ => hLast⟩
      obtain ⟨hBelow', -⟩ := List.getElem?_eq_some_iff.mp hAt
      omega
    · rintro ⟨-, hLast⟩
      exact hLast hDraft

theorem neverLosesDraft_iff (context : InputContext) (events : List InputEvent) :
    NeverLosesDraft context events ↔ ∀ input, run context events = some input → ReadsAsKept context input := by
  obtain ⟨input, hRun, hInput⟩ := exists_run context events
  constructor
  · rintro ⟨input', hRun', -, -, hBack, hStays⟩ input'' hRun''
    rw [hRun'] at hRun hRun''
    obtain rfl := Option.some.inj hRun
    obtain rfl := Option.some.inj hRun''
    obtain ⟨hEntry, hLast⟩ := (comesBack_iff hInput).mp hBack
    exact ⟨hEntry, hLast, (staysDraft_iff hInput).mp hStays⟩
  · intro h
    obtain ⟨hEntry, hLast, hDraft⟩ := h input hRun
    exact ⟨input, hRun, hInput.nonneg, hInput.le_size, (comesBack_iff hInput).mpr ⟨hEntry, hLast⟩,
      (staysDraft_iff hInput).mpr hDraft⟩

/-- "hi" is sent and typed again: the new draft reads like the last entry, and nextMessage wipes it. -/
theorem not_neverLosesDraft_again :
    ¬ NeverLosesDraft .plain [.edit (lit "hi"), .sendMessage [], .edit (lit "hi")] := by
  have hRun : run .plain [.edit (lit "hi"), .sendMessage [], .edit (lit "hi")] = some
      { text := lit "hi", prevMsg_ := [lit "hi"], prevIndex_ := 1, sent := [.sendMessage (lit "hi")] } := by
    decide
  rintro ⟨input, hReached, -, -, -, hStays⟩
  rw [hRun] at hReached
  obtain rfl := Option.some.inj hReached
  obtain ⟨shown, hNext, hText⟩ := hStays rfl
  have hWiped : nextMessage .plain
      { text := lit "hi", prevMsg_ := [lit "hi"], prevIndex_ := 1, sent := [.sendMessage (lit "hi")] } =
      some { prevMsg_ := [lit "hi"], prevIndex_ := 1, sent := [.sendMessage (lit "hi")] } := by
    decide
  rw [hWiped] at hNext
  rw [← Option.some.inj hNext] at hText
  exact absurd hText (by decide)

end Chatterino.Splits.SplitInput
