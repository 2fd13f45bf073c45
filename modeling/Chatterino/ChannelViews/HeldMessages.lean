import Chatterino.ChannelViews.ChannelView

/-! # The messages that a proxy and a view hold

What each operation makes of the messages, as lists.
-/

namespace Chatterino

open Lib

namespace LimitedQueue

variable {T : Type} {q : LimitedQueue T}

theorem limit_foldl_pushBack (q : LimitedQueue T) (items : List T) :
    (items.foldl (fun q item => (q.pushBack item).1) q).limit = q.limit := by
  induction items generalizing q with
  | nil => rfl
  | cons item items ih => exact ih _

theorem getSnapshot_foldl_pushBack (q : LimitedQueue T) (items : List T) :
    (items.foldl (fun q item => (q.pushBack item).1) q).getSnapshot = (q.getSnapshot ++ items).rtake q.limit := by
  induction items generalizing q with
  | nil =>
    rw [List.append_nil]
    exact (CircularBuffer.rtake_of_length_le q.length_getSnapshot_le).symm
  | cons item items ih =>
    rw [List.foldl_cons, ih, getSnapshot_pushBack, limit_pushBack, rtake_append_rtake, List.append_assoc,
      List.singleton_append]

section decidable

variable [DecidableEq T]

theorem fst_findHinted (hint : Nat) (prev : T) :
    (q.findHinted hint fun item => item = prev).map Prod.fst = position hint prev q.getSnapshot := by
  have hItems : q.buffer_.items = q.getSnapshot := rfl
  have hIndex : q.getSnapshot.findIdx? (fun item => decide (item = prev)) = q.getSnapshot.findIdx? (· == prev) := rfl
  unfold findHinted position
  by_cases hHint : q.getSnapshot[hint]? = some prev
  · have hFilter : q.buffer_.items[hint]?.filter (fun item => decide (item = prev)) = some prev := by
      rw [show q.buffer_.items[hint]? = some prev from hHint]
      simp
    rw [hFilter, if_pos hHint]
    rfl
  · have hFilter : q.buffer_.items[hint]?.filter (fun item => decide (item = prev)) = none := by
      rw [Option.filter_eq_none_iff]
      intro item hItem
      have hNe : item ≠ prev := fun hEq => hHint (hEq ▸ hItem)
      simpa using hNe
    rw [hFilter, if_neg hHint, hItems, hIndex]
    cases hFound : q.getSnapshot.findIdx? (· == prev) with
    | none => rfl
    | some i =>
      obtain ⟨hLt, -⟩ := List.findIdx?_eq_some_iff_getElem.mp hFound
      simp [List.getElem?_eq_getElem hLt]

theorem getSnapshot_replaceItemHinted (hint : Nat) (needle replacement : T) :
    (q.replaceItemHinted hint needle replacement).1.getSnapshot =
      setAt (position hint needle q.getSnapshot) replacement q.getSnapshot := by
  have hItems : q.buffer_.items = q.getSnapshot := rfl
  unfold replaceItemHinted replaceItem position
  rw [hItems]
  split
  · rfl
  · cases q.getSnapshot.findIdx? (· == needle) with
    | none => rfl
    | some i => rfl

theorem snd_replaceItemHinted (hint : Nat) (needle replacement : T) :
    (q.replaceItemHinted hint needle replacement).2 =
      ((position hint needle q.getSnapshot).map intOfIndex).getD (-1) := by
  have hItems : q.buffer_.items = q.getSnapshot := rfl
  unfold replaceItemHinted replaceItem position
  rw [hItems]
  by_cases hHint : q.getSnapshot[hint]? = some needle
  · rw [if_pos hHint, if_pos hHint, Option.map_some, Option.getD_some]
  · rw [if_neg hHint, if_neg hHint]
    cases q.getSnapshot.findIdx? (· == needle) with
    | none => rw [Option.map_none, Option.getD_none]
    | some i => rw [Option.map_some, Option.getD_some]

theorem le_snd_replaceItemHinted (hLimit : q.limit < 2 ^ 31) (hint : Nat) (needle replacement : T) :
    0 ≤ (q.replaceItemHinted hint needle replacement).2 ↔ (position hint needle q.getSnapshot).isSome := by
  rw [snd_replaceItemHinted]
  cases hFound : position hint needle q.getSnapshot with
  | none => simp
  | some i =>
    obtain ⟨hLt, -⟩ := List.getElem?_eq_some_iff.mp (getElem?_position hFound)
    have hLength := q.length_getSnapshot_le
    rw [Option.map_some, Option.getD_some, intOfIndex_eq (by omega)]
    exact iff_of_true (Int.natCast_nonneg i) rfl

omit [DecidableEq T] in
theorem mem_insert {position : Nat} {item x : T} (hPosition : position ≤ q.getSnapshot.length)
    (h : x ∈ (q.buffer_.insert position item).items) : x ∈ q.getSnapshot ∨ x = item := by
  rw [q.getSnapshot_insert item hPosition] at h
  exact (List.eq_or_mem_of_mem_insertIdx (mem_of_mem_rtake h)).symm

theorem mem_insertBefore {needle item x : T} (h : x ∈ (q.insertBefore needle item).1.getSnapshot) :
    x ∈ q.getSnapshot ∨ x = item := by
  unfold insertBefore at h
  split at h
  · rename_i it hFound
    exact mem_insert (List.findIdx?_eq_some_iff_getElem.mp hFound).1.le h
  · exact .inl h

theorem mem_insertAfter {needle item x : T} (h : x ∈ (q.insertAfter needle item).1.getSnapshot) :
    x ∈ q.getSnapshot ∨ x = item := by
  unfold insertAfter at h
  split at h
  · rename_i it hFound
    exact mem_insert (List.findIdx?_eq_some_iff_getElem.mp hFound).1 h
  · exact .inl h

end decidable

end LimitedQueue

namespace FillIn

variable {MessagePtr : Type} [DecidableEq MessagePtr] {deref : MessagePtr → Message} {snapshot : List MessagePtr}
  {st : FillState MessagePtr} {messages : List MessagePtr}

theorem anyInserted_foldl (h : st.anyInserted = true) :
    (messages.foldl (fillStep deref snapshot) st).anyInserted = true := by
  induction messages generalizing st with
  | nil => exact h
  | cons msg messages ih =>
    apply ih
    unfold fillStep
    split
    · exact h
    · split <;> rfl

theorem foldl_of_not_anyInserted (h : (messages.foldl (fillStep deref snapshot) st).anyInserted = false) :
    messages.foldl (fillStep deref snapshot) st = st := by
  induction messages with
  | nil => rfl
  | cons msg messages ih =>
    rw [List.foldl_cons] at h ⊢
    by_cases hId : (deref msg).id ∈ existingMessageIds deref snapshot
    · rw [fillStep, if_pos hId] at h ⊢
      exact ih h
    · have hInserted : (fillStep deref snapshot st msg).anyInserted = true := by
        rw [fillStep, if_neg hId]
        split <;> rfl
      rw [anyInserted_foldl hInserted] at h
      cases h

theorem mem_foldl {x : MessagePtr} (h : x ∈ (messages.foldl (fillStep deref snapshot) st).messages_.getSnapshot) :
    x ∈ st.messages_.getSnapshot ∨ x ∈ messages := by
  induction messages generalizing st with
  | nil => exact .inl h
  | cons msg messages ih =>
    have hStep : x ∈ (fillStep deref snapshot st msg).messages_.getSnapshot → x ∈ st.messages_.getSnapshot ∨ x = msg := by
      intro hMem
      unfold fillStep at hMem
      split at hMem
      · exact .inl hMem
      · split at hMem
        · exact LimitedQueue.mem_insertBefore hMem
        · exact LimitedQueue.mem_insertAfter hMem
    obtain hOld | hNew := ih h
    · exact (hStep hOld).imp_right (List.mem_cons.mpr ∘ .inl)
    · exact .inr (List.mem_cons_of_mem _ hNew)

theorem mem_fillInMissingMessages {q : LimitedQueue MessagePtr} {x : MessagePtr}
    (h : x ∈ (fillInMissingMessages deref q messages).1.getSnapshot) : x ∈ q.getSnapshot ∨ x ∈ messages := by
  unfold fillInMissingMessages at h
  split at h
  · exact .inl h
  · split at h
    · rw [LimitedQueue.getSnapshot_pushFront, List.mem_append] at h
      exact h.symm.imp_right mem_of_mem_rtake
    · exact mem_foldl h

theorem fillInMissingMessages_of_none {q : LimitedQueue MessagePtr}
    (h : (fillInMissingMessages deref q messages).2 = none) : (fillInMissingMessages deref q messages).1 = q := by
  unfold fillInMissingMessages at h ⊢
  split at h
  · rename_i hEmpty
    rw [if_pos hEmpty]
  · rename_i hNonempty
    rw [if_neg hNonempty]
    cases hLast : q.getSnapshot.getLast? with
    | none =>
      rw [hLast] at h
      cases h
    | some lastMsg =>
      rw [hLast] at h
      dsimp only at h ⊢
      split at h
      · cases h
      · rename_i hNot
        rw [foldl_of_not_anyInserted (Bool.eq_false_iff.mpr hNot)]

end FillIn

namespace ViewMessages

variable {MessagePtr : Type} {view : ViewMessages MessagePtr}

theorem evicts_iff (view : ViewMessages MessagePtr) : view.evicts = true ↔
    view.messages_.getSnapshot.length = view.messages_.limit := by
  rw [evicts, CircularBuffer.full, beq_iff_eq, view.messages_.capacity_eq]
  rfl

@[simp] theorem messages_messageAppended (message : MessagePtr) (view : ViewMessages MessagePtr) :
    (view.messageAppended message).messages_ = (view.messages_.pushBack message).1 := by
  unfold messageAppended
  dsimp only
  split
  · split <;> rfl
  · rfl

@[simp] theorem messages_updatePauses (view : ViewMessages MessagePtr) : view.updatePauses.messages_ = view.messages_ := by
  unfold updatePauses
  split <;> rfl

@[simp] theorem messages_unpause (reason : PauseReason) (view : ViewMessages MessagePtr) :
    (view.unpause reason).messages_ = view.messages_ := by
  unfold unpause
  split
  · exact messages_updatePauses _
  · rfl

@[simp] theorem messages_setSelection (start endItem : SelectionItem) (view : ViewMessages MessagePtr) :
    (view.setSelection start endItem).messages_ = view.messages_ := by
  unfold setSelection
  split <;> rfl

theorem limit_messagesUpdated (snapshot : List MessagePtr) (view : ViewMessages MessagePtr) :
    (view.messagesUpdated snapshot).messages_.limit = view.messages_.limit :=
  LimitedQueue.limit_foldl_pushBack view.messages_.clear snapshot

theorem getSnapshot_messagesUpdated (snapshot : List MessagePtr) (view : ViewMessages MessagePtr) :
    (view.messagesUpdated snapshot).messages_.getSnapshot = snapshot.rtake view.messages_.limit :=
  LimitedQueue.getSnapshot_foldl_pushBack view.messages_.clear snapshot

section decidable

variable [DecidableEq MessagePtr]

theorem layoutIndex_eq (hint : Nat) (prev : MessagePtr) (view : ViewMessages MessagePtr) :
    view.layoutIndex hint prev = position hint prev view.messages_.getSnapshot :=
  LimitedQueue.fst_findHinted hint prev

theorem getSnapshot_messageReplaced (hint : Nat) (prev replacement : MessagePtr) (view : ViewMessages MessagePtr) :
    (view.messageReplaced hint prev replacement).messages_.getSnapshot =
      setAt (position hint prev view.messages_.getSnapshot) replacement view.messages_.getSnapshot := by
  rw [messageReplaced, layoutIndex_eq]
  cases hFound : position hint prev view.messages_.getSnapshot with
  | none => rfl
  | some index =>
    have hItem : view.messages_.buffer_.items[index]? = some prev := getElem?_position hFound
    simp only [LimitedQueue.replaceItemAt, hItem]
    rfl

theorem limit_messageReplaced (hint : Nat) (prev replacement : MessagePtr) (view : ViewMessages MessagePtr) :
    (view.messageReplaced hint prev replacement).messages_.limit = view.messages_.limit := by
  unfold messageReplaced
  split
  · rfl
  · unfold LimitedQueue.replaceItemAt
    split <;> rfl

end decidable

end ViewMessages

namespace ProxyChannel

variable {MessagePtr : Type} {channel : ProxyChannel MessagePtr}

theorem getMessageSnapshot_addMessage (message : MessagePtr) (channel : ProxyChannel MessagePtr) :
    (channel.addMessage message).getMessageSnapshot =
      (channel.getMessageSnapshot ++ [message]).rtake channel.messages_.limit :=
  channel.messages_.getSnapshot_pushBack message

theorem messages_foldl_addMessage (messages : List MessagePtr) (channel : ProxyChannel MessagePtr) :
    (messages.foldl (fun channel message => channel.addMessage message) channel).messages_ =
      messages.foldl (fun q message => (q.pushBack message).1) channel.messages_ := by
  induction messages generalizing channel with
  | nil => rfl
  | cons message messages ih => exact ih _

theorem getMessageSnapshot_addMessagesAtStart (messages : List MessagePtr) (channel : ProxyChannel MessagePtr) :
    (channel.addMessagesAtStart messages).1.getMessageSnapshot =
      (channel.addMessagesAtStart messages).2.getD [] ++ channel.getMessageSnapshot := by
  have hAdded : (channel.addMessagesAtStart messages).2.getD [] = (channel.messages_.pushFront messages).2 := by
    unfold addMessagesAtStart
    dsimp only
    split
    · rfl
    · rename_i hEmpty
      exact (List.length_eq_zero_iff.mp (not_not.mp hEmpty)).symm
  rw [hAdded, LimitedQueue.snd_pushFront]
  exact channel.messages_.getSnapshot_pushFront messages

section decidable

variable [DecidableEq MessagePtr]

theorem getMessageSnapshot_replaceMessage (hint : Nat) (message replacement : MessagePtr)
    (channel : ProxyChannel MessagePtr) :
    (channel.replaceMessage hint message replacement).1.getMessageSnapshot =
      setAt (position hint message channel.getMessageSnapshot) replacement channel.getMessageSnapshot :=
  LimitedQueue.getSnapshot_replaceItemHinted hint message replacement

theorem snd_replaceMessage (hint : Nat) (message replacement : MessagePtr) (channel : ProxyChannel MessagePtr) :
    (channel.replaceMessage hint message replacement).2 = true ↔ message ∈ channel.getMessageSnapshot := by
  have hFound := LimitedQueue.le_snd_replaceItemHinted channel.limit_lt hint message replacement
  rw [show (channel.replaceMessage hint message replacement).2 = true ↔ _ from decide_eq_true_iff.trans hFound,
    Option.isSome_iff_ne_none, Ne, position_eq_none_iff, not_not]
  rfl

theorem getMessageSnapshot_of_not_filled {deref : MessagePtr → Message} {messages : List MessagePtr}
    (h : (channel.fillInMissingMessages deref messages).2 = false) :
    (channel.fillInMissingMessages deref messages).1.getMessageSnapshot = channel.getMessageSnapshot :=
  congrArg LimitedQueue.getSnapshot (FillIn.fillInMissingMessages_of_none (Option.isSome_eq_false_iff.mp h |> Option.isNone_iff_eq_none.mp))

end decidable

end ProxyChannel

end Chatterino
