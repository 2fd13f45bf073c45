import Chatterino.Messages.LimitedQueue
import Chatterino.Messages.Message
import Mathlib.Data.List.Sort

/-! # Filling in missing messages

Channel::fillInMissingMessages over message pointers, which are equal when they point to the same
object and are read through `deref`. The scan for a later message runs over a snapshot taken before
the first insertion, while the queue shifts and evicts; the merge below has neither.
-/

namespace Chatterino.FillIn

open Lib

variable {MessagePtr : Type} (deref : MessagePtr → Message)

def existingMessageIds (snapshot : List MessagePtr) : List QString :=
  (snapshot.filter fun msg => !((deref msg).flags.has .System || (deref msg).id.isEmpty)).map
    fun msg => (deref msg).id

/-- The test of the inner loop: `other` is no system message and comes after `msg`. -/
def Later (msg other : MessagePtr) : Prop :=
  (deref other).flags.has .System = false ∧
    (deref msg).serverReceivedTime < (deref other).serverReceivedTime

instance (msg other : MessagePtr) : Decidable (Later deref msg other) :=
  inferInstanceAs (Decidable (_ ∧ _))

structure FillState (MessagePtr : Type) where
  messages_ : LimitedQueue MessagePtr
  anyInserted : Bool
  lastMsg : MessagePtr

section loop

variable [DecidableEq MessagePtr]

def fillStep (snapshot : List MessagePtr) (st : FillState MessagePtr) (msg : MessagePtr) :
    FillState MessagePtr :=
  if (deref msg).id ∈ existingMessageIds deref snapshot then st
  else match snapshot.find? (fun snapshotMsg => decide (Later deref msg snapshotMsg)) with
    | some snapshotMsg =>
      { messages_ := (st.messages_.insertBefore snapshotMsg msg).1
        anyInserted := true
        lastMsg := st.lastMsg }
    | none =>
      { messages_ := (st.messages_.insertAfter st.lastMsg msg).1
        anyInserted := true
        lastMsg := msg }

/-- The buffer after the call, and the messages `filledInMessages` is invoked with, if it is. -/
def fillInMissingMessages (messages_ : LimitedQueue MessagePtr) (messages : List MessagePtr) :
    LimitedQueue MessagePtr × Option (List MessagePtr) :=
  if messages.isEmpty then (messages_, none)
  else match messages_.getSnapshot.getLast? with
    | none => ((messages_.pushFront messages).1, some messages)
    | some lastMsg =>
      let st := messages.foldl (fillStep deref messages_.getSnapshot) ⟨messages_, false, lastMsg⟩
      (st.messages_, if st.anyInserted then some messages else none)

end loop

def missing (buffer messages : List MessagePtr) : List MessagePtr :=
  messages.filter fun msg => (deref msg).id ∉ existingMessageIds deref buffer

def insertAll (buffer messages : List MessagePtr) : List MessagePtr :=
  messages.foldl (fun merged msg => merged.orderedInsert (Later deref) msg) buffer

def merge (buffer messages : List MessagePtr) : List MessagePtr :=
  insertAll deref buffer (missing deref buffer messages)

def Ascending (l : List MessagePtr) : Prop :=
  l.Pairwise fun a b => (deref a).flags.has .System = false → (deref b).flags.has .System = false →
    (deref a).serverReceivedTime ≤ (deref b).serverReceivedTime

def InTimeOrder (l : List MessagePtr) : Prop :=
  l.Pairwise fun a b => (deref a).serverReceivedTime ≤ (deref b).serverReceivedTime

instance (l : List MessagePtr) : Decidable (Ascending deref l) :=
  inferInstanceAs (Decidable (List.Pairwise _ l))

instance (l : List MessagePtr) : Decidable (InTimeOrder deref l) :=
  inferInstanceAs (Decidable (List.Pairwise _ l))

variable {deref}

variable (deref) in
theorem orderedInsert_split (msg : MessagePtr) (l : List MessagePtr) :
    ∃ front back, l = front ++ back ∧
      l.orderedInsert (Later deref) msg = front ++ msg :: back ∧
      (∀ other ∈ front, ¬Later deref msg other) ∧
      (∀ other rest, back = other :: rest → Later deref msg other) ∧
      l.find? (fun other => decide (Later deref msg other)) = back.head? := by
  induction l with
  | nil => exact ⟨[], [], rfl, rfl, by simp, by simp, rfl⟩
  | cons other l ih =>
    by_cases hLater : Later deref msg other
    · refine ⟨[], other :: l, rfl, List.orderedInsert_cons_of_le _ l hLater, by simp, ?_, by simp [hLater]⟩
      rintro _ _ ⟨⟩
      exact hLater
    · obtain ⟨front, back, rfl, hInsert, hFront, hBack, hFind⟩ := ih
      refine ⟨other :: front, back, rfl, ?_, ?_, hBack, ?_⟩
      · rw [List.orderedInsert_of_not_le _ _ hLater, hInsert, List.cons_append]
      · simpa [hLater] using hFront
      · rw [List.find?_cons_of_neg (by simpa using hLater), hFind]

theorem later_of_mem_back {msg other : MessagePtr} {back : List MessagePtr}
    (hAscending : Ascending deref back)
    (hBack : ∀ other rest, back = other :: rest → Later deref msg other)
    (hMem : other ∈ back) (hSystem : (deref other).flags.has .System = false) :
    Later deref msg other := by
  cases back with
  | nil => cases hMem
  | cons head rest =>
    have hHead := hBack head rest rfl
    rcases List.mem_cons.mp hMem with rfl | hRest
    · exact hHead
    · exact ⟨hSystem, hHead.2.trans_le ((List.pairwise_cons.mp hAscending).1 other hRest hHead.1 hSystem)⟩

theorem Ascending.orderedInsert {l : List MessagePtr} (h : Ascending deref l) (msg : MessagePtr) :
    Ascending deref (l.orderedInsert (Later deref) msg) := by
  obtain ⟨front, back, rfl, hInsert, hFront, hBack, -⟩ := orderedInsert_split deref msg l
  rw [hInsert]
  obtain ⟨hAscFront, hAscBack, hCross⟩ := List.pairwise_append.mp h
  refine List.pairwise_append.mpr ⟨hAscFront, List.pairwise_cons.mpr ⟨?_, hAscBack⟩, ?_⟩
  · intro other hMem _ hSystem
    exact (later_of_mem_back hAscBack hBack hMem hSystem).2.le
  · intro other hOther next hNext hSystem hSystem'
    rcases List.mem_cons.mp hNext with rfl | hNext
    · exact not_lt.mp fun hLt => hFront other hOther ⟨hSystem, hLt⟩
    · exact hCross other hOther next hNext hSystem hSystem'

theorem Ascending.insertAll {buffer : List MessagePtr} (h : Ascending deref buffer)
    (messages : List MessagePtr) : Ascending deref (insertAll deref buffer messages) := by
  induction messages generalizing buffer with
  | nil => exact h
  | cons msg messages ih => exact ih (h.orderedInsert msg)

theorem sublist_insertAll (buffer messages : List MessagePtr) :
    buffer.Sublist (insertAll deref buffer messages) := by
  induction messages generalizing buffer with
  | nil => exact List.Sublist.refl _
  | cons msg messages ih => exact (List.sublist_orderedInsert (r := Later deref) msg buffer).trans (ih _)

variable (deref) in
theorem perm_insertAll (buffer messages : List MessagePtr) :
    (insertAll deref buffer messages).Perm (buffer ++ messages) := by
  induction messages generalizing buffer with
  | nil => simp [insertAll]
  | cons msg messages ih =>
    have hInsert := (List.perm_orderedInsert (Later deref) msg buffer).append_right messages
    exact (ih _).trans (hInsert.trans List.perm_middle.symm)

theorem order_orderedInsert {l : List MessagePtr} (h : Ascending deref l) {msg other : MessagePtr}
    (hMem : other ∈ l) (hSystem : (deref other).flags.has .System = false) :
    (if (deref other).serverReceivedTime ≤ (deref msg).serverReceivedTime then [other, msg]
      else [msg, other]).Sublist (l.orderedInsert (Later deref) msg) := by
  obtain ⟨front, back, rfl, hInsert, hFront, hBack, -⟩ := orderedInsert_split deref msg l
  have hAscBack := (List.pairwise_append.mp h).2.1
  rw [hInsert]
  split
  · rename_i hLe
    have hOther : other ∈ front := by
      refine (List.mem_append.mp hMem).resolve_right fun hMem => ?_
      exact absurd (later_of_mem_back hAscBack hBack hMem hSystem).2 (not_lt.mpr hLe)
    exact (List.singleton_sublist.mpr hOther).append (List.singleton_sublist.mpr List.mem_cons_self)
  · rename_i hLt
    have hOther : other ∈ back := (List.mem_append.mp hMem).resolve_left fun hMem =>
      hFront other hMem ⟨hSystem, not_le.mp hLt⟩
    exact ((List.singleton_sublist.mpr hOther).cons_cons msg).trans (List.sublist_append_right _ _)

theorem order_insertAll {buffer messages : List MessagePtr} (h : Ascending deref buffer)
    {msg other : MessagePtr} (hMsg : msg ∈ messages) (hMem : other ∈ buffer)
    (hSystem : (deref other).flags.has .System = false) :
    (if (deref other).serverReceivedTime ≤ (deref msg).serverReceivedTime then [other, msg]
      else [msg, other]).Sublist (insertAll deref buffer messages) := by
  induction messages generalizing buffer with
  | nil => cases hMsg
  | cons first messages ih =>
    rcases List.mem_cons.mp hMsg with rfl | hMsg
    · exact (order_orderedInsert h hMem hSystem).trans (sublist_insertAll _ messages)
    · refine ih (h.orderedInsert first) hMsg ?_
      exact (List.mem_orderedInsert (Later deref)).mpr (Or.inr hMem)

/-- Messages that all come before the first one later than `time`. -/
def Settled (deref : MessagePtr → Message) (l placed : List MessagePtr) (time : Int) : Prop :=
  ∀ front other back, l = front ++ other :: back → (deref other).flags.has .System = false →
    time < (deref other).serverReceivedTime → placed.Sublist front

theorem Settled.orderedInsert {l placed : List MessagePtr} {time : Int} {msg : MessagePtr}
    (h : Settled deref l placed time) (hPlaced : placed.Sublist l)
    (hTime : time ≤ (deref msg).serverReceivedTime) :
    (placed ++ [msg]).Sublist (l.orderedInsert (Later deref) msg) ∧
      Settled deref (l.orderedInsert (Later deref) msg) (placed ++ [msg])
        (deref msg).serverReceivedTime := by
  obtain ⟨front, back, rfl, hInsert, hFront, hBack, -⟩ := orderedInsert_split deref msg l
  have hPlacedFront : placed.Sublist front := by
    cases back with
    | nil => simpa using hPlaced
    | cons other rest =>
      have hLater := hBack other rest rfl
      exact h front other rest rfl hLater.1 (hTime.trans_lt hLater.2)
  rw [hInsert]
  refine ⟨hPlacedFront.append (List.singleton_sublist.mpr List.mem_cons_self), ?_⟩
  intro front' other back' hSplit hSystem hLt
  rcases List.append_eq_append_iff.mp hSplit with ⟨middle, rfl, hMiddle⟩ | ⟨middle, rfl, hMiddle⟩
  · cases middle with
    | nil =>
      obtain ⟨rfl, -⟩ := List.cons_eq_cons.mp hMiddle
      exact absurd hLt (lt_irrefl _)
    | cons first middle =>
      obtain ⟨rfl, -⟩ := List.cons_eq_cons.mp hMiddle
      exact hPlacedFront.append (List.singleton_sublist.mpr List.mem_cons_self)
  · cases middle with
    | nil =>
      obtain ⟨rfl, -⟩ := List.cons_eq_cons.mp hMiddle
      exact absurd hLt (lt_irrefl _)
    | cons first middle =>
      obtain ⟨rfl, -⟩ := List.cons_eq_cons.mp hMiddle
      exact absurd ⟨hSystem, hLt⟩ (hFront other (List.mem_append_right _ List.mem_cons_self))

theorem Settled.insertAll {l placed messages : List MessagePtr} {time : Int}
    (h : Settled deref l placed time) (hPlaced : placed.Sublist l)
    (hTime : ∀ msg ∈ messages, time ≤ (deref msg).serverReceivedTime)
    (hOrder : InTimeOrder deref messages) :
    (placed ++ messages).Sublist (insertAll deref l messages) := by
  induction messages generalizing l placed time with
  | nil => simpa [FillIn.insertAll] using hPlaced
  | cons msg messages ih =>
    obtain ⟨hFirst, hOrder⟩ := List.pairwise_cons.mp hOrder
    obtain ⟨hPlaced', h'⟩ := h.orderedInsert hPlaced (hTime msg List.mem_cons_self)
    simpa [FillIn.insertAll] using ih h' hPlaced' hFirst hOrder

theorem sublist_insertAll_right (buffer : List MessagePtr) {messages : List MessagePtr}
    (hOrder : InTimeOrder deref messages) :
    messages.Sublist (insertAll deref buffer messages) := by
  cases messages with
  | nil => exact List.nil_sublist _
  | cons msg messages =>
    have hFirst := (List.pairwise_cons.mp hOrder).1
    have h : Settled deref buffer [] (deref msg).serverReceivedTime :=
      fun _ _ _ _ _ _ => List.nil_sublist _
    refine h.insertAll (List.nil_sublist _) ?_ hOrder
    intro other hOther
    rcases List.mem_cons.mp hOther with rfl | hOther
    · exact le_refl _
    · exact hFirst other hOther

theorem find?_congr {α : Type} {p q : α → Bool} {l : List α} (h : ∀ x ∈ l, p x = q x) :
    l.find? p = l.find? q := by
  induction l with
  | nil => rfl
  | cons x l ih =>
    rw [List.find?_cons, List.find?_cons, h x List.mem_cons_self,
      ih fun y hy => h y (List.mem_cons_of_mem _ hy)]

section loop

variable [DecidableEq MessagePtr]

/-- The queue holds the last messages of `merged`, which extends the snapshot by `inserted`. -/
structure Merged (snapshot merged inserted : List MessagePtr) (limit : Nat)
    (st : FillState MessagePtr) : Prop where
  limit_eq : st.messages_.limit = limit
  queue : st.messages_.getSnapshot = merged.rtake limit
  last : merged.getLast? = some st.lastMsg
  nodup : merged.Nodup
  old : merged.filter (· ∈ snapshot) = snapshot
  new : ∀ msg ∈ merged, msg ∈ snapshot ∨ msg ∈ inserted

theorem Merged.find?_eq {snapshot merged inserted : List MessagePtr} {limit : Nat}
    {st : FillState MessagePtr} (h : Merged snapshot merged inserted limit st) {msg : MessagePtr}
    (hTime : ∀ other ∈ inserted, (deref other).serverReceivedTime ≤ (deref msg).serverReceivedTime) :
    snapshot.find? (fun other => decide (Later deref msg other)) =
      merged.find? (fun other => decide (Later deref msg other)) := by
  conv_lhs => rw [← h.old]
  rw [List.find?_filter]
  refine find?_congr fun other hOther => ?_
  by_cases hLater : Later deref msg other
  · have hOld : other ∈ snapshot := (h.new other hOther).resolve_right fun hInserted =>
      absurd hLater.2 (not_lt.mpr (hTime other hInserted))
    simp [hLater, hOld]
  · simp [hLater]

theorem Merged.fillStep {snapshot merged inserted : List MessagePtr} {limit : Nat}
    {st : FillState MessagePtr} (h : Merged snapshot merged inserted limit st) {msg : MessagePtr}
    (hLimit : 1 ≤ limit) (hNew : msg ∉ merged) (hOld : msg ∉ snapshot)
    (hId : (deref msg).id ∉ existingMessageIds deref snapshot)
    (hTime : ∀ other ∈ inserted, (deref other).serverReceivedTime ≤ (deref msg).serverReceivedTime) :
    Merged snapshot (merged.orderedInsert (Later deref) msg) (inserted ++ [msg]) limit
      (fillStep deref snapshot st msg) := by
  have hNodup : (merged.orderedInsert (Later deref) msg).Nodup :=
    (List.perm_orderedInsert _ msg merged).nodup_iff.mpr (List.nodup_cons.mpr ⟨hNew, h.nodup⟩)
  have hMem : ∀ other ∈ merged.orderedInsert (Later deref) msg,
      other ∈ snapshot ∨ other ∈ inserted ++ [msg] := by
    intro other hOther
    rcases (List.mem_orderedInsert (Later deref)).mp hOther with rfl | hOther
    · exact Or.inr (List.mem_append_right _ (List.mem_singleton_self _))
    · exact (h.new other hOther).imp_right (List.mem_append_left _)
  obtain ⟨front, back, hSplit, hInsert, -, -, hHead⟩ :=
    orderedInsert_split deref msg merged
  have hFind := (h.find?_eq hTime).trans hHead
  obtain ⟨hLimitEq, hQueue, hLast, hNodupOld, hFilter, -⟩ := h
  subst hLimitEq
  rw [hSplit] at hQueue hLast hNodupOld hFilter
  have hFilter' : (front ++ msg :: back).filter (· ∈ snapshot) = snapshot := by
    rw [List.filter_append] at hFilter ⊢
    rw [List.filter_cons_of_neg (by simpa using hOld), hFilter]
  rw [hInsert] at hNodup hMem ⊢
  unfold FillIn.fillStep
  rw [if_neg hId, hFind]
  cases back with
  | nil =>
    rw [List.append_nil] at hQueue hLast hNodupOld
    obtain ⟨init, rfl⟩ := List.getLast?_eq_some_iff.mp hLast
    refine ⟨LimitedQueue.limit_insertAfter _ _ _, ?_, by simp, hNodup, hFilter', hMem⟩
    rw [List.append_assoc]
    exact LimitedQueue.getSnapshot_insertAfter_last msg hLimit hNodupOld hQueue
  | cons other rest =>
    refine ⟨LimitedQueue.limit_insertBefore _ _ _, ?_, ?_, hNodup, hFilter', hMem⟩
    · exact LimitedQueue.getSnapshot_insertBefore msg hNodupOld hQueue
    · simpa [List.getLast?_append] using hLast

theorem Merged.foldl {snapshot merged inserted messages : List MessagePtr} {limit : Nat}
    {st : FillState MessagePtr} (h : Merged snapshot merged inserted limit st) (hLimit : 1 ≤ limit)
    (hNew : ∀ msg ∈ messages, msg ∉ merged) (hOld : ∀ msg ∈ messages, msg ∉ snapshot)
    (hNodup : messages.Nodup) (hOrder : InTimeOrder deref (inserted ++ messages)) :
    ∃ inserted', Merged snapshot
      (insertAll deref merged (missing deref snapshot messages)) inserted' limit
      (messages.foldl (FillIn.fillStep deref snapshot) st) := by
  induction messages generalizing merged inserted st with
  | nil => exact ⟨inserted, h⟩
  | cons msg messages ih =>
    obtain ⟨hMsg, hNodup⟩ := List.nodup_cons.mp hNodup
    rw [List.foldl_cons, missing, List.filter_cons]
    split
    · rename_i hId
      have hId : (deref msg).id ∉ existingMessageIds deref snapshot := by simpa using hId
      have hTime : ∀ other ∈ inserted,
          (deref other).serverReceivedTime ≤ (deref msg).serverReceivedTime := fun other hOther =>
        (List.pairwise_append.mp hOrder).2.2 other hOther msg List.mem_cons_self
      have hStep := h.fillStep hLimit (hNew msg List.mem_cons_self) (hOld msg List.mem_cons_self)
        hId hTime
      refine ih hStep ?_ (fun m hm => hOld m (List.mem_cons_of_mem _ hm)) hNodup ?_
      · intro m hm hMem
        rcases (List.mem_orderedInsert (Later deref)).mp hMem with rfl | hMem
        · exact hMsg hm
        · exact hNew m (List.mem_cons_of_mem _ hm) hMem
      · simpa [InTimeOrder] using hOrder
    · rename_i hId
      have hId : (deref msg).id ∈ existingMessageIds deref snapshot := by simpa using hId
      rw [FillIn.fillStep, if_pos hId]
      refine ih h (fun m hm => hNew m (List.mem_cons_of_mem _ hm))
        (fun m hm => hOld m (List.mem_cons_of_mem _ hm)) hNodup ?_
      exact hOrder.sublist (List.Sublist.append_left (List.sublist_cons_self _ _) _)

variable (deref) in
theorem getSnapshot_fillInMissingMessages {messages_ : LimitedQueue MessagePtr}
    {messages : List MessagePtr} (hLimit : 1 ≤ messages_.limit)
    (hOrder : InTimeOrder deref messages) (hDistinct : (messages_.getSnapshot ++ messages).Nodup) :
    (fillInMissingMessages deref messages_ messages).1.getSnapshot =
        (merge deref messages_.getSnapshot messages).rtake messages_.limit ∧
      (merge deref messages_.getSnapshot messages).filter (· ∈ messages_.getSnapshot) =
        messages_.getSnapshot := by
  obtain ⟨hBuffer, hMessages, hDisjoint⟩ := List.nodup_append.mp hDistinct
  unfold fillInMissingMessages
  cases messages with
  | nil =>
    have hMerge : merge deref messages_.getSnapshot [] = messages_.getSnapshot := rfl
    rw [hMerge]
    refine ⟨(CircularBuffer.rtake_of_length_le messages_.length_getSnapshot_le).symm, ?_⟩
    exact List.filter_eq_self.mpr fun msg hMsg => by simpa using hMsg
  | cons first rest =>
    rw [if_neg (by simp)]
    cases hLast : messages_.getSnapshot.getLast? with
    | none =>
      have hEmpty : messages_.getSnapshot = [] := List.getLast?_eq_none_iff.mp hLast
      have hMissing : missing deref [] (first :: rest) = first :: rest := by
        simp [missing, existingMessageIds]
      have hMerge : merge deref [] (first :: rest) = first :: rest := by
        have hSublist := sublist_insertAll_right [] hOrder
        have hLength := (perm_insertAll deref [] (first :: rest)).length_eq
        rw [merge, hMissing]
        exact (hSublist.eq_of_length hLength.symm).symm
      have hSpace : messages_.space = messages_.limit := by
        change messages_.limit - messages_.getSnapshot.length = _
        rw [hEmpty]
        rfl
      simp only [hEmpty, hMerge]
      refine ⟨?_, by simp⟩
      rw [LimitedQueue.getSnapshot_pushFront, hEmpty, hSpace, List.append_nil]
    | some lastMsg =>
      have hStart : Merged messages_.getSnapshot messages_.getSnapshot [] messages_.limit
          ⟨messages_, false, lastMsg⟩ := by
        refine ⟨rfl, ?_, hLast, hBuffer, ?_, fun msg hMsg => Or.inl hMsg⟩
        · exact (CircularBuffer.rtake_of_length_le messages_.length_getSnapshot_le).symm
        · exact List.filter_eq_self.mpr fun msg hMsg => by simpa using hMsg
      have hNew : ∀ msg ∈ first :: rest, msg ∉ messages_.getSnapshot := fun msg hMsg hOld =>
        hDisjoint msg hOld msg hMsg rfl
      obtain ⟨inserted, hEnd⟩ := hStart.foldl hLimit hNew hNew hMessages hOrder
      exact ⟨hEnd.queue, hEnd.old⟩

/-- The buffer after the call is the last messages of the merge. -/
theorem fillInMissingMessages_merges (deref : MessagePtr → Message)
    (messages_ : LimitedQueue MessagePtr) (messages : List MessagePtr)
    (hLimit : 1 ≤ messages_.limit) (hBuffer : Ascending deref messages_.getSnapshot)
    (hOrder : InTimeOrder deref messages) (hDistinct : (messages_.getSnapshot ++ messages).Nodup) :
    let buffer := messages_.getSnapshot
    let merged := merge deref buffer messages
    let result := (fillInMissingMessages deref messages_ messages).1.getSnapshot
    result = merged.rtake messages_.limit ∧
      merged.Perm (buffer ++ missing deref buffer messages) ∧
      buffer.Sublist merged ∧ (missing deref buffer messages).Sublist merged ∧
      (∀ msg ∈ missing deref buffer messages, ∀ other ∈ buffer,
        (deref other).flags.has .System = false →
          (if (deref other).serverReceivedTime ≤ (deref msg).serverReceivedTime then [other, msg]
            else [msg, other]).Sublist merged) ∧
      result.filter (· ∈ buffer) <:+ buffer ∧ Ascending deref result := by
  intro buffer merged result
  obtain ⟨hResult, hOld⟩ := getSnapshot_fillInMissingMessages deref hLimit hOrder hDistinct
  have hSuffix : result <:+ merged := by
    rw [show result = _ from hResult]
    exact List.drop_suffix _ _
  have hMerged : Ascending deref merged := hBuffer.insertAll _
  refine ⟨hResult, perm_insertAll deref _ _, sublist_insertAll _ _,
    sublist_insertAll_right _ (hOrder.sublist List.filter_sublist),
    fun msg hMsg other hOther hSystem => order_insertAll hBuffer hMsg hOther hSystem, ?_,
    hMerged.sublist hSuffix.sublist⟩
  have hFilter := hSuffix.filter (fun msg => decide (msg ∈ buffer))
  rwa [hOld] at hFilter

theorem fillInMissingMessages_merges_evicting :
    let deref : Nat → Message := fun p => { id := [UInt16.ofNat p], serverReceivedTime := p }
    let messages_ := ((LimitedQueue.ofLimit 3).pushFront [2, 4, 6]).1
    (fillInMissingMessages deref messages_ [1, 3, 5, 7]).1.getSnapshot = [5, 6, 7] := by
  intro deref messages_
  have h := fillInMissingMessages_merges deref messages_ [1, 3, 5, 7] (by decide) (by decide)
    (by decide) (by decide)
  exact h.1.trans (by decide)

/-- A message without id is inserted next to another one without id. -/
theorem fillInMissingMessages_counterexample :
    (let deref : Nat → Message := fun p => { id := [], serverReceivedTime := p }
      let messages_ := ((LimitedQueue.ofLimit 3).pushFront [0]).1
      Ascending deref messages_.getSnapshot ∧ InTimeOrder deref [1] ∧
        (deref 0).flags.has .System = false ∧ (deref 1).id = (deref 0).id ∧
        (fillInMissingMessages deref messages_ [1]).1.getSnapshot = [0, 1]) ∧
      (let deref : Nat → Message := fun p => { id := [UInt16.ofNat p], serverReceivedTime := p }
      let messages_ := ((LimitedQueue.ofLimit 3).pushFront [0, 0]).1
      Ascending deref messages_.getSnapshot ∧ InTimeOrder deref [1] ∧
        missing deref messages_.getSnapshot [1] = [1] ∧
        (fillInMissingMessages deref messages_ [1]).1.getSnapshot = [0, 1, 0]) := by
  decide

end loop

end Chatterino.FillIn

namespace Chatterino

open Lib

namespace LimitedQueue

variable {T : Type}

theorem rtake_sublist (l : List T) (n : Nat) : (l.rtake n).Sublist l := List.drop_sublist _ _

theorem subperm_insert (q : LimitedQueue T) {pos : Nat} (item : T) (hPos : pos ≤ q.getSnapshot.length) :
    (q.buffer_.insert pos item).items.Subperm (item :: q.getSnapshot) := by
  rw [CircularBuffer.items_insert _ _ hPos]
  exact (rtake_sublist _ _).subperm.trans (List.perm_insertIdx item _ hPos).subperm

variable [DecidableEq T]

theorem subperm_insertBefore (q : LimitedQueue T) (needle item : T) :
    (q.insertBefore needle item).1.getSnapshot.Subperm (item :: q.getSnapshot) := by
  unfold insertBefore
  split
  · rename_i it hFind
    have hLt := (List.findIdx?_eq_some_iff_getElem.mp hFind).1
    exact q.subperm_insert item hLt.le
  · exact (List.sublist_cons_self _ _).subperm

theorem subperm_insertAfter (q : LimitedQueue T) (needle item : T) :
    (q.insertAfter needle item).1.getSnapshot.Subperm (item :: q.getSnapshot) := by
  unfold insertAfter
  split
  · rename_i it hFind
    have hLt := (List.findIdx?_eq_some_iff_getElem.mp hFind).1
    exact q.subperm_insert item hLt
  · exact (List.sublist_cons_self _ _).subperm

end LimitedQueue

namespace FillIn

variable {MessagePtr : Type} [DecidableEq MessagePtr] {deref : MessagePtr → Message}

theorem subperm_fillStep {snapshot : List MessagePtr} (st : FillState MessagePtr) {msg : MessagePtr}
    (hId : (deref msg).id ∉ existingMessageIds deref snapshot) :
    (fillStep deref snapshot st msg).messages_.getSnapshot.Subperm (msg :: st.messages_.getSnapshot) := by
  rw [fillStep, if_neg hId]
  split
  · exact LimitedQueue.subperm_insertBefore _ _ _
  · exact LimitedQueue.subperm_insertAfter _ _ _

theorem subperm_foldl_fillStep (snapshot messages : List MessagePtr) (st : FillState MessagePtr) :
    (messages.foldl (fillStep deref snapshot) st).messages_.getSnapshot.Subperm
      (missing deref snapshot messages ++ st.messages_.getSnapshot) := by
  induction messages generalizing st with
  | nil => exact List.Subperm.refl _
  | cons msg messages ih =>
    rw [List.foldl_cons, missing, List.filter_cons]
    split
    · rename_i hId
      have hStep := subperm_fillStep st (of_decide_eq_true hId)
      have hAppend := (List.subperm_append_left (missing deref snapshot messages)).mpr hStep
      exact (ih _).trans (hAppend.trans List.perm_middle.subperm)
    · rename_i hId
      rw [fillStep, if_pos (by simpa using hId)]
      exact ih st

variable (deref) in
theorem subperm_fillInMissingMessages (messages_ : LimitedQueue MessagePtr) (messages : List MessagePtr) :
    (fillInMissingMessages deref messages_ messages).1.getSnapshot.Subperm
      (missing deref messages_.getSnapshot messages ++ messages_.getSnapshot) := by
  unfold fillInMissingMessages
  split
  · exact (List.sublist_append_right _ _).subperm
  · split
    · rename_i hLast
      have hEmpty : messages_.getSnapshot = [] := List.getLast?_eq_none_iff.mp hLast
      have hMissing : missing deref [] messages = messages := by simp [missing, existingMessageIds]
      rw [LimitedQueue.getSnapshot_pushFront, hEmpty, hMissing]
      exact ((LimitedQueue.rtake_sublist _ _).append (List.Sublist.refl _)).subperm
    · exact subperm_foldl_fillStep _ _ _

end FillIn

end Chatterino
