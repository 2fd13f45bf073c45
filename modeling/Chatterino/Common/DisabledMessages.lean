import Chatterino.Messages.LimitedQueue
import Chatterino.Util.StackedEvents

/-! # The messages of a channel as objects

A timeout is handed to a channel whose messages are objects behind pointers. What is done with it
reaches the queue and the flags of the objects.
-/

namespace Chatterino

open Lib ChannelHelpers
open TimeoutStackStyle

abbrev MessagePtr := Nat

/-- The messages of a channel, and the objects that message pointers lead to. -/
structure ChannelMessages where
  messages_ : LimitedQueue MessagePtr
  objects : MessagePtr → ModerationMessage
  next : MessagePtr
  fresh : ∀ msg ∈ messages_.getSnapshot, msg < next

namespace ChannelMessages

def getMessageSnapshot (nItems : Nat) (channel : ChannelMessages) : List MessagePtr := channel.messages_.lastN nItems

def disabled (message : ModerationMessage) (snapshot : List MessagePtr) (objects : MessagePtr → ModerationMessage) :
    MessagePtr → ModerationMessage :=
  fun msg => if msg ∈ snapshot ∧ isDisabledBy message (objects msg) then disable (objects msg) else objects msg

/-- The queue after a message was dealt with, where a message that is built is created at `next`. -/
def deal (message next : MessagePtr) (snapshot : List MessagePtr) (messages_ : LimitedQueue MessagePtr) :
    Stacking → LimitedQueue MessagePtr
  | .add => (messages_.pushBack message).1
  | .drop => messages_
  | .replace i _ => (snapshot[i]?.map fun msg => (messages_.replaceItem msg message).1).getD messages_
  | .stack i _ _ => (snapshot[i]?.map fun msg => (messages_.replaceItem msg next).1).getD messages_

def build (next : MessagePtr) (objects : MessagePtr → ModerationMessage) : Stacking → MessagePtr → ModerationMessage
  | .stack _ _ replacement => Function.update objects next replacement
  | _ => objects

theorem mem_replaceItem {q : LimitedQueue MessagePtr} {needle replacement msg : MessagePtr}
    (h : msg ∈ (q.replaceItem needle replacement).1.getSnapshot) : msg ∈ q.getSnapshot ∨ msg = replacement := by
  unfold LimitedQueue.replaceItem at h
  split at h
  · exact List.mem_or_eq_of_mem_set h
  · exact .inl h

theorem mem_deal {message next msg : MessagePtr} {snapshot : List MessagePtr} {q : LimitedQueue MessagePtr}
    {stacking : Stacking} (h : msg ∈ (deal message next snapshot q stacking).getSnapshot) :
    msg ∈ q.getSnapshot ∨ msg = message ∨ msg = next ∧ ∃ i s replacement, stacking = .stack i s replacement := by
  cases stacking with
  | add =>
    rw [deal, LimitedQueue.getSnapshot_pushBack] at h
    have hMem := List.mem_append.mp (List.drop_subset _ _ h)
    exact hMem.imp_right fun hNew => .inl (List.mem_singleton.mp hNew)
  | drop => exact .inl h
  | replace i s =>
    rw [deal] at h
    cases hItem : snapshot[i]? with
    | none =>
      rw [hItem] at h
      exact .inl h
    | some needle =>
      rw [hItem] at h
      exact (mem_replaceItem h).imp_right .inl
  | stack i s replacement =>
    rw [deal] at h
    cases hItem : snapshot[i]? with
    | none =>
      rw [hItem] at h
      exact .inl h
    | some needle =>
      rw [hItem] at h
      exact (mem_replaceItem h).imp_right fun hNew => .inr ⟨hNew, i, s, replacement, rfl⟩

def addOrReplaceTimeout (style : TimeoutStackStyle) (message : MessagePtr) (now : Int) (channel : ChannelMessages)
    (hMessage : message < channel.next) : ChannelMessages :=
  let snapshot := channel.getMessageSnapshot 20
  let timeout := channel.objects message
  let stacking := (addOrReplaceChannelTimeout style (snapshot.map channel.objects) timeout now true).1
  { messages_ := deal message channel.next snapshot channel.messages_ stacking
    objects := build channel.next (disabled timeout snapshot channel.objects) stacking
    next := channel.next + 1
    fresh := by
      intro msg hMem
      obtain hOld | rfl | ⟨rfl, -⟩ := mem_deal hMem
      · exact Nat.lt_succ_of_lt (channel.fresh msg hOld)
      · exact Nat.lt_succ_of_lt hMessage
      · exact Nat.lt_succ_self _ }

end ChannelMessages

end Chatterino

namespace Chatterino.ChannelMessages

open Lib ChannelHelpers
open TimeoutStackStyle

variable {style : TimeoutStackStyle} {message msg : MessagePtr} {now : Int} {channel : ChannelMessages}
  {hMessage : message < channel.next}

section

variable (style : TimeoutStackStyle) (message : MessagePtr) (now : Int) (channel : ChannelMessages)

def IsTarget (msg : MessagePtr) : Prop := isDisabledBy (channel.objects message) (channel.objects msg)

def IsDisabled (msg : MessagePtr) : Prop :=
  (channel.objects msg).flags.has .Disabled ∧ (channel.objects msg).flags.has .InvalidReplyTarget

def Disables (hMessage : message < channel.next) : Prop :=
  let after := channel.addOrReplaceTimeout style message now hMessage
  (∀ msg ∈ after.messages_.getSnapshot,
    isDisabledBy (channel.objects message) (after.objects msg) → IsDisabled after msg) ∧
  ∀ msg < channel.next, ¬(msg ∈ channel.messages_.getSnapshot ∧ IsTarget message channel msg) →
    (after.objects msg).flags = (channel.objects msg).flags

def Adds : Prop := ∀ before s after,
  LastWanted (EndsTimeouts style (channel.objects message) now) (EarlierTimeout (channel.objects message)) 20
    ((channel.getMessageSnapshot 20).map channel.objects) before s after →
  style = DontStack ∧ ¬has .PubSub (channel.objects message) ∧ has .PubSub s

def Stays (msg : MessagePtr) : Prop :=
  msg ∈ channel.messages_.getSnapshot ∧
    (Adds style message now channel → msg ∈ channel.messages_.getSnapshot.rtake (channel.messages_.limit - 1))

end

theorem stacking_eq_add_iff {buffer : List ModerationMessage} {timeout : ModerationMessage} :
    (addOrReplaceChannelTimeout style buffer timeout now true).1 = .add ↔ ∀ before s after,
      LastWanted (EndsTimeouts style timeout now) (EarlierTimeout timeout) 20 buffer before s after →
        style = DontStack ∧ ¬has .PubSub timeout ∧ has .PubSub s := by
  rw [fst_addOrReplaceChannelTimeout]
  cases hScan : scanBack (EndsTimeouts style timeout now) (EarlierTimeout timeout) 20 buffer.reverse with
  | none =>
    refine iff_of_true rfl fun before s after hLast => ?_
    have hFound := scanBack_reverse_eq_some_iff.mpr ⟨before, after, rfl, hLast⟩
    rw [hScan] at hFound
    cases hFound
  | some found =>
    obtain ⟨i, s⟩ := found
    obtain ⟨before, after, rfl, hLast⟩ := scanBack_reverse_eq_some_iff.mp hScan
    have hUnique : (∀ before s after, LastWanted (EndsTimeouts style timeout now) (EarlierTimeout timeout) 20 buffer
        before s after → style = DontStack ∧ ¬has .PubSub timeout ∧ has .PubSub s) ↔
        style = DontStack ∧ ¬has .PubSub timeout ∧ has .PubSub s := by
      constructor
      · exact fun hAll => hAll before s after hLast
      · intro hOne before' s' after' hLast'
        have hFound := scanBack_reverse_eq_some_iff.mpr ⟨before', after', rfl, hLast'⟩
        rw [hScan] at hFound
        obtain rfl : s = s' := (Prod.mk.inj (Option.some.inj hFound)).2
        exact hOne
    rw [hUnique, Option.elim, timeoutFound]
    split_ifs with hNew hOld hStyle
    · exact iff_of_false (by rintro ⟨⟩) fun hOne => hOne.2.1 hNew.1
    · exact iff_of_true rfl ⟨hStyle, hOld⟩
    · exact iff_of_false (by rintro ⟨⟩) fun hOne => hStyle hOne.1
    · exact iff_of_false (by rintro ⟨⟩) fun hOne => hOld hOne.2

theorem mem_set_of_ne {list : List MessagePtr} {j : Nat} {needle replacement : MessagePtr} (h : msg ∈ list)
    (hNeedle : list[j]? = some needle) (hOther : msg ≠ needle) : msg ∈ list.set j replacement := by
  obtain ⟨k, hLength, rfl⟩ := List.mem_iff_getElem.mp h
  refine List.mem_iff_getElem.mpr ⟨k, by rwa [List.length_set], ?_⟩
  rw [List.getElem_set_ne]
  rintro rfl
  rw [List.getElem?_eq_getElem hLength] at hNeedle
  exact hOther (Option.some.inj hNeedle)

theorem mem_replaceItem_of_ne {q : LimitedQueue MessagePtr} {needle replacement : MessagePtr}
    (h : msg ∈ q.getSnapshot) (hOther : msg ≠ needle) : msg ∈ (q.replaceItem needle replacement).1.getSnapshot := by
  unfold LimitedQueue.replaceItem
  split
  · rename_i j hIndex
    obtain ⟨hLength, hSame, -⟩ := List.findIdx?_eq_some_iff_getElem.mp hIndex
    have hNeedle : q.getSnapshot[j]? = some needle := by
      rw [← beq_iff_eq.mp hSame]
      exact List.getElem?_eq_getElem hLength
    exact mem_set_of_ne h hNeedle hOther
  · exact h

theorem mem_deal_of_stays {snapshot : List MessagePtr} {next : MessagePtr} {q : LimitedQueue MessagePtr}
    {stacking : Stacking} (h : msg ∈ q.getSnapshot) (hAdd : stacking = .add → msg ∈ q.getSnapshot.rtake (q.limit - 1))
    (hOther : msg ∉ snapshot) : msg ∈ (deal message next snapshot q stacking).getSnapshot := by
  cases stacking with
  | add =>
    have hMem := hAdd rfl
    rw [deal, LimitedQueue.getSnapshot_pushBack]
    cases hLimit : q.limit with
    | zero =>
      rw [hLimit, List.rtake_zero] at hMem
      cases hMem
    | succ limit =>
      rw [hLimit] at hMem
      rw [CircularBuffer.rtake_append_of_le (Nat.le_add_left 1 limit)]
      exact List.mem_append_left _ hMem
  | drop => exact h
  | replace i s | stack i s replacement =>
    rw [deal]
    cases hItem : snapshot[i]? with
    | none => exact h
    | some needle => exact mem_replaceItem_of_ne h fun hSame => hOther (hSame ▸ List.mem_of_getElem? hItem)

theorem build_of_ne {next : MessagePtr} {objects : MessagePtr → ModerationMessage} (stacking : Stacking)
    (h : msg ≠ next) : build next objects stacking msg = objects msg := by
  cases stacking with
  | stack i s replacement => exact Function.update_of_ne h _ _
  | _ => rfl

theorem objects_addOrReplaceTimeout (h : msg < channel.next) :
    (channel.addOrReplaceTimeout style message now hMessage).objects msg =
      disabled (channel.objects message) (channel.getMessageSnapshot 20) channel.objects msg :=
  build_of_ne _ h.ne

theorem objects_of_not_mem (h : msg < channel.next) (hOther : msg ∉ channel.getMessageSnapshot 20) :
    (channel.addOrReplaceTimeout style message now hMessage).objects msg = channel.objects msg := by
  rw [objects_addOrReplaceTimeout h]
  exact if_neg fun hBoth => hOther hBoth.1

theorem mem_of_mem_snapshot (h : msg ∈ channel.getMessageSnapshot 20) : msg ∈ channel.messages_.getSnapshot := by
  rw [getMessageSnapshot, LimitedQueue.lastN_eq] at h
  exact List.drop_subset _ _ h

theorem not_isDisabledBy {timeout s : ModerationMessage} (h : s.flags.has .ModerationAction) :
    ¬isDisabledBy timeout s := by
  intro hDisabled
  have hNone : s.flags.hasNone [.ModerationAction, .Whisper] = true := (of_decide_eq_true hDisabled).2
  rw [FlagsEnum.hasNone, List.all_eq_true] at hNone
  have hNot := hNone .ModerationAction List.mem_cons_self
  rw [h] at hNot
  cases hNot

theorem flags_of_stack {buffer : List ModerationMessage} {timeout s replacement : ModerationMessage} {i : Nat}
    (h : (addOrReplaceChannelTimeout style buffer timeout now true).1 = .stack i s replacement) :
    replacement.flags = timeout.flags := by
  rw [fst_addOrReplaceChannelTimeout] at h
  cases hScan : scanBack (EndsTimeouts style timeout now) (EarlierTimeout timeout) 20 buffer.reverse with
  | none =>
    rw [hScan] at h
    cases h
  | some found =>
    rw [hScan, Option.elim, timeoutFound] at h
    split_ifs at h
    cases h
    rfl

theorem mem_of_isTarget (hTimeout : IsTimeout (channel.objects message))
    (hMem : msg ∈ (channel.addOrReplaceTimeout style message now hMessage).messages_.getSnapshot)
    (hTarget : isDisabledBy (channel.objects message)
      ((channel.addOrReplaceTimeout style message now hMessage).objects msg)) :
    msg ∈ channel.messages_.getSnapshot ∧ msg ≠ message := by
  have hOther : msg ≠ message := by
    rintro rfl
    rw [objects_addOrReplaceTimeout hMessage, disabled, if_neg fun hBoth => not_isDisabledBy hTimeout.2.1 hBoth.2]
      at hTarget
    exact not_isDisabledBy hTimeout.2.1 hTarget
  obtain hOld | rfl | ⟨rfl, i, s, replacement, hStack⟩ := mem_deal hMem
  · exact ⟨hOld, hOther⟩
  · exact absurd rfl hOther
  · have hBuilt : (channel.addOrReplaceTimeout style message now hMessage).objects channel.next = replacement := by
      rw [addOrReplaceTimeout]
      dsimp only
      rw [hStack]
      exact Function.update_self _ _ _
    have hFlags : replacement.flags = (channel.objects message).flags := flags_of_stack hStack
    rw [hBuilt] at hTarget
    refine absurd hTarget (not_isDisabledBy ?_)
    rw [hFlags]
    exact hTimeout.2.1

theorem stays_of_mem (hOld : msg ∈ channel.messages_.getSnapshot) (hOther : msg ≠ message)
    (hMem : msg ∈ (channel.addOrReplaceTimeout style message now hMessage).messages_.getSnapshot) :
    Stays style message now channel msg := by
  refine ⟨hOld, fun hAdds => ?_⟩
  have hAdd := stacking_eq_add_iff.mpr hAdds
  rw [addOrReplaceTimeout] at hMem
  dsimp only at hMem
  rw [hAdd, deal, LimitedQueue.getSnapshot_pushBack] at hMem
  cases hLimit : channel.messages_.limit with
  | zero =>
    rw [hLimit, List.rtake_zero] at hMem
    cases hMem
  | succ limit =>
    rw [hLimit, CircularBuffer.rtake_append_of_le (Nat.le_add_left 1 limit)] at hMem
    exact (List.mem_append.mp hMem).resolve_right fun hNew => hOther (List.mem_singleton.mp hNew)

/-- A timeout disables what its user said exactly if this was among the last 20 messages or was
disabled before. -/
theorem disables_iff (hTimeout : IsTimeout (channel.objects message)) :
    Disables style message now channel hMessage ↔
      ∀ msg, Stays style message now channel msg → msg ∉ channel.getMessageSnapshot 20 →
        IsTarget message channel msg → IsDisabled channel msg := by
  constructor
  · rintro ⟨hDisabled, -⟩ msg hStays hFar hTarget
    have hOld := channel.fresh msg hStays.1
    have hSame : (channel.addOrReplaceTimeout style message now hMessage).objects msg = channel.objects msg :=
      objects_of_not_mem hOld hFar
    have hMem : msg ∈ (channel.addOrReplaceTimeout style message now hMessage).messages_.getSnapshot :=
      mem_deal_of_stays hStays.1 (fun hAdd => hStays.2 (stacking_eq_add_iff.mp hAdd)) hFar
    have hNow := hDisabled msg hMem (hSame ▸ hTarget)
    rwa [IsDisabled, hSame] at hNow
  · intro hFar
    constructor
    · intro msg hMem hTarget
      obtain ⟨hOld, hOther⟩ := mem_of_isTarget hTimeout hMem hTarget
      have hLess := channel.fresh msg hOld
      by_cases hNear : msg ∈ channel.getMessageSnapshot 20
      · rw [objects_addOrReplaceTimeout hLess, disabled] at hTarget
        rw [IsDisabled, objects_addOrReplaceTimeout hLess, disabled]
        split_ifs at hTarget ⊢ with hBoth
        · simp [disable]
        · exact absurd ⟨hNear, hTarget⟩ hBoth
      · have hSame : (channel.addOrReplaceTimeout style message now hMessage).objects msg = channel.objects msg :=
          objects_of_not_mem hLess hNear
        rw [hSame] at hTarget
        rw [IsDisabled, hSame]
        exact hFar msg (stays_of_mem hOld hOther hMem) hNear hTarget
    · intro msg hLess hNot
      rw [objects_addOrReplaceTimeout hLess, disabled, if_neg]
      rintro ⟨hNear, hTarget⟩
      exact hNot ⟨mem_of_mem_snapshot hNear, hTarget⟩

theorem forall_mem_pushBacks {P : MessagePtr → Prop} {list : List MessagePtr} {q : LimitedQueue MessagePtr}
    (hList : ∀ msg ∈ list, P msg) (hOld : ∀ msg ∈ q.getSnapshot, P msg) :
    ∀ msg ∈ (list.foldl (fun q msg => (q.pushBack msg).1) q).getSnapshot, P msg := by
  induction list generalizing q with
  | nil => exact hOld
  | cons first rest ih =>
    rw [List.forall_mem_cons] at hList
    refine ih hList.2 fun msg hMem => ?_
    rw [LimitedQueue.getSnapshot_pushBack] at hMem
    obtain hQueue | hNew := List.mem_append.mp (List.drop_subset _ _ hMem)
    · exact hOld msg hQueue
    · exact List.mem_singleton.mp hNew ▸ hList.1

def exampleChannel (count : Nat) : ChannelMessages where
  messages_ := (List.range count).foldl (fun q msg => (q.pushBack msg).1) (.ofLimit 1000)
  objects msg :=
    if msg = count then exampleTimeout
    else { loginName := if msg = 0 then .lit "forsen" else .lit "xqc", serverReceivedTime := 1000 }
  next := count + 1
  fresh := forall_mem_pushBacks (fun _ hMem => Nat.lt_succ_of_lt (List.mem_range.mp hMem)) (by rintro _ ⟨⟩)

theorem disables_short : Disables StackHard 2 2000 (exampleChannel 2) (by decide) := by
  refine (disables_iff (by decide)).mpr fun msg hStays hFar => ?_
  have hOld : msg ∈ [0, 1] := hStays.1
  have hNear : ∀ msg ∈ [0, 1], msg ∈ (exampleChannel 2).getMessageSnapshot 20 := by decide
  exact absurd (hNear msg hOld) hFar

theorem not_disables_long : ¬∀ (style : TimeoutStackStyle) (message : MessagePtr) (now : Int) (channel : ChannelMessages)
    (hMessage : message < channel.next), IsTimeout (channel.objects message) →
      Disables style message now channel hMessage := by
  intro hAll
  have hDisables := (hAll StackHard 21 2000 (exampleChannel 21) (by decide) (by decide)).1
  have hFirst := hDisables 0 (by decide) (by decide +kernel)
  exact absurd hFirst.1 (by decide)

end Chatterino.ChannelMessages
