import Chatterino.Lib.StdSort
import Chatterino.Messages.LimitedQueue
import Chatterino.Qt.QString

/-! # Searching several splits

The messages of all views that pass their filters are sorted by id, to drop duplicates, and then by time. Those that
fulfill the predicates of the query are added to a channel. Messages are known by their pointers.
-/

namespace Chatterino

open Lib

structure SearchView (MessagePtr : Type) where
  snapshot : List MessagePtr
  filterSet : Option (MessagePtr → Bool)

structure SearchPopup (MessagePtr : Type) where
  /-- A system message has none. -/
  id : MessagePtr → Option QString
  serverReceivedTime : MessagePtr → Int
  searchChannels_ : List (SearchView MessagePtr)
  scrollbackSplitLimit : Nat

namespace SearchPopup

variable {MessagePtr : Type} (self : SearchPopup MessagePtr) (std : StdSort MessagePtr)

/-- The code units that ids are compared by. -/
def idText (message : MessagePtr) : List Nat := ((self.id message).getD []).map UInt16.toNat

def sameId (a b : MessagePtr) : Bool := (self.id a).isSome && decide (self.idText a = self.idText b)

def combinedSnapshot : List MessagePtr :=
  self.searchChannels_.flatMap fun view => view.snapshot.filter fun message => view.filterSet.all fun filter => filter message

def greaterId (a b : MessagePtr) : Bool := self.idText b < self.idText a

def earlier (a b : MessagePtr) : Bool := self.serverReceivedTime a < self.serverReceivedTime b

def buildSnapshot : List MessagePtr :=
  match self.searchChannels_ with
  | [view] => view.snapshot
  | _ => std.sort self.earlier
      ((std.sort self.greaterId self.combinedSnapshot).destutter fun a b => ¬self.sameId a b = true)

variable (predicates : List (MessagePtr → Bool))

def accepts (message : MessagePtr) : Bool := predicates.all fun pred => pred message

def filter (snapshot : List MessagePtr) : LimitedQueue MessagePtr :=
  snapshot.foldl (fun channel message => if accepts predicates message then (channel.pushBack message).1 else channel)
    (.ofLimit self.scrollbackSplitLimit)

def search : List MessagePtr := (self.filter predicates (self.buildSnapshot std)).getSnapshot

def accepted : List MessagePtr := self.combinedSnapshot.filter (accepts predicates)

variable [DecidableEq MessagePtr]

structure Complete (popup : SearchPopup MessagePtr) (predicates : List (MessagePtr → Bool)) (result : List MessagePtr) :
    Prop where
  once : ∀ message ∈ popup.accepted predicates, (popup.id message).isSome → result.count message = 1
  present : ∀ message ∈ popup.accepted predicates, message ∈ result
  only : ∀ message ∈ result, message ∈ popup.accepted predicates
  ascending : result.Pairwise fun a b => popup.serverReceivedTime a ≤ popup.serverReceivedTime b
  stable : ∀ view ∈ popup.searchChannels_, ∀ a b, [a, b].Sublist view.snapshot → a ≠ b →
    popup.serverReceivedTime a = popup.serverReceivedTime b → a ∈ result → b ∈ result → [a, b].Sublist result

/-- No accepted message shares its id with another one or its time with another one of its view, and the channel has
room for it and the other ones that are not earlier. -/
structure Searchable (popup : SearchPopup MessagePtr) (predicates : List (MessagePtr → Bool)) : Prop where
  distinct : ∀ message ∈ popup.accepted predicates, ∀ other ∈ popup.combinedSnapshot,
    popup.sameId other message = true → other = message
  fits : ∀ message ∈ popup.accepted predicates, (firsts popup.sameId (popup.accepted predicates)).countP (fun other =>
    other ≠ message ∧ popup.serverReceivedTime message ≤ popup.serverReceivedTime other) < popup.scrollbackSplitLimit
  untied : ∀ view ∈ popup.searchChannels_, ∀ a b, [a, b].Sublist view.snapshot → a ≠ b →
    popup.serverReceivedTime a = popup.serverReceivedTime b → a ∈ popup.accepted predicates → b ∉ popup.accepted predicates

variable {self std predicates}

omit [DecidableEq MessagePtr] in
theorem search_eq : self.search std predicates =
    ((self.buildSnapshot std).filter (accepts predicates)).rtake self.scrollbackSplitLimit := by
  have hFold (snapshot shown : List MessagePtr) (channel : LimitedQueue MessagePtr) (hShown : channel.getSnapshot = shown.rtake channel.limit) :
      (snapshot.foldl (fun channel message => if accepts predicates message then (channel.pushBack message).1 else channel)
        channel).getSnapshot = (shown ++ snapshot.filter (accepts predicates)).rtake channel.limit := by
    induction snapshot generalizing shown channel with
    | nil => rw [List.filter_nil, List.append_nil]; exact hShown
    | cons message snapshot ih =>
      rw [List.foldl_cons]
      split_ifs with hAccepts
      · rw [ih (shown ++ [message]), List.filter_cons_of_pos hAccepts, List.append_assoc]
        · rfl
        · rw [LimitedQueue.getSnapshot_pushBack, hShown, rtake_append_rtake]
          rfl
      · rw [ih shown _ hShown, List.filter_cons_of_neg hAccepts]
  exact hFold _ [] (.ofLimit _) List.drop_nil.symm

omit [DecidableEq MessagePtr] in
theorem isComparison_earlier : IsComparison self.earlier :=
  isComparison_of_keys self.serverReceivedTime (fun _ => 0) fun a b => by simp [earlier]

omit [DecidableEq MessagePtr] in
theorem isComparison_greaterId : IsComparison self.greaterId :=
  isComparison_of_keys (fun message => OrderDual.toDual (self.idText message)) (fun _ => 0) fun a b => by simp [greaterId]

omit [DecidableEq MessagePtr] in
theorem buildSnapshot_eq (h : 2 ≤ self.searchChannels_.length) : self.buildSnapshot std =
    std.sort self.earlier (firsts self.sameId (std.sort self.greaterId self.combinedSnapshot)) := by
  have hSorted := std.sorted self.greaterId self.combinedSnapshot isComparison_greaterId
  have hUnique : ((std.sort self.greaterId self.combinedSnapshot).destutter fun a b => ¬self.sameId a b = true) =
      firsts self.sameId (std.sort self.greaterId self.combinedSnapshot) := by
    generalize std.sort self.greaterId self.combinedSnapshot = sorted at hSorted ⊢
    cases sorted with
    | nil => rfl
    | cons a list =>
      rw [List.destutter_cons']
      exact @destutter'_eq_firsts _ a list _ _ _ self.idText (fun message => (self.id message).isSome)
        (hSorted.imp fun h => not_lt.mp (of_decide_eq_false h))
  rw [buildSnapshot, ← hUnique]
  split
  · rename_i hOne
    rw [hOne] at h
    exact absurd h (Nat.not_succ_le_self 1)
  · rfl

section

variable {time : MessagePtr → Int} {messages : List MessagePtr} {message : MessagePtr} {limit : Nat}

theorem mem_rtake_of_countP_lt (hSorted : messages.Pairwise fun a b => time a ≤ time b) (hMem : message ∈ messages)
    (hFew : messages.countP (fun other => other ≠ message ∧ time message ≤ time other) < limit) :
    message ∈ messages.rtake limit := by
  by_contra hNot
  rw [List.rtake] at hNot
  rw [← List.take_append_drop (messages.length - limit) messages] at hSorted hMem hFew
  have hTaken := (List.mem_append.mp hMem).resolve_right hNot
  have hAll : (messages.drop (messages.length - limit)).countP (fun other => other ≠ message ∧ time message ≤ time other) =
      (messages.drop (messages.length - limit)).length :=
    List.countP_eq_length.mpr fun other hOther =>
      decide_eq_true ⟨fun hSame => hNot (hSame ▸ hOther), (List.pairwise_append.mp hSorted).2.2 _ hTaken _ hOther⟩
  have hLength := List.length_pos_of_mem hTaken
  rw [List.countP_append, hAll, List.length_drop] at hFew
  rw [List.length_take] at hLength
  omega

theorem countP_lt_of_mem_rtake (hFirst : messages.Pairwise fun a b => b = message → a ≠ message → time a < time message)
    (hMem : message ∈ messages.rtake limit) :
    messages.countP (fun other => other ≠ message ∧ time message ≤ time other) < limit := by
  obtain ⟨before, after, hShown⟩ := List.append_of_mem hMem
  have hLength := congrArg List.length hShown
  rw [CircularBuffer.length_rtake, List.length_append, List.length_cons] at hLength
  have hList : messages = messages.take (messages.length - limit) ++ before ++ message :: after := by
    rw [List.append_assoc, ← hShown, List.rtake, List.take_append_drop]
  rw [hList] at hFirst ⊢
  have hNone : (messages.take (messages.length - limit) ++ before).countP
      (fun other => other ≠ message ∧ time message ≤ time other) = 0 := by
    refine List.countP_eq_zero.mpr fun other hOther hCounted => ?_
    obtain ⟨hNe, hLe⟩ := of_decide_eq_true hCounted
    exact not_lt.mpr hLe ((List.pairwise_append.mp hFirst).2.2 other hOther message List.mem_cons_self rfl hNe)
  rw [List.countP_append, hNone, List.countP_cons_of_neg (by simp)]
  have hAfter := @List.countP_le_length _ (fun other => decide (other ≠ message ∧ time message ≤ time other)) after
  omega

end

section

variable (h : 2 ≤ self.searchChannels_.length) (hDistinct : ∀ message ∈ self.accepted predicates,
  ∀ other ∈ self.combinedSnapshot, self.sameId other message = true → other = message)

include hDistinct in
theorem count_accepted {message : MessagePtr} (hAccepted : message ∈ self.accepted predicates) :
    (firsts self.sameId (self.accepted predicates)).count message =
      if self.sameId message message = true then min 1 ((self.accepted predicates).count message)
      else (self.accepted predicates).count message :=
  count_firsts fun other hOther => hDistinct message hAccepted other (List.mem_of_mem_filter hOther)

include h hDistinct in
theorem perm_buildSnapshot :
    ((self.buildSnapshot std).filter (accepts predicates)).Perm (firsts self.sameId (self.accepted predicates)) := by
  have hById := std.perm self.greaterId self.combinedSnapshot isComparison_greaterId
  rw [buildSnapshot_eq h]
  refine ((std.perm self.earlier _ isComparison_earlier).filter _).trans (List.perm_iff_count.mpr fun message => ?_)
  by_cases hAccepted : message ∈ self.accepted predicates
  · have hAccepts := (List.mem_filter.mp hAccepted).2
    rw [List.count_filter hAccepts, count_firsts fun other hMem => hDistinct message hAccepted other (hById.mem_iff.mp hMem),
      count_accepted hDistinct hAccepted, hById.count_eq, accepted, List.count_filter hAccepts]
  · rw [List.count_eq_zero_of_not_mem fun hMem => hAccepted ?_,
      List.count_eq_zero_of_not_mem fun hMem => hAccepted (firsts_sublist.subset hMem)]
    obtain ⟨hMem, hAccepts⟩ := List.mem_filter.mp hMem
    exact List.mem_filter.mpr ⟨hById.mem_iff.mp (firsts_sublist.subset hMem), hAccepts⟩

include h hDistinct in
theorem mem_buildSnapshot {message : MessagePtr} :
    message ∈ (self.buildSnapshot std).filter (accepts predicates) ↔ message ∈ self.accepted predicates := by
  rw [(perm_buildSnapshot h hDistinct).mem_iff]
  refine ⟨fun hMem => firsts_sublist.subset hMem, fun hMem => ?_⟩
  have hCount := List.count_pos_iff.mpr hMem
  rw [← List.count_pos_iff, count_accepted hDistinct hMem]
  split_ifs
  · omega
  · exact hCount

end

theorem Searchable.complete (h : 2 ≤ self.searchChannels_.length) (hSearchable : Searchable self predicates) :
    Complete self predicates (self.search std predicates) := by
  have hPerm := @perm_buildSnapshot _ self std predicates _ h hSearchable.distinct
  have hMem {message : MessagePtr} := @mem_buildSnapshot _ self std predicates _ h hSearchable.distinct message
  have hAscending : ((self.buildSnapshot std).filter (accepts predicates)).Pairwise fun a b =>
      self.serverReceivedTime a ≤ self.serverReceivedTime b := by
    rw [buildSnapshot_eq h]
    exact ((std.sorted self.earlier _ isComparison_earlier).imp fun h => not_lt.mp (of_decide_eq_false h)).filter _
  have hPresent : ∀ message ∈ self.accepted predicates, message ∈ self.search std predicates := by
    intro message hAccepted
    have hFits := hSearchable.fits message hAccepted
    rw [← hPerm.countP_eq] at hFits
    rw [search_eq]
    exact mem_rtake_of_countP_lt hAscending (hMem.mpr hAccepted) hFits
  have hSublist : (self.search std predicates).Sublist ((self.buildSnapshot std).filter (accepts predicates)) := by
    rw [search_eq]
    exact List.drop_sublist _ _
  refine ⟨fun message hAccepted hNamed => ?_, hPresent, fun message hFound => hMem.mp (hSublist.subset hFound),
    hAscending.sublist hSublist, fun view hView a b hOrder hNe hTime ha hb => ?_⟩
  · refine Nat.le_antisymm ((hSublist.count_le message).trans ?_) (List.count_pos_iff.mpr (hPresent message hAccepted))
    have hSame : self.sameId message message = true := by simp [sameId, hNamed]
    rw [hPerm.count_eq, count_accepted hSearchable.distinct hAccepted, if_pos hSame]
    exact Nat.min_le_left _ _
  · exact absurd (hMem.mp (hSublist.subset hb))
      (hSearchable.untied view hView a b hOrder hNe hTime (hMem.mp (hSublist.subset ha)))

theorem pairwise_favoured (h : 2 ≤ self.searchChannels_.length) (message : MessagePtr) :
    ((self.buildSnapshot (.favouring message)).filter (accepts predicates)).Pairwise fun a b =>
      b = message → a ≠ message → self.serverReceivedTime a < self.serverReceivedTime message := by
  rw [buildSnapshot_eq h]
  refine ((pairwise_favouring message isComparison_earlier _).imp fun hBoth hEq hNe => ?_).filter _
  rcases hBoth.2 with hEarlier | hFirst
  · exact hEq ▸ of_decide_eq_true hEarlier
  · exact absurd (hFirst hEq) hNe

theorem not_complete_favouring (h : 2 ≤ self.searchChannels_.length) {view : SearchView MessagePtr}
    (hView : view ∈ self.searchChannels_) {a b : MessagePtr} (hOrder : [a, b].Sublist view.snapshot) (hNe : a ≠ b)
    (hTime : self.serverReceivedTime a = self.serverReceivedTime b) (ha : a ∈ self.accepted predicates)
    (hb : b ∈ self.accepted predicates) : ¬Complete self predicates (self.search (.favouring b) predicates) := by
  intro hResult
  have hStable := hResult.stable view hView a b hOrder hNe hTime (hResult.present a ha) (hResult.present b hb)
  rw [search_eq] at hStable
  have hPair := (pairwise_favoured h b).sublist (hStable.trans (List.drop_sublist _ _))
  exact hTime.not_lt ((List.pairwise_cons.mp hPair).1 b (List.mem_singleton_self b) rfl hNe)

def twoSplits (time : Bool → Nat) : SearchPopup Bool where
  id message := some [if message then 0x62 else 0x61]
  serverReceivedTime message := time message
  searchChannels_ := List.replicate 2 ⟨[false, true], none⟩
  scrollbackSplitLimit := 1000

end SearchPopup

end Chatterino
