import Chatterino.ChannelViews.SelectedView
import Chatterino.ChannelViews.ShownRuns

/-! # Runs with a selection

Whenever the view is not paused, the items of the selection are those of its endpoints, over runs that
leave the selected messages in place. What happens to a view comes down to such calls.
-/

namespace Chatterino

open Lib

variable {MessagePtr : Type} [DecidableEq MessagePtr]

namespace SelectedView

variable {s : SelectedView MessagePtr}

structure Tracks (s : SelectedView MessagePtr) : Prop where
  upToDate : s.view.UpToDate
  ordered : s.view.selection_.Ordered
  settled : ∀ endpoints ∈ s.endpoints, s.view.settled = .ofItems endpoints.1.item endpoints.2.item
  stands : ∀ endpoints ∈ s.endpoints,
    endpoints.1.Stands s.view.messages_.getSnapshot ∧ endpoints.2.Stands s.view.messages_.getSnapshot

omit [DecidableEq MessagePtr] in
theorem stands_endpointAt {messages : List MessagePtr} {item : SelectionItem} {endpoint : Endpoint MessagePtr}
    (h : endpointAt messages item = some endpoint) : endpoint.Stands messages ∧ endpoint.item = item := by
  obtain ⟨message, hMessage, rfl⟩ := Option.map_eq_some_iff.mp h
  refine ⟨?_, rfl⟩
  rintro i ⟨⟩
  exact hMessage

theorem Tracks.setSelection (h : s.Tracks) (start endItem : SelectionItem) :
    (s.step (.setSelection start endItem)).Tracks := by
  have hMessages := ViewMessages.messages_setSelection start endItem s.view
  have hSelection : (s.view.setSelection start endItem).selection_ = .ofItems start endItem := by
    unfold ViewMessages.setSelection
    split
    · rename_i hSame
      rw [show s.view.selection_ = _ from h.ordered, hSame.1, hSame.2]
    · rfl
  refine ⟨h.upToDate.call _, ViewMessages.ordered_call h.ordered _, ?_, ?_⟩
  · intro endpoints hEndpoints
    rw [step] at hEndpoints
    dsimp only at hEndpoints
    split at hEndpoints
    · cases hEndpoints
    · rename_i hRunning
      obtain ⟨first, hFirst, hRest⟩ := Option.bind_eq_some_iff.mp hEndpoints
      obtain ⟨last, hLast, rfl⟩ := Option.map_eq_some_iff.mp hRest
      have hOffset : s.view.pauseSelectionOffset_ = 0 := h.upToDate (Bool.eq_false_iff.mpr hRunning)
      have hSettled : (s.view.setSelection start endItem).settled = .ofItems start endItem := by
        have hKeeps : (s.view.setSelection start endItem).pauseSelectionOffset_ = 0 := by
          unfold ViewMessages.setSelection
          split <;> exact hOffset
        rw [ViewMessages.settled, hKeeps, hSelection, Selection.shiftMessageIndex_zero]
      rw [(stands_endpointAt hFirst).2, (stands_endpointAt hLast).2]
      exact hSettled
  · intro endpoints hEndpoints
    change endpoints.1.Stands (s.view.setSelection start endItem).messages_.getSnapshot ∧
      endpoints.2.Stands (s.view.setSelection start endItem).messages_.getSnapshot
    rw [hMessages]
    rw [step] at hEndpoints
    dsimp only at hEndpoints
    split at hEndpoints
    · cases hEndpoints
    · obtain ⟨first, hFirst, hRest⟩ := Option.bind_eq_some_iff.mp hEndpoints
      obtain ⟨last, hLast, rfl⟩ := Option.map_eq_some_iff.mp hRest
      exact ⟨(stands_endpointAt hFirst).1, (stands_endpointAt hLast).1⟩

theorem Tracks.clearSelection (h : s.Tracks) : (s.step .clearSelection).Tracks where
  upToDate := h.upToDate.call _
  ordered := ViewMessages.ordered_call h.ordered _
  settled := by rintro endpoints ⟨⟩
  stands := by rintro endpoints ⟨⟩

theorem Tracks.of_follow (h : s.Tracks) {call : ViewCall MessagePtr} (shift : Nat)
    (hEndpoints : (s.step call).endpoints = s.follow call) (hSettled : ∀ endpoint : Endpoint MessagePtr, endpoint.Kept s.view call →
      (s.view.call call).settled = s.view.settled.shiftMessageIndex shift)
    (hItem : ∀ endpoint : Endpoint MessagePtr, endpoint.Kept s.view call →
      (endpoint.follow s.view call).item = endpoint.item.shift shift)
    (hStands : ∀ endpoint : Endpoint MessagePtr, endpoint.Stands s.view.messages_.getSnapshot →
      (endpoint.follow s.view call).Stands (s.view.call call).messages_.getSnapshot)
    (hKept : s.Kept call) : (s.step call).Tracks where
  upToDate := h.upToDate.call call
  ordered := ViewMessages.ordered_call h.ordered call
  settled := by
    intro endpoints hMem
    rw [hEndpoints] at hMem
    obtain ⟨before, hBefore, rfl⟩ := Option.map_eq_some_iff.mp hMem
    obtain ⟨hFirst, hLast⟩ := hKept before hBefore
    change (s.view.call call).settled = _
    rw [hSettled _ hFirst, h.settled before hBefore, Selection.shiftMessageIndex_ofItems, hItem _ hFirst, hItem _ hLast]
  stands := by
    intro endpoints hMem
    rw [hEndpoints] at hMem
    obtain ⟨before, hBefore, rfl⟩ := Option.map_eq_some_iff.mp hMem
    obtain ⟨hFirst, hLast⟩ := h.stands before hBefore
    exact ⟨hStands _ hFirst, hStands _ hLast⟩

theorem Tracks.of_pauses (h : s.Tracks) {call : ViewCall MessagePtr} (hKept : s.Kept call)
    (hEndpoints : (s.step call).endpoints = s.follow call)
    (hFollow : ∀ endpoint : Endpoint MessagePtr, endpoint.follow s.view call = endpoint)
    (hSettled : (s.view.call call).settled = s.view.settled)
    (hMessages : (s.view.call call).messages_ = s.view.messages_) : (s.step call).Tracks := by
  refine h.of_follow 0 hEndpoints (fun _ _ => hSettled) ?_ ?_ hKept
  · intro endpoint _
    rw [hFollow, SelectionItem.shift_zero]
  · intro endpoint hStands
    rw [hFollow, hMessages]
    exact hStands

theorem Tracks.step (h : s.Tracks) (call : ViewCall MessagePtr) (hKept : s.Kept call) : (s.step call).Tracks := by
  cases call with
  | messageAppended message =>
    by_cases hEvicts : s.view.evicts = true
    · refine h.of_follow 1 rfl ?_ ?_ ?_ hKept
      · intro endpoint hCount
        refine (ViewMessages.settled_messageAppended h.upToDate message hCount).trans ?_
        rw [if_pos hEvicts]
      · intro endpoint _
        rw [Endpoint.item_follow_messageAppended, if_pos hEvicts]
      · exact fun endpoint hStands => hStands.messageAppended message
    · refine h.of_follow 0 rfl ?_ ?_ ?_ hKept
      · intro endpoint hCount
        refine (ViewMessages.settled_messageAppended h.upToDate message hCount).trans ?_
        rw [if_neg hEvicts, Selection.shiftMessageIndex_zero]
      · intro endpoint _
        rw [Endpoint.item_follow_messageAppended, if_neg hEvicts, SelectionItem.shift_zero]
      · exact fun endpoint hStands => hStands.messageAppended message
  | messageAddedAtStart messages =>
    apply h.of_follow 0 rfl (fun _ _ => rfl) _ _ hKept
    · exact fun endpoint hKept => Endpoint.item_follow_messageAddedAtStart hKept
    · exact fun endpoint hStands => hStands.messageAddedAtStart messages
  | messageReplaced hint prev replacement =>
    apply h.of_follow 0 rfl _ _ _ hKept
    · intro _ _
      rw [ViewMessages.call, ViewMessages.messageReplaced]
      split <;> rfl
    · intro endpoint _
      rw [Endpoint.follow]
      split <;> rfl
    · exact fun endpoint hStands => hStands.messageReplaced hint prev replacement
  | messagesUpdated snapshot =>
    apply h.of_follow 0 rfl (fun _ _ => rfl) _ _ hKept
    · exact fun endpoint hKept => Endpoint.item_follow_messagesUpdated hKept
    · exact fun endpoint _ => Endpoint.stands_messagesUpdated snapshot s.view endpoint
  | clearMessages =>
    apply h.of_follow 0 rfl (fun _ _ => rfl) _ _ hKept
    · exact fun endpoint hOrigin => hOrigin.symm
    · rintro endpoint _ i ⟨⟩
  | pause reason msecs now | pauseTimeout =>
    exact h.of_pauses hKept rfl (fun _ => rfl) (ViewMessages.settled_updatePauses _) (ViewMessages.messages_updatePauses _)
  | unpause reason =>
    exact h.of_pauses hKept rfl (fun _ => rfl) (ViewMessages.settled_unpause _ _) (ViewMessages.messages_unpause _ _)
  | setSelection start endItem => exact h.setSelection start endItem
  | clearSelection => exact h.clearSelection

def constructed (messagesLimit : Nat) (pausable : Bool) : SelectedView MessagePtr where
  view := { messages_ := .ofLimit messagesLimit, pausable_ := pausable }

omit [DecidableEq MessagePtr] in
theorem tracks_constructed (messagesLimit : Nat) (pausable : Bool) :
    (constructed messagesLimit pausable : SelectedView MessagePtr).Tracks where
  upToDate := fun _ => rfl
  ordered := Selection.ordered_ofItems {} {}
  settled := by rintro endpoints ⟨⟩
  stands := by rintro endpoints ⟨⟩

/-- The selection denotes the messages of its endpoints where they stand, and its ends in order are
the same items. -/
def Denotes (s : SelectedView MessagePtr) : Prop :=
  s.view.paused = false → ∀ endpoints ∈ s.endpoints,
    s.view.selection_.start = endpoints.1.item ∧ s.view.selection_.endItem = endpoints.2.item ∧
      s.view.selection_.Ordered ∧ endpoints.1.Stands s.view.messages_.getSnapshot ∧
      endpoints.2.Stands s.view.messages_.getSnapshot

omit [DecidableEq MessagePtr] in
theorem Tracks.denotes (h : s.Tracks) : s.Denotes := by
  intro hRunning endpoints hEndpoints
  have hSelection : s.view.selection_ = .ofItems endpoints.1.item endpoints.2.item := by
    rw [← h.settled endpoints hEndpoints, ViewMessages.settled, h.upToDate hRunning, Selection.shiftMessageIndex_zero]
  obtain ⟨hFirst, hLast⟩ := h.stands endpoints hEndpoints
  refine ⟨?_, ?_, h.ordered, hFirst, hLast⟩
  · rw [hSelection, Selection.start_ofItems]
  · rw [hSelection, Selection.endItem_ofItems]

/-- In every state of a run that leaves the selected messages where they are, the selection denotes
them, unless the view is paused. -/
theorem denotes_of_run (messagesLimit : Nat) (pausable : Bool) (calls : List (ViewCall MessagePtr))
    (hKept : AllSteps SelectedView.step Kept (constructed messagesLimit pausable) calls)
    (reached : List (ViewCall MessagePtr)) (hReached : reached <+: calls) :
    (reached.foldl SelectedView.step (constructed messagesLimit pausable)).Denotes :=
  (hKept.invariant_reached hReached (tracks_constructed messagesLimit pausable)
    fun _ call h hCall => h.step call hCall).denotes

theorem denotes_of_run_evicting :
    let calls := [.messageAppended 1, .messageAppended 2, .messageAppended 3, .setSelection ⟨0, 1⟩ ⟨1, 3⟩,
      .pause .Mouse none 0, .messageAppended 4, .unpause .Mouse]
    let s : SelectedView Nat := calls.foldl SelectedView.step (constructed 3 true)
    s.Denotes ∧ s.view.paused = false ∧ s.endpoints = some (⟨1, 1, none⟩, ⟨2, 3, some 0⟩) :=
  ⟨denotes_of_run 3 true _ (by decide) _ (List.prefix_refl _), by decide, by decide⟩

theorem not_denotes_addedAtStart :
    ¬∀ (messagesLimit : Nat) (pausable : Bool) (calls reached : List (ViewCall Nat)), reached <+: calls →
      (reached.foldl SelectedView.step (constructed messagesLimit pausable)).Denotes := by
  intro h
  have hMoved := h 3 true [.messageAppended 1, .setSelection ⟨0, 0⟩ ⟨0, 4⟩, .messageAddedAtStart [0]] _
    (List.prefix_refl _) (by decide) (⟨1, 0, some 1⟩, ⟨1, 4, some 1⟩) (by decide)
  exact absurd hMoved.1 (by decide)

end SelectedView

end Chatterino
