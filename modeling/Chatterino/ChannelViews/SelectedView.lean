import Chatterino.ChannelViews.HeldMessages
import Chatterino.Lib.Run
import Chatterino.Messages.QueueRefinement

/-! # Endpoints of a selection

Next to a view stand the messages that its selection was set on, and where they are now. What the
handlers of the view are called with moves both.
-/

namespace Chatterino

open Lib

/-- What a view is told to do. A rebuild is given the messages of the proxy. -/
inductive ViewCall (MessagePtr : Type) where
  | messageAppended (message : MessagePtr)
  | messageAddedAtStart (messages : List MessagePtr)
  | messageReplaced (hint : Nat) (prev replacement : MessagePtr)
  | messagesUpdated (snapshot : List MessagePtr)
  | clearMessages
  | pause (reason : PauseReason) (msecs : Option Nat) (now : Nat)
  | unpause (reason : PauseReason)
  | pauseTimeout
  | setSelection (start endItem : SelectionItem)
  | clearSelection

namespace ViewMessages

variable {MessagePtr : Type}

def call [DecidableEq MessagePtr] (view : ViewMessages MessagePtr) : ViewCall MessagePtr → ViewMessages MessagePtr
  | .messageAppended message => view.messageAppended message
  | .messageAddedAtStart messages => view.messageAddedAtStart messages
  | .messageReplaced hint prev replacement => view.messageReplaced hint prev replacement
  | .messagesUpdated snapshot => view.messagesUpdated snapshot
  | .clearMessages => view.clearMessages
  | .pause reason msecs now => view.pause reason msecs now
  | .unpause reason => view.unpause reason
  | .pauseTimeout => view.pauseTimeout
  | .setSelection start endItem => view.setSelection start endItem
  | .clearSelection => view.clearSelection

end ViewMessages

/-- The message that an end of the selection was set on, or what has replaced it, and where it stands. -/
structure Endpoint (MessagePtr : Type) where
  message : MessagePtr
  charIndex : Nat
  place : Option Nat
deriving DecidableEq

namespace Endpoint

variable {MessagePtr : Type} [DecidableEq MessagePtr]

def item (endpoint : Endpoint MessagePtr) : SelectionItem :=
  (endpoint.place.map fun i => ⟨i, endpoint.charIndex⟩).getD ⟨0, 0⟩

def Stands (messages : List MessagePtr) (endpoint : Endpoint MessagePtr) : Prop :=
  ∀ i ∈ endpoint.place, messages[i]? = some endpoint.message

/-- The endpoint after a call. A message that is replaced keeps its place, and in a rebuilt view it is
looked for where it was. -/
def follow (view : ViewMessages MessagePtr) (endpoint : Endpoint MessagePtr) :
    ViewCall MessagePtr → Endpoint MessagePtr
  | .messageAppended _ =>
    if view.evicts then
      { endpoint with place := endpoint.place.bind fun i => if i = 0 then none else some (i - 1) }
    else endpoint
  | .messageAddedAtStart messages =>
    { endpoint with place := endpoint.place.map fun i => (view.messages_.pushFront messages).2.length + i }
  | .messageReplaced hint prev replacement =>
    if endpoint.place.isSome ∧ endpoint.place = view.layoutIndex hint prev then
      { endpoint with message := replacement }
    else endpoint
  | .messagesUpdated snapshot =>
    { endpoint with
      place := endpoint.place.bind fun i => position i endpoint.message (snapshot.rtake view.messages_.limit) }
  | .clearMessages => { endpoint with place := none }
  | _ => endpoint

/-- The call leaves the selected messages where they are: it adds none before them and clears the view only when they
are gone. -/
def Kept (view : ViewMessages MessagePtr) (endpoint : Endpoint MessagePtr) : ViewCall MessagePtr → Prop
  | .messageAppended _ =>
    view.paused = true → view.evicts = true → view.pauseSelectionOffset_ + 1 < 2 ^ 32
  | .messageAddedAtStart messages => view.messages_.space = 0 ∨ messages = [] ∨ endpoint.place = none
  | .messagesUpdated snapshot =>
    ∀ i ∈ endpoint.place,
      position i endpoint.message (snapshot.rtake view.messages_.limit) = some i ∨
        position i endpoint.message (snapshot.rtake view.messages_.limit) = none ∧ endpoint.item = ⟨0, 0⟩
  | .clearMessages => endpoint.item = ⟨0, 0⟩
  | _ => True

instance (view : ViewMessages MessagePtr) (endpoint : Endpoint MessagePtr) (call : ViewCall MessagePtr) :
    Decidable (endpoint.Kept view call) := by
  cases call <;> unfold Kept <;> infer_instance

end Endpoint

/-- A view with the endpoints of its selection, once that was set while the view was not paused. -/
structure SelectedView (MessagePtr : Type) where
  view : ViewMessages MessagePtr
  endpoints : Option (Endpoint MessagePtr × Endpoint MessagePtr) := none

namespace SelectedView

variable {MessagePtr : Type} [DecidableEq MessagePtr]

def endpointAt (messages : List MessagePtr) (item : SelectionItem) : Option (Endpoint MessagePtr) :=
  messages[item.messageIndex]?.map fun message => ⟨message, item.charIndex, some item.messageIndex⟩

def follow (s : SelectedView MessagePtr) (call : ViewCall MessagePtr) :
    Option (Endpoint MessagePtr × Endpoint MessagePtr) :=
  s.endpoints.map fun endpoints => (endpoints.1.follow s.view call, endpoints.2.follow s.view call)

def step (s : SelectedView MessagePtr) (call : ViewCall MessagePtr) : SelectedView MessagePtr where
  view := s.view.call call
  endpoints :=
    match call with
    | .setSelection start endItem =>
      if s.view.paused then none
      else (endpointAt s.view.messages_.getSnapshot start).bind fun first =>
        (endpointAt s.view.messages_.getSnapshot endItem).map fun last => (first, last)
    | .clearSelection => none
    | _ => s.follow call

def Kept (s : SelectedView MessagePtr) (call : ViewCall MessagePtr) : Prop :=
  ∀ endpoints ∈ s.endpoints, endpoints.1.Kept s.view call ∧ endpoints.2.Kept s.view call

instance (s : SelectedView MessagePtr) (call : ViewCall MessagePtr) : Decidable (s.Kept call) := by
  unfold Kept
  infer_instance

end SelectedView

variable {MessagePtr : Type} {view : ViewMessages MessagePtr}

namespace ViewMessages

def UpToDate (view : ViewMessages MessagePtr) : Prop := view.paused = false → view.pauseSelectionOffset_ = 0

def settled (view : ViewMessages MessagePtr) : Selection := view.selection_.shiftMessageIndex view.pauseSelectionOffset_

theorem paused_eq_false_iff : view.paused = false ↔ view.pausable_ = false ∨ ∀ reason, view.pauses_ reason = none := by
  simp [paused, imp_iff_not_or]

@[simp] theorem settled_updatePauses (view : ViewMessages MessagePtr) : view.updatePauses.settled = view.settled := by
  unfold updatePauses
  split
  · exact Selection.shiftMessageIndex_zero _
  · rfl

theorem upToDate_updatePauses (h : view.pausable_ = false → view.pauseSelectionOffset_ = 0) :
    view.updatePauses.UpToDate := by
  unfold updatePauses
  split
  · exact fun _ => rfl
  · rename_i hPauses
    intro hNot
    obtain hPausable | hNone := paused_eq_false_iff.mp hNot
    · exact h hPausable
    · exact absurd hNone hPauses

theorem UpToDate.pausable (h : view.UpToDate) (hPausable : view.pausable_ = false) : view.pauseSelectionOffset_ = 0 :=
  h (paused_eq_false_iff.mpr (.inl hPausable))

theorem UpToDate.unpause (h : view.UpToDate) (reason : PauseReason) : (view.unpause reason).UpToDate := by
  unfold ViewMessages.unpause
  split
  · exact upToDate_updatePauses h.pausable
  · exact h

theorem settled_unpause (reason : PauseReason) (view : ViewMessages MessagePtr) :
    (view.unpause reason).settled = view.settled := by
  unfold unpause
  split
  · exact settled_updatePauses _
  · rfl

theorem UpToDate.messageAppended (h : view.UpToDate) (message : MessagePtr) : (view.messageAppended message).UpToDate := by
  unfold ViewMessages.messageAppended
  dsimp only
  split
  · split
    · rename_i hPaused
      exact fun hNot => absurd ((show view.paused = false from hNot).symm.trans hPaused) Bool.false_ne_true
    · exact h
  · exact h

theorem settled_messageAppended (h : view.UpToDate) (message : MessagePtr)
    (hCount : view.paused = true → view.evicts = true → view.pauseSelectionOffset_ + 1 < 2 ^ 32) :
    (view.messageAppended message).settled =
      if view.evicts then view.settled.shiftMessageIndex 1 else view.settled := by
  unfold messageAppended
  change settled (if view.evicts then _ else _) = _
  by_cases hEvicts : view.evicts = true
  · rw [if_pos hEvicts, if_pos hEvicts]
    by_cases hPaused : view.paused = true
    · rw [if_pos hPaused, settled, settled, Selection.shiftMessageIndex_shiftMessageIndex]
      exact congrArg (Selection.shiftMessageIndex · _) (Nat.mod_eq_of_lt (hCount hPaused hEvicts))
    · have hOffset : view.pauseSelectionOffset_ = 0 := h (Bool.eq_false_iff.mpr hPaused)
      rw [if_neg hPaused, settled, settled]
      dsimp only
      rw [hOffset]
      rfl
  · rw [if_neg hEvicts, if_neg hEvicts]
    rfl

theorem selection_call [DecidableEq MessagePtr] (view : ViewMessages MessagePtr) (call : ViewCall MessagePtr) :
    (∃ n, (view.call call).selection_ = view.selection_.shiftMessageIndex n) ∨
      ∃ start endItem, (view.call call).selection_ = .ofItems start endItem := by
  have hPauses (view : ViewMessages MessagePtr) :
      ∃ n, view.updatePauses.selection_ = view.selection_.shiftMessageIndex n := by
    unfold updatePauses
    split
    · exact ⟨_, rfl⟩
    · exact ⟨0, rfl⟩
  cases call with
  | messageAppended message =>
    left
    rw [ViewMessages.call, messageAppended]
    dsimp only
    split
    · split
      · exact ⟨0, rfl⟩
      · exact ⟨1, rfl⟩
    · exact ⟨0, rfl⟩
  | messageAddedAtStart messages | messagesUpdated snapshot | clearMessages => exact .inl ⟨0, rfl⟩
  | messageReplaced hint prev replacement =>
    left
    rw [ViewMessages.call, messageReplaced]
    split <;> exact ⟨0, rfl⟩
  | pause reason msecs now => exact .inl (hPauses _)
  | unpause reason =>
    left
    rw [ViewMessages.call, unpause]
    split
    · exact hPauses _
    · exact ⟨0, rfl⟩
  | pauseTimeout => exact .inl (hPauses _)
  | setSelection start endItem =>
    rw [ViewMessages.call, setSelection]
    split
    · exact .inl ⟨0, rfl⟩
    · exact .inr ⟨start, endItem, rfl⟩
  | clearSelection => exact .inr ⟨{}, {}, rfl⟩

theorem ordered_call [DecidableEq MessagePtr] (h : view.selection_.Ordered) (call : ViewCall MessagePtr) :
    (view.call call).selection_.Ordered := by
  obtain ⟨n, hShift⟩ | ⟨start, endItem, hSet⟩ := view.selection_call call
  · exact hShift ▸ h.shiftMessageIndex n
  · exact hSet ▸ Selection.ordered_ofItems start endItem

theorem UpToDate.call [DecidableEq MessagePtr] (h : view.UpToDate) (call : ViewCall MessagePtr) :
    (view.call call).UpToDate := by
  cases call with
  | messageAppended message => exact h.messageAppended message
  | messageAddedAtStart messages => exact h
  | messageReplaced hint prev replacement =>
    rw [ViewMessages.call, messageReplaced]
    split <;> exact h
  | messagesUpdated snapshot => exact h
  | clearMessages => exact h
  | pause reason msecs now | pauseTimeout => exact upToDate_updatePauses h.pausable
  | unpause reason => exact h.unpause reason
  | setSelection start endItem =>
    rw [ViewMessages.call, setSelection]
    split <;> exact h
  | clearSelection => exact h

end ViewMessages

namespace Endpoint

variable [DecidableEq MessagePtr] {endpoint : Endpoint MessagePtr}

theorem item_follow_messageAppended (view : ViewMessages MessagePtr) (endpoint : Endpoint MessagePtr)
    (message : MessagePtr) : (endpoint.follow view (.messageAppended message)).item =
      if view.evicts then endpoint.item.shift 1 else endpoint.item := by
  rw [follow]
  split
  · obtain ⟨held, charIndex, place⟩ := endpoint
    cases place with
    | none => rfl
    | some i =>
      cases i with
      | zero => rfl
      | succ i => rfl
  · rfl

theorem item_follow_messageAddedAtStart {messages : List MessagePtr}
    (hKept : endpoint.Kept view (.messageAddedAtStart messages)) :
    (endpoint.follow view (.messageAddedAtStart messages)).item = endpoint.item := by
  have hAdded : (view.messages_.pushFront messages).2.length = 0 ∨ endpoint.place = none := by
    rw [LimitedQueue.snd_pushFront, List.length_eq_zero_iff, rtake_eq_nil_iff, or_assoc]
    exact hKept
  obtain hNone | hGone := hAdded
  · simp [follow, item, hNone]
  · simp [follow, item, hGone]

theorem item_follow_messagesUpdated {snapshot : List MessagePtr}
    (hKept : endpoint.Kept view (.messagesUpdated snapshot)) :
    (endpoint.follow view (.messagesUpdated snapshot)).item = endpoint.item := by
  cases hPlace : endpoint.place with
  | none => simp [follow, item, hPlace]
  | some i =>
    obtain hThere | ⟨hGone, hOrigin⟩ := hKept i hPlace
    · simp [follow, item, hPlace, hThere]
    · rw [hOrigin, follow, hPlace, Option.bind_some, hGone]
      rfl

theorem Stands.messageAppended (h : endpoint.Stands view.messages_.getSnapshot) (message : MessagePtr) :
    (endpoint.follow view (.messageAppended message)).Stands (view.messageAppended message).messages_.getSnapshot := by
  have hSnapshot : (view.messageAppended message).messages_.getSnapshot =
      (view.messages_.getSnapshot ++ [message]).rtake view.messages_.limit := by
    rw [ViewMessages.messages_messageAppended]
    exact view.messages_.getSnapshot_pushBack message
  have hOld {i : Nat} (hi : i ∈ endpoint.place) :
      (view.messages_.getSnapshot ++ [message])[i]? = some endpoint.message := by
    obtain ⟨hLt, -⟩ := List.getElem?_eq_some_iff.mp (h i hi)
    rw [List.getElem?_append_left hLt]
    exact h i hi
  have hLength := view.messages_.length_getSnapshot_le
  rw [hSnapshot, follow]
  split
  · rename_i hEvicts
    have hFull := view.evicts_iff.mp hEvicts
    intro j hj
    obtain ⟨i, hi, hMoved⟩ := Option.bind_eq_some_iff.mp hj
    split at hMoved
    · cases hMoved
    · obtain rfl := Option.some.inj hMoved
      rw [List.rtake, List.getElem?_drop, List.length_append, List.length_singleton, ← hOld hi]
      congr 1
      omega
  · rename_i hNot
    intro i hi
    have hFull : view.messages_.getSnapshot.length ≠ view.messages_.limit := fun hEq => hNot (view.evicts_iff.mpr hEq)
    rw [CircularBuffer.rtake_of_length_le]
    · exact hOld hi
    · rw [List.length_append, List.length_singleton]
      omega

theorem Stands.messageAddedAtStart (h : endpoint.Stands view.messages_.getSnapshot) (messages : List MessagePtr) :
    (endpoint.follow view (.messageAddedAtStart messages)).Stands
      (view.messageAddedAtStart messages).messages_.getSnapshot := by
  have hPushed := view.messages_.getSnapshot_pushFront messages
  rw [← LimitedQueue.snd_pushFront] at hPushed
  intro j hj
  obtain ⟨i, hi, rfl⟩ := Option.map_eq_some_iff.mp hj
  refine (congrArg (·[_]?) hPushed).trans ?_
  rw [List.getElem?_append_right (Nat.le_add_right _ _), Nat.add_sub_cancel_left]
  exact h i hi

theorem Stands.messageReplaced (h : endpoint.Stands view.messages_.getSnapshot) (hint : Nat) (prev replacement : MessagePtr) :
    (endpoint.follow view (.messageReplaced hint prev replacement)).Stands
      (view.messageReplaced hint prev replacement).messages_.getSnapshot := by
  rw [ViewMessages.getSnapshot_messageReplaced, follow, ViewMessages.layoutIndex_eq]
  split
  · rename_i hThere
    intro i hi
    obtain ⟨hLt, -⟩ := List.getElem?_eq_some_iff.mp (h i hi)
    rw [← hThere.2, show endpoint.place = some i from hi, setAt, Option.map_some, Option.getD_some,
      List.getElem?_set_self hLt]
  · rename_i hElsewhere
    intro i hi
    have hNe : position hint prev view.messages_.getSnapshot ≠ some i := by
      intro hEq
      exact hElsewhere ⟨Option.isSome_iff_exists.mpr ⟨i, hi⟩, hi.trans hEq.symm⟩
    cases hFound : position hint prev view.messages_.getSnapshot with
    | none => exact h i hi
    | some index =>
      have hIndex : index ≠ i := fun hEq => hNe (hEq ▸ hFound)
      rw [setAt, Option.map_some, Option.getD_some, List.getElem?_set_ne hIndex]
      exact h i hi

theorem stands_messagesUpdated (snapshot : List MessagePtr) (view : ViewMessages MessagePtr)
    (endpoint : Endpoint MessagePtr) : (endpoint.follow view (.messagesUpdated snapshot)).Stands
      (view.messagesUpdated snapshot).messages_.getSnapshot := by
  rw [ViewMessages.getSnapshot_messagesUpdated]
  intro j hj
  obtain ⟨i, -, hFound⟩ := Option.bind_eq_some_iff.mp hj
  exact getElem?_position hFound

end Endpoint

end Chatterino
