import Chatterino.EventSub.TopicSteps

/-! # Where an entry comes from

But for the answer that a topic is subscribed to, a step leaves of an entry's connection what there was, and makes
no topic subscribed to that was not.
-/

namespace Chatterino.EventSub

structure Subscription.Descends (topic : Topic) (old new : Subscription) : Prop where
  state : new.state = .Subscribed → old.state = .Subscribed ∧ new.connection = old.connection
  connection : ∀ session, new.connection = some session → old.connection = some session
  timer : ∀ timer, new.retryTimer = some timer →
    timer.request.topic = topic ∨ ∃ earlier, old.retryTimer = some earlier ∧ timer.request = earlier.request

namespace Subscription.Descends

variable {topic : Topic} {old middle new : Subscription}

theorem refl (topic : Topic) (old : Subscription) : old.Descends topic old :=
  ⟨fun hState => ⟨hState, rfl⟩, fun _ => id, fun timer hTimer => Or.inr ⟨timer, hTimer, rfl⟩⟩

theorem trans (hOld : old.Descends topic middle) (hNew : middle.Descends topic new) : old.Descends topic new := by
  constructor
  · intro hState
    obtain ⟨hMiddle, hSame⟩ := hNew.state hState
    obtain ⟨hFirst, hEarlier⟩ := hOld.state hMiddle
    exact ⟨hFirst, hSame.trans hEarlier⟩
  · exact fun session hConnection => hOld.connection session (hNew.connection session hConnection)
  · intro timer hTimer
    obtain hOwn | ⟨earlier, hEarlier, hSame⟩ := hNew.timer timer hTimer
    · exact Or.inl hOwn
    · rw [hSame]
      exact hOld.timer earlier hEarlier

theorem default (topic : Topic) (old : Subscription) : old.Descends topic {} :=
  ⟨by rintro ⟨⟩, by rintro _ ⟨⟩, by rintro _ ⟨⟩⟩

end Subscription.Descends

namespace View

variable (view : View) (request : SubscriptionRequest)

theorem entry_retrySubscription :
    (view.retrySubscription request).entry =
      if view.entry.refCount = 0 then {}
      else { view.entry with state := .Retrying, retryTimer := some { request := request } } := by
  by_cases hZero : view.entry.refCount = 0
  · rw [retrySubscription, if_pos hZero, if_pos hZero]
    rfl
  · rw [retrySubscription, if_neg hZero, if_neg hZero]
    rfl

theorem descends_subscribe : view.entry.Descends request.topic (view.subscribe request).entry := by
  constructor
  · intro hState
    have hState : (if view.needsToSubscribe then State.Subscribing else view.entry.state) = .Subscribed := hState
    split at hState
    · cases hState
    · exact ⟨hState, rfl⟩
  · exact fun _ => id
  · exact fun timer hTimer => Or.inr ⟨timer, hTimer, rfl⟩

theorem descends_removeRef : view.entry.Descends request.topic (view.removeRef request).entry := by
  rw [removeRef]
  split
  · exact ⟨fun hState => ⟨hState, rfl⟩, fun _ => id, fun timer hTimer => Or.inr ⟨timer, hTimer, rfl⟩⟩
  · constructor
    · intro hState
      have hState : (if view.entry.subscriptionID.isSome then State.Unsubscribing else view.entry.state) = .Subscribed :=
        hState
      split at hState
      · cases hState
      · exact ⟨hState, rfl⟩
    · exact fun _ => id
    · rintro _ ⟨⟩

theorem descends_retrySubscription : view.entry.Descends request.topic (view.retrySubscription request).entry := by
  rw [entry_retrySubscription]
  split
  · exact .default ..
  · exact ⟨by rintro ⟨⟩, fun _ => id, by rintro _ ⟨⟩; exact Or.inl rfl⟩

theorem descends_begun (topic : Topic) (isRetry : Bool) : view.entry.Descends topic (view.begun isRetry).entry := by
  refine ⟨fun hState => ⟨hState, rfl⟩, fun _ => id, fun timer hTimer => ?_⟩
  cases isRetry with
  | true => cases hTimer
  | false => exact Or.inr ⟨timer, hTimer, rfl⟩

theorem descends_attempt (isRetry : Bool) (viable : Option Nat) :
    view.entry.Descends request.topic (view.attempt request isRetry viable).entry := by
  cases viable with
  | some session => exact view.descends_begun request.topic isRetry
  | none =>
    exact (view.descends_begun request.topic isRetry).trans ((view.begun isRetry).descends_retrySubscription request)

theorem descends_markRequestUnsubscribed :
    view.entry.Descends request.topic (view.markRequestUnsubscribed request).entry := by
  rw [markRequestUnsubscribed]
  split
  · exact .default ..
  · exact ⟨by rintro ⟨⟩, by rintro _ ⟨⟩, fun timer hTimer => Or.inr ⟨timer, hTimer, rfl⟩⟩

theorem descends_reset (topic : Topic) : view.entry.Descends topic view.reset.entry := by
  cases hSubscription : view.subscription with
  | none =>
    rw [show view.reset.entry = {} by rw [reset, entry, hSubscription]; rfl]
    exact .default ..
  | some subscription =>
    rw [show view.entry = subscription by rw [entry, hSubscription]; rfl,
      show view.reset.entry = { subscription with connection := none, state := .Subscribing } by
        rw [reset, entry, hSubscription]; rfl]
    exact ⟨by rintro ⟨⟩, by rintro _ ⟨⟩, fun timer hTimer => Or.inr ⟨timer, hTimer, rfl⟩⟩

theorem state_retrySubscription : (view.retrySubscription request).entry.state ≠ .Subscribed := by
  rw [entry_retrySubscription]
  split <;> rintro ⟨⟩

theorem state_reset : view.reset.entry.state ≠ .Subscribed := by
  rw [reset, entry]
  cases view.subscription <;> rintro ⟨⟩

end View

namespace Controller.Becomes

variable {controller : Controller} {topic : Topic} {event : Event} {view : View}
  (hBecomes : controller.Becomes topic event view)

include hBecomes

theorem descends_or_marked :
    (controller.view topic).entry.Descends topic view.entry ∧
      (view.entry.state = .Subscribed → controller.KeepsListed topic event) ∨
    ∃ create subscriptionID listener, event = .createAnswered create (.success subscriptionID) ∧
      create.request.topic = topic ∧ controller.listeners create.session = some listener ∧
      view.entry = { (controller.view topic).entry with
        state := .Subscribed, connection := some create.session, subscriptionID := some subscriptionID } := by
  cases hBecomes with
  | kept hKept => exact Or.inl ⟨.refl .., fun _ => hKept.keepsListed⟩
  | subscribe hTopic =>
    subst hTopic
    exact Or.inl ⟨View.descends_subscribe .., fun _ => trivial⟩
  | removeRef hTopic =>
    subst hTopic
    exact Or.inl ⟨View.descends_removeRef .., fun _ => trivial⟩
  | @attempt request isRetry posted tasks hTopic =>
    subst hTopic
    have hDescends := { controller.view request.topic with tasks := tasks }.descends_attempt request isRetry
    exact Or.inl ⟨hDescends _, fun _ => trivial⟩
  | @retrySubscription request posted tasks hTopic =>
    subst hTopic
    have hDescends := { controller.view request.topic with tasks := tasks }.descends_retrySubscription request
    exact Or.inl ⟨hDescends, fun _ => trivial⟩
  | timerExpires hTimer =>
    refine Or.inl ⟨⟨fun hState => ⟨hState, rfl⟩, fun _ => id, ?_⟩, fun _ => trivial⟩
    rintro _ ⟨⟩
    exact Or.inr ⟨_, hTimer, rfl⟩
  | ignored | retried => exact Or.inl ⟨.refl .., fun _ => trivial⟩
  | markRequestSubscribed hTopic hListener => exact Or.inr ⟨_, _, _, rfl, hTopic, hListener, rfl⟩
  | markRequestFailed =>
    exact Or.inl ⟨⟨by rintro ⟨⟩, fun _ => id, fun timer hTimer => Or.inr ⟨timer, hTimer, rfl⟩⟩, fun _ => trivial⟩
  | @markRequestUnsubscribed request hTopic =>
    subst hTopic
    have hDescends := { controller.view request.topic with
      deletes := (controller.view request.topic).deletes.erase request }.descends_markRequestUnsubscribed request
    refine Or.inl ⟨hDescends, fun hState => ?_⟩
    rw [View.markRequestUnsubscribed] at hState
    split at hState <;> cases hState
  | @reset session listener request hTopic hListener hMem =>
    subst hTopic
    have hDescends := (controller.view request.topic).reset.descends_attempt request false
    refine Or.inl ⟨((controller.view request.topic).descends_reset request.topic).trans (hDescends _), fun hState => ?_⟩
    exact absurd ((hDescends _).state hState).1 (controller.view request.topic).state_reset

end Controller.Becomes

structure Ledger where
  handles : List SubscriptionRequest
  created : List Created
  deletedIDs : List Nat

namespace Controller

def ledger (controller : Controller) : Ledger where
  handles := controller.handles
  created := controller.created
  deletedIDs := controller.deletedIDs

section Functions

variable (request : SubscriptionRequest) (controller : Controller)

theorem ledger_retrySubscription : (controller.retrySubscription request).ledger = controller.ledger := by
  rw [retrySubscription]
  split <;> rfl

theorem ledger_attempt (isRetry : Bool) : (controller.attempt request isRetry).ledger = controller.ledger := by
  obtain ⟨session, -, hEq⟩ | ⟨-, connected, rfl | rfl, hEq⟩ := attempt_cases request isRetry controller
  · rw [hEq]
    rfl
  · rw [hEq, ledger_retrySubscription]
    rfl
  · rw [hEq, ledger_retrySubscription]
    rfl

theorem ledger_foldl_attempt (subs : List SubscriptionRequest) (controller : Controller) :
    (subs.foldl (fun controller sub => controller.attempt sub false) controller).ledger = controller.ledger := by
  induction subs generalizing controller with
  | nil => rfl
  | cons sub subs ih => exact (ih _).trans (ledger_attempt sub controller false)

theorem ledger_run (task : Task) (controller : Controller) : (controller.run task).ledger = controller.ledger := by
  cases task with
  | subscribe request isRetry => exact ledger_attempt request controller isRetry
  | retrySubscription request => exact ledger_retrySubscription request controller

theorem ledger_runPosted : controller.runPosted.ledger = controller.ledger := by
  rw [runPosted]
  split
  · rfl
  · rename_i task posted _
    exact ledger_run task { controller with posted := posted }

theorem ledger_timerExpires (topic : Topic) : (controller.timerExpires topic).ledger = controller.ledger := by
  rw [timerExpires]
  split
  · rfl
  · split <;> rfl

theorem ledger_subscribe :
    (controller.subscribe request).ledger = { controller.ledger with handles := request :: controller.handles } := by
  rw [subscribe]
  dsimp only
  split <;> rfl

theorem ledger_removeRef :
    (controller.removeRef request).ledger =
      { controller.ledger with
        handles := controller.handles.erase request
        deletedIDs :=
          if 0 < (controller.entry request.topic).refCount - 1 then controller.deletedIDs
          else controller.deletedIDs ++ (controller.entry request.topic).subscriptionID.toList } := by
  by_cases hMore : 0 < (controller.entry request.topic).refCount - 1
  · simp only [removeRef, hMore, if_true]
    rfl
  · simp only [removeRef, hMore, if_false]
    split
    · rename_i hID
      rw [hID, Option.toList_none, List.append_nil]
      rfl
    · rename_i hID
      rw [hID]
      rfl

theorem ledger_markRequestUnsubscribed :
    (controller.markRequestUnsubscribed request).ledger = controller.ledger := by
  cases hConnection : (controller.entry request.topic).connection <;> simp only [markRequestUnsubscribed, hConnection]
  all_goals split <;> rfl

theorem ledger_success (create : Create) (subscriptionID : Nat) :
    (controller.createAnswered create (.success subscriptionID)).ledger =
      { controller.ledger with
        created := controller.created ++ [⟨subscriptionID, create.request.topic, create.session⟩] } := by
  cases hListener : controller.listeners create.session <;> simp only [createAnswered, markRequestSubscribed, hListener]
  all_goals rfl

theorem ledger_failure (create : Create) (error : CreateError) :
    (controller.createAnswered create (.failure error)).ledger = controller.ledger := by
  cases error <;> rfl

theorem ledger_closed (session : Nat) (hasReconnectURL : Bool) :
    (controller.closed session hasReconnectURL).ledger = controller.ledger := by
  rw [closed]
  split
  · rfl
  · rw [reconnectConnection]
    split
    · rfl
    · split
      · rfl
      · exact ledger_foldl_attempt ..

end Functions

def references (topic : Topic) : Event → Int
  | .subscribe request => if request.topic = topic then 1 else 0
  | .removeRef request => if request.topic = topic then -1 else 0
  | _ => 0

theorem Leaves.references {controller : Controller} {topic : Topic} {event : Event}
    (hLeaves : controller.Leaves topic event) : references topic event = 0 := by
  cases event with
  | subscribe request | removeRef request => exact if_neg hLeaves
  | _ => rfl

end Controller

namespace View

variable (view : View) (request : SubscriptionRequest)

theorem refCount_removeRef : (view.removeRef request).entry.refCount = view.entry.refCount - 1 := by
  rw [removeRef]
  split <;> rfl

theorem refCount_retrySubscription : (view.retrySubscription request).entry.refCount = view.entry.refCount := by
  rw [entry_retrySubscription]
  split
  · rename_i hZero
    exact hZero.symm
  · rfl

theorem refCount_attempt (isRetry : Bool) (viable : Option Nat) :
    (view.attempt request isRetry viable).entry.refCount = view.entry.refCount := by
  cases viable with
  | some session => rfl
  | none => exact (view.begun isRetry).refCount_retrySubscription request

theorem refCount_markRequestUnsubscribed :
    (view.markRequestUnsubscribed request).entry.refCount = view.entry.refCount := by
  rw [markRequestUnsubscribed]
  split
  · rename_i hZero
    exact hZero.symm
  · rfl

theorem refCount_reset : view.reset.entry.refCount = view.entry.refCount := by
  rw [reset, entry, entry]
  cases view.subscription <;> rfl

end View

namespace Controller

variable {controller : Controller} {topic : Topic} {event : Event}

theorem Becomes.refCount {view : View} (hBecomes : controller.Becomes topic event view) :
    view.entry.refCount = (controller.view topic).entry.refCount + references topic event := by
  cases hBecomes with
  | kept hKept => rw [hKept.references, Int.add_zero]
  | subscribe hTopic => simp [references, hTopic, View.subscribe, View.entry]
  | removeRef hTopic => rw [View.refCount_removeRef, references, if_pos hTopic, Int.sub_eq_add_neg]
  | attempt hTopic => exact (View.refCount_attempt ..).trans (Int.add_zero _).symm
  | retrySubscription hTopic => exact (View.refCount_retrySubscription ..).trans (Int.add_zero _).symm
  | markRequestUnsubscribed hTopic => exact (View.refCount_markRequestUnsubscribed ..).trans (Int.add_zero _).symm
  | reset hTopic =>
    rw [View.refCount_attempt, View.refCount_reset]
    exact (Int.add_zero _).symm
  | _ => exact (Int.add_zero _).symm

def Counted (controller : Controller) : Prop :=
  ∀ topic, (controller.entry topic).refCount = (controller.handles.countP fun request => request.topic = topic : Nat)

theorem Counted.refCount_nonneg (h : controller.Counted) (topic : Topic) : 0 ≤ (controller.entry topic).refCount := by
  rw [h topic]
  exact Int.natCast_nonneg _

theorem Counted.refCount_pos (h : controller.Counted) {request : SubscriptionRequest}
    (hOccurs : request ∈ controller.handles) : 0 < (controller.entry request.topic).refCount := by
  rw [h request.topic]
  exact Int.natCast_pos.mpr (List.countP_pos_iff.mpr ⟨request, hOccurs, decide_eq_true rfl⟩)

theorem Counted.subscription_ne_none (h : controller.Counted) {request : SubscriptionRequest}
    (hOccurs : request ∈ controller.handles) : controller.subscriptions request.topic ≠ none := by
  intro hNone
  have hPos := h.refCount_pos hOccurs
  rw [entry, hNone] at hPos
  exact absurd hPos (by decide)

theorem counted_init : Counted {} := fun _ => rfl

theorem Counted.step (h : controller.Counted) (hBecomes : ∀ topic, controller.Becomes topic event
    ((controller.step event).view topic)) (hOccurs : controller.Occurs event) : (controller.step event).Counted := by
  intro topic
  have hCount := (hBecomes topic).refCount
  rw [view_entry, view_entry, h topic] at hCount
  rw [hCount]
  have hSame (hLedger : (controller.step event).ledger.handles = controller.handles) (hZero : references topic event = 0) :
      ((controller.handles.countP fun request => request.topic = topic : Nat) : Int) + references topic event =
        ((controller.step event).handles.countP fun request => request.topic = topic : Nat) := by
    rw [hZero, Int.add_zero]
    exact congrArg _ (congrArg _ hLedger.symm)
  cases event with
  | subscribe request =>
    have hHandles : (controller.step (.subscribe request)).handles = request :: controller.handles :=
      congrArg Ledger.handles (ledger_subscribe request controller)
    rw [hHandles, List.countP_cons, references]
    by_cases hTopic : request.topic = topic <;> simp [hTopic]
  | removeRef request =>
    have hHandles : (controller.step (.removeRef request)).handles = controller.handles.erase request :=
      congrArg Ledger.handles (ledger_removeRef request controller)
    have hErase := (List.perm_cons_erase hOccurs).countP_eq fun request => decide (request.topic = topic)
    rw [List.countP_cons] at hErase
    rw [hHandles, references, hErase]
    by_cases hTopic : request.topic = topic
    · simp [hTopic]
    · simp [hTopic]
  | runPosted => exact hSame (congrArg Ledger.handles (ledger_runPosted controller)) rfl
  | timerExpires expiring => exact hSame (congrArg Ledger.handles (ledger_timerExpires controller expiring)) rfl
  | createAnswered create answer =>
    cases answer with
    | success subscriptionID =>
      exact hSame (congrArg Ledger.handles (ledger_success controller create subscriptionID)) rfl
    | failure error => exact hSame (congrArg Ledger.handles (ledger_failure controller create error)) rfl
  | deleteAnswered request =>
    exact hSame (congrArg Ledger.handles (ledger_markRequestUnsubscribed request
      { controller with deletes := controller.deletes.erase request })) rfl
  | sessionWelcome session sessionID => exact hSame rfl rfl
  | closed session hasReconnectURL =>
    exact hSame (congrArg Ledger.handles (ledger_closed controller session hasReconnectURL)) rfl

end Controller

end Chatterino.EventSub
