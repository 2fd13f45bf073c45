import Chatterino.EventSub.Controller

/-! # The view of one topic

What a topic can be told by is its entry and what is pending for it. A function of the controller acts on the view
of its own topic like a function of the view alone, up to which connection is viable.
-/

namespace Chatterino.EventSub

structure View where
  subscription : Option Subscription
  tasks : List Task
  creates : List Create
  deletes : List SubscriptionRequest

namespace View

def entry (view : View) : Subscription := view.subscription.getD {}

def timerWaits (view : View) : Bool := view.entry.retryTimer.any fun timer => !timer.expired

def Pending (view : View) : Prop :=
  view.tasks ≠ [] ∨ view.creates ≠ [] ∨ view.deletes ≠ [] ∨ view.timerWaits

instance : DecidablePred Pending := fun view => by unfold Pending; infer_instance

def needsToSubscribe (view : View) : Bool := view.entry.state = .Unsubscribed ∨ view.entry.state = .Failed

def subscribe (request : SubscriptionRequest) (view : View) : View :=
  { view with
    subscription := some
      { view.entry with
        state := if view.needsToSubscribe then .Subscribing else view.entry.state
        refCount := view.entry.refCount + 1 }
    tasks := if view.needsToSubscribe then view.tasks ++ [.subscribe request false] else view.tasks }

def removeRef (request : SubscriptionRequest) (view : View) : View :=
  if 0 < view.entry.refCount - 1 then
    { view with subscription := some { view.entry with refCount := view.entry.refCount - 1 } }
  else
    { view with
      subscription := some
        { view.entry with
          state := if view.entry.subscriptionID.isSome then .Unsubscribing else view.entry.state
          refCount := view.entry.refCount - 1, subscriptionID := none, retryTimer := none }
      deletes := if view.entry.subscriptionID.isSome then view.deletes ++ [request] else view.deletes }

def retrySubscription (request : SubscriptionRequest) (view : View) : View :=
  { view with
    subscription :=
      if view.entry.refCount = 0 then none
      else some { view.entry with state := .Retrying, retryTimer := some { request := request } } }

def begun (isRetry : Bool) (view : View) : View :=
  { view with
    subscription := some { view.entry with retryTimer := if isRetry then none else view.entry.retryTimer } }

def attempt (request : SubscriptionRequest) (isRetry : Bool) (viable : Option Nat) (view : View) : View :=
  match viable with
  | some session =>
    { view.begun isRetry with creates := view.creates ++ [⟨request, session, 0 < view.entry.refCount⟩] }
  | none => (view.begun isRetry).retrySubscription request

def markRequestSubscribed (session subscriptionID : Nat) (view : View) : View :=
  { view with
    subscription := some
      { view.entry with
        state := .Subscribed, connection := some session, subscriptionID := some subscriptionID } }

def markRequestFailed (view : View) : View :=
  { view with subscription := some { view.entry with state := .Failed } }

def markRequestUnsubscribed (request : SubscriptionRequest) (view : View) : View :=
  if view.entry.refCount = 0 then { view with subscription := none }
  else
    { view with
      subscription := some { view.entry with state := .Subscribing, connection := none }
      tasks := view.tasks ++ [.subscribe request false] }

def timerExpires (timer : RetryTimer) (view : View) : View :=
  { view with
    subscription := some { view.entry with retryTimer := some { timer with expired := true } }
    tasks := view.tasks ++ [.subscribe timer.request true] }

def reset (view : View) : View :=
  { view with
    subscription := view.subscription.map fun subscription =>
      { subscription with connection := none, state := .Subscribing } }

end View

namespace Controller

def view (topic : Topic) (controller : Controller) : View where
  subscription := controller.subscriptions topic
  tasks := controller.posted.filter fun task => task.request.topic = topic
  creates := controller.creates.filter fun create => create.request.topic = topic
  deletes := controller.deletes.filter fun request => request.topic = topic

@[simp] theorem view_subscription (topic : Topic) (controller : Controller) :
    (controller.view topic).subscription = controller.subscriptions topic := rfl

@[simp] theorem view_entry (topic : Topic) (controller : Controller) :
    (controller.view topic).entry = controller.entry topic := rfl

theorem entry_of_eq_some {controller : Controller} {topic : Topic} {subscription : Subscription}
    (hSome : controller.subscriptions topic = some subscription) : controller.entry topic = subscription := by
  rw [entry, hSome, Option.getD_some]

def begun (request : SubscriptionRequest) (isRetry : Bool) (controller : Controller) : Controller :=
  (controller.assert ((controller.entry request.topic).retryTimer.isSome = isRetry)).set request.topic
    { controller.entry request.topic with
      retryTimer := if isRetry then none else (controller.entry request.topic).retryTimer }

theorem attempt_cases (request : SubscriptionRequest) (isRetry : Bool) (controller : Controller) :
    (∃ session, controller.getViableConnection request.ownerTwitchUserID = some session ∧
      controller.attempt request isRetry =
        { controller.begun request isRetry with
          creates := controller.creates ++ [⟨request, session, 0 < (controller.entry request.topic).refCount⟩] }) ∨
    (controller.getViableConnection request.ownerTwitchUserID = none ∧
      ∃ connected, (connected = controller.begun request isRetry ∨
          connected = (controller.begun request isRetry).createConnection {} none) ∧
        controller.attempt request isRetry = connected.retrySubscription request) := by
  have hBegun : (controller.begun request isRetry).getViableConnection request.ownerTwitchUserID =
      controller.getViableConnection request.ownerTwitchUserID := rfl
  rw [attempt, ← begun, hBegun]
  cases hViable : controller.getViableConnection request.ownerTwitchUserID with
  | some session => exact Or.inl ⟨session, rfl, rfl⟩
  | none =>
    refine Or.inr ⟨rfl, _, ?_, rfl⟩
    split
    · exact Or.inr rfl
    · exact Or.inl rfl

section Own

variable (request : SubscriptionRequest) (controller : Controller)

theorem view_subscribe :
    (controller.subscribe request).view request.topic = (controller.view request.topic).subscribe request := by
  by_cases hNeeds : (controller.entry request.topic).state = .Unsubscribed ∨
    (controller.entry request.topic).state = .Failed
  all_goals simp only [subscribe, View.subscribe, View.needsToSubscribe, view_entry, hNeeds, decide_true, decide_false,
    if_true, Bool.false_eq_true, if_false]
  all_goals simp [view, set, post, assert, Task.request]

theorem view_removeRef :
    (controller.removeRef request).view request.topic = (controller.view request.topic).removeRef request := by
  by_cases hMore : 0 < (controller.entry request.topic).refCount - 1
  · simp only [removeRef, View.removeRef, view_entry, hMore, if_true]
    simp [view, set, assert]
  · simp only [removeRef, View.removeRef, view_entry, hMore, if_false]
    split <;> rename_i hID <;> simp [view, set, assert, hID]

theorem view_retrySubscription :
    (controller.retrySubscription request).view request.topic =
      (controller.view request.topic).retrySubscription request := by
  by_cases hZero : (controller.entry request.topic).refCount = 0
  all_goals simp only [retrySubscription, View.retrySubscription, view_entry, hZero, if_true, if_false]
  all_goals simp [view, set, erase, assert]

theorem view_begun (isRetry : Bool) :
    (controller.begun request isRetry).view request.topic = (controller.view request.topic).begun isRetry := by
  simp [begun, View.begun, view, View.entry, entry, set, assert]

theorem view_attempt (isRetry : Bool) :
    (controller.attempt request isRetry).view request.topic =
      (controller.view request.topic).attempt request isRetry
        (controller.getViableConnection request.ownerTwitchUserID) := by
  obtain ⟨session, hViable, hEq⟩ | ⟨hViable, connected, hConnected, hEq⟩ := attempt_cases request isRetry controller
  · rw [hEq, hViable, View.attempt, ← view_begun]
    simp [view, begun, set, assert]
    rfl
  · have hView : connected.view request.topic = (controller.begun request isRetry).view request.topic := by
      obtain rfl | rfl := hConnected <;> rfl
    rw [hEq, view_retrySubscription, hView, view_begun, hViable, View.attempt]

theorem view_markRequestFailed :
    (controller.markRequestFailed request).view request.topic = (controller.view request.topic).markRequestFailed := by
  simp [markRequestFailed, View.markRequestFailed, view, View.entry, entry, set]

theorem view_markRequestSubscribed {session : Nat} {listener : Connection} (subscriptionID : Nat)
    (hListener : controller.listeners session = some listener) :
    (controller.markRequestSubscribed request session subscriptionID).view request.topic =
      (controller.view request.topic).markRequestSubscribed session subscriptionID := by
  simp [markRequestSubscribed, View.markRequestSubscribed, hListener, view, set, assert, setListener, View.entry, entry]

theorem view_markRequestUnsubscribed :
    (controller.markRequestUnsubscribed request).view request.topic =
      (controller.view request.topic).markRequestUnsubscribed request := by
  by_cases hZero : (controller.entry request.topic).refCount = 0
  all_goals simp only [markRequestUnsubscribed, View.markRequestUnsubscribed, view_entry, hZero, if_true, if_false]
  all_goals cases (controller.entry request.topic).connection
  all_goals simp [view, set, erase, assert, post, setListener, Task.request]

end Own

end Controller

end Chatterino.EventSub

namespace Chatterino.EventSub.Controller

section Others

variable {topic : Topic} {request : SubscriptionRequest} (hNe : topic ≠ request.topic) (controller : Controller)

include hNe

theorem view_set_of_ne (subscription : Subscription) :
    (controller.set request.topic subscription).view topic = controller.view topic := by
  simp [view, set, hNe]

theorem view_post_of_ne {task : Task} (hTask : task.request = request) :
    (controller.post task).view topic = controller.view topic := by
  simp [view, post, hTask, Ne.symm hNe]

theorem view_subscribe_of_ne : (controller.subscribe request).view topic = controller.view topic := by
  simp only [subscribe]
  split <;> simp [view, set, post, assert, Task.request, hNe, Ne.symm hNe]

theorem view_removeRef_of_ne : (controller.removeRef request).view topic = controller.view topic := by
  simp only [removeRef]
  split
  · simp [view, set, assert, hNe]
  · cases (controller.entry request.topic).subscriptionID <;> simp [view, set, assert, hNe, Ne.symm hNe]

theorem view_retrySubscription_of_ne :
    (controller.retrySubscription request).view topic = controller.view topic := by
  simp only [retrySubscription]
  split <;> simp [view, set, erase, assert, hNe]

theorem view_attempt_of_ne (isRetry : Bool) :
    (controller.attempt request isRetry).view topic = controller.view topic := by
  have hBegun : (controller.begun request isRetry).view topic = controller.view topic := view_set_of_ne hNe _ _
  obtain ⟨session, -, hEq⟩ | ⟨-, connected, hConnected, hEq⟩ := attempt_cases request isRetry controller
  · rw [hEq, ← hBegun]
    simp [view, begun, set, assert, Ne.symm hNe]
  · rw [hEq, view_retrySubscription_of_ne hNe, ← hBegun]
    obtain rfl | rfl := hConnected <;> rfl

theorem view_markRequestFailed_of_ne : (controller.markRequestFailed request).view topic = controller.view topic :=
  view_set_of_ne hNe _ _

theorem view_markRequestSubscribed_of_ne (session subscriptionID : Nat) :
    (controller.markRequestSubscribed request session subscriptionID).view topic = controller.view topic := by
  cases hListener : controller.listeners session <;> simp only [markRequestSubscribed, hListener]
  exact view_set_of_ne hNe _ _

theorem view_markRequestUnsubscribed_of_ne :
    (controller.markRequestUnsubscribed request).view topic = controller.view topic := by
  cases hConnection : (controller.entry request.topic).connection <;> simp only [markRequestUnsubscribed, hConnection]
  all_goals split <;> simp [view, set, erase, assert, post, setListener, Task.request, hNe, Ne.symm hNe]

end Others

variable (topic : Topic) (controller : Controller)

theorem view_post_self {task : Task} (hTask : task.request.topic = topic) :
    (controller.post task).view topic =
      { controller.view topic with tasks := (controller.view topic).tasks ++ [task] } := by
  simp [view, post, hTask]

theorem view_without_create (create : Create) :
    { controller with creates := controller.creates.erase create }.view topic =
      { controller.view topic with creates := (controller.view topic).creates.erase create } := by
  simp only [view, List.erase_filter]

theorem view_without_delete (request : SubscriptionRequest) :
    { controller with deletes := controller.deletes.erase request }.view topic =
      { controller.view topic with deletes := (controller.view topic).deletes.erase request } := by
  simp only [view, List.erase_filter]

theorem runPosted_of_cons {task : Task} {posted : List Task} (hPosted : controller.posted = task :: posted) :
    controller.runPosted = { controller with posted := posted }.run task := by
  rw [runPosted, hPosted]

theorem tasks_of_cons {task : Task} {posted : List Task} (hPosted : controller.posted = task :: posted) :
    (controller.view topic).tasks =
      if task.request.topic = topic then task :: ({ controller with posted := posted }.view topic).tasks
      else ({ controller with posted := posted }.view topic).tasks := by
  by_cases hTopic : task.request.topic = topic <;> simp [view, hPosted, hTopic]

variable {topic}

theorem view_run_of_ne {task : Task} (hNe : topic ≠ task.request.topic) :
    (controller.run task).view topic = controller.view topic := by
  cases task with
  | subscribe request isRetry => exact view_attempt_of_ne hNe controller isRetry
  | retrySubscription request => exact view_retrySubscription_of_ne hNe controller

theorem view_without_create_of_ne {create : Create} (hNe : topic ≠ create.request.topic) :
    { controller with creates := controller.creates.erase create }.view topic = controller.view topic := by
  have hMem : create ∉ (controller.view topic).creates := by
    intro hMem
    exact hNe (of_decide_eq_true (List.mem_filter.mp hMem).2).symm
  rw [view_without_create, List.erase_of_not_mem hMem]

theorem view_without_delete_of_ne {request : SubscriptionRequest} (hNe : topic ≠ request.topic) :
    { controller with deletes := controller.deletes.erase request }.view topic = controller.view topic := by
  have hMem : request ∉ (controller.view topic).deletes := by
    intro hMem
    exact hNe (of_decide_eq_true (List.mem_filter.mp hMem).2).symm
  rw [view_without_delete, List.erase_of_not_mem hMem]

theorem view_createAnswered_of_ne {create : Create} (hNe : topic ≠ create.request.topic) (answer : CreateAnswer) :
    (controller.createAnswered create answer).view topic = controller.view topic := by
  have hErased := view_without_create_of_ne controller hNe
  cases answer with
  | success subscriptionID =>
    have hMarked := view_markRequestSubscribed_of_ne hNe
      { controller with creates := controller.creates.erase create } create.session subscriptionID
    exact hMarked.trans hErased
  | failure error =>
    have hPosted := view_post_of_ne hNe { controller with creates := controller.creates.erase create }
      (rfl : (Task.retrySubscription create.request).request = create.request)
    have hFailed := view_markRequestFailed_of_ne hNe
      { controller with creates := controller.creates.erase create }
    cases error with
    | Forbidden => exact hErased
    | NoSession | Forwarded => exact hPosted.trans hErased
    | BadRequest | Unauthorized | Conflict | Ratelimited => exact hFailed.trans hErased

theorem view_deleteAnswered_of_ne {request : SubscriptionRequest} (hNe : topic ≠ request.topic) :
    (controller.deleteAnswered request).view topic = controller.view topic := by
  rw [deleteAnswered, view_markRequestUnsubscribed_of_ne hNe, view_without_delete_of_ne controller hNe]

end Chatterino.EventSub.Controller
