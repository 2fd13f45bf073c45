import Chatterino.EventSub.NetworkSteps

/-! # What a step does to a topic

For every topic a step is one of a few functions of its view, or it leaves the view as it is.
-/

namespace Chatterino.EventSub

namespace Network

theorem Sound.of_opened {network opened : Network} (hSound : network.Sound) (hOpened : network.Opened opened) :
    opened.Sound := by
  induction hOpened with
  | refl => exact hSound
  | tail _ ih => exact ih.createConnection List.nodup_nil (by simp)

theorem Opened.getViableConnection {network opened : Network} (hOpened : network.Opened opened)
    (hSound : network.Sound) (ownerTwitchUserID : QString) :
    opened.getViableConnection ownerTwitchUserID = network.getViableConnection ownerTwitchUserID := by
  induction hOpened with
  | refl => rfl
  | tail hOpened ih => rw [(hSound.of_opened hOpened).getViableConnection_createConnection, ih]

end Network

namespace Controller

theorem view_foldl_attempt_of_not_mem {topic : Topic} {subs : List SubscriptionRequest}
    (hTopic : topic ∉ subs.map SubscriptionRequest.topic) (controller : Controller) :
    (subs.foldl (fun controller sub => controller.attempt sub false) controller).view topic =
      controller.view topic := by
  induction subs generalizing controller with
  | nil => rfl
  | cons sub subs ih =>
    rw [List.foldl_cons, ih (List.not_mem_of_not_mem_cons hTopic),
      view_attempt_of_ne (List.ne_of_not_mem_cons hTopic)]

theorem view_foldl_attempt {request : SubscriptionRequest} {subs : List SubscriptionRequest}
    (hNodup : (subs.map SubscriptionRequest.topic).Nodup) (hMem : request ∈ subs) {controller : Controller}
    (hSound : controller.network.Sound) :
    (subs.foldl (fun controller sub => controller.attempt sub false) controller).view request.topic =
      (controller.view request.topic).attempt request false
        (controller.network.getViableConnection request.ownerTwitchUserID) := by
  induction subs generalizing controller with
  | nil => cases hMem
  | cons sub subs ih =>
    obtain ⟨hFresh, hRest⟩ := List.nodup_cons.mp hNodup
    rw [List.foldl_cons]
    obtain rfl | hMem := List.mem_cons.mp hMem
    · rw [view_foldl_attempt_of_not_mem hFresh, view_attempt]
      rfl
    · have hNe : request.topic ≠ sub.topic := by
        rintro hEq
        rw [← hEq] at hFresh
        exact hFresh (List.mem_map_of_mem hMem)
      have hOpened := network_attempt sub controller false
      rw [ih hRest hMem (hSound.of_opened hOpened), view_attempt_of_ne hNe, hOpened.getViableConnection hSound]

theorem view_resetSubscriptions (topic : Topic) (subs : List SubscriptionRequest) (controller : Controller) :
    (controller.resetSubscriptions subs).view topic =
      if topic ∈ subs.map SubscriptionRequest.topic then (controller.view topic).reset
      else controller.view topic := by
  by_cases hTopic : topic ∈ subs.map SubscriptionRequest.topic
  · simp only [resetSubscriptions, view, View.reset, if_pos hTopic]
  · simp only [resetSubscriptions, view, if_neg hTopic]

def TimersOwn (controller : Controller) : Prop :=
  ∀ topic timer, (controller.entry topic).retryTimer = some timer → timer.request.topic = topic

def Leaves (controller : Controller) (topic : Topic) : Event → Prop
  | .subscribe request => request.topic ≠ topic
  | .removeRef request => request.topic ≠ topic
  | .createAnswered create _ => create.request.topic ≠ topic
  | event => controller.KeepsListed topic event

theorem Leaves.keepsListed {controller : Controller} {topic : Topic} {event : Event}
    (hLeaves : controller.Leaves topic event) : controller.KeepsListed topic event := by
  cases event with
  | subscribe | removeRef | createAnswered => trivial
  | _ => exact hLeaves

inductive Becomes (controller : Controller) (topic : Topic) : Event → View → Prop
  | kept {event : Event} (hKept : controller.Leaves topic event) :
      Becomes controller topic event (controller.view topic)
  | subscribe {request : SubscriptionRequest} (hTopic : request.topic = topic) :
      Becomes controller topic (.subscribe request) ((controller.view topic).subscribe request)
  | removeRef {request : SubscriptionRequest} (hTopic : request.topic = topic) :
      Becomes controller topic (.removeRef request) ((controller.view topic).removeRef request)
  | attempt {request : SubscriptionRequest} {isRetry : Bool} {posted tasks : List Task}
      (hTopic : request.topic = topic) (hPosted : controller.posted = .subscribe request isRetry :: posted)
      (hTasks : (controller.view topic).tasks = .subscribe request isRetry :: tasks) :
      Becomes controller topic .runPosted
        ({ controller.view topic with tasks := tasks }.attempt request isRetry
          (controller.network.getViableConnection request.ownerTwitchUserID))
  | retrySubscription {request : SubscriptionRequest} {posted tasks : List Task}
      (hTopic : request.topic = topic) (hPosted : controller.posted = .retrySubscription request :: posted)
      (hTasks : (controller.view topic).tasks = .retrySubscription request :: tasks) :
      Becomes controller topic .runPosted
        ({ controller.view topic with tasks := tasks }.retrySubscription request)
  | timerExpires {timer : RetryTimer} (hTimer : (controller.entry topic).retryTimer = some timer)
      (hWaits : timer.expired = false) :
      Becomes controller topic (.timerExpires topic) ((controller.view topic).timerExpires timer)
  | ignored {create : Create} {answer : CreateAnswer} (hTopic : create.request.topic = topic)
      (hIgnored : answer = .failure .Forbidden ∨
        (∃ subscriptionID, answer = .success subscriptionID) ∧ controller.listeners create.session = none) :
      Becomes controller topic (.createAnswered create answer)
        { controller.view topic with creates := (controller.view topic).creates.erase create }
  | markRequestSubscribed {create : Create} {subscriptionID : Nat} {listener : Connection}
      (hTopic : create.request.topic = topic) (hListener : controller.listeners create.session = some listener) :
      Becomes controller topic (.createAnswered create (.success subscriptionID))
        ({ controller.view topic with creates := (controller.view topic).creates.erase create }.markRequestSubscribed
          create.session subscriptionID)
  | markRequestFailed {create : Create} {error : CreateError} (hTopic : create.request.topic = topic)
      (hError : error ≠ .Forbidden ∧ error ≠ .NoSession ∧ error ≠ .Forwarded) :
      Becomes controller topic (.createAnswered create (.failure error))
        { controller.view topic with creates := (controller.view topic).creates.erase create }.markRequestFailed
  | retried {create : Create} {error : CreateError} (hTopic : create.request.topic = topic) :
      Becomes controller topic (.createAnswered create (.failure error))
        { controller.view topic with
          creates := (controller.view topic).creates.erase create
          tasks := (controller.view topic).tasks ++ [.retrySubscription create.request] }
  | markRequestUnsubscribed {request : SubscriptionRequest} (hTopic : request.topic = topic) :
      Becomes controller topic (.deleteAnswered request)
        ({ controller.view topic with
          deletes := (controller.view topic).deletes.erase request }.markRequestUnsubscribed request)
  | reset {session : Nat} {listener : Connection} {request : SubscriptionRequest} (hTopic : request.topic = topic)
      (hListener : controller.listeners session = some listener) (hMem : request ∈ listener.subscriptions) :
      Becomes controller topic (.closed session false)
        ((controller.view topic).reset.attempt request false
          ((controller.network.setListener session none).getViableConnection request.ownerTwitchUserID))

section Step

variable (topic : Topic) (controller : Controller)

theorem becomes_runPosted : controller.Becomes topic .runPosted (controller.runPosted.view topic) := by
  cases hPosted : controller.posted with
  | nil =>
    rw [runPosted, hPosted]
    exact .kept trivial
  | cons task posted =>
    have hTasks := tasks_of_cons topic controller hPosted
    rw [runPosted_of_cons controller hPosted]
    by_cases hTopic : task.request.topic = topic
    · rw [if_pos hTopic] at hTasks
      subst hTopic
      cases task with
      | subscribe request isRetry =>
        have hView := view_attempt request { controller with posted := posted } isRetry
        rw [run, Task.request, hView]
        exact .attempt rfl hPosted hTasks
      | retrySubscription request =>
        have hView := view_retrySubscription request { controller with posted := posted }
        rw [run, Task.request, hView]
        exact .retrySubscription rfl hPosted hTasks
    · rw [if_neg hTopic] at hTasks
      have hView : ({ controller with posted := posted }.run task).view topic = controller.view topic := by
        rw [view_run_of_ne _ (Ne.symm hTopic)]
        simp only [view] at hTasks ⊢
        rw [hTasks]
      rw [hView]
      exact .kept trivial

theorem becomes_timerExpires (hTimers : controller.TimersOwn) (expiring : Topic) :
    controller.Becomes topic (.timerExpires expiring) ((controller.timerExpires expiring).view topic) := by
  have hKept : controller.Becomes topic (.timerExpires expiring) (controller.view topic) :=
    .kept trivial
  cases hTimer : (controller.entry expiring).retryTimer with
  | none =>
    simp only [timerExpires, hTimer]
    exact hKept
  | some timer =>
    have hOwn : timer.request.topic = expiring := hTimers expiring timer hTimer
    simp only [timerExpires, hTimer]
    split
    · exact hKept
    · rename_i hWaits
      by_cases hTopic : topic = expiring
      · subst hTopic
        have hView : ((controller.set topic
            { controller.entry topic with retryTimer := some { timer with expired := true } }).post
              (.subscribe timer.request true)).view topic = (controller.view topic).timerExpires timer := by
          simp [view, set, post, View.timerExpires, View.entry, entry, Task.request, hOwn]
        rw [hView]
        exact .timerExpires hTimer (Bool.eq_false_iff.mpr hWaits)
      · have hView : ((controller.set expiring
            { controller.entry expiring with retryTimer := some { timer with expired := true } }).post
              (.subscribe timer.request true)).view topic = controller.view topic := by
          simp [view, set, post, Task.request, hOwn, hTopic, Ne.symm hTopic]
        rw [hView]
        exact hKept

theorem becomes_createAnswered (create : Create) (answer : CreateAnswer) :
    controller.Becomes topic (.createAnswered create answer) ((controller.createAnswered create answer).view topic) := by
  by_cases hTopic : create.request.topic = topic
  · subst hTopic
    have hErased := view_without_create create.request.topic controller create
    cases answer with
    | success subscriptionID =>
      cases hListener : controller.listeners create.session with
      | none =>
        have hView : (controller.createAnswered create (.success subscriptionID)).view create.request.topic =
            { controller with creates := controller.creates.erase create }.view create.request.topic := by
          simp only [createAnswered, markRequestSubscribed, hListener]
          rfl
        rw [hView, hErased]
        exact .ignored rfl (Or.inr ⟨⟨subscriptionID, rfl⟩, hListener⟩)
      | some listener =>
        have hView : (controller.createAnswered create (.success subscriptionID)).view create.request.topic =
            ({ controller with creates := controller.creates.erase create }.view
              create.request.topic).markRequestSubscribed create.session subscriptionID :=
          view_markRequestSubscribed create.request { controller with creates := controller.creates.erase create }
            subscriptionID hListener
        rw [hView, hErased]
        exact .markRequestSubscribed rfl hListener
    | failure error =>
      have hFailed (hError : error ≠ .Forbidden ∧ error ≠ .NoSession ∧ error ≠ .Forwarded) :
          controller.Becomes create.request.topic (.createAnswered create (.failure error))
          ({ controller with creates := controller.creates.erase create }.markRequestFailed
            create.request |>.view create.request.topic) := by
        rw [view_markRequestFailed, hErased]
        exact .markRequestFailed rfl hError
      have hRetried : controller.Becomes create.request.topic (.createAnswered create (.failure error))
          ({ controller with creates := controller.creates.erase create }.post
            (.retrySubscription create.request) |>.view create.request.topic) := by
        rw [view_post_self create.request.topic _ rfl, hErased]
        exact .retried rfl
      cases error with
      | Forbidden =>
        rw [createAnswered, hErased]
        exact .ignored rfl (Or.inl rfl)
      | NoSession | Forwarded => exact hRetried
      | BadRequest | Unauthorized | Conflict | Ratelimited => exact hFailed (by decide)
  · rw [view_createAnswered_of_ne controller (Ne.symm hTopic)]
    exact .kept hTopic

theorem becomes_deleteAnswered (request : SubscriptionRequest) :
    controller.Becomes topic (.deleteAnswered request) ((controller.deleteAnswered request).view topic) := by
  by_cases hTopic : request.topic = topic
  · subst hTopic
    rw [deleteAnswered, view_markRequestUnsubscribed, view_without_delete]
    exact .markRequestUnsubscribed rfl
  · rw [view_deleteAnswered_of_ne controller (Ne.symm hTopic)]
    exact .kept hTopic

theorem becomes_reset (hSound : controller.network.Sound) {session : Nat} {listener : Connection}
    (hListener : controller.listeners session = some listener) :
    controller.Becomes topic (.closed session false)
      ((listener.subscriptions.foldl (fun controller sub => controller.attempt sub false)
        ((controller.setListener session none).clearConnections.resetSubscriptions
          listener.subscriptions)).view topic) := by
  have hCleared : ((controller.setListener session none).clearConnections.resetSubscriptions
      listener.subscriptions).network = (controller.network.setListener session none).clearConnections := rfl
  have hEnded : (controller.network.setListener session none).Sound := hSound.setListener (by rintro _ ⟨⟩)
  by_cases hTopic : topic ∈ listener.subscriptions.map SubscriptionRequest.topic
  · obtain ⟨request, hMem, rfl⟩ := List.mem_map.mp hTopic
    rw [view_foldl_attempt (hSound.nodup hListener) hMem (hCleared ▸ hEnded.clearConnections), view_resetSubscriptions,
      if_pos hTopic, hCleared, Network.getViableConnection_clearConnections]
    exact .reset rfl hListener hMem
  · rw [view_foldl_attempt_of_not_mem hTopic, view_resetSubscriptions, if_neg hTopic]
    refine .kept fun other hSome hSubscribed => ?_
    cases hListener.symm.trans hSome
    obtain ⟨request, hMem, rfl⟩ := Connection.isSubscribedTo_iff.mp hSubscribed
    exact hTopic (List.mem_map_of_mem hMem)

theorem becomes_closed (hSound : controller.network.Sound) (session : Nat) (hasReconnectURL : Bool) :
    controller.Becomes topic (.closed session hasReconnectURL)
      ((controller.closed session hasReconnectURL).view topic) := by
  cases hListener : controller.listeners session with
  | none =>
    simp only [closed, hListener]
    cases hasReconnectURL with
    | true => exact .kept trivial
    | false => exact .kept fun listener hSome => by cases hListener.symm.trans hSome
  | some listener =>
    simp only [closed, hListener, reconnectConnection]
    split
    · rename_i hEmpty
      cases hasReconnectURL with
      | true => exact .kept trivial
      | false =>
        refine .kept fun other hSome hTopic => ?_
        cases hListener.symm.trans hSome
        obtain ⟨request, hMem, -⟩ := Connection.isSubscribedTo_iff.mp hTopic
        rw [List.isEmpty_iff.mp hEmpty] at hMem
        cases hMem
    · split
      · rename_i hURL
        subst hURL
        exact .kept trivial
      · rename_i hURL
        obtain rfl := Bool.eq_false_iff.mpr hURL
        exact becomes_reset topic controller hSound hListener

theorem becomes_step (hSound : controller.network.Sound) (hTimers : controller.TimersOwn) (event : Event) :
    controller.Becomes topic event ((controller.step event).view topic) := by
  cases event with
  | subscribe request =>
    rw [step]
    by_cases hTopic : request.topic = topic
    · subst hTopic
      rw [view_subscribe]
      exact .subscribe rfl
    · rw [view_subscribe_of_ne (Ne.symm hTopic)]
      exact .kept hTopic
  | removeRef request =>
    rw [step]
    by_cases hTopic : request.topic = topic
    · subst hTopic
      rw [view_removeRef]
      exact .removeRef rfl
    · rw [view_removeRef_of_ne (Ne.symm hTopic)]
      exact .kept hTopic
  | runPosted => exact becomes_runPosted topic controller
  | timerExpires expiring => exact becomes_timerExpires topic controller hTimers expiring
  | createAnswered create answer => exact becomes_createAnswered topic controller create answer
  | deleteAnswered request => exact becomes_deleteAnswered topic controller request
  | sessionWelcome session sessionID => exact .kept trivial
  | closed session hasReconnectURL => exact becomes_closed topic controller hSound session hasReconnectURL

end Step

end Controller

end Chatterino.EventSub
