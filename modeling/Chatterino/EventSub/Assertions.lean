import Chatterino.EventSub.Stranding
import Chatterino.EventSub.Phases

/-! # Assertions

The assertions ask for the phase a topic is in. It is lost where the last reference goes while something is pending,
and where a session ends while one of its topics has a step to come, or no entry.
-/

namespace Chatterino.EventSub.Controller

variable {controller : Controller} {request : SubscriptionRequest}

theorem assert_sound (h : controller.assertionFailed = false) {holds : Prop} [Decidable holds] (hHolds : holds) :
    (controller.assert holds).assertionFailed = false := by
  rw [assert, h, decide_eq_true hHolds]
  rfl

section Functions

variable (h : controller.assertionFailed = false)

include h

theorem subscribe_sound (hCount : 0 ≤ (controller.entry request.topic).refCount)
    (hUnsubscribed : (controller.entry request.topic).state = .Unsubscribed →
      (controller.entry request.topic).refCount = 0)
    (hTimer : (controller.view request.topic).needsToSubscribe → (controller.entry request.topic).retryTimer = none) :
    (controller.subscribe request).assertionFailed = false := by
  have hAsserted := assert_sound (assert_sound (assert_sound h hCount) hUnsubscribed) hTimer
  simp only [subscribe]
  split
  · exact hAsserted
  · exact hAsserted

theorem removeRef_sound (hEntry : controller.subscriptions request.topic ≠ none)
    (hPos : 0 < (controller.entry request.topic).refCount) : (controller.removeRef request).assertionFailed = false := by
  have hCount : 0 ≤ (controller.entry request.topic).refCount - 1 := by omega
  have hAsserted := assert_sound (assert_sound h (Option.isSome_iff_ne_none.mpr hEntry)) hCount
  simp only [removeRef]
  split
  · exact hAsserted
  · split
    · exact hAsserted
    · exact hAsserted

theorem retrySubscription_sound (hTimer : (controller.entry request.topic).retryTimer = none) :
    (controller.retrySubscription request).assertionFailed = false := by
  simp only [retrySubscription]
  split
  · exact h
  · exact assert_sound h hTimer

theorem attempt_sound {isRetry : Bool} (hTimer : (controller.entry request.topic).retryTimer.isSome = isRetry) :
    (controller.attempt request isRetry).assertionFailed = false := by
  have hBegun : (controller.begun request isRetry).assertionFailed = false := assert_sound h hTimer
  have hNone : ((controller.begun request isRetry).entry request.topic).retryTimer = none := by
    have hView := congrArg (fun view : View => view.entry.retryTimer) (view_begun request controller isRetry)
    refine hView.trans ?_
    cases isRetry with
    | true => rfl
    | false => exact Option.isNone_iff_eq_none.mp (Option.isSome_eq_false_iff.mp hTimer)
  obtain ⟨session, -, hEq⟩ | ⟨-, connected, rfl | rfl, hEq⟩ := attempt_cases request isRetry controller
  · rw [hEq]
    exact hBegun
  · rw [hEq]
    exact retrySubscription_sound hBegun hNone
  · rw [hEq]
    exact retrySubscription_sound hBegun hNone

theorem foldl_attempt_sound {subs : List SubscriptionRequest} (hNodup : (subs.map SubscriptionRequest.topic).Nodup)
    (hTimers : ∀ sub ∈ subs, (controller.entry sub.topic).retryTimer = none) :
    (subs.foldl (fun controller sub => controller.attempt sub false) controller).assertionFailed = false := by
  induction subs generalizing controller with
  | nil => exact h
  | cons sub subs ih =>
    obtain ⟨hFresh, hRest⟩ := List.nodup_cons.mp hNodup
    refine ih (attempt_sound h (by rw [hTimers sub List.mem_cons_self]; rfl)) hRest fun other hOther => ?_
    have hNe : other.topic ≠ sub.topic := by
      intro hEq
      rw [← hEq] at hFresh
      exact hFresh (List.mem_map_of_mem hOther)
    have hEntry := congrArg View.entry (view_attempt_of_ne hNe controller false)
    rw [← hTimers other (List.mem_cons_of_mem _ hOther)]
    exact congrArg Subscription.retryTimer hEntry

theorem markRequestSubscribed_sound (hState : (controller.entry request.topic).Begun) (session subscriptionID : Nat) :
    (controller.markRequestSubscribed request session subscriptionID).assertionFailed = false := by
  cases hListener : controller.listeners session with
  | none =>
    simp only [markRequestSubscribed, hListener]
    exact h
  | some listener =>
    simp only [markRequestSubscribed, hListener]
    exact @assert_sound (controller.setListener session (some (listener.markRequestSubscribed request))) h _ _ hState

theorem markRequestUnsubscribed_sound (hState : (controller.entry request.topic).state = .Unsubscribing)
    (hTimer : (controller.entry request.topic).retryTimer = none) :
    (controller.markRequestUnsubscribed request).assertionFailed = false := by
  have hEither : (controller.entry request.topic).state = .Unsubscribing ∨
    (controller.entry request.topic).state = .Retrying := Or.inl hState
  have hAsserted := assert_sound (assert_sound h hEither) hTimer
  cases hConnection : (controller.entry request.topic).connection <;> simp only [markRequestUnsubscribed, hConnection]
  all_goals split
  all_goals exact hAsserted

end Functions

/-- No handler of a timer and nothing next to an old subscription ID is pending when the last reference goes. -/
def KeepsPhases (controller : Controller) : Event → Prop
  | .removeRef request =>
    (controller.entry request.topic).refCount = 1 →
      (∀ timer ∈ (controller.entry request.topic).retryTimer, timer.expired = false) ∧
      ((controller.entry request.topic).subscriptionID = none ∨
        (controller.view request.topic).tasks = [] ∧ (controller.view request.topic).creates = [] ∧
          (controller.view request.topic).deletes = [])
  | .closed session false => ∀ listener ∈ controller.listeners session, ∀ request ∈ listener.subscriptions,
      controller.subscriptions request.topic ≠ none ∧ ¬(controller.view request.topic).Pending
  | _ => True

instance (controller : Controller) : (event : Event) → Decidable (controller.KeepsPhases event)
  | .subscribe _ => inferInstanceAs (Decidable True)
  | .removeRef _ => by dsimp only [KeepsPhases]; infer_instance
  | .runPosted => inferInstanceAs (Decidable True)
  | .timerExpires _ => inferInstanceAs (Decidable True)
  | .createAnswered _ _ => inferInstanceAs (Decidable True)
  | .deleteAnswered _ => inferInstanceAs (Decidable True)
  | .sessionWelcome _ _ => inferInstanceAs (Decidable True)
  | .closed _ false => by dsimp only [KeepsPhases]; infer_instance
  | .closed _ true => by dsimp only [KeepsPhases]; infer_instance

theorem mem_view_creates {create : Create} {topic : Topic} (hMem : create ∈ controller.creates)
    (hTopic : create.request.topic = topic) : create ∈ (controller.view topic).creates :=
  List.mem_filter.mpr ⟨hMem, decide_eq_true hTopic⟩

theorem mem_view_deletes {topic : Topic} (hMem : request ∈ controller.deletes) (hTopic : request.topic = topic) :
    request ∈ (controller.view topic).deletes :=
  List.mem_filter.mpr ⟨hMem, decide_eq_true hTopic⟩

structure Phased (controller : Controller) : Prop where
  grounded : controller.Grounded
  counted : controller.Counted
  phases : ∀ topic, Phase (controller.view topic)
  sound : controller.assertionFailed = false

theorem phased_init : Phased {} := ⟨grounded_init, counted_init, fun _ => .absent, rfl⟩

variable {topic : Topic} {event : Event}

theorem Phased.becomes (h : controller.Phased) (hOccurs : controller.Occurs event)
    (hKeeps : controller.KeepsPhases event) {view : View} (hBecomes : controller.Becomes topic event view) :
    Phase view := by
  have hPhase := h.phases topic
  cases hBecomes with
  | kept => exact hPhase
  | subscribe => exact hPhase.subscribe _
  | removeRef hTopic =>
    subst hTopic
    have hPos := h.counted.refCount_pos hOccurs
    apply hPhase.removeRef _ (h.counted.subscription_ne_none hOccurs)
    intro hLast
    rw [view_entry] at hLast
    exact hKeeps (by omega)
  | attempt _ _ hTasks =>
    obtain ⟨subscription, hView, hBegun, hTimer⟩ := hPhase.of_task hTasks
    rw [hView]
    exact .attempt _ hBegun hTimer _
  | retrySubscription _ _ hTasks =>
    obtain ⟨subscription, hView, -⟩ := hPhase.of_task hTasks
    rw [hView]
    exact .retrySubscription _
  | timerExpires hTimer hWaits => exact hPhase.timerExpires hTimer hWaits
  | ignored hTopic =>
    obtain ⟨subscription, hView, hBegun, hTimer⟩ := hPhase.of_create (mem_view_creates hOccurs hTopic)
    rw [hView]
    exact .idle hTimer hBegun.ne_unsubscribed hBegun.ne_unsubscribing
  | markRequestSubscribed hTopic | markRequestFailed hTopic =>
    obtain ⟨subscription, hView, -, hTimer⟩ := hPhase.of_create (mem_view_creates hOccurs hTopic)
    rw [hView]
    exact .idle hTimer (by rintro ⟨⟩) (by rintro ⟨⟩)
  | @retried create error hTopic =>
    obtain ⟨subscription, hView, hBegun, hTimer⟩ := hPhase.of_create (mem_view_creates hOccurs hTopic)
    have hReposted := congrArg (fun view : View =>
      { view with tasks := view.tasks ++ [Task.retrySubscription create.request] }) hView
    have hPosted : Phase ⟨some subscription, [.retrySubscription create.request], [], []⟩ := .posted hTimer hBegun rfl
    exact Eq.mpr (congrArg Phase hReposted) hPosted
  | markRequestUnsubscribed hTopic =>
    obtain ⟨subscription, hView, -, hTimer⟩ := hPhase.of_delete (mem_view_deletes hOccurs hTopic)
    rw [hView]
    exact .markRequestUnsubscribed _ hTimer
  | @reset session listener request hTopic hListener hMem =>
    subst hTopic
    obtain ⟨hEntry, hPending⟩ := hKeeps listener hListener request hMem
    obtain ⟨subscription, hView, hTimer⟩ := hPhase.of_not_pending hEntry hPending
    rw [hView]
    exact .reset request hTimer _

theorem Phased.runPosted_sound (h : controller.Phased) : controller.runPosted.assertionFailed = false := by
  rw [runPosted]
  split
  · exact h.sound
  · rename_i task posted hPosted
    have hTasks := tasks_of_cons task.request.topic controller hPosted
    rw [if_pos rfl] at hTasks
    obtain ⟨subscription, hView, -, hTimer⟩ := (h.phases task.request.topic).of_task hTasks
    have hEntry : controller.entry task.request.topic = subscription := congrArg View.entry hView
    cases task with
    | subscribe request isRetry =>
      refine @attempt_sound { controller with posted := posted } request h.sound isRetry ?_
      rw [← hEntry] at hTimer
      exact hTimer
    | retrySubscription request =>
      refine @retrySubscription_sound { controller with posted := posted } request h.sound ?_
      rw [← hEntry] at hTimer
      exact Option.isNone_iff_eq_none.mp (Option.isSome_eq_false_iff.mp hTimer)

theorem Phased.createAnswered_sound (h : controller.Phased) {create : Create} (hOccurs : create ∈ controller.creates)
    (answer : CreateAnswer) : (controller.createAnswered create answer).assertionFailed = false := by
  cases answer with
  | failure error => cases error <;> exact h.sound
  | success subscriptionID =>
    obtain ⟨subscription, hView, hBegun, -⟩ := (h.phases create.request.topic).of_create (mem_view_creates hOccurs rfl)
    have hEntry : controller.entry create.request.topic = subscription := congrArg View.entry hView
    rw [← hEntry] at hBegun
    exact @markRequestSubscribed_sound { controller with creates := controller.creates.erase create } _ h.sound hBegun _ _

theorem Phased.deleteAnswered_sound (h : controller.Phased) (hOccurs : request ∈ controller.deletes) :
    (controller.deleteAnswered request).assertionFailed = false := by
  obtain ⟨subscription, hView, hState, hTimer⟩ := (h.phases request.topic).of_delete (mem_view_deletes hOccurs rfl)
  have hEntry : controller.entry request.topic = subscription := congrArg View.entry hView
  rw [← hEntry] at hState hTimer
  exact @markRequestUnsubscribed_sound { controller with deletes := controller.deletes.erase request } _ h.sound
    hState hTimer

theorem Phased.closed_sound (h : controller.Phased) {session : Nat} {hasReconnectURL : Bool}
    (hKeeps : controller.KeepsPhases (.closed session hasReconnectURL)) :
    (controller.closed session hasReconnectURL).assertionFailed = false := by
  cases hListener : controller.listeners session with
  | none =>
    simp only [closed, hListener]
    exact h.sound
  | some listener =>
    simp only [closed, hListener, reconnectConnection]
    split
    · exact h.sound
    · split
      · exact h.sound
      · rename_i hURL
        obtain rfl := Bool.eq_false_iff.mpr hURL
        refine @foldl_attempt_sound ((controller.setListener session none).clearConnections.resetSubscriptions
          listener.subscriptions) h.sound _ (h.grounded.sound.nodup hListener) fun sub hSub => ?_
        obtain ⟨hEntry, hPending⟩ := hKeeps listener hListener sub hSub
        obtain ⟨subscription, hView, hTimer⟩ := (h.phases sub.topic).of_not_pending hEntry hPending
        have hReset := view_resetSubscriptions sub.topic listener.subscriptions
          (controller.setListener session none).clearConnections
        rw [if_pos (List.mem_map_of_mem hSub)] at hReset
        have hOld : (controller.view sub.topic).reset.entry.retryTimer = none := by
          rw [hView]
          exact hTimer
        exact (congrArg (fun view : View => view.entry.retryTimer) hReset).trans hOld

theorem Phased.step_sound (h : controller.Phased) (hOccurs : controller.Occurs event)
    (hKeeps : controller.KeepsPhases event) :
    (controller.step event).assertionFailed = false := by
  cases event with
  | subscribe request =>
    have hPhase := h.phases request.topic
    refine subscribe_sound h.sound (h.counted.refCount_nonneg _) (fun hState => ?_) hPhase.timer_of_needsToSubscribe
    have hNone : controller.subscriptions request.topic = none := hPhase.subscription_eq_none hState
    rw [entry, hNone]
    rfl
  | removeRef request =>
    exact removeRef_sound h.sound (h.counted.subscription_ne_none hOccurs) (h.counted.refCount_pos hOccurs)
  | runPosted => exact h.runPosted_sound
  | timerExpires expiring =>
    rw [Controller.step, timerExpires]
    split
    · exact h.sound
    · split <;> exact h.sound
  | createAnswered create answer => exact h.createAnswered_sound hOccurs answer
  | deleteAnswered request => exact h.deleteAnswered_sound hOccurs
  | sessionWelcome session sessionID => exact h.sound
  | closed session hasReconnectURL => exact h.closed_sound hKeeps

theorem Phased.step (h : controller.Phased) (hOccurs : controller.Occurs event)
    (hKeeps : controller.KeepsPhases event) : (controller.step event).Phased where
  grounded := h.grounded.step event
  counted := h.counted.step (h.grounded.becomes event) hOccurs
  phases topic := h.becomes hOccurs hKeeps (h.grounded.becomes event topic)
  sound := h.step_sound hOccurs hKeeps

/-- The assertions hold in every run that keeps the phases. -/
theorem assertionFailed_of_run (events : List Event) (hOccurs : Lib.AllSteps step Occurs {} events)
    (hKeeps : Lib.AllSteps step KeepsPhases {} events) {reached : List Event} (hPrefix : reached <+: events) :
    (reached.foldl step {}).assertionFailed = false :=
  ((hOccurs.and hKeeps).invariant_reached hPrefix phased_init fun _ _ h hStep => h.step hStep.1 hStep.2).sound

def releasedRun : List Event :=
  subscribedRun ++ [.removeRef banTopic, .subscribe banTopic, .deleteAnswered banTopic, .runPosted]

theorem assertionFailed_of_run_releasedRun : (releasedRun.foldl step {}).assertionFailed = false :=
  assertionFailed_of_run releasedRun (by decide) (by decide +kernel) List.prefix_rfl

def closedWhileUnsubscribing : List Event :=
  subscribedRun ++ [.removeRef banTopic, .closed 0 false, .deleteAnswered banTopic]

/-- The end of the session begins the topic anew, and the answer to the deletion finds it gone. -/
theorem assertionFailed_closedWhileUnsubscribing :
    ¬∀ events : List Event, Lib.AllSteps step Occurs {} events → (events.foldl step {}).assertionFailed = false := by
  intro hAll
  exact absurd (hAll closedWhileUnsubscribing (by decide)) (by decide +kernel)

end Chatterino.EventSub.Controller
