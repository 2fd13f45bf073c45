import Chatterino.EventSub.Ledger

/-! # Phases of a topic

As the assertions see it, one thing at most is pending for a topic, and the state and the timer of its entry go
with it.
-/

namespace Chatterino.EventSub

def Task.isRetry : Task → Bool
  | subscribe _ isRetry => isRetry
  | retrySubscription _ => false

def Subscription.Begun (subscription : Subscription) : Prop :=
  subscription.state = .Subscribing ∨ subscription.state = .Retrying

inductive Phase : View → Prop
  | absent : Phase ⟨none, [], [], []⟩
  | idle {subscription : Subscription} (hTimer : subscription.retryTimer = none)
      (hState : subscription.state ≠ .Unsubscribed) (hOther : subscription.state ≠ .Unsubscribing) :
      Phase ⟨some subscription, [], [], []⟩
  | posted {subscription : Subscription} {task : Task} (hTimer : subscription.retryTimer = none)
      (hState : subscription.Begun) (hFresh : task.isRetry = false) : Phase ⟨some subscription, [task], [], []⟩
  | creating {subscription : Subscription} {create : Create} (hTimer : subscription.retryTimer = none)
      (hState : subscription.Begun) : Phase ⟨some subscription, [], [create], []⟩
  | waiting {subscription : Subscription} {timer : RetryTimer} (hTimer : subscription.retryTimer = some timer)
      (hWaits : timer.expired = false) (hState : subscription.state = .Retrying) :
      Phase ⟨some subscription, [], [], []⟩
  | fired {subscription : Subscription} {timer : RetryTimer} {request : SubscriptionRequest}
      (hTimer : subscription.retryTimer = some timer) (hExpired : timer.expired)
      (hState : subscription.state = .Retrying) : Phase ⟨some subscription, [.subscribe request true], [], []⟩
  | unsubscribing {subscription : Subscription} {request : SubscriptionRequest}
      (hTimer : subscription.retryTimer = none) (hState : subscription.state = .Unsubscribing)
      (hID : subscription.subscriptionID = none) : Phase ⟨some subscription, [], [], [request]⟩

namespace Subscription.Begun

variable {subscription : Subscription} (h : subscription.Begun)

include h

theorem ne_unsubscribed : subscription.state ≠ .Unsubscribed := by
  obtain hState | hState := h <;> rw [hState] <;> rintro ⟨⟩

theorem ne_failed : subscription.state ≠ .Failed := by
  obtain hState | hState := h <;> rw [hState] <;> rintro ⟨⟩

theorem ne_unsubscribing : subscription.state ≠ .Unsubscribing := by
  obtain hState | hState := h <;> rw [hState] <;> rintro ⟨⟩

end Subscription.Begun

namespace Phase

variable {view : View}

theorem subscription_eq_none (h : Phase view) (hState : view.entry.state = .Unsubscribed) :
    view.subscription = none := by
  cases h with
  | absent => rfl
  | idle _ hNe => exact absurd hState hNe
  | posted _ hBegun | creating _ hBegun => exact absurd hState hBegun.ne_unsubscribed
  | waiting _ _ hRetrying | fired _ _ hRetrying => exact absurd (hRetrying.symm.trans hState) (by decide)
  | unsubscribing _ hUnsubscribing => exact absurd (hUnsubscribing.symm.trans hState) (by decide)

theorem timer_of_needsToSubscribe (h : Phase view) (hNeeds : view.needsToSubscribe) :
    view.entry.retryTimer = none := by
  cases h with
  | absent => rfl
  | idle hTimer | posted hTimer | creating hTimer | unsubscribing hTimer => exact hTimer
  | @waiting subscription _ _ _ hState | @fired subscription _ _ _ _ hState =>
    have hNeeds : decide (subscription.state = .Unsubscribed ∨ subscription.state = .Failed) = true := hNeeds
    rw [hState] at hNeeds
    cases hNeeds

theorem of_task (h : Phase view) {task : Task} {tasks : List Task} (hTasks : view.tasks = task :: tasks) :
    ∃ subscription, { view with tasks := tasks } = ⟨some subscription, [], [], []⟩ ∧ subscription.Begun ∧
      subscription.retryTimer.isSome = task.isRetry := by
  cases h with
  | @posted subscription _ hTimer hState hFresh =>
    cases hTasks
    exact ⟨subscription, rfl, hState, by rw [hTimer, hFresh]; rfl⟩
  | @fired subscription _ _ hTimer _ hState =>
    cases hTasks
    exact ⟨subscription, rfl, Or.inr hState, by rw [hTimer]; rfl⟩
  | _ => cases hTasks

theorem of_create (h : Phase view) {create : Create} (hCreate : create ∈ view.creates) :
    ∃ subscription, { view with creates := view.creates.erase create } = ⟨some subscription, [], [], []⟩ ∧
      subscription.Begun ∧ subscription.retryTimer = none := by
  cases h with
  | @creating subscription _ hTimer hState =>
    cases List.mem_singleton.mp hCreate
    exact ⟨subscription, by simp, hState, hTimer⟩
  | _ => cases hCreate

theorem of_delete (h : Phase view) {request : SubscriptionRequest} (hDelete : request ∈ view.deletes) :
    ∃ subscription, { view with deletes := view.deletes.erase request } = ⟨some subscription, [], [], []⟩ ∧
      subscription.state = .Unsubscribing ∧ subscription.retryTimer = none := by
  cases h with
  | @unsubscribing subscription _ hTimer hState hID =>
    cases List.mem_singleton.mp hDelete
    exact ⟨subscription, by simp, hState, hTimer⟩
  | _ => cases hDelete

theorem of_not_pending (h : Phase view) (hEntry : view.subscription ≠ none) (hPending : ¬view.Pending) :
    ∃ subscription, view = ⟨some subscription, [], [], []⟩ ∧ subscription.retryTimer = none := by
  cases h with
  | absent => exact absurd rfl hEntry
  | @idle subscription hTimer => exact ⟨subscription, rfl, hTimer⟩
  | posted | fired => exact absurd (Or.inl (List.cons_ne_nil _ _)) hPending
  | creating => exact absurd (Or.inr (Or.inl (List.cons_ne_nil _ _))) hPending
  | @waiting subscription timer hTimer hWaits =>
    refine absurd (Or.inr (Or.inr (Or.inr ?_))) hPending
    show subscription.retryTimer.any (fun timer => !timer.expired) = true
    rw [hTimer, Option.any_some, hWaits]
    rfl
  | unsubscribing => exact absurd (Or.inr (Or.inr (Or.inl (List.cons_ne_nil _ _)))) hPending

theorem retrySubscription {subscription : Subscription} (request : SubscriptionRequest) :
    Phase (View.retrySubscription request ⟨some subscription, [], [], []⟩) := by
  by_cases hZero : subscription.refCount = 0
  · have hGone : View.retrySubscription request ⟨some subscription, [], [], []⟩ = ⟨none, [], [], []⟩ :=
      congrArg (View.mk · [] [] []) (if_pos hZero)
    rw [hGone]
    exact .absent
  · have hArmed : View.retrySubscription request ⟨some subscription, [], [], []⟩ =
        ⟨some { subscription with state := .Retrying, retryTimer := some { request := request } }, [], [], []⟩ :=
      congrArg (View.mk · [] [] []) (if_neg hZero)
    rw [hArmed]
    exact .waiting rfl rfl rfl

theorem attempt {subscription : Subscription} (request : SubscriptionRequest) {isRetry : Bool}
    (hState : subscription.Begun) (hTimer : subscription.retryTimer.isSome = isRetry) (viable : Option Nat) :
    Phase (View.attempt request isRetry viable ⟨some subscription, [], [], []⟩) := by
  cases viable with
  | none => exact retrySubscription request
  | some session =>
    refine .creating ?_ hState
    cases isRetry with
    | true => rfl
    | false => exact Option.isNone_iff_eq_none.mp (Option.isSome_eq_false_iff.mp hTimer)

theorem markRequestUnsubscribed {subscription : Subscription} (request : SubscriptionRequest)
    (hTimer : subscription.retryTimer = none) :
    Phase (View.markRequestUnsubscribed request ⟨some subscription, [], [], []⟩) := by
  rw [View.markRequestUnsubscribed]
  split
  · exact .absent
  · exact .posted hTimer (Or.inl rfl) rfl

theorem reset {subscription : Subscription} (request : SubscriptionRequest) (hTimer : subscription.retryTimer = none)
    (viable : Option Nat) : Phase (View.attempt request false viable (View.reset ⟨some subscription, [], [], []⟩)) :=
  attempt request (Or.inl rfl) (by rw [hTimer]; rfl) viable

theorem timerExpires (h : Phase view) {timer : RetryTimer} (hTimer : view.entry.retryTimer = some timer)
    (hWaits : timer.expired = false) : Phase (view.timerExpires timer) := by
  cases h with
  | absent => cases hTimer
  | idle hNone | posted hNone | creating hNone | unsubscribing hNone => cases hTimer.symm.trans hNone
  | waiting _ _ hState => exact .fired rfl rfl hState
  | fired hSome hExpired =>
    cases hTimer.symm.trans hSome
    rw [hExpired] at hWaits
    cases hWaits

theorem subscribe (h : Phase view) (request : SubscriptionRequest) : Phase (view.subscribe request) := by
  have hKept (hState : view.entry.state ≠ .Unsubscribed) (hOther : view.entry.state ≠ .Failed) :
      view.subscribe request =
        { view with subscription := some { view.entry with refCount := view.entry.refCount + 1 } } := by
    simp [View.subscribe, View.needsToSubscribe, hState, hOther]
  cases h with
  | absent => exact .posted rfl (Or.inl rfl) rfl
  | @idle subscription hTimer hState hOther =>
    by_cases hFailed : subscription.state = .Failed
    · have hPosted : View.subscribe request ⟨some subscription, [], [], []⟩ =
          ⟨some { subscription with state := .Subscribing, refCount := subscription.refCount + 1 },
            [.subscribe request false], [], []⟩ := by
        simp [View.subscribe, View.needsToSubscribe, View.entry, hFailed]
      rw [hPosted]
      exact .posted hTimer (Or.inl rfl) rfl
    · rw [hKept hState hFailed]
      exact .idle hTimer hState hOther
  | posted hTimer hState hFresh =>
    rw [hKept hState.ne_unsubscribed hState.ne_failed]
    exact .posted hTimer hState hFresh
  | creating hTimer hState =>
    rw [hKept hState.ne_unsubscribed hState.ne_failed]
    exact .creating hTimer hState
  | @waiting subscription timer hTimer hWaits hState =>
    have hBegun : subscription.Begun := Or.inr hState
    rw [hKept hBegun.ne_unsubscribed hBegun.ne_failed]
    exact .waiting hTimer hWaits hState
  | @fired subscription timer other hTimer hExpired hState =>
    have hBegun : subscription.Begun := Or.inr hState
    rw [hKept hBegun.ne_unsubscribed hBegun.ne_failed]
    exact .fired hTimer hExpired hState
  | @unsubscribing subscription other hTimer hState hID =>
    have hKnown (state : State) (hNe : state ≠ .Unsubscribing) : subscription.state ≠ state := by
      rintro rfl
      exact hNe hState
    rw [hKept (hKnown .Unsubscribed (by decide)) (hKnown .Failed (by decide))]
    exact .unsubscribing hTimer hState hID

/-- The last reference leaves no handler of a timer behind, and no task or answer of a topic that is unsubscribed
from. -/
def Releases (view : View) : Prop :=
  (∀ timer ∈ view.entry.retryTimer, timer.expired = false) ∧
    (view.entry.subscriptionID = none ∨ view.tasks = [] ∧ view.creates = [] ∧ view.deletes = [])

theorem removeRef (h : Phase view) (request : SubscriptionRequest) (hEntry : view.subscription ≠ none)
    (hReleases : view.entry.refCount ≤ 1 → Releases view) : Phase (view.removeRef request) := by
  rw [View.removeRef]
  split
  · cases h with
    | absent => exact absurd rfl hEntry
    | idle hTimer hState hOther => exact .idle hTimer hState hOther
    | posted hTimer hState hFresh => exact .posted hTimer hState hFresh
    | creating hTimer hState => exact .creating hTimer hState
    | waiting hTimer hWaits hState => exact .waiting hTimer hWaits hState
    | fired hTimer hExpired hState => exact .fired hTimer hExpired hState
    | unsubscribing hTimer hState hID => exact .unsubscribing hTimer hState hID
  · rename_i hLast
    obtain ⟨hTimers, hPending⟩ := hReleases (by omega)
    cases hID : view.entry.subscriptionID with
    | some id =>
      obtain hNone | ⟨hTasks, hCreates, hDeletes⟩ := hPending
      · cases hID.symm.trans hNone
      · rw [hTasks, hCreates, hDeletes]
        exact .unsubscribing rfl rfl rfl
    | none =>
      cases h with
      | absent => exact absurd rfl hEntry
      | idle hTimer hState hOther => exact .idle rfl hState hOther
      | posted hTimer hState hFresh => exact .posted rfl hState hFresh
      | creating hTimer hState => exact .creating rfl hState
      | waiting hTimer hWaits hState => exact .idle rfl (by rintro hOther; cases hState.symm.trans hOther) (by rintro hOther; cases hState.symm.trans hOther)
      | fired hTimer hExpired hState =>
        have hWaits := hTimers _ hTimer
        rw [hExpired] at hWaits
        cases hWaits
      | unsubscribing hTimer hState => exact .unsubscribing rfl hState rfl

end Phase

end Chatterino.EventSub
