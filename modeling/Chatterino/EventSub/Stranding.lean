import Chatterino.EventSub.Ledger
import Chatterino.Lib.Run

/-! # What a subscribed topic hangs on

Whatever happens, a topic that is subscribed to is on the list of the session it was subscribed through, or of
the one that took over from it.
-/

namespace Chatterino.EventSub

namespace Connection

theorem nodup_markRequestSubscribed {listener : Connection} (request : SubscriptionRequest)
    (hNodup : (listener.subscriptions.map SubscriptionRequest.topic).Nodup) :
    ((listener.markRequestSubscribed request).subscriptions.map SubscriptionRequest.topic).Nodup := by
  rw [markRequestSubscribed]
  dsimp only
  split
  · exact hNodup
  · rename_i hFresh
    refine List.nodup_cons.mpr ⟨fun hMem => hFresh ?_, hNodup⟩
    obtain ⟨other, hOther, hTopic⟩ := List.mem_map.mp hMem
    exact isSubscribedTo_iff.mpr ⟨other, hOther, hTopic⟩

theorem nodup_markRequestUnsubscribed {listener : Connection} (request : SubscriptionRequest)
    (hNodup : (listener.subscriptions.map SubscriptionRequest.topic).Nodup) :
    ((listener.markRequestUnsubscribed request).subscriptions.map SubscriptionRequest.topic).Nodup :=
  hNodup.sublist (List.filter_sublist.map _)

theorem isSubscribedTo_markRequestSubscribed {topic : Topic} {listener : Connection} {request : SubscriptionRequest} :
    (listener.markRequestSubscribed request).isSubscribedTo topic ↔
      listener.isSubscribedTo topic ∨ request.topic = topic := by
  simp only [isSubscribedTo_iff, markRequestSubscribed]
  constructor
  · rintro ⟨other, hOther, hTopic⟩
    split at hOther
    · exact Or.inl ⟨other, hOther, hTopic⟩
    · obtain rfl | hOther := List.mem_cons.mp hOther
      · exact Or.inr hTopic
      · exact Or.inl ⟨other, hOther, hTopic⟩
  · rintro (⟨other, hOther, hTopic⟩ | rfl)
    · refine ⟨other, ?_, hTopic⟩
      split
      · exact hOther
      · exact List.mem_cons_of_mem _ hOther
    · split
      · rename_i hListed
        exact hListed
      · exact ⟨request, List.mem_cons_self, rfl⟩

theorem isSubscribedTo_markRequestUnsubscribed {topic : Topic} {listener : Connection}
    {request : SubscriptionRequest} :
    (listener.markRequestUnsubscribed request).isSubscribedTo topic ↔
      listener.isSubscribedTo topic ∧ request.topic ≠ topic := by
  simp only [isSubscribedTo_iff, markRequestUnsubscribed, List.mem_filter, decide_eq_true_eq]
  constructor
  · rintro ⟨other, ⟨hOther, hNe⟩, rfl⟩
    exact ⟨⟨other, hOther, rfl⟩, Ne.symm hNe⟩
  · rintro ⟨⟨other, hOther, rfl⟩, hNe⟩
    exact ⟨other, ⟨hOther, Ne.symm hNe⟩, rfl⟩

end Connection

namespace Network

variable {network : Network}

theorem CarriesTopic.setListener {session changed : Nat} {topic : Topic} {listener : Option Connection}
    (hCarries : network.CarriesTopic session topic)
    (hKept : ∀ old, network.listeners changed = some old → old.isSubscribedTo topic →
      ∃ new, listener = some new ∧ new.isSubscribedTo topic) :
    (network.setListener changed listener).CarriesTopic session topic := by
  obtain ⟨heir, old, hOld, hMade, hTopic⟩ := hCarries
  by_cases hChanged : heir = changed
  · subst hChanged
    obtain ⟨new, rfl, hNew⟩ := hKept old hOld hTopic
    exact ⟨heir, new, by rw [listeners_setListener, if_pos rfl], hMade, hNew⟩
  · exact ⟨heir, old, by rw [listeners_setListener, if_neg hChanged, hOld], hMade, hTopic⟩

theorem Sound.carriesTopic_of_opened {opened : Network} {session : Nat} {topic : Topic} (hSound : network.Sound)
    (hOpened : network.Opened opened) (hSession : session < network.sessions)
    (hCarries : network.CarriesTopic session topic) :
    session < opened.sessions ∧ opened.CarriesTopic session topic := by
  induction hOpened with
  | refl => exact ⟨hSession, hCarries⟩
  | tail hOpened ih =>
    exact ⟨Nat.lt_succ_of_lt ih.1, (hSound.of_opened hOpened).carriesTopic_createConnection ih.1 ih.2⟩

theorem Sound.carriesTopic_handedOver {session closed : Nat} {topic : Topic} {listener : Connection}
    (hSound : network.Sound) (hListener : network.listeners closed = some listener)
    (hSession : session < network.sessions) (hCarries : network.CarriesTopic session topic) :
    ((network.setListener closed none).clearConnections.createConnection listener
      (some (network.madeFor closed))).CarriesTopic session topic := by
  obtain ⟨heir, old, hOld, hMade, hTopic⟩ := hCarries
  have hSame : ((network.setListener closed none).clearConnections.createConnection listener
      (some (network.madeFor closed))).madeFor session = network.madeFor session :=
    madeFor_createConnection _ listener hSession
  by_cases hClosed : heir = closed
  · subst hClosed
    cases hListener.symm.trans hOld
    refine ⟨network.sessions, listener, ?_, ?_, hTopic⟩
    · exact (listeners_createConnection ..).trans (if_pos rfl)
    · exact (madeFor_createConnection_self ..).trans (hMade.trans hSame.symm)
  · have hHeir := hSound.live hOld
    refine ⟨heir, old, ?_, ?_, hTopic⟩
    · have hEarlier : (network.setListener closed none).clearConnections.listeners heir = some old := by
        rw [← hOld]
        exact (listeners_setListener ..).trans (if_neg hClosed)
      exact (listeners_createConnection ..).trans ((if_neg (Nat.ne_of_lt hHeir)).trans hEarlier)
    · exact (madeFor_createConnection _ listener hHeir).trans (hMade.trans hSame.symm)

end Network

namespace Controller

variable {controller : Controller} {topic : Topic} {event : Event}

namespace NetworkBecomes

variable {network : Network} (hBecomes : controller.NetworkBecomes event network)

include hBecomes

theorem sound (hSound : controller.network.Sound) : network.Sound := by
  cases hBecomes with
  | opened hOpened => exact hSound.of_opened hOpened
  | subscribed hListener =>
    apply hSound.setListener
    rintro new ⟨⟩
    exact ⟨Option.isSome_of_eq_some hListener, Connection.nodup_markRequestSubscribed _ (hSound.nodup hListener)⟩
  | unsubscribed hConnection =>
    apply hSound.setListener
    rintro new hNew
    obtain ⟨listener, hListener, rfl⟩ := Option.map_eq_some_iff.mp hNew
    exact ⟨Option.isSome_of_eq_some hListener, Connection.nodup_markRequestUnsubscribed _ (hSound.nodup hListener)⟩
  | welcomed =>
    apply hSound.setListener
    rintro new hNew
    obtain ⟨listener, hListener, rfl⟩ := Option.map_eq_some_iff.mp hNew
    have hNodup := hSound.nodup hListener
    exact ⟨Option.isSome_of_eq_some hListener, hNodup⟩
  | dropped hListener hDropped hOpened =>
    refine Network.Sound.of_opened (Network.Sound.clearConnections (hSound.setListener ?_)) hOpened
    rintro new ⟨⟩
  | handedOver hListener =>
    refine (Network.Sound.clearConnections (hSound.setListener ?_)).createConnection (hSound.nodup hListener) ?_
    · rintro new ⟨⟩
    · rintro root ⟨⟩
      refine ⟨hSound.made (hSound.live hListener), fun {other old} hOther hMade => ?_⟩
      rw [Network.clearConnections, Network.listeners_setListener] at hOther
      split at hOther
      · cases hOther
      · rename_i hNe
        exact hNe (hSound.unique hOther hListener hMade)

theorem sessions_le : controller.sessions ≤ network.sessions := by
  have hOpened {network opened : Network} (hOpened : network.Opened opened) : network.sessions ≤ opened.sessions := by
    induction hOpened with
    | refl => exact Nat.le_refl _
    | tail _ ih => exact Nat.le_succ_of_le ih
  cases hBecomes with
  | opened hNew => exact hOpened hNew
  | dropped _ _ hNew => exact hOpened hNew
  | handedOver => exact Nat.le_succ _
  | _ => exact Nat.le_refl _

theorem carriesTopic (hSound : controller.network.Sound) (hKept : controller.KeepsListed topic event) {session : Nat}
    (hSession : session < controller.sessions) (hCarries : controller.network.CarriesTopic session topic) :
    network.CarriesTopic session topic := by
  cases hBecomes with
  | opened hOpened => exact (hSound.carriesTopic_of_opened hOpened hSession hCarries).2
  | subscribed hListener =>
    refine hCarries.setListener fun old hOld hTopic => ⟨_, rfl, ?_⟩
    cases hListener.symm.trans hOld
    exact Connection.isSubscribedTo_markRequestSubscribed.mpr (Or.inl hTopic)
  | unsubscribed hConnection =>
    refine hCarries.setListener fun old hOld hTopic => ⟨_, Option.map_eq_some_iff.mpr ⟨old, hOld, rfl⟩, ?_⟩
    exact Connection.isSubscribedTo_markRequestUnsubscribed.mpr ⟨hTopic, hKept⟩
  | welcomed => exact hCarries.setListener fun old hOld hTopic => ⟨_, Option.map_eq_some_iff.mpr ⟨old, hOld, rfl⟩, hTopic⟩
  | @dropped closed hasReconnectURL listener network hListener hDropped hOpened =>
    have hLeft : (controller.network.setListener closed none).clearConnections.CarriesTopic session topic := by
      apply Network.CarriesTopic.setListener hCarries
      intro old hOld hTopic
      cases hListener.symm.trans hOld
      obtain hEmpty | rfl := hDropped
      · obtain ⟨request, hMem, -⟩ := Connection.isSubscribedTo_iff.mp hTopic
        rw [hEmpty] at hMem
        cases hMem
      · exact absurd hTopic (hKept _ hListener)
    have hEnded : (controller.network.setListener closed none).Sound := hSound.setListener (by rintro _ ⟨⟩)
    exact (hEnded.clearConnections.carriesTopic_of_opened hOpened hSession hLeft).2
  | handedOver hListener => exact hSound.carriesTopic_handedOver hListener hSession hCarries

end NetworkBecomes

structure Grounded (controller : Controller) : Prop where
  sound : controller.network.Sound
  timers : controller.TimersOwn
  connections : ∀ topic session, (controller.entry topic).connection = some session → session < controller.sessions
  anchored : ∀ topic, (controller.entry topic).state = .Subscribed →
    ∃ session, (controller.entry topic).connection = some session ∧ controller.network.CarriesTopic session topic

theorem grounded_init : Grounded {} := by
  constructor
  · constructor
    · rintro _ _ ⟨⟩
    · rintro _ ⟨⟩
    · rintro _ _ _ _ ⟨⟩
    · rintro _ _ ⟨⟩
    · rintro _ ⟨⟩
  · rintro _ _ ⟨⟩
  · rintro _ _ ⟨⟩
  · rintro _ ⟨⟩

theorem Grounded.becomes (h : controller.Grounded) (event : Event) (topic : Topic) :
    controller.Becomes topic event ((controller.step event).view topic) :=
  becomes_step topic controller h.sound h.timers event

theorem Grounded.step (h : controller.Grounded) (event : Event) : (controller.step event).Grounded := by
  have hNetwork := network_step event controller
  constructor
  · exact hNetwork.sound h.sound
  · intro topic timer hTimer
    obtain ⟨hDescends, -⟩ | ⟨_, _, _, -, -, -, hMarked⟩ := (h.becomes event topic).descends_or_marked
    · obtain hOwn | ⟨earlier, hEarlier, hSame⟩ := hDescends.timer timer hTimer
      · exact hOwn
      · rw [hSame]
        exact h.timers topic earlier hEarlier
    · rw [← view_entry, hMarked] at hTimer
      exact h.timers topic timer hTimer
  · intro topic session hConnection
    apply Nat.lt_of_lt_of_le _ hNetwork.sessions_le
    obtain ⟨hDescends, -⟩ | ⟨create, _, listener, -, -, hListener, hMarked⟩ :=
      (h.becomes event topic).descends_or_marked
    · exact h.connections topic session (hDescends.connection session hConnection)
    · rw [← view_entry, hMarked] at hConnection
      cases hConnection
      exact h.sound.live hListener
  · intro topic hState
    obtain ⟨hDescends, hKept⟩ | ⟨create, subscriptionID, listener, rfl, rfl, hListener, hMarked⟩ :=
      (h.becomes event topic).descends_or_marked
    · obtain ⟨hOld, hSame⟩ := hDescends.state hState
      obtain ⟨session, hConnection, hCarries⟩ := h.anchored topic hOld
      exact ⟨session, hSame.trans hConnection,
        hNetwork.carriesTopic h.sound (hKept hState) (h.connections topic session hConnection) hCarries⟩
    · have hEntry : (controller.step (.createAnswered create (.success subscriptionID))).entry create.request.topic = _ :=
        hMarked
      refine ⟨create.session, by rw [hEntry], ?_⟩
      have hNew := network_markRequestSubscribed create.request
        { controller with creates := controller.creates.erase create } subscriptionID hListener
      have hMarkedNetwork : (controller.step (.createAnswered create (.success subscriptionID))).network = _ := hNew
      rw [hMarkedNetwork]
      refine ⟨create.session, listener.markRequestSubscribed create.request, ?_, rfl, ?_⟩
      · rw [Network.listeners_setListener, if_pos rfl]
      · exact Connection.isSubscribedTo_markRequestSubscribed.mpr (Or.inr rfl)

theorem grounded_of_run (events : List Event) : (events.foldl step {}).Grounded :=
  Lib.foldl_invariant events grounded_init fun _ event h => h.step event

def banTopic : SubscriptionRequest where
  subscriptionType := QString.lit "channel.ban"
  subscriptionVersion := QString.lit "1"
  ownerTwitchUserID := QString.lit "11148817"

def subscribedRun : List Event :=
  [.subscribe banTopic, .runPosted, .sessionWelcome 0 (QString.lit "s"), .timerExpires banTopic.topic, .runPosted,
    .createAnswered ⟨banTopic, 0, true⟩ (.success 7)]

end Controller

namespace Controller

def StrandsNone (controller : Controller) : Prop :=
  ∀ topic subscription, controller.subscriptions topic = some subscription → 0 < subscription.refCount →
    subscription.state = .Failed ∨
    (subscription.state = .Subscribed ∧
      ∃ session, subscription.connection = some session ∧ controller.network.Carries session) ∨
    (controller.view topic).Pending

/-- An answer changes the entry, and the timer is not cancelled where nothing is unsubscribed from. -/
def ActsOnEntry (controller : Controller) : Event → Prop
  | .createAnswered create (.success _) => (controller.listeners create.session).isSome
  | .createAnswered _ (.failure error) => error ≠ .Forbidden
  | .removeRef request =>
    (controller.entry request.topic).refCount = 1 → (controller.entry request.topic).subscriptionID = none →
      (controller.view request.topic).timerWaits = false
  | _ => True

instance (controller : Controller) : (event : Event) → Decidable (controller.ActsOnEntry event)
  | .subscribe _ => inferInstanceAs (Decidable True)
  | .removeRef _ => by dsimp only [ActsOnEntry]; infer_instance
  | .runPosted => inferInstanceAs (Decidable True)
  | .timerExpires _ => inferInstanceAs (Decidable True)
  | .createAnswered _ (.success _) => by dsimp only [ActsOnEntry]; infer_instance
  | .createAnswered _ (.failure _) => by dsimp only [ActsOnEntry]; infer_instance
  | .deleteAnswered _ => inferInstanceAs (Decidable True)
  | .sessionWelcome _ _ => inferInstanceAs (Decidable True)
  | .closed _ _ => inferInstanceAs (Decidable True)

end Controller

namespace View

def Stands (view : View) : Prop :=
  view.subscription ≠ none → view.entry.state = .Failed ∨ view.entry.state = .Subscribed ∨ view.Pending

section Pending

variable {view : View}

theorem stands_of_posted {tasks : List Task} {task : Task} (h : view.tasks = tasks ++ [task]) : view.Stands :=
  fun _ => Or.inr (Or.inr (Or.inl (by simp [h])))

theorem stands_of_created {creates : List Create} {create : Create} (h : view.creates = creates ++ [create]) :
    view.Stands :=
  fun _ => Or.inr (Or.inr (Or.inr (Or.inl (by simp [h]))))

theorem stands_of_deleting {deletes : List SubscriptionRequest} {request : SubscriptionRequest}
    (h : view.deletes = deletes ++ [request]) : view.Stands :=
  fun _ => Or.inr (Or.inr (Or.inr (Or.inr (Or.inl (by simp [h])))))

end Pending

variable (view : View) (request : SubscriptionRequest)

theorem stands_retrySubscription : (view.retrySubscription request).Stands := by
  intro hEntry
  by_cases hZero : view.entry.refCount = 0
  · rw [retrySubscription, if_pos hZero] at hEntry
    exact absurd rfl hEntry
  · refine Or.inr (Or.inr (Or.inr (Or.inr (Or.inr ?_))))
    rw [timerWaits, entry_retrySubscription, if_neg hZero]
    rfl

theorem stands_attempt (isRetry : Bool) (viable : Option Nat) : (view.attempt request isRetry viable).Stands := by
  cases viable with
  | some session => exact stands_of_created rfl
  | none => exact (view.begun isRetry).stands_retrySubscription request

theorem stands_markRequestUnsubscribed : (view.markRequestUnsubscribed request).Stands := by
  rw [markRequestUnsubscribed]
  split
  · exact fun hEntry => absurd rfl hEntry
  · exact stands_of_posted rfl

theorem Stands.subscribe {view : View} (h : view.Stands) (request : SubscriptionRequest) :
    (view.subscribe request).Stands := by
  by_cases hNeeds : view.needsToSubscribe
  · exact stands_of_posted (if_pos hNeeds)
  · have hCounted : view.subscribe request =
        { view with subscription := some { view.entry with refCount := view.entry.refCount + 1 } } := by
      simp [View.subscribe, hNeeds]
    have hEntry : view.subscription ≠ none := by
      intro hNone
      apply hNeeds
      rw [needsToSubscribe, entry, hNone]
      rfl
    rw [hCounted]
    exact fun _ => h hEntry

theorem Stands.removeRef {view : View} (h : view.Stands) (hEntry : view.subscription ≠ none)
    (hPos : 0 < view.entry.refCount) {request : SubscriptionRequest}
    (hTimer : view.entry.refCount = 1 → view.entry.subscriptionID = none → view.timerWaits = false) :
    (view.removeRef request).Stands := by
  rw [View.removeRef]
  split
  · exact fun _ => h hEntry
  · rename_i hLast
    have hOne : view.entry.refCount = 1 := by omega
    cases hID : view.entry.subscriptionID with
    | some id => exact stands_of_deleting rfl
    | none =>
      intro _
      obtain hFailed | hSubscribed | hPending := h hEntry
      · exact Or.inl hFailed
      · exact Or.inr (Or.inl hSubscribed)
      · obtain hTasks | hCreates | hDeletes | hWaits := hPending
        · exact Or.inr (Or.inr (Or.inl hTasks))
        · exact Or.inr (Or.inr (Or.inr (Or.inl hCreates)))
        · exact Or.inr (Or.inr (Or.inr (Or.inr (Or.inl hDeletes))))
        · rw [hTimer hOne hID] at hWaits
          cases hWaits

end View

namespace Controller

variable {controller : Controller} {topic : Topic} {event : Event}

theorem Becomes.stands {view : View} (hBecomes : controller.Becomes topic event view)
    (h : (controller.view topic).Stands) (hCounted : controller.Counted) (hOccurs : controller.Occurs event)
    (hActs : controller.ActsOnEntry event) : view.Stands := by
  cases hBecomes with
  | kept hKept => exact h
  | subscribe hTopic => exact h.subscribe _
  | removeRef hTopic =>
    subst hTopic
    exact h.removeRef (hCounted.subscription_ne_none hOccurs) (hCounted.refCount_pos hOccurs) hActs
  | attempt hTopic => exact View.stands_attempt _ _ _ _
  | retrySubscription hTopic => exact View.stands_retrySubscription _ _
  | timerExpires => exact View.stands_of_posted rfl
  | ignored hTopic hIgnored =>
    obtain rfl | ⟨⟨subscriptionID, rfl⟩, hListener⟩ := hIgnored
    · exact absurd rfl hActs
    · rw [ActsOnEntry, hListener] at hActs
      cases hActs
  | markRequestSubscribed => exact fun _ => Or.inr (Or.inl rfl)
  | markRequestFailed => exact fun _ => Or.inl rfl
  | retried => exact View.stands_of_posted rfl
  | markRequestUnsubscribed => exact View.stands_markRequestUnsubscribed _ _
  | reset => exact View.stands_attempt _ _ _ _

structure Standing (controller : Controller) : Prop where
  grounded : controller.Grounded
  counted : controller.Counted
  stands : ∀ topic, (controller.view topic).Stands

theorem standing_init : Standing {} := ⟨grounded_init, counted_init, fun _ hEntry => absurd rfl hEntry⟩

theorem Standing.step (h : controller.Standing) (hOccurs : controller.Occurs event)
    (hActs : controller.ActsOnEntry event) : (controller.step event).Standing where
  grounded := h.grounded.step event
  counted := h.counted.step (h.grounded.becomes event) hOccurs
  stands topic := (h.grounded.becomes event topic).stands (h.stands topic) h.counted hOccurs hActs

theorem Standing.strandsNone (h : controller.Standing) : controller.StrandsNone := by
  intro topic subscription hSubscription _
  have hEntry := entry_of_eq_some hSubscription
  obtain hFailed | hSubscribed | hPending := h.stands topic (by rw [view_subscription, hSubscription]; rintro ⟨⟩)
  · rw [view_entry, hEntry] at hFailed
    exact Or.inl hFailed
  · obtain ⟨session, hConnection, hCarries⟩ := h.grounded.anchored topic hSubscribed
    rw [view_entry, hEntry] at hSubscribed
    rw [hEntry] at hConnection
    exact Or.inr (Or.inl ⟨hSubscribed, session, hConnection, hCarries.carries⟩)
  · exact Or.inr (Or.inr hPending)

/-- In a run in which every answer changes its entry, every topic with references has failed, is subscribed to or has
a step to come. -/
theorem strandsNone_of_run (events : List Event) (hOccurs : Lib.AllSteps step Occurs {} events)
    (hActs : Lib.AllSteps step ActsOnEntry {} events) {reached : List Event} (hPrefix : reached <+: events) :
    (reached.foldl step {}).StrandsNone :=
  ((hOccurs.and hActs).invariant_reached hPrefix standing_init fun _ _ h hStep => h.step hStep.1 hStep.2).strandsNone

def handedOverRun : List Event := subscribedRun ++ [.closed 0 true]

theorem strandsNone_of_run_handedOverRun : (handedOverRun.foldl step {}).StrandsNone :=
  strandsNone_of_run handedOverRun (by decide) (by decide +kernel) List.prefix_rfl

def strandedRun : List Event := [.subscribe banTopic, .runPosted, .removeRef banTopic, .subscribe banTopic]

/-- The timer goes with the last reference, and the next one finds the topic retrying. -/
theorem not_strandsNone_strandedRun :
    ¬∀ events : List Event, Lib.AllSteps step Occurs {} events → (events.foldl step {}).StrandsNone := by
  intro hAll
  have hStranded := hAll strandedRun (by decide) banTopic.topic { state := .Retrying, refCount := 1 }
    (by decide) (by decide)
  obtain hFailed | ⟨hSubscribed, -⟩ | hPending := hStranded
  · cases hFailed
  · cases hSubscribed
  · exact absurd hPending (by decide)

end Controller

end Chatterino.EventSub
