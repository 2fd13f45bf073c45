import Chatterino.EventSub.SubscriptionIDs

/-! # Unwanted subscriptions

A subscription ID is deleted with the last reference of its topic, if it is known then. An answer that comes later,
for a session that was handed over, or in the place of another ID leaves one that nobody deletes.
-/

namespace Chatterino.EventSub.Controller

def IsGone (controller : Controller) (created : Created) : Prop :=
  created.subscriptionID ∈ controller.deletedIDs ∨ ¬controller.network.Carries created.session

def LeaksNone (controller : Controller) : Prop :=
  (∀ created ∈ controller.created, (controller.entry created.topic).refCount = 0 →
    ¬(controller.view created.topic).Pending → controller.IsGone created) ∧
  ∀ create ∈ controller.creates, create.wanted

/-- A request is made for a topic with references, and its answer finds the topic with references, its listener
with the session, and no other subscription in place. -/
def SubscribesWanted (controller : Controller) : Event → Prop
  | .runPosted => ∀ task ∈ controller.posted.head?, task = .retrySubscription task.request ∨
      0 < (controller.entry task.request.topic).refCount ∨
      controller.network.getViableConnection task.request.ownerTwitchUserID = none
  | .createAnswered create (.success _) => controller.network.isCarried create.session →
      (controller.listeners create.session).isSome ∧ 0 < (controller.entry create.request.topic).refCount ∧
      ∀ created ∈ controller.created, created.topic = create.request.topic →
        (controller.entry create.request.topic).subscriptionID = some created.subscriptionID →
        created.subscriptionID ∈ controller.deletedIDs ∨ controller.network.isCarried created.session = false
  | .closed session false => ∀ listener ∈ controller.listeners session, ∀ request ∈ listener.subscriptions,
      0 < (controller.entry request.topic).refCount ∨
      (controller.network.setListener session none).getViableConnection request.ownerTwitchUserID = none
  | _ => True

instance (controller : Controller) : (event : Event) → Decidable (controller.SubscribesWanted event)
  | .subscribe _ => inferInstanceAs (Decidable True)
  | .removeRef _ => inferInstanceAs (Decidable True)
  | .runPosted => by dsimp only [SubscribesWanted]; infer_instance
  | .timerExpires _ => inferInstanceAs (Decidable True)
  | .createAnswered _ (.success _) => by dsimp only [SubscribesWanted]; infer_instance
  | .createAnswered _ (.failure _) => by dsimp only [SubscribesWanted]; infer_instance
  | .deleteAnswered _ => inferInstanceAs (Decidable True)
  | .sessionWelcome _ _ => inferInstanceAs (Decidable True)
  | .closed _ false => by dsimp only [SubscribesWanted]; infer_instance
  | .closed _ true => by dsimp only [SubscribesWanted]; infer_instance

structure Tight (controller : Controller) : Prop where
  grounded : controller.Grounded
  released : ∀ topic, (controller.entry topic).refCount ≤ 0 → (controller.entry topic).subscriptionID = none
  creates : ∀ create ∈ controller.creates, create.wanted ∧ create.session < controller.sessions
  created : ∀ created ∈ controller.created, created.session < controller.sessions ∧
    (controller.IsGone created ∨ (controller.entry created.topic).subscriptionID = some created.subscriptionID)

theorem tight_init : Tight {} :=
  ⟨grounded_init, fun _ _ => rfl, by rintro _ ⟨⟩, by rintro _ ⟨⟩⟩

theorem Tight.leaksNone {controller : Controller} (h : controller.Tight) : controller.LeaksNone := by
  constructor
  · intro created hCreated hZero _
    obtain hGone | hID := (h.created created hCreated).2
    · exact hGone
    · rw [h.released created.topic hZero.le] at hID
      cases hID
  · exact fun create hCreate => (h.creates create hCreate).1

variable {controller : Controller} {event : Event}

theorem Tight.creates_step (h : controller.Tight) (hWanted : controller.SubscribesWanted event) :
    ∀ create ∈ (controller.step event).creates, create.wanted ∧ create.session < (controller.step event).sessions := by
  intro create hCreate
  have hSessions := (network_step event controller).sessions_le
  have hView : create ∈ ((controller.step event).view create.request.topic).creates :=
    List.mem_filter.mpr ⟨hCreate, decide_eq_true rfl⟩
  obtain hOld | ⟨request, session, hTopic, hNew, hCase⟩ := (h.grounded.becomes event create.request.topic).creates hView
  · obtain ⟨hSame, hLt⟩ := h.creates create (List.mem_filter.mp hOld).1
    exact ⟨hSame, Nat.lt_of_lt_of_le hLt hSessions⟩
  · have hEnough : 0 < (controller.entry request.topic).refCount ∧ session < controller.sessions := by
      obtain ⟨isRetry, posted, rfl, hPosted, hViable⟩ | ⟨closed, listener, rfl, hListener, hListed, hViable⟩ := hCase
      · have hHead : Task.subscribe request isRetry ∈ controller.posted.head? := by rw [hPosted]; rfl
        obtain hRetry | hPos | hNone := hWanted _ hHead
        · cases hRetry
        · exact ⟨hPos, h.grounded.sound.getViableConnection_lt hViable⟩
        · cases hViable.symm.trans hNone
      · have hEnded : (controller.network.setListener closed none).Sound :=
          h.grounded.sound.setListener (by rintro _ ⟨⟩)
        obtain hPos | hNone := hWanted listener hListener request hListed
        · exact ⟨hPos, hEnded.getViableConnection_lt hViable⟩
        · cases hViable.symm.trans hNone
    constructor
    · rw [congrArg Create.wanted hNew, ← hTopic]
      exact decide_eq_true hEnough.1
    · rw [congrArg Create.session hNew]
      exact Nat.lt_of_lt_of_le hEnough.2 hSessions

theorem isCarried_of_listener (hSound : controller.network.Sound) {session : Nat}
    (hListener : (controller.listeners session).isSome) : controller.network.isCarried session := by
  obtain ⟨listener, hSome⟩ := Option.isSome_iff_exists.mp hListener
  exact (hSound.isCarried_iff session).mpr ⟨session, listener, hSome, rfl⟩

theorem Tight.released_step (h : controller.Tight) (hWanted : controller.SubscribesWanted event) (topic : Topic)
    (hZero : ((controller.step event).entry topic).refCount ≤ 0) :
    ((controller.step event).entry topic).subscriptionID = none := by
  have hOld := h.released topic
  rw [← view_entry] at hZero hOld ⊢
  obtain ⟨hCount, hID⟩ | ⟨request, -, hCount, hID⟩ | ⟨request, -, -, hView⟩ |
    ⟨create, subscriptionID, rfl, rfl, hListener, hCount, -⟩ := (h.grounded.becomes event topic).keepsID
  · obtain hSame | ⟨-, hNone⟩ := hID
    · rw [hSame]
      exact hOld (hCount ▸ hZero)
    · exact hNone
  · rw [hID]
    exact hOld (by omega)
  · rw [hView, View.removeRef] at hZero ⊢
    split at hZero
    · rename_i hMore
      exact absurd hZero (not_le_of_gt hMore)
    · rename_i hLast
      rw [if_neg hLast]
      rfl
  · have hPos : 0 < (controller.view create.request.topic).entry.refCount :=
      (hWanted (isCarried_of_listener h.grounded.sound hListener)).2.1
    omega

theorem IsGone.step {created : Created} (hGone : controller.IsGone created) (h : controller.Grounded)
    (hSession : created.session < controller.sessions) (event : Event) :
    (controller.step event).IsGone created := by
  obtain hDeleted | hDead := hGone
  · exact Or.inl (deletedIDs_step controller event hDeleted)
  · exact Or.inr fun hCarries => hDead ((network_step event controller).carries h.sound hSession hCarries)

theorem Tight.kept_step (h : controller.Tight) (hWanted : controller.SubscribesWanted event) {created : Created}
    (hCreated : created ∈ controller.created) :
    (controller.step event).IsGone created ∨
      ((controller.step event).entry created.topic).subscriptionID = some created.subscriptionID := by
  obtain ⟨hSession, hGone | hHeld⟩ := h.created created hCreated
  · exact Or.inl (hGone.step h.grounded hSession event)
  · rw [← view_entry] at hHeld ⊢
    obtain ⟨hCount, hSame | ⟨hZero, -⟩⟩ | ⟨request, -, -, hSame⟩ | ⟨request, rfl, hTopic, hView⟩ |
      ⟨create, subscriptionID, rfl, hTopic, hListener, -⟩ := (h.grounded.becomes event created.topic).keepsID
    · exact Or.inr (hSame.trans hHeld)
    · cases (h.released created.topic (le_of_eq hZero)).symm.trans hHeld
    · exact Or.inr (hSame.trans hHeld)
    · rw [hView, View.removeRef]
      split
      · exact Or.inr hHeld
      · rename_i hLast
        have hIDs : (controller.step (.removeRef request)).deletedIDs =
            controller.deletedIDs ++ (controller.entry request.topic).subscriptionID.toList := by
          rw [← hTopic] at hLast
          exact (congrArg Ledger.deletedIDs (ledger_removeRef request controller)).trans (if_neg hLast)
        rw [view_entry] at hHeld
        refine Or.inl (Or.inl ?_)
        rw [hIDs, hTopic, hHeld]
        exact List.mem_append_right _ (List.mem_singleton.mpr rfl)
    · have hOld := (hWanted (isCarried_of_listener h.grounded.sound hListener)).2.2 created hCreated hTopic.symm
      rw [hTopic] at hOld
      have hGone : controller.IsGone created := by
        obtain hDeleted | hDead := hOld hHeld
        · exact Or.inl hDeleted
        · refine Or.inr fun hCarries => ?_
          rw [(h.grounded.sound.isCarried_iff _).mpr hCarries] at hDead
          cases hDead
      exact Or.inl (hGone.step h.grounded hSession _)

theorem Tight.created_step (h : controller.Tight) (hOccurs : controller.Occurs event)
    (hWanted : controller.SubscribesWanted event) :
    ∀ created ∈ (controller.step event).created, created.session < (controller.step event).sessions ∧
      ((controller.step event).IsGone created ∨
        ((controller.step event).entry created.topic).subscriptionID = some created.subscriptionID) := by
  have hSessions : controller.sessions ≤ (controller.step event).sessions := (network_step event controller).sessions_le
  intro created hCreated
  obtain hSame | ⟨create, subscriptionID, rfl, hNew⟩ := Controller.created_step controller event
  · rw [hSame] at hCreated
    exact ⟨Nat.lt_of_lt_of_le (h.created created hCreated).1 hSessions, h.kept_step hWanted hCreated⟩
  · rw [hNew] at hCreated
    obtain hOld | hLast := List.mem_append.mp hCreated
    · exact ⟨Nat.lt_of_lt_of_le (h.created created hOld).1 hSessions, h.kept_step hWanted hOld⟩
    · obtain rfl := List.mem_singleton.mp hLast
      have hSession := (h.creates create hOccurs).2
      refine ⟨Nat.lt_of_lt_of_le hSession hSessions, ?_⟩
      cases hListener : controller.listeners create.session with
      | some listener =>
        have hView := view_markRequestSubscribed create.request
          { controller with creates := controller.creates.erase create } subscriptionID hListener
        exact Or.inr (congrArg (fun view : View => view.entry.subscriptionID) hView)
      | none =>
        have hDead : controller.IsGone ⟨subscriptionID, create.request.topic, create.session⟩ := by
          refine Or.inr fun hCarries => ?_
          have hSome := (hWanted ((h.grounded.sound.isCarried_iff _).mpr hCarries)).1
          rw [hListener] at hSome
          cases hSome
        exact Or.inl (hDead.step h.grounded hSession _)

theorem Tight.step (h : controller.Tight) (hOccurs : controller.Occurs event)
    (hWanted : controller.SubscribesWanted event) : (controller.step event).Tight where
  grounded := h.grounded.step event
  released := h.released_step hWanted
  creates := h.creates_step hWanted
  created := h.created_step hOccurs hWanted

/-- No subscription leaks in a run that only subscribes to what is wanted. -/
theorem leaksNone_of_run (events : List Event) (hOccurs : Lib.AllSteps step Occurs {} events)
    (hWanted : Lib.AllSteps step SubscribesWanted {} events) {reached : List Event} (hPrefix : reached <+: events) :
    (reached.foldl step {}).LeaksNone :=
  ((hOccurs.and hWanted).invariant_reached hPrefix tight_init fun _ _ h hStep => h.step hStep.1 hStep.2).leaksNone

def endedRun : List Event := subscribedRun ++ [.removeRef banTopic, .deleteAnswered banTopic]

theorem leaksNone_of_run_endedRun : (endedRun.foldl step {}).LeaksNone :=
  leaksNone_of_run endedRun (by decide) (by decide +kernel) List.prefix_rfl

def releasedEarly : List Event :=
  [.subscribe banTopic, .runPosted, .sessionWelcome 0 (QString.lit "s"), .timerExpires banTopic.topic, .runPosted,
    .removeRef banTopic, .createAnswered ⟨banTopic, 0, true⟩ (.success 7)]

theorem not_leaksNone_releasedEarly :
    ¬∀ events : List Event, Lib.AllSteps step Occurs {} events → (events.foldl step {}).LeaksNone := by
  intro hAll
  have hLeak := (hAll releasedEarly (by decide)).1 ⟨7, banTopic.topic, 0⟩ (by decide +kernel)
    (by decide) (by decide +kernel)
  obtain hDeleted | hDead := hLeak
  · exact absurd hDeleted (by decide)
  · exact hDead (((grounded_of_run releasedEarly).sound.isCarried_iff 0).mp (by decide))

end Chatterino.EventSub.Controller
