import Chatterino.EventSub.Stranding

/-! # What becomes of a subscription ID

The ID of an entry stays until its last reference is removed, or until another answer brings one. A session that is
dead stays dead, and a request is made of a viable session only.
-/

namespace Chatterino.EventSub

namespace Network

def isCarried (session : Nat) (network : Network) : Bool :=
  (List.range network.sessions).any fun heir =>
    (network.listeners heir).isSome && network.madeFor heir = network.madeFor session

theorem Sound.isCarried_iff {network : Network} (hSound : network.Sound) (session : Nat) :
    network.isCarried session ↔ network.Carries session := by
  simp only [isCarried, List.any_eq_true, List.mem_range, Bool.and_eq_true, decide_eq_true_eq]
  constructor
  · rintro ⟨heir, -, hSome, hMade⟩
    obtain ⟨listener, hListener⟩ := Option.isSome_iff_exists.mp hSome
    exact ⟨heir, listener, hListener, hMade⟩
  · rintro ⟨heir, listener, hListener, hMade⟩
    exact ⟨heir, hSound.live hListener, Option.isSome_of_eq_some hListener, hMade⟩

theorem Carries.of_setListener {network : Network} {session changed : Nat} {listener : Option Connection}
    (hCarries : (network.setListener changed listener).Carries session)
    (hOld : listener.isSome → (network.listeners changed).isSome) : network.Carries session := by
  obtain ⟨heir, new, hNew, hMade⟩ := hCarries
  rw [listeners_setListener] at hNew
  split at hNew
  · subst heir
    obtain ⟨old, hListener⟩ := Option.isSome_iff_exists.mp (hOld (Option.isSome_of_eq_some hNew))
    exact ⟨changed, old, hListener, hMade⟩
  · exact ⟨heir, new, hNew, hMade⟩

theorem Sound.carries_of_createConnection {network : Network} (hSound : network.Sound) {session : Nat}
    {listener : Connection} {madeFor : Option Nat}
    (hCarries : (network.createConnection listener madeFor).Carries session) (hSession : session < network.sessions) :
    network.Carries session ∨ madeFor.getD network.sessions = network.madeFor session := by
  obtain ⟨heir, new, hNew, hMade⟩ := hCarries
  rw [madeFor_createConnection network listener hSession] at hMade
  rw [listeners_createConnection] at hNew
  split at hNew
  · subst heir
    rw [madeFor_createConnection_self] at hMade
    exact Or.inr hMade
  · rw [madeFor_createConnection network listener (hSound.live hNew)] at hMade
    exact Or.inl ⟨heir, new, hNew, hMade⟩

theorem Sound.carries_of_opened {network opened : Network} (hSound : network.Sound) (hOpened : network.Opened opened)
    {session : Nat} (hSession : session < network.sessions) (hCarries : opened.Carries session) :
    session < opened.sessions ∧ network.Carries session := by
  induction hOpened with
  | refl => exact ⟨hSession, hCarries⟩
  | @tail opened hOpened ih =>
    have hEarlier : session < opened.sessions := by
      clear hCarries ih
      induction hOpened with
      | refl => exact hSession
      | tail _ ih => exact Nat.lt_succ_of_lt ih
    have hOpenedSound := hSound.of_opened hOpened
    obtain hOld | hFresh := hOpenedSound.carries_of_createConnection hCarries hEarlier
    · exact ⟨Nat.lt_succ_of_lt hEarlier, (ih hOld).2⟩
    · exact absurd hFresh.symm (Nat.ne_of_lt (hOpenedSound.made hEarlier))

end Network

namespace Controller

variable {controller : Controller} {topic : Topic} {event : Event}

theorem NetworkBecomes.carries {network : Network} (hBecomes : controller.NetworkBecomes event network)
    (hSound : controller.network.Sound) {session : Nat} (hSession : session < controller.sessions)
    (hCarries : network.Carries session) : controller.network.Carries session := by
  cases hBecomes with
  | opened hOpened => exact (hSound.carries_of_opened hOpened hSession hCarries).2
  | subscribed hListener => exact hCarries.of_setListener fun _ => Option.isSome_of_eq_some hListener
  | unsubscribed hConnection | welcomed =>
    refine hCarries.of_setListener fun hSome => ?_
    rw [Option.isSome_map] at hSome
    exact hSome
  | @dropped closed _ _ _ hListener hDropped hOpened =>
    have hEnded : (controller.network.setListener closed none).Sound := hSound.setListener (by rintro _ ⟨⟩)
    have hLeft := (hEnded.clearConnections.carries_of_opened hOpened hSession hCarries).2
    exact Network.Carries.of_setListener hLeft (by rintro ⟨⟩)
  | @handedOver closed listener hListener =>
    have hEnded : (controller.network.setListener closed none).Sound := hSound.setListener (by rintro _ ⟨⟩)
    obtain hOld | hMade := hEnded.clearConnections.carries_of_createConnection hCarries hSession
    · exact Network.Carries.of_setListener hOld (by rintro ⟨⟩)
    · exact ⟨closed, listener, hListener, hMade⟩

end Controller

def Subscription.KeepsID (old new : Subscription) : Prop :=
  new.refCount = old.refCount ∧ (new.subscriptionID = old.subscriptionID ∨ old.refCount = 0 ∧ new.subscriptionID = none)

namespace View

variable (view : View) (request : SubscriptionRequest)

theorem keepsID_retrySubscription : view.entry.KeepsID (view.retrySubscription request).entry := by
  rw [entry_retrySubscription]
  split
  · rename_i hZero
    exact ⟨hZero.symm, Or.inr ⟨hZero, rfl⟩⟩
  · exact ⟨rfl, Or.inl rfl⟩

theorem keepsID_attempt (isRetry : Bool) (viable : Option Nat) :
    view.entry.KeepsID (view.attempt request isRetry viable).entry := by
  cases viable with
  | some session => exact ⟨rfl, Or.inl rfl⟩
  | none => exact (view.begun isRetry).keepsID_retrySubscription request

theorem keepsID_markRequestUnsubscribed : view.entry.KeepsID (view.markRequestUnsubscribed request).entry := by
  rw [markRequestUnsubscribed]
  split
  · rename_i hZero
    exact ⟨hZero.symm, Or.inr ⟨hZero, rfl⟩⟩
  · exact ⟨rfl, Or.inl rfl⟩

theorem keepsID_reset : view.entry.KeepsID view.reset.entry := by
  rw [reset, entry, entry]
  cases view.subscription <;> exact ⟨rfl, Or.inl rfl⟩

end View

namespace Controller

variable {controller : Controller} {topic : Topic} {event : Event}

theorem Becomes.keepsID {view : View} (hBecomes : controller.Becomes topic event view) :
    (controller.view topic).entry.KeepsID view.entry ∨
    (∃ request, event = .subscribe request ∧ view.entry.refCount = (controller.view topic).entry.refCount + 1 ∧
      view.entry.subscriptionID = (controller.view topic).entry.subscriptionID) ∨
    (∃ request, event = .removeRef request ∧ request.topic = topic ∧
      view = (controller.view topic).removeRef request) ∨
    ∃ create subscriptionID, event = .createAnswered create (.success subscriptionID) ∧
      create.request.topic = topic ∧ (controller.listeners create.session).isSome ∧
      view.entry.refCount = (controller.view topic).entry.refCount ∧ view.entry.subscriptionID = some subscriptionID := by
  cases hBecomes with
  | subscribe => exact Or.inr (Or.inl ⟨_, rfl, rfl, rfl⟩)
  | removeRef hTopic => exact Or.inr (Or.inr (Or.inl ⟨_, rfl, hTopic, rfl⟩))
  | @attempt request isRetry posted tasks =>
    exact Or.inl ({ controller.view topic with tasks := tasks }.keepsID_attempt request isRetry _)
  | @retrySubscription request posted tasks =>
    exact Or.inl ({ controller.view topic with tasks := tasks }.keepsID_retrySubscription request)
  | markRequestSubscribed hTopic hListener =>
    exact Or.inr (Or.inr (Or.inr ⟨_, _, rfl, hTopic, Option.isSome_of_eq_some hListener, rfl, rfl⟩))
  | @markRequestUnsubscribed request =>
    exact Or.inl ({ controller.view topic with
      deletes := (controller.view topic).deletes.erase request }.keepsID_markRequestUnsubscribed request)
  | @reset session listener request =>
    have hReset := (controller.view topic).keepsID_reset
    have hAttempt := (controller.view topic).reset.keepsID_attempt request false
      ((controller.network.setListener session none).getViableConnection request.ownerTwitchUserID)
    refine Or.inl ⟨hAttempt.1.trans hReset.1, ?_⟩
    obtain hSame | ⟨hZero, hNone⟩ := hAttempt.2
    · rw [hSame]
      exact hReset.2
    · exact Or.inr ⟨hReset.1 ▸ hZero, hNone⟩
  | _ => exact Or.inl ⟨rfl, Or.inl rfl⟩

end Controller

theorem View.mem_creates_attempt {view : View} {request : SubscriptionRequest} {isRetry : Bool} {viable : Option Nat}
    {create : Create} (hMem : create ∈ (view.attempt request isRetry viable).creates) :
    create ∈ view.creates ∨
      ∃ session, viable = some session ∧ create = ⟨request, session, 0 < view.entry.refCount⟩ := by
  cases viable with
  | none => exact Or.inl hMem
  | some session =>
    obtain hOld | hNew := List.mem_append.mp hMem
    · exact Or.inl hOld
    · exact Or.inr ⟨session, rfl, List.mem_singleton.mp hNew⟩

theorem Network.Sound.getViableConnection_lt {network : Network} (hSound : network.Sound) {owner : QString}
    {session : Nat} (hViable : network.getViableConnection owner = some session) : session < network.sessions :=
  hSound.connected (List.mem_of_find?_eq_some hViable)

namespace Controller

variable {controller : Controller} {topic : Topic} {event : Event}

theorem Becomes.creates {view : View} (hBecomes : controller.Becomes topic event view) {create : Create}
    (hMem : create ∈ view.creates) :
    create ∈ (controller.view topic).creates ∨
    ∃ request session, request.topic = topic ∧
      create = ⟨request, session, 0 < (controller.entry topic).refCount⟩ ∧
      ((∃ isRetry posted, event = .runPosted ∧ controller.posted = .subscribe request isRetry :: posted ∧
          controller.network.getViableConnection request.ownerTwitchUserID = some session) ∨
        ∃ closed listener, event = .closed closed false ∧ controller.listeners closed = some listener ∧
          request ∈ listener.subscriptions ∧
          (controller.network.setListener closed none).getViableConnection request.ownerTwitchUserID =
            some session) := by
  cases hBecomes with
  | @attempt request isRetry posted tasks hTopic hPosted =>
    obtain hOld | ⟨session, hViable, hCreate⟩ := View.mem_creates_attempt hMem
    · exact Or.inl hOld
    · exact Or.inr ⟨request, session, hTopic, hCreate, Or.inl ⟨isRetry, posted, rfl, hPosted, hViable⟩⟩
  | @reset closed listener request hTopic hListener hListed =>
    obtain hOld | ⟨session, hViable, hCreate⟩ := View.mem_creates_attempt hMem
    · exact Or.inl hOld
    · rw [View.refCount_reset] at hCreate
      exact Or.inr ⟨request, session, hTopic, hCreate, Or.inr ⟨closed, listener, rfl, hListener, hListed, hViable⟩⟩
  | ignored | markRequestSubscribed | markRequestFailed | retried => exact Or.inl (List.mem_of_mem_erase hMem)
  | removeRef =>
    rw [View.removeRef] at hMem
    split at hMem
    · exact Or.inl hMem
    · exact Or.inl hMem
  | markRequestUnsubscribed =>
    rw [View.markRequestUnsubscribed] at hMem
    split at hMem
    · exact Or.inl hMem
    · exact Or.inl hMem
  | _ => exact Or.inl hMem

variable (controller)

theorem deletedIDs_step (event : Event) : controller.deletedIDs ⊆ (controller.step event).deletedIDs := by
  have hSame (hIDs : (controller.step event).deletedIDs = controller.deletedIDs) :
      controller.deletedIDs ⊆ (controller.step event).deletedIDs := by
    rw [hIDs]
    exact List.Subset.refl _
  cases event with
  | removeRef request =>
    have hIDs : (controller.step (.removeRef request)).deletedIDs = _ :=
      congrArg Ledger.deletedIDs (ledger_removeRef request controller)
    rw [hIDs]
    dsimp only
    split
    · exact List.Subset.refl _
    · exact List.subset_append_left ..
  | subscribe request => exact hSame (congrArg Ledger.deletedIDs (ledger_subscribe request controller))
  | createAnswered create answer =>
    cases answer with
    | success subscriptionID =>
      exact hSame (congrArg Ledger.deletedIDs (ledger_success controller create subscriptionID))
    | failure error => exact hSame (congrArg Ledger.deletedIDs (ledger_failure controller create error))
  | runPosted => exact hSame (congrArg Ledger.deletedIDs (ledger_runPosted controller))
  | timerExpires topic => exact hSame (congrArg Ledger.deletedIDs (ledger_timerExpires controller topic))
  | deleteAnswered request =>
    exact hSame (congrArg Ledger.deletedIDs (ledger_markRequestUnsubscribed request
      { controller with deletes := controller.deletes.erase request }))
  | sessionWelcome session sessionID => exact hSame rfl
  | closed session hasReconnectURL =>
    exact hSame (congrArg Ledger.deletedIDs (ledger_closed controller session hasReconnectURL))

theorem created_step (event : Event) :
    (controller.step event).created = controller.created ∨
    ∃ create subscriptionID, event = .createAnswered create (.success subscriptionID) ∧
      (controller.step event).created =
        controller.created ++ [⟨subscriptionID, create.request.topic, create.session⟩] := by
  cases event with
  | createAnswered create answer =>
    cases answer with
    | success subscriptionID =>
      exact Or.inr ⟨create, subscriptionID, rfl,
        congrArg Ledger.created (ledger_success controller create subscriptionID)⟩
    | failure error => exact Or.inl (congrArg Ledger.created (ledger_failure controller create error))
  | removeRef request => exact Or.inl (congrArg Ledger.created (ledger_removeRef request controller))
  | subscribe request => exact Or.inl (congrArg Ledger.created (ledger_subscribe request controller))
  | runPosted => exact Or.inl (congrArg Ledger.created (ledger_runPosted controller))
  | timerExpires topic => exact Or.inl (congrArg Ledger.created (ledger_timerExpires controller topic))
  | deleteAnswered request =>
    exact Or.inl (congrArg Ledger.created (ledger_markRequestUnsubscribed request
      { controller with deletes := controller.deletes.erase request }))
  | sessionWelcome session sessionID => exact Or.inl rfl
  | closed session hasReconnectURL =>
    exact Or.inl (congrArg Ledger.created (ledger_closed controller session hasReconnectURL))

end Controller

end Chatterino.EventSub
