import Chatterino.EventSub.Stranding

/-! # The lists of sessions

What a session is subscribed to is kept twice, in the list of its listener and in the entries. They go apart where one
of them is written without the other.
-/

namespace Chatterino.EventSub.Controller

def isListed (topic : Topic) (controller : Controller) : Bool :=
  (List.range controller.sessions).any fun session =>
    (controller.listeners session).any fun listener => listener.isSubscribedTo topic

def isListedElsewhere (topic : Topic) (session : Nat) (controller : Controller) : Bool :=
  (List.range controller.sessions).any fun other => other ≠ session &&
    (controller.listeners other).any fun listener => listener.isSubscribedTo topic

def ListsExact (controller : Controller) : Prop :=
  ∀ session listener, controller.listeners session = some listener → ∀ topic,
    (listener.isSubscribedTo topic ↔ ∃ subscription through, controller.subscriptions topic = some subscription ∧
      subscription.state = .Subscribed ∧ subscription.connection = some through ∧
      controller.madeFor through = controller.madeFor session)

def ListsWanted (controller : Controller) : Prop :=
  ∀ session listener, controller.listeners session = some listener → ∀ topic, listener.isSubscribedTo topic →
    0 < (controller.entry topic).refCount

def OneOwner (controller : Controller) : Prop :=
  ∀ session listener, controller.listeners session = some listener → ∀ request ∈ listener.subscriptions,
    ∀ other ∈ listener.subscriptions, request.ownerTwitchUserID = other.ownerTwitchUserID

def ListsAgree (controller : Controller) : Prop :=
  controller.OneOwner ∧
    (controller.creates = [] → controller.deletes = [] → controller.ListsExact ∧ controller.ListsWanted)

/-- Lists and entries are written together. -/
def WritesBoth (controller : Controller) : Event → Prop
  | .runPosted => ∀ task ∈ controller.posted.head?,
      task ≠ .retrySubscription task.request ∧
        (controller.network.getViableConnection task.request.ownerTwitchUserID).isSome ∨
      controller.isListed task.request.topic = false
  | .createAnswered create (.success _) => ∀ listener ∈ controller.listeners create.session,
      0 < (controller.entry create.request.topic).refCount ∧
      controller.isListedElsewhere create.request.topic create.session = false ∧
      ∀ other ∈ listener.subscriptions, other.ownerTwitchUserID = create.request.ownerTwitchUserID
  | .createAnswered create (.failure error) =>
      error = .Forbidden ∨ error = .NoSession ∨ error = .Forwarded ∨
      controller.isListed create.request.topic = false
  | .deleteAnswered request => controller.isListed request.topic →
      ∀ through ∈ (controller.entry request.topic).connection, (controller.listeners through).isSome
  | _ => True

instance (controller : Controller) : (event : Event) → Decidable (controller.WritesBoth event)
  | .subscribe _ => by dsimp only [WritesBoth]; infer_instance
  | .removeRef _ => inferInstanceAs (Decidable True)
  | .runPosted => by dsimp only [WritesBoth]; infer_instance
  | .timerExpires _ => by dsimp only [WritesBoth]; infer_instance
  | .createAnswered _ (.success _) => by dsimp only [WritesBoth]; infer_instance
  | .createAnswered _ (.failure _) => by dsimp only [WritesBoth]; infer_instance
  | .deleteAnswered _ => by dsimp only [WritesBoth]; infer_instance
  | .sessionWelcome _ _ => inferInstanceAs (Decidable True)
  | .closed _ _ => inferInstanceAs (Decidable True)

variable {controller : Controller} {topic : Topic} {event : Event}

theorem isListed_of_listener (hSound : controller.network.Sound) {session : Nat} {listener : Connection}
    (hListener : controller.listeners session = some listener) (hListed : listener.isSubscribedTo topic) :
    controller.isListed topic := by
  refine List.any_eq_true.mpr ⟨session, List.mem_range.mpr (hSound.live hListener), ?_⟩
  rw [hListener]
  exact hListed

theorem isListedElsewhere_of_listener (hSound : controller.network.Sound) {session other : Nat} {listener : Connection}
    (hListener : controller.listeners other = some listener) (hListed : listener.isSubscribedTo topic)
    (hNe : other ≠ session) : controller.isListedElsewhere topic session := by
  refine List.any_eq_true.mpr ⟨other, List.mem_range.mpr (hSound.live hListener), ?_⟩
  rw [hListener, decide_eq_true hNe]
  exact hListed

structure Listing (controller : Controller) : Prop where
  grounded : controller.Grounded
  listed : ∀ session listener, controller.listeners session = some listener → ∀ topic, listener.isSubscribedTo topic →
    (∃ through, (controller.entry topic).connection = some through ∧
      controller.madeFor through = controller.madeFor session) ∧
    ((controller.entry topic).state = .Subscribed ∨ (controller.view topic).deletes ≠ [])
  held : ∀ topic, (controller.entry topic).state = .Subscribed →
    0 < (controller.entry topic).refCount ∧ (controller.entry topic).subscriptionID ≠ none
  owners : controller.OneOwner

theorem listing_init : Listing {} := by
  constructor
  · exact grounded_init
  · rintro _ _ ⟨⟩
  · rintro _ ⟨⟩
  · rintro _ _ ⟨⟩

theorem Listing.listsExact (h : controller.Listing) (hDeletes : controller.deletes = []) : controller.ListsExact := by
  intro session listener hListener topic
  have hNone : (controller.view topic).deletes = [] := by rw [view, hDeletes, List.filter_nil]
  constructor
  · intro hListed
    obtain ⟨⟨through, hConnection, hMade⟩, hState⟩ := h.listed session listener hListener topic hListed
    obtain hState | hDeleting := hState
    · cases hSubscription : controller.subscriptions topic with
      | none =>
        rw [entry, hSubscription] at hState
        cases hState
      | some subscription =>
        rw [entry_of_eq_some hSubscription] at hState hConnection
        exact ⟨subscription, through, rfl, hState, hConnection, hMade⟩
    · exact absurd hNone hDeleting
  · rintro ⟨subscription, through, hSubscription, hState, hConnection, hMade⟩
    rw [← entry_of_eq_some hSubscription] at hState hConnection
    obtain ⟨other, hOther, heir, heirListener, hHeir, hSame, hTopic⟩ := h.grounded.anchored topic hState
    cases hConnection.symm.trans hOther
    cases h.grounded.sound.unique hHeir hListener (hSame.trans hMade)
    cases hHeir.symm.trans hListener
    exact hTopic

theorem Listing.listsAgree (h : controller.Listing) : controller.ListsAgree := by
  refine ⟨h.owners, fun _ hDeletes => ⟨h.listsExact hDeletes, fun session listener hListener topic hListed => ?_⟩⟩
  obtain ⟨-, hState | hDeleting⟩ := h.listed session listener hListener topic hListed
  · exact (h.held topic hState).1
  · exact absurd (by rw [view, hDeletes, List.filter_nil]) hDeleting

end Chatterino.EventSub.Controller

namespace Chatterino.EventSub

namespace Network

theorem Opened.listed {network opened : Network} (hOpened : network.Opened opened) (hSound : network.Sound)
    {session : Nat} {listener : Connection} (hListener : opened.listeners session = some listener)
    (hNonempty : listener.subscriptions ≠ []) :
    network.listeners session = some listener ∧ opened.madeFor session = network.madeFor session := by
  induction hOpened with
  | refl => exact ⟨hListener, rfl⟩
  | @tail opened hOpened ih =>
    rw [listeners_createConnection] at hListener
    split at hListener
    · cases hListener
      exact absurd rfl hNonempty
    · obtain ⟨hOld, hMade⟩ := ih hListener
      have hLive := (hSound.of_opened hOpened).live hListener
      exact ⟨hOld, (madeFor_createConnection _ _ hLive).trans hMade⟩

theorem Opened.madeFor {network opened : Network} (hOpened : network.Opened opened) {session : Nat}
    (hSession : session < network.sessions) :
    session < opened.sessions ∧ opened.madeFor session = network.madeFor session := by
  induction hOpened with
  | refl => exact ⟨hSession, rfl⟩
  | tail _ ih => exact ⟨Nat.lt_succ_of_lt ih.1, (madeFor_createConnection _ _ ih.1).trans ih.2⟩

end Network

theorem Connection.subscriptions_ne_nil {listener : Connection} {topic : Topic} (hListed : listener.isSubscribedTo topic) :
    listener.subscriptions ≠ [] := by
  obtain ⟨request, hMem, -⟩ := isSubscribedTo_iff.mp hListed
  exact List.ne_nil_of_mem hMem

namespace Controller

variable {controller : Controller} {topic : Topic} {event : Event}

theorem NetworkBecomes.madeFor {network : Network} (hBecomes : controller.NetworkBecomes event network) {session : Nat}
    (hSession : session < controller.sessions) : network.madeFor session = controller.madeFor session := by
  cases hBecomes with
  | opened hOpened | dropped _ _ hOpened => exact (hOpened.madeFor hSession).2
  | handedOver => exact Network.madeFor_createConnection _ _ hSession
  | _ => rfl

theorem Listing.listed_before (h : controller.Listing) (hWrites : controller.WritesBoth event) {network : Network}
    (hBecomes : controller.NetworkBecomes event network) {session : Nat} {listener : Connection}
    (hListener : network.listeners session = some listener) (hListed : listener.isSubscribedTo topic) :
    (∃ earlier old, controller.listeners earlier = some old ∧ old.isSubscribedTo topic ∧
      network.madeFor session = controller.madeFor earlier ∧ controller.KeepsListed topic event) ∨
    ∃ create subscriptionID, event = .createAnswered create (.success subscriptionID) ∧
      create.request.topic = topic ∧ create.session = session ∧ (controller.listeners session).isSome := by
  cases hBecomes with
  | opened hOpened hKept =>
    obtain ⟨hOld, hMade⟩ := hOpened.listed h.grounded.sound hListener (Connection.subscriptions_ne_nil hListed)
    obtain ⟨⟨through, hConnection, -⟩, -⟩ := h.listed session listener hOld topic hListed
    refine Or.inl ⟨session, listener, hOld, hListed, hMade, hKept topic ?_⟩
    rw [hConnection]
    rintro ⟨⟩
  | @subscribed create subscriptionID old hOld =>
    rw [Network.listeners_setListener] at hListener
    split at hListener
    · subst session
      cases hListener
      obtain hBefore | hNew := Connection.isSubscribedTo_markRequestSubscribed.mp hListed
      · exact Or.inl ⟨create.session, old, hOld, hBefore, rfl, trivial⟩
      · exact Or.inr ⟨create, subscriptionID, rfl, hNew, rfl, Option.isSome_of_eq_some hOld⟩
    · exact Or.inl ⟨session, listener, hListener, hListed, rfl, trivial⟩
  | @unsubscribed request through hConnection =>
    rw [Network.listeners_setListener] at hListener
    split at hListener
    · subst session
      obtain ⟨old, hOld, rfl⟩ := Option.map_eq_some_iff.mp hListener
      obtain ⟨hBefore, hOther⟩ := Connection.isSubscribedTo_markRequestUnsubscribed.mp hListed
      exact Or.inl ⟨through, old, hOld, hBefore, rfl, hOther⟩
    · rename_i hNe
      refine Or.inl ⟨session, listener, hListener, hListed, rfl, fun hTopic => hNe ?_⟩
      subst hTopic
      obtain ⟨⟨other, hOther, hMade⟩, -⟩ := h.listed session listener hListener request.topic hListed
      cases hConnection.symm.trans hOther
      obtain ⟨old, hOld⟩ := Option.isSome_iff_exists.mp
        (hWrites (isListed_of_listener h.grounded.sound hListener hListed) through hConnection)
      exact (h.grounded.sound.unique hOld hListener hMade).symm
  | @welcomed welcomed sessionID =>
    rw [Network.listeners_setListener] at hListener
    split at hListener
    · subst session
      obtain ⟨old, hOld, rfl⟩ := Option.map_eq_some_iff.mp hListener
      exact Or.inl ⟨welcomed, old, hOld, hListed, rfl, trivial⟩
    · exact Or.inl ⟨session, listener, hListener, hListed, rfl, trivial⟩
  | @dropped closed hasReconnectURL old _ hClosed hDropped hOpened =>
    have hEnded : (controller.network.setListener closed none).Sound :=
      h.grounded.sound.setListener (by rintro _ ⟨⟩)
    obtain ⟨hOld, hMade⟩ := hOpened.listed hEnded.clearConnections hListener (Connection.subscriptions_ne_nil hListed)
    have hBefore : controller.network.listeners session = some listener ∧ session ≠ closed := by
      rw [Network.clearConnections, Network.listeners_setListener] at hOld
      split at hOld
      · cases hOld
      · rename_i hNe
        exact ⟨hOld, hNe⟩
    refine Or.inl ⟨session, listener, hBefore.1, hListed, hMade, ?_⟩
    cases hasReconnectURL with
    | true => trivial
    | false =>
      intro other hOther hBoth
      obtain ⟨⟨through, hConnection, hFirst⟩, -⟩ := h.listed session listener hBefore.1 topic hListed
      obtain ⟨⟨second, hAgain, hSecond⟩, -⟩ := h.listed closed other hOther topic hBoth
      cases hConnection.symm.trans hAgain
      exact hBefore.2 (h.grounded.sound.unique hBefore.1 hOther (hFirst.symm.trans hSecond))
  | @handedOver closed old hClosed =>
    rw [Network.listeners_createConnection] at hListener
    split at hListener
    · subst session
      cases hListener
      refine Or.inl ⟨closed, listener, hClosed, hListed, ?_, trivial⟩
      exact Network.madeFor_createConnection_self _ _ _
    · have hBefore : controller.network.listeners session = some listener := by
        rw [Network.clearConnections, Network.listeners_setListener] at hListener
        split at hListener
        · cases hListener
        · exact hListener
      exact Or.inl ⟨session, listener, hBefore, hListed,
        Network.madeFor_createConnection _ _ (h.grounded.sound.live hBefore), trivial⟩

theorem Becomes.held (h : controller.Listing) (hWrites : controller.WritesBoth event) {view : View}
    (hBecomes : controller.Becomes topic event view) (hState : view.entry.state = .Subscribed) :
    0 < view.entry.refCount ∧ view.entry.subscriptionID ≠ none := by
  have hOld := h.held topic
  rw [← view_entry] at hOld
  cases hBecomes with
  | kept | timerExpires | ignored | retried => exact hOld hState
  | subscribe =>
    obtain ⟨hBefore, -⟩ := (View.descends_subscribe _ _).state hState
    obtain ⟨hPos, hID⟩ := hOld hBefore
    exact ⟨Int.lt_add_one_of_le hPos.le, hID⟩
  | removeRef =>
    obtain ⟨hBefore, -⟩ := (View.descends_removeRef _ _).state hState
    rw [View.removeRef] at hState ⊢
    split at hState
    · rename_i hMore
      rw [if_pos hMore]
      exact ⟨hMore, (hOld hBefore).2⟩
    · have hUnsubscribing : (if (controller.view topic).entry.subscriptionID.isSome then State.Unsubscribing
          else (controller.view topic).entry.state) = .Subscribed := hState
      rw [if_pos (Option.isSome_iff_ne_none.mpr (hOld hBefore).2)] at hUnsubscribing
      cases hUnsubscribing
  | @attempt request isRetry posted tasks hTopic hPosted =>
    cases hViable : controller.network.getViableConnection request.ownerTwitchUserID with
    | some session =>
      rw [hViable] at hState
      exact hOld hState
    | none =>
      rw [hViable] at hState
      exact absurd hState (View.state_retrySubscription _ request)
  | retrySubscription => exact absurd hState (View.state_retrySubscription _ _)
  | @markRequestSubscribed create subscriptionID listener hTopic hListener =>
    subst hTopic
    exact ⟨(hWrites listener hListener).1, by rintro ⟨⟩⟩
  | markRequestFailed => cases hState
  | markRequestUnsubscribed =>
    rw [View.markRequestUnsubscribed] at hState
    split at hState <;> cases hState
  | reset => exact absurd ((View.descends_attempt _ _ _ _).state hState).1 (View.state_reset _)

theorem Becomes.listed (hWrites : controller.WritesBoth event) {view : View}
    (hBecomes : controller.Becomes topic event view) (hKept : controller.KeepsListed topic event)
    (hListed : controller.isListed topic)
    (hState : (controller.entry topic).state = .Subscribed ∨ (controller.view topic).deletes ≠ []) :
    view.entry.connection = (controller.entry topic).connection ∧
      (view.entry.state = .Subscribed ∨ view.deletes ≠ []) ∨
    ∃ create subscriptionID, event = .createAnswered create (.success subscriptionID) ∧
      create.request.topic = topic ∧ (controller.listeners create.session).isSome ∧
      view.entry.connection = some create.session ∧ view.entry.state = .Subscribed := by
  rw [← view_entry] at hState ⊢
  cases hBecomes with
  | kept | timerExpires | ignored | retried => exact Or.inl ⟨rfl, hState⟩
  | subscribe =>
    refine Or.inl ⟨rfl, ?_⟩
    obtain hSubscribed | hDeleting := hState
    · have hNeeds : (controller.view topic).needsToSubscribe = false := by
        rw [View.needsToSubscribe, hSubscribed]
        rfl
      have hSame : (if (controller.view topic).needsToSubscribe then State.Subscribing
          else (controller.view topic).entry.state) = .Subscribed := by
        rw [hNeeds, hSubscribed]
        rfl
      exact Or.inl hSame
    · exact Or.inr hDeleting
  | removeRef =>
    refine Or.inl ?_
    rw [View.removeRef]
    split
    · exact ⟨rfl, hState⟩
    · refine ⟨rfl, ?_⟩
      cases hID : (controller.view topic).entry.subscriptionID with
      | none => exact hState
      | some id => exact Or.inr (List.append_ne_nil_of_right_ne_nil _ (List.cons_ne_nil _ _))
  | @attempt request isRetry posted tasks hTopic hPosted =>
    subst hTopic
    cases hViable : controller.network.getViableConnection request.ownerTwitchUserID with
    | some session => exact Or.inl ⟨rfl, hState⟩
    | none =>
      obtain ⟨-, hSome⟩ | hUnlisted := hWrites (.subscribe request isRetry) (by rw [hPosted]; rfl)
      · rw [Task.request, hViable] at hSome
        cases hSome
      · rw [Task.request, hListed] at hUnlisted
        cases hUnlisted
  | @retrySubscription request posted tasks hTopic hPosted =>
    subst hTopic
    obtain ⟨hNe, -⟩ | hUnlisted := hWrites (.retrySubscription request) (by rw [hPosted]; rfl)
    · exact absurd rfl hNe
    · rw [Task.request, hListed] at hUnlisted
      cases hUnlisted
  | markRequestSubscribed hTopic hListener =>
    exact Or.inr ⟨_, _, rfl, hTopic, Option.isSome_of_eq_some hListener, rfl, rfl⟩
  | @markRequestFailed create error hTopic hError =>
    subst hTopic
    obtain hForbidden | hNoSession | hForwarded | hUnlisted := hWrites
    · exact absurd hForbidden hError.1
    · exact absurd hNoSession hError.2.1
    · exact absurd hForwarded hError.2.2
    · rw [hListed] at hUnlisted
      cases hUnlisted
  | markRequestUnsubscribed hTopic => exact absurd hTopic hKept
  | reset hTopic hListener hMem =>
    exact absurd (Connection.isSubscribedTo_iff.mpr ⟨_, hMem, hTopic⟩) (hKept _ hListener)

theorem NetworkBecomes.lists {network : Network} (hBecomes : controller.NetworkBecomes event network)
    (hSound : controller.network.Sound) {session : Nat} {listener : Connection}
    (hListener : network.listeners session = some listener) (hNonempty : listener.subscriptions ≠ []) :
    (∃ earlier old, controller.listeners earlier = some old ∧ listener.subscriptions ⊆ old.subscriptions) ∨
    ∃ create subscriptionID old, event = .createAnswered create (.success subscriptionID) ∧
      controller.listeners create.session = some old ∧ listener = old.markRequestSubscribed create.request := by
  cases hBecomes with
  | opened hOpened =>
    obtain ⟨hOld, -⟩ := hOpened.listed hSound hListener hNonempty
    exact Or.inl ⟨session, listener, hOld, List.Subset.refl _⟩
  | @subscribed create subscriptionID old hOld =>
    rw [Network.listeners_setListener] at hListener
    split at hListener
    · cases hListener
      exact Or.inr ⟨create, subscriptionID, old, rfl, hOld, rfl⟩
    · exact Or.inl ⟨session, listener, hListener, List.Subset.refl _⟩
  | unsubscribed =>
    rw [Network.listeners_setListener] at hListener
    split at hListener
    · obtain ⟨old, hOld, rfl⟩ := Option.map_eq_some_iff.mp hListener
      exact Or.inl ⟨_, old, hOld, List.filter_subset_self _⟩
    · exact Or.inl ⟨session, listener, hListener, List.Subset.refl _⟩
  | welcomed =>
    rw [Network.listeners_setListener] at hListener
    split at hListener
    · obtain ⟨old, hOld, rfl⟩ := Option.map_eq_some_iff.mp hListener
      exact Or.inl ⟨_, old, hOld, List.Subset.refl _⟩
    · exact Or.inl ⟨session, listener, hListener, List.Subset.refl _⟩
  | @dropped closed _ _ _ _ _ hOpened =>
    have hEnded : (controller.network.setListener closed none).Sound := hSound.setListener (by rintro _ ⟨⟩)
    obtain ⟨hOld, -⟩ := hOpened.listed hEnded.clearConnections hListener hNonempty
    rw [Network.clearConnections, Network.listeners_setListener] at hOld
    split at hOld
    · cases hOld
    · exact Or.inl ⟨session, listener, hOld, List.Subset.refl _⟩
  | @handedOver closed old hClosed =>
    rw [Network.listeners_createConnection] at hListener
    split at hListener
    · cases hListener
      exact Or.inl ⟨closed, listener, hClosed, List.Subset.refl _⟩
    · rw [Network.clearConnections, Network.listeners_setListener] at hListener
      split at hListener
      · cases hListener
      · exact Or.inl ⟨session, listener, hListener, List.Subset.refl _⟩

theorem OneOwner.becomes (h : controller.OneOwner) (hWrites : controller.WritesBoth event) {network : Network}
    (hBecomes : controller.NetworkBecomes event network) (hSound : controller.network.Sound) {session : Nat}
    {listener : Connection} (hListener : network.listeners session = some listener) :
    ∀ request ∈ listener.subscriptions, ∀ other ∈ listener.subscriptions,
      request.ownerTwitchUserID = other.ownerTwitchUserID := by
  intro request hRequest other hOther
  obtain ⟨earlier, old, hOld, hSubset⟩ | ⟨create, subscriptionID, old, rfl, hOld, rfl⟩ :=
    hBecomes.lists hSound hListener (List.ne_nil_of_mem hRequest)
  · exact h earlier old hOld request (hSubset hRequest) other (hSubset hOther)
  · have hMarked : ∀ third ∈ (old.markRequestSubscribed create.request).subscriptions,
        third.ownerTwitchUserID = create.request.ownerTwitchUserID := by
      intro third hThird
      have hOwner := (hWrites old hOld).2.2 third
      rw [Connection.markRequestSubscribed] at hThird
      dsimp only at hThird
      split at hThird
      · exact hOwner hThird
      · obtain rfl | hMem := List.mem_cons.mp hThird
        · rfl
        · exact hOwner hMem
    exact (hMarked request hRequest).trans (hMarked other hOther).symm

theorem Listing.step (h : controller.Listing) (hWrites : controller.WritesBoth event) :
    (controller.step event).Listing where
  grounded := h.grounded.step event
  held topic hState := (h.grounded.becomes event topic).held h hWrites hState
  owners session listener hListener := h.owners.becomes hWrites (network_step event controller) h.grounded.sound hListener
  listed session listener hListener topic hListed := by
    have hNetwork := network_step event controller
    obtain ⟨earlier, old, hOld, hBefore, hMade, hKept⟩ | ⟨create, subscriptionID, rfl, rfl, rfl, hSome⟩ :=
      h.listed_before hWrites hNetwork hListener hListed
    · obtain ⟨⟨through, hConnection, hThrough⟩, hState⟩ := h.listed earlier old hOld topic hBefore
      have hIsListed := isListed_of_listener h.grounded.sound hOld hBefore
      have hLt := h.grounded.connections topic through hConnection
      obtain ⟨hSame, hNew⟩ | ⟨create, subscriptionID, rfl, rfl, hSome, hNew, hSubscribed⟩ :=
        (h.grounded.becomes event topic).listed hWrites hKept hIsListed hState
      · exact ⟨⟨through, hSame.trans hConnection, ((hNetwork.madeFor hLt).trans hThrough).trans hMade.symm⟩, hNew⟩
      · obtain ⟨owner, hOwner⟩ := Option.isSome_iff_exists.mp hSome
        have hHere : earlier = create.session := by
          by_contra hNe
          have hElsewhere := isListedElsewhere_of_listener h.grounded.sound hOld hBefore hNe
          rw [(hWrites owner hOwner).2.1] at hElsewhere
          cases hElsewhere
        subst hHere
        exact ⟨⟨create.session, hNew, (hNetwork.madeFor (h.grounded.sound.live hOwner)).trans hMade.symm⟩,
          Or.inl hSubscribed⟩
    · obtain ⟨owner, hOwner⟩ := Option.isSome_iff_exists.mp hSome
      have hView := view_markRequestSubscribed create.request
        { controller with creates := controller.creates.erase create } subscriptionID hOwner
      have hConnection := congrArg (fun view : View => view.entry.connection) hView
      have hState := congrArg (fun view : View => view.entry.state) hView
      exact ⟨⟨create.session, hConnection, rfl⟩, Or.inl hState⟩

/-- The lists are exact over a run that writes lists and entries together. -/
theorem listsAgree_of_run (events : List Event) (hWrites : Lib.AllSteps step WritesBoth {} events) {reached : List Event}
    (hPrefix : reached <+: events) : (reached.foldl step {}).ListsAgree :=
  (hWrites.invariant_reached hPrefix listing_init fun _ _ h hStep => h.step hStep).listsAgree

def movedRun : List Event := subscribedRun ++ [.closed 0 true, .sessionWelcome 1 (QString.lit "t")]

theorem listsAgree_of_run_movedRun : (movedRun.foldl step {}).ListsAgree :=
  listsAgree_of_run movedRun (by decide) List.prefix_rfl

def movedAndReleased : List Event := movedRun ++ [.removeRef banTopic, .deleteAnswered banTopic]

/-- The listener is looked for at the session that was left. -/
theorem not_listsAgree_movedAndReleased :
    ¬∀ events : List Event, Lib.AllSteps step Occurs {} events → (events.foldl step {}).ListsAgree := by
  intro hAll
  have hExact := ((hAll movedAndReleased (by decide)).2 (by decide +kernel) (by decide +kernel)).1
  have hListed : ((movedAndReleased.foldl step {}).listeners 1).any fun listener =>
      listener.isSubscribedTo banTopic.topic := by decide
  obtain ⟨listener, hListener, hTopic⟩ := (Option.any_eq_true _ _).mp hListed
  obtain ⟨subscription, through, hSubscription, -⟩ := (hExact 1 listener hListener banTopic.topic).mp hTopic
  have hNone : (movedAndReleased.foldl step {}).subscriptions banTopic.topic = none := by decide
  cases hNone.symm.trans hSubscription

end Controller

end Chatterino.EventSub
