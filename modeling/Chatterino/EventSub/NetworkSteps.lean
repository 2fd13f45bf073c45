import Chatterino.EventSub.Views
import Mathlib.Data.List.Find

/-! # Sessions and hand-overs

A reconnect URL hands the listener of a session over to a new one, so what was subscribed to on the old session
goes on. Sessions that a listener went through were made for the same one, and one of them at most has it.
-/

namespace Chatterino.EventSub

theorem Connection.isSubscribedTo_iff {topic : Topic} {listener : Connection} :
    listener.isSubscribedTo topic ↔ ∃ request ∈ listener.subscriptions, request.topic = topic := by
  simp [isSubscribedTo]

structure Network where
  sessions : Nat
  listeners : Nat → Option Connection
  madeFor : Nat → Nat
  connections : List Nat

namespace Network

def Carries (session : Nat) (network : Network) : Prop :=
  ∃ heir listener, network.listeners heir = some listener ∧ network.madeFor heir = network.madeFor session

def CarriesTopic (session : Nat) (topic : Topic) (network : Network) : Prop :=
  ∃ heir listener, network.listeners heir = some listener ∧ network.madeFor heir = network.madeFor session ∧
    listener.isSubscribedTo topic

theorem CarriesTopic.carries {network : Network} {session : Nat} {topic : Topic}
    (hCarries : network.CarriesTopic session topic) : network.Carries session := by
  obtain ⟨heir, listener, hListener, hMade, -⟩ := hCarries
  exact ⟨heir, listener, hListener, hMade⟩

def createConnection (listener : Connection) (madeFor : Option Nat) (network : Network) : Network where
  sessions := network.sessions + 1
  listeners := Function.update network.listeners network.sessions (some listener)
  madeFor := Function.update network.madeFor network.sessions (madeFor.getD network.sessions)
  connections := network.connections ++ [network.sessions]

def setListener (session : Nat) (listener : Option Connection) (network : Network) : Network :=
  { network with listeners := Function.update network.listeners session listener }

def clearConnections (network : Network) : Network :=
  { network with connections := network.connections.filter fun session => (network.listeners session).isSome }

def getViableConnection (ownerTwitchUserID : QString) (network : Network) : Option Nat :=
  network.connections.find? fun session => (network.listeners session).any fun listener =>
    !listener.sessionID.isEmpty && listener.canHandleSubscriptionFrom ownerTwitchUserID

structure Sound (network : Network) : Prop where
  live : ∀ {session listener}, network.listeners session = some listener → session < network.sessions
  made : ∀ {session}, session < network.sessions → network.madeFor session < network.sessions
  unique : ∀ {session other listener otherListener}, network.listeners session = some listener →
    network.listeners other = some otherListener → network.madeFor session = network.madeFor other → session = other
  nodup : ∀ {session listener}, network.listeners session = some listener →
    (listener.subscriptions.map SubscriptionRequest.topic).Nodup
  connected : ∀ {session}, session ∈ network.connections → session < network.sessions

section Lookups

variable (network : Network)

theorem listeners_createConnection (listener : Connection) (madeFor : Option Nat) (session : Nat) :
    (network.createConnection listener madeFor).listeners session =
      if session = network.sessions then some listener else network.listeners session := by
  simp [createConnection, Function.update_apply]

theorem madeFor_createConnection (listener : Connection) {madeFor : Option Nat} {session : Nat}
    (hSession : session < network.sessions) :
    (network.createConnection listener madeFor).madeFor session = network.madeFor session := by
  simp [createConnection, Function.update_of_ne (Nat.ne_of_lt hSession)]

theorem madeFor_createConnection_self (listener : Connection) (madeFor : Option Nat) :
    (network.createConnection listener madeFor).madeFor network.sessions = madeFor.getD network.sessions := by
  simp [createConnection]

theorem listeners_setListener (session : Nat) (listener : Option Connection) (other : Nat) :
    (network.setListener session listener).listeners other =
      if other = session then listener else network.listeners other := by
  simp [setListener, Function.update_apply]

end Lookups

namespace Sound

variable {network : Network} (hSound : network.Sound)

include hSound

theorem setListener {session : Nat} {listener : Option Connection}
    (hLive : ∀ new ∈ listener, (network.listeners session).isSome ∧
      (new.subscriptions.map SubscriptionRequest.topic).Nodup) :
    (network.setListener session listener).Sound := by
  have hOld : ∀ {other otherListener}, (network.setListener session listener).listeners other = some otherListener →
      ∃ old, network.listeners other = some old := by
    intro other otherListener hOther
    rw [listeners_setListener] at hOther
    split at hOther
    · subst session listener
      exact Option.isSome_iff_exists.mp (hLive otherListener rfl).1
    · exact ⟨otherListener, hOther⟩
  constructor
  · intro other otherListener hOther
    obtain ⟨old, hOldListener⟩ := hOld hOther
    exact hSound.live hOldListener
  · exact hSound.made
  · intro other third otherListener thirdListener hOther hThird hMade
    obtain ⟨old, hOldListener⟩ := hOld hOther
    obtain ⟨thirdOld, hThirdOld⟩ := hOld hThird
    exact hSound.unique hOldListener hThirdOld hMade
  · intro other otherListener hOther
    rw [listeners_setListener] at hOther
    split at hOther
    · exact (hLive otherListener hOther).2
    · exact hSound.nodup hOther
  · exact hSound.connected

theorem clearConnections : network.clearConnections.Sound :=
  ⟨hSound.live, hSound.made, hSound.unique, hSound.nodup,
    fun hSession => hSound.connected (List.mem_filter.mp hSession).1⟩

theorem createConnection {listener : Connection} {madeFor : Option Nat}
    (hNodup : (listener.subscriptions.map SubscriptionRequest.topic).Nodup)
    (hMade : ∀ root ∈ madeFor, root < network.sessions ∧
      ∀ {session old}, network.listeners session = some old → network.madeFor session ≠ root) :
    (network.createConnection listener madeFor).Sound := by
  have hRoot : madeFor.getD network.sessions ≤ network.sessions := by
    cases madeFor with
    | none => exact Nat.le_refl _
    | some root => exact Nat.le_of_lt (hMade root rfl).1
  have hNew : ∀ {session old}, network.listeners session = some old →
      network.madeFor session ≠ madeFor.getD network.sessions := by
    intro session old hOld
    cases madeFor with
    | none => exact Nat.ne_of_lt (hSound.made (hSound.live hOld))
    | some root => exact (hMade root rfl).2 hOld
  constructor
  · intro session other hOther
    rw [listeners_createConnection] at hOther
    split at hOther
    · subst session
      exact Nat.lt_succ_self _
    · exact Nat.lt_succ_of_lt (hSound.live hOther)
  · intro session hSession
    obtain hOld | rfl := Nat.lt_succ_iff_lt_or_eq.mp hSession
    · rw [madeFor_createConnection network listener hOld]
      exact Nat.lt_succ_of_lt (hSound.made hOld)
    · rw [madeFor_createConnection_self]
      exact Nat.lt_succ_of_le hRoot
  · intro session other sessionListener otherListener hSession hOther hSame
    rw [listeners_createConnection] at hSession hOther
    split at hSession <;> split at hOther
    · omega
    · subst session
      rw [madeFor_createConnection_self, madeFor_createConnection network listener (hSound.live hOther)] at hSame
      exact absurd hSame.symm (hNew hOther)
    · subst other
      rw [madeFor_createConnection_self, madeFor_createConnection network listener (hSound.live hSession)] at hSame
      exact absurd hSame (hNew hSession)
    · rw [madeFor_createConnection network listener (hSound.live hSession),
        madeFor_createConnection network listener (hSound.live hOther)] at hSame
      exact hSound.unique hSession hOther hSame
  · intro session other hOther
    rw [listeners_createConnection] at hOther
    split at hOther
    · cases hOther
      exact hNodup
    · exact hSound.nodup hOther
  · intro session hSession
    obtain hOld | hNew := List.mem_append.mp hSession
    · exact Nat.lt_succ_of_lt (hSound.connected hOld)
    · rw [List.mem_singleton.mp hNew]
      exact Nat.lt_succ_self _

theorem carriesTopic_createConnection {listener : Connection} {madeFor : Option Nat} {session : Nat} {topic : Topic}
    (hSession : session < network.sessions) (hCarries : network.CarriesTopic session topic) :
    (network.createConnection listener madeFor).CarriesTopic session topic := by
  obtain ⟨heir, heirListener, hListener, hMade, hTopic⟩ := hCarries
  have hHeir := hSound.live hListener
  refine ⟨heir, heirListener, ?_, ?_, hTopic⟩
  · rw [listeners_createConnection, if_neg (Nat.ne_of_lt hHeir), hListener]
  · rw [madeFor_createConnection network listener hHeir, madeFor_createConnection network listener hSession, hMade]

theorem getViableConnection_createConnection (madeFor : Option Nat) (ownerTwitchUserID : QString) :
    (network.createConnection {} madeFor).getViableConnection ownerTwitchUserID =
      network.getViableConnection ownerTwitchUserID := by
  have hOld : ∀ session ∈ network.connections,
      (network.createConnection {} madeFor).listeners session = network.listeners session := by
    intro session hSession
    rw [listeners_createConnection, if_neg (Nat.ne_of_lt (hSound.connected hSession))]
  have hNew : (network.createConnection {} madeFor).listeners network.sessions = some {} := by
    rw [listeners_createConnection, if_pos rfl]
  have hConnections : (network.createConnection {} madeFor).connections = network.connections ++ [network.sessions] :=
    rfl
  rw [getViableConnection, hConnections, List.find?_append, List.find?_singleton, hNew,
    List.find?_congr fun session hSession => by rw [hOld session hSession]]
  simp [getViableConnection]

end Sound

theorem getViableConnection_clearConnections (network : Network) (ownerTwitchUserID : QString) :
    network.clearConnections.getViableConnection ownerTwitchUserID =
      network.getViableConnection ownerTwitchUserID := by
  rw [getViableConnection, clearConnections, List.find?_filter, getViableConnection]
  congr 1
  funext session
  cases network.listeners session with
  | none => simp
  | some listener => simp only [Option.isSome_some, true_and, Bool.decide_eq_true]

end Network

namespace Controller

def network (controller : Controller) : Network where
  sessions := controller.sessions
  listeners := controller.listeners
  madeFor := controller.madeFor
  connections := controller.connections

end Controller

inductive Network.Opened (network : Network) : Network → Prop
  | refl : Opened network network
  | tail {opened : Network} (hOpened : Opened network opened) : Opened network (opened.createConnection {} none)

namespace Controller

section Functions

variable (request : SubscriptionRequest) (controller : Controller)

theorem network_subscribe : (controller.subscribe request).network = controller.network := by
  simp only [subscribe]
  split <;> rfl

theorem network_removeRef : (controller.removeRef request).network = controller.network := by
  simp only [removeRef]
  split
  · rfl
  · split <;> rfl

theorem network_retrySubscription : (controller.retrySubscription request).network = controller.network := by
  simp only [retrySubscription]
  split <;> rfl

theorem network_timerExpires (topic : Topic) : (controller.timerExpires topic).network = controller.network := by
  rw [timerExpires]
  split
  · rfl
  · split <;> rfl

theorem network_attempt (isRetry : Bool) :
    controller.network.Opened (controller.attempt request isRetry).network := by
  obtain ⟨session, -, hEq⟩ | ⟨-, connected, rfl | rfl, hEq⟩ := attempt_cases request isRetry controller
  · rw [hEq]
    exact .refl
  · rw [hEq, network_retrySubscription]
    exact .refl
  · rw [hEq, network_retrySubscription]
    exact .tail .refl

theorem network_markRequestSubscribed {session : Nat} {listener : Connection} (subscriptionID : Nat)
    (hListener : controller.listeners session = some listener) :
    (controller.markRequestSubscribed request session subscriptionID).network =
      controller.network.setListener session (some (listener.markRequestSubscribed request)) := by
  rw [markRequestSubscribed, hListener]
  rfl

theorem network_markRequestUnsubscribed_of_none (hConnection : (controller.entry request.topic).connection = none) :
    (controller.markRequestUnsubscribed request).network = controller.network := by
  simp only [markRequestUnsubscribed, hConnection]
  split <;> rfl

theorem network_markRequestUnsubscribed {session : Nat}
    (hConnection : (controller.entry request.topic).connection = some session) :
    (controller.markRequestUnsubscribed request).network =
      controller.network.setListener session
        ((controller.listeners session).map (Connection.markRequestUnsubscribed request)) := by
  simp only [markRequestUnsubscribed, hConnection]
  split <;> rfl

end Functions

theorem Network.Opened.trans {network opened other : Network} (hOpened : network.Opened opened)
    (hOther : opened.Opened other) : network.Opened other := by
  induction hOther with
  | refl => exact hOpened
  | tail _ ih => exact ih.tail

theorem network_foldl_attempt (subs : List SubscriptionRequest) (controller : Controller) :
    controller.network.Opened (subs.foldl (fun controller sub => controller.attempt sub false) controller).network := by
  induction subs generalizing controller with
  | nil => exact .refl
  | cons sub subs ih => exact Network.Opened.trans (network_attempt sub controller false) (ih _)

theorem network_run (task : Task) (controller : Controller) :
    controller.network.Opened (controller.run task).network := by
  cases task with
  | subscribe request isRetry => exact network_attempt request controller isRetry
  | retrySubscription request =>
    rw [run, network_retrySubscription]
    exact .refl

def KeepsListed (controller : Controller) (topic : Topic) : Event → Prop
  | .deleteAnswered request => request.topic ≠ topic
  | .closed session false => ∀ listener, controller.listeners session = some listener → ¬listener.isSubscribedTo topic
  | _ => True

inductive NetworkBecomes (controller : Controller) : Event → Network → Prop
  | opened {event : Event} {network : Network} (hOpened : controller.network.Opened network)
      (hKept : ∀ topic, (controller.entry topic).connection ≠ none → controller.KeepsListed topic event) :
      NetworkBecomes controller event network
  | subscribed {create : Create} {subscriptionID : Nat} {listener : Connection}
      (hListener : controller.listeners create.session = some listener) :
      NetworkBecomes controller (.createAnswered create (.success subscriptionID))
        (controller.network.setListener create.session (some (listener.markRequestSubscribed create.request)))
  | unsubscribed {request : SubscriptionRequest} {session : Nat}
      (hConnection : (controller.entry request.topic).connection = some session) :
      NetworkBecomes controller (.deleteAnswered request)
        (controller.network.setListener session
          ((controller.listeners session).map (Connection.markRequestUnsubscribed request)))
  | welcomed {session : Nat} {sessionID : QString} :
      NetworkBecomes controller (.sessionWelcome session sessionID)
        (controller.network.setListener session
          ((controller.listeners session).map fun listener => { listener with sessionID }))
  | dropped {session : Nat} {hasReconnectURL : Bool} {listener : Connection} {network : Network}
      (hListener : controller.listeners session = some listener)
      (hDropped : listener.subscriptions = [] ∨ hasReconnectURL = false)
      (hOpened : (controller.network.setListener session none).clearConnections.Opened network) :
      NetworkBecomes controller (.closed session hasReconnectURL) network
  | handedOver {session : Nat} {listener : Connection} (hListener : controller.listeners session = some listener) :
      NetworkBecomes controller (.closed session true)
        ((controller.network.setListener session none).clearConnections.createConnection listener
          (some (controller.madeFor session)))

theorem network_createAnswered (create : Create) (answer : CreateAnswer) (controller : Controller) :
    controller.NetworkBecomes (.createAnswered create answer) (controller.createAnswered create answer).network := by
  cases answer with
  | failure error =>
    refine .opened ?_ fun _ _ => trivial
    cases error <;> exact .refl
  | success subscriptionID =>
    cases hListener : controller.listeners create.session with
    | none =>
      have hKept : (controller.createAnswered create (.success subscriptionID)).network = controller.network := by
        simp only [createAnswered, markRequestSubscribed, hListener]
        rfl
      rw [hKept]
      exact .opened .refl fun _ _ => trivial
    | some listener =>
      have hMarked : (controller.createAnswered create (.success subscriptionID)).network =
          controller.network.setListener create.session (some (listener.markRequestSubscribed create.request)) :=
        network_markRequestSubscribed create.request { controller with creates := controller.creates.erase create }
          subscriptionID hListener
      rw [hMarked]
      exact .subscribed hListener

theorem network_deleteAnswered (request : SubscriptionRequest) (controller : Controller) :
    controller.NetworkBecomes (.deleteAnswered request) (controller.deleteAnswered request).network := by
  cases hConnection : (controller.entry request.topic).connection with
  | none =>
    have hKept : (controller.deleteAnswered request).network = controller.network :=
      network_markRequestUnsubscribed_of_none request
        { controller with deletes := controller.deletes.erase request } hConnection
    rw [hKept]
    refine .opened .refl fun topic hTopic hSame => ?_
    rw [← hSame, hConnection] at hTopic
    exact hTopic rfl
  | some session =>
    have hMarked : (controller.deleteAnswered request).network =
        controller.network.setListener session
          ((controller.listeners session).map (Connection.markRequestUnsubscribed request)) :=
      network_markRequestUnsubscribed request
        { controller with deletes := controller.deletes.erase request } hConnection
    rw [hMarked]
    exact .unsubscribed hConnection

theorem network_closed (session : Nat) (hasReconnectURL : Bool) (controller : Controller) :
    controller.NetworkBecomes (.closed session hasReconnectURL) (controller.closed session hasReconnectURL).network := by
  cases hListener : controller.listeners session with
  | none =>
    simp only [closed, hListener]
    refine .opened .refl fun topic _ => ?_
    cases hasReconnectURL with
    | true => trivial
    | false => exact fun listener hSome => by cases hListener.symm.trans hSome
  | some listener =>
    simp only [closed, hListener, reconnectConnection]
    split
    · rename_i hEmpty
      exact .dropped hListener (Or.inl (List.isEmpty_iff.mp hEmpty)) .refl
    · split
      · rename_i hURL
        subst hURL
        exact .handedOver hListener
      · rename_i hURL
        exact .dropped hListener (Or.inr (Bool.eq_false_iff.mpr hURL))
          (network_foldl_attempt listener.subscriptions
            ((controller.setListener session none).clearConnections.resetSubscriptions listener.subscriptions))

theorem network_step (event : Event) (controller : Controller) :
    controller.NetworkBecomes event (controller.step event).network := by
  cases event with
  | subscribe request =>
    rw [step, network_subscribe]
    exact .opened .refl fun _ _ => trivial
  | removeRef request =>
    rw [step, network_removeRef]
    exact .opened .refl fun _ _ => trivial
  | runPosted =>
    refine .opened ?_ fun _ _ => trivial
    rw [step, runPosted]
    split
    · exact .refl
    · rename_i task posted _
      exact network_run task { controller with posted := posted }
  | timerExpires topic =>
    rw [step, network_timerExpires]
    exact .opened .refl fun _ _ => trivial
  | createAnswered create answer => exact network_createAnswered create answer controller
  | deleteAnswered request => exact network_deleteAnswered request controller
  | sessionWelcome session sessionID => exact .welcomed
  | closed session hasReconnectURL => exact network_closed session hasReconnectURL controller

end Controller

end Chatterino.EventSub
