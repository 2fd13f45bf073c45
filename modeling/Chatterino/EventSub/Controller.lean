import Chatterino.Qt.QString

/-! # Subscriptions of EventSub

A topic is subscribed to on a session while somebody holds a handle of it. Subscribing and unsubscribing are
requests whose answers come later, and a subscription that cannot be made is tried again by a timer. When a
session closes, its listener goes on with a new one if there is a reconnect URL, or its topics are subscribed to
again. A function runs to its end before another one starts.
-/

namespace Chatterino.EventSub

structure SubscriptionRequest where
  subscriptionType : QString
  subscriptionVersion : QString
  ownerTwitchUserID : QString
  conditions : List (QString × QString) := []
deriving DecidableEq

abbrev Topic := QString × QString × List (QString × QString)

def SubscriptionRequest.topic (request : SubscriptionRequest) : Topic :=
  (request.subscriptionType, request.subscriptionVersion, request.conditions)

structure Connection where
  /-- Empty until the server's welcome. -/
  sessionID : QString := []
  twitchUserID : QString := []
  subscriptions : List SubscriptionRequest := []

namespace Connection

def isSubscribedTo (topic : Topic) (listener : Connection) : Bool :=
  listener.subscriptions.any fun request => request.topic = topic

def markRequestSubscribed (request : SubscriptionRequest) (listener : Connection) : Connection :=
  { listener with
    twitchUserID := request.ownerTwitchUserID
    subscriptions :=
      if listener.isSubscribedTo request.topic then listener.subscriptions else request :: listener.subscriptions }

def markRequestUnsubscribed (request : SubscriptionRequest) (listener : Connection) : Connection :=
  let subscriptions := listener.subscriptions.filter fun other => other.topic ≠ request.topic
  { listener with
    twitchUserID := if subscriptions.isEmpty then [] else listener.twitchUserID
    subscriptions := subscriptions }

def canHandleSubscriptionFrom (otherTwitchUserID : QString) (listener : Connection) : Bool :=
  listener.twitchUserID.isEmpty || listener.twitchUserID = otherTwitchUserID

end Connection

inductive State where
  | Unsubscribed
  | Failed
  | Subscribing
  | Retrying
  | Subscribed
  | Unsubscribing
deriving DecidableEq

/-- A timer that has expired cannot be cancelled any more, since its handler waits to run. -/
structure RetryTimer where
  request : SubscriptionRequest
  expired : Bool := false
deriving DecidableEq

structure Subscription where
  state : State := .Unsubscribed
  refCount : Int := 0
  connection : Option Nat := none
  /-- Empty IDs are none. -/
  subscriptionID : Option Nat := none
  retryTimer : Option RetryTimer := none
deriving DecidableEq

inductive Task where
  | subscribe (request : SubscriptionRequest) (isRetry : Bool)
  | retrySubscription (request : SubscriptionRequest)
deriving DecidableEq

def Task.request : Task → SubscriptionRequest
  | subscribe request _ => request
  | retrySubscription request => request

/-- A request to create a subscription, and whether its topic had references when it was issued. -/
structure Create where
  request : SubscriptionRequest
  session : Nat
  wanted : Bool
deriving DecidableEq

structure Created where
  subscriptionID : Nat
  topic : Topic
  session : Nat
deriving DecidableEq

structure Controller where
  subscriptions : Topic → Option Subscription := fun _ => none
  posted : List Task := []
  creates : List Create := []
  deletes : List SubscriptionRequest := []
  sessions : Nat := 0
  listeners : Nat → Option Connection := fun _ => none
  /-- The session that the listener of a session was made for. -/
  madeFor : Nat → Nat := id
  connections : List Nat := []
  handles : List SubscriptionRequest := []
  created : List Created := []
  deletedIDs : List Nat := []
  assertionFailed : Bool := false

namespace Controller

def assert (holds : Prop) [Decidable holds] (controller : Controller) : Controller :=
  { controller with assertionFailed := controller.assertionFailed || !decide holds }

/-- `subscriptions[request]` -/
def entry (topic : Topic) (controller : Controller) : Subscription := (controller.subscriptions topic).getD {}

def set (topic : Topic) (subscription : Subscription) (controller : Controller) : Controller :=
  { controller with subscriptions := Function.update controller.subscriptions topic (some subscription) }

def erase (topic : Topic) (controller : Controller) : Controller :=
  { controller with subscriptions := Function.update controller.subscriptions topic none }

def post (task : Task) (controller : Controller) : Controller := { controller with posted := controller.posted ++ [task] }

def setListener (session : Nat) (listener : Option Connection) (controller : Controller) : Controller :=
  { controller with listeners := Function.update controller.listeners session listener }

def createConnection (listener : Connection) (madeFor : Option Nat) (controller : Controller) : Controller :=
  { controller with
    sessions := controller.sessions + 1
    listeners := Function.update controller.listeners controller.sessions (some listener)
    madeFor := Function.update controller.madeFor controller.sessions (madeFor.getD controller.sessions)
    connections := controller.connections ++ [controller.sessions] }

def getViableConnection (ownerTwitchUserID : QString) (controller : Controller) : Option Nat :=
  controller.connections.find? fun session => (controller.listeners session).any fun listener =>
    !listener.sessionID.isEmpty && listener.canHandleSubscriptionFrom ownerTwitchUserID

def openButNotReadyConnections (controller : Controller) : Nat :=
  controller.connections.countP fun session =>
    (controller.listeners session).any fun listener => listener.sessionID.isEmpty

def retrySubscription (request : SubscriptionRequest) (controller : Controller) : Controller :=
  let subscription := controller.entry request.topic
  if subscription.refCount = 0 then controller.erase request.topic
  else
    -- a timer that is still set is replaced
    (controller.assert (subscription.retryTimer = none)).set request.topic
      { subscription with state := .Retrying, retryTimer := some { request := request } }

/-- The private overload of `subscribe`. -/
def attempt (request : SubscriptionRequest) (isRetry : Bool) (controller : Controller) : Controller :=
  let subscription := controller.entry request.topic
  let asserted := controller.assert (subscription.retryTimer.isSome = isRetry)
  let begun := asserted.set request.topic
    { subscription with retryTimer := if isRetry then none else subscription.retryTimer }
  match begun.getViableConnection request.ownerTwitchUserID with
  | some session => { begun with creates := begun.creates ++ [⟨request, session, 0 < subscription.refCount⟩] }
  | none =>
    (if begun.openButNotReadyConnections = 0 then begun.createConnection {} none else begun).retrySubscription request

def subscribe (request : SubscriptionRequest) (controller : Controller) : Controller :=
  let subscription := controller.entry request.topic
  let needToSubscribe : Bool := subscription.state = .Unsubscribed ∨ subscription.state = .Failed
  let asserted := ((controller.assert (0 ≤ subscription.refCount)).assert
    (subscription.state = .Unsubscribed → subscription.refCount = 0)).assert
    (needToSubscribe → subscription.retryTimer = none)
  let counted := asserted.set request.topic
    { subscription with
      state := if needToSubscribe then .Subscribing else subscription.state
      refCount := subscription.refCount + 1 }
  let held := { counted with handles := request :: counted.handles }
  if needToSubscribe then held.post (.subscribe request false) else held

def removeRef (request : SubscriptionRequest) (controller : Controller) : Controller :=
  let subscription := controller.entry request.topic
  let refCount := subscription.refCount - 1
  let asserted := (controller.assert ((controller.subscriptions request.topic).isSome)).assert (0 ≤ refCount)
  let released := { asserted with handles := asserted.handles.erase request }
  if 0 < refCount then released.set request.topic { subscription with refCount := refCount }
  else
    match subscription.subscriptionID with
    | none => released.set request.topic { subscription with refCount := refCount, retryTimer := none }
    | some id =>
      { released.set request.topic
          { subscription with
            state := .Unsubscribing, refCount := refCount, subscriptionID := none, retryTimer := none } with
        deletes := released.deletes ++ [request]
        deletedIDs := released.deletedIDs ++ [id] }

inductive CreateError where
  | BadRequest
  | Unauthorized
  | Forbidden
  | Conflict
  | Ratelimited
  | NoSession
  | Forwarded
deriving DecidableEq

inductive CreateAnswer where
  | success (subscriptionID : Nat)
  | failure (error : CreateError)
deriving DecidableEq

def markRequestSubscribed (request : SubscriptionRequest) (session subscriptionID : Nat) (controller : Controller) :
    Controller :=
  match controller.listeners session with
  | none => controller
  | some listener =>
    let marked := controller.setListener session (some (listener.markRequestSubscribed request))
    let subscription := marked.entry request.topic
    (marked.assert (subscription.state = .Subscribing ∨ subscription.state = .Retrying)).set request.topic
      { subscription with state := .Subscribed, connection := some session, subscriptionID := some subscriptionID }

def markRequestFailed (request : SubscriptionRequest) (controller : Controller) : Controller :=
  controller.set request.topic { controller.entry request.topic with state := .Failed }

def markRequestUnsubscribed (request : SubscriptionRequest) (controller : Controller) : Controller :=
  let subscription := controller.entry request.topic
  let asserted := (controller.assert (subscription.state = .Unsubscribing ∨ subscription.state = .Retrying)).assert
    (subscription.retryTimer = none)
  let told := match subscription.connection with
    | none => asserted
    | some session => asserted.setListener session
        ((asserted.listeners session).map (Connection.markRequestUnsubscribed request))
  if subscription.refCount = 0 then told.erase request.topic
  else
    (told.set request.topic { subscription with state := .Subscribing, connection := none }).post
      (.subscribe request false)

def createAnswered (create : Create) (answer : CreateAnswer) (controller : Controller) : Controller :=
  let answered := { controller with creates := controller.creates.erase create }
  match answer with
  | .success subscriptionID =>
    { answered.markRequestSubscribed create.request create.session subscriptionID with
      created := answered.created ++ [⟨subscriptionID, create.request.topic, create.session⟩] }
  | .failure .Forbidden => answered
  | .failure .NoSession | .failure .Forwarded => answered.post (.retrySubscription create.request)
  | .failure _ => answered.markRequestFailed create.request

def deleteAnswered (request : SubscriptionRequest) (controller : Controller) : Controller :=
  { controller with deletes := controller.deletes.erase request }.markRequestUnsubscribed request

def clearConnections (controller : Controller) : Controller :=
  { controller with connections := controller.connections.filter fun session => (controller.listeners session).isSome }

/-- The topics of a session that closed begin anew. Their IDs are left. -/
def resetSubscriptions (subs : List SubscriptionRequest) (controller : Controller) : Controller :=
  { controller with
    subscriptions := fun topic =>
      if topic ∈ subs.map SubscriptionRequest.topic then
        (controller.subscriptions topic).map fun subscription =>
          { subscription with connection := none, state := .Subscribing }
      else controller.subscriptions topic }

def reconnectConnection (connection : Connection) (madeFor : Nat) (hasReconnectURL : Bool) (controller : Controller) :
    Controller :=
  let cleared := controller.clearConnections
  if connection.subscriptions.isEmpty then cleared
  else if hasReconnectURL then cleared.createConnection connection (some madeFor)
  else
    connection.subscriptions.foldl (fun controller sub => controller.attempt sub false)
      (cleared.resetSubscriptions connection.subscriptions)

def closed (session : Nat) (hasReconnectURL : Bool) (controller : Controller) : Controller :=
  match controller.listeners session with
  | none => controller
  | some listener =>
    (controller.setListener session none).reconnectConnection listener (controller.madeFor session) hasReconnectURL

inductive Event where
  | subscribe (request : SubscriptionRequest)
  | removeRef (request : SubscriptionRequest)
  | runPosted
  | timerExpires (topic : Topic)
  | createAnswered (create : Create) (answer : CreateAnswer)
  | deleteAnswered (request : SubscriptionRequest)
  | sessionWelcome (session : Nat) (sessionID : QString)
  | closed (session : Nat) (hasReconnectURL : Bool)
deriving DecidableEq

def run (task : Task) (controller : Controller) : Controller :=
  match task with
  | .subscribe request isRetry => controller.attempt request isRetry
  | .retrySubscription request => controller.retrySubscription request

def runPosted (controller : Controller) : Controller :=
  match controller.posted with
  | [] => controller
  | task :: posted => { controller with posted := posted }.run task

def timerExpires (topic : Topic) (controller : Controller) : Controller :=
  let subscription := controller.entry topic
  match subscription.retryTimer with
  | none => controller
  | some timer =>
    if timer.expired then controller
    else (controller.set topic { subscription with retryTimer := some { timer with expired := true } }).post
      (.subscribe timer.request true)

def sessionWelcome (session : Nat) (sessionID : QString) (controller : Controller) : Controller :=
  controller.setListener session ((controller.listeners session).map fun listener => { listener with sessionID })

def step (controller : Controller) : Event → Controller
  | .subscribe request => controller.subscribe request
  | .removeRef request => controller.removeRef request
  | .runPosted => controller.runPosted
  | .timerExpires topic => controller.timerExpires topic
  | .createAnswered create answer => controller.createAnswered create answer
  | .deleteAnswered request => controller.deleteAnswered request
  | .sessionWelcome session sessionID => controller.sessionWelcome session sessionID
  | .closed session hasReconnectURL => controller.closed session hasReconnectURL

def Occurs (controller : Controller) : Event → Prop
  | .removeRef request => request ∈ controller.handles
  | .createAnswered create _ => create ∈ controller.creates
  | .deleteAnswered request => request ∈ controller.deletes
  | _ => True

instance (controller : Controller) : (event : Event) → Decidable (controller.Occurs event)
  | .subscribe _ => inferInstanceAs (Decidable True)
  | .removeRef _ => by dsimp only [Occurs]; infer_instance
  | .runPosted => inferInstanceAs (Decidable True)
  | .timerExpires _ => inferInstanceAs (Decidable True)
  | .createAnswered _ _ => by dsimp only [Occurs]; infer_instance
  | .deleteAnswered _ => by dsimp only [Occurs]; infer_instance
  | .sessionWelcome _ _ => inferInstanceAs (Decidable True)
  | .closed _ _ => inferInstanceAs (Decidable True)

end Controller

end Chatterino.EventSub
