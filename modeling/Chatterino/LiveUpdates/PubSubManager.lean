import Chatterino.Lib.AssocSum

/-! # Live-update subscriptions

A manager spreads subscriptions over WebSocket clients, each with a bounded number of them, and
keeps a backlog for the next client. The clients live in a hash map and the subscriptions of a
client in a hash set: every traversal comes with the order it happens in.
-/

namespace Chatterino.LiveUpdates

/-- The order in which a hash container with the given elements is traversed. -/
structure HashOrder (α : Type) where
  order : List α → List α
  perm : ∀ elements, (order elements).Perm elements

def HashOrder.insertion (α : Type) : HashOrder α := ⟨id, List.Perm.refl⟩

inductive Request (Subscription : Type) where
  | encodeSubscription (subscription : Subscription)
  | encodeUnsubscription (subscription : Subscription)
  deriving DecidableEq

/-- `BasicPubSubClient`. -/
structure Client (Subscription : Type) where
  maxSubscriptions : Nat
  subscriptions_ : List Subscription := []
  open_ : Bool := false
  nodup : subscriptions_.Nodup := by simp
  fits : subscriptions_.length ≤ maxSubscriptions := by simp

variable {Subscription : Type} [DecidableEq Subscription]

namespace Client

variable {client client' : Client Subscription} {subscription : Subscription}
  {texts : List (Request Subscription)}

omit [DecidableEq Subscription] in
def onOpen (client : Client Subscription) : Client Subscription := { client with open_ := true }

/-- `none` when the client is full. Otherwise the client and what it sends. -/
def subscribe (client : Client Subscription) (subscription : Subscription) :
    Option (Client Subscription × List (Request Subscription)) :=
  if hFull : client.subscriptions_.length ≥ client.maxSubscriptions then none
  else if h : subscription ∈ client.subscriptions_ then some (client, [])
  else some
    ({ client with
      subscriptions_ := subscription :: client.subscriptions_
      nodup := List.nodup_cons.mpr ⟨h, client.nodup⟩
      fits := not_le.mp hFull },
    [.encodeSubscription subscription])

/-- `none` when the client does not have the subscription. -/
def unsubscribe (client : Client Subscription) (subscription : Subscription) :
    Option (Client Subscription × List (Request Subscription)) :=
  if subscription ∈ client.subscriptions_ then some
    ({ client with
      subscriptions_ := client.subscriptions_.erase subscription
      nodup := client.nodup.erase _
      fits := List.length_erase_le.trans client.fits },
    [.encodeUnsubscription subscription])
  else none

theorem subscribe_eq_none :
    client.subscribe subscription = none ↔ client.maxSubscriptions ≤ client.subscriptions_.length := by
  unfold subscribe
  split <;> rename_i hFull
  · simpa using hFull
  · split <;> simpa using hFull

theorem subscribe_eq_some (h : client.subscribe subscription = some (client', texts)) :
    client.subscriptions_.length < client.maxSubscriptions ∧
      client'.maxSubscriptions = client.maxSubscriptions ∧
      client'.subscriptions_ = client.subscriptions_.insert subscription ∧
      texts ⊆ [.encodeSubscription subscription] := by
  unfold subscribe at h
  split at h
  · cases h
  · rename_i hFull
    split at h <;> rename_i hMem <;> cases h
    · exact ⟨not_le.mp hFull, rfl, (List.insert_of_mem hMem).symm, List.nil_subset _⟩
    · exact ⟨not_le.mp hFull, rfl, (List.insert_of_not_mem hMem).symm, List.Subset.refl _⟩

theorem unsubscribe_eq_none :
    client.unsubscribe subscription = none ↔ subscription ∉ client.subscriptions_ := by
  unfold unsubscribe
  split <;> simp_all

theorem unsubscribe_eq_some (h : client.unsubscribe subscription = some (client', texts)) :
    subscription ∈ client.subscriptions_ ∧
      client'.subscriptions_ = client.subscriptions_.erase subscription ∧
      texts = [.encodeUnsubscription subscription] := by
  unfold unsubscribe at h
  split at h
  · rename_i hMem
    cases h
    exact ⟨hMem, rfl, rfl⟩
  · cases h

end Client

/-- `ExponentialBackoff<5>` that starts at one second. -/
structure ExponentialBackoff where
  step_ : Nat := 1
  deriving DecidableEq

namespace ExponentialBackoff

def maxSteps : Nat := 5

def start_ : Nat := 1000

def next (backoff : ExponentialBackoff) : Nat × ExponentialBackoff :=
  (start_ * 2 ^ (backoff.step_ - 1),
    ⟨if backoff.step_ + 1 ≥ maxSteps then maxSteps else backoff.step_ + 1⟩)

def reset (_ : ExponentialBackoff) : ExponentialBackoff := {}

end ExponentialBackoff

structure Diag where
  connectionsOpened : Nat := 0
  connectionsClosed : Nat := 0
  connectionsFailed : Nat := 0
  deriving DecidableEq

/-- `BasicPubSubManager`. `retryTimers` holds the delays of the timers that have not fired, and
`sentTexts` what was handed to the sockets, with the client's id. -/
structure Manager (Subscription : Type) where
  pendingSubscriptions_ : List Subscription := []
  connectBackoff_ : ExponentialBackoff := {}
  pool_ : Bool := true
  clients_ : AList fun _ : Nat => Client Subscription := ∅
  nextId_ : Nat := 0
  stopping_ : Bool := false
  addingClient_ : Bool := false
  diag : Diag := {}
  retryTimers : List Nat := []
  sentTexts : List (Nat × Request Subscription) := []

namespace Manager

omit [DecidableEq Subscription] in
def makeClient (maxSubscriptions : Nat) : Client Subscription := { maxSubscriptions }

/-- `std::unordered_map::emplace`: an entry that is there stays. -/
def emplace (clients : AList fun _ : Nat => Client Subscription) (id : Nat)
    (client : Client Subscription) : AList fun _ : Nat => Client Subscription :=
  if id ∈ clients then clients else clients.insert id client

def updateClient (m : Manager Subscription) (id : Nat)
    (result : Client Subscription × List (Request Subscription)) : Manager Subscription :=
  { m with
    clients_ := m.clients_.insert id result.1
    sentTexts := m.sentTexts ++ result.2.map fun text => (id, text) }

def subscribeClient (m : Manager Subscription) (subscription : Subscription) (id : Nat) :
    Option (Manager Subscription) :=
  (m.clients_.lookup id).bind fun client =>
    (client.subscribe subscription).map (m.updateClient id)

def unsubscribeClient (m : Manager Subscription) (subscription : Subscription) (id : Nat) :
    Option (Manager Subscription) :=
  (m.clients_.lookup id).bind fun client =>
    (client.unsubscribe subscription).map (m.updateClient id)

def trySubscribe (m : Manager Subscription) (clientOrder : HashOrder Nat)
    (subscription : Subscription) : Option (Manager Subscription) :=
  (clientOrder.order m.clients_.keys).findSome? (m.subscribeClient subscription)

def addClient (maxSubscriptions : Nat) (m : Manager Subscription) : Manager Subscription :=
  if m.addingClient_ || !m.pool_ then m
  else
    { m with
      addingClient_ := true
      nextId_ := m.nextId_ + 1
      clients_ := emplace m.clients_ m.nextId_ (makeClient maxSubscriptions) }

def unsubscribe (m : Manager Subscription) (clientOrder : HashOrder Nat)
    (subscription : Subscription) : Manager Subscription :=
  ((clientOrder.order m.clients_.keys).findSome? (m.unsubscribeClient subscription)).getD m

def subscribe (maxSubscriptions : Nat) (m : Manager Subscription) (clientOrder : HashOrder Nat)
    (subscription : Subscription) : Manager Subscription :=
  match m.trySubscribe clientOrder subscription with
  | some m' => m'
  | none =>
    let m := m.addClient maxSubscriptions
    { m with pendingSubscriptions_ := m.pendingSubscriptions_ ++ [subscription] }

/-- The loop of `onConnectionOpen` over the end of the backlog, `false` for the early return when the client is full.
-/
def takePending (id : Nat) : Nat → Manager Subscription → Manager Subscription × Bool
  | 0, m => (m, true)
  | pendingSubsToTake + 1, m =>
    match m.pendingSubscriptions_.getLast? with
    | none => (m, true)
    | some last =>
      let m := { m with pendingSubscriptions_ := m.pendingSubscriptions_.dropLast }
      match m.subscribeClient last id with
      | none => (m, false)
      | some m => takePending id pendingSubsToTake m

/-- The state before the loop of `onConnectionOpen`. -/
def opened (m : Manager Subscription) (id : Nat) (client : Client Subscription) :
    Manager Subscription :=
  { m with
    addingClient_ := false
    diag := { m.diag with connectionsOpened := m.diag.connectionsOpened + 1 }
    connectBackoff_ := m.connectBackoff_.reset
    clients_ := m.clients_.insert id client.onOpen }

/-- The source dereferences the client, which the pool guarantees to exist. -/
def onConnectionOpen (maxSubscriptions : Nat) (m : Manager Subscription) (id : Nat) :
    Manager Subscription :=
  match m.clients_.lookup id with
  | none => m
  | some client =>
    let pendingSubsToTake := min m.pendingSubscriptions_.length client.maxSubscriptions
    match (m.opened id client).takePending id pendingSubsToTake with
    | (m, false) => m
    | (m, true) => if m.pendingSubscriptions_ ≠ [] then m.addClient maxSubscriptions else m

/-- The state in which `onConnectionClose` has erased the client. -/
def closed (m : Manager Subscription) (id : Nat) (client : Client Subscription) :
    Manager Subscription :=
  { m with
    addingClient_ := false
    diag :=
      if client.open_ then { m.diag with connectionsClosed := m.diag.connectionsClosed + 1 }
      else { m.diag with connectionsFailed := m.diag.connectionsFailed + 1 }
    clients_ := m.clients_.erase id }

def onConnectionClose (maxSubscriptions : Nat) (m : Manager Subscription) (id : Nat)
    (clientOrder : HashOrder Nat) (subsOrder : HashOrder Subscription) : Manager Subscription :=
  match m.clients_.lookup id with
  | none => { m with addingClient_ := false }
  | some client =>
    let subs := subsOrder.order client.subscriptions_
    let m := m.closed id client
    if m.stopping_ then m
    else if !client.open_ then
      { m with
        pendingSubscriptions_ := m.pendingSubscriptions_ ++ subs
        retryTimers := m.retryTimers ++ [m.connectBackoff_.next.1]
        connectBackoff_ := m.connectBackoff_.next.2 }
    else subs.foldl (fun m sub => m.subscribe maxSubscriptions clientOrder sub) m

def onRetryTimer (maxSubscriptions : Nat) (m : Manager Subscription) (timer : Nat) :
    Manager Subscription :=
  if timer < m.retryTimers.length then
    { m with retryTimers := m.retryTimers.eraseIdx timer }.addClient maxSubscriptions
  else m

def stop (m : Manager Subscription) : Manager Subscription :=
  if m.stopping_ then m else { m with stopping_ := true, pool_ := false }

end Manager

inductive Event (Subscription : Type) where
  | subscribe (subscription : Subscription) (clientOrder : HashOrder Nat)
  | unsubscribe (subscription : Subscription) (clientOrder : HashOrder Nat)
  | connectionOpen (id : Nat)
  | connectionClose (id : Nat) (clientOrder : HashOrder Nat) (subsOrder : HashOrder Subscription)
  | retryTimer (timer : Nat)
  | stop

def step (maxSubscriptions : Nat) (m : Manager Subscription) :
    Event Subscription → Manager Subscription
  | .subscribe subscription clientOrder => m.subscribe maxSubscriptions clientOrder subscription
  | .unsubscribe subscription clientOrder => m.unsubscribe clientOrder subscription
  | .connectionOpen id => m.onConnectionOpen maxSubscriptions id
  | .connectionClose id clientOrder subsOrder =>
    m.onConnectionClose maxSubscriptions id clientOrder subsOrder
  | .retryTimer timer => m.onRetryTimer maxSubscriptions timer
  | .stop => m.stop

end Chatterino.LiveUpdates
