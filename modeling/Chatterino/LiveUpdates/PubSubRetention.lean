import Chatterino.Lib.Run
import Chatterino.LiveUpdates.PubSubManager

/-! # Which runs keep every subscription

A subscription is lost when the client that opens has less room than it takes from the backlog, and
a backlog is left without a connection attempt when an open client closes and its subscriptions fit
elsewhere. These are the only two ways.
-/

namespace Chatterino.LiveUpdates

open Lib Lib.AssocSum

variable {Subscription : Type}

def Event.subscribed : Event Subscription → Option Subscription
  | .subscribe subscription _ => some subscription
  | _ => none

def Client.held (client : Client Subscription) : Multiset Subscription := client.subscriptions_

def Client.freePlaces (client : Client Subscription) : Nat :=
  client.maxSubscriptions - client.subscriptions_.length

namespace Manager

def held (m : Manager Subscription) : Multiset Subscription :=
  (m.pendingSubscriptions_ : Multiset Subscription) + total Client.held m.clients_

def Expecting (m : Manager Subscription) : Prop :=
  m.pendingSubscriptions_ ≠ [] → m.addingClient_ = true ∨ m.retryTimers ≠ []

/-- Every subscription passed to `subscribe` is kept, and a backlog waits for a client. -/
def Retained (m : Manager Subscription) (subscribed : List Subscription) : Prop :=
  (∀ sub ∈ subscribed, sub ∈ m.pendingSubscriptions_ ∨
    ∃ id client, m.clients_.lookup id = some client ∧ sub ∈ client.subscriptions_) ∧ m.Expecting

/-- The events of a manager that is not stopped, with the pool opening and closing each client at
most once. -/
def Plausible (m : Manager Subscription) : Event Subscription → Prop
  | .unsubscribe .. | .stop => False
  | .connectionOpen id => ∃ client, m.clients_.lookup id = some client ∧ client.open_ = false
  | .connectionClose id .. => ∃ client, m.clients_.lookup id = some client
  | _ => True

/-- A client that opens has room for what it takes from the backlog. The subscriptions of an open
client that closes do not all fit elsewhere while a backlog waits for no timer. -/
def KeepsAll (m : Manager Subscription) : Event Subscription → Prop
  | .connectionOpen id => ∀ client ∈ m.clients_.lookup id,
    client.subscriptions_.length + min m.pendingSubscriptions_.length client.maxSubscriptions ≤
      client.maxSubscriptions
  | .connectionClose id .. => ∀ client ∈ m.clients_.lookup id, client.open_ = true →
    m.pendingSubscriptions_ = [] ∨ m.retryTimers ≠ [] ∨
      total Client.freePlaces (m.clients_.erase id) < client.subscriptions_.length
  | _ => True

instance (m : Manager Subscription) : (event : Event Subscription) → Decidable (m.Plausible event)
  | .subscribe .. | .retryTimer _ => isTrue trivial
  | .unsubscribe .. | .stop => isFalse id
  | .connectionOpen id =>
    decidable_of_iff ((m.clients_.lookup id).any (fun client => client.open_ = false) = true)
      (by simp [Plausible, Option.any_eq_true])
  | .connectionClose id .. =>
    decidable_of_iff ((m.clients_.lookup id).isSome = true) Option.isSome_iff_exists

structure Tracks (m : Manager Subscription) (subscribed : List Subscription) : Prop where
  pool : m.pool_ = true
  running : m.stopping_ = false
  held : m.held = subscribed
  expecting : m.Expecting

theorem mem_held {m : Manager Subscription} {sub : Subscription} :
    sub ∈ m.held ↔ sub ∈ m.pendingSubscriptions_ ∨
      ∃ id client, m.clients_.lookup id = some client ∧ sub ∈ client.subscriptions_ := by
  simp [Manager.held, mem_total, Client.held]

theorem Tracks.retained {m : Manager Subscription} {subscribed : List Subscription}
    (h : Tracks m subscribed) : m.Retained subscribed := by
  refine ⟨fun sub hSub => mem_held.mp ?_, h.expecting⟩
  rw [h.held]
  exact hSub

variable {m m' : Manager Subscription} {sub : Subscription} {id : Nat} {maxSubscriptions : Nat}

theorem total_emplace {M : Type} [AddCommMonoid M] {f : Client Subscription → M}
    (hEmpty : f (makeClient maxSubscriptions) = 0)
    (clients : AList fun _ : Nat => Client Subscription) (id : Nat) :
    total f (emplace clients id (makeClient maxSubscriptions)) = total f clients := by
  unfold emplace
  split
  · rfl
  · rename_i hNew
    rw [total_insert_of_notMem hNew, hEmpty, zero_add]

theorem held_addClient (maxSubscriptions : Nat) (m : Manager Subscription) :
    (m.addClient maxSubscriptions).held = m.held := by
  unfold addClient
  split
  · rfl
  · simp only [Manager.held]
    rw [total_emplace (by rfl)]

theorem addingClient_addClient (maxSubscriptions : Nat) (hPool : m.pool_ = true) :
    (m.addClient maxSubscriptions).addingClient_ = true := by
  unfold addClient
  split
  · rename_i hAdding
    simpa [hPool] using hAdding
  · rfl

theorem addClient_fields (maxSubscriptions : Nat) (m : Manager Subscription) :
    (m.addClient maxSubscriptions).pendingSubscriptions_ = m.pendingSubscriptions_ ∧
      (m.addClient maxSubscriptions).pool_ = m.pool_ ∧
      (m.addClient maxSubscriptions).stopping_ = m.stopping_ ∧
      (m.addClient maxSubscriptions).retryTimers = m.retryTimers := by
  unfold addClient
  split <;> exact ⟨rfl, rfl, rfl, rfl⟩

theorem Tracks.addClient {subscribed : List Subscription} (hPool : m.pool_ = true)
    (hRunning : m.stopping_ = false) (hHeld : m.held = subscribed) :
    Tracks (m.addClient maxSubscriptions) subscribed := by
  obtain ⟨-, hPool', hRunning', -⟩ := addClient_fields maxSubscriptions m
  exact ⟨hPool'.trans hPool, hRunning'.trans hRunning, (held_addClient _ m).trans hHeld,
    fun _ => Or.inl (addingClient_addClient _ hPool)⟩

variable [DecidableEq Subscription]

/-- The client took the subscription, and nothing but the clients and their sockets changed. -/
structure TakenBy (m m' : Manager Subscription) (sub : Subscription) (id : Nat) : Prop where
  rest : ∃ clients texts, m' = { m with clients_ := clients, sentTexts := texts }
  held : m'.held = sub ::ₘ m.held
  freePlaces : total Client.freePlaces m'.clients_ + 1 = total Client.freePlaces m.clients_
  client : ∃ client client', m.clients_.lookup id = some client ∧
    m'.clients_.lookup id = some client' ∧
    client'.subscriptions_.length = client.subscriptions_.length + 1 ∧
    client'.maxSubscriptions = client.maxSubscriptions

theorem takenBy_of_subscribeClient (h : m.subscribeClient sub id = some m') (hNew : sub ∉ m.held) :
    TakenBy m m' sub id := by
  obtain ⟨client, hLookup, h⟩ := Option.bind_eq_some_iff.mp h
  obtain ⟨⟨client', texts⟩, hSubscribe, rfl⟩ := Option.map_eq_some_iff.mp h
  obtain ⟨hRoom, hMax, hSubs, -⟩ := Client.subscribe_eq_some hSubscribe
  have hNotMem : sub ∉ client.subscriptions_ := fun hMem =>
    hNew (mem_held.mpr (Or.inr ⟨id, client, hLookup, hMem⟩))
  rw [List.insert_of_not_mem hNotMem] at hSubs
  have hLength : client'.subscriptions_.length = client.subscriptions_.length + 1 := by
    rw [hSubs, List.length_cons]
  refine ⟨⟨_, _, rfl⟩, ?_, ?_, client, client', hLookup, AList.lookup_insert _, hLength, hMax⟩
  · have hTotal := add_total_insert (f := Client.held) hLookup client'
    have hClient : client'.held = sub ::ₘ client.held := by
      simp only [Client.held, hSubs, Multiset.cons_coe]
    rw [hClient, Multiset.cons_add, ← Multiset.add_cons] at hTotal
    simp only [Manager.held, updateClient, add_left_cancel hTotal, Multiset.add_cons]
  · have hTotal := add_total_insert (f := Client.freePlaces) hLookup client'
    simp only [Client.freePlaces, hLength, hMax] at hTotal
    change total _ (m.clients_.insert id client') + 1 = _
    omega

theorem full_of_subscribeClient_eq_none {client : Client Subscription}
    (hLookup : m.clients_.lookup id = some client) (h : m.subscribeClient sub id = none) :
    client.freePlaces = 0 := by
  rw [subscribeClient, hLookup, Option.bind_some, Option.map_eq_none_iff, Client.subscribe_eq_none] at h
  exact Nat.sub_eq_zero_of_le h

theorem trySubscribe_eq_some {clientOrder : HashOrder Nat} (h : m.trySubscribe clientOrder sub = some m') :
    ∃ id, m.subscribeClient sub id = some m' := by
  obtain ⟨id, -, hTaken⟩ := List.exists_of_findSome?_eq_some h
  exact ⟨id, hTaken⟩

theorem freePlaces_of_trySubscribe_eq_none {clientOrder : HashOrder Nat}
    (h : m.trySubscribe clientOrder sub = none) : total Client.freePlaces m.clients_ = 0 := by
  rw [trySubscribe, List.findSome?_eq_none_iff] at h
  refine total_eq_zero fun id client hLookup => ?_
  have hKey : id ∈ m.clients_.keys := AList.lookup_isSome.mp (by simp [hLookup])
  exact full_of_subscribeClient_eq_none hLookup (h id ((clientOrder.perm _).mem_iff.mpr hKey))

variable (maxSubscriptions) in
theorem subscribe_spec (hPool : m.pool_ = true) (hRunning : m.stopping_ = false)
    (clientOrder : HashOrder Nat) (hNew : sub ∉ m.held) :
    let m' := m.subscribe maxSubscriptions clientOrder sub
    m'.held = sub ::ₘ m.held ∧ m'.pool_ = true ∧ m'.stopping_ = false ∧
      m'.retryTimers = m.retryTimers ∧ (m.addingClient_ = true → m'.addingClient_ = true) ∧
      if total Client.freePlaces m.clients_ = 0 then m'.addingClient_ = true
      else m'.pendingSubscriptions_ = m.pendingSubscriptions_ ∧ m'.addingClient_ = m.addingClient_ ∧
        total Client.freePlaces m'.clients_ + 1 = total Client.freePlaces m.clients_ := by
  intro m'
  cases hTry : m.trySubscribe clientOrder sub with
  | some taken =>
    have hEq : m' = taken := by simp only [m', subscribe, hTry]
    obtain ⟨id, hClient⟩ := trySubscribe_eq_some hTry
    obtain ⟨⟨clients, texts, rfl⟩, hHeld, hFree, -⟩ := takenBy_of_subscribeClient hClient hNew
    rw [hEq, if_neg (by omega)]
    exact ⟨hHeld, hPool, hRunning, rfl, fun h => h, rfl, rfl, hFree⟩
  | none =>
    have hAdded : m' = { m.addClient maxSubscriptions with
        pendingSubscriptions_ := (m.addClient maxSubscriptions).pendingSubscriptions_ ++ [sub] } := by
      simp only [m', subscribe, hTry]
    obtain ⟨-, hPool', hRunning', hTimers⟩ := addClient_fields maxSubscriptions m
    have hAdding := addingClient_addClient maxSubscriptions hPool
    rw [hAdded, if_pos (freePlaces_of_trySubscribe_eq_none hTry)]
    refine ⟨?_, hPool'.trans hPool, hRunning'.trans hRunning, hTimers, fun _ => hAdding, hAdding⟩
    rw [← held_addClient maxSubscriptions m]
    simp only [Manager.held, ← Multiset.coe_add, Multiset.coe_singleton, ← Multiset.singleton_add]
    rw [add_right_comm, add_comm]

variable (maxSubscriptions) in
theorem foldl_subscribe_spec (clientOrder : HashOrder Nat) (subs : List Subscription)
    (hPool : m.pool_ = true) (hRunning : m.stopping_ = false)
    (hNodup : ((subs : Multiset Subscription) + m.held).Nodup) :
    let m' := subs.foldl (fun m sub => m.subscribe maxSubscriptions clientOrder sub) m
    m'.held = (subs : Multiset Subscription) + m.held ∧ m'.pool_ = true ∧ m'.stopping_ = false ∧
      m'.retryTimers = m.retryTimers ∧ (m.addingClient_ = true → m'.addingClient_ = true) ∧
      if total Client.freePlaces m.clients_ < subs.length then m'.addingClient_ = true
      else m'.pendingSubscriptions_ = m.pendingSubscriptions_ ∧
        m'.addingClient_ = m.addingClient_ := by
  induction subs generalizing m with
  | nil => exact ⟨by simp, hPool, hRunning, rfl, fun h => h, rfl, rfl⟩
  | cons sub subs ih =>
    intro m'
    rw [← Multiset.cons_coe, Multiset.cons_add, ← Multiset.add_cons] at hNodup
    have hNew : sub ∉ m.held :=
      (Multiset.nodup_cons.mp (Multiset.nodup_add.mp hNodup).2.1).1
    obtain ⟨hHeld, hPool₁, hRunning₁, hTimers, hAdding, hPlace⟩ :=
      subscribe_spec maxSubscriptions hPool hRunning clientOrder hNew
    rw [← hHeld] at hNodup
    obtain ⟨hHeld', hPool', hRunning', hTimers', hAdding', hPlaces⟩ := ih hPool₁ hRunning₁ hNodup
    refine ⟨?_, hPool', hRunning', hTimers'.trans hTimers, fun h => hAdding' (hAdding h), ?_⟩
    · rw [← Multiset.cons_coe, Multiset.cons_add, ← Multiset.add_cons, ← hHeld]
      exact hHeld'
    · rw [List.length_cons]
      split at hPlace
      · rw [if_pos (by omega)]
        exact hAdding' hPlace
      · obtain ⟨hPending, hSame, hFree⟩ := hPlace
        split at hPlaces
        · rw [if_pos (by omega)]
          exact hPlaces
        · rw [if_neg (by omega)]
          exact ⟨hPlaces.1.trans hPending, hPlaces.2.trans hSame⟩

omit [DecidableEq Subscription] in
theorem held_dropLast {last : Subscription} (hLast : m.pendingSubscriptions_.getLast? = some last) :
    m.held = last ::ₘ
      { m with pendingSubscriptions_ := m.pendingSubscriptions_.dropLast : Manager _ }.held := by
  have hSplit := List.dropLast_append_getLast? _ hLast
  simp only [Manager.held]
  rw [← Multiset.cons_add, Multiset.cons_coe]
  congr 1
  conv_lhs => rw [← hSplit]
  exact Multiset.coe_eq_coe.mpr (List.perm_append_singleton _ _)

theorem takePending_spec (id n : Nat) {client : Client Subscription}
    (hLookup : m.clients_.lookup id = some client) (hNodup : m.held.Nodup)
    (hPending : n ≤ m.pendingSubscriptions_.length) :
    if client.subscriptions_.length + n ≤ client.maxSubscriptions then
      (m.takePending id n).2 = true ∧ (m.takePending id n).1.held = m.held ∧
        ∃ pending clients texts, (m.takePending id n).1 =
          { m with pendingSubscriptions_ := pending, clients_ := clients, sentTexts := texts }
    else (m.takePending id n).2 = false ∧ ∃ lost, m.held = lost ::ₘ (m.takePending id n).1.held := by
  induction n generalizing m client with
  | zero =>
    rw [if_pos (by simpa using client.fits)]
    exact ⟨rfl, rfl, _, _, _, rfl⟩
  | succ n ih =>
    obtain ⟨last, hLast⟩ : ∃ last, m.pendingSubscriptions_.getLast? = some last :=
      Option.isSome_iff_exists.mp (by
        rw [List.getLast?_isSome]
        rintro hNil
        simp [hNil] at hPending)
    have hSplit := held_dropLast hLast
    rw [hSplit, Multiset.nodup_cons] at hNodup
    rw [hSplit]
    simp only [takePending, hLast]
    set rest : Manager Subscription :=
      { m with pendingSubscriptions_ := m.pendingSubscriptions_.dropLast } with hRest
    cases hTaken : rest.subscribeClient last id with
    | none =>
      have hLookup : rest.clients_.lookup id = some client := hLookup
      have hFull := full_of_subscribeClient_eq_none hLookup hTaken
      rw [if_neg (by simp only [Client.freePlaces] at hFull; omega)]
      exact ⟨rfl, last, rfl⟩
    | some taken =>
      obtain ⟨⟨clients, texts, rfl⟩, hHeld, -, old, client', hOld, hNew, hLength, hMax⟩ :=
        takenBy_of_subscribeClient hTaken hNodup.1
      obtain rfl : old = client := Option.some.inj (hOld.symm.trans hLookup)
      have hTake := ih hNew (by rw [hHeld]; exact Multiset.nodup_cons.mpr hNodup)
        (by simp only [hRest, List.length_dropLast]; omega)
      rw [hHeld, hLength, hMax, show old.subscriptions_.length + 1 + n =
        old.subscriptions_.length + (n + 1) by omega] at hTake
      exact hTake

theorem tracks_onConnectionOpen {subscribed : List Subscription} (h : Tracks m subscribed)
    (hDistinct : subscribed.Nodup) {client : Client Subscription}
    (hLookup : m.clients_.lookup id = some client) :
    (m.KeepsAll (.connectionOpen id) → Tracks (m.onConnectionOpen maxSubscriptions id) subscribed) ∧
      (¬m.KeepsAll (.connectionOpen id) →
        ¬(m.onConnectionOpen maxSubscriptions id).Retained subscribed) := by
  have hKeeps : m.KeepsAll (.connectionOpen id) ↔ client.subscriptions_.length +
      min m.pendingSubscriptions_.length client.maxSubscriptions ≤ client.maxSubscriptions := by
    simp [KeepsAll, hLookup]
  have hOpened : (m.opened id client).held = m.held := by
    have hTotal := add_total_insert (f := Client.held) hLookup client.onOpen
    simp only [Manager.held, opened]
    rw [add_left_cancel (a := client.held) hTotal]
  have hTake := takePending_spec (m := m.opened id client) id
    (min m.pendingSubscriptions_.length client.maxSubscriptions) (AList.lookup_insert _)
    (by rw [hOpened, h.held]; exact hDistinct) (min_le_left _ _)
  rw [hKeeps, onConnectionOpen, hLookup]
  simp only [Client.onOpen, hOpened] at hTake ⊢
  generalize (m.opened id client).takePending id
    (min m.pendingSubscriptions_.length client.maxSubscriptions) = result at hTake ⊢
  obtain ⟨taken, ran⟩ := result
  split at hTake
  · rename_i hRoom
    obtain ⟨rfl, hHeld, pending, clients, texts, rfl⟩ := hTake
    refine ⟨fun _ => ?_, fun hNot => absurd hRoom hNot⟩
    have hHeld := hHeld.trans h.held
    dsimp only
    split
    · exact Tracks.addClient h.pool h.running hHeld
    · rename_i hNil
      exact ⟨h.pool, h.running, hHeld, fun hSome => absurd hSome hNil⟩
  · rename_i hFull
    obtain ⟨rfl, lost, hHeld⟩ := hTake
    refine ⟨fun hRoom => absurd hRoom hFull, fun _ hRetained => ?_⟩
    rw [h.held] at hHeld
    have hLost : lost ∈ subscribed := by
      rw [← Multiset.mem_coe, hHeld]
      exact Multiset.mem_cons_self lost _
    have hNodup : (lost ::ₘ taken.held).Nodup := hHeld ▸ hDistinct
    exact (Multiset.nodup_cons.mp hNodup).1 (mem_held.mpr (hRetained.1 lost hLost))

theorem tracks_onConnectionClose {subscribed : List Subscription} (h : Tracks m subscribed)
    (hDistinct : subscribed.Nodup) {client : Client Subscription}
    (hLookup : m.clients_.lookup id = some client) (clientOrder : HashOrder Nat)
    (subsOrder : HashOrder Subscription) :
    let m' := m.onConnectionClose maxSubscriptions id clientOrder subsOrder
    (m.KeepsAll (.connectionClose id clientOrder subsOrder) → Tracks m' subscribed) ∧
      (¬m.KeepsAll (.connectionClose id clientOrder subsOrder) → ¬m'.Retained subscribed) := by
  intro m'
  have hOrder : (subsOrder.order client.subscriptions_ : Multiset Subscription) = client.held :=
    Multiset.coe_eq_coe.mpr (subsOrder.perm _)
  have hClosed : client.held + (m.closed id client).held = subscribed := by
    rw [← h.held, Manager.held, Manager.held, add_left_comm, ← add_total_erase hLookup]
    rfl
  have hKeeps : m.KeepsAll (.connectionClose id clientOrder subsOrder) ↔ (client.open_ = true →
      m.pendingSubscriptions_ = [] ∨ m.retryTimers ≠ [] ∨
        total Client.freePlaces (m.clients_.erase id) < client.subscriptions_.length) := by
    simp [KeepsAll, hLookup]
  rw [hKeeps]
  have hRunning : (m.closed id client).stopping_ = false := h.running
  cases hOpen : client.open_ with
  | false =>
    have hEq : m' = { m.closed id client with
        pendingSubscriptions_ := m.pendingSubscriptions_ ++ subsOrder.order client.subscriptions_
        retryTimers := m.retryTimers ++ [m.connectBackoff_.next.1]
        connectBackoff_ := m.connectBackoff_.next.2 } := by
      simp only [m', onConnectionClose, hLookup, hRunning, hOpen]
      rfl
    refine ⟨fun _ => ?_, fun hNot => absurd (fun h => absurd h (by decide)) hNot⟩
    rw [hEq]
    refine ⟨h.pool, h.running, ?_, fun _ => Or.inr (by simp)⟩
    simp only [Manager.held]
    rw [← hClosed, ← Multiset.coe_add, hOrder, add_comm _ client.held, add_assoc]
    rfl
  | true =>
    have hEq : m' = (subsOrder.order client.subscriptions_).foldl
        (fun m sub => m.subscribe maxSubscriptions clientOrder sub) (m.closed id client) := by
      simp only [m', onConnectionClose, hLookup, hRunning, hOpen]
      rfl
    obtain ⟨hHeld, hPool', hRunning', hTimers, -, hPlaces⟩ :=
      foldl_subscribe_spec maxSubscriptions clientOrder (subsOrder.order client.subscriptions_)
        (m := m.closed id client) h.pool h.running (by rw [hOrder, hClosed]; exact hDistinct)
    rw [← hEq, hOrder, hClosed] at hHeld
    rw [← hEq] at hPool' hRunning' hTimers hPlaces
    rw [(subsOrder.perm _).length_eq] at hPlaces
    have hExpecting : m'.Expecting ↔ m.pendingSubscriptions_ = [] ∨ m.retryTimers ≠ [] ∨
        total Client.freePlaces (m.clients_.erase id) < client.subscriptions_.length := by
      rw [Expecting, hTimers]
      split at hPlaces
      · rename_i hFree
        exact ⟨fun _ => Or.inr (Or.inr hFree), fun _ _ => Or.inl hPlaces⟩
      · rename_i hFree
        rw [hPlaces.1, hPlaces.2]
        constructor
        · intro hWait
          by_cases hNil : m.pendingSubscriptions_ = []
          · exact Or.inl hNil
          · exact Or.inr (Or.inl ((hWait hNil).resolve_left (by simp [closed])))
        · rintro (hNil | hTimer | hFull) hSome
          · exact absurd hNil hSome
          · exact Or.inr hTimer
          · exact absurd hFull hFree
    rw [forall_prop_of_true rfl, ← hExpecting]
    exact ⟨fun hExp => ⟨hPool', hRunning', hHeld, hExp⟩, fun hNot hRetained => hNot hRetained.2⟩

theorem Tracks.subscribe {subscribed : List Subscription} (h : Tracks m subscribed)
    (clientOrder : HashOrder Nat) (hNew : sub ∉ subscribed) :
    Tracks (m.subscribe maxSubscriptions clientOrder sub) (subscribed ++ [sub]) := by
  have hNotHeld : sub ∉ m.held := by
    rw [h.held]
    exact hNew
  obtain ⟨hHeld, hPool, hRunning, hTimers, -, hPlace⟩ :=
    subscribe_spec maxSubscriptions h.pool h.running clientOrder hNotHeld
  refine ⟨hPool, hRunning, ?_, ?_⟩
  · rw [hHeld, h.held, Multiset.cons_coe]
    exact Multiset.coe_eq_coe.mpr (List.perm_append_singleton _ _).symm
  · split at hPlace
    · exact fun _ => Or.inl hPlace
    · rw [Expecting, hPlace.1, hPlace.2.1, hTimers]
      exact h.expecting

omit [DecidableEq Subscription] in
theorem Tracks.onRetryTimer {subscribed : List Subscription} (h : Tracks m subscribed)
    (timer : Nat) : Tracks (m.onRetryTimer maxSubscriptions timer) subscribed := by
  unfold Manager.onRetryTimer
  split
  · exact Tracks.addClient h.pool h.running h.held
  · exact h

variable (maxSubscriptions) in
theorem tracks_step {subscribed : List Subscription} {event : Event Subscription}
    (h : Tracks m subscribed) (hPlausible : m.Plausible event)
    (hDistinct : (subscribed ++ event.subscribed.toList).Nodup) :
    (m.KeepsAll event →
        Tracks (step maxSubscriptions m event) (subscribed ++ event.subscribed.toList)) ∧
      (¬m.KeepsAll event →
        ¬(step maxSubscriptions m event).Retained (subscribed ++ event.subscribed.toList)) := by
  cases event with
  | subscribe sub clientOrder =>
    have hNew : sub ∉ subscribed := fun hMem =>
      (List.nodup_append.mp hDistinct).2.2 sub hMem sub (by simp [Event.subscribed]) rfl
    exact ⟨fun _ => h.subscribe clientOrder hNew, fun hNot => absurd trivial hNot⟩
  | unsubscribe sub clientOrder => exact hPlausible.elim
  | connectionOpen id =>
    obtain ⟨client, hLookup, -⟩ := hPlausible
    simp only [Event.subscribed, Option.toList_none, List.append_nil] at hDistinct ⊢
    exact tracks_onConnectionOpen h hDistinct hLookup
  | connectionClose id clientOrder subsOrder =>
    obtain ⟨client, hLookup⟩ := hPlausible
    simp only [Event.subscribed, Option.toList_none, List.append_nil] at hDistinct ⊢
    exact tracks_onConnectionClose h hDistinct hLookup clientOrder subsOrder
  | retryTimer timer =>
    simp only [Event.subscribed, Option.toList_none, List.append_nil]
    exact ⟨fun _ => h.onRetryTimer timer, fun hNot => absurd trivial hNot⟩
  | stop => exact hPlausible.elim

theorem retained_run_iff {subscribed : List Subscription} (h : Tracks m subscribed)
    (events : List (Event Subscription))
    (hDistinct : (subscribed ++ events.filterMap Event.subscribed).Nodup)
    (hPlausible : AllSteps (step maxSubscriptions) Plausible m events) :
    (∀ reached, reached <+: events → (reached.foldl (step maxSubscriptions) m).Retained
        (subscribed ++ reached.filterMap Event.subscribed)) ↔
      AllSteps (step maxSubscriptions) KeepsAll m events := by
  induction events generalizing m subscribed with
  | nil =>
    refine ⟨fun _ => trivial, fun _ reached hPrefix => ?_⟩
    rw [List.prefix_nil.mp hPrefix]
    simpa using h.retained
  | cons event events ih =>
    obtain ⟨hEvent, hRest⟩ := hPlausible
    have hSubscribed (rest : List (Event Subscription)) :
        subscribed ++ (event :: rest).filterMap Event.subscribed =
          (subscribed ++ event.subscribed.toList) ++ rest.filterMap Event.subscribed := by
      cases hNew : event.subscribed <;> simp [hNew]
    rw [hSubscribed] at hDistinct
    obtain ⟨hKept, hLost⟩ := tracks_step maxSubscriptions h hEvent
      (List.nodup_append.mp hDistinct).1
    constructor
    · intro hAll
      have hKeeps : m.KeepsAll event := by
        by_contra hNot
        refine hLost hNot ?_
        have hFirst := hAll [event] (List.prefix_append [event] events)
        rwa [hSubscribed, List.filterMap_nil, List.append_nil] at hFirst
      refine ⟨hKeeps, (ih (hKept hKeeps) hDistinct hRest).mp fun reached hPrefix => ?_⟩
      have hLater := hAll (event :: reached) (List.cons_prefix_cons.mpr ⟨rfl, hPrefix⟩)
      rwa [hSubscribed] at hLater
    · rintro ⟨hKeeps, hKeepsRest⟩ reached hPrefix
      cases reached with
      | nil => simpa using h.retained
      | cons first reached =>
        obtain ⟨rfl, hReached⟩ := List.cons_prefix_cons.mp hPrefix
        rw [hSubscribed]
        exact (ih (hKept hKeeps) hDistinct hRest).mpr hKeepsRest reached hReached

/-- A run with distinct subscriptions keeps all of them in every state, and a backlog never waits
for nothing, exactly when every step meets the condition. -/
theorem retained_iff_keepsAll (maxSubscriptions : Nat) (events : List (Event Subscription))
    (hDistinct : (events.filterMap Event.subscribed).Nodup)
    (hPlausible : AllSteps (step maxSubscriptions) Plausible {} events) :
    (∀ reached, reached <+: events →
      (reached.foldl (step maxSubscriptions) ({} : Manager Subscription)).Retained
        (reached.filterMap Event.subscribed)) ↔
      AllSteps (step maxSubscriptions) KeepsAll {} events := by
  have hStart : Tracks ({} : Manager Subscription) [] :=
    ⟨rfl, rfl, rfl, fun hSome => absurd rfl hSome⟩
  exact retained_run_iff hStart events hDistinct hPlausible

def exampleSubscribe (sub : Nat) : Event Nat := .subscribe sub (.insertion Nat)

theorem retained_two_subscriptions :
    (([exampleSubscribe 1, exampleSubscribe 2, .connectionOpen 0] : List (Event Nat)).foldl
      (step 100) {}).Retained [1, 2] :=
  (retained_iff_keepsAll 100 [exampleSubscribe 1, exampleSubscribe 2, .connectionOpen 0] (by decide)
    ⟨trivial, trivial, ⟨_, rfl, rfl⟩, trivial⟩).mpr
    ⟨trivial, trivial, by rintro client ⟨⟩; decide, trivial⟩ _ (List.prefix_refl _)

set_option maxRecDepth 4000 in
/-- The client that opens was filled while it connected, and the first subscription is dropped. -/
theorem retained_counterexample :
    let events := (List.range 101).map exampleSubscribe ++ [.connectionOpen 0]
    let m := events.foldl (step 100) {}
    (events.filterMap Event.subscribed).Nodup ∧
      AllSteps (step 100) Plausible {} events ∧ ¬m.Retained (events.filterMap Event.subscribed) := by
  intro events m
  refine ⟨by decide, by decide +kernel, fun hRetained => ?_⟩
  have hHeld : 0 ∈ m.held := mem_held.mpr (hRetained.1 0 (by decide))
  revert hHeld
  decide

end Manager

end Chatterino.LiveUpdates
