import Chatterino.LiveUpdates.PubSubManager
import Chatterino.Lib.Run

/-! # What the servers were told

The texts sent on a connection add up to the subscriptions of its client.
-/

namespace Chatterino.LiveUpdates

variable {Subscription : Type} [DecidableEq Subscription]

def Request.receive (held : List Subscription) : Request Subscription → List Subscription
  | .encodeSubscription subscription => subscription :: held
  | .encodeUnsubscription subscription => held.erase subscription

namespace Manager

variable {m m' : Manager Subscription} {id maxSubscriptions : Nat}

/-- What the server of a connection holds. -/
def serverSubscriptions (m : Manager Subscription) (id : Nat) : List Subscription :=
  ((m.sentTexts.filter fun text => text.1 = id).map Prod.snd).foldl Request.receive []

structure Told (m : Manager Subscription) : Prop where
  clients : ∀ id client, m.clients_.lookup id = some client → m.serverSubscriptions id = client.subscriptions_
  fresh : ∀ id, m.nextId_ ≤ id → m.clients_.lookup id = none ∧ m.serverSubscriptions id = []

theorem serverSubscriptions_updateClient (m : Manager Subscription) (id other : Nat)
    (result : Client Subscription × List (Request Subscription)) :
    (m.updateClient id result).serverSubscriptions other =
      if other = id then result.2.foldl Request.receive (m.serverSubscriptions id)
      else m.serverSubscriptions other := by
  rw [serverSubscriptions, updateClient, List.filter_append, List.filter_map, List.map_append, List.map_map,
    List.foldl_append]
  split
  · subst other
    simp [serverSubscriptions, Function.comp_def]
  · rename_i hNe
    simp [serverSubscriptions, Function.comp_def, Ne.symm hNe]

theorem Told.updateClient (h : Told m) (hId : id < m.nextId_)
    {result : Client Subscription × List (Request Subscription)}
    (hTexts : result.2.foldl Request.receive (m.serverSubscriptions id) = result.1.subscriptions_) :
    Told (m.updateClient id result) := by
  constructor
  · intro other client hLookup
    rw [serverSubscriptions_updateClient]
    split
    · subst other
      rw [Manager.updateClient, AList.lookup_insert] at hLookup
      rw [hTexts, Option.some.inj hLookup]
    · rename_i hNe
      rw [Manager.updateClient, AList.lookup_insert_ne hNe] at hLookup
      exact h.clients other client hLookup
  · intro other hFresh
    have hNe : other ≠ id := (hId.trans_le hFresh).ne'
    rw [serverSubscriptions_updateClient, if_neg hNe, Manager.updateClient, AList.lookup_insert_ne hNe]
    exact h.fresh other hFresh

theorem Told.change (h : Told m) {client : Client Subscription} (hLookup : m.clients_.lookup id = some client)
    {result : Client Subscription × List (Request Subscription)}
    (hTexts : result.2.foldl Request.receive client.subscriptions_ = result.1.subscriptions_) :
    Told (m.updateClient id result) := by
  have hId : id < m.nextId_ := by
    by_contra hFresh
    rw [(h.fresh id (Nat.le_of_not_lt hFresh)).1] at hLookup
    cases hLookup
  exact h.updateClient hId (by rw [h.clients id client hLookup, hTexts])

theorem Told.subscribeClient (h : Told m) {subscription : Subscription}
    (hTaken : m.subscribeClient subscription id = some m') : Told m' := by
  obtain ⟨client, hLookup, hTaken⟩ := Option.bind_eq_some_iff.mp hTaken
  obtain ⟨result, hSubscribe, rfl⟩ := Option.map_eq_some_iff.mp hTaken
  apply h.change hLookup
  unfold Client.subscribe at hSubscribe
  split_ifs at hSubscribe <;> cases hSubscribe <;> rfl

theorem Told.unsubscribeClient (h : Told m) {subscription : Subscription}
    (hTaken : m.unsubscribeClient subscription id = some m') : Told m' := by
  obtain ⟨client, hLookup, hTaken⟩ := Option.bind_eq_some_iff.mp hTaken
  obtain ⟨result, hUnsubscribe, rfl⟩ := Option.map_eq_some_iff.mp hTaken
  obtain ⟨-, hRest, hTexts⟩ := Client.unsubscribe_eq_some hUnsubscribe
  apply h.change hLookup
  rw [hRest, hTexts]
  rfl

theorem Told.addClient (h : Told m) (maxSubscriptions : Nat) : Told (m.addClient maxSubscriptions) := by
  obtain ⟨hNone, hServer⟩ := h.fresh m.nextId_ le_rfl
  have hNew : m.nextId_ ∉ m.clients_ := by
    rw [← AList.lookup_eq_none]
    exact hNone
  have hNext : Told { m with nextId_ := m.nextId_ + 1 } :=
    ⟨h.clients, fun id hFresh => h.fresh id (Nat.le_of_succ_le hFresh)⟩
  have hAdded : Told (Manager.updateClient _ m.nextId_ (makeClient maxSubscriptions, [])) :=
    hNext.updateClient (Nat.lt_succ_self _) hServer
  rw [Manager.updateClient, List.map_nil, List.append_nil] at hAdded
  unfold Manager.addClient
  split
  · exact h
  · rw [emplace, if_neg hNew]
    exact ⟨hAdded.clients, hAdded.fresh⟩

theorem Told.subscribe (h : Told m) (clientOrder : HashOrder Nat) (subscription : Subscription) :
    Told (m.subscribe maxSubscriptions clientOrder subscription) := by
  unfold Manager.subscribe
  split
  · rename_i taken hTry
    obtain ⟨id, -, hTaken⟩ := List.exists_of_findSome?_eq_some hTry
    exact h.subscribeClient hTaken
  · exact ⟨(h.addClient _).clients, (h.addClient _).fresh⟩

theorem Told.takePending (h : Told m) (id n : Nat) : Told (m.takePending id n).1 := by
  induction n generalizing m with
  | zero => exact h
  | succ n ih =>
    unfold Manager.takePending
    split
    · exact h
    · rename_i last hLast
      have hRest : Told { m with pendingSubscriptions_ := m.pendingSubscriptions_.dropLast } :=
        ⟨h.clients, h.fresh⟩
      dsimp only
      split
      · exact hRest
      · rename_i taken hTaken
        exact ih (hRest.subscribeClient hTaken)

theorem Told.onConnectionOpen (h : Told m) (id : Nat) : Told (m.onConnectionOpen maxSubscriptions id) := by
  unfold Manager.onConnectionOpen
  cases hLookup : m.clients_.lookup id with
  | none => exact h
  | some client =>
    have hOpened : Told (m.opened id client) := by
      have hUpdated : Told (m.updateClient id (client.onOpen, [])) := h.change hLookup rfl
      rw [Manager.updateClient, List.map_nil, List.append_nil] at hUpdated
      exact ⟨hUpdated.clients, hUpdated.fresh⟩
    have hTaken := hOpened.takePending id (min m.pendingSubscriptions_.length client.maxSubscriptions)
    dsimp only
    split <;> rename_i taken hEq <;> rw [hEq] at hTaken
    · exact hTaken
    · split
      · exact hTaken.addClient maxSubscriptions
      · exact hTaken

theorem Told.closed (h : Told m) (id : Nat) (client : Client Subscription) : Told (m.closed id client) := by
  constructor
  · intro other client' hOther
    have hNe : other ≠ id := by
      rintro rfl
      rw [Manager.closed, AList.lookup_erase] at hOther
      cases hOther
    rw [Manager.closed, AList.lookup_erase_ne hNe] at hOther
    exact h.clients other client' hOther
  · intro other hFresh
    obtain ⟨hNone, hServer⟩ := h.fresh other hFresh
    refine ⟨?_, hServer⟩
    rw [Manager.closed, AList.lookup_eq_none, AList.mem_erase]
    exact fun hMem => AList.lookup_eq_none.mp hNone hMem.2

theorem Told.onConnectionClose (h : Told m) (id : Nat) (clientOrder : HashOrder Nat)
    (subsOrder : HashOrder Subscription) : Told (m.onConnectionClose maxSubscriptions id clientOrder subsOrder) := by
  unfold Manager.onConnectionClose
  cases m.clients_.lookup id with
  | none => exact ⟨h.clients, h.fresh⟩
  | some client =>
    have hClosed := h.closed id client
    dsimp only
    split_ifs
    · exact hClosed
    · exact ⟨hClosed.clients, hClosed.fresh⟩
    · exact Lib.foldl_invariant _ hClosed fun m subscription h => h.subscribe clientOrder subscription

theorem Told.step (h : Told m) (event : Event Subscription) : Told (LiveUpdates.step maxSubscriptions m event) := by
  cases event with
  | subscribe subscription clientOrder => exact h.subscribe clientOrder subscription
  | unsubscribe subscription clientOrder =>
    rw [LiveUpdates.step, Manager.unsubscribe]
    cases hFind : (clientOrder.order m.clients_.keys).findSome? (m.unsubscribeClient subscription) with
    | none => exact h
    | some taken =>
      obtain ⟨id, -, hTaken⟩ := List.exists_of_findSome?_eq_some hFind
      exact h.unsubscribeClient hTaken
  | connectionOpen id => exact h.onConnectionOpen id
  | connectionClose id clientOrder subsOrder => exact h.onConnectionClose id clientOrder subsOrder
  | retryTimer timer =>
    rw [LiveUpdates.step, onRetryTimer]
    split
    · have hFired : Told { m with retryTimers := m.retryTimers.eraseIdx timer } := ⟨h.clients, h.fresh⟩
      exact hFired.addClient maxSubscriptions
    · exact h
  | stop =>
    rw [LiveUpdates.step, Manager.stop]
    split
    · exact h
    · exact ⟨h.clients, h.fresh⟩

/-- In every state of a run, the server of each client holds its subscriptions, each of them once. -/
theorem serverSubscriptions_of_run (maxSubscriptions : Nat) (events : List (Event Subscription)) :
    ∀ id client, (events.foldl (LiveUpdates.step maxSubscriptions) {}).clients_.lookup id = some client →
      serverSubscriptions (events.foldl (LiveUpdates.step maxSubscriptions) {}) id = client.subscriptions_ ∧
        client.subscriptions_.Nodup := by
  intro id client hLookup
  have hStart : Told ({} : Manager Subscription) := by
    constructor
    · intro id client hLookup
      cases hLookup
    · exact fun _ _ => ⟨rfl, rfl⟩
  have hTold : Told (events.foldl (LiveUpdates.step maxSubscriptions) {}) :=
    Lib.foldl_invariant events hStart fun m event h => h.step event
  exact ⟨hTold.clients id client hLookup, client.nodup⟩

theorem serverSubscriptions_of_run_opened :
    serverSubscriptions (([.subscribe 7 (.insertion Nat), .connectionOpen 0] : List (Event Nat)).foldl
      (LiveUpdates.step 1) {}) 0 = [7] ∧ [7].Nodup :=
  serverSubscriptions_of_run 1 [.subscribe 7 (.insertion Nat), .connectionOpen 0] 0 ⟨1, [7], true, by simp, by simp⟩ rfl

end Manager

end Chatterino.LiveUpdates
