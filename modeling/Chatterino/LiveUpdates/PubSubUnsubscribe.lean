import Chatterino.LiveUpdates.PubSubRetention

/-! # Which unsubscribe calls forget a subscription

An unsubscribe call takes the subscription from the first client that has it and leaves the backlog
alone. What it leaves behind is subscribed to again.
-/

namespace Chatterino.LiveUpdates.Manager

open Lib Lib.AssocSum

variable {Subscription : Type} [DecidableEq Subscription] {m m' : Manager Subscription}
  {sub other : Subscription} {id maxSubscriptions : Nat}
  {sent : List (Nat × Request Subscription)}

/-- No client and no backlog has the subscription, and nothing sent since subscribes to it. -/
structure Forgotten (sub : Subscription) (sent : List (Nat × Request Subscription))
    (m : Manager Subscription) : Prop where
  pending : sub ∉ m.pendingSubscriptions_
  clients : ∀ id client, m.clients_.lookup id = some client → sub ∉ client.subscriptions_
  texts : ∃ later, m.sentTexts = sent ++ later ∧ ∀ text ∈ later, text.2 ≠ .encodeSubscription sub

omit [DecidableEq Subscription] in
theorem Forgotten.updateClient (h : Forgotten sub sent m) (id : Nat)
    {result : Client Subscription × List (Request Subscription)}
    (hClient : sub ∉ result.1.subscriptions_) (hTexts : .encodeSubscription sub ∉ result.2) :
    Forgotten sub sent (m.updateClient id result) := by
  obtain ⟨hPending, hClients, later, hSent, hLater⟩ := h
  refine ⟨hPending, fun other client hLookup => ?_, later ++ result.2.map fun text => (id, text), ?_, ?_⟩
  · by_cases hSame : other = id
    · subst hSame
      rw [Manager.updateClient, AList.lookup_insert] at hLookup
      exact Option.some.inj hLookup ▸ hClient
    · rw [Manager.updateClient, AList.lookup_insert_ne hSame] at hLookup
      exact hClients other client hLookup
  · rw [Manager.updateClient, hSent, List.append_assoc]
  · intro text hText
    rcases List.mem_append.mp hText with hText | hText
    · exact hLater text hText
    · obtain ⟨request, hRequest, rfl⟩ := List.mem_map.mp hText
      rintro rfl
      exact hTexts hRequest

theorem Forgotten.subscribeClient (h : Forgotten sub sent m) (hOther : other ≠ sub)
    (hTaken : m.subscribeClient other id = some m') : Forgotten sub sent m' := by
  obtain ⟨client, hLookup, hTaken⟩ := Option.bind_eq_some_iff.mp hTaken
  obtain ⟨result, hSubscribe, rfl⟩ := Option.map_eq_some_iff.mp hTaken
  obtain ⟨-, -, hSubs, hTexts⟩ := Client.subscribe_eq_some hSubscribe
  refine h.updateClient id ?_ fun hText => ?_
  · rw [hSubs, List.mem_insert_iff, not_or]
    exact ⟨Ne.symm hOther, h.clients id client hLookup⟩
  · have hEq := List.mem_singleton.mp (hTexts hText)
    exact hOther (Request.encodeSubscription.inj hEq).symm

theorem Forgotten.unsubscribeClient (h : Forgotten sub sent m)
    (hTaken : m.unsubscribeClient other id = some m') : Forgotten sub sent m' := by
  obtain ⟨client, hLookup, hTaken⟩ := Option.bind_eq_some_iff.mp hTaken
  obtain ⟨result, hUnsubscribe, rfl⟩ := Option.map_eq_some_iff.mp hTaken
  obtain ⟨-, hSubs, hTexts⟩ := Client.unsubscribe_eq_some hUnsubscribe
  refine h.updateClient id (fun hMem => ?_) (by simp [hTexts])
  rw [hSubs] at hMem
  exact h.clients id client hLookup (List.mem_of_mem_erase hMem)

omit [DecidableEq Subscription] in
theorem Forgotten.addClient (h : Forgotten sub sent m) (maxSubscriptions : Nat) :
    Forgotten sub sent (m.addClient maxSubscriptions) := by
  unfold Manager.addClient
  split
  · exact h
  · refine ⟨h.pending, fun id client hLookup => ?_, h.texts⟩
    simp only [emplace] at hLookup
    split at hLookup
    · exact h.clients id client hLookup
    · by_cases hSame : id = m.nextId_
      · subst hSame
        rw [AList.lookup_insert] at hLookup
        obtain rfl := Option.some.inj hLookup
        exact List.not_mem_nil
      · rw [AList.lookup_insert_ne hSame] at hLookup
        exact h.clients id client hLookup

theorem Forgotten.subscribe (h : Forgotten sub sent m) (clientOrder : HashOrder Nat)
    (hOther : other ≠ sub) : Forgotten sub sent (m.subscribe maxSubscriptions clientOrder other) := by
  unfold Manager.subscribe
  split
  · rename_i taken hTry
    obtain ⟨id, hTaken⟩ := trySubscribe_eq_some hTry
    exact h.subscribeClient hOther hTaken
  · have hAdded := h.addClient maxSubscriptions
    refine ⟨?_, hAdded.clients, hAdded.texts⟩
    rw [List.mem_append, List.mem_singleton, not_or]
    exact ⟨hAdded.pending, Ne.symm hOther⟩

theorem Forgotten.foldl_subscribe (h : Forgotten sub sent m) (clientOrder : HashOrder Nat)
    {subs : List Subscription} (hSubs : sub ∉ subs) : Forgotten sub sent
      (subs.foldl (fun m sub => m.subscribe maxSubscriptions clientOrder sub) m) := by
  induction subs generalizing m with
  | nil => exact h
  | cons first subs ih =>
    rw [List.mem_cons, not_or] at hSubs
    obtain ⟨hFirst, hSubs⟩ := hSubs
    exact ih (h.subscribe clientOrder (Ne.symm hFirst)) hSubs

theorem Forgotten.unsubscribe (h : Forgotten sub sent m) (clientOrder : HashOrder Nat)
    (other : Subscription) : Forgotten sub sent (m.unsubscribe clientOrder other) := by
  unfold Manager.unsubscribe
  cases hFind : (clientOrder.order m.clients_.keys).findSome? (m.unsubscribeClient other) with
  | none => exact h
  | some taken =>
    obtain ⟨id, -, hTaken⟩ := List.exists_of_findSome?_eq_some hFind
    exact h.unsubscribeClient hTaken

theorem Forgotten.takePending (h : Forgotten sub sent m) (id n : Nat) :
    Forgotten sub sent (m.takePending id n).1 := by
  induction n generalizing m with
  | zero => exact h
  | succ n ih =>
    unfold Manager.takePending
    split
    · exact h
    · rename_i last hLast
      have hOther : last ≠ sub := fun hEq =>
        h.pending (hEq ▸ List.mem_of_getLast? hLast)
      have hRest : Forgotten sub sent
          { m with pendingSubscriptions_ := m.pendingSubscriptions_.dropLast } :=
        ⟨fun hMem => h.pending (List.dropLast_subset _ hMem), h.clients, h.texts⟩
      dsimp only
      split
      · exact hRest
      · rename_i taken hTaken
        exact ih (hRest.subscribeClient hOther hTaken)

theorem Forgotten.onConnectionOpen (h : Forgotten sub sent m) (id : Nat) :
    Forgotten sub sent (m.onConnectionOpen maxSubscriptions id) := by
  unfold Manager.onConnectionOpen
  cases hLookup : m.clients_.lookup id with
  | none => exact h
  | some client =>
    have hOpened : Forgotten sub sent (m.opened id client) := by
      have hUpdated : Forgotten sub sent (m.updateClient id (client.onOpen, [])) :=
        h.updateClient id (h.clients id client hLookup) List.not_mem_nil
      exact ⟨h.pending, hUpdated.clients, h.texts⟩
    have hTaken := hOpened.takePending id (min m.pendingSubscriptions_.length client.maxSubscriptions)
    dsimp only
    split <;> rename_i taken hEq <;> rw [hEq] at hTaken
    · exact hTaken
    · split
      · exact hTaken.addClient maxSubscriptions
      · exact hTaken

theorem Forgotten.onConnectionClose (h : Forgotten sub sent m) (id : Nat)
    (clientOrder : HashOrder Nat) (subsOrder : HashOrder Subscription) :
    Forgotten sub sent (m.onConnectionClose maxSubscriptions id clientOrder subsOrder) := by
  unfold Manager.onConnectionClose
  cases hLookup : m.clients_.lookup id with
  | none => exact ⟨h.pending, h.clients, h.texts⟩
  | some client =>
    have hSubs : sub ∉ subsOrder.order client.subscriptions_ := fun hMem =>
      h.clients id client hLookup ((subsOrder.perm _).mem_iff.mp hMem)
    have hClosed : Forgotten sub sent (m.closed id client) := by
      refine ⟨h.pending, fun other client hOther => ?_, h.texts⟩
      have hNe : other ≠ id := by
        rintro rfl
        rw [closed, AList.lookup_erase] at hOther
        cases hOther
      rw [closed, AList.lookup_erase_ne hNe] at hOther
      exact h.clients other client hOther
    dsimp only
    split
    · exact hClosed
    · split
      · refine ⟨?_, hClosed.clients, hClosed.texts⟩
        rw [List.mem_append, not_or]
        exact ⟨h.pending, hSubs⟩
      · exact hClosed.foldl_subscribe clientOrder hSubs

theorem Forgotten.step (h : Forgotten sub sent m) {event : Event Subscription}
    (hEvent : event.subscribed ≠ some sub) :
    Forgotten sub sent (LiveUpdates.step maxSubscriptions m event) := by
  cases event with
  | subscribe other clientOrder => exact h.subscribe clientOrder fun hEq => hEvent (congrArg some hEq)
  | unsubscribe other clientOrder => exact h.unsubscribe clientOrder other
  | connectionOpen id => exact h.onConnectionOpen id
  | connectionClose id clientOrder subsOrder => exact h.onConnectionClose id clientOrder subsOrder
  | retryTimer timer =>
    simp only [LiveUpdates.step, onRetryTimer]
    split
    · have hFired : Forgotten sub sent { m with retryTimers := m.retryTimers.eraseIdx timer } :=
        ⟨h.pending, h.clients, h.texts⟩
      exact hFired.addClient maxSubscriptions
    · exact h
  | stop =>
    simp only [LiveUpdates.step, Manager.stop]
    split
    · exact h
    · exact ⟨h.pending, h.clients, h.texts⟩

def Removable (m : Manager Subscription) (sub : Subscription) : Prop :=
  sub ∉ m.pendingSubscriptions_ ∧ ∀ id client id' client', m.clients_.lookup id = some client →
    sub ∈ client.subscriptions_ → m.clients_.lookup id' = some client' →
    sub ∈ client'.subscriptions_ → id = id'

theorem Removable.unsubscribe (h : m.Removable sub) (clientOrder : HashOrder Nat) :
    Forgotten sub (m.unsubscribe clientOrder sub).sentTexts (m.unsubscribe clientOrder sub) := by
  unfold Manager.unsubscribe
  cases hFind : (clientOrder.order m.clients_.keys).findSome? (m.unsubscribeClient sub) with
  | none =>
    refine ⟨h.1, fun id client hLookup hMem => ?_, [], (List.append_nil _).symm, by simp⟩
    have hLookup : m.clients_.lookup id = some client := hLookup
    have hKey : id ∈ m.clients_.keys := AList.lookup_isSome.mp (by simp [hLookup])
    have hNone := List.findSome?_eq_none_iff.mp hFind id ((clientOrder.perm _).mem_iff.mpr hKey)
    rw [unsubscribeClient, hLookup, Option.bind_some, Option.map_eq_none_iff,
      Client.unsubscribe_eq_none] at hNone
    exact hNone hMem
  | some taken =>
    obtain ⟨id, -, hTaken⟩ := List.exists_of_findSome?_eq_some hFind
    obtain ⟨client, hLookup, hTaken⟩ := Option.bind_eq_some_iff.mp hTaken
    obtain ⟨result, hUnsubscribe, rfl⟩ := Option.map_eq_some_iff.mp hTaken
    obtain ⟨hMem, hSubs, -⟩ := Client.unsubscribe_eq_some hUnsubscribe
    refine ⟨h.1, fun other client' hOther hMem' => ?_, [], by simp, by simp⟩
    simp only [Option.getD_some, Manager.updateClient] at hOther
    by_cases hSame : other = id
    · subst hSame
      rw [AList.lookup_insert] at hOther
      obtain rfl := Option.some.inj hOther
      rw [hSubs] at hMem'
      exact client.nodup.not_mem_erase hMem'
    · rw [AList.lookup_insert_ne hSame] at hOther
      exact hSame (h.2 other client' id client hOther hMem' hLookup hMem)

theorem removable_of_forgotten (clientOrder : HashOrder Nat)
    (h : Forgotten sub sent (m.unsubscribe clientOrder sub)) : m.Removable sub := by
  unfold Manager.unsubscribe at h
  cases hFind : (clientOrder.order m.clients_.keys).findSome? (m.unsubscribeClient sub) with
  | none =>
    rw [hFind] at h
    exact ⟨h.pending, fun id client _ _ hLookup hMem => absurd hMem (h.clients id client hLookup)⟩
  | some taken =>
    rw [hFind] at h
    obtain ⟨id, -, hTaken⟩ := List.exists_of_findSome?_eq_some hFind
    obtain ⟨client, hLookup, hTaken⟩ := Option.bind_eq_some_iff.mp hTaken
    obtain ⟨result, -, rfl⟩ := Option.map_eq_some_iff.mp hTaken
    have hOnly (other : Nat) (client' : Client Subscription)
        (hOther : m.clients_.lookup other = some client') (hMem : sub ∈ client'.subscriptions_) :
        other = id := by
      by_contra hNe
      refine h.clients other client' ?_ hMem
      rw [Option.getD_some, Manager.updateClient, AList.lookup_insert_ne hNe]
      exact hOther
    exact ⟨h.pending, fun other client' other' client'' hOther hMem hOther' hMem' =>
      (hOnly other client' hOther hMem).trans (hOnly other' client'' hOther' hMem').symm⟩

/-- After a run, an unsubscribe call forgets the subscription until it is subscribed to again
exactly when it was not in the backlog and at most one client had it. -/
theorem forgotten_iff_removable (maxSubscriptions : Nat) (before : List (Event Subscription))
    (sub : Subscription) (clientOrder : HashOrder Nat) :
    let m := before.foldl (LiveUpdates.step maxSubscriptions) ({} : Manager Subscription)
    let unsubscribed := LiveUpdates.step maxSubscriptions m (.unsubscribe sub clientOrder)
    (∀ after : List (Event Subscription), (∀ event ∈ after, event.subscribed ≠ some sub) →
      Forgotten sub unsubscribed.sentTexts
        (after.foldl (LiveUpdates.step maxSubscriptions) unsubscribed)) ↔ m.Removable sub := by
  intro m unsubscribed
  constructor
  · intro h
    exact removable_of_forgotten clientOrder (h [] (by simp))
  · intro h after hAfter
    have hSteps : AllSteps (LiveUpdates.step maxSubscriptions)
        (fun _ event => event.subscribed ≠ some sub) unsubscribed after :=
      AllSteps.of_forall_mem fun event hMem _ => hAfter event hMem
    exact hSteps.invariant (h.unsubscribe clientOrder) fun _ _ hForgotten hEvent =>
      hForgotten.step hEvent

/-- Unsubscribed from before the client opens, a subscription is sent when it does. -/
theorem forgotten_counterexample :
    let unsubscribed := ([exampleSubscribe 1, .unsubscribe 1 (.insertion Nat)] : List (Event Nat)).foldl
      (LiveUpdates.step 100) {}
    let opened := LiveUpdates.step 100 unsubscribed (.connectionOpen 0)
    1 ∈ unsubscribed.pendingSubscriptions_ ∧
      (opened.clients_.lookup 0).map Client.subscriptions_ = some [1] ∧
      opened.sentTexts = [(0, .encodeSubscription 1)] := by
  decide

end Chatterino.LiveUpdates.Manager
