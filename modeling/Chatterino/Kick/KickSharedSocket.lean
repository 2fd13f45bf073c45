import Chatterino.Kick.KickInvariants
import Mathlib.Tactic.IntervalCases

/-! # Channels that share a socket

A channel that leaves takes away its own entries only. The socket is closed with the last chatroom,
whatever the channels without one are doing.
-/

namespace Chatterino.Kick

open Lib KickConnectionState

namespace KickChatServer

variable {Slug : Type} {lower : Slug → Slug} {server server' : KickChatServer Slug} {id i : ChannelId}
  {channel : KickChannel Slug} {r : Int}

def Subscribed (server : KickChatServer Slug) (chatroomId : Int) : Prop :=
  ∃ socket, server.socket_ = some socket ∧ chatroomId ∈ socket.chatrooms

def DistinctChatrooms (server : KickChatServer Slug) : Prop :=
  ∀ i j channel other, server.channels i = some channel → server.channels j = some other →
    channel.chatroomId_ ≠ 0 → channel.chatroomId_ = other.chatroomId_ → i = j

structure Undisturbed (server server' : KickChatServer Slug) (id : ChannelId) : Prop where
  channels : ∀ i, i ≠ id → server'.channels i = server.channels i
  entries : ∀ i, i ≠ id → server.channels i ≠ none →
    ∀ r, server'.byChatroom_.lookup r = some i ↔ server.byChatroom_.lookup r = some i
  subscriptions : ∀ i other, i ≠ id → server.channels i = some other →
    (Subscribed server' other.chatroomId_ ↔ Subscribed server other.chatroomId_)
  closed : ¬Down server → Down server' → ∀ i other, i ≠ id → server.channels i = some other →
    other.connectionState_ ≠ Connecting ∧ other.connectionState_ ≠ Connected
  idle : (∀ i, server'.channels i = none) → Down server'

def Unused (server : KickChatServer Slug) (id : ChannelId) : Prop :=
  ∀ i other, i ≠ id → server.channels i = some other →
    (other.connectionState_ ≠ Connecting ∧ other.connectionState_ ≠ Connected) ∧
      ¬Subscribed server other.chatroomId_

def QuietDisconnect (server : KickChatServer Slug) (id : ChannelId) (channel : KickChannel Slug) : Prop :=
  ¬Down server → (server.leaveChatroom id channel).byChatroom_ = ∅ → Unused server id

def QuietDestroy (server : KickChatServer Slug) (id : ChannelId) : Prop :=
  ¬Down server → (server.byChatroom_ = ∅ → Unused server id) ∧
    ((∀ i, i ≠ id → server.channels i = none) → server.byChatroom_ = ∅)

theorem subscribed_congr (h : server'.socket_ = server.socket_) : Subscribed server' r ↔ Subscribed server r := by
  unfold Subscribed
  rw [h]

theorem not_subscribed_of_closed (h : server'.socket_ = server.socket_.map KickWebSocket.disconnect) :
    ¬Subscribed server' r := by
  rintro ⟨socket, hSocket, hMem⟩
  obtain ⟨old, -, rfl⟩ := Option.map_eq_some_iff.mp (h.symm.trans hSocket)
  cases hMem

theorem subscribed_unsubscribe_iff {chatroomId : Int} (hNe : r ≠ chatroomId)
    (h : server'.socket_ = server.socket_.map (·.unsubscribe chatroomId)) :
    Subscribed server' r ↔ Subscribed server r := by
  have hMem (socket : KickWebSocket) : r ∈ (socket.unsubscribe chatroomId).chatrooms ↔ r ∈ socket.chatrooms := by
    unfold KickWebSocket.unsubscribe
    split
    · simp [hNe]
    · rfl
  constructor
  · rintro ⟨socket, hSocket, hSubscribed⟩
    obtain ⟨old, hOld, rfl⟩ := Option.map_eq_some_iff.mp (h.symm.trans hSocket)
    exact ⟨old, hOld, (hMem old).mp hSubscribed⟩
  · rintro ⟨socket, hSocket, hSubscribed⟩
    exact ⟨_, h.trans (congrArg (Option.map _) hSocket), (hMem socket).mpr hSubscribed⟩

theorem not_down_of_subscribed (hSound : ∀ socket, server.socket_ = some socket → socket.Sound)
    (h : Subscribed server r) : ¬Down server := by
  obtain ⟨socket, hSocket, hMem⟩ := h
  intro hDown
  have hConnected : socket.isConnected_ = false :=
    Bool.eq_false_iff.mpr fun hConnected => hDown socket hSocket (.inl hConnected)
  rw [(hSound socket hSocket).chatrooms hConnected] at hMem
  cases hMem

variable [DecidableEq Slug]

theorem subscribed_leave_iff (hDistinct : DistinctChatrooms server)
    (hLive : server.channels id = some channel) {other : KickChannel Slug} (hNe : i ≠ id)
    (hOther : server.channels i = some other)
    (hRest : (server.leaveChatroom id channel).byChatroom_ ≠ ∅) :
    Subscribed (server.leave lower id channel) other.chatroomId_ ↔ Subscribed server other.chatroomId_ := by
  have hSocket : (server.leave lower id channel).socket_ = _ := socket_leave
  rw [if_neg hRest] at hSocket
  by_cases hHolds : HoldsChatroom server id channel
  · rw [leaveChatroom_of_holds hHolds] at hSocket
    refine subscribed_unsubscribe_iff ?_ hSocket
    exact fun hSame => hNe (hDistinct id i channel other hLive hOther hHolds.1 hSame.symm).symm
  · rw [leaveChatroom_of_not_holds hHolds] at hSocket
    exact subscribed_congr hSocket

theorem undisturbed_disconnect_iff (hWellFormed : WellFormed lower server)
    (hDistinct : DistinctChatrooms server) (hLive : server.channels id = some channel) :
    Undisturbed server (server.disconnect lower id) id ↔ QuietDisconnect server id channel := by
  have hSocket : (server.leave lower id channel).socket_ = _ := socket_leave
  rw [disconnect_eq hLive]
  constructor
  · intro h hUp hEmpty i other hNe hOther
    rw [if_pos hEmpty] at hSocket
    refine ⟨h.closed hUp (down_leave_iff.mpr (.inl hEmpty)) i other hNe hOther, ?_⟩
    exact fun hSubscribed =>
      not_subscribed_of_closed hSocket ((h.subscriptions i other hNe hOther).mpr hSubscribed)
  · intro hQuiet
    refine ⟨?_, ?_, ?_, ?_, ?_⟩
    · intro i hNe
      refine (Heap.modify_of_ne hNe).trans ?_
      rw [channels_leave]
    · intro i hNe _ r
      change (server.leave lower id channel).byChatroom_.lookup r = some i ↔ _
      rw [byChatroom_leave, lookup_leaveChatroom]
      refine and_iff_left_of_imp fun hEntry => ?_
      rintro ⟨rfl, hHolds⟩
      exact hNe (Option.some.inj (hEntry.symm.trans hHolds.2.1))
    · intro i other hNe hOther
      by_cases hEmpty : (server.leaveChatroom id channel).byChatroom_ = ∅
      · rw [if_pos hEmpty] at hSocket
        refine iff_of_false (not_subscribed_of_closed hSocket) fun hSubscribed => ?_
        have hUp := not_down_of_subscribed hWellFormed.sound hSubscribed
        exact (hQuiet hUp hEmpty i other hNe hOther).2 hSubscribed
      · exact subscribed_leave_iff hDistinct hLive hNe hOther hEmpty
    · intro hUp hDown i other hNe hOther
      rcases down_leave_iff.mp hDown with hEmpty | hWasDown
      · exact (hQuiet hUp hEmpty i other hNe hOther).1
      · exact absurd hWasDown hUp
    · intro hGone
      have hKept := hGone id
      change (server.leave lower id channel).channels.modify id _ id = none at hKept
      rw [channels_leave, Heap.modify_self, hLive] at hKept
      cases hKept

omit [DecidableEq Slug] in
theorem down_disconnectIfIdle_iff :
    Down server.disconnectIfIdle ↔ server.byChatroom_ = ∅ ∨ Down server := by
  unfold disconnectIfIdle
  rw [← Registry.isEmpty_iff]
  split
  · rename_i hEmpty
    refine iff_of_true ?_ (.inl hEmpty)
    intro socket hSocket
    obtain ⟨old, -, rfl⟩ := Option.map_eq_some_iff.mp hSocket
    exact KickWebSocket.not_up_disconnect
  · rename_i hEmpty
    exact (or_iff_right hEmpty).symm

theorem undisturbed_destroy_iff (hWellFormed : WellFormed lower server)
    (hLive : server.channels id = some channel) :
    Undisturbed server (server.destroy lower id) id ↔ QuietDestroy server id := by
  have hGone : server.destroy lower id =
      { server with channels := fun i => if i = id then none else server.channels i }.disconnectIfIdle :=
    destroy_eq hLive
  have hParts (s : KickChatServer Slug) : s.disconnectIfIdle.channels = s.channels ∧
      s.disconnectIfIdle.byChatroom_ = s.byChatroom_ := by
    unfold disconnectIfIdle
    split <;> exact ⟨rfl, rfl⟩
  have hClosed (hEmpty : server.byChatroom_ = ∅) :
      (server.destroy lower id).socket_ = server.socket_.map KickWebSocket.disconnect := by
    rw [hGone, disconnectIfIdle, if_pos (Registry.isEmpty_iff.mpr hEmpty)]
    rfl
  have hOpen (hRest : server.byChatroom_ ≠ ∅) :
      (server.destroy lower id).socket_ = server.socket_ := by
    rw [hGone, disconnectIfIdle, if_neg fun hEmpty => hRest (Registry.isEmpty_iff.mp hEmpty)]
  have hDown : Down (server.destroy lower id) ↔ server.byChatroom_ = ∅ ∨ Down server := by
    rw [hGone]
    exact down_disconnectIfIdle_iff
  have hOthers (i : ChannelId) (hNe : i ≠ id) : (server.destroy lower id).channels i = server.channels i := by
    rw [hGone, (hParts _).1]
    exact if_neg hNe
  have hSelf : (server.destroy lower id).channels id = none := by
    rw [hGone, (hParts _).1]
    exact if_pos rfl
  constructor
  · intro h hUp
    constructor
    · intro hEmpty i other hNe hOther
      refine ⟨h.closed hUp (hDown.mpr (.inl hEmpty)) i other hNe hOther, fun hSubscribed => ?_⟩
      exact not_subscribed_of_closed (hClosed hEmpty) ((h.subscriptions i other hNe hOther).mpr hSubscribed)
    · intro hLast
      refine (hDown.mp (h.idle fun i => ?_)).resolve_right hUp
      rcases eq_or_ne i id with rfl | hNe
      · exact hSelf
      · exact (hOthers i hNe).trans (hLast i hNe)
  · intro hQuiet
    refine ⟨hOthers, ?_, ?_, ?_, ?_⟩
    · intro i _ _ r
      rw [hGone, (hParts _).2]
    · intro i other hNe hOther
      by_cases hEmpty : server.byChatroom_ = ∅
      · refine iff_of_false (not_subscribed_of_closed (hClosed hEmpty)) fun hSubscribed => ?_
        have hUp := not_down_of_subscribed hWellFormed.sound hSubscribed
        exact ((hQuiet hUp).1 hEmpty i other hNe hOther).2 hSubscribed
      · exact subscribed_congr (hOpen hEmpty)
    · intro hUp hNowDown i other hNe hOther
      exact ((hQuiet hUp).1 ((hDown.mp hNowDown).resolve_right hUp) i other hNe hOther).1
    · intro hNone
      refine hDown.mpr (or_iff_not_imp_right.mpr fun hUp => (hQuiet hUp).2 fun i hNe => ?_)
      exact (hOthers i hNe).symm.trans (hNone i)

/-- Leaving disturbs no other channel exactly when it closes no socket that others use, and the last channel leaves no
chatroom behind. -/
theorem undisturbed_iff (hLower : ∀ slug, lower (lower slug) = lower slug) (events : List (Event Slug))
    (id : ChannelId) (channel : KickChannel Slug) (hLive : (run lower events).channels id = some channel)
    (hDistinct : DistinctChatrooms (run lower events)) :
    (Undisturbed (run lower events) (run lower (events ++ [.disconnect id])) id ↔
      QuietDisconnect (run lower events) id channel) ∧
    (Undisturbed (run lower events) (run lower (events ++ [.destroy id])) id ↔
      QuietDestroy (run lower events) id) := by
  have hWellFormed := wellFormed_run hLower events
  have hNext (event : Event Slug) : run lower (events ++ [event]) = (run lower events).step lower true event :=
    List.foldl_append
  rw [hNext, hNext]
  exact ⟨undisturbed_disconnect_iff hWellFormed hDistinct hLive, undisturbed_destroy_iff hWellFormed hLive⟩

theorem undisturbed_of_second_chatroom :
    Undisturbed (run (fun slug : Nat => slug) [.getOrCreate 0, .getOrCreate 1, .established,
        .resolved 0 ⟨7, 8⟩, .resolved 1 ⟨9, 10⟩])
      (run (fun slug => slug) ([.getOrCreate 0, .getOrCreate 1, .established,
        .resolved 0 ⟨7, 8⟩, .resolved 1 ⟨9, 10⟩] ++ [.disconnect 0])) 0 := by
  have hWellFormed : WellFormed (fun slug : Nat => slug) (run (fun slug => slug) [.getOrCreate 0,
      .getOrCreate 1, .established, .resolved 0 ⟨7, 8⟩, .resolved 1 ⟨9, 10⟩]) :=
    wellFormed_run (fun _ => rfl) _
  refine ((undisturbed_iff (fun _ => rfl) _ 0 _ rfl ?_).1).mpr ?_
  · intro i j channel other hChannel hOther _ hRoom
    have hi : i < 2 := hWellFormed.live_lt i channel hChannel
    have hj : j < 2 := hWellFormed.live_lt j other hOther
    interval_cases i <;> interval_cases j <;> obtain rfl := Option.some.inj hChannel <;>
      obtain rfl := Option.some.inj hOther
    · rfl
    · cases hRoom
    · cases hRoom
    · rfl
  · intro _ hEmpty
    cases hEmpty

/-- A channel that leaves closes the socket while another one waits for its chatroom. -/
theorem not_undisturbed_of_resolving : ¬∀ (lower : Nat → Nat), (∀ slug, lower (lower slug) = lower slug) →
    ∀ events id channel, (run lower events).channels id = some channel →
      DistinctChatrooms (run lower events) →
      Undisturbed (run lower events) (run lower (events ++ [.disconnect id])) id ∧
        Undisturbed (run lower events) (run lower (events ++ [.destroy id])) id := by
  intro hAll
  have hWellFormed : WellFormed (fun slug : Nat => slug) (run (fun slug => slug)
      [.getOrCreate 0, .established, .resolved 0 ⟨7, 8⟩, .getOrCreate 1]) :=
    wellFormed_run (fun _ => rfl) _
  have hUndisturbed := (hAll (fun slug => slug) (fun _ => rfl)
    [.getOrCreate 0, .established, .resolved 0 ⟨7, 8⟩, .getOrCreate 1] 0 _ rfl ?_).1
  · refine (hUndisturbed.closed ?_ ?_ 1 _ (by decide) rfl).1 rfl
    · exact fun hDown => hDown _ rfl (.inl rfl)
    · intro socket hSocket
      obtain rfl := Option.some.inj hSocket
      rintro (hConnected | hOpen)
      · cases hConnected
      · cases hOpen
  · intro i j channel other hChannel hOther hRoom hSame
    have hi : i < 2 := hWellFormed.live_lt i channel hChannel
    have hj : j < 2 := hWellFormed.live_lt j other hOther
    interval_cases i <;> interval_cases j <;> obtain rfl := Option.some.inj hChannel <;>
      obtain rfl := Option.some.inj hOther
    · rfl
    · cases hSame
    · cases hSame
    · rfl

end KickChatServer

end Chatterino.Kick
