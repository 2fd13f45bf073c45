import Chatterino.Irc.IrcConnection

/-! # Recovery of the IRC connection

A lost connection is opened again and one that stays silent is dropped. A reconnect that is scheduled survives a close,
and a call to open a connection that is silent already makes its pings start over.
-/

namespace Chatterino.Irc

open Lib

structure Watched where
  connection : IrcConnection
  /-- It was closed by a call, and no call to open it followed. -/
  closedByCall : Bool := false
  /-- It became unconnected, but not by a call, and neither connected nor closed by a call after that. -/
  lost : Bool := false
  /-- How often the ping timer fired since the last message, or since it connected. -/
  silentFirings : Nat := 0

namespace Watched

variable (payload : QString)

def closedAfter (watched : Watched) : Event → Bool
  | .closes => true
  | .opens => false
  | _ => watched.closedByCall

def lostAfter (watched : Watched) (event : Event) (connection : IrcConnection) : Bool :=
  if event = .closes ∨ connection.socket = .connected then false
  else if watched.connection.socket ≠ .unconnected ∧ connection.socket = .unconnected then true
  else watched.lost

def silentAfter (watched : Watched) (event : Event) : Nat :=
  if watched.connection.socket = .connected then
    match event with
    | .messageReceived _ => 0
    | .pingTimerFires _ => watched.silentFirings + 1
    | _ => watched.silentFirings
  else 0

def step (watched : Watched) (event : Event) : Watched :=
  let connection := watched.connection.step payload event
  { connection,
    closedByCall := watched.closedAfter event,
    lost := watched.lostAfter event connection,
    silentFirings := watched.silentAfter event }

structure Recovers (watched : Watched) : Prop where
  reconnects : watched.lost = true → watched.connection.socket = .unconnected →
    watched.connection.reconnectTimer_.isSome = true
  keepsHealthy : watched.connection.socket = .connected → watched.silentFirings = 0 →
    ∀ now, (watched.connection.pingTimerFires payload now).socket = .connected
  dropsSilent : watched.connection.socket = .connected → 2 ≤ watched.silentFirings →
    ∀ now, (watched.connection.pingTimerFires payload now).socket = .unconnected ∧
      (watched.connection.pingTimerFires payload now).reconnectTimer_.isSome = true
  staysClosed : watched.closedByCall = true →
    watched.connection.socket = .unconnected ∧ watched.connection.reconnectTimerFires.socket = .unconnected

/-- No reconnect is scheduled when the connection is closed, and it is not opened once it is about to be dropped. -/
def CallsInTime (watched : Watched) : Event → Prop
  | .closes => watched.connection.reconnectTimer_ = none
  | .opens => watched.connection.socket = .connected → watched.silentFirings < 2
  | _ => True

instance (watched : Watched) (event : Event) : Decidable (CallsInTime watched event) := by
  cases event <;> unfold CallsInTime <;> infer_instance

inductive Pinged : Bool → Bool → Nat → Prop where
  | fresh {recentlyReceivedMessage_ waitingForPong_ : Bool}
      (hFlags : recentlyReceivedMessage_ = true ∨ waitingForPong_ = false) :
      Pinged recentlyReceivedMessage_ waitingForPong_ 0
  | once (waitingForPong_ : Bool) : Pinged false waitingForPong_ 1
  | twice : Pinged false true 2

inductive Tracked (watched : Watched) : Prop where
  | down (hSocket : watched.connection.socket = .unconnected)
      (hLost : watched.lost = true → watched.connection.reconnectTimer_.isSome = true)
      (hClosed : watched.closedByCall = true → watched.connection.reconnectTimer_ = none)
  | opening (hSocket : watched.connection.socket = .connecting)
      (hExpect : watched.connection.expectConnectionLoss_ = false)
      (hWaiting : watched.connection.waitingForPong_ = false) (hOpen : watched.closedByCall = false)
  | up (hSocket : watched.connection.socket = .connected)
      (hExpect : watched.connection.expectConnectionLoss_ = false) (hTimer : watched.connection.pingTimer_ = true)
      (hOpen : watched.closedByCall = false)
      (hPinged : Pinged watched.connection.recentlyReceivedMessage_ watched.connection.waitingForPong_
        watched.silentFirings)

variable {payload} {watched : Watched}

section firings

variable (payload) {connection : IrcConnection} {silentFirings : Nat}

theorem Pinged.of_open (hPinged : Pinged connection.recentlyReceivedMessage_ connection.waitingForPong_ silentFirings)
    (hFew : silentFirings < 2) : Pinged false false silentFirings := by
  generalize connection.recentlyReceivedMessage_ = recent, connection.waitingForPong_ = waiting at hPinged
  cases hPinged with
  | fresh => exact .fresh (.inr rfl)
  | once => exact .once false
  | twice => omega

theorem Pinged.pingTimerFires
    (hPinged : Pinged connection.recentlyReceivedMessage_ connection.waitingForPong_ silentFirings)
    (hSocket : connection.socket = .connected) (hTimer : connection.pingTimer_ = true)
    (hAnswers : connection.recentlyReceivedMessage_ = true ∨ connection.waitingForPong_ = false) (now : Int) :
    let fired := connection.pingTimerFires payload now
    fired.socket = .connected ∧ fired.pingTimer_ = true ∧
      fired.expectConnectionLoss_ = connection.expectConnectionLoss_ ∧
      Pinged fired.recentlyReceivedMessage_ fired.waitingForPong_ (silentFirings + 1) := by
  have hGuard : connection.pingTimer_ = true ∧ connection.socket = .connected := ⟨hTimer, hSocket⟩
  unfold IrcConnection.pingTimerFires
  rw [if_pos hGuard]
  cases hRecent : connection.recentlyReceivedMessage_ with
  | true =>
    have hFresh : silentFirings = 0 := by
      rw [hRecent] at hPinged
      cases hPinged with
      | fresh => rfl
    subst hFresh
    rw [if_pos rfl, IrcConnection.beat_eq]
    exact ⟨hSocket, hTimer, rfl, .once false⟩
  | false =>
    have hWaiting : connection.waitingForPong_ = false := by simpa [hRecent] using hAnswers
    rw [hRecent, hWaiting] at hPinged
    simp only [hWaiting, Bool.false_eq_true, if_false]
    refine ⟨hSocket, hTimer, rfl, ?_⟩
    unfold IrcConnection.ping IrcConnection.emit
    dsimp only
    rw [hRecent]
    cases hPinged with
    | fresh => exact .once true
    | once => exact .twice

theorem pingTimerFires_of_waiting (hSocket : connection.socket = .connected) (hTimer : connection.pingTimer_ = true)
    (hRecent : connection.recentlyReceivedMessage_ = false) (hWaiting : connection.waitingForPong_ = true)
    (now : Int) :
    (connection.pingTimerFires payload now).socket = .unconnected ∧
      (connection.pingTimerFires payload now).reconnectTimer_.isSome = true := by
  have hGuard : connection.pingTimer_ = true ∧ connection.socket = .connected := ⟨hTimer, hSocket⟩
  unfold IrcConnection.pingTimerFires
  rw [if_pos hGuard]
  simp only [hRecent, hWaiting, Bool.false_eq_true, if_false, if_true]
  constructor
  · rw [IrcConnection.connectionLost_socket, IrcConnection.closeConnection_socket]
  · exact IrcConnection.connectionLost_isSome true

theorem pingTimerFires_of_not_connected (hSocket : connection.socket ≠ .connected) (now : Int) :
    connection.pingTimerFires payload now = connection :=
  if_neg fun hGuard => hSocket hGuard.2

end firings

theorem Tracked.recovers (h : watched.Tracked) : watched.Recovers payload := by
  cases h with
  | down hSocket hLost hClosed =>
    constructor
    · exact fun hAway _ => hLost hAway
    · simp [hSocket]
    · simp [hSocket]
    · intro hCall
      simp [IrcConnection.reconnectTimerFires, hClosed hCall, hSocket]
  | opening hSocket hExpect hWaiting hOpen =>
    constructor <;> simp [hSocket, hOpen]
  | up hSocket hExpect hTimer hOpen hPinged =>
    constructor
    · simp [hSocket]
    · intro _ hFresh now
      rw [hFresh] at hPinged
      have hFlags : watched.connection.recentlyReceivedMessage_ = true ∨
          watched.connection.waitingForPong_ = false := by
        generalize watched.connection.recentlyReceivedMessage_ = recent,
          watched.connection.waitingForPong_ = waiting at hPinged
        cases hPinged with
        | fresh hFlags => exact hFlags
      exact (hPinged.pingTimerFires payload hSocket hTimer hFlags now).1
    · intro _ hSilent now
      generalize hRecent : watched.connection.recentlyReceivedMessage_ = recent,
        hWaiting : watched.connection.waitingForPong_ = waiting, watched.silentFirings = silentFirings at hPinged hSilent
      cases hPinged with
      | fresh | once => omega
      | twice => exact pingTimerFires_of_waiting payload hSocket hTimer hRecent hWaiting now
    · simp [hOpen]

theorem callsInTime_of_recovers (event : Event) (h : watched.Tracked)
    (hNext : (watched.step payload event).Recovers payload) : CallsInTime watched event := by
  cases event with
  | closes =>
    have hClosed : watched.connection.closeConnection.socket = .unconnected := IrcConnection.closeConnection_socket
    have hStays : watched.connection.closeConnection.reconnectTimerFires.socket = .unconnected :=
      (hNext.staysClosed rfl).2
    rw [IrcConnection.reconnectTimerFires_socket hClosed, IrcConnection.closeConnection_reconnectTimer_] at hStays
    simpa [CallsInTime] using hStays
  | opens =>
    intro hSocket
    by_contra hSilent
    have hActive : watched.connection.socket ≠ .unconnected := by simp [hSocket]
    have hTimer : watched.connection.pingTimer_ = true := by
      cases h with
      | down hDown => exact absurd hDown hActive
      | opening hOpening => exact absurd (hSocket.symm.trans hOpening) (by decide)
      | up _ _ hTimer => exact hTimer
    have hOpened : (watched.step payload .opens).connection = _ := IrcConnection.openConnection_of_active hActive
    have hSteady : (watched.step payload .opens).silentFirings = watched.silentFirings := if_pos hSocket
    have hDropped := (hNext.dropsSilent (by rw [hOpened]; exact hSocket) (by omega) 0).1
    rw [hOpened] at hDropped
    let opened : IrcConnection :=
      { watched.connection with
        expectConnectionLoss_ := false, waitingForPong_ := false, recentlyReceivedMessage_ := false }
    have hOnce : Pinged opened.recentlyReceivedMessage_ opened.waitingForPong_ 1 := .once false
    have hKept := hOnce.pingTimerFires payload hSocket hTimer (.inr rfl) 0
    exact absurd (hDropped.symm.trans hKept.1) (by decide)
  | _ => trivial


theorem lost_of_down {event : Event} (hSocket : watched.connection.socket = .unconnected)
    (hLost : (watched.step payload event).lost = true) : watched.lost = true := by
  unfold Watched.step lostAfter at hLost
  simp only [hSocket, ne_eq, not_true_eq_false, false_and, if_false] at hLost
  split at hLost
  · cases hLost
  · exact hLost

section phases

variable {event : Event} (h : watched.Tracked)

include h

theorem Tracked.stays_down (hSocket : watched.connection.socket = .unconnected)
    (hNext : (watched.step payload event).connection.socket = .unconnected)
    (hTimer : (watched.step payload event).connection.reconnectTimer_ = watched.connection.reconnectTimer_)
    (hClosed : (watched.step payload event).closedByCall = true → watched.connection.reconnectTimer_ = none) :
    (watched.step payload event).Tracked := by
  cases h with
  | down _ hLost =>
    apply Tracked.down hNext
    · rw [hTimer]
      exact fun hAway => hLost (lost_of_down hSocket hAway)
    · rw [hTimer]
      exact hClosed
  | opening hActive | up hActive => exact absurd (hSocket.symm.trans hActive) (by decide)

theorem Tracked.unchanged (hConnection : (watched.step payload event).connection = watched.connection)
    (hClosed : (watched.step payload event).closedByCall = watched.closedByCall)
    (hFirings : watched.connection.socket = .connected →
      (watched.step payload event).silentFirings = watched.silentFirings) :
    (watched.step payload event).Tracked := by
  cases h with
  | down hSocket hLost hTimer =>
    apply Tracked.down
    · rw [hConnection, hSocket]
    · rw [hConnection]
      exact fun hAway => hLost (lost_of_down hSocket hAway)
    · rw [hConnection, hClosed]
      exact hTimer
  | opening hSocket hExpect hWaiting hOpen =>
    apply Tracked.opening
    · rw [hConnection, hSocket]
    · rw [hConnection, hExpect]
    · rw [hConnection, hWaiting]
    · rw [hClosed, hOpen]
  | up hSocket hExpect hTimer hOpen hPinged =>
    apply Tracked.up
    · rw [hConnection, hSocket]
    · rw [hConnection, hExpect]
    · rw [hConnection, hTimer]
    · rw [hClosed, hOpen]
    · rw [hConnection, hFirings hSocket]
      exact hPinged

theorem Tracked.timer_of_closed (hClosed : watched.closedByCall = true) :
    watched.connection.socket = .unconnected ∧ watched.connection.reconnectTimer_ = none := by
  cases h with
  | down hSocket _ hTimer => exact ⟨hSocket, hTimer hClosed⟩
  | opening _ _ _ hOpen | up _ _ _ hOpen => exact absurd (hClosed.symm.trans hOpen) (by decide)

theorem Tracked.of_active (hActive : watched.connection.socket ≠ .unconnected) :
    watched.connection.expectConnectionLoss_ = false ∧ watched.closedByCall = false := by
  cases h with
  | down hSocket => exact absurd hSocket hActive
  | opening _ hExpect _ hOpen => exact ⟨hExpect, hOpen⟩
  | up _ hExpect _ hOpen => exact ⟨hExpect, hOpen⟩

end phases

theorem Tracked.unconnected (h : watched.Tracked) : (watched.step payload .unconnected).Tracked := by
  by_cases hSocket : watched.connection.socket = .unconnected
  · have hConnection : (watched.step payload .unconnected).connection = watched.connection := if_pos hSocket
    exact h.unchanged hConnection rfl fun hUp => if_pos hUp
  · obtain ⟨hExpect, hOpen⟩ := h.of_active hSocket
    have hConnection : (watched.step payload .unconnected).connection = _ := if_neg hSocket
    apply Tracked.down
    · rw [hConnection, IrcConnection.socketStateChanged_socket]
    · intro _
      rw [hConnection, IrcConnection.isSome_of_unconnected hExpect]
    · intro hClosed
      exact absurd (hClosed.symm.trans hOpen) (by decide)

theorem Tracked.connected (h : watched.Tracked) : (watched.step payload .connected).Tracked := by
  by_cases hSocket : watched.connection.socket = .connecting
  · cases h with
    | opening _ hExpect hWaiting hOpen =>
      have hConnection : (watched.step payload .connected).connection = _ := if_pos hSocket
      have hFirings : (watched.step payload .connected).silentFirings = 0 := if_neg (by simp [hSocket])
      apply Tracked.up
      · rw [hConnection, IrcConnection.socketStateChanged_socket]
      · rw [hConnection, IrcConnection.socketStateChanged_expectConnectionLoss_, hExpect]
      · rw [hConnection]
      · exact hOpen
      · rw [hFirings, hConnection]
        exact .fresh (.inr hWaiting)
    | down hOther | up hOther => exact absurd (hSocket.symm.trans hOther) (by decide)
  · have hConnection : (watched.step payload .connected).connection = watched.connection := if_neg hSocket
    exact h.unchanged hConnection rfl fun hUp => if_pos hUp

theorem Tracked.messageReceived (h : watched.Tracked) (message : IrcMessage) :
    (watched.step payload (.messageReceived message)).Tracked := by
  have hConnection : (watched.step payload (.messageReceived message)).connection = _ :=
    IrcConnection.messageReceived_eq payload message
  cases h with
  | down hDown hLost hClosed =>
    apply Tracked.stays_down (.down hDown hLost hClosed) hDown
    · rw [hConnection, hDown]
    · rw [hConnection]
    · exact hClosed
  | opening hOpening hExpect hWaiting hOpen =>
    apply Tracked.opening
    · rw [hConnection, hOpening]
    · rw [hConnection, hExpect]
    · exact IrcConnection.messageReceived_waitingForPong_ payload message hWaiting
    · exact hOpen
  | up hUp hExpect hTimer hOpen hPinged =>
    have hFirings : (watched.step payload (.messageReceived message)).silentFirings = 0 := if_pos hUp
    apply Tracked.up
    · rw [hConnection, hUp]
    · rw [hConnection, hExpect]
    · rw [hConnection, hTimer]
    · exact hOpen
    · rw [hFirings, hConnection]
      exact .fresh (.inl rfl)

theorem Tracked.pingTimerFires (h : watched.Tracked) (now : Int) :
    (watched.step payload (.pingTimerFires now)).Tracked := by
  have hOther (hSocket : watched.connection.socket ≠ .connected) :
      (watched.step payload (.pingTimerFires now)).Tracked :=
    h.unchanged (pingTimerFires_of_not_connected payload hSocket now) rfl fun hUp => absurd hUp hSocket
  cases h with
  | down hSocket | opening hSocket => exact hOther (by simp [hSocket])
  | up hUp hExpect hTimer hOpen hPinged =>
    have hFirings : (watched.step payload (.pingTimerFires now)).silentFirings = watched.silentFirings + 1 :=
      if_pos hUp
    by_cases hAnswers :
        watched.connection.recentlyReceivedMessage_ = true ∨ watched.connection.waitingForPong_ = false
    · obtain ⟨hSocket', hTimer', hExpect', hPinged'⟩ :=
        hPinged.pingTimerFires payload hUp hTimer hAnswers now
      apply Tracked.up
      · exact hSocket'
      · exact hExpect'.trans hExpect
      · exact hTimer'
      · exact hOpen
      · rw [hFirings]
        exact hPinged'
    · simp only [not_or, Bool.not_eq_true, Bool.not_eq_false] at hAnswers
      obtain ⟨hSocket', hTimer'⟩ :=
        pingTimerFires_of_waiting payload hUp hTimer hAnswers.1 hAnswers.2 now
      apply Tracked.down
      · exact hSocket'
      · exact fun _ => hTimer'
      · exact fun hClosed => absurd (hClosed.symm.trans hOpen) (by decide)

theorem Tracked.reconnectTimerFires (h : watched.Tracked) : (watched.step payload .reconnectTimerFires).Tracked := by
  cases hScheduled : watched.connection.reconnectTimer_ with
  | none =>
    have hConnection : (watched.step payload .reconnectTimerFires).connection = watched.connection :=
      if_neg (by simp [hScheduled])
    exact h.unchanged hConnection rfl fun hUp => if_pos hUp
  | some delay =>
    have hOpen : watched.closedByCall = false := by
      by_contra hClosed
      have hNone := (h.timer_of_closed (by simpa using hClosed)).2
      exact absurd (hScheduled.symm.trans hNone) (by simp)
    have hFired := watched.connection.reconnectTimerFires_eq delay hScheduled
    cases h with
    | down hSocket =>
      have hConnection : (watched.step payload .reconnectTimerFires).connection = _ :=
        (hFired.trans (if_neg (by simp [hSocket]))).trans (IrcConnection.openConnection_of_unconnected hSocket)
      apply Tracked.opening
      · rw [hConnection]
      · rw [hConnection]
      · rw [hConnection]
      · exact hOpen
    | opening hSocket =>
      have hConnection : (watched.step payload .reconnectTimerFires).connection = _ :=
        (hFired.trans (if_neg (by simp [hSocket]))).trans (IrcConnection.openConnection_of_active (by simp [hSocket]))
      apply Tracked.opening
      · rw [hConnection, hSocket]
      · rw [hConnection]
      · rw [hConnection]
      · exact hOpen
    | up hSocket hExpect hTimer _ hPinged =>
      have hConnection : (watched.step payload .reconnectTimerFires).connection = _ :=
        hFired.trans (if_pos hSocket)
      have hFirings : (watched.step payload .reconnectTimerFires).silentFirings = watched.silentFirings :=
        if_pos hSocket
      apply Tracked.up
      · rw [hConnection, hSocket]
      · rw [hConnection, hExpect]
      · rw [hConnection, hTimer]
      · exact hOpen
      · rw [hConnection, hFirings]
        exact hPinged

theorem Tracked.opens (h : watched.Tracked) (hCalls : CallsInTime watched .opens) :
    (watched.step payload .opens).Tracked := by
  by_cases hSocket : watched.connection.socket = .unconnected
  · have hConnection : (watched.step payload .opens).connection = _ :=
      IrcConnection.openConnection_of_unconnected hSocket
    apply Tracked.opening
    · rw [hConnection]
    · rw [hConnection]
    · rw [hConnection]
    · rfl
  · have hConnection : (watched.step payload .opens).connection = _ :=
      IrcConnection.openConnection_of_active hSocket
    cases h with
    | down hDown => exact absurd hDown hSocket
    | opening hOpening =>
      apply Tracked.opening
      · rw [hConnection, hOpening]
      · rw [hConnection]
      · rw [hConnection]
      · rfl
    | up hUp hExpect hTimer hOpen hPinged =>
      have hFirings : (watched.step payload .opens).silentFirings = watched.silentFirings := if_pos hUp
      apply Tracked.up
      · rw [hConnection, hUp]
      · rw [hConnection]
      · rw [hConnection, hTimer]
      · rfl
      · rw [hFirings, hConnection]
        exact hPinged.of_open (hCalls hUp)

theorem Tracked.closes (hCalls : watched.connection.reconnectTimer_ = none) :
    (watched.step payload .closes).Tracked := by
  have hConnection : (watched.step payload .closes).connection = watched.connection.closeConnection := rfl
  apply Tracked.down
  · rw [hConnection, IrcConnection.closeConnection_socket]
  · rintro ⟨⟩
  · intro _
    rw [hConnection, IrcConnection.closeConnection_reconnectTimer_, hCalls]

theorem Tracked.step (h : watched.Tracked) (event : Event) (hCalls : CallsInTime watched event) :
    (watched.step payload event).Tracked := by
  cases event with
  | unconnected => exact h.unconnected
  | connected => exact h.connected
  | messageReceived message => exact h.messageReceived message
  | pingTimerFires now => exact h.pingTimerFires now
  | reconnectTimerFires => exact h.reconnectTimerFires
  | opens => exact h.opens hCalls
  | closes => exact closes hCalls

/-- The connection recovers in every state of a run if and only if it is closed and opened in time. -/
theorem recovers_iff (payload : QString) (lastPing_ : Int) (events : List Event) :
    (∀ reached, reached <+: events →
        (reached.foldl (step payload) { connection := { lastPing_ := lastPing_ } }).Recovers payload) ↔
      AllSteps (step payload) CallsInTime { connection := { lastPing_ := lastPing_ } } events := by
  have hSide : AllSteps (step payload) (fun _ _ => True) { connection := { lastPing_ := lastPing_ } } events :=
    .of_forall_mem fun _ _ _ => trivial
  apply AllSteps.forall_reached_iff_of_strengthening hSide Tracked (Recovers payload)
  · apply Tracked.down
    · rfl
    · rintro ⟨⟩
    · rintro ⟨⟩
  · exact fun _ h => h.recovers
  · exact fun _ event h _ hNext => callsInTime_of_recovers event h hNext
  · exact fun _ event h _ hCalls => h.step event hCalls

def closedLate : List Event := [.opens, .connected, .unconnected, .closes]

theorem not_recovers_closedLate :
    ¬∀ (payload : QString) (lastPing_ : Int) (events : List Event),
      (events.foldl (step payload) { connection := { lastPing_ := lastPing_ } }).Recovers payload := by
  intro hAll
  exact absurd ((hAll [] 0 closedLate).staysClosed rfl).2 (by decide)

end Watched

end Chatterino.Irc
