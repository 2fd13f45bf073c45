import Chatterino.Lib.Run
import Chatterino.Qt.QString

/-! # The IRC connection and its two timers

A timer pings the server and closes a connection that stays silent, another one opens a connection that was lost
after a delay. The handler of a lost connection is the one of the Twitch server.
-/

namespace Chatterino.Irc

structure ExponentialBackoff (maxSteps : Nat) where
  start_ : Nat
  step_ : Nat := 1

namespace ExponentialBackoff

variable {maxSteps : Nat} (backoff : ExponentialBackoff maxSteps)

def next : Nat × ExponentialBackoff maxSteps :=
  (backoff.start_ * 2 ^ (backoff.step_ - 1),
    { backoff with step_ := if maxSteps ≤ backoff.step_ + 1 then maxSteps else backoff.step_ + 1 })

def reset : ExponentialBackoff maxSteps := { backoff with step_ := 1 }

end ExponentialBackoff

inductive Socket where
  | unconnected
  | connecting
  | connected
deriving DecidableEq

inductive IrcSignal where
  | connectionLost (timeout : Bool)
  | heartbeat
  | sent (line : QString)
deriving DecidableEq

structure IrcMessage where
  command : QString
  argument : QString
deriving DecidableEq

structure IrcConnection where
  socket : Socket := .unconnected
  pingTimer_ : Bool := true
  /-- The delay of the reconnect that is scheduled. -/
  reconnectTimer_ : Option Nat := none
  recentlyReceivedMessage_ : Bool := true
  lastPing_ : Int
  reconnectBackoff_ : ExponentialBackoff 5 := { start_ := 1000 }
  expectConnectionLoss_ : Bool := false
  waitingForPong_ : Bool := false
  signals : List IrcSignal := []

inductive Event where
  | unconnected
  | connected
  | messageReceived (message : IrcMessage)
  | pingTimerFires (now : Int)
  | reconnectTimerFires
  | opens
  | closes
deriving DecidableEq

namespace IrcConnection

variable (connection : IrcConnection)

def emit (signal : IrcSignal) : IrcConnection :=
  { connection with signals := connection.signals ++ [signal] }

def smartReconnect : IrcConnection :=
  if connection.reconnectTimer_.isSome then connection
  else
    let next := connection.reconnectBackoff_.next
    { connection with reconnectTimer_ := some next.1, reconnectBackoff_ := next.2 }

def connectionLost (timeout : Bool) : IrcConnection :=
  (connection.emit (.connectionLost timeout)).smartReconnect

def socketStateChanged (state : Socket) : IrcConnection :=
  let changed := { connection with socket := state }
  if state = .unconnected then
    let stopped := { changed with pingTimer_ := false }
    if stopped.expectConnectionLoss_ then stopped else stopped.connectionLost false
  else changed

def openConnection : IrcConnection :=
  let opened :=
    { connection with expectConnectionLoss_ := false, waitingForPong_ := false, recentlyReceivedMessage_ := false }
  if opened.socket = .unconnected then opened.socketStateChanged .connecting else opened

def closeConnection : IrcConnection :=
  let closed := { connection with expectConnectionLoss_ := true }
  if closed.socket = .unconnected then closed else closed.socketStateChanged .unconnected

def reconnectTimerFires : IrcConnection :=
  if connection.reconnectTimer_.isSome then
    let fired := { connection with reconnectTimer_ := none }
    if fired.socket = .connected then fired else fired.openConnection
  else connection

section ping

variable (payload : QString)

def pong (message : IrcMessage) : IrcConnection :=
  if message.command = QString.lit "PONG" ∧ message.argument = payload then
    { connection with waitingForPong_ := false }
  else connection

def messageReceived (message : IrcMessage) : IrcConnection :=
  let received := { connection with recentlyReceivedMessage_ := true }
  let reset :=
    if message.command = QString.lit "372" then
      { received with reconnectBackoff_ := received.reconnectBackoff_.reset }
    else received
  reset.pong payload message

def beat (now : Int) : IrcConnection :=
  let elapsed := now - connection.lastPing_
  if elapsed < 3 * 5000 then { connection.emit .heartbeat with lastPing_ := now }
  else { connection with lastPing_ := now }

def ping : IrcConnection :=
  { connection.emit (.sent (QString.lit "PING " ++ payload)) with waitingForPong_ := true }

def pingTimerFires (now : Int) : IrcConnection :=
  if connection.pingTimer_ ∧ connection.socket = .connected then
    if connection.recentlyReceivedMessage_ then
      beat { connection with recentlyReceivedMessage_ := false, waitingForPong_ := false } now
    else if connection.waitingForPong_ then connection.closeConnection.connectionLost true
    else connection.ping payload
  else connection

def step : Event → IrcConnection
  | .unconnected => if connection.socket = .unconnected then connection else connection.socketStateChanged .unconnected
  | .connected =>
    if connection.socket = .connecting then
      { connection.socketStateChanged .connected with pingTimer_ := true }
    else connection
  | .messageReceived message => connection.messageReceived payload message
  | .pingTimerFires now => connection.pingTimerFires payload now
  | .reconnectTimerFires => connection.reconnectTimerFires
  | .opens => connection.openConnection
  | .closes => connection.closeConnection

end ping

variable {connection}

theorem smartReconnect_isSome : connection.smartReconnect.reconnectTimer_.isSome = true := by
  unfold smartReconnect
  split
  · assumption
  · rfl

theorem connectionLost_isSome (timeout : Bool) :
    (connection.connectionLost timeout).reconnectTimer_.isSome = true :=
  smartReconnect_isSome

theorem connectionLost_eq (timeout : Bool) :
    connection.connectionLost timeout =
      { connection with
        reconnectTimer_ := (connection.connectionLost timeout).reconnectTimer_,
        reconnectBackoff_ := (connection.connectionLost timeout).reconnectBackoff_,
        signals := (connection.connectionLost timeout).signals } := by
  unfold connectionLost smartReconnect
  split
  · rfl
  · rfl

@[simp] theorem connectionLost_socket (timeout : Bool) :
    (connection.connectionLost timeout).socket = connection.socket := by
  rw [connectionLost_eq]

@[simp] theorem connectionLost_expectConnectionLoss_ (timeout : Bool) :
    (connection.connectionLost timeout).expectConnectionLoss_ = connection.expectConnectionLoss_ := by
  rw [connectionLost_eq]

@[simp] theorem socketStateChanged_socket (state : Socket) : (connection.socketStateChanged state).socket = state := by
  unfold socketStateChanged
  dsimp only
  split
  · split
    · rfl
    · exact connectionLost_socket false
  · rfl

@[simp] theorem socketStateChanged_expectConnectionLoss_ (state : Socket) :
    (connection.socketStateChanged state).expectConnectionLoss_ = connection.expectConnectionLoss_ := by
  unfold socketStateChanged
  dsimp only
  split
  · split
    · rfl
    · exact connectionLost_expectConnectionLoss_ false
  · rfl

theorem isSome_of_unconnected (hExpect : connection.expectConnectionLoss_ = false) :
    (connection.socketStateChanged .unconnected).reconnectTimer_.isSome = true := by
  simp only [socketStateChanged, hExpect, if_true, Bool.false_eq_true, if_false]
  exact connectionLost_isSome false

@[simp] theorem closeConnection_socket : connection.closeConnection.socket = .unconnected := by
  unfold closeConnection
  dsimp only
  split
  · assumption
  · exact socketStateChanged_socket _

@[simp] theorem closeConnection_reconnectTimer_ :
    connection.closeConnection.reconnectTimer_ = connection.reconnectTimer_ := by
  simp only [closeConnection, socketStateChanged, if_true]
  split
  · rfl
  · rfl

theorem openConnection_of_unconnected (hSocket : connection.socket = .unconnected) :
    connection.openConnection =
      { connection with
        socket := .connecting, expectConnectionLoss_ := false, waitingForPong_ := false,
        recentlyReceivedMessage_ := false } := by
  simp [openConnection, socketStateChanged, hSocket]

theorem openConnection_of_active (hSocket : connection.socket ≠ .unconnected) :
    connection.openConnection =
      { connection with
        expectConnectionLoss_ := false, waitingForPong_ := false, recentlyReceivedMessage_ := false } := by
  simp [openConnection, hSocket]

theorem beat_eq (now : Int) :
    connection.beat now = { connection with lastPing_ := now, signals := (connection.beat now).signals } := by
  unfold beat
  dsimp only
  split
  · rfl
  · rfl

theorem messageReceived_eq (payload : QString) (message : IrcMessage) :
    connection.messageReceived payload message =
      { connection with
        recentlyReceivedMessage_ := true,
        reconnectBackoff_ := (connection.messageReceived payload message).reconnectBackoff_,
        waitingForPong_ := (connection.messageReceived payload message).waitingForPong_ } := by
  unfold messageReceived pong
  dsimp only
  split
  · split
    · rfl
    · rfl
  · split
    · rfl
    · rfl

theorem messageReceived_waitingForPong_ (payload : QString) (message : IrcMessage)
    (hWaiting : connection.waitingForPong_ = false) :
    (connection.messageReceived payload message).waitingForPong_ = false := by
  unfold messageReceived pong
  dsimp only
  split
  · rfl
  · split
    · exact hWaiting
    · exact hWaiting

theorem reconnectTimerFires_eq (connection : IrcConnection) (delay : Nat)
    (hScheduled : connection.reconnectTimer_ = some delay) :
    connection.reconnectTimerFires =
      let fired := { connection with reconnectTimer_ := none }
      if fired.socket = .connected then fired else fired.openConnection :=
  if_pos (by simp [hScheduled])

theorem reconnectTimerFires_socket (hSocket : connection.socket = .unconnected) :
    connection.reconnectTimerFires.socket =
      if connection.reconnectTimer_.isSome then .connecting else .unconnected := by
  unfold reconnectTimerFires
  split
  · simp [hSocket, openConnection_of_unconnected]
  · exact hSocket

end IrcConnection

end Chatterino.Irc
