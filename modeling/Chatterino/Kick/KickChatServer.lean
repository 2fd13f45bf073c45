import Chatterino.Lib.WeakRegistry
import Mathlib.Algebra.Order.Ring.Nat

/-! # Kick channels and their socket

The part of a channel that follows the shared connection. A channel also counts what it has left
outstanding: requests without an answer and single-shot timers that have not fired. Chat messages,
signals and the data shown about a stream are left out.
-/

namespace Chatterino.Kick

inductive KickConnectionState where
  | Disconnected
  | Connecting
  | Connected
  | Reconnecting
  | Failed
  deriving DecidableEq, Repr

/-- The answer to `resolveChannelInfo`. An error leaves both numbers zero. -/
structure ChannelInfo where
  chatroomId : Int := 0
  broadcasterUserId : Int := 0
  deriving DecidableEq

def ChannelInfo.success (info : ChannelInfo) : Bool :=
  0 < info.broadcasterUserId && 0 < info.chatroomId

/-- What the underlying QWebSocket does. `Open` lasts from `open` to a failed attempt or a close. -/
inductive QWebSocketState where
  | Unconnected
  | Open
  | Closing
  deriving DecidableEq, Repr

structure KickWebSocket where
  isConnected_ : Bool := false
  socket_ : QWebSocketState := .Unconnected
  chatrooms : List Int := []

namespace KickWebSocket

def connect (socket : KickWebSocket) : KickWebSocket :=
  if socket.isConnected_ then socket else { socket with socket_ := .Open, chatrooms := [] }

def disconnect (socket : KickWebSocket) : KickWebSocket where
  isConnected_ := false
  socket_ := if socket.socket_ = .Unconnected then .Unconnected else .Closing
  chatrooms := []

def subscribe (socket : KickWebSocket) (chatroomId : Int) : KickWebSocket :=
  if socket.isConnected_ then { socket with chatrooms := socket.chatrooms.insert chatroomId }
  else socket

def unsubscribe (socket : KickWebSocket) (chatroomId : Int) : KickWebSocket :=
  if socket.isConnected_ then { socket with chatrooms := socket.chatrooms.filter (· ≠ chatroomId) }
  else socket

theorem disconnect_unsubscribe (socket : KickWebSocket) (chatroomId : Int) :
    (socket.unsubscribe chatroomId).disconnect = socket.disconnect := by
  unfold unsubscribe
  split <;> rfl

def handleConnectionEstablished (socket : KickWebSocket) : KickWebSocket :=
  { socket with isConnected_ := true }

def onDisconnected (_ : KickWebSocket) : KickWebSocket := {}

def onError (socket : KickWebSocket) : KickWebSocket :=
  if socket.socket_ = .Open ∧ !socket.isConnected_ then { socket with socket_ := .Unconnected }
  else socket

end KickWebSocket

structure KickChannel (Slug : Type) where
  channelSlug_ : Slug
  chatroomId_ : Int := 0
  broadcasterUserId_ : Int := 0
  connectionState_ : KickConnectionState := .Disconnected
  reconnectAttempts_ : Nat := 0
  resolutions : Nat := 0
  /-- Base delays of the pending retries, in milliseconds and without the random part. -/
  retryTimers : List Nat := []
  reconnectTimers : Nat := 0

namespace KickChannel

variable {Slug : Type}

def MAX_RECONNECT_ATTEMPTS : Nat := 5

def setConnectionState (state : KickConnectionState) (channel : KickChannel Slug) : KickChannel Slug :=
  { channel with connectionState_ := state }

def resolveAndSubscribe (channel : KickChannel Slug) : KickChannel Slug :=
  { channel with resolutions := channel.resolutions + 1 }

def onServerConnected (channel : KickChannel Slug) : KickChannel Slug := channel.resolveAndSubscribe

def onServerDisconnected (channel : KickChannel Slug) : KickChannel Slug :=
  channel.setConnectionState .Disconnected

/-- 1 s, 2 s, 4 s and so on, at most 30 s. -/
def baseDelayMs (reconnectAttempts : Nat) : Nat := min (1000 * 2 ^ reconnectAttempts) 30000

def scheduleReconnect (channel : KickChannel Slug) : KickChannel Slug :=
  if channel.reconnectAttempts_ ≥ MAX_RECONNECT_ATTEMPTS then channel.setConnectionState .Failed
  else
    { channel with
      retryTimers := baseDelayMs channel.reconnectAttempts_ :: channel.retryTimers
      reconnectAttempts_ := channel.reconnectAttempts_ + 1 }

def handleConnectionError (channel : KickChannel Slug) : KickChannel Slug :=
  if channel.connectionState_ = .Reconnecting then channel
  else (channel.setConnectionState .Reconnecting).scheduleReconnect

def onServerError (channel : KickChannel Slug) : KickChannel Slug := channel.handleConnectionError

def setChannelInfo (info : ChannelInfo) (channel : KickChannel Slug) : KickChannel Slug :=
  { channel with
    chatroomId_ := info.chatroomId
    broadcasterUserId_ := info.broadcasterUserId }

def setApi (channel : KickChannel Slug) : KickChannel Slug := { channel with resolutions := 0 }

end KickChannel

open Lib KickConnectionState

abbrev ChannelId := Nat

structure KickChatServer (Slug : Type) where
  socket_ : Option KickWebSocket := none
  bySlug_ : Registry Slug ChannelId := ∅
  byChatroom_ : Registry Int ChannelId := ∅
  channels : Heap ChannelId (KickChannel Slug) := fun _ => none
  nextChannel : ChannelId := 0

namespace KickChatServer

section

variable {Slug : Type}

def modify (server : KickChatServer Slug) (id : ChannelId) (f : KickChannel Slug → KickChannel Slug) :
    KickChatServer Slug :=
  { server with channels := server.channels.modify id f }

def onSocket (server : KickChatServer Slug) (f : KickWebSocket → KickWebSocket) : KickChatServer Slug :=
  { server with socket_ := server.socket_.map f }

def isConnected (server : KickChatServer Slug) : Bool := server.socket_.any (·.isConnected_)

def expired (server : KickChatServer Slug) (id : ChannelId) : Bool := (server.channels id).isNone

def locksTo (server : KickChatServer Slug) (reference : Option ChannelId) (id : ChannelId) : Bool :=
  reference = some id && !server.expired id

def pruneExpired (server : KickChatServer Slug) : KickChatServer Slug :=
  { server with
    bySlug_ := server.bySlug_.filter (!server.expired ·)
    byChatroom_ := server.byChatroom_.filter (!server.expired ·) }

def forEachChannel (server : KickChatServer Slug) (f : KickChannel Slug → KickChannel Slug) :
    KickChatServer Slug :=
  { server with channels := server.channels.modifyAll server.bySlug_.refs f }

def ensureConnected (server : KickChatServer Slug) : KickChatServer Slug :=
  { server with socket_ := some (server.socket_.getD {}).connect }

def subscribeChatroom (server : KickChatServer Slug) (chatroomId : Int) (id : ChannelId) :
    KickChatServer Slug :=
  if chatroomId = 0 then server
  else
    { server with byChatroom_ := server.byChatroom_.insert chatroomId id }.onSocket
      (·.subscribe chatroomId)

def leaveChatroom (server : KickChatServer Slug) (id : ChannelId) (channel : KickChannel Slug) :
    KickChatServer Slug :=
  if channel.chatroomId_ ≠ 0 ∧ server.locksTo (server.byChatroom_.lookup channel.chatroomId_) id then
    { server with byChatroom_ := server.byChatroom_.erase channel.chatroomId_ }.onSocket
      (·.unsubscribe channel.chatroomId_)
  else server

def disconnectIfIdle (server : KickChatServer Slug) : KickChatServer Slug :=
  if server.byChatroom_.entries.isEmpty then server.onSocket KickWebSocket.disconnect else server

@[simp] theorem isConnected_ensureConnected (server : KickChatServer Slug) :
    server.ensureConnected.isConnected = server.isConnected := by
  unfold ensureConnected isConnected KickWebSocket.connect
  cases server.socket_ with
  | none => rfl
  | some socket => cases hConnected : socket.isConnected_ <;> simp [hConnected]

def onConnectionStateChanged (server : KickChatServer Slug) (connected : Bool) : KickChatServer Slug :=
  server.pruneExpired.forEachChannel
    (if connected then KickChannel.onServerConnected else KickChannel.onServerDisconnected)

def onError (server : KickChatServer Slug) : KickChatServer Slug :=
  server.pruneExpired.forEachChannel KickChannel.onServerError

def onMessage (server : KickChatServer Slug) (chatroomId : Int) : KickChatServer Slug :=
  match server.byChatroom_.lookup chatroomId with
  | none => server
  | some id =>
    if server.expired id then
      { server with byChatroom_ := server.byChatroom_.erase chatroomId }.onSocket
        (·.unsubscribe chatroomId)
    else server

end

variable {Slug : Type} [DecidableEq Slug] (lower : Slug → Slug)

def findBySlug (server : KickChatServer Slug) (slug : Slug) : Option ChannelId :=
  (server.bySlug_.lookup (lower slug)).filter (!server.expired ·)

def leaveSlug (server : KickChatServer Slug) (id : ChannelId) (channel : KickChannel Slug) :
    KickChatServer Slug :=
  if server.locksTo (server.bySlug_.lookup (lower channel.channelSlug_)) id then
    { server with bySlug_ := server.bySlug_.erase (lower channel.channelSlug_) }
  else server

def leave (server : KickChatServer Slug) (id : ChannelId) (channel : KickChannel Slug) :
    KickChatServer Slug :=
  ((server.leaveChatroom id channel).leaveSlug lower id channel).disconnectIfIdle

variable (enableKickIntegration : Bool)

omit [DecidableEq Slug] in
def connect (server : KickChatServer Slug) (id : ChannelId) : KickChatServer Slug :=
  match server.channels id with
  | none => server
  | some channel =>
    if channel.connectionState_ = Connected ∨ channel.connectionState_ = Connecting then server
    else if !enableKickIntegration then server
    else
      let server := (server.modify id (·.setConnectionState Connecting)).ensureConnected
      if server.isConnected then server.modify id KickChannel.onServerConnected else server

def disconnect (server : KickChatServer Slug) (id : ChannelId) : KickChatServer Slug :=
  match server.channels id with
  | none => server
  | some channel => (server.leave lower id channel).modify id (·.setConnectionState Disconnected)

def reconnect (server : KickChatServer Slug) (id : ChannelId) : KickChatServer Slug :=
  (server.disconnect lower id).modify id fun channel =>
    { channel with reconnectAttempts_ := 0, reconnectTimers := channel.reconnectTimers + 1 }

def destroy (server : KickChatServer Slug) (id : ChannelId) : KickChatServer Slug :=
  match server.channels id with
  | none => server
  | some channel =>
    { server with channels := fun i => if i = id then none else server.channels i }.leave lower id channel

def getOrCreate (server : KickChatServer Slug) (slug : Slug) : KickChatServer Slug × ChannelId :=
  let normalized := lower slug
  match server.findBySlug lower normalized with
  | some existing => (server, existing)
  | none =>
    let id := server.nextChannel
    let server :=
      { server with
        channels := fun i => if i = id then some { channelSlug_ := normalized } else server.channels i
        bySlug_ := server.bySlug_.insert normalized id
        nextChannel := id + 1 }
    (server.connect enableKickIntegration id, id)

omit [DecidableEq Slug] in
/-- The answer of `resolveAndSubscribe`. -/
def onChannelInfo (server : KickChatServer Slug) (id : ChannelId) (info : ChannelInfo) :
    KickChatServer Slug :=
  if !info.success then server.modify id (·.setConnectionState Failed)
  else
    let server := server.modify id (·.setChannelInfo info)
    if server.isConnected then
      (server.subscribeChatroom info.chatroomId id).modify id (·.setConnectionState Connected)
    else server.modify id (·.setConnectionState Failed)

omit [DecidableEq Slug] in
def resolved (server : KickChatServer Slug) (id : ChannelId) (info : ChannelInfo) :
    KickChatServer Slug :=
  match server.channels id with
  | none => server
  | some channel =>
    if channel.resolutions = 0 then server
    else (server.modify id fun channel =>
      { channel with resolutions := channel.resolutions - 1 }).onChannelInfo id info

/-- The timer of `scheduleReconnect` with this delay. -/
def retryTimeout (server : KickChatServer Slug) (id : ChannelId) (delay : Nat) : KickChatServer Slug :=
  match server.channels id with
  | none => server
  | some channel =>
    if delay ∈ channel.retryTimers then
      let server := server.modify id fun channel =>
        { channel with retryTimers := channel.retryTimers.erase delay }
      if channel.connectionState_ = Reconnecting then
        (server.disconnect lower id).connect enableKickIntegration id
      else server
    else server

omit [DecidableEq Slug] in
def reconnectTimeout (server : KickChatServer Slug) (id : ChannelId) : KickChatServer Slug :=
  match server.channels id with
  | none => server
  | some channel =>
    if channel.reconnectTimers = 0 then server
    else (server.modify id fun channel =>
      { channel with reconnectTimers := channel.reconnectTimers - 1 }).connect enableKickIntegration id

inductive Event (Slug : Type) where
  | getOrCreate (slug : Slug)
  | connect (id : ChannelId)
  | disconnect (id : ChannelId)
  | reconnect (id : ChannelId)
  | destroy (id : ChannelId)
  | setApi (id : ChannelId)
  | established
  | closed
  | error
  | pusherError (code : Int)
  | message (chatroomId : Int)
  | resolved (id : ChannelId) (info : ChannelInfo)
  | retryTimeout (id : ChannelId) (delay : Nat)
  | reconnectTimeout (id : ChannelId)

def handlePusherError (server : KickChatServer Slug) (code : Int) : KickChatServer Slug :=
  if code = 4100 ∨ code = 4200 ∨ code = 4300 then server.onError.onSocket KickWebSocket.disconnect
  else server.onError

/-- The socket reports nothing before it exists, and is established only while it is open. -/
def step (server : KickChatServer Slug) : Event Slug → KickChatServer Slug
  | .getOrCreate slug => (server.getOrCreate lower enableKickIntegration slug).1
  | .connect id => server.connect enableKickIntegration id
  | .disconnect id => server.disconnect lower id
  | .reconnect id => server.reconnect lower id
  | .destroy id => server.destroy lower id
  | .setApi id => server.modify id KickChannel.setApi
  | .established =>
    if server.socket_.any (·.socket_ = .Open) then
      (server.onSocket KickWebSocket.handleConnectionEstablished).onConnectionStateChanged true
    else server
  | .closed =>
    if server.socket_.isSome then
      (server.onSocket KickWebSocket.onDisconnected).onConnectionStateChanged false
    else server
  | .error => if server.socket_.isSome then (server.onSocket KickWebSocket.onError).onError else server
  | .pusherError code => if server.socket_.isSome then server.handlePusherError code else server
  | .message chatroomId => server.onMessage chatroomId
  | .resolved id info => server.resolved id info
  | .retryTimeout id delay => server.retryTimeout lower enableKickIntegration id delay
  | .reconnectTimeout id => server.reconnectTimeout enableKickIntegration id

end KickChatServer

end Chatterino.Kick
