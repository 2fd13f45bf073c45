import Chatterino.Qt.QString

/-! # YouTube channels

A channel finds the video of its target, opens a session on its chat and polls it. Every request is
answered later, and no answer is cancelled. The messages themselves, signals and what is shown to the
user are left out.
-/

namespace Chatterino.YouTube

inductive YouTubeConnectionState where
  | Disconnected
  | Resolving
  | Connected
  | Reconnecting
  | Ended
  | Failed
  deriving DecidableEq, Repr

open YouTubeConnectionState

structure YouTubeChatSession where
  apiKey : QString := []
  continuation : QString := []
  videoId : QString := []
  deriving DecidableEq

def YouTubeChatSession.valid (session : YouTubeChatSession) : Bool :=
  !session.apiKey.isEmpty && !session.continuation.isEmpty

/-- `resolveVideoId` and `openSession` answer with an error in place of these. -/
abbrev VideoId := { id : QString // id ≠ [] }

/-- What a chat page gives to a session. A page without a key or a token is an error. -/
structure ChatPage where
  apiKey : QString
  continuation : QString
  apiKey_ne : apiKey ≠ []
  continuation_ne : continuation ≠ []

structure YouTubeChatPoll where
  ok : Bool
  fatal : Bool := false
  nextContinuation : QString := []
  timeoutMs : Int := 5000
  /-- A response without a next token is fatal. -/
  nextContinuation_ne : ok = true → nextContinuation ≠ []

/-- What the user typed. A video id and the links to a video are answered at once, the names of a
channel by a request. -/
structure Target where
  targetIsChannel_ : Bool
  immediate : Option (Option VideoId)

structure Sent where
  text : QString
  liveChatId : QString
  /-- The video that the chat was resolved for. -/
  resolvedFor : QString
  /-- `videoId_` when the text is sent. -/
  videoId : QString
  deriving DecidableEq

structure LiveChatRequest where
  videoId : QString
  text : QString
  deriving DecidableEq

structure YouTubeChannel where
  videoId_ : QString := []
  session_ : YouTubeChatSession := {}
  connectionState_ : YouTubeConnectionState := .Disconnected
  consecutiveFailures_ : Nat := 0
  liveChatId_ : QString := []
  /-- The interval of the timer while it is armed. -/
  pollTimer_ : Option Int := none
  rediscoverTimer_ : Option Int := none
  resolutions : Nat := 0
  /-- The videos whose chat page is requested. -/
  openings : List QString := []
  /-- The sessions as they were when the polls without a response were sent. -/
  polls : List YouTubeChatSession := []
  liveChatRequests : List LiveChatRequest := []
  /-- The video that `liveChatId_` was resolved for. -/
  liveChatVideo : QString := []
  /-- The tokens of the responses whose messages were added. -/
  added : List QString := []
  sent : List Sent := []

namespace YouTubeChannel

def MAX_CONSECUTIVE_FAILURES : Nat := 5
def MIN_POLL_INTERVAL_MS : Int := 1000
def MAX_POLL_INTERVAL_MS : Int := 30000
def REDISCOVER_INTERVAL_MS : Int := 60000

def setConnectionState (state : YouTubeConnectionState) (channel : YouTubeChannel) : YouTubeChannel :=
  { channel with connectionState_ := state }

def scheduleNextPoll (timeoutMs : Int) (channel : YouTubeChannel) : YouTubeChannel :=
  { channel with pollTimer_ := some (max MIN_POLL_INTERVAL_MS (min timeoutMs MAX_POLL_INTERVAL_MS)) }

def pollOnce (channel : YouTubeChannel) : YouTubeChannel :=
  if channel.session_.valid then { channel with polls := channel.session_ :: channel.polls } else channel

def disconnect (channel : YouTubeChannel) : YouTubeChannel :=
  { channel with
    pollTimer_ := none
    rediscoverTimer_ := none
    connectionState_ := Disconnected }

def send (liveChatId resolvedFor text : QString) (channel : YouTubeChannel) : YouTubeChannel :=
  { channel with sent := ⟨text, liveChatId, resolvedFor, channel.videoId_⟩ :: channel.sent }

/-- `signedIn` says that there is an api and an authenticated account. -/
def sendMessage (text : QString) (signedIn : Bool) (channel : YouTubeChannel) : YouTubeChannel :=
  if (QString.trimmed text).isEmpty then channel
  else if !signedIn then channel
  else if channel.videoId_.isEmpty then channel
  else if !channel.liveChatId_.isEmpty then channel.send channel.liveChatId_ channel.liveChatVideo text
  else { channel with liveChatRequests := ⟨channel.videoId_, text⟩ :: channel.liveChatRequests }

/-- The callback of `resolveLiveChatId`. An error leaves the id empty. -/
def onLiveChatId (request : LiveChatRequest) (liveChatId : QString) (channel : YouTubeChannel) :
    YouTubeChannel :=
  if liveChatId.isEmpty then channel
  else
    { channel with liveChatId_ := liveChatId, liveChatVideo := request.videoId }.send liveChatId
      request.videoId request.text

section

variable (target : Target)

def scheduleRediscovery (channel : YouTubeChannel) : YouTubeChannel :=
  if target.targetIsChannel_ then { channel with rediscoverTimer_ := some REDISCOVER_INTERVAL_MS }
  else channel

/-- The callback of `openSession`. -/
def onSession (videoId : QString) (answer : Option ChatPage) (channel : YouTubeChannel) : YouTubeChannel :=
  match answer with
  | none => (channel.setConnectionState Failed).scheduleRediscovery target
  | some page =>
    { channel with
      session_ := { apiKey := page.apiKey, continuation := page.continuation, videoId := videoId }
      consecutiveFailures_ := 0
      connectionState_ := Connected }.pollOnce

/-- The callback of `resolveVideoId`. -/
def onVideoId (answer : Option VideoId) (channel : YouTubeChannel) : YouTubeChannel :=
  match answer with
  | none => (channel.setConnectionState Failed).scheduleRediscovery target
  | some videoId => { channel with videoId_ := videoId, openings := videoId :: channel.openings }

def resolveAndOpen (channel : YouTubeChannel) : YouTubeChannel :=
  match target.immediate with
  | some answer => (channel.setConnectionState Resolving).onVideoId target answer
  | none => { channel with connectionState_ := Resolving, resolutions := channel.resolutions + 1 }

def connect (channel : YouTubeChannel) : YouTubeChannel :=
  if channel.connectionState_ = Connected ∨ channel.connectionState_ = Resolving then channel
  else channel.resolveAndOpen target

def reconnect (channel : YouTubeChannel) : YouTubeChannel :=
  { channel with
    pollTimer_ := none
    rediscoverTimer_ := none
    consecutiveFailures_ := 0 }.resolveAndOpen target

/-- The callback of `poll`. It adds the messages that come after the token of the request. -/
def onPoll (continuation : QString) (poll : YouTubeChatPoll) (channel : YouTubeChannel) : YouTubeChannel :=
  if !poll.ok then
    if poll.fatal then (channel.setConnectionState Ended).scheduleRediscovery target
    else
      let channel := { channel with consecutiveFailures_ := channel.consecutiveFailures_ + 1 }
      if channel.consecutiveFailures_ ≥ MAX_CONSECUTIVE_FAILURES then
        (channel.setConnectionState Failed).scheduleRediscovery target
      else
        (channel.setConnectionState Reconnecting).scheduleNextPoll (2000 * channel.consecutiveFailures_)
  else
    { channel with
      consecutiveFailures_ := 0
      connectionState_ := Connected
      added := continuation :: channel.added
      session_ := { channel.session_ with continuation := poll.nextContinuation } }.scheduleNextPoll
        poll.timeoutMs

inductive Event where
  | connect
  | disconnect
  | reconnect
  | pollTimeout
  | rediscoverTimeout
  | videoResolved (answer : Option VideoId)
  | sessionOpened (videoId : QString) (answer : Option ChatPage)
  | polled (session : YouTubeChatSession) (poll : YouTubeChatPoll)
  | sendMessage (text : QString) (signedIn : Bool)
  | liveChatResolved (request : LiveChatRequest) (liveChatId : QString)

/-- Only an armed timer fires, and only a request is answered, once. -/
def step (channel : YouTubeChannel) : Event → YouTubeChannel
  | .connect => channel.connect target
  | .disconnect => channel.disconnect
  | .reconnect => channel.reconnect target
  | .pollTimeout =>
    if channel.pollTimer_.isSome then { channel with pollTimer_ := none }.pollOnce else channel
  | .rediscoverTimeout =>
    if channel.rediscoverTimer_.isSome then
      { channel with rediscoverTimer_ := none }.resolveAndOpen target
    else channel
  | .videoResolved answer =>
    if channel.resolutions = 0 then channel
    else { channel with resolutions := channel.resolutions - 1 }.onVideoId target answer
  | .sessionOpened videoId answer =>
    if videoId ∈ channel.openings then
      { channel with openings := channel.openings.erase videoId }.onSession target videoId answer
    else channel
  | .polled session poll =>
    if session ∈ channel.polls then
      { channel with polls := channel.polls.erase session }.onPoll target session.continuation poll
    else channel
  | .sendMessage text signedIn => channel.sendMessage text signedIn
  | .liveChatResolved request liveChatId =>
    if request ∈ channel.liveChatRequests then
      { channel with liveChatRequests := channel.liveChatRequests.erase request }.onLiveChatId request
        liveChatId
    else channel

def run (events : List Event) : YouTubeChannel := events.foldl (step target) {}

end

end YouTubeChannel

end Chatterino.YouTube
