import Chatterino.Lib.Retraction
import Chatterino.Lib.Run

/-! # The channel of what is live

A channel is live by the status of its TwitchChannel while it is open, and by a record of the
notification controller while it is not. Both post to /live. A channel is known by its login or its
id, which determine each other, and a login by any spelling. Sounds, toasts and titles are left out.
-/

namespace Chatterino.Twitch

open Lib

structure LiveMessage (C : Type) where
  /-- None in the messages that are about no channel. -/
  id : Option C
  disabled : Bool := false
  deriving DecidableEq

def liveMarking (C : Type) : Marking (LiveMessage C) (Option C) Empty where
  id := LiveMessage.id
  isBy author := author.elim
  mark message := { message with disabled := true }
  id_mark _ := rfl
  isBy_mark author := author.elim
  mark_mark _ := rfl

structure FakeChannel (C : Type) where
  id : Option C
  isLive : Bool
  deriving DecidableEq

structure OpenChannel where
  /-- What a weak pointer to the channel points to. -/
  object : Nat
  hasRoomId : Bool := false
  live : Bool := false
  deriving DecidableEq

structure LiveTracker (C : Type) where
  channelMap : List C
  fakeChannels_ : C → Option (FakeChannel C) := fun _ => none
  /-- The names of the requests without an answer. -/
  fakeRequests : List (List C) := []
  opened : C → Option OpenChannel := fun _ => none
  nextObject : Nat := 0
  /-- The channels of the live controller, each with the object it points to. -/
  channels : List (C × Nat) := []
  immediateRequests : List C := []
  requests : List (List C) := []
  messages : List (LiveMessage C) := []
  /-- The last answer since the channel was opened or closed. -/
  lastAnswer : C → Option Bool := fun _ => none

inductive LiveEvent (C : Type) where
  | openChannel (channel : C)
  | roomIdChanged (channel : C)
  | closeChannel (channel : C)
  | addChannelNotification (channel : C)
  | removeChannelNotification (channel : C)
  | fetchFakeChannels
  /-- The live ones of a batch, or a failure. -/
  | fakeAnswer (request : Nat) (streams : Option (List C))
  | refresh
  | immediateRequest
  | liveAnswer (request : Nat) (streams : Option (List C))
  | notice

def splitListIntoBatches {C : Type} (batchSize : Nat) (list : List C) : List (List C) :=
  (List.range ((list.length + batchSize - 1) / batchSize)).map fun j => (list.drop (j * batchSize)).take batchSize

namespace LiveTracker

variable {C : Type} [DecidableEq C]

def notifyTwitchChannelLive (channel : C) (s : LiveTracker C) : LiveTracker C :=
  { s with messages := s.messages ++ [{ id := some channel }] }

/-- The last message with the id among the last 200 is disabled. -/
def notifyTwitchChannelOffline (id : Option C) (s : LiveTracker C) : LiveTracker C :=
  { s with
    messages := s.messages.take (s.messages.length - 200) ++
      (liveMarking C).retractLast id (s.messages.rtake 200) }

def answered (channel : C) (live : Bool) (s : LiveTracker C) : LiveTracker C :=
  { s with lastAnswer := Function.update s.lastAnswer channel (some live) }

def updateFakeChannel (channelName : C) (live : Bool) (s : LiveTracker C) : LiveTracker C :=
  let isInitialUpdate := (s.fakeChannels_ channelName).isNone
  let fake := (s.fakeChannels_ channelName).getD { id := none, isLive := live }
  if fake.isLive = live ∧ !isInitialUpdate then s
  else
    let id := if live && fake.id.isNone then some channelName else fake.id
    let s : LiveTracker C :=
      { s with fakeChannels_ := Function.update s.fakeChannels_ channelName (some { id, isLive := live }) }
    if !live then s.notifyTwitchChannelOffline id else s.notifyTwitchChannelLive channelName

def fetchFakeChannels (s : LiveTracker C) : LiveTracker C :=
  let channels := s.channelMap.filter fun name => (s.opened name).isNone
  { s with
    fakeChannels_ := fun name => if name ∈ s.channelMap ∧ (s.opened name).isSome then none else s.fakeChannels_ name
    fakeRequests := s.fakeRequests ++ splitListIntoBatches 100 channels }

def onFakeAnswer (batch streams : List C) (s : LiveTracker C) : LiveTracker C :=
  batch.foldl (fun s name => (s.updateFakeChannel name (name ∈ streams)).answered name (name ∈ streams)) s

def openChannel (channel : C) (s : LiveTracker C) : LiveTracker C :=
  if (s.opened channel).isSome then s
  else
    { s with
      opened := Function.update s.opened channel (some { object := s.nextObject })
      nextObject := s.nextObject + 1
      lastAnswer := Function.update s.lastAnswer channel none }

def closeChannel (channel : C) (s : LiveTracker C) : LiveTracker C :=
  if (s.opened channel).isNone then s
  else
    { s with
      opened := Function.update s.opened channel none
      lastAnswer := Function.update s.lastAnswer channel none }

def add (channel : C) (object : Nat) (s : LiveTracker C) : LiveTracker C :=
  { s with
    channels := (channel, object) :: s.channels.filter fun entry => entry.1 ≠ channel
    immediateRequests := s.immediateRequests.insert channel }

def roomIdChanged (channel : C) (s : LiveTracker C) : LiveTracker C :=
  match s.opened channel with
  | none => s
  | some found =>
    if found.hasRoomId then s
    else
      let s : LiveTracker C :=
        { s with opened := Function.update s.opened channel (some { found with hasRoomId := true }) }
      s.add channel found.object

def request (channelIDs : List C) (s : LiveTracker C) : LiveTracker C :=
  { s with requests := s.requests ++ splitListIntoBatches 100 channelIDs }

def updateStreamStatus (channel : C) (found : OpenChannel) (live : Bool) (s : LiveTracker C) : LiveTracker C :=
  if found.live = live then s
  else
    let s : LiveTracker C := { s with opened := Function.update s.opened channel (some { found with live }) }
    if live then s.notifyTwitchChannelLive channel else s.notifyTwitchChannelOffline (some channel)

def lock (channel : C) (s : LiveTracker C) : Option OpenChannel :=
  (s.channels.find? fun entry => entry.1 = channel).bind fun entry =>
    (s.opened channel).filter fun found => found.object = entry.2

def updateChannel (channel : C) (live : Bool) (s : LiveTracker C) : LiveTracker C :=
  match s.lock channel with
  | none => s
  | some found => (s.updateStreamStatus channel found live).answered channel live

def onLiveAnswer (batch streams : List C) (s : LiveTracker C) : LiveTracker C :=
  let deadChannels := batch.filter fun channel => (s.lock channel).isNone
  let s := batch.foldl (fun s channel => s.updateChannel channel (channel ∈ streams)) s
  { s with channels := s.channels.filter fun entry => entry.1 ∉ deadChannels }

def start (names : List C) : LiveTracker C := { channelMap := names }

def step (s : LiveTracker C) : LiveEvent C → LiveTracker C
  | .openChannel channel => s.openChannel channel
  | .roomIdChanged channel => s.roomIdChanged channel
  | .closeChannel channel => s.closeChannel channel
  | .addChannelNotification channel => { s with channelMap := s.channelMap ++ [channel] }
  | .removeChannelNotification channel => { s with channelMap := s.channelMap.filter (· ≠ channel) }
  | .fetchFakeChannels => s.fetchFakeChannels
  | .fakeAnswer i streams =>
    let batch := s.fakeRequests.getD i []
    let s : LiveTracker C := { s with fakeRequests := s.fakeRequests.eraseIdx i }
    streams.elim s fun streams => s.onFakeAnswer batch streams
  | .refresh => s.request (s.channels.map Prod.fst)
  | .immediateRequest =>
    let s' : LiveTracker C := { s with immediateRequests := [] }
    s'.request s.immediateRequests
  | .liveAnswer i streams =>
    let batch := s.requests.getD i []
    let s : LiveTracker C := { s with requests := s.requests.eraseIdx i }
    streams.elim s fun streams => s.onLiveAnswer batch streams
  | .notice => { s with messages := s.messages ++ [{ id := none }] }

def shown (channel : C) (s : LiveTracker C) : Nat :=
  s.messages.countP fun message => message.id = some channel && !message.disabled

def Agrees (s : LiveTracker C) : Prop :=
  ∀ channel, (s.opened channel).isSome ∨ channel ∈ s.channelMap →
    ∀ live, s.lastAnswer channel = some live → s.shown channel = if live then 1 else 0

def MeetsRecords (s : LiveTracker C) : LiveEvent C → Prop
  | .fakeAnswer i (some _) =>
    ∀ channel ∈ s.fakeRequests.getD i [], (s.fakeChannels_ channel).any (·.isLive) ∨ s.shown channel = 0
  | .liveAnswer i (some _) =>
    ∀ channel ∈ s.requests.getD i [], ∀ found ∈ s.lock channel, found.live ∨ s.shown channel = 0
  | _ => True

end LiveTracker

end Chatterino.Twitch
