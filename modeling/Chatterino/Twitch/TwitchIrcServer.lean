import Chatterino.Util.RatelimitBucket
import Chatterino.Windows.WindowManager
import Mathlib.Data.List.AList

/-! # Channels of the read connection

A channel that is opened is joined through a bucket, and one that is destroyed is parted at once. When the
connection is established, all channels that are open are joined, whatever waits in the bucket already.
-/

namespace Chatterino.Twitch

open QString Windows.Servers

inductive IrcLine where
  | join (name : QString)
  | part (name : QString)
deriving DecidableEq

def IrcLine.name : IrcLine → QString
  | join name => name
  | part name => name

/-- A line, and whether the channels had an entry of its name when it was sent. -/
structure SentLine where
  line : IrcLine
  contained : Bool
deriving DecidableEq

inductive ReadConnection where
  | closed
  /-- The socket is open, but the server has not welcomed the user. -/
  | opening
  | connected
deriving DecidableEq

def joinRatelimitBudget : Int := 18

def joinRatelimitCooldown : Nat := 12500

structure TwitchIrcServer where
  alive : AList fun _ : Nat => QString := ∅
  created : Nat := 0
  channels : AList fun _ : QString => Nat := ∅
  readConnection_ : ReadConnection := .closed
  lines : List SentLine := []
  joinBucket_ : BucketState := .created joinRatelimitBudget joinRatelimitCooldown

inductive ServerEvent where
  | getOrAddChannel (dirtyChannelName : QString)
  | destroyed (channel : Nat)
  | opened
  | connected (visible : List QString)
  | connectionLost
  | joinTimerFires (index : Nat)
deriving DecidableEq

namespace TwitchIrcServer

def sendRaw (line : IrcLine) (server : TwitchIrcServer) : TwitchIrcServer :=
  if server.readConnection_ = .closed then server
  else { server with lines := server.lines ++ [⟨line, line.name ∈ server.channels⟩] }

def actuallyJoin (message : QString) (server : TwitchIrcServer) : TwitchIrcServer :=
  if message ∈ server.channels then server.sendRaw (.join message) else server

def calledBack (bucket : BucketState) (server : TwitchIrcServer) : TwitchIrcServer :=
  match bucket.running, bucket.started.getLast? with
  | _ :: _, some (item, _) => actuallyJoin item { server with joinBucket_ := bucket.callbackReturns }
  | _, _ => { server with joinBucket_ := bucket }

def sendJoin (channel : QString) (server : TwitchIrcServer) : TwitchIrcServer :=
  server.calledBack (server.joinBucket_.send channel)

def joinTimerFires (index : Nat) (server : TwitchIrcServer) : TwitchIrcServer :=
  if index < server.joinBucket_.timers.length then server.calledBack (server.joinBucket_.timerFires index)
  else server

section channels

variable {Uuid : Type} (qt : Windows.QtText Uuid)

def getChannelOrEmpty (dirtyChannelName : QString) (server : TwitchIrcServer) : Bool :=
  let channelName := cleanChannelName qt dirtyChannelName
  (getCustomChannel channelName).isSome ||
    ((server.channels.lookup channelName).any fun weak => (server.alive.lookup weak).isSome)

def getOrAddChannel (dirtyChannelName : QString) (server : TwitchIrcServer) : TwitchIrcServer :=
  let channelName := cleanChannelName qt dirtyChannelName
  if server.getChannelOrEmpty qt channelName then server
  else
    let added := { server with
      alive := server.alive.insert server.created channelName
      created := server.created + 1
      channels := server.channels.insert channelName server.created }
    if server.readConnection_ = .connected ∧ ¬lit "/" <+: channelName then added.sendJoin channelName else added

end channels

def destroyed (channel : Nat) (server : TwitchIrcServer) : TwitchIrcServer :=
  match server.alive.lookup channel with
  | none => server
  | some channelName =>
    let removed := { server with
      alive := server.alive.erase channel
      channels := server.channels.erase channelName }
    if lit "/" <+: channelName then removed else removed.sendRaw (.part channelName)

def activeChannels (server : TwitchIrcServer) : List QString :=
  server.channels.entries.filterMap fun entry => server.alive.lookup entry.2

def onReadConnected (visible : List QString) (server : TwitchIrcServer) : TwitchIrcServer :=
  let active := server.activeChannels
  let names := active.filter (· ∈ visible) ++ active.filter (· ∉ visible)
  (names.filter fun name => ¬lit "/" <+: name).foldl (fun server name => server.sendJoin name) server

section step

variable {Uuid : Type} (qt : Windows.QtText Uuid)

def step (server : TwitchIrcServer) : ServerEvent → TwitchIrcServer
  | .getOrAddChannel dirtyChannelName => server.getOrAddChannel qt dirtyChannelName
  | .destroyed channel => server.destroyed channel
  | .opened =>
    if server.readConnection_ = .closed then { server with readConnection_ := .opening, lines := [] } else server
  | .connected visible =>
    if server.readConnection_ = .opening then onReadConnected visible { server with readConnection_ := .connected }
    else server
  | .connectionLost => { server with readConnection_ := .closed, lines := [] }
  | .joinTimerFires index => server.joinTimerFires index

end step

def joined (lines : List SentLine) : Finset QString :=
  lines.foldl (fun joined sent => match sent.line with
    | .join name => insert name joined
    | .part name => joined.erase name) ∅

def JoinedSince (lines : List SentLine) (name : QString) : Prop :=
  ∃ before sent after, lines = before ++ sent :: after ∧ sent.line = .join name ∧
    ∀ later ∈ after, later.line ≠ .part name

def IsOpen (name : QString) (server : TwitchIrcServer) : Prop :=
  ∃ channel, server.alive.lookup channel = some name

structure JoinsOpenChannels (server : TwitchIrcServer) : Prop where
  joinedOrWaits : server.readConnection_ = .connected → ∀ name, server.IsOpen name → ¬lit "/" <+: name →
    JoinedSince server.lines name ∨ name ∈ server.joinBucket_.queue_
  joinsContained : ∀ sent ∈ server.lines, ∀ name, sent.line = .join name → sent.contained = true
  drained : server.readConnection_ = .connected → server.joinBucket_.queue_ = [] →
    ∀ name, name ∈ joined server.lines ↔ server.IsOpen name ∧ ¬lit "/" <+: name

def DestroysLast (server : TwitchIrcServer) : ServerEvent → Prop
  | .destroyed channel => ∀ other ∈ server.alive, server.alive.lookup other = server.alive.lookup channel → other = channel
  | _ => True

end TwitchIrcServer

namespace TwitchIrcServer

variable {server : TwitchIrcServer} {name : QString} {missing : List QString}

theorem joinedSince_append_singleton (lines : List SentLine) (sent : SentLine) (name : QString) :
    JoinedSince (lines ++ [sent]) name ↔
      sent.line = .join name ∨ JoinedSince lines name ∧ sent.line ≠ .part name := by
  constructor
  · rintro ⟨before, joining, after, hLines, hJoin, hAfter⟩
    obtain rfl | ⟨initial, last, rfl⟩ := after.eq_nil_or_concat
    · obtain rfl := List.singleton_injective (List.append_inj' hLines rfl).2
      exact Or.inl hJoin
    · rw [List.concat_eq_append, ← List.cons_append, ← List.append_assoc] at hLines
      obtain ⟨rfl, hLast⟩ := List.append_inj' hLines rfl
      rw [List.concat_eq_append] at hAfter
      obtain rfl := List.singleton_injective hLast
      refine Or.inr ⟨⟨before, joining, initial, rfl, hJoin, fun later hLater => ?_⟩, ?_⟩
      · exact hAfter later (List.mem_append_left _ hLater)
      · exact hAfter sent (List.mem_append_right _ (List.mem_singleton_self _))
  · rintro (hJoin | ⟨⟨before, joining, after, rfl, hJoin, hAfter⟩, hPart⟩)
    · exact ⟨lines, sent, [], rfl, hJoin, by rintro later ⟨⟩⟩
    · refine ⟨before, joining, after ++ [sent], List.append_assoc _ _ _, hJoin, ?_⟩
      exact List.forall_mem_append.mpr ⟨hAfter, List.forall_mem_singleton.mpr hPart⟩

theorem mem_joined_append_singleton (lines : List SentLine) (sent : SentLine) (name : QString) :
    name ∈ joined (lines ++ [sent]) ↔ sent.line = .join name ∨ name ∈ joined lines ∧ sent.line ≠ .part name := by
  rw [joined, List.foldl_append, List.foldl_cons, List.foldl_nil]
  cases sent.line with
  | join other => simp [joined, eq_comm]
  | part other => simp [joined, and_comm, eq_comm]

theorem mem_joined_iff (lines : List SentLine) (name : QString) : name ∈ joined lines ↔ JoinedSince lines name := by
  induction lines using List.reverseRecOn with
  | nil =>
    refine iff_of_false (Finset.notMem_empty name) ?_
    rintro ⟨before, sent, after, hLines, -⟩
    exact absurd hLines.symm (List.append_ne_nil_of_right_ne_nil _ (List.cons_ne_nil _ _))
  | append_singleton lines sent ih => rw [mem_joined_append_singleton, joinedSince_append_singleton, ih]

/-- The entries are the channels that are alive, and their names are joined, in the queue or still missing. -/
structure Sound (missing : List QString) (server : TwitchIrcServer) : Prop where
  idle : server.joinBucket_.running = []
  entries : ∀ name channel, server.channels.lookup name = some channel → server.alive.lookup channel = some name
  contains : ∀ name, server.IsOpen name → name ∈ server.channels
  fresh : ∀ channel ∈ server.alive, channel < server.created
  queued : ∀ name ∈ server.joinBucket_.queue_, ¬lit "/" <+: name
  lost : server.readConnection_ = .closed → server.lines = []
  contained : ∀ sent ∈ server.lines, ∀ name, sent.line = .join name → sent.contained = true
  joined : ∀ name ∈ joined server.lines, name ∈ server.channels ∧ ¬lit "/" <+: name
  waits : server.readConnection_ = .connected → ∀ name ∈ server.channels, ¬lit "/" <+: name →
    name ∈ TwitchIrcServer.joined server.lines ∨ name ∈ server.joinBucket_.queue_ ∨ name ∈ missing

theorem isOpen_of_mem (h : server.Sound missing) (hMem : name ∈ server.channels) : server.IsOpen name := by
  obtain ⟨channel, hLookup⟩ := Option.isSome_iff_exists.mp (AList.lookup_isSome.mpr hMem)
  exact ⟨channel, h.entries name channel hLookup⟩

theorem Sound.joinsOpenChannels (h : server.Sound []) : server.JoinsOpenChannels where
  joinedOrWaits hConnected name hOpen hSlash := by
    rw [← mem_joined_iff]
    have hWaits := h.waits hConnected name (h.contains name hOpen) hSlash
    exact hWaits.imp_right fun hWaits => hWaits.resolve_right List.not_mem_nil
  joinsContained := h.contained
  drained hConnected hQueue name := by
    constructor
    · intro hJoined
      exact (h.joined name hJoined).imp_left (isOpen_of_mem h)
    · rintro ⟨hOpen, hSlash⟩
      obtain hJoined | hWaits := h.waits hConnected name (h.contains name hOpen) hSlash
      · exact hJoined
      · rw [hQueue] at hWaits
        exact absurd hWaits (not_or_intro List.not_mem_nil List.not_mem_nil)

theorem Sound.join (h : server.Sound (name :: missing)) (hMem : name ∈ server.channels) (hSlash : ¬lit "/" <+: name) :
    (server.sendRaw (.join name)).Sound missing := by
  rw [sendRaw]
  split
  · rename_i hClosed
    refine { h with waits := fun hConnected => ?_ }
    rw [hClosed] at hConnected
    cases hConnected
  · rename_i hOpen
    refine { h with lost := fun hClosed => absurd hClosed hOpen, contained := ?_, joined := ?_, waits := ?_ }
    · intro sent hSent other hJoin
      obtain hOld | hNew := List.mem_append.mp hSent
      · exact h.contained sent hOld other hJoin
      · rw [List.mem_singleton.mp hNew]
        exact decide_eq_true hMem
    · intro other hJoined
      obtain hJoin | ⟨hOld, -⟩ := (mem_joined_append_singleton _ _ other).mp hJoined
      · obtain rfl : name = other := IrcLine.join.inj hJoin
        exact ⟨hMem, hSlash⟩
      · exact h.joined other hOld
    · intro hConnected other hOther hOtherSlash
      dsimp only
      rw [mem_joined_append_singleton]
      obtain hJoined | hQueued | hMissing := h.waits hConnected other hOther hOtherSlash
      · exact Or.inl (Or.inr ⟨hJoined, by rintro ⟨⟩⟩)
      · exact Or.inr (Or.inl hQueued)
      · obtain rfl | hRest := List.mem_cons.mp hMissing
        · exact Or.inl (Or.inl rfl)
        · exact Or.inr (Or.inr hRest)

theorem Sound.actuallyJoin (h : server.Sound (name :: missing)) (hSlash : ¬lit "/" <+: name) :
    (server.actuallyJoin name).Sound missing := by
  rw [TwitchIrcServer.actuallyJoin]
  split
  · rename_i hMem
    exact h.join hMem hSlash
  · rename_i hMem
    refine { h with waits := fun hConnected other hOther hOtherSlash => ?_ }
    obtain hJoined | hQueued | hMissing := h.waits hConnected other hOther hOtherSlash
    · exact Or.inl hJoined
    · exact Or.inr (Or.inl hQueued)
    · obtain rfl | hRest := List.mem_cons.mp hMissing
      · exact absurd hOther hMem
      · exact Or.inr (Or.inr hRest)

theorem calledBack_of_idle {bucket : BucketState} (hIdle : bucket.running = []) :
    server.calledBack bucket = { server with joinBucket_ := bucket } := by
  rw [calledBack, hIdle]

theorem Sound.handleOne (h : server.Sound missing) {bucket : BucketState} (hBucket : server.joinBucket_ = bucket) :
    (server.calledBack bucket.handleOne).Sound missing := by
  subst hBucket
  cases hQueue : server.joinBucket_.queue_ with
  | nil =>
    have hSame : server.joinBucket_.handleOne = server.joinBucket_ := by rw [BucketState.handleOne, hQueue]
    rw [hSame, calledBack_of_idle h.idle]
    exact h
  | cons item queue =>
    have hCalled : server.calledBack server.joinBucket_.handleOne =
        TwitchIrcServer.actuallyJoin item { server with joinBucket_ := server.joinBucket_.handleOne.callbackReturns } := by
      rw [calledBack, BucketState.handleOne, hQueue]
      dsimp only
      rw [List.getLast?_concat]
    have hReturned : server.joinBucket_.handleOne.callbackReturns.queue_ = queue := by
      rw [BucketState.callbackReturns, BucketState.handleOne, hQueue]
    have hQueued := h.queued
    rw [hQueue, List.forall_mem_cons] at hQueued
    rw [hCalled]
    apply Sound.actuallyJoin _ hQueued.1
    refine { h with idle := ?_, queued := ?_, waits := ?_ }
    · rw [BucketState.callbackReturns, BucketState.handleOne, hQueue]
      exact h.idle
    · rw [hReturned]
      exact hQueued.2
    · intro hConnected other hOther hOtherSlash
      dsimp only
      rw [hReturned]
      have hWaits := h.waits hConnected other hOther hOtherSlash
      rw [hQueue] at hWaits
      simp only [List.mem_cons] at hWaits ⊢
      tauto

end TwitchIrcServer

end Chatterino.Twitch
