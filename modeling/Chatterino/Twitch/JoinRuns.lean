import Chatterino.Twitch.TwitchIrcServer

/-! # Events and the channels that are joined

An event leaves no channel behind that is neither joined nor waits for it, unless a channel is destroyed while
another one of its name is open.
-/

namespace Chatterino.Twitch

open QString Windows.Servers

namespace TwitchIrcServer

variable {server : TwitchIrcServer} {name : QString} {missing : List QString} {Uuid : Type}
  {qt : Windows.QtText Uuid}

theorem Sound.sendJoin (h : server.Sound (name :: missing)) (hSlash : ¬lit "/" <+: name) :
    (server.sendJoin name).Sound missing := by
  let bucket := { server.joinBucket_ with
    queue_ := server.joinBucket_.queue_ ++ [name], sent := server.joinBucket_.sent ++ [name] }
  have hQueued : Sound missing { server with joinBucket_ := bucket } := by
    refine { h with queued := ?_, waits := ?_ }
    · exact List.forall_mem_append.mpr ⟨h.queued, List.forall_mem_singleton.mpr hSlash⟩
    · intro hConnected other hOther hOtherSlash
      have hWaits := h.waits hConnected other hOther hOtherSlash
      rw [List.mem_cons] at hWaits
      dsimp only [bucket]
      rw [List.mem_append, List.mem_singleton]
      tauto
  rw [TwitchIrcServer.sendJoin, BucketState.send]
  dsimp only
  split
  · exact hQueued.handleOne rfl
  · rw [calledBack_of_idle (show bucket.running = [] from h.idle)]
    exact hQueued

theorem Sound.joinTimerFires (h : server.Sound missing) (index : Nat) : (server.joinTimerFires index).Sound missing := by
  rw [TwitchIrcServer.joinTimerFires]
  split
  · let bucket := { server.joinBucket_ with
      budget_ := server.joinBucket_.budget_ + 1, timers := server.joinBucket_.timers.eraseIdx index }
    have hGiven : Sound missing { server with joinBucket_ := bucket } := { h with }
    exact hGiven.handleOne rfl
  · exact h

theorem mem_insert_alive (h : server.Sound missing) {channel : Nat} {newName : QString}
    (hLookup : server.alive.lookup channel = some name) :
    (server.alive.insert server.created newName).lookup channel = some name := by
  have hOld : channel < server.created := h.fresh channel (AList.lookup_isSome.mp (by rw [hLookup]; rfl))
  rw [AList.lookup_insert_ne hOld.ne, hLookup]

theorem Sound.add (h : server.Sound []) (channelName : QString) :
    Sound [channelName] { server with
      alive := server.alive.insert server.created channelName
      created := server.created + 1
      channels := server.channels.insert channelName server.created } where
  idle := h.idle
  entries name channel hLookup := by
    by_cases hName : name = channelName
    · subst hName
      rw [AList.lookup_insert] at hLookup
      obtain rfl := Option.some.inj hLookup
      exact AList.lookup_insert _
    · rw [AList.lookup_insert_ne hName] at hLookup
      exact mem_insert_alive h (h.entries name channel hLookup)
  contains name hOpen := by
    obtain ⟨channel, hLookup⟩ := hOpen
    rw [AList.mem_insert]
    by_cases hChannel : channel = server.created
    · subst hChannel
      rw [AList.lookup_insert] at hLookup
      exact Or.inl (Option.some.inj hLookup).symm
    · rw [AList.lookup_insert_ne hChannel] at hLookup
      exact Or.inr (h.contains name ⟨channel, hLookup⟩)
  fresh channel hMem := by
    obtain rfl | hOld := (AList.mem_insert _).mp hMem
    · exact Nat.lt_succ_self _
    · exact Nat.lt_succ_of_lt (h.fresh channel hOld)
  queued := h.queued
  lost := h.lost
  contained := h.contained
  joined name hJoined := (h.joined name hJoined).imp_left fun hMem => (AList.mem_insert _).mpr (Or.inr hMem)
  waits hConnected name hMem hSlash := by
    obtain rfl | hOld := (AList.mem_insert _).mp hMem
    · exact Or.inr (Or.inr (List.mem_singleton_self _))
    · have hWaits := h.waits hConnected name hOld hSlash
      exact hWaits.imp_right fun hWaits => Or.inl (hWaits.resolve_right List.not_mem_nil)

theorem Sound.getOrAddChannel (h : server.Sound []) (dirtyChannelName : QString) :
    (server.getOrAddChannel qt dirtyChannelName).Sound [] := by
  rw [TwitchIrcServer.getOrAddChannel]
  dsimp only
  split
  · exact h
  · have hAdded := h.add (cleanChannelName qt dirtyChannelName)
    split
    · rename_i hJoin
      exact hAdded.sendJoin hJoin.2
    · rename_i hNot
      refine { hAdded with waits := fun hConnected name hMem hSlash => ?_ }
      obtain hJoined | hQueued | hMissing := hAdded.waits hConnected name hMem hSlash
      · exact Or.inl hJoined
      · exact Or.inr (Or.inl hQueued)
      · rw [List.mem_singleton.mp hMissing] at hSlash
        exact absurd ⟨hConnected, hSlash⟩ hNot

theorem Sound.remove (h : server.Sound []) {channel : Nat} {channelName : QString}
    (hLookup : server.alive.lookup channel = some channelName) (hLast : server.DestroysLast (.destroyed channel))
    {lines : List SentLine} (hLost : server.readConnection_ = .closed → lines = [])
    (hContained : ∀ sent ∈ lines, ∀ name, sent.line = .join name → sent.contained = true)
    (hJoined : ∀ name, name ∈ TwitchIrcServer.joined lines ↔
      name ∈ TwitchIrcServer.joined server.lines ∧ name ≠ channelName) :
    Sound [] { server with
      alive := server.alive.erase channel
      channels := server.channels.erase channelName
      lines := lines } where
  idle := h.idle
  entries name other hOther := by
    have hName : name ≠ channelName := by
      rintro rfl
      rw [AList.lookup_erase] at hOther
      cases hOther
    rw [AList.lookup_erase_ne hName] at hOther
    have hAlive := h.entries name other hOther
    have hNe : other ≠ channel := by
      rintro rfl
      exact hName (Option.some.inj (hAlive.symm.trans hLookup))
    rw [AList.lookup_erase_ne hNe, hAlive]
  contains name hOpen := by
    obtain ⟨other, hOther⟩ := hOpen
    have hNe : other ≠ channel := by
      rintro rfl
      rw [AList.lookup_erase] at hOther
      cases hOther
    rw [AList.lookup_erase_ne hNe] at hOther
    refine AList.mem_erase.mpr ⟨?_, h.contains name ⟨other, hOther⟩⟩
    rintro rfl
    exact hNe (hLast other (AList.lookup_isSome.mp (by rw [hOther]; rfl)) (hOther.trans hLookup.symm))
  fresh other hMem := h.fresh other (AList.mem_erase.mp hMem).2
  queued := h.queued
  lost := hLost
  contained := hContained
  joined name hMem := by
    obtain ⟨hOld, hName⟩ := (hJoined name).mp hMem
    exact (h.joined name hOld).imp_left fun hEntry => AList.mem_erase.mpr ⟨hName, hEntry⟩
  waits hConnected name hMem hSlash := by
    obtain ⟨hName, hEntry⟩ := AList.mem_erase.mp hMem
    exact (h.waits hConnected name hEntry hSlash).imp_left fun hOld => (hJoined name).mpr ⟨hOld, hName⟩

theorem Sound.destroyed (h : server.Sound []) {channel : Nat} (hLast : server.DestroysLast (.destroyed channel)) :
    (server.destroyed channel).Sound [] := by
  rw [TwitchIrcServer.destroyed]
  split
  · exact h
  · rename_i channelName hLookup
    dsimp only
    split
    · rename_i hSlash
      refine h.remove hLookup hLast h.lost h.contained fun name => (and_iff_left_of_imp fun hOld => ?_).symm
      rintro rfl
      exact (h.joined name hOld).2 hSlash
    · rw [sendRaw]
      split
      · rename_i hClosed
        have hLines : server.lines = [] := h.lost hClosed
        refine h.remove hLookup hLast h.lost h.contained fun name => ?_
        rw [hLines]
        exact iff_of_false (Finset.notMem_empty name) fun hOld => Finset.notMem_empty name hOld.1
      · rename_i hOpen
        refine h.remove hLookup hLast (fun hClosed => absurd hClosed hOpen) ?_ fun name => ?_
        · rintro sent hSent name hJoin
          obtain hOld | hNew := List.mem_append.mp hSent
          · exact h.contained sent hOld name hJoin
          · rw [List.mem_singleton.mp hNew] at hJoin
            cases hJoin
        · rw [mem_joined_append_singleton]
          simp [eq_comm]

theorem mem_activeChannels (h : server.Sound missing) : name ∈ server.activeChannels ↔ name ∈ server.channels := by
  rw [activeChannels, List.mem_filterMap, ← AList.lookup_isSome, Option.isSome_iff_exists]
  constructor
  · rintro ⟨entry, hEntry, hAlive⟩
    have hLookup := AList.mem_lookup_iff.mpr hEntry
    obtain rfl := Option.some.inj (hAlive.symm.trans (h.entries entry.1 entry.2 hLookup))
    exact ⟨entry.2, hLookup⟩
  · rintro ⟨channel, hLookup⟩
    exact ⟨⟨name, channel⟩, AList.mem_lookup_iff.mp hLookup, h.entries name channel hLookup⟩

theorem Sound.foldl_sendJoin {names : List QString} (h : server.Sound names) (hSlash : ∀ name ∈ names, ¬lit "/" <+: name) :
    (names.foldl (fun server name => server.sendJoin name) server).Sound [] := by
  induction names generalizing server with
  | nil => exact h
  | cons name names ih =>
    obtain ⟨hName, hNames⟩ := List.forall_mem_cons.mp hSlash
    exact ih (h.sendJoin hName) hNames

theorem Sound.connected (h : server.Sound []) (visible : List QString) :
    (onReadConnected visible { server with readConnection_ := .connected }).Sound [] := by
  apply Sound.foldl_sendJoin
  · refine { h with lost := ?_, waits := ?_ }
    · rintro ⟨⟩
    · intro _ name hMem hSlash
      refine Or.inr (Or.inr ?_)
      have hActive : name ∈ activeChannels { server with readConnection_ := .connected } := (mem_activeChannels h).mpr hMem
      rw [List.mem_filter, List.mem_append, List.mem_filter, List.mem_filter]
      refine ⟨?_, decide_eq_true hSlash⟩
      by_cases hVisible : name ∈ visible
      · exact Or.inl ⟨hActive, decide_eq_true hVisible⟩
      · exact Or.inr ⟨hActive, decide_eq_true hVisible⟩
  · intro name hMem
    exact of_decide_eq_true (List.mem_filter.mp hMem).2

theorem Sound.step (h : server.Sound []) {event : ServerEvent} (hLast : server.DestroysLast event) :
    (server.step qt event).Sound [] := by
  cases event with
  | getOrAddChannel dirtyChannelName => exact h.getOrAddChannel dirtyChannelName
  | destroyed channel => exact h.destroyed hLast
  | opened =>
    rw [TwitchIrcServer.step]
    split
    · refine { h with lost := fun _ => rfl, contained := ?_, joined := ?_, waits := ?_ }
      · rintro sent ⟨⟩
      · exact fun name hJoined => absurd hJoined (Finset.notMem_empty name)
      · rintro ⟨⟩
    · exact h
  | connected visible =>
    rw [TwitchIrcServer.step]
    split
    · exact h.connected visible
    · exact h
  | connectionLost =>
    refine { h with lost := fun _ => rfl, contained := ?_, joined := ?_, waits := ?_ }
    · rintro sent ⟨⟩
    · exact fun name hJoined => absurd hJoined (Finset.notMem_empty name)
    · rintro ⟨⟩
  | joinTimerFires index => exact h.joinTimerFires index

theorem sound_init : Sound [] {} where
  idle := rfl
  entries name channel hLookup := by cases hLookup
  contains name hOpen := by
    obtain ⟨channel, hLookup⟩ := hOpen
    cases hLookup
  fresh channel hMem := absurd hMem (AList.notMem_empty channel)
  queued name hMem := by cases hMem
  lost _ := rfl
  contained sent hMem := by cases hMem
  joined name hMem := absurd hMem (Finset.notMem_empty name)
  waits hConnected := by cases hConnected

end TwitchIrcServer

open Lib

namespace TwitchIrcServer

variable {server : TwitchIrcServer} {Uuid : Type} {qt : Windows.QtText Uuid}

def OneOfAName (server : TwitchIrcServer) : Prop :=
  ∀ channel other name, server.alive.lookup channel = some name → server.alive.lookup other = some name → other = channel

theorem OneOfAName.destroysLast (h : server.OneOfAName) (event : ServerEvent) : server.DestroysLast event := by
  cases event with
  | destroyed channel =>
    intro other hOther hSame
    obtain ⟨name, hName⟩ := Option.isSome_iff_exists.mp (AList.lookup_isSome.mpr hOther)
    exact h channel other name (hSame.symm.trans hName) hName
  | _ => trivial

theorem not_isOpen_of_not_found (h : server.Sound []) {dirtyChannelName : QString}
    (hCleaned : cleanChannelName qt dirtyChannelName = dirtyChannelName)
    (hFound : ¬server.getChannelOrEmpty qt dirtyChannelName = true) : ¬server.IsOpen dirtyChannelName := by
  intro hOpen
  obtain ⟨channel, hLookup⟩ := Option.isSome_iff_exists.mp (AList.lookup_isSome.mpr (h.contains _ hOpen))
  apply hFound
  rw [getChannelOrEmpty, hCleaned, hLookup, Option.any_some, h.entries _ channel hLookup, Option.isSome_some, Bool.or_true]

theorem calledBack_alive (bucket : BucketState) (server : TwitchIrcServer) :
    (server.calledBack bucket).alive = server.alive := by
  have hJoin (item : QString) (server : TwitchIrcServer) : (actuallyJoin item server).alive = server.alive := by
    rw [actuallyJoin, sendRaw]
    split
    · split
      · rfl
      · rfl
    · rfl
  rw [calledBack]
  split
  · exact hJoin _ _
  · rfl

theorem OneOfAName.getOrAddChannel (h : server.OneOfAName) (hSound : server.Sound []) {dirtyChannelName : QString}
    (hCleaned : cleanChannelName qt (cleanChannelName qt dirtyChannelName) = cleanChannelName qt dirtyChannelName) :
    (server.getOrAddChannel qt dirtyChannelName).OneOfAName := by
  rw [TwitchIrcServer.getOrAddChannel]
  dsimp only
  split
  · exact h
  · rename_i hFound
    have hNotOpen := not_isOpen_of_not_found hSound hCleaned hFound
    have hNew : ∀ channel other name,
        (server.alive.insert server.created (cleanChannelName qt dirtyChannelName)).lookup channel = some name →
        (server.alive.insert server.created (cleanChannelName qt dirtyChannelName)).lookup other = some name →
        other = channel := by
      intro channel other name hChannel hOther
      by_cases hFirst : channel = server.created
      · by_cases hSecond : other = server.created
        · exact hSecond.trans hFirst.symm
        · rw [AList.lookup_insert_ne hSecond] at hOther
          rw [hFirst, AList.lookup_insert] at hChannel
          exact absurd ⟨other, hOther.trans hChannel.symm⟩ hNotOpen
      · rw [AList.lookup_insert_ne hFirst] at hChannel
        by_cases hSecond : other = server.created
        · rw [hSecond, AList.lookup_insert] at hOther
          exact absurd ⟨channel, hChannel.trans hOther.symm⟩ hNotOpen
        · rw [AList.lookup_insert_ne hSecond] at hOther
          exact h channel other name hChannel hOther
    split
    · rw [OneOfAName, sendJoin, calledBack_alive]
      exact hNew
    · exact hNew

def AsksForCleaned (qt : Windows.QtText Uuid) : ServerEvent → Prop
  | .getOrAddChannel dirtyChannelName =>
    cleanChannelName qt (cleanChannelName qt dirtyChannelName) = cleanChannelName qt dirtyChannelName
  | _ => True

instance (qt : Windows.QtText Uuid) (event : ServerEvent) : Decidable (AsksForCleaned qt event) := by
  cases event <;> unfold AsksForCleaned <;> infer_instance

theorem foldl_sendJoin_alive (names : List QString) (server : TwitchIrcServer) :
    (names.foldl (fun server name => server.sendJoin name) server).alive = server.alive := by
  induction names generalizing server with
  | nil => rfl
  | cons name names ih => exact (ih _).trans (calledBack_alive _ server)

theorem OneOfAName.destroyed (h : server.OneOfAName) (channel : Nat) : (server.destroyed channel).OneOfAName := by
  have hLess (first second : Nat) (name : QString) (hFirst : (server.alive.erase channel).lookup first = some name)
      (hSecond : (server.alive.erase channel).lookup second = some name) : second = first := by
    have hOld (other : Nat) (hOther : (server.alive.erase channel).lookup other = some name) :
        server.alive.lookup other = some name := by
      have hNe : other ≠ channel := by
        rintro rfl
        rw [AList.lookup_erase] at hOther
        cases hOther
      rwa [AList.lookup_erase_ne hNe] at hOther
    exact h first second name (hOld first hFirst) (hOld second hSecond)
  rw [TwitchIrcServer.destroyed]
  split
  · exact h
  · dsimp only
    split
    · exact hLess
    · rw [sendRaw]
      split
      · exact hLess
      · exact hLess

theorem OneOfAName.step (h : server.OneOfAName) (hSound : server.Sound []) {event : ServerEvent}
    (hCleaned : AsksForCleaned qt event) : (server.step qt event).OneOfAName := by
  cases event with
  | getOrAddChannel dirtyChannelName => exact h.getOrAddChannel hSound hCleaned
  | destroyed channel => exact h.destroyed channel
  | opened =>
    rw [TwitchIrcServer.step]
    split
    · exact h
    · exact h
  | connected visible =>
    rw [TwitchIrcServer.step]
    split
    · rw [OneOfAName, onReadConnected, foldl_sendJoin_alive]
      exact h
    · exact h
  | connectionLost => exact h
  | joinTimerFires index =>
    rw [TwitchIrcServer.step, TwitchIrcServer.joinTimerFires]
    split
    · rw [OneOfAName, calledBack_alive]
      exact h
    · exact h

/-- Every channel that is open is joined or waits for it, in every state of a run in which no channel is
destroyed before another one of its name. -/
theorem joinsOpenChannels_of_run (qt : Windows.QtText Uuid) (events : List ServerEvent)
    (hLast : AllSteps (step qt) DestroysLast {} events) {reached : List ServerEvent} (hPrefix : reached <+: events) :
    (reached.foldl (step qt) {}).JoinsOpenChannels :=
  (hLast.invariant_reached hPrefix sound_init fun _ _ hSound hLast => hSound.step hLast).joinsOpenChannels

theorem destroysLast_of_cleaned (qt : Windows.QtText Uuid) (events : List ServerEvent)
    (hCleaned : ∀ event ∈ events, AsksForCleaned qt event) : AllSteps (step qt) DestroysLast {} events := by
  have hRun (server : TwitchIrcServer) (hSound : server.Sound []) (hOne : server.OneOfAName) :
      AllSteps (step qt) DestroysLast server events := by
    induction events generalizing server with
    | nil => trivial
    | cons event events ih =>
      obtain ⟨hEvent, hRest⟩ := List.forall_mem_cons.mp hCleaned
      have hLast := hOne.destroysLast event
      exact ⟨hLast, ih hRest (server.step qt event) (hSound.step hLast) (hOne.step hSound hEvent)⟩
  exact hRun {} sound_init fun channel other name hChannel => by cases hChannel

def lowerText : Windows.QtText Unit where
  toLower s := s
  trimmed s := s
  toString _ := []
  fromString _ := ()
  toLower_toLower _ := rfl
  toLower_hash _ := rfl
  fromString_toString _ := rfl

def reopened : List ServerEvent :=
  [.getOrAddChannel (lit "#forsen"), .opened, .connected [], .destroyed 0, .getOrAddChannel (lit "forsen"),
    .connectionLost, .joinTimerFires 0, .opened, .connected [lit "forsen"]]

theorem joinsOpenChannels_of_run_reopened : (reopened.foldl (step lowerText) {}).JoinsOpenChannels :=
  joinsOpenChannels_of_run lowerText reopened (destroysLast_of_cleaned lowerText reopened (by decide)) List.prefix_rfl

def openedTwice : List ServerEvent :=
  [.opened, .connected [], .getOrAddChannel (lit "##forsen"), .getOrAddChannel (lit "##forsen"), .destroyed 0]

theorem not_joinsOpenChannels_openedTwice :
    ¬∀ events : List ServerEvent, (events.foldl (step lowerText) {}).JoinsOpenChannels := by
  intro hAll
  have hDrained := (hAll openedTwice).drained (by decide) (by decide) (lit "#forsen")
  exact absurd (hDrained.mpr ⟨⟨1, by decide⟩, by decide⟩) (by decide)

end TwitchIrcServer

end Chatterino.Twitch
