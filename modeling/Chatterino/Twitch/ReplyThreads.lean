import Chatterino.Common.DisabledMessages
import Chatterino.Common.FillIn
import Chatterino.Lib.References

/-! # Reply threads of a channel

A reply holds its thread, and the thread holds its root. The channel keeps weak references to its threads, by the id
of the root. Objects stay alive for as long as the buffer, a history that is parsed, a view or a popup holds them, or
an object that is alive does.
-/

namespace Chatterino.Twitch

open Lib QString

abbrev ThreadPtr := Nat

inductive ThreadRef where
  | message (msg : MessagePtr)
  | thread (thread : ThreadPtr)
deriving DecidableEq

def ThreadRef.index : ThreadRef → Nat
  | .message msg => msg
  | .thread ptr => ptr

structure ThreadedMessage extends Message where
  replyThread : Option ThreadPtr := none
  replyParent : Option MessagePtr := none

structure MessageThread where
  rootMessageId_ : QString
  rootMessage_ : MessagePtr
  replies_ : List MessagePtr := []
deriving DecidableEq

def MessageThread.addToThread (message : MessagePtr) (thread : MessageThread) : MessageThread :=
  { thread with replies_ := thread.replies_ ++ [message] }

structure ThreadedChannel where
  messages_ : LimitedQueue MessagePtr
  parsed : List MessagePtr
  messageObjects : MessagePtr → ThreadedMessage
  threadObjects : ThreadPtr → Option MessageThread
  threads_ : QString → Option ThreadPtr
  next : Nat
  /-- References that views, popups, other channels and local variables have, one entry each. -/
  held : List ThreadRef

inductive ReplySink where
  | channel
  | history
deriving DecidableEq

namespace ThreadedChannel

def ofLimit (limit : Nat) : ThreadedChannel where
  messages_ := .ofLimit limit
  parsed := []
  messageObjects _ := {}
  threadObjects _ := none
  threads_ _ := none
  next := 0
  held := []

def refs (channel : ThreadedChannel) : ThreadRef → List ThreadRef
  | .message msg => (channel.messageObjects msg).replyThread.toList.map .thread ++
      (channel.messageObjects msg).replyParent.toList.map .message
  | .thread thread => (channel.threadObjects thread).toList.map fun object => .message object.rootMessage_

def roots (channel : ThreadedChannel) : List ThreadRef :=
  (channel.messages_.getSnapshot ++ channel.parsed).map .message ++ channel.held

def alive (channel : ThreadedChannel) (ref : ThreadRef) : Bool :=
  ref ∈ heldWithin channel.refs channel.next channel.roots

def hold (ref : ThreadRef) (channel : ThreadedChannel) : ThreadedChannel :=
  { channel with held := ref :: channel.held }

def addReplyThread (thread : ThreadPtr) (rootId : QString) (channel : ThreadedChannel) : ThreadedChannel :=
  { channel with threads_ := Function.update channel.threads_ rootId (some thread) }

/-- A new thread, entered into the map and held by the variable it is assigned to. -/
def createThread (root : MessagePtr) (channel : ThreadedChannel) : ThreadedChannel :=
  let rootId := (channel.messageObjects root).id
  let created : ThreadedChannel :=
    { channel with
      threadObjects := Function.update channel.threadObjects channel.next (some ⟨rootId, root, []⟩)
      next := channel.next + 1 }
  (created.addReplyThread channel.next rootId).hold (.thread channel.next)

def lockThread (rootId : QString) (channel : ThreadedChannel) : Option ThreadPtr :=
  (channel.threads_ rootId).filter fun thread => channel.alive (.thread thread)

def getOrCreateThread (message : MessagePtr) (channel : ThreadedChannel) : ThreadedChannel :=
  match channel.lockThread (channel.messageObjects message).id with
  | some thread => channel.hold (.thread thread)
  | none => channel.createThread message

def liveCount (thread : ThreadPtr) (exclude : Option MessagePtr) (channel : ThreadedChannel) : Nat :=
  match channel.threadObjects thread with
  | some object => object.replies_.countP fun reply => channel.alive (.message reply) && some reply ≠ exclude
  | none => 0

def cleanUpReplyThreads (channel : ThreadedChannel) : ThreadedChannel :=
  { channel with
    threads_ := fun rootId => (channel.threads_ rootId).filter fun thread =>
      channel.alive (.thread thread) && channel.liveCount thread none != 0 }

def eraseThread (thread : ThreadPtr) (channel : ThreadedChannel) : ThreadedChannel :=
  match channel.threadObjects thread with
  | some object => { channel with threads_ := Function.update channel.threads_ object.rootMessageId_ none }
  | none => channel

def messageRemovedFromStart (msg : MessagePtr) (channel : ThreadedChannel) : ThreadedChannel :=
  match (channel.messageObjects msg).replyThread with
  | some thread => if channel.liveCount thread (some msg) = 0 then channel.eraseThread thread else channel
  | none => channel

def findMessageByID (sink : ReplySink) (id : QString) (channel : ThreadedChannel) : Option MessagePtr :=
  match sink with
  | .channel => channel.messages_.rfind fun msg => (channel.messageObjects msg).id = id
  | .history => channel.parsed.reverse.find? fun msg => (channel.messageObjects msg).id = id

def pushed (msg : MessagePtr) (channel : ThreadedChannel) : ThreadedChannel :=
  { channel with messages_ := (channel.messages_.pushBack msg).1 }

def addMessage (msg : MessagePtr) (channel : ThreadedChannel) : ThreadedChannel :=
  match (channel.messages_.pushBack msg).2 with
  | some deleted =>
    { ((channel.pushed msg).hold (.message deleted)).messageRemovedFromStart deleted with held := channel.held }
  | none => channel.pushed msg

def addToSink (sink : ReplySink) (msg : MessagePtr) (channel : ThreadedChannel) : ThreadedChannel :=
  match sink with
  | .channel => channel.addMessage msg
  | .history => { channel with parsed := channel.parsed ++ [msg] }

def addMessagesAtStart (channel : ThreadedChannel) : ThreadedChannel :=
  { channel with messages_ := (channel.messages_.pushFront channel.parsed).1, parsed := [] }

def fillInMissingMessages (channel : ThreadedChannel) : ThreadedChannel :=
  { channel with
    messages_ := (FillIn.fillInMissingMessages (fun msg => (channel.messageObjects msg).toMessage)
      channel.messages_ channel.parsed).1
    parsed := [] }

/-- The thread of a reply, found in the map or created for a root that the sink has. -/
def findThread (sink : ReplySink) (replyID : QString) (channel : ThreadedChannel) :
    Option ThreadPtr × ThreadedChannel :=
  match channel.lockThread replyID with
  | some thread => (some thread, channel.hold (.thread thread))
  | none =>
    match channel.findMessageByID sink replyID with
    | some root => (some channel.next, channel.createThread root)
    | none => (none, channel)

def rootOf (channel : ThreadedChannel) (thread : ThreadPtr) : Option MessagePtr :=
  (channel.threadObjects thread).map MessageThread.rootMessage_

def findParent (sink : ReplySink) (replyID parentID : QString) (thread : Option ThreadPtr)
    (channel : ThreadedChannel) : Option MessagePtr :=
  if replyID = parentID then thread.bind channel.rootOf
  else match channel.threads_ parentID with
    | some _ => (channel.lockThread parentID).bind channel.rootOf
    | none => channel.findMessageByID sink parentID

/-- What the tags of a message say about its thread and its parent. -/
def replyContext (sink : ReplySink) (replyID parentID : Option QString) (channel : ThreadedChannel) :
    Option ThreadPtr × Option MessagePtr × ThreadedChannel :=
  match replyID with
  | some replyID =>
    let found := channel.findThread sink replyID
    (found.1, parentID.bind fun parentID => found.2.findParent sink replyID parentID found.1, found.2)
  | none => (none, none, channel)

def parseThread (message : Message) (thread : Option ThreadPtr) (parent : Option MessagePtr) : ThreadedMessage :=
  match thread with
  | some thread =>
    { message with flags := message.flags.set .ReplyMessage, replyThread := some thread, replyParent := parent }
  | none => { message with }

/-- The new message is listed in its thread, and held by the variable it is assigned to. -/
def makeIrcMessage (message : Message) (thread : Option ThreadPtr) (parent : Option MessagePtr)
    (channel : ThreadedChannel) : ThreadedChannel :=
  { channel with
    messageObjects := Function.update channel.messageObjects channel.next (parseThread message thread parent)
    threadObjects := fun other =>
      if thread = some other then (channel.threadObjects other).map (MessageThread.addToThread channel.next)
      else channel.threadObjects other
    next := channel.next + 1 }.hold (.message channel.next)

def built (sink : ReplySink) (message : Message) (replyID parentID : Option QString) (channel : ThreadedChannel) :
    ThreadedChannel :=
  let context := channel.replyContext sink replyID parentID
  context.2.2.makeIrcMessage message context.1 context.2.1

def incoming (sink : ReplySink) (message : Message) (replyID parentID : Option QString) (ignored : Bool)
    (channel : ThreadedChannel) : ThreadedChannel :=
  let context := channel.replyContext sink replyID parentID
  if ignored then { context.2.2 with held := channel.held }
  else { (channel.built sink message replyID parentID).addToSink sink context.2.2.next with held := channel.held }

end ThreadedChannel

inductive ThreadEvent where
  | incoming (sink : ReplySink) (message : Message) (replyID parentID : Option QString) (ignored : Bool)
  | addMessagesAtStart
  | fillInMissingMessages
  | getOrCreateThread (message : MessagePtr)
  | cleanUpReplyThreads
  /-- Someone takes, or gives back, a reference to an object. -/
  | held (ref : ThreadRef)
  | released (ref : ThreadRef)

def ThreadedChannel.step (channel : ThreadedChannel) : ThreadEvent → ThreadedChannel
  | .incoming sink message replyID parentID ignored => channel.incoming sink message replyID parentID ignored
  | .addMessagesAtStart => channel.addMessagesAtStart
  | .fillInMissingMessages => channel.fillInMissingMessages
  | .getOrCreateThread message => if channel.alive (.message message) then channel.getOrCreateThread message else channel
  | .cleanUpReplyThreads => channel.cleanUpReplyThreads
  | .held ref => if channel.alive ref then channel.hold ref else channel
  | .released ref => { channel with held := channel.held.erase ref }

namespace ThreadedChannel

variable {channel : ThreadedChannel} {ref : ThreadRef} {thread : ThreadPtr} {object : MessageThread}

def Holds (channel : ThreadedChannel) (ref : ThreadRef) : Prop := Held channel.refs channel.roots ref

/-- Objects refer to older ones, threads list their replies in the order of arrival, and the map's entries are for
the threads' roots. -/
structure Sound (channel : ThreadedChannel) : Prop where
  older : ∀ ref, ∀ target ∈ channel.refs ref, target.index < ref.index
  rootsOld : ∀ root ∈ channel.roots, root.index < channel.next
  entries : ∀ rootId thread, channel.threads_ rootId = some thread →
    ∃ object, channel.threadObjects thread = some object ∧ object.rootMessageId_ = rootId
  threadsOld : ∀ thread object, channel.threadObjects thread = some object → thread < channel.next
  attached : ∀ msg thread, (channel.messageObjects msg).replyThread = some thread →
    ∃ object, channel.threadObjects thread = some object ∧ msg ∈ object.replies_
  inOrder : ∀ thread object, channel.threadObjects thread = some object →
    object.replies_.Pairwise (· < ·) ∧ ∀ reply ∈ object.replies_, reply < channel.next

def Mapped (channel : ThreadedChannel) : Prop :=
  ∀ thread object, channel.Holds (.thread thread) → channel.threadObjects thread = some object →
    channel.threads_ object.rootMessageId_ = some thread

theorem sound_ofLimit (limit : Nat) : (ofLimit limit).Sound where
  older ref target hTarget := by
    cases ref with
    | message msg | thread thread => exact absurd hTarget List.not_mem_nil
  rootsOld _ hRoot := absurd hRoot List.not_mem_nil
  entries _ _ hEntry := by cases hEntry
  threadsOld _ _ hObject := by cases hObject
  attached _ _ hThread := by cases hThread
  inOrder _ _ hObject := by cases hObject

theorem Sound.index_lt (h : channel.Sound) (hRef : channel.Holds ref) : ref.index < channel.next :=
  Held.rank_lt h.older hRef h.rootsOld

theorem Sound.alive_iff (h : channel.Sound) : channel.alive ref = true ↔ channel.Holds ref := by
  rw [alive, decide_eq_true_iff]
  exact Held.mem_heldWithin_iff h.older fun root hRoot => (h.rootsOld root hRoot).le

theorem holds_rootOf (hThread : channel.Holds (.thread thread)) (hObject : channel.threadObjects thread = some object) :
    channel.Holds (.message object.rootMessage_) :=
  hThread.target (by simp [refs, hObject])

theorem holds_of_mem_buffer {msg : MessagePtr} (h : msg ∈ channel.messages_.getSnapshot) :
    channel.Holds (.message msg) :=
  Held.of_mem (List.mem_append_left _ (List.mem_map_of_mem (List.mem_append_left _ h)))

theorem holds_of_mem_parsed {msg : MessagePtr} (h : msg ∈ channel.parsed) : channel.Holds (.message msg) :=
  Held.of_mem (List.mem_append_left _ (List.mem_map_of_mem (List.mem_append_right _ h)))

section roots

variable {messages_ : LimitedQueue MessagePtr} {parsed : List MessagePtr} {held : List ThreadRef}

def withRoots (channel : ThreadedChannel) (messages_ : LimitedQueue MessagePtr) (parsed : List MessagePtr)
    (held : List ThreadRef) : ThreadedChannel :=
  { channel with messages_ := messages_, parsed := parsed, held := held }

theorem holds_of_withRoots (hRoots : ∀ root ∈ (channel.withRoots messages_ parsed held).roots, channel.Holds root)
    (hRef : (channel.withRoots messages_ parsed held).Holds ref) : channel.Holds ref :=
  Held.of_roots hRef hRoots

theorem Sound.withRoots (h : channel.Sound)
    (hRoots : ∀ root ∈ (channel.withRoots messages_ parsed held).roots, channel.Holds root) :
    (channel.withRoots messages_ parsed held).Sound :=
  { h with rootsOld := fun root hRoot => h.index_lt (hRoots root hRoot) }

theorem Mapped.withRoots (h : channel.Mapped)
    (hRoots : ∀ root ∈ (channel.withRoots messages_ parsed held).roots, channel.Holds root) :
    (channel.withRoots messages_ parsed held).Mapped :=
  fun thread object hThread hObject => h thread object (holds_of_withRoots hRoots hThread) hObject

end roots

theorem holds_of_hold (hRef : channel.Holds ref) :
    ∀ root ∈ (channel.hold ref).roots, channel.Holds root := by
  intro root hRoot
  rcases List.mem_append.mp hRoot with hMessage | hHeld
  · exact Held.of_mem (List.mem_append_left _ hMessage)
  · rcases List.mem_cons.mp hHeld with rfl | hHeld
    · exact hRef
    · exact Held.of_mem (List.mem_append_right _ hHeld)

theorem Sound.hold (h : channel.Sound) (hRef : channel.Holds ref) : (channel.hold ref).Sound :=
  h.withRoots (holds_of_hold hRef)

theorem Mapped.hold (h : channel.Mapped) (hRef : channel.Holds ref) : (channel.hold ref).Mapped :=
  h.withRoots (holds_of_hold hRef)

theorem holds_hold_self : (channel.hold ref).Holds ref :=
  Held.of_mem (List.mem_append_right _ List.mem_cons_self)

theorem Sound.holds_created (h : channel.Sound) {other : ThreadedChannel} {created : ThreadRef}
    (hIndex : created.index = channel.next) (hRefs : ∀ holder, holder ≠ created → other.refs holder = channel.refs holder)
    (hTargets : ∀ target ∈ other.refs created, channel.Holds target)
    (hRoots : other.roots.Perm (created :: channel.roots)) :
    other.Holds ref ↔ ref = created ∨ channel.Holds ref := by
  have hNe {holder : ThreadRef} (hHolder : channel.Holds holder) : holder ≠ created := by
    rintro rfl
    exact absurd hIndex (h.index_lt hHolder).ne
  have hOld {target : ThreadRef} : Held other.refs channel.roots target ↔ channel.Holds target :=
    Held.congr fun holder hHolder => hRefs holder (hNe hHolder)
  have hCons : Held other.refs (created :: channel.roots) ref ↔ ref = created ∨ Held other.refs channel.roots ref :=
    Held.cons_iff fun target hTarget => hOld.mpr (hTargets target hTarget)
  have hSame : other.Holds ref ↔ Held other.refs (created :: channel.roots) ref :=
    ⟨fun hRef => hRef.mono hRoots.subset, fun hRef => hRef.mono hRoots.symm.subset⟩
  rw [hSame, hCons, hOld]

theorem roots_hold : (channel.hold ref).roots.Perm (ref :: channel.roots) := List.perm_middle

section createThread

variable {root : MessagePtr}

theorem threadObjects_createThread : (channel.createThread root).threadObjects =
    Function.update channel.threadObjects channel.next (some ⟨(channel.messageObjects root).id, root, []⟩) := rfl

theorem threads_createThread : (channel.createThread root).threads_ =
    Function.update channel.threads_ (channel.messageObjects root).id (some channel.next) := rfl

theorem refs_createThread {holder : ThreadRef} (hNe : holder ≠ .thread channel.next) :
    (channel.createThread root).refs holder = channel.refs holder := by
  cases holder with
  | message msg => rfl
  | thread thread =>
    have hThread : thread ≠ channel.next := fun hSame => hNe (congrArg _ hSame)
    have hObject : (channel.createThread root).threadObjects thread = channel.threadObjects thread :=
      Function.update_of_ne hThread _ _
    rw [refs, refs, hObject]

theorem refs_createThread_self : (channel.createThread root).refs (.thread channel.next) = [.message root] := by
  have hObject : (channel.createThread root).threadObjects channel.next =
      some ⟨(channel.messageObjects root).id, root, []⟩ := Function.update_self _ _ _
  rw [refs, hObject]
  rfl

theorem Sound.holds_createThread (h : channel.Sound) (hRoot : channel.Holds (.message root)) :
    (channel.createThread root).Holds ref ↔ ref = .thread channel.next ∨ channel.Holds ref := by
  refine h.holds_created rfl (fun holder hNe => refs_createThread hNe) ?_ roots_hold
  rw [refs_createThread_self]
  intro target hTarget
  obtain rfl := List.mem_singleton.mp hTarget
  exact hRoot

theorem Sound.createThread (h : channel.Sound) (hRoot : channel.Holds (.message root)) :
    (channel.createThread root).Sound := by
  have hNew : channel.threadObjects channel.next = none := by
    cases hObject : channel.threadObjects channel.next with
    | none => rfl
    | some object => exact absurd (h.threadsOld _ _ hObject) (lt_irrefl _)
  have hObjects {thread : ThreadPtr} {object : MessageThread}
      (hObject : (channel.createThread root).threadObjects thread = some object) :
      thread = channel.next ∧ object = ⟨(channel.messageObjects root).id, root, []⟩ ∨
        channel.threadObjects thread = some object := by
    rw [threadObjects_createThread] at hObject
    rcases eq_or_ne thread channel.next with rfl | hNe
    · rw [Function.update_self] at hObject
      exact .inl ⟨rfl, (Option.some.inj hObject).symm⟩
    · exact .inr ((Function.update_of_ne hNe _ _).symm.trans hObject)
  have hKept {thread : ThreadPtr} {object : MessageThread} (hObject : channel.threadObjects thread = some object) :
      (channel.createThread root).threadObjects thread = some object := by
    have hNe : thread ≠ channel.next := (h.threadsOld thread object hObject).ne
    exact (Function.update_of_ne hNe _ _).trans hObject
  refine ⟨?_, ?_, ?_, ?_, ?_, ?_⟩
  · intro holder target hTarget
    rcases eq_or_ne holder (.thread channel.next) with rfl | hNe
    · rw [refs_createThread_self] at hTarget
      obtain rfl := List.mem_singleton.mp hTarget
      exact h.index_lt hRoot
    · rw [refs_createThread hNe] at hTarget
      exact h.older holder target hTarget
  · intro other hOther
    rcases List.mem_cons.mp (roots_hold.mem_iff.mp hOther) with rfl | hOther
    · exact Nat.lt_succ_self _
    · exact (h.rootsOld other hOther).trans (Nat.lt_succ_self _)
  · intro rootId thread hEntry
    rw [threads_createThread] at hEntry
    rcases eq_or_ne rootId (channel.messageObjects root).id with rfl | hNe
    · rw [Function.update_self] at hEntry
      obtain rfl := Option.some.inj hEntry
      exact ⟨_, Function.update_self _ _ _, rfl⟩
    · obtain ⟨object, hObject, hId⟩ := h.entries rootId thread ((Function.update_of_ne hNe _ _).symm.trans hEntry)
      exact ⟨object, hKept hObject, hId⟩
  · intro thread object hObject
    rcases hObjects hObject with ⟨rfl, -⟩ | hObject
    · exact Nat.lt_succ_self _
    · exact (h.threadsOld thread object hObject).trans (Nat.lt_succ_self _)
  · intro msg thread hThread
    obtain ⟨object, hObject, hMem⟩ := h.attached msg thread hThread
    exact ⟨object, hKept hObject, hMem⟩
  · intro thread object hObject
    rcases hObjects hObject with ⟨-, rfl⟩ | hObject
    · exact ⟨List.Pairwise.nil, fun _ hMem => absurd hMem List.not_mem_nil⟩
    · obtain ⟨hOrder, hLt⟩ := h.inOrder thread object hObject
      exact ⟨hOrder, fun reply hReply => (hLt reply hReply).trans (Nat.lt_succ_self _)⟩

theorem Mapped.createThread (h : channel.Mapped) (hSound : channel.Sound) (hRoot : channel.Holds (.message root))
    (hLock : channel.lockThread (channel.messageObjects root).id = none) : (channel.createThread root).Mapped := by
  intro thread object hThread hObject
  rcases (hSound.holds_createThread hRoot).mp hThread with hNew | hThread
  · obtain rfl := ThreadRef.thread.inj hNew
    rw [threadObjects_createThread, Function.update_self] at hObject
    obtain rfl := Option.some.inj hObject
    exact Function.update_self _ _ _
  · have hNe : thread ≠ channel.next := (hSound.index_lt hThread).ne
    have hObject' : channel.threadObjects thread = some object := (Function.update_of_ne hNe _ _).symm.trans hObject
    have hEntry := h thread object hThread hObject'
    have hId : object.rootMessageId_ ≠ (channel.messageObjects root).id := by
      intro hSame
      rw [lockThread, ← hSame, hEntry, Option.filter_some, if_pos (hSound.alive_iff.mpr hThread)] at hLock
      cases hLock
    exact (Function.update_of_ne hId _ _).trans hEntry

end createThread

end ThreadedChannel

end Chatterino.Twitch
