import Chatterino.Lib.Run
import Mathlib.Data.List.Perm.Basic

/-! # A WebSocket connection

All handlers of a connection run on one strand. An operation that is started completes once, in any
order with the others, and tasks posted to the strand run in the order they were posted. What the
stream says of being open is given with each event.
-/

namespace Chatterino.WebSockets

abbrev Endpoint := Nat

abbrev Message := Bool × List UInt8

/-- An operation that is outstanding. Connecting, it keeps the endpoints from the iterator on. -/
inductive Operation where
  | run
  | resolve
  | connect (endpointIterator : List Endpoint)
  | tlsHandshake
  | wsHandshake
  | read
  | write
  | close
  deriving DecidableEq

inductive Task where
  | close
  | send (message : Message)

inductive ListenerCall where
  | onOpen
  | onMessage (message : Message)
  | onClose
  deriving DecidableEq

structure WebSocketConnection where
  tls : Bool
  listener : Bool := true
  pool : Bool := true
  queuedMessages : List Message := []
  isSending : Bool := false
  isClosing : Bool := false
  pending : List Operation := [.run]
  tasks : List Task := []
  heard : List ListenerCall := []
  sent : List Message := []
  started : List Message := []
  asserted : Bool := false

structure Completion where
  failed : Bool
  endpoints : List Endpoint := []
  message : Message := (true, [])
  /-- `stream.is_open()`. -/
  isOpen : Bool

namespace WebSocketConnection

variable (s : WebSocketConnection)

def start (operation : Operation) : WebSocketConnection := { s with pending := s.pending ++ [operation] }

def detach : WebSocketConnection :=
  { s with
    listener := false
    pool := false
    heard := if s.listener then s.heard ++ [.onClose] else s.heard }

def closeImpl : WebSocketConnection :=
  if s.isClosing then s else { s with isClosing := true }.start .close

def fail (isOpen : Bool) : WebSocketConnection := (if isOpen then s.closeImpl else s).detach

def trySend (isOpen : Bool) : WebSocketConnection :=
  match s.queuedMessages with
  | [] => s
  | message :: _ =>
    if s.isSending ∨ !isOpen then s
    else { s with isSending := true, started := s.started ++ [message] }.start .write

def tryConnect (endpointIterator : List Endpoint) (isOpen : Bool) : WebSocketConnection :=
  match endpointIterator with
  | [] => s.fail isOpen
  | _ :: _ => s.start (.connect endpointIterator)

/-- With `setupStream`, which only the TLS connection has. -/
def run (result : Completion) : WebSocketConnection :=
  if s.tls ∧ result.failed then s.fail result.isOpen else s.start .resolve

def onResolve (result : Completion) : WebSocketConnection :=
  if result.failed then s.fail result.isOpen else s.tryConnect result.endpoints result.isOpen

def doWsHandshake : WebSocketConnection := s.start .wsHandshake

def afterTcpHandshake : WebSocketConnection := if s.tls then s.start .tlsHandshake else s.doWsHandshake

def onTcpHandshake (endpointIterator : List Endpoint) (result : Completion) : WebSocketConnection :=
  if result.failed then s.tryConnect endpointIterator.tail result.isOpen else s.afterTcpHandshake

def onTlsHandshake (result : Completion) : WebSocketConnection :=
  if result.failed then s.fail result.isOpen else s.doWsHandshake

def onWsHandshake (result : Completion) : WebSocketConnection :=
  if !s.listener ∨ s.isClosing then s
  else if result.failed then s.fail result.isOpen
  else
    let s : WebSocketConnection := { s with heard := s.heard ++ [.onOpen] }
    (s.trySend result.isOpen).start .read

def onReadDone (result : Completion) : WebSocketConnection :=
  if !s.listener ∨ s.isClosing then s
  else if result.failed then s.fail result.isOpen
  else
    let s : WebSocketConnection := { s with heard := s.heard ++ [.onMessage result.message] }
    s.start .read

def onWriteDone (result : Completion) : WebSocketConnection :=
  let s : WebSocketConnection := { s with
    queuedMessages := s.queuedMessages.tail
    asserted := s.asserted || s.queuedMessages.isEmpty
    isSending := false }
  if result.failed then s.fail result.isOpen else s.trySend result.isOpen

def complete (operation : Operation) (result : Completion) : WebSocketConnection :=
  match operation with
  | .run => s.run result
  | .resolve => s.onResolve result
  | .connect endpointIterator => s.onTcpHandshake endpointIterator result
  | .tlsHandshake => s.onTlsHandshake result
  | .wsHandshake => s.onWsHandshake result
  | .read => s.onReadDone result
  | .write => s.onWriteDone result
  | .close => s.detach

def runTask (task : Task) (isOpen : Bool) : WebSocketConnection :=
  match task with
  | .close => s.closeImpl
  | .send message =>
    let s : WebSocketConnection := { s with queuedMessages := s.queuedMessages ++ [message] }
    s.trySend isOpen

def alive : Bool := !s.pending.isEmpty || !s.tasks.isEmpty || s.pool

inductive Event where
  | close
  /-- `sendText` and `sendBinary`. -/
  | send (message : Message)
  | runTask (isOpen : Bool)
  | complete (i : Nat) (result : Completion)

def step : Event → WebSocketConnection
  | .close => if s.alive then { s with tasks := s.tasks ++ [.close] } else s
  | .send message =>
    if s.alive then { s with tasks := s.tasks ++ [.send message], sent := s.sent ++ [message] } else s
  | .runTask isOpen =>
    match s.tasks with
    | [] => s
    | task :: tasks =>
      let s : WebSocketConnection := { s with tasks := tasks }
      s.runTask task isOpen
  | .complete i result =>
    match s.pending[i]? with
    | none => s
    | some operation =>
      let s : WebSocketConnection := { s with pending := s.pending.eraseIdx i }
      s.complete operation result

def create (tls : Bool) : WebSocketConnection := { tls }

end WebSocketConnection

namespace Operation

def isMain : Operation → Bool
  | write | close => false
  | _ => true

def beforeOpen : Operation → Bool
  | read | write | close => false
  | _ => true

theorem isMain_of_beforeOpen {operation : Operation} (h : operation.beforeOpen) : operation.isMain := by
  cases operation <;> first | rfl | cases h

end Operation

def Task.messages : Task → List Message
  | close => []
  | send message => [message]

def Heard (listener : Bool) (heard : List ListenerCall) : Prop :=
  ∃ opened messages, heard = (if opened then [.onOpen] else []) ++ messages.map .onMessage ++
    (if listener then [] else [.onClose]) ∧ (opened = false → messages = [])

/-- The state of a connection while a handler still has the operations in its hand. -/
structure Consistent (hand : List Operation) (s : WebSocketConnection) : Prop where
  sending : (hand ++ s.pending).count .write = if s.isSending then 1 else 0
  queued : s.isSending → s.queuedMessages ≠ []
  order : s.sent = s.started ++ s.queuedMessages.drop (if s.isSending then 1 else 0) ++
    s.tasks.flatMap Task.messages
  pool : s.pool = s.listener
  main : (hand ++ s.pending).countP Operation.isMain ≤ 1
  closing : s.listener → s.isClosing → .close ∈ hand ++ s.pending
  running : s.listener → s.isClosing = false → (hand ++ s.pending).countP Operation.isMain = 1
  unopened : ∀ operation ∈ hand ++ s.pending, operation.beforeOpen → .onOpen ∉ s.heard
  reading : .read ∈ hand ++ s.pending → .onOpen ∈ s.heard
  heard : Heard s.listener s.heard
  asserted : s.asserted = false

namespace Consistent

variable {hand hand' : List Operation} {s s' : WebSocketConnection}

theorem of_perm (h : Consistent hand s) (hPerm : (hand ++ s.pending).Perm (hand' ++ s'.pending))
    (hKept : s' = { s with pending := s'.pending }) : Consistent hand' s' := by
  rw [hKept]
  exact
    { sending := hPerm.count_eq _ ▸ h.sending
      queued := h.queued
      order := h.order
      pool := h.pool
      main := hPerm.countP_eq _ ▸ h.main
      closing := fun hListener hClosing => hPerm.mem_iff.mp (h.closing hListener hClosing)
      running := fun hListener hClosing => hPerm.countP_eq _ ▸ h.running hListener hClosing
      unopened := fun operation hMem => h.unopened operation (hPerm.mem_iff.mpr hMem)
      reading := fun hMem => h.reading (hPerm.mem_iff.mpr hMem)
      heard := h.heard
      asserted := h.asserted }

theorem start {operation : Operation} (h : Consistent (operation :: hand) s) :
    Consistent hand (s.start operation) := by
  refine h.of_perm ?_ rfl
  rw [WebSocketConnection.start, ← List.append_assoc, List.cons_append]
  exact (List.perm_append_singleton operation (hand ++ s.pending)).symm

theorem detach (h : Consistent hand s) : Consistent hand s.detach where
  sending := h.sending
  queued := h.queued
  order := h.order
  pool := rfl
  main := h.main
  closing hListener := absurd hListener Bool.false_ne_true
  running hListener := absurd hListener Bool.false_ne_true
  unopened operation hMem hBefore := by
    have hOpen := h.unopened operation hMem hBefore
    unfold WebSocketConnection.detach
    split_ifs <;> simpa using hOpen
  reading hMem := by
    have hOpen := h.reading hMem
    unfold WebSocketConnection.detach
    split_ifs <;> simpa using hOpen
  heard := by
    obtain ⟨opened, messages, hHeard, hMessages⟩ := h.heard
    refine ⟨opened, messages, ?_, hMessages⟩
    unfold WebSocketConnection.detach
    cases hListener : s.listener <;> simp [hHeard, hListener]
  asserted := h.asserted

theorem closeImpl (h : Consistent hand s) : Consistent hand s.closeImpl := by
  unfold WebSocketConnection.closeImpl
  split_ifs with hClosing
  · exact h
  · refine start ?_
    exact
      { sending := by rw [List.cons_append, List.count_cons_of_ne (by decide)]; exact h.sending
        queued := h.queued
        order := h.order
        pool := h.pool
        main := by rw [List.cons_append, List.countP_cons_of_neg (by decide)]; exact h.main
        closing := fun _ _ => List.mem_cons_self
        running := fun _ hRunning => absurd hRunning (by simp)
        unopened := fun operation hMem hBefore => by
          rcases List.mem_cons.mp hMem with rfl | hMem
          · cases hBefore
          · exact h.unopened operation hMem hBefore
        reading := fun hMem => by
          rcases List.mem_cons.mp hMem with hEq | hMem
          · cases hEq
          · exact h.reading hMem
        heard := h.heard
        asserted := h.asserted }

theorem fail (h : Consistent hand s) (isOpen : Bool) : Consistent hand (s.fail isOpen) := by
  unfold WebSocketConnection.fail
  split_ifs
  · exact h.closeImpl.detach
  · exact h.detach

theorem trySend (h : Consistent hand s) (isOpen : Bool) : Consistent hand (s.trySend isOpen) := by
  unfold WebSocketConnection.trySend
  split
  · exact h
  · rename_i message rest hQueue
    split_ifs with hWait
    · exact h
    · rw [not_or, Bool.not_eq_true] at hWait
      have hOrder := h.order
      rw [hWait.1, hQueue] at hOrder
      refine start ?_
      exact
        { sending := by
            rw [List.cons_append, List.count_cons_self, h.sending, hWait.1]
            rfl
          queued := fun _ => by
            dsimp only
            rw [hQueue]
            exact List.cons_ne_nil _ _
          order := by
            dsimp only
            rw [hOrder, hQueue]
            simp
          pool := h.pool
          main := by rw [List.cons_append, List.countP_cons_of_neg (by decide)]; exact h.main
          closing := fun hListener hClosing => List.mem_cons_of_mem _ (h.closing hListener hClosing)
          running := fun hListener hClosing => by
            rw [List.cons_append, List.countP_cons_of_neg (by decide)]
            exact h.running hListener hClosing
          unopened := fun operation hMem hBefore => by
            rcases List.mem_cons.mp hMem with rfl | hMem
            · cases hBefore
            · exact h.unopened operation hMem hBefore
          reading := fun hMem => by
            rcases List.mem_cons.mp hMem with hEq | hMem
            · cases hEq
            · exact h.reading hMem
          heard := h.heard
          asserted := h.asserted }

theorem drop {operation : Operation} (h : Consistent (operation :: hand) s) (hWrite : operation ≠ .write)
    (hListener : s.listener → s.isClosing ∧ operation ≠ .close) : Consistent hand s where
  sending := by
    have hSending := h.sending
    rwa [List.cons_append, List.count_cons_of_ne hWrite] at hSending
  queued := h.queued
  order := h.order
  pool := h.pool
  main := by
    have hMain := h.main
    rw [List.cons_append, List.countP_cons] at hMain
    omega
  closing hWaits hClosing := by
    rcases List.mem_cons.mp (h.closing hWaits hClosing) with hEq | hMem
    · exact absurd hEq.symm (hListener hWaits).2
    · exact hMem
  running hWaits hClosing := by
    rw [(hListener hWaits).1] at hClosing
    cases hClosing
  unopened o hMem := h.unopened o (List.mem_cons_of_mem _ hMem)
  reading hMem := h.reading (List.mem_cons_of_mem _ hMem)
  heard := h.heard
  asserted := h.asserted

theorem next {operation operation' : Operation} (h : Consistent (operation :: hand) s)
    (hMain : operation.isMain) (hMain' : operation'.isMain)
    (hBefore : operation'.beforeOpen → operation.beforeOpen)
    (hRead : operation' = .read → .onOpen ∈ s.heard) : Consistent hand (s.start operation') := by
  have hWrite (o : Operation) (h : o.isMain) : o ≠ .write := by
    rintro rfl
    cases h
  have hClose : operation ≠ .close := by
    rintro rfl
    cases hMain
  have hCount (o : Operation) (h : o.isMain) :
      (o :: hand ++ s.pending).countP Operation.isMain = (hand ++ s.pending).countP Operation.isMain + 1 :=
    List.countP_cons_of_pos h
  refine start ?_
  exact
    { sending := by
        rw [List.cons_append, List.count_cons_of_ne (hWrite _ hMain')]
        have hSending := h.sending
        rwa [List.cons_append, List.count_cons_of_ne (hWrite _ hMain)] at hSending
      queued := h.queued
      order := h.order
      pool := h.pool
      main := by rw [hCount _ hMain', ← hCount _ hMain]; exact h.main
      closing := fun hListener hClosing => by
        rcases List.mem_cons.mp (h.closing hListener hClosing) with hEq | hMem
        · exact absurd hEq.symm hClose
        · exact List.mem_cons_of_mem _ hMem
      running := fun hListener hClosing => by
        rw [hCount _ hMain', ← hCount _ hMain]
        exact h.running hListener hClosing
      unopened := fun o hMem hBefore' => by
        rcases List.mem_cons.mp hMem with rfl | hMem
        · exact h.unopened operation List.mem_cons_self (hBefore hBefore')
        · exact h.unopened o (List.mem_cons_of_mem _ hMem) hBefore'
      reading := fun hMem => by
        rcases List.mem_cons.mp hMem with hEq | hMem
        · exact hRead hEq.symm
        · exact h.reading (List.mem_cons_of_mem _ hMem)
      heard := h.heard
      asserted := h.asserted }

theorem fail_drop {operation : Operation} (h : Consistent (operation :: hand) s) (hWrite : operation ≠ .write)
    (isOpen : Bool) : Consistent hand (s.fail isOpen) :=
  (h.fail isOpen).drop hWrite fun hListener => absurd hListener Bool.false_ne_true

theorem tryConnect {operation : Operation} (h : Consistent (operation :: hand) s)
    (hBefore : operation.beforeOpen) (endpointIterator : List Endpoint) (isOpen : Bool) :
    Consistent hand (s.tryConnect endpointIterator isOpen) := by
  cases endpointIterator with
  | nil =>
    refine h.fail_drop ?_ isOpen
    rintro rfl
    cases hBefore
  | cons endpoint endpoints =>
    exact h.next (Operation.isMain_of_beforeOpen hBefore) rfl (fun _ => hBefore) fun hRead => by cases hRead

theorem not_listening_or {operation : Operation} (h : Consistent (operation :: hand) s)
    (hMain : operation.isMain) (hOver : (!s.listener) = true ∨ s.isClosing = true) : Consistent hand s := by
  refine h.drop ?_ fun hListener => ⟨?_, ?_⟩
  · rintro rfl
    cases hMain
  · rcases hOver with hOver | hOver
    · rw [hListener] at hOver
      cases hOver
    · exact hOver
  · rintro rfl
    cases hMain

theorem onWsHandshake (h : Consistent (.wsHandshake :: hand) s) (result : Completion) :
    Consistent hand (s.onWsHandshake result) := by
  unfold WebSocketConnection.onWsHandshake
  split_ifs with hOver
  · exact h.not_listening_or rfl hOver
  · exact h.fail_drop (by decide) _
  · rw [not_or, Bool.not_eq_true, Bool.not_eq_false', Bool.not_eq_true] at hOver
    have hCount : (.wsHandshake :: hand ++ s.pending).countP Operation.isMain =
        (hand ++ s.pending).countP Operation.isMain + 1 := List.countP_cons_of_pos rfl
    have hMain := h.main
    rw [hCount] at hMain
    have hNone (operation : Operation) (hMem : operation ∈ hand ++ s.pending) : operation.isMain = false := by
      by_contra hIs
      have hPos := List.countP_pos_iff.mpr ⟨operation, hMem, Bool.not_eq_false _ ▸ hIs⟩
      omega
    have hClosed := h.unopened .wsHandshake List.mem_cons_self rfl
    have hSilent : s.heard = [] := by
      obtain ⟨opened, messages, hHeard, hMessages⟩ := h.heard
      cases opened with
      | true =>
        rw [hHeard] at hClosed
        simp at hClosed
      | false => rw [hHeard, hMessages rfl, hOver.1]; rfl
    -- With the read in hand the opening has been heard, and nothing before it.
    have hRead : Consistent (.read :: hand) { s with heard := s.heard ++ [.onOpen] } :=
      { sending := h.sending
        queued := h.queued
        order := h.order
        pool := h.pool
        main := by rw [List.cons_append, List.countP_cons_of_pos rfl]; exact hMain
        closing := fun _ hClosing => by
          rw [hOver.2] at hClosing
          cases hClosing
        running := fun hListener hClosing => by
          rw [List.cons_append, List.countP_cons_of_pos rfl, ← hCount]
          exact h.running hListener hClosing
        unopened := fun operation hMem hBefore => by
          rcases List.mem_cons.mp hMem with rfl | hMem
          · cases hBefore
          · exact absurd (Operation.isMain_of_beforeOpen hBefore) (by simp [hNone operation hMem])
        reading := fun _ => List.mem_append_right _ (List.mem_singleton_self _)
        heard := ⟨true, [], by rw [hSilent, hOver.1]; rfl, fun h => by cases h⟩
        asserted := h.asserted }
    exact (hRead.trySend _).start

theorem onReadDone (h : Consistent (.read :: hand) s) (result : Completion) :
    Consistent hand (s.onReadDone result) := by
  unfold WebSocketConnection.onReadDone
  split_ifs with hOver
  · exact h.not_listening_or rfl hOver
  · exact h.fail_drop (by decide) _
  · rw [not_or, Bool.not_eq_true, Bool.not_eq_false', Bool.not_eq_true] at hOver
    have hOpen := h.reading List.mem_cons_self
    refine start { h with
      unopened := fun operation hMem hBefore => ?_
      reading := fun _ => List.mem_append_left _ hOpen
      heard := ?_ }
    · exact absurd hOpen (h.unopened operation hMem hBefore)
    · obtain ⟨opened, messages, hHeard, hMessages⟩ := h.heard
      refine ⟨opened, messages ++ [result.message], ?_, fun hClosed => ?_⟩
      · dsimp only
        rw [hHeard, hOver.1]
        simp
      · rw [hHeard, hClosed, hMessages hClosed, hOver.1] at hOpen
        cases hOpen

theorem onWriteDone (h : Consistent (.write :: hand) s) (result : Completion) :
    Consistent hand (s.onWriteDone result) := by
  have hSending := h.sending
  rw [List.cons_append, List.count_cons_self] at hSending
  have hIs : s.isSending = true := by
    by_contra hNot
    rw [if_neg hNot] at hSending
    omega
  rw [if_pos hIs] at hSending
  have hQueue := h.queued hIs
  have hOrder := h.order
  rw [if_pos hIs, List.drop_one] at hOrder
  have hDone : Consistent hand { s with
      queuedMessages := s.queuedMessages.tail
      asserted := s.asserted || s.queuedMessages.isEmpty
      isSending := false } :=
    { sending := Nat.succ.inj hSending
      queued := fun hFalse => absurd hFalse Bool.false_ne_true
      order := hOrder
      pool := h.pool
      main := h.main
      closing := fun hListener hClosing => by
        rcases List.mem_cons.mp (h.closing hListener hClosing) with hEq | hMem
        · cases hEq
        · exact hMem
      running := h.running
      unopened := fun operation hMem => h.unopened operation (List.mem_cons_of_mem _ hMem)
      reading := fun hMem => h.reading (List.mem_cons_of_mem _ hMem)
      heard := h.heard
      asserted := by
        dsimp only
        rw [h.asserted, Bool.false_or, List.isEmpty_eq_false_iff]
        exact hQueue }
  unfold WebSocketConnection.onWriteDone
  dsimp only
  split_ifs
  · exact hDone.fail _
  · exact hDone.trySend _

theorem complete {operation : Operation} (h : Consistent (operation :: hand) s) (result : Completion) :
    Consistent hand (s.complete operation result) := by
  have hNext (operation' : Operation) (hBefore : operation.beforeOpen) (hBefore' : operation'.beforeOpen) :
      Consistent hand (s.start operation') :=
    h.next (Operation.isMain_of_beforeOpen hBefore) (Operation.isMain_of_beforeOpen hBefore')
      (fun _ => hBefore) fun hRead => by
        subst hRead
        cases hBefore'
  cases operation with
  | run =>
    change Consistent hand (s.run result)
    unfold WebSocketConnection.run
    split_ifs
    · exact h.fail_drop (by decide) _
    · exact hNext .resolve rfl rfl
  | resolve =>
    change Consistent hand (s.onResolve result)
    unfold WebSocketConnection.onResolve
    split_ifs
    · exact h.fail_drop (by decide) _
    · exact h.tryConnect rfl _ _
  | connect endpointIterator =>
    change Consistent hand (s.onTcpHandshake endpointIterator result)
    unfold WebSocketConnection.onTcpHandshake WebSocketConnection.afterTcpHandshake
    split_ifs
    · exact h.tryConnect rfl _ _
    · exact hNext .tlsHandshake rfl rfl
    · exact hNext .wsHandshake rfl rfl
  | tlsHandshake =>
    change Consistent hand (s.onTlsHandshake result)
    unfold WebSocketConnection.onTlsHandshake
    split_ifs
    · exact h.fail_drop (by decide) _
    · exact hNext .wsHandshake rfl rfl
  | wsHandshake => exact h.onWsHandshake result
  | read => exact h.onReadDone result
  | write => exact h.onWriteDone result
  | close => exact h.detach.drop (by decide) fun hListener => absurd hListener Bool.false_ne_true

theorem runTask {task : Task} {tasks : List Task} (h : Consistent hand s) (hTasks : s.tasks = task :: tasks)
    (isOpen : Bool) : Consistent hand (WebSocketConnection.runTask { s with tasks := tasks } task isOpen) := by
  have hOrder := h.order
  rw [hTasks, List.flatMap_cons] at hOrder
  cases task with
  | close => exact closeImpl { h with order := hOrder }
  | send message =>
    have hQueued : Consistent hand
        { s with tasks := tasks, queuedMessages := s.queuedMessages ++ [message] } := by
      refine { h with queued := fun hSending => ?_, order := ?_ }
      · exact List.append_ne_nil_of_left_ne_nil (h.queued hSending) _
      · dsimp only
        rw [hOrder]
        split_ifs with hSending
        · rw [List.drop_append_of_le_length (List.length_pos_of_ne_nil (h.queued hSending))]
          simp [Task.messages]
        · simp [Task.messages]
    exact hQueued.trySend isOpen

theorem step (h : Consistent [] s) (event : WebSocketConnection.Event) : Consistent [] (s.step event) := by
  cases event with
  | close | send message =>
    simp only [WebSocketConnection.step]
    split_ifs
    · refine { h with order := ?_ }
      dsimp only
      rw [h.order]
      simp [Task.messages]
    · exact h
  | runTask isOpen =>
    simp only [WebSocketConnection.step]
    split
    · exact h
    · rename_i task tasks hTasks
      exact h.runTask hTasks isOpen
  | complete i result =>
    simp only [WebSocketConnection.step]
    split
    · exact h
    · rename_i operation hPending
      obtain ⟨hLt, rfl⟩ := List.getElem?_eq_some_iff.mp hPending
      refine complete (h.of_perm ?_ rfl) result
      exact (List.getElem_cons_eraseIdx_perm hLt).symm

theorem create (tls : Bool) : Consistent [] (WebSocketConnection.create tls) where
  sending := rfl
  queued h := by cases h
  order := rfl
  pool := rfl
  main := Nat.le_refl 1
  closing _ h := by cases h
  running _ _ := rfl
  unopened _ _ _ h := by cases h
  reading h := by simp [WebSocketConnection.create] at h
  heard := ⟨false, [], rfl, fun _ => rfl⟩
  asserted := rfl

end Consistent

/-- The listener's view, the writes and what is left once nothing is outstanding. -/
structure KeepsContract (s : WebSocketConnection) : Prop where
  onOpen : s.heard.count .onOpen ≤ 1
  /-- A message only comes after the opening. -/
  messages : ∀ before message after, s.heard = before ++ .onMessage message :: after → .onOpen ∈ before
  /-- The closing is heard once, and nothing after it. -/
  onClose : ∀ before after, s.heard = before ++ .onClose :: after → .onClose ∉ before ∧ after = []
  write : s.pending.count .write ≤ 1
  started : s.started <+: s.sent
  /-- A write never completes with an empty queue. -/
  asserted : s.asserted = false
  /-- What the destructor asserts, and that the end has been heard. -/
  released : s.pending = [] → (s.listener = false ∧ s.pool = false) ∧ s.heard.count .onClose = 1

namespace Heard

variable {listener : Bool} {heard : List ListenerCall}

theorem count_onOpen_le (h : Heard listener heard) : heard.count .onOpen ≤ 1 := by
  obtain ⟨opened, messages, rfl, -⟩ := h
  have hMessages : (messages.map ListenerCall.onMessage).count .onOpen = 0 :=
    List.count_eq_zero.mpr (by simp)
  cases opened <;> cases listener <;> simp [hMessages]

theorem onOpen_mem {before after : List ListenerCall} {message : Message}
    (h : Heard listener (before ++ .onMessage message :: after)) : .onOpen ∈ before := by
  obtain ⟨opened, messages, hHeard, hMessages⟩ := h
  cases opened with
  | false =>
    have hMem : .onMessage message ∈ before ++ .onMessage message :: after := by simp
    rw [hHeard, hMessages rfl] at hMem
    cases listener <;> simp at hMem
  | true =>
    cases before with
    | nil =>
      rw [List.nil_append, if_pos rfl, List.append_assoc, List.singleton_append, List.cons.injEq] at hHeard
      cases hHeard.1
    | cons call before =>
      rw [List.cons_append, if_pos rfl, List.append_assoc, List.singleton_append, List.cons.injEq] at hHeard
      rw [hHeard.1]
      exact List.mem_cons_self

theorem exists_onClose (h : Heard false heard) : ∃ front, heard = front ++ [.onClose] ∧ .onClose ∉ front := by
  obtain ⟨opened, messages, rfl, -⟩ := h
  exact ⟨_, rfl, by cases opened <;> simp⟩

theorem onClose_last {before after : List ListenerCall}
    (h : Heard listener (before ++ .onClose :: after)) : .onClose ∉ before ∧ after = [] := by
  cases listener with
  | true =>
    obtain ⟨opened, messages, hHeard, -⟩ := h
    have hMem : .onClose ∈ before ++ .onClose :: after := by simp
    rw [hHeard] at hMem
    cases opened <;> simp at hMem
  | false =>
    obtain ⟨front, hHeard, hFront⟩ := h.exists_onClose
    rcases List.append_eq_append_iff.mp hHeard with ⟨more, rfl, hMore⟩ | ⟨more, rfl, hMore⟩
    · cases more with
      | nil =>
        rw [List.append_nil] at hFront
        exact ⟨hFront, (List.cons.inj hMore).2⟩
      | cons call more =>
        rw [List.cons_append, List.cons.injEq] at hMore
        rw [← hMore.1] at hFront
        simp at hFront
    · have hLength := congrArg List.length hMore
      simp only [List.length_append, List.length_cons, List.length_nil] at hLength
      obtain rfl : more = [] := List.eq_nil_of_length_eq_zero (by omega)
      rw [List.append_nil]
      exact ⟨hFront, List.eq_nil_of_length_eq_zero (by omega)⟩

end Heard

theorem Consistent.keepsContract {s : WebSocketConnection} (h : Consistent [] s) : KeepsContract s where
  onOpen := h.heard.count_onOpen_le
  messages _ _ _ hHeard := (hHeard ▸ h.heard).onOpen_mem
  onClose _ _ hHeard := (hHeard ▸ h.heard).onClose_last
  write := by
    have hSending := h.sending
    rw [List.nil_append] at hSending
    rw [hSending]
    split_ifs <;> decide
  started := by
    rw [h.order, List.append_assoc]
    exact List.prefix_append _ _
  asserted := h.asserted
  released hPending := by
    have hSilent : s.listener = false := by
      by_contra hListener
      rw [Bool.not_eq_false] at hListener
      cases hClosing : s.isClosing with
      | true =>
        have hMem := h.closing hListener hClosing
        rw [hPending] at hMem
        cases hMem
      | false =>
        have hCount := h.running hListener hClosing
        rw [hPending] at hCount
        cases hCount
    have hHeard := h.heard
    rw [hSilent] at hHeard
    obtain ⟨front, hEq, hFront⟩ := hHeard.exists_onClose
    refine ⟨⟨hSilent, h.pool.trans hSilent⟩, ?_⟩
    rw [hEq, List.count_append, List.count_eq_zero.mpr hFront]
    rfl

/-- Whatever completes in whatever order, and whatever the connection is called with. -/
theorem keepsContract_of_run (tls : Bool) (events : List WebSocketConnection.Event) :
    KeepsContract (events.foldl WebSocketConnection.step (WebSocketConnection.create tls)) :=
  (Lib.foldl_invariant events (Consistent.create tls) fun _ event h => h.step event).keepsContract

end Chatterino.WebSockets
