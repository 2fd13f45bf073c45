import Chatterino.Lib.Run

/-! # The answer to a network request

A request is answered from the cache, by its reply or by a timer, each time with a callback of its own and
another one at the end. Callbacks go to the queue of the GUI thread or to a pool of threads.
-/

namespace Chatterino.Network

open Lib

inductive NetworkError where
  | NoError | TimeoutError | OperationCanceledError
  | other (code : Int)
  deriving DecidableEq

structure NetworkResult where
  error : NetworkError
  status : Option Int := none
  data : List UInt8 := []
  deriving DecidableEq

inductive Callback where
  | onSuccess (result : NetworkResult)
  | onError (result : NetworkResult)
  | finally_
  deriving DecidableEq

def Callback.isAnswer : Callback → Bool
  | finally_ => false
  | _ => true

structure NetworkData where
  cache : Bool
  executeConcurrently : Bool
  timeout : Bool
  onSuccess : Bool := true
  onError : Bool := true
  finally_ : Bool := true

inductive TaskStage where
  | loadCached | loadUncached | running | abandoned | deleted
  deriving DecidableEq

structure NetworkTask where
  data : NetworkData
  stage : TaskStage
  timer_ : Bool := false
  /-- Timers of earlier requests of the reply that still run. -/
  otherTimers : Nat := 0
  gui : List Callback := []
  pool : List Callback := []
  invoked : List Callback := []

inductive NetworkEvent where
  /-- With what the file has, if it can be read. -/
  | loadCached (bytes : Option (List UInt8))
  | run
  | requestSent
  /-- The timer of the latest request fires, or one of the others. -/
  | timeout (latest : Bool)
  | finished (reply : NetworkResult)
  | deleted
  | runGui
  | runPool (i : Nat)

namespace NetworkTask

variable (task : NetworkTask)

def runCallback (callback : Callback) : NetworkTask :=
  if task.data.executeConcurrently then { task with pool := task.pool ++ [callback] }
  else { task with gui := task.gui ++ [callback] }

def emitSuccess (result : NetworkResult) : NetworkTask :=
  if !task.data.onSuccess then task
  else
    let task : NetworkTask := { task with data := { task.data with onSuccess := false } }
    task.runCallback (.onSuccess result)

def emitError (result : NetworkResult) : NetworkTask :=
  if !task.data.onError then task
  else
    let task : NetworkTask := { task with data := { task.data with onError := false } }
    task.runCallback (.onError result)

def emitFinally : NetworkTask :=
  if !task.data.finally_ then task
  else
    let task : NetworkTask := { task with data := { task.data with finally_ := false } }
    task.runCallback .finally_

def onTimeout : NetworkTask :=
  let task : NetworkTask := { task with stage := .abandoned }
  (task.emitError { error := .TimeoutError }).emitFinally

def onFinished (reply : NetworkResult) : NetworkTask :=
  let task : NetworkTask := { task with stage := .abandoned, timer_ := false }
  if reply.error = .OperationCanceledError then task
  else if reply.error ≠ .NoError then (task.emitError reply).emitFinally
  else (task.emitSuccess reply).emitFinally

def isAlive : Bool := task.stage = .running || task.stage = .abandoned

def fires (latest : Bool) : Bool := task.isAlive && if latest then task.timer_ else task.otherTimers ≠ 0

def step (task : NetworkTask) : NetworkEvent → NetworkTask
  | .loadCached bytes =>
    if task.stage ≠ .loadCached then task
    else
      match bytes with
      | none => { task with stage := .loadUncached }
      | some bytes =>
        let task : NetworkTask := { task with stage := .deleted }
        (task.emitSuccess { error := .NoError, status := some 200, data := bytes }).emitFinally
  | .run => if task.stage = .loadUncached then { task with stage := .running } else task
  | .requestSent =>
    if task.stage = .running ∧ task.data.timeout then
      { task with timer_ := true, otherTimers := task.otherTimers + if task.timer_ then 1 else 0 }
    else task
  | .timeout latest =>
    if task.fires latest then
      if latest then NetworkTask.onTimeout { task with timer_ := false }
      else NetworkTask.onTimeout { task with otherTimers := task.otherTimers - 1 }
    else task
  | .finished reply =>
    if task.stage = .running then task.onFinished reply else task
  | .deleted => if task.stage = .abandoned then { task with stage := .deleted } else task
  | .runGui =>
    match task.gui with
    | [] => task
    | callback :: gui => { task with gui, invoked := task.invoked ++ [callback] }
  | .runPool i =>
    match task.pool[i]? with
    | none => task
    | some callback => { task with pool := task.pool.eraseIdx i, invoked := task.invoked ++ [callback] }

def load (cache executeConcurrently timeout : Bool) : NetworkTask where
  data := { cache, executeConcurrently, timeout }
  stage := if cache then .loadCached else .loadUncached

def callbacks : List Callback := task.invoked ++ task.gui ++ task.pool

structure AnsweredOnce : Prop where
  answers : task.callbacks.countP Callback.isAnswer ≤ 1
  finallys : task.callbacks.count .finally_ ≤ 1
  inOrder : ∃ answer : Callback, answer.isAnswer ∧ task.invoked <+: [answer, .finally_]
  complete : task.stage = .deleted → task.gui = [] → task.pool = [] →
    ∃ answer : Callback, answer.isAnswer ∧ task.invoked = [answer, .finally_]

/-- No timer fires after a success, the pool keeps the order, and a task is not deleted without an answer. -/
def AnswersInOrder (task : NetworkTask) : NetworkEvent → Prop
  | .timeout latest => task.fires latest → task.data.onSuccess
  | .deleted => task.stage = .abandoned → task.data.onSuccess = false ∨ task.data.onError = false
  | .runPool i => task.pool[i]? = some .finally_ → ∀ callback ∈ task.pool, callback.isAnswer = false
  | _ => True

structure Silent : Prop where
  onSuccess : task.data.onSuccess = true
  onError : task.data.onError = true
  finally_ : task.data.finally_ = true
  invoked : task.invoked = []
  gui : task.gui = []
  pool : task.pool = []

structure Unanswered : Prop extends Silent task where
  stage : task.stage ≠ .deleted

structure Answered (answer : Callback) : Prop where
  isAnswer : answer.isAnswer
  onSuccess : task.data.onSuccess = !task.data.onError
  finally_ : task.data.finally_ = false
  executor : (task.data.executeConcurrently = false ∧ task.pool = []) ∨
    (task.data.executeConcurrently = true ∧ task.gui = [])
  callbacks : task.callbacks = [answer, .finally_]
  stage : task.stage = .abandoned ∨ task.stage = .deleted

variable {task}

theorem Unanswered.answeredOnce (h : task.Unanswered) : task.AnsweredOnce where
  answers := by
    unfold NetworkTask.callbacks
    rw [h.invoked, h.gui, h.pool]
    exact Nat.zero_le 1
  finallys := by
    unfold NetworkTask.callbacks
    rw [h.invoked, h.gui, h.pool]
    exact Nat.zero_le 1
  inOrder := ⟨.onSuccess { error := .NoError }, rfl, h.invoked ▸ List.nil_prefix⟩
  complete := fun hDeleted => absurd hDeleted h.stage

theorem Answered.answeredOnce {answer : Callback} (h : task.Answered answer) : task.AnsweredOnce where
  answers := by
    rw [h.callbacks, List.countP_cons_of_pos h.isAnswer]
    exact Nat.le_refl 1
  finallys := by
    have hNe : answer ≠ .finally_ := by
      rintro rfl
      cases h.isAnswer
    rw [h.callbacks, List.count_cons_of_ne hNe]
    exact Nat.le_refl 1
  inOrder := by
    refine ⟨answer, h.isAnswer, ?_⟩
    rw [← h.callbacks, NetworkTask.callbacks, List.append_assoc]
    exact List.prefix_append _ _
  complete := by
    intro _ hGui hPool
    refine ⟨answer, h.isAnswer, ?_⟩
    rw [← h.callbacks, NetworkTask.callbacks, hGui, hPool, List.append_nil, List.append_nil]

theorem Unanswered.load (cache executeConcurrently timeout : Bool) :
    (NetworkTask.load cache executeConcurrently timeout).Unanswered := by
  refine ⟨⟨rfl, rfl, rfl, rfl, rfl, rfl⟩, ?_⟩
  cases cache
  · exact show TaskStage.loadUncached ≠ .deleted by decide
  · exact show TaskStage.loadCached ≠ .deleted by decide

theorem answered_runCallback {answer : Callback} (hAnswer : answer.isAnswer) (hMoved : task.data.onSuccess = !task.data.onError)
    (hFinally : task.data.finally_ = true) (hNone : task.callbacks = [])
    (hStage : task.stage = .abandoned ∨ task.stage = .deleted) :
    ((task.runCallback answer).emitFinally).Answered answer := by
  obtain ⟨hFront, hPool⟩ := List.append_eq_nil_iff.mp hNone
  obtain ⟨hInvoked, hGui⟩ := List.append_eq_nil_iff.mp hFront
  unfold runCallback emitFinally
  cases hExecutor : task.data.executeConcurrently
  · simp only [Bool.false_eq_true, if_false, hFinally, Bool.not_true, runCallback, hExecutor]
    refine ⟨hAnswer, hMoved, rfl, .inl ⟨rfl, hPool⟩, ?_, hStage⟩
    simp [NetworkTask.callbacks, hInvoked, hGui, hPool]
  · simp only [Bool.false_eq_true, if_false, if_true, hFinally, Bool.not_true, runCallback, hExecutor]
    refine ⟨hAnswer, hMoved, rfl, .inr ⟨rfl, hGui⟩, ?_, hStage⟩
    simp [NetworkTask.callbacks, hInvoked, hGui, hPool]

theorem Silent.callbacks (h : task.Silent) : task.callbacks = [] := by
  unfold NetworkTask.callbacks
  rw [h.invoked, h.gui, h.pool]
  rfl

theorem Silent.answered_emitSuccess (h : task.Silent) (hStage : task.stage = .abandoned ∨ task.stage = .deleted)
    (result : NetworkResult) : ((task.emitSuccess result).emitFinally).Answered (.onSuccess result) := by
  unfold NetworkTask.emitSuccess
  rw [if_neg (by rw [h.onSuccess]; exact Bool.false_ne_true)]
  refine answered_runCallback rfl ?_ h.finally_ h.callbacks hStage
  exact show false = !task.data.onError by rw [h.onError]; rfl

theorem Silent.answered_emitError (h : task.Silent) (hStage : task.stage = .abandoned ∨ task.stage = .deleted)
    (result : NetworkResult) : ((task.emitError result).emitFinally).Answered (.onError result) := by
  unfold NetworkTask.emitError
  rw [if_neg (by rw [h.onError]; exact Bool.false_ne_true)]
  exact answered_runCallback rfl h.onSuccess h.finally_ h.callbacks hStage

theorem perm_callbacks_runCallback (task : NetworkTask) (callback : Callback) :
    (task.runCallback callback).callbacks.Perm (callback :: task.callbacks) := by
  unfold runCallback NetworkTask.callbacks
  split_ifs
  · dsimp only
    rw [← List.append_assoc]
    exact List.perm_append_singleton _ _
  · dsimp only
    rw [← List.append_assoc]
    exact (List.perm_append_singleton _ _).append_right _

theorem data_runCallback (task : NetworkTask) (callback : Callback) : (task.runCallback callback).data = task.data := by
  unfold runCallback
  split_ifs <;> rfl

theorem emitError_of_moved (h : task.data.onError = false) (result : NetworkResult) : task.emitError result = task := by
  unfold emitError
  rw [h]
  rfl

theorem emitError_of_present (h : task.data.onError = true) (result : NetworkResult) :
    task.emitError result =
      NetworkTask.runCallback { task with data := { task.data with onError := false } } (.onError result) := by
  unfold emitError
  rw [h]
  rfl

theorem emitFinally_of_moved (h : task.data.finally_ = false) : task.emitFinally = task := by
  unfold emitFinally
  rw [h]
  rfl

theorem Silent.answered_onTimeout (h : task.Silent) : ∃ answer, task.onTimeout.Answered answer := by
  refine ⟨.onError { error := .TimeoutError }, ?_⟩
  apply Silent.answered_emitError
  · exact ⟨h.onSuccess, h.onError, h.finally_, h.invoked, h.gui, h.pool⟩
  · exact .inl rfl

theorem Answered.onTimeout {answer : Callback} (h : task.Answered answer) (hSuccess : task.data.onSuccess = true) :
    task.onTimeout.Answered answer := by
  have hError : task.data.onError = false := by
    have hMoved := h.onSuccess
    rw [hSuccess, eq_comm, Bool.not_eq_true'] at hMoved
    exact hMoved
  unfold NetworkTask.onTimeout
  dsimp only
  rw [emitError_of_moved (by exact hError), emitFinally_of_moved (by exact h.finally_)]
  exact ⟨h.isAnswer, h.onSuccess, h.finally_, h.executor, h.callbacks, .inl rfl⟩

theorem Answered.not_answeredOnce_onTimeout {answer : Callback} (h : task.Answered answer)
    (hSuccess : task.data.onSuccess = false) : ¬task.onTimeout.AnsweredOnce := by
  have hError : task.data.onError = true := by
    have hMoved := h.onSuccess
    rw [hSuccess, eq_comm, Bool.not_eq_false'] at hMoved
    exact hMoved
  have hSame : task.onTimeout.callbacks.Perm (.onError { error := .TimeoutError } :: task.callbacks) := by
    unfold NetworkTask.onTimeout
    dsimp only
    rw [emitError_of_present (by exact hError), emitFinally_of_moved]
    · exact perm_callbacks_runCallback _ _
    · rw [data_runCallback]
      exact h.finally_
  intro hOnce
  have hCount := hOnce.answers
  rw [hSame.countP_eq, h.callbacks, List.countP_cons_of_pos rfl, List.countP_cons_of_pos h.isAnswer] at hCount
  omega

theorem Silent.onFinished (h : task.Silent) (reply : NetworkResult) :
    (task.onFinished reply).Unanswered ∨ ∃ answer, (task.onFinished reply).Answered answer := by
  unfold NetworkTask.onFinished
  dsimp only
  have hSilent : Silent { task with stage := .abandoned, timer_ := false } :=
    ⟨h.onSuccess, h.onError, h.finally_, h.invoked, h.gui, h.pool⟩
  split_ifs
  · exact .inl ⟨hSilent, show TaskStage.abandoned ≠ .deleted by decide⟩
  · exact .inr ⟨_, hSilent.answered_emitError (.inl rfl) reply⟩
  · exact .inr ⟨_, hSilent.answered_emitSuccess (.inl rfl) reply⟩

theorem Answered.runGui {answer : Callback} (h : task.Answered answer) : (task.step .runGui).Answered answer := by
  simp only [step]
  cases hGui : task.gui with
  | nil => exact h
  | cons callback gui =>
    refine ⟨h.isAnswer, h.onSuccess, h.finally_, ?_, ?_, h.stage⟩
    · refine h.executor.imp id fun hPool => ?_
      rw [hGui] at hPool
      exact absurd hPool.2 (List.cons_ne_nil _ _)
    · rw [← h.callbacks]
      simp [NetworkTask.callbacks, hGui]

theorem Answered.runPool {answer : Callback} (h : task.Answered answer) {i : Nat} {callback : Callback}
    (hGet : task.pool[i]? = some callback) :
    (callback = answer ∧ (task.step (.runPool i)).Answered answer) ∨
      (callback = .finally_ ∧ task.pool = [.finally_] ∧ (task.step (.runPool i)).Answered answer) ∨
      (callback = .finally_ ∧ answer ∈ task.pool ∧ (task.step (.runPool i)).invoked = [.finally_]) := by
  have hGui : task.gui = [] := by
    rcases h.executor with ⟨-, hPool⟩ | ⟨-, hGui⟩
    · rw [hPool] at hGet
      cases hGet
    · exact hGui
  have hAll := h.callbacks
  unfold NetworkTask.callbacks at hAll
  rw [hGui, List.append_nil] at hAll
  have hAnswered : ∀ pool, (task.invoked ++ [callback]) ++ pool = [answer, .finally_] → task.pool.eraseIdx i = pool →
      (task.step (.runPool i)).Answered answer := by
    intro pool hSame hErase
    simp only [step, hGet]
    refine ⟨h.isAnswer, h.onSuccess, h.finally_, ?_, ?_, h.stage⟩
    · refine h.executor.imp (fun hNone => ?_) id
      rw [hNone.2] at hGet
      cases hGet
    · simp only [NetworkTask.callbacks]
      rw [hGui, List.append_nil, hErase, hSame]
  cases hInvoked : task.invoked with
  | nil =>
    rw [hInvoked, List.nil_append] at hAll
    rw [hAll] at hGet
    cases i with
    | zero =>
      obtain rfl := Option.some.inj hGet
      refine .inl ⟨rfl, hAnswered [.finally_] ?_ ?_⟩
      · rw [hInvoked]
        rfl
      · rw [hAll]
        rfl
    | succ i =>
      cases i with
      | zero =>
        obtain rfl := Option.some.inj hGet
        refine .inr (.inr ⟨rfl, ?_, ?_⟩)
        · rw [hAll]
          exact List.mem_cons_self
        · simp [step, hAll, hInvoked]
      | succ i => cases hGet
  | cons first invoked =>
    rw [hInvoked, List.cons_append] at hAll
    obtain ⟨hFirst, hRest⟩ := List.cons.inj hAll
    cases invoked with
    | nil =>
      rw [List.nil_append] at hRest
      rw [hRest] at hGet
      cases i with
      | zero =>
        obtain rfl := Option.some.inj hGet
        refine .inr (.inl ⟨rfl, hRest, hAnswered [] ?_ ?_⟩)
        · rw [hInvoked, hFirst]
          rfl
        · rw [hRest]
          rfl
      | succ i => cases hGet
    | cons second invoked =>
      obtain ⟨-, hNil⟩ := List.cons.inj hRest
      rw [(List.append_eq_nil_iff.mp hNil).2] at hGet
      cases hGet

def InOrder (task : NetworkTask) : Prop := task.Unanswered ∨ ∃ answer, task.Answered answer

theorem InOrder.answeredOnce (h : task.InOrder) : task.AnsweredOnce := by
  rcases h with hNone | ⟨answer, hAnswered⟩
  · exact hNone.answeredOnce
  · exact hAnswered.answeredOnce

theorem InOrder.unanswered (h : task.InOrder) (hAbandoned : task.stage ≠ .abandoned) (hDeleted : task.stage ≠ .deleted) :
    task.Unanswered := by
  rcases h with hNone | ⟨answer, hAnswered⟩
  · exact hNone
  · exact absurd hAnswered.stage (not_or_intro hAbandoned hDeleted)

theorem InOrder.congr {after : NetworkTask} (h : task.InOrder) (hData : after.data = task.data)
    (hInvoked : after.invoked = task.invoked) (hGui : after.gui = task.gui) (hPool : after.pool = task.pool)
    (hStage : after.stage = task.stage ∨ (task.stage ≠ .abandoned ∧ task.stage ≠ .deleted ∧ after.stage ≠ .deleted)) :
    after.InOrder := by
  rcases h with hNone | ⟨answer, hAnswered⟩
  · refine .inl ⟨⟨?_, ?_, ?_, ?_, ?_, ?_⟩, ?_⟩
    · exact hData ▸ hNone.onSuccess
    · exact hData ▸ hNone.onError
    · exact hData ▸ hNone.finally_
    · exact hInvoked.trans hNone.invoked
    · exact hGui.trans hNone.gui
    · exact hPool.trans hNone.pool
    · rcases hStage with hSame | ⟨-, -, hNot⟩
      · rw [hSame]
        exact hNone.stage
      · exact hNot
  · refine .inr ⟨answer, hAnswered.isAnswer, ?_, ?_, ?_, ?_, ?_⟩
    · rw [hData]
      exact hAnswered.onSuccess
    · rw [hData]
      exact hAnswered.finally_
    · rw [hData, hGui, hPool]
      exact hAnswered.executor
    · unfold NetworkTask.callbacks
      rw [hInvoked, hGui, hPool]
      exact hAnswered.callbacks
    · rcases hStage with hSame | ⟨hAbandoned, hDeleted, -⟩
      · rw [hSame]
        exact hAnswered.stage
      · exact absurd hAnswered.stage (not_or_intro hAbandoned hDeleted)

theorem InOrder.onTimeout (h : task.InOrder) (hSuccess : task.data.onSuccess = true) : task.onTimeout.InOrder := by
  rcases h with hNone | ⟨answer, hAnswered⟩
  · exact .inr hNone.toSilent.answered_onTimeout
  · exact .inr ⟨answer, hAnswered.onTimeout hSuccess⟩

theorem InOrder.onSuccess_of_onTimeout (h : task.InOrder) (hOnce : task.onTimeout.AnsweredOnce) :
    task.data.onSuccess = true := by
  rcases h with hNone | ⟨answer, hAnswered⟩
  · exact hNone.onSuccess
  · by_contra hMoved
    exact hAnswered.not_answeredOnce_onTimeout (by simpa using hMoved) hOnce

theorem InOrder.step (h : task.InOrder) (event : NetworkEvent) :
    ((task.step event).AnsweredOnce → task.AnswersInOrder event) ∧
      (task.AnswersInOrder event → (task.step event).InOrder) := by
  cases event with
  | loadCached bytes =>
    refine ⟨fun _ => trivial, fun _ => ?_⟩
    simp only [NetworkTask.step]
    split_ifs with hStage
    · exact h
    · rw [not_not] at hStage
      have hAbandoned : task.stage ≠ .abandoned := by
        rw [hStage]
        decide
      have hDeleted : task.stage ≠ .deleted := by
        rw [hStage]
        decide
      cases bytes with
      | none => exact h.congr rfl rfl rfl rfl (.inr ⟨hAbandoned, hDeleted, show TaskStage.loadUncached ≠ .deleted by decide⟩)
      | some bytes =>
        have hNone := h.unanswered hAbandoned hDeleted
        refine .inr ⟨_, Silent.answered_emitSuccess ?_ (.inr rfl) _⟩
        exact ⟨hNone.onSuccess, hNone.onError, hNone.finally_, hNone.invoked, hNone.gui, hNone.pool⟩
  | run =>
    refine ⟨fun _ => trivial, fun _ => ?_⟩
    simp only [NetworkTask.step]
    split_ifs with hStage
    · refine h.congr rfl rfl rfl rfl (.inr ⟨?_, ?_, show TaskStage.running ≠ .deleted by decide⟩)
      · rw [hStage]
        decide
      · rw [hStage]
        decide
    · exact h
  | requestSent =>
    refine ⟨fun _ => trivial, fun _ => ?_⟩
    simp only [NetworkTask.step]
    split_ifs
    · exact h.congr rfl rfl rfl rfl (.inl rfl)
    · exact h.congr rfl rfl rfl rfl (.inl rfl)
    · exact h
  | timeout latest =>
    simp only [NetworkTask.step, AnswersInOrder]
    split_ifs with hFires hLatest
    · have hSame : InOrder { task with timer_ := false } := h.congr rfl rfl rfl rfl (.inl rfl)
      exact ⟨fun hOnce _ => hSame.onSuccess_of_onTimeout hOnce, fun hSuccess => hSame.onTimeout (hSuccess hFires)⟩
    · have hSame : InOrder { task with otherTimers := task.otherTimers - 1 } := h.congr rfl rfl rfl rfl (.inl rfl)
      exact ⟨fun hOnce _ => hSame.onSuccess_of_onTimeout hOnce, fun hSuccess => hSame.onTimeout (hSuccess hFires)⟩
    · exact ⟨fun _ hFiring => absurd hFiring hFires, fun _ => h⟩
  | finished reply =>
    refine ⟨fun _ => trivial, fun _ => ?_⟩
    simp only [NetworkTask.step]
    split_ifs with hStage
    · have hNone : task.Unanswered := by
        apply h.unanswered
        · rw [hStage]
          decide
        · rw [hStage]
          decide
      exact hNone.toSilent.onFinished reply
    · exact h
  | deleted =>
    simp only [NetworkTask.step, AnswersInOrder]
    split_ifs with hStage
    · rcases h with hNone | ⟨answer, hAnswered⟩
      · refine ⟨fun hOnce => ?_, fun hMoved => ?_⟩
        · -- A task without an answer has nothing left to run.
          obtain ⟨answer, -, hInvoked⟩ := hOnce.complete rfl hNone.gui hNone.pool
          exact absurd (hNone.invoked.symm.trans hInvoked) (List.cons_ne_nil _ _).symm
        · rw [hNone.onSuccess, hNone.onError] at hMoved
          rcases hMoved hStage with hMoved | hMoved <;> cases hMoved
      · refine ⟨fun _ _ => ?_, fun _ => .inr ⟨answer, ?_⟩⟩
        · rw [hAnswered.onSuccess]
          cases task.data.onError
          · exact .inr rfl
          · exact .inl rfl
        · exact ⟨hAnswered.isAnswer, hAnswered.onSuccess, hAnswered.finally_, hAnswered.executor, hAnswered.callbacks,
            .inr rfl⟩
    · exact ⟨fun _ hAbandoned => absurd hAbandoned hStage, fun _ => h⟩
  | runGui =>
    refine ⟨fun _ => trivial, fun _ => ?_⟩
    rcases h with hNone | ⟨answer, hAnswered⟩
    · refine .inl ?_
      simp only [NetworkTask.step, hNone.gui]
      exact hNone
    · exact .inr ⟨answer, hAnswered.runGui⟩
  | runPool i =>
    cases hGet : task.pool[i]? with
    | none =>
      simp only [NetworkTask.step, AnswersInOrder, hGet]
      exact ⟨fun _ hSome => (by cases hSome), fun _ => h⟩
    | some callback =>
      rcases h with hNone | ⟨answer, hAnswered⟩
      · rw [hNone.pool] at hGet
        cases hGet
      · rcases hAnswered.runPool hGet with ⟨rfl, hStep⟩ | ⟨rfl, hPool, hStep⟩ | ⟨rfl, hMem, hInvoked⟩
        · refine ⟨fun _ hEnd => ?_, fun _ => .inr ⟨callback, hStep⟩⟩
          rw [hGet] at hEnd
          have hIs := hAnswered.isAnswer
          rw [Option.some.inj hEnd] at hIs
          cases hIs
        · refine ⟨fun _ _ other hOther => ?_, fun _ => .inr ⟨answer, hStep⟩⟩
          rw [hPool, List.mem_singleton] at hOther
          rw [hOther]
          rfl
        · refine ⟨fun hOnce => ?_, fun hOrder => ?_⟩
          · obtain ⟨first, hFirst, hPrefix⟩ := hOnce.inOrder
            rw [hInvoked, List.cons_prefix_cons] at hPrefix
            rw [← hPrefix.1] at hFirst
            cases hFirst
          · have hNot := hOrder hGet answer hMem
            rw [hAnswered.isAnswer] at hNot
            cases hNot

/-- In every state a request has been answered once and ends last, exactly if the events are in order. -/
theorem answeredOnce_iff_answersInOrder (cache executeConcurrently timeout : Bool) (events : List NetworkEvent) :
    (∀ reached, reached <+: events → (reached.foldl step (load cache executeConcurrently timeout)).AnsweredOnce) ↔
      AllSteps step AnswersInOrder (load cache executeConcurrently timeout) events := by
  have hSide : AllSteps step (fun _ _ => True) (load cache executeConcurrently timeout) events :=
    AllSteps.of_forall_mem fun _ _ _ => trivial
  refine AllSteps.forall_reached_iff_of_strengthening hSide InOrder AnsweredOnce ?_ ?_ ?_ ?_
  · exact .inl (Unanswered.load cache executeConcurrently timeout)
  · exact fun task h => h.answeredOnce
  · exact fun task event h _ hOnce => (h.step event).1 hOnce
  · exact fun task event h _ hOrder => (h.step event).2 hOrder

/-- The pool runs the end of a concurrent request before its answer. -/
theorem not_answeredOnce_concurrent :
    ¬∀ (cache executeConcurrently timeout : Bool) (events : List NetworkEvent),
      (events.foldl step (load cache executeConcurrently timeout)).AnsweredOnce := by
  intro hAll
  obtain ⟨answer, hAnswer, hPrefix⟩ := (hAll false true false
    [.run, .finished { error := .NoError }, .deleted, .runPool 1, .runPool 0]).inOrder
  have hFirst : .finally_ = answer := (List.cons_prefix_cons.mp hPrefix).1
  rw [← hFirst] at hAnswer
  cases hAnswer

end NetworkTask

end Chatterino.Network
