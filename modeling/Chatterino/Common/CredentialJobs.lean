import Chatterino.Lib.Run
import Chatterino.Qt.QString
import Mathlib.Data.List.Induction

/-! # Jobs of the keychain

Credentials are written and erased by jobs that finish later. A job that is queued into an empty queue is started,
and it leaves the queue as it starts. So the queue is empty while a job runs, and the next call starts its job too.
-/

namespace Chatterino

inductive CredentialJob where
  | SetJob (name credential : QString)
  | EraseJob (name : QString)
deriving DecidableEq

abbrev Keychain := QString → Option QString

def CredentialJob.name : CredentialJob → QString
  | SetJob name _ => name
  | EraseJob name => name

def CredentialJob.credential : CredentialJob → Option QString
  | SetJob _ credential => some credential
  | EraseJob _ => none

def CredentialJob.finish (job : CredentialJob) (keychain : Keychain) : Keychain :=
  Function.update keychain job.name job.credential

def lastCredential (keychain : Keychain) (calls : List CredentialJob) (name : QString) : Option QString :=
  ((calls.filter fun job => job.name = name).getLast?.map CredentialJob.credential).getD (keychain name)

theorem foldl_finish (keychain : Keychain) (calls : List CredentialJob) (name : QString) :
    calls.foldl (fun keychain job => job.finish keychain) keychain name = lastCredential keychain calls name := by
  induction calls using List.reverseRecOn with
  | nil => rfl
  | append_singleton calls job ih =>
    rw [List.foldl_append, List.foldl_cons, List.foldl_nil, CredentialJob.finish, lastCredential, List.filter_append]
    by_cases hName : job.name = name
    · simp [hName]
    · rw [Function.update_of_ne (Ne.symm hName), ih]
      simp [lastCredential, hName]

structure CredentialQueue where
  jobQueue : List CredentialJob := []
  running : List CredentialJob := []
  keychain : Keychain := fun _ => none
  calls : List CredentialJob := []
  started : List CredentialJob := []

namespace CredentialQueue

def runNextJob (queue : CredentialQueue) : CredentialQueue :=
  match queue.jobQueue with
  | [] => queue
  | item :: jobQueue =>
    { queue with jobQueue, running := queue.running ++ [item], started := queue.started ++ [item] }

def queueJob (job : CredentialJob) (queue : CredentialQueue) : CredentialQueue :=
  let pushed := { queue with jobQueue := queue.jobQueue ++ [job], calls := queue.calls ++ [job] }
  if pushed.jobQueue.length = 1 then pushed.runNextJob else pushed

def formatName (provider name : QString) : QString :=
  QString.lit "chatterino:" ++ provider ++ QString.lit ":" ++ name

def set (provider name credential : QString) (queue : CredentialQueue) : CredentialQueue :=
  queue.queueJob (.SetJob (formatName provider name) credential)

def erase (provider name : QString) (queue : CredentialQueue) : CredentialQueue :=
  queue.queueJob (.EraseJob (formatName provider name))

def finished (index : Nat) (queue : CredentialQueue) : CredentialQueue :=
  match queue.running[index]? with
  | none => queue
  | some job =>
    { queue with running := queue.running.eraseIdx index, keychain := job.finish queue.keychain }.runNextJob

inductive Event where
  | set (provider name credential : QString)
  | erase (provider name : QString)
  | finished (index : Nat)

def step (queue : CredentialQueue) : Event → CredentialQueue
  | .set provider name credential => queue.set provider name credential
  | .erase provider name => queue.erase provider name
  | .finished index => queue.finished index

/-- One job runs at a time, in the order of the calls, and at the end the keychain has what the calls left. -/
structure RunsInOrder (keychain : Keychain) (queue : CredentialQueue) : Prop where
  one : queue.running.length ≤ 1
  order : queue.started ++ queue.jobQueue = queue.calls
  next : queue.running = [] → queue.jobQueue = []
  stored : queue.running = [] → queue.jobQueue = [] →
    ∀ name, queue.keychain name = lastCredential keychain queue.calls name

def CallsWhenIdle (queue : CredentialQueue) : Event → Prop
  | .finished _ => True
  | _ => queue.running = []

inductive Idle (keychain : Keychain) : CredentialQueue → Prop
  | idle (calls : List CredentialJob) :
      Idle keychain
        { keychain := calls.foldl (fun keychain job => job.finish keychain) keychain, calls := calls, started := calls }
  | busy (calls : List CredentialJob) (job : CredentialJob) :
      Idle keychain
        { running := [job], keychain := calls.foldl (fun keychain job => job.finish keychain) keychain,
          calls := calls ++ [job], started := calls ++ [job] }

variable {keychain : Keychain} {queue : CredentialQueue}

theorem Idle.runsInOrder (h : Idle keychain queue) : queue.RunsInOrder keychain := by
  cases h with
  | idle calls =>
    constructor
    · exact Nat.zero_le _
    · exact List.append_nil _
    · exact fun _ => rfl
    · exact fun _ _ name => foldl_finish keychain calls name
  | busy calls job =>
    constructor
    · exact Nat.le_refl _
    · exact List.append_nil _
    · exact fun _ => rfl
    · rintro ⟨⟩

theorem queueJob_of_nil (hQueue : queue.jobQueue = []) (job : CredentialJob) :
    queue.queueJob job =
      { queue with
        running := queue.running ++ [job], calls := queue.calls ++ [job], started := queue.started ++ [job] } := by
  simp [queueJob, runNextJob, hQueue]

theorem Idle.jobQueue (h : Idle keychain queue) : queue.jobQueue = [] := by
  cases h <;> rfl

theorem Idle.queueJob (h : Idle keychain queue) (hRunning : queue.running = []) (job : CredentialJob) :
    Idle keychain (queue.queueJob job) := by
  rw [queueJob_of_nil h.jobQueue]
  cases h with
  | idle calls => exact .busy calls job
  | busy calls earlier => cases hRunning

theorem Idle.running_of_queueJob (h : Idle keychain queue) {job : CredentialJob}
    (hOne : (queue.queueJob job).RunsInOrder keychain) : queue.running = [] := by
  have hLength := hOne.one
  rw [queueJob_of_nil h.jobQueue, List.length_append, List.length_singleton] at hLength
  exact List.eq_nil_of_length_eq_zero (by omega)

theorem Idle.finished (h : Idle keychain queue) (index : Nat) : Idle keychain (queue.finished index) := by
  cases h with
  | idle calls => exact .idle calls
  | busy calls job =>
    cases index with
    | zero =>
      have hFinished : Idle keychain _ := .idle (calls ++ [job])
      rw [List.foldl_append] at hFinished
      exact hFinished
    | succ index => exact .busy calls job

/-- Keychain jobs run one at a time, in order, if and only if nothing is called for while a job runs. -/
theorem runsInOrder_iff (keychain : Keychain) (events : List Event) :
    (∀ reached, reached <+: events → (reached.foldl step { keychain := keychain }).RunsInOrder keychain) ↔
      Lib.AllSteps step CallsWhenIdle { keychain := keychain } events := by
  have hSide : Lib.AllSteps step (fun _ _ => True) { keychain := keychain } events :=
    .of_forall_mem fun _ _ _ => trivial
  apply Lib.AllSteps.forall_reached_iff_of_strengthening hSide (Idle keychain) (RunsInOrder keychain)
  · exact .idle []
  · exact fun _ h => h.runsInOrder
  · intro queue event h _ hNext
    cases event with
    | finished index => trivial
    | set | erase => exact h.running_of_queueJob hNext
  · intro queue event h _ hIdle
    cases event with
    | finished index => exact h.finished index
    | set | erase => exact h.queueJob hIdle _

def overwritten : List Event :=
  [.set (QString.lit "twitch") (QString.lit "token") (QString.lit "old"),
    .set (QString.lit "twitch") (QString.lit "token") (QString.lit "new"), .finished 1, .finished 0]

/-- The second job is started while the first one runs, and the first one may finish last. -/
theorem not_runsInOrder_overwritten :
    ¬∀ (keychain : Keychain) (events : List Event),
      (events.foldl step { keychain := keychain }).RunsInOrder keychain := by
  intro hAll
  have hStored := (hAll (fun _ => none) overwritten).stored rfl rfl
  exact absurd (hStored (formatName (QString.lit "twitch") (QString.lit "token"))) (by decide)

end CredentialQueue

end Chatterino
