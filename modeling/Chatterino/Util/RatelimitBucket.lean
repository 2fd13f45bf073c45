import Chatterino.Lib.Run
import Chatterino.Qt.QString
import Mathlib.Data.List.Infix

/-! # A bucket of calls

A call costs one unit of the budget, which a timer gives back after the cooldown. The callback of a call
may send calls itself, so calls are seen between any two of its steps.
-/

namespace Chatterino

open Lib

structure RatelimitBucket where
  budget_ : Int
  cooldown_ : Nat
  queue_ : List QString

/-- A bucket with the callbacks that run and the timers that wait, and what happened so far. -/
structure BucketState extends RatelimitBucket where
  now : Nat
  -- when each callback that has not returned was called, the innermost first
  running : List Nat
  -- from when on each timer can fire
  timers : List Nat
  sent : List QString
  started : List (QString × Nat)

inductive BucketEvent where
  | send (channel : QString)
  | callbackReturns
  | timerFires (index : Nat)
  deriving DecidableEq

namespace BucketState

def created (budget : Int) (cooldown : Nat) : BucketState where
  budget_ := budget
  cooldown_ := cooldown
  queue_ := []
  now := 0
  running := []
  timers := []
  sent := []
  started := []

/-- What `handleOne` does until its callback is called. -/
def handleOne (s : BucketState) : BucketState :=
  match s.queue_ with
  | [] => s
  | item :: queue =>
    { s with
      budget_ := s.budget_ - 1
      queue_ := queue
      running := s.now :: s.running
      started := s.started ++ [(item, s.now)] }

/-- What `handleOne` does once its callback has returned. -/
def callbackReturns (s : BucketState) : BucketState :=
  { s with running := s.running.tail, timers := s.timers ++ [s.now + s.cooldown_] }

def send (channel : QString) (s : BucketState) : BucketState :=
  let queued := { s with queue_ := s.queue_ ++ [channel], sent := s.sent ++ [channel] }
  if 0 < queued.budget_ then queued.handleOne else queued

def timerFires (index : Nat) (s : BucketState) : BucketState :=
  { s with budget_ := s.budget_ + 1, timers := s.timers.eraseIdx index }.handleOne

def step (s : BucketState) (event : Nat × BucketEvent) : BucketState :=
  match event.2 with
  | .send channel => { s with now := event.1 }.send channel
  | .callbackReturns => { s with now := event.1 }.callbackReturns
  | .timerFires index => { s with now := event.1 }.timerFires index

def Admissible (s : BucketState) (event : Nat × BucketEvent) : Prop :=
  s.now ≤ event.1 ∧
    match event.2 with
    | .send _ => True
    | .callbackReturns => s.running ≠ []
    | .timerFires index => ∃ due ∈ s.timers[index]?, due ≤ event.1

def startedBetween (first last : Nat) (s : BucketState) : Nat :=
  s.started.countP fun start => first ≤ start.2 ∧ start.2 ≤ last

/-- A call that was started within the cooldown has not given its unit back. -/
structure Accounts (budget : Int) (s : BucketState) : Prop where
  order : s.started.map Prod.fst ++ s.queue_ = s.sent
  units : s.budget_ + s.timers.length + s.running.length = budget
  least : min budget 0 ≤ s.budget_
  past : ∀ start ∈ s.running, start ≤ s.now
  recent : ∀ time, s.now ≤ time → s.started.countP (fun start => time < start.2 + s.cooldown_) ≤
    s.running.countP (fun start => time < start + s.cooldown_) + s.timers.countP (fun due => time < due)
  window : ∀ first last, last < first + s.cooldown_ → s.startedBetween first last ≤ budget.toNat

variable {budget : Int} {s : BucketState}

theorem accounts_created (budget : Int) (cooldown : Nat) : Accounts budget (created budget cooldown) where
  order := rfl
  units := by simp [created]
  least := min_le_left budget 0
  past := by simp [created]
  recent := by simp [created]
  window := by simp [created, startedBetween]

theorem Accounts.later (h : Accounts budget s) {time : Nat} (hTime : s.now ≤ time) :
    Accounts budget { s with now := time } where
  order := h.order
  units := h.units
  least := h.least
  past start hStart := (h.past start hStart).trans hTime
  recent later hLater := h.recent later (hTime.trans hLater)
  window := h.window

theorem Accounts.startedBetween_le (h : Accounts budget s) {first last : Nat} (hLast : last < first + s.cooldown_)
    (hNow : s.now ≤ last) : s.startedBetween first last ≤ s.timers.length + s.running.length := by
  have hRecent : s.startedBetween first last ≤ s.started.countP fun start => s.now < start.2 + s.cooldown_ := by
    apply List.countP_mono_left
    intro start _ hWindow
    simp only [decide_eq_true_eq] at hWindow ⊢
    omega
  have hHeld := h.recent s.now (Nat.le_refl _)
  have hRunning := List.countP_le_length (p := fun start => decide (s.now < start + s.cooldown_)) (l := s.running)
  have hTimers := List.countP_le_length (p := fun due => decide (s.now < due)) (l := s.timers)
  omega

theorem Accounts.handleOne (h : Accounts budget s) (hBudget : 0 < s.budget_) : Accounts budget s.handleOne := by
  unfold BucketState.handleOne
  split
  · exact h
  · rename_i item queue hQueue
    have hUnits := h.units
    refine ⟨?_, ?_, ?_, ?_, ?_, ?_⟩
    · have hOrder := h.order
      rw [hQueue] at hOrder
      simpa using hOrder
    · rw [List.length_cons]
      push_cast
      omega
    · have hLeast := min_le_right budget 0
      dsimp only
      omega
    · exact List.forall_mem_cons.mpr ⟨Nat.le_refl _, h.past⟩
    · intro time hTime
      have hRecent := h.recent time hTime
      rw [List.countP_append, List.countP_singleton, List.countP_cons]
      dsimp only at hTime ⊢
      omega
    · intro first last hLast
      have hWindow := h.window first last hLast
      rw [startedBetween, List.countP_append, List.countP_singleton]
      split_ifs with hNow
      · -- the window is not over, so its calls hold their units, and one unit is left
        have hHeld := h.startedBetween_le hLast (of_decide_eq_true hNow).2
        rw [startedBetween] at hHeld
        omega
      · exact hWindow

theorem Accounts.send (h : Accounts budget s) (channel : QString) : Accounts budget (s.send channel) := by
  have hQueued : Accounts budget { s with queue_ := s.queue_ ++ [channel], sent := s.sent ++ [channel] } :=
    { h with order := by rw [← List.append_assoc, h.order] }
  unfold BucketState.send
  dsimp only
  split_ifs with hBudget
  · exact hQueued.handleOne hBudget
  · exact hQueued

theorem Accounts.callbackReturns (h : Accounts budget s) (hRunning : s.running ≠ []) :
    Accounts budget s.callbackReturns := by
  obtain ⟨start, running, hCons⟩ := List.exists_cons_of_ne_nil hRunning
  have hUnits := h.units
  have hPast := h.past
  rw [hCons, List.forall_mem_cons] at hPast
  refine ⟨h.order, ?_, h.least, ?_, ?_, h.window⟩
  · rw [BucketState.callbackReturns, hCons, List.tail_cons, List.length_append, List.length_singleton]
    rw [hCons, List.length_cons] at hUnits
    push_cast at hUnits ⊢
    omega
  · rw [BucketState.callbackReturns, hCons]
    exact hPast.2
  · intro time hTime
    have hRecent := h.recent time hTime
    rw [hCons, List.countP_cons] at hRecent
    rw [BucketState.callbackReturns, hCons, List.tail_cons, List.countP_append, List.countP_singleton]
    -- the unit comes back a cooldown after now, which is not before the start
    have hUnit : (if decide (time < start + s.cooldown_) = true then 1 else 0) ≤
        if decide (time < s.now + s.cooldown_) = true then 1 else 0 := by
      simp only [decide_eq_true_eq]
      have hStart := hPast.1
      split_ifs <;> omega
    exact hRecent.trans (by dsimp only; omega)

theorem countP_eraseIdx_of_not {p : Nat → Bool} {list : List Nat} {index value : Nat} (hValue : value ∈ list[index]?)
    (hNot : p value = false) : (list.eraseIdx index).countP p = list.countP p := by
  induction list generalizing index with
  | nil => rfl
  | cons x list ih =>
    cases index with
    | zero =>
      obtain rfl : x = value := Option.some.inj hValue
      rw [List.eraseIdx_cons_zero, List.countP_cons, hNot, if_neg Bool.false_ne_true, Nat.add_zero]
    | succ index =>
      rw [List.eraseIdx_cons_succ, List.countP_cons, List.countP_cons, ih hValue]

theorem Accounts.given (h : Accounts budget s) {index due : Nat} (hDue : due ∈ s.timers[index]?)
    (hNow : due ≤ s.now) :
    Accounts budget { s with budget_ := s.budget_ + 1, timers := s.timers.eraseIdx index } ∧ 0 ≤ s.budget_ := by
  obtain ⟨hIndex, -⟩ := List.getElem?_eq_some_iff.mp hDue
  have hLength := List.length_eraseIdx_of_lt hIndex
  have hUnits := h.units
  have hLeast := h.least
  refine ⟨⟨h.order, ?_, by dsimp only; omega, h.past, fun time hTime => ?_, h.window⟩, ?_⟩
  · dsimp only
    omega
  · have hLate : decide (time < due) = false := decide_eq_false (by dsimp only at hTime; omega)
    dsimp only
    rw [countP_eraseIdx_of_not hDue hLate]
    exact h.recent time hTime
  · rcases min_choice budget 0 with hMin | hMin <;> omega

theorem Accounts.timerFires (h : Accounts budget s) {index due : Nat} (hDue : due ∈ s.timers[index]?)
    (hNow : due ≤ s.now) : Accounts budget (s.timerFires index) := by
  obtain ⟨hGiven, hBudget⟩ := h.given hDue hNow
  exact hGiven.handleOne (Int.lt_add_one_of_le hBudget)

theorem Accounts.next (h : Accounts budget s) {event : Nat × BucketEvent} (hEvent : Admissible s event) :
    Accounts budget (s.step event) := by
  obtain ⟨time, event⟩ := event
  obtain ⟨hTime, hOccurs⟩ := hEvent
  cases event with
  | send channel => exact (h.later hTime).send channel
  | callbackReturns => exact (h.later hTime).callbackReturns hOccurs
  | timerFires index =>
    obtain ⟨due, hDue, hNow⟩ := hOccurs
    exact (h.later hTime).timerFires hDue hNow

end BucketState

def BucketEvent.isTimer : BucketEvent → Bool
  | .timerFires _ => true
  | _ => false

namespace BucketState

variable {budget : Int} {s : BucketState}

def WaitsForUnits (s : BucketState) : Prop := s.queue_ ≠ [] → s.budget_ ≤ 0

theorem waitsForUnits_handleOne (h : s.queue_.tail ≠ [] → s.budget_ ≤ 1) : WaitsForUnits s.handleOne := by
  unfold handleOne
  split
  · rename_i hQueue
    exact fun hNot => absurd hQueue hNot
  · rename_i item queue hQueue
    intro hRest
    rw [hQueue, List.tail_cons] at h
    exact Int.sub_nonpos_of_le (h hRest)

theorem WaitsForUnits.step (h : WaitsForUnits s) (event : Nat × BucketEvent) : WaitsForUnits (s.step event) := by
  obtain ⟨time, event⟩ := event
  cases event with
  | send channel =>
    rw [BucketState.step]
    dsimp only
    rw [send]
    dsimp only
    split_ifs with hBudget
    · apply waitsForUnits_handleOne
      -- nothing waits while there are units, so the queue is the call itself
      have hEmpty : s.queue_ = [] := by
        by_contra hQueue
        exact absurd (h hQueue) (Int.not_le.mpr hBudget)
      dsimp only
      rw [hEmpty]
      exact fun hNot => absurd rfl hNot
    · exact fun _ => Int.not_lt.mp hBudget
  | callbackReturns => exact h
  | timerFires index =>
    apply waitsForUnits_handleOne
    intro hRest
    have hQueue : s.queue_ ≠ [] := by
      intro hEmpty
      rw [hEmpty] at hRest
      exact hRest rfl
    exact Int.add_le_add_right (h hQueue) 1

theorem Accounts.budget_eq (h : Accounts budget s) (hBudget : s.budget_ ≤ 0) : s.budget_ = min budget 0 := by
  have hUnits := h.units
  have hLeast := h.least
  apply le_antisymm _ hLeast
  apply le_min _ hBudget
  omega

theorem started_handleOne (s : BucketState) : s.started <+: s.handleOne.started := by
  unfold handleOne
  split
  · exact List.prefix_refl _
  · exact List.prefix_append _ _

theorem sent_handleOne (s : BucketState) : s.handleOne.sent = s.sent := by
  unfold handleOne
  split <;> rfl

theorem started_step (s : BucketState) (event : Nat × BucketEvent) : s.started <+: (s.step event).started := by
  obtain ⟨time, event⟩ := event
  cases event with
  | send channel =>
    rw [step]
    dsimp only
    rw [send]
    dsimp only
    split_ifs with hBudget
    · exact started_handleOne { s with now := time, queue_ := s.queue_ ++ [channel], sent := s.sent ++ [channel] }
    · exact List.prefix_refl _
  | callbackReturns => exact List.prefix_refl _
  | timerFires index =>
    exact started_handleOne { s with now := time, budget_ := s.budget_ + 1, timers := s.timers.eraseIdx index }

theorem sent_step (s : BucketState) (event : Nat × BucketEvent) : s.sent <+: (s.step event).sent := by
  obtain ⟨time, event⟩ := event
  cases event with
  | send channel =>
    rw [step]
    dsimp only
    rw [send]
    dsimp only
    split_ifs with hBudget
    · rw [sent_handleOne]
      exact List.prefix_append _ _
    · exact List.prefix_append _ _
  | callbackReturns => exact List.prefix_refl _
  | timerFires index =>
    rw [step]
    dsimp only
    rw [timerFires, sent_handleOne]

theorem sent_foldl (s : BucketState) (events : List (Nat × BucketEvent)) :
    s.sent <+: (events.foldl step s).sent := by
  induction events generalizing s with
  | nil => exact List.prefix_refl _
  | cons event events ih => exact (sent_step s event).trans (ih _)

theorem length_started_handleOne (s : BucketState) :
    s.queue_ = [] ∨ s.handleOne.started.length = s.started.length + 1 := by
  unfold handleOne
  split
  · rename_i hQueue
    exact .inl hQueue
  · exact .inr (List.length_append.trans rfl)

theorem Accounts.length_sent (h : Accounts budget s) : s.sent.length = s.started.length + s.queue_.length := by
  rw [← h.order, List.length_append, List.length_map]

theorem Accounts.le_length_started (h : Accounts budget s) {events : List (Nat × BucketEvent)}
    (hAdmissible : AllSteps step Admissible s events) {count : Nat} (hSent : count ≤ s.sent.length)
    (hCount : count ≤ s.started.length + events.countP fun event => event.2.isTimer) :
    count ≤ (events.foldl step s).started.length := by
  induction events generalizing s with
  | nil => exact hCount
  | cons event events ih =>
    have hStarted := (started_step s event).length_le
    have hNextSent := (sent_step s event).length_le
    apply ih (h.next hAdmissible.1) hAdmissible.2 (hSent.trans hNextSent)
    rw [List.countP_cons] at hCount
    obtain ⟨time, event⟩ := event
    cases event with
    | send channel | callbackReturns => exact hCount.trans (Nat.add_le_add_right hStarted _)
    | timerFires index =>
      have hTimer : (BucketEvent.timerFires index).isTimer = true := rfl
      rw [if_pos hTimer] at hCount
      rcases length_started_handleOne { s with now := time, budget_ := s.budget_ + 1, timers := s.timers.eraseIdx index }
        with hQueue | hOne
      · have hQueue : s.queue_ = [] := hQueue
        have hLength := h.length_sent
        rw [hQueue, List.length_nil] at hLength
        omega
      · have hOne : (s.step (time, .timerFires index)).started.length = s.started.length + 1 := hOne
        omega

theorem Accounts.sent_isPrefix (h : Accounts budget s) {events : List (Nat × BucketEvent)}
    (hAdmissible : AllSteps step Admissible s events)
    (hCount : s.queue_.length ≤ events.countP fun event => event.2.isTimer) :
    s.sent <+: (events.foldl step s).started.map Prod.fst := by
  have hLast : Accounts budget (events.foldl step s) := hAdmissible.invariant h fun _ _ hNow hEvent => hNow.next hEvent
  have hStarted : s.sent.length ≤ (events.foldl step s).started.length := by
    apply h.le_length_started hAdmissible (Nat.le_refl _)
    rw [h.length_sent]
    exact Nat.add_le_add_left hCount _
  have hOrder : (events.foldl step s).started.map Prod.fst <+: (events.foldl step s).sent := ⟨_, hLast.order⟩
  exact List.prefix_of_prefix_length_le (sent_foldl s events) hOrder (hStarted.trans (List.length_map _).ge)

theorem cooldown_handleOne (s : BucketState) : s.handleOne.cooldown_ = s.cooldown_ := by
  unfold handleOne
  split <;> rfl

theorem cooldown_step (s : BucketState) (event : Nat × BucketEvent) : (s.step event).cooldown_ = s.cooldown_ := by
  obtain ⟨time, event⟩ := event
  cases event with
  | send channel =>
    rw [step]
    dsimp only
    rw [send]
    dsimp only
    split_ifs with hBudget
    · exact cooldown_handleOne _
    · rfl
  | callbackReturns => rfl
  | timerFires index => exact cooldown_handleOne _

theorem cooldown_foldl (s : BucketState) (events : List (Nat × BucketEvent)) :
    (events.foldl step s).cooldown_ = s.cooldown_ := by
  induction events generalizing s with
  | nil => rfl
  | cons event events ih => exact (ih _).trans (cooldown_step s event)

/-- In every state of a run calls start in the order they were sent, each unit of the budget is accounted for, calls
wait only for units, and no window shorter than the cooldown has more calls than the budget. -/
theorem ratelimited (budget : Int) (cooldown : Nat) {events : List (Nat × BucketEvent)}
    (hAdmissible : AllSteps step Admissible (created budget cooldown) events) {reached next : List (Nat × BucketEvent)}
    (hReached : reached ++ next <+: events) :
    let s := reached.foldl step (created budget cooldown)
    s.started.map Prod.fst ++ s.queue_ = s.sent ∧
      s.budget_ + s.timers.length + s.running.length = budget ∧
      (s.queue_ ≠ [] → s.budget_ = min budget 0) ∧
      (∀ first last, last < first + cooldown → s.startedBetween first last ≤ budget.toNat) ∧
      (s.queue_.length ≤ (next.countP fun event => event.2.isTimer) →
        s.sent <+: (next.foldl step s).started.map Prod.fst) := by
  intro s
  obtain ⟨hSteps, hNext⟩ := AllSteps.append_iff.mp (hAdmissible.of_isPrefix hReached)
  have hAccounts : Accounts budget s :=
    hSteps.invariant (accounts_created budget cooldown) fun _ _ hNow hEvent => hNow.next hEvent
  have hWaits : WaitsForUnits s :=
    foldl_invariant reached (fun hNot => absurd rfl hNot) fun _ event hNow => hNow.step event
  have hCooldown : s.cooldown_ = cooldown := cooldown_foldl _ reached
  refine ⟨hAccounts.order, hAccounts.units, fun hQueue => hAccounts.budget_eq (hWaits hQueue), ?_,
    hAccounts.sent_isPrefix hNext⟩
  intro first last hLast
  exact hAccounts.window first last (hCooldown ▸ hLast)

theorem ratelimited_two :
    let s := [(0, BucketEvent.send [97]), (0, .send [98]), (1, .callbackReturns)].foldl step (created 1 10)
    s.started.map Prod.fst ++ s.queue_ = s.sent ∧
      s.budget_ + s.timers.length + s.running.length = 1 ∧
      (s.queue_ ≠ [] → s.budget_ = min 1 0) ∧
      (∀ first last, last < first + 10 → s.startedBetween first last ≤ (1 : Int).toNat) ∧
      (s.queue_.length ≤ ([(11, .timerFires 0)].countP fun event : Nat × BucketEvent => event.2.isTimer) →
        s.sent <+: ([(11, .timerFires 0)].foldl step s).started.map Prod.fst) := by
  have hAdmissible : AllSteps step Admissible (created 1 10)
      [(0, .send [97]), (0, .send [98]), (1, .callbackReturns), (11, .timerFires 0)] :=
    ⟨⟨by decide, trivial⟩, ⟨by decide, trivial⟩, ⟨by decide, by decide⟩, ⟨by decide, 11, rfl, by decide⟩, trivial⟩
  exact ratelimited 1 10 hAdmissible (List.prefix_refl _)

/-- While a callback runs, its unit is neither in the budget nor with a timer. -/
theorem not_accounts_running :
    (¬∀ (budget : Int) (cooldown : Nat) (events : List (Nat × BucketEvent)),
      AllSteps step Admissible (created budget cooldown) events →
      let s := events.foldl step (created budget cooldown)
      s.budget_ + s.timers.length = budget) ∧
    ¬∀ (budget : Int) (cooldown : Nat) (events : List (Nat × BucketEvent)),
      AllSteps step Admissible (created budget cooldown) events →
      let s := events.foldl step (created budget cooldown)
      s.queue_ ≠ [] → s.budget_ = 0 := by
  constructor
  · intro hAll
    have hUnits := hAll 1 10 [(0, .send [97])] ⟨⟨by decide, trivial⟩, trivial⟩
    exact absurd hUnits (by decide)
  · intro hAll
    have hZero := hAll (-1) 10 [(0, .send [97])] ⟨⟨by decide, trivial⟩, trivial⟩ (by decide)
    exact absurd hZero (by decide)

end BucketState

end Chatterino
