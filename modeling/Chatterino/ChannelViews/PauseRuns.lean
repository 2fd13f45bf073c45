import Chatterino.ChannelViews.ChannelView
import Chatterino.Lib.Run

/-! # The pause timer

One timer serves the pauses of a view. When it fires, every pause that has an end is over. Time is
counted in nanoseconds, as the steady clock does, and the timer in milliseconds.
-/

namespace Chatterino

structure TimedView (MessagePtr : Type) extends ViewMessages MessagePtr where
  pauseEnd_ : Option Nat := none
  /-- The time at which the timer times out, if it runs. -/
  pauseTimer_ : Option Nat := none

/-- What happens at which time. The clock is read once more when the timer is started. -/
inductive PauseEvent where
  | pause (reason : PauseReason) (msecs : Option Nat) (now started : Nat)
  | unpause (reason : PauseReason) (now : Nat)
  | pauseTimeout (now : Nat)

namespace TimedView

variable {MessagePtr : Type}

def constructed (messagesLimit : Nat) (pausable : Bool) : TimedView MessagePtr where
  messages_ := .ofLimit messagesLimit
  pausable_ := pausable

def nanoseconds (msecs : Nat) : Nat := msecs * 1000000

/-- `std::max_element`. -/
def maxElement {α : Type} (comp : α → α → Bool) : List α → Option α
  | [] => none
  | first :: rest => some (rest.foldl (fun largest value => if comp largest value then value else largest) first)

def ends (pauses_ : PauseReason → Option (Option Nat)) : List Nat :=
  [PauseReason.Mouse, .Selection, .DoubleClick, .KeyboardModifier].filterMap fun reason => (pauses_ reason).join

/-- `start` of a timer: what remains is cut down to milliseconds. -/
def timeoutAt (pauseEnd now : Nat) : Nat := now + nanoseconds ((pauseEnd - now) / 1000000)

def updatePauses (now : Nat) (view : TimedView MessagePtr) : TimedView MessagePtr :=
  if ∀ reason, view.pauses_ reason = none then
    { view with toViewMessages := view.toViewMessages.unpaused, pauseEnd_ := none, pauseTimer_ := none }
  else if ∃ reason, view.pauses_ reason = some none then { view with pauseEnd_ := none, pauseTimer_ := none }
  else
    -- "the maximum pause" of a comparison the other way round
    match maxElement (fun a b => b < a) (ends view.pauses_) with
    | none => view
    | some pauseEnd =>
      if view.pauseEnd_ = some pauseEnd then view
      else { view with pauseEnd_ := some pauseEnd, pauseTimer_ := some (timeoutAt pauseEnd now) }

def pause (reason : PauseReason) (msecs : Option Nat) (now started : Nat) (view : TimedView MessagePtr) :
    TimedView MessagePtr :=
  updatePauses started { view with
    pauses_ := Function.update view.pauses_ reason
      (some (ViewMessages.pauseUntil (view.pauses_ reason) (msecs.map nanoseconds) now)) }

def unpause (reason : PauseReason) (now : Nat) (view : TimedView MessagePtr) : TimedView MessagePtr :=
  if (view.pauses_ reason).isSome then
    updatePauses now { view with pauses_ := Function.update view.pauses_ reason none }
  else view

def pauseTimeout (now : Nat) (view : TimedView MessagePtr) : TimedView MessagePtr :=
  updatePauses now { view with
    pauses_ := fun reason => (view.pauses_ reason).filter fun until_ => !until_.isSome
    pauseTimer_ := none }

def step (view : TimedView MessagePtr) : PauseEvent → TimedView MessagePtr
  | .pause reason msecs now started => view.pause reason msecs now started
  | .unpause reason now => view.unpause reason now
  | .pauseTimeout now => view.pauseTimeout now

theorem toViewMessages_updatePauses (now : Nat) (view : TimedView MessagePtr) :
    (view.updatePauses now).toViewMessages = view.toViewMessages.updatePauses := by
  rw [updatePauses, ViewMessages.updatePauses]
  split
  · rfl
  · split
    · rfl
    · cases maxElement (fun a b => decide (b < a)) (ends view.pauses_) with
      | none => rfl
      | some pauseEnd =>
        dsimp only
        split
        · rfl
        · rfl

def untimedStep (view : ViewMessages MessagePtr) : PauseEvent → ViewMessages MessagePtr
  | .pause reason msecs now _ => view.pause reason (msecs.map nanoseconds) now
  | .unpause reason _ => view.unpause reason
  | .pauseTimeout _ => view.pauseTimeout

theorem pauses_updatePauses (now : Nat) (view : TimedView MessagePtr) :
    (view.updatePauses now).pauses_ = view.pauses_ := by
  rw [toViewMessages_updatePauses, ViewMessages.updatePauses]
  split
  · rfl
  · rfl

theorem pausable_updatePauses (now : Nat) (view : TimedView MessagePtr) :
    (view.updatePauses now).pausable_ = view.pausable_ := by
  rw [toViewMessages_updatePauses, ViewMessages.updatePauses]
  split
  · rfl
  · rfl

theorem mem_ends {pauses_ : PauseReason → Option (Option Nat)} {pauseEnd : Nat} :
    pauseEnd ∈ ends pauses_ ↔ ∃ reason, pauses_ reason = some (some pauseEnd) := by
  rw [ends, List.mem_filterMap]
  constructor
  · rintro ⟨reason, -, hEnd⟩
    exact ⟨reason, Option.join_eq_some_iff.mp hEnd⟩
  · rintro ⟨reason, hEnd⟩
    refine ⟨reason, ?_, Option.join_eq_some_iff.mpr hEnd⟩
    cases reason <;> decide

end TimedView

open Lib

structure AskedView (MessagePtr : Type) where
  view : TimedView MessagePtr
  now : Nat := 0
  /-- The last pause of a reason that was not unpaused since: a time, or without end. -/
  asked : PauseReason → Option (Option Nat) := fun _ => none
  fired : Bool := false

namespace AskedView

variable {MessagePtr : Type} {s : AskedView MessagePtr}

def constructed (messagesLimit : Nat) (pausable : Bool) : AskedView MessagePtr where
  view := .constructed messagesLimit pausable

def step (s : AskedView MessagePtr) (event : PauseEvent) : AskedView MessagePtr :=
  match event with
  | .pause reason msecs now started =>
    { view := s.view.step event
      now := started
      asked := Function.update s.asked reason (some (msecs.map fun msecs => now + TimedView.nanoseconds msecs))
      fired := false }
  | .unpause reason now =>
    { view := s.view.step event
      now := now
      asked := Function.update s.asked reason none
      fired := s.fired }
  | .pauseTimeout now => { s with view := s.view.step event, now := now, fired := true }

def Occurs (s : AskedView MessagePtr) : PauseEvent → Prop
  | .pause _ _ now started => s.now ≤ now ∧ now ≤ started
  | .unpause _ now => s.now ≤ now
  | .pauseTimeout now => s.now ≤ now ∧ s.view.pauseTimer_.isSome

instance (event : PauseEvent) : Decidable (s.Occurs event) := by
  cases event <;> unfold Occurs <;> infer_instance

/-- A pause lasts as long as it was asked for, and the view is not paused once the timer has fired. -/
structure PausesAsAsked (s : AskedView MessagePtr) : Prop where
  lasts : s.view.pausable_ = true → ∀ time, s.now ≤ time → ∀ reason until_, s.asked reason = some until_ →
    (∀ pauseEnd ∈ until_, time < pauseEnd) → s.view.paused = true
  armed : (∃ reason, s.view.pauses_ reason ≠ none) → (∀ reason, s.view.pauses_ reason ≠ some none) →
    s.view.pauseTimer_.isSome
  ends : ∀ time, s.now ≤ time → (∀ reason pauseEnd, s.asked reason = some (some pauseEnd) → pauseEnd ≤ time) →
    s.fired = true → (∀ reason, s.view.pauses_ reason ≠ some none) → s.view.paused = false

def FiresInTime (s : AskedView MessagePtr) : PauseEvent → Prop
  | .pauseTimeout now =>
    s.view.pausable_ = true → ∀ reason, ∀ until_ ∈ s.asked reason, ∀ pauseEnd ∈ until_, pauseEnd ≤ now
  | _ => True

instance (event : PauseEvent) : Decidable (s.FiresInTime event) := by
  cases event <;> unfold FiresInTime <;> infer_instance

/-- The timer runs exactly while there are pauses and each of them has an end. -/
structure Timed (view : TimedView MessagePtr) : Prop where
  started : view.pauseEnd_.isSome → view.pauseTimer_.isSome
  finite : view.pauseTimer_.isSome → ∀ reason, view.pauses_ reason ≠ some none
  armed : (∃ reason, view.pauses_ reason ≠ none) → (∀ reason, view.pauses_ reason ≠ some none) →
    view.pauseTimer_.isSome

theorem timed_updatePauses {view : TimedView MessagePtr} (now : Nat)
    (hStarted : (∃ reason, view.pauses_ reason ≠ none) → view.pauseEnd_.isSome → view.pauseTimer_.isSome) :
    Timed (view.updatePauses now) := by
  rw [TimedView.updatePauses]
  split
  · rename_i hNone
    refine ⟨fun h => h, fun h => absurd h Bool.false_ne_true, ?_⟩
    rintro ⟨reason, hSome⟩
    exact absurd (hNone reason) hSome
  · rename_i hNot
    have hSome : ∃ reason, view.pauses_ reason ≠ none := not_forall.mp hNot
    split
    · rename_i hInfinite
      obtain ⟨reason, hReason⟩ := hInfinite
      exact ⟨fun h => h, fun h => absurd h Bool.false_ne_true, fun _ hFinite => absurd hReason (hFinite reason)⟩
    · rename_i hFinite
      have hEnds (reason : PauseReason) : view.pauses_ reason ≠ some none := fun h => hFinite ⟨reason, h⟩
      cases hPicked : TimedView.maxElement (fun a b => decide (b < a)) (TimedView.ends view.pauses_) with
      | none =>
        obtain ⟨reason, hReason⟩ := hSome
        obtain ⟨until_, hUntil⟩ := Option.ne_none_iff_exists'.mp hReason
        cases until_ with
        | none => exact absurd hUntil (hEnds reason)
        | some pauseEnd =>
          have hMem := TimedView.mem_ends.mpr ⟨reason, hUntil⟩
          cases hList : TimedView.ends view.pauses_ with
          | nil =>
            rw [hList] at hMem
            cases hMem
          | cons first rest =>
            rw [hList] at hPicked
            cases hPicked
      | some pauseEnd =>
        dsimp only
        split
        · rename_i hSame
          have hTimer := hStarted hSome (hSame ▸ rfl)
          exact ⟨fun _ => hTimer, fun _ => hEnds, fun _ _ => hTimer⟩
        · exact ⟨fun _ => rfl, fun _ => hEnds, fun _ _ => rfl⟩

theorem Timed.step {view : TimedView MessagePtr} (h : Timed view) (event : PauseEvent)
    (hTimer : ∀ now, event = .pauseTimeout now → view.pauseTimer_.isSome) : Timed (view.step event) := by
  cases event with
  | pause reason msecs now started =>
    apply timed_updatePauses
    exact fun _ => h.started
  | unpause reason now =>
    change Timed (view.unpause reason now)
    rw [TimedView.unpause]
    split
    · apply timed_updatePauses
      exact fun _ => h.started
    · exact h
  | pauseTimeout now =>
    apply timed_updatePauses
    rintro ⟨reason, hSome⟩
    obtain ⟨until_, hUntil⟩ := Option.ne_none_iff_exists'.mp hSome
    obtain ⟨hReason, hInfinite⟩ := Option.filter_eq_some_iff.mp hUntil
    cases until_ with
    | none => exact absurd hReason (h.finite (hTimer now rfl) reason)
    | some pauseEnd => exact absurd hInfinite Bool.false_ne_true

structure Tracked (s : AskedView MessagePtr) : Prop where
  timed : Timed s.view
  infinite : s.view.pausable_ = true → ∀ reason, s.asked reason = some none → s.view.pauses_ reason = some none
  finite : s.view.pausable_ = true → ∀ reason pauseEnd, s.asked reason = some (some pauseEnd) → s.now < pauseEnd →
    s.view.pauses_ reason ≠ none
  fired : s.fired = true → ∀ reason pauseEnd, s.view.pauses_ reason ≠ some (some pauseEnd)

theorem tracked_constructed (messagesLimit : Nat) (pausable : Bool) :
    (constructed messagesLimit pausable : AskedView MessagePtr).Tracked where
  timed := ⟨fun h => h, by rintro ⟨⟩, by rintro ⟨reason, hSome⟩; exact absurd rfl hSome⟩
  infinite := by rintro - reason ⟨⟩
  finite := by rintro - reason pauseEnd ⟨⟩
  fired := by rintro ⟨⟩

theorem not_paused_iff {view : ViewMessages MessagePtr} (hPausable : view.pausable_ = true) :
    view.paused = false ↔ ∀ reason, view.pauses_ reason = none := by
  simp [ViewMessages.paused, hPausable]

theorem Tracked.pausesAsAsked (h : s.Tracked) : s.PausesAsAsked where
  lasts hPausable time hNow reason until_ hAsked hAhead := by
    have hHeld : s.view.pauses_ reason ≠ none := by
      cases until_ with
      | none =>
        rw [h.infinite hPausable reason hAsked]
        exact Option.some_ne_none none
      | some pauseEnd => exact h.finite hPausable reason pauseEnd hAsked (hNow.trans_lt (hAhead pauseEnd rfl))
    by_contra hNot
    exact hHeld ((not_paused_iff hPausable).mp (Bool.eq_false_iff.mpr hNot) reason)
  armed := h.timed.armed
  ends time _ _ hFired hFinite := by
    by_contra hPaused
    have hPausable : s.view.pausable_ = true := ((Bool.and_eq_true _ _).mp (Bool.ne_false_iff.mp hPaused)).1
    apply hPaused
    rw [not_paused_iff hPausable]
    intro reason
    cases hReason : s.view.pauses_ reason with
    | none => rfl
    | some until_ =>
      cases until_ with
      | none => exact absurd hReason (hFinite reason)
      | some pauseEnd => exact absurd hReason (h.fired hFired reason pauseEnd)

theorem pauses_pauseTimeout {view : TimedView MessagePtr} (h : Timed view) (hTimer : view.pauseTimer_.isSome)
    (now : Nat) (reason : PauseReason) : (view.pauseTimeout now).pauses_ reason = none := by
  rw [TimedView.pauseTimeout, TimedView.pauses_updatePauses, Option.filter_eq_none_iff]
  intro until_ hUntil
  cases until_ with
  | none => exact absurd hUntil (h.finite hTimer reason)
  | some pauseEnd => exact Bool.false_ne_true

theorem Tracked.step (h : s.Tracked) {event : PauseEvent} (hOccurs : s.Occurs event) (hInTime : s.FiresInTime event) :
    (s.step event).Tracked := by
  have hTimed := h.timed.step event
  cases event with
  | pause reason msecs now started =>
    have hPauses : (s.view.pause reason msecs now started).pauses_ =
        Function.update s.view.pauses_ reason
          (some (ViewMessages.pauseUntil (s.view.pauses_ reason) (msecs.map TimedView.nanoseconds) now)) :=
      TimedView.pauses_updatePauses _ _
    have hPausable : (s.view.pause reason msecs now started).pausable_ = s.view.pausable_ :=
      TimedView.pausable_updatePauses _ _
    refine ⟨hTimed (by rintro _ ⟨⟩), fun hView other hAsked => ?_, fun hView other pauseEnd hAsked hLt => ?_, by rintro ⟨⟩⟩
    · change (s.view.pause reason msecs now started).pauses_ other = some none
      replace hAsked := (Function.update_apply s.asked reason _ other).symm.trans hAsked
      rw [hPauses, Function.update_apply]
      split at hAsked
      · rename_i hOther
        have hMsecs : msecs = none := Option.map_eq_none_iff.mp (Option.some.inj hAsked)
        rw [if_pos hOther, hMsecs]
        rfl
      · rename_i hOther
        rw [if_neg hOther]
        exact h.infinite (hPausable ▸ hView) other hAsked
    · change (s.view.pause reason msecs now started).pauses_ other ≠ none
      replace hAsked := (Function.update_apply s.asked reason _ other).symm.trans hAsked
      rw [hPauses, Function.update_apply]
      split at hAsked
      · rename_i hOther
        rw [if_pos hOther]
        exact Option.some_ne_none _
      · rename_i hOther
        rw [if_neg hOther]
        exact h.finite (hPausable ▸ hView) other pauseEnd hAsked ((hOccurs.1.trans hOccurs.2).trans_lt hLt)
  | unpause reason now =>
    have hPauses : (s.view.unpause reason now).pauses_ = Function.update s.view.pauses_ reason none := by
      rw [TimedView.unpause]
      split
      · exact TimedView.pauses_updatePauses _ _
      · rename_i hNone
        rw [Option.not_isSome_iff_eq_none] at hNone
        rw [← hNone, Function.update_eq_self]
    have hPausable : (s.view.unpause reason now).pausable_ = s.view.pausable_ := by
      rw [TimedView.unpause]
      split
      · exact TimedView.pausable_updatePauses _ _
      · rfl
    have hOthers {other : PauseReason} {until_ : Option Nat}
        (hAsked : Function.update s.asked reason none other = some until_) :
        s.asked other = some until_ ∧ (s.view.unpause reason now).pauses_ other = s.view.pauses_ other := by
      have hOther : other ≠ reason := by
        rintro rfl
        rw [Function.update_self] at hAsked
        cases hAsked
      rw [Function.update_of_ne hOther] at hAsked
      rw [hPauses, Function.update_of_ne hOther]
      exact ⟨hAsked, rfl⟩
    refine ⟨hTimed (by rintro _ ⟨⟩), fun hView other hAsked => ?_, fun hView other pauseEnd hAsked hLt => ?_,
      fun hFired other pauseEnd => ?_⟩
    · obtain ⟨hOld, hSame⟩ := hOthers hAsked
      exact hSame.trans (h.infinite (hPausable ▸ hView) other hOld)
    · obtain ⟨hOld, hSame⟩ := hOthers hAsked
      exact hSame.trans_ne (h.finite (hPausable ▸ hView) other pauseEnd hOld (lt_of_le_of_lt hOccurs hLt))
    · change (s.view.unpause reason now).pauses_ other ≠ some (some pauseEnd)
      rw [hPauses, Function.update_apply]
      split
      · exact (Option.some_ne_none _).symm
      · exact h.fired hFired other pauseEnd
  | pauseTimeout now =>
    have hNone := pauses_pauseTimeout h.timed hOccurs.2 now
    have hPausable : (s.view.pauseTimeout now).pausable_ = s.view.pausable_ :=
      TimedView.pausable_updatePauses _ _
    refine ⟨hTimed fun _ _ => hOccurs.2, fun hView other hAsked => ?_, fun hView other pauseEnd hAsked hLt => ?_,
      fun _ other pauseEnd hSome => ?_⟩
    · have hInfinite := h.infinite (hPausable ▸ hView) other hAsked
      exact absurd hInfinite (h.timed.finite hOccurs.2 other)
    · exact absurd hLt (not_lt.mpr (hInTime (hPausable ▸ hView) other _ hAsked pauseEnd rfl))
    · exact absurd ((hNone other).symm.trans hSome) (Option.some_ne_none _).symm

theorem Tracked.firesInTime (h : s.Tracked) {event : PauseEvent} (hOccurs : s.Occurs event)
    (hNext : (s.step event).PausesAsAsked) : s.FiresInTime event := by
  cases event with
  | pause reason msecs now started => trivial
  | unpause reason now => trivial
  | pauseTimeout now =>
    intro hView reason until_ hAsked pauseEnd hEnd
    obtain rfl : until_ = some pauseEnd := hEnd
    by_contra hNot
    have hPausable : (s.view.pauseTimeout now).pausable_ = true :=
      (TimedView.pausable_updatePauses _ _).trans hView
    have hPaused := hNext.lasts hPausable now (le_refl now) reason (some pauseEnd) hAsked fun end_ hSame => by
      rw [← Option.some.inj hSame]
      exact not_le.mp hNot
    have hNone := (not_paused_iff hPausable).mpr (pauses_pauseTimeout h.timed hOccurs.2 now)
    exact absurd (hPaused.symm.trans hNone) (by decide)

end AskedView

end Chatterino
