import Chatterino.Lib.Cycles
import Chatterino.Lib.PairedLists

/-! # Animated images

The copies of an animated image are each advanced by the timer of all animations. A new copy takes
its place in the animation from the position of the timer.
-/

namespace Chatterino.Images

open Lib

structure Frame (QPixmap : Type) where
  image : QPixmap
  duration : Nat

structure Frames (QPixmap : Type) where
  items_ : List (Frame QPixmap)
  index_ : Nat := 0
  durationOffset_ : Nat := 0

def GIF_FRAME_LENGTH : Nat := 20

variable {QPixmap : Type}

def durations (items : List (Frame QPixmap)) : List Nat := items.map Frame.duration

def totalLength (items : List (Frame QPixmap)) : Nat := (durations items).sum

namespace Frames

def animated (frames : Frames QPixmap) : Bool := frames.items_.length > 1

def current (frames : Frames QPixmap) : Option QPixmap := frames.items_[frames.index_]?.map Frame.image

/-- The loop, if it ends within so many rounds. -/
def processLoop : Nat → Frames QPixmap → Option (Frames QPixmap)
  | 0, _ => none
  | fuel + 1, frames =>
    let index_ := frames.index_ % frames.items_.length
    match frames.items_[index_]? with
    | none => none
    | some item =>
      if frames.durationOffset_ > item.duration then
        processLoop fuel { frames with
          durationOffset_ := frames.durationOffset_ - item.duration
          index_ := (index_ + 1) % frames.items_.length }
      else some { frames with index_ }

def processOffset (fuel : Nat) (frames : Frames QPixmap) : Option (Frames QPixmap) :=
  if frames.items_.isEmpty then some frames else processLoop fuel frames

def advance (fuel : Nat) (frames : Frames QPixmap) : Option (Frames QPixmap) :=
  processOffset fuel { frames with durationOffset_ := frames.durationOffset_ + GIF_FRAME_LENGTH }

/-- A copy that is made when the timer has a position. -/
def ofItems (fuel : Nat) (items : List (Frame QPixmap)) (position : Nat) : Option (Frames QPixmap) :=
  let frames : Frames QPixmap := { items_ := items }
  if frames.animated then
    let durationOffset_ :=
      if totalLength items = 0 then 0 else min (position % totalLength items) 60000
    processOffset fuel { frames with durationOffset_ }
  else some frames

end Frames

/-- The position is a `long unsigned`. The copies that are connected are those of one image. -/
structure GIFTimer (QPixmap : Type) where
  position_ : Nat := 0
  connected : List (Frames QPixmap) := []

inductive Event where
  | created
  | tick
  deriving DecidableEq

namespace GIFTimer

variable (width fuel : Nat) (items : List (Frame QPixmap))

def step (timer : GIFTimer QPixmap) : Event → Option (GIFTimer QPixmap)
  | .created =>
    (Frames.ofItems fuel items timer.position_).map fun frames =>
      { timer with connected := timer.connected ++ [frames] }
  | .tick =>
    (timer.connected.mapM (Frames.advance fuel)).map fun connected =>
      { position_ := (timer.position_ + GIF_FRAME_LENGTH) % 2 ^ width, connected }

def run (events : List Event) : Option (GIFTimer QPixmap) := events.foldlM (step width fuel items) {}

structure InStep (timer : GIFTimer QPixmap) : Prop where
  shows : ∀ frames ∈ timer.connected, InInterval (durations items) frames.index_ timer.position_
  same : ∀ frames ∈ timer.connected, ∀ frames' ∈ timer.connected, frames.current = frames'.current

/-- Every run ends, whatever fuel there is from some point on. No index is out of range, and after a tick the
copies are in step. -/
def StaysInStep : Prop :=
  ∀ events, ∃ timer, (∀ fuel, totalLength items + GIF_FRAME_LENGTH < fuel → run width fuel items events = some timer) ∧
    (∀ frames ∈ timer.connected, frames.items_ = items ∧ frames.index_ < items.length) ∧
    ∀ earlier, events = earlier ++ [.tick] → timer.InStep items

end GIFTimer

namespace Frames

variable {items : List (Frame QPixmap)} {frames frames' : Frames QPixmap} {fuel d : Nat}

def phase (items : List (Frame QPixmap)) (frames : Frames QPixmap) : Nat :=
  startOf (durations items) frames.index_ + frames.durationOffset_

structure Sound (items : List (Frame QPixmap)) (frames : Frames QPixmap) : Prop where
  items_ : frames.items_ = items
  index_lt : frames.index_ < (durations items).length
  offset_le : frames.durationOffset_ ≤ (durations items)[frames.index_]

theorem Sound.inInterval (h : Sound items frames) (hPos : 0 < frames.durationOffset_) {p : Nat}
    (hPhase : frames.phase items ≡ p [MOD totalLength items]) : InInterval (durations items) frames.index_ p :=
  .of_offset h.index_lt hPos h.offset_le hPhase

theorem Sound.offset_le_total (h : Sound items frames) : frames.durationOffset_ ≤ totalLength items := by
  have hOffset := h.offset_le
  have hEnd := startOf_succ h.index_lt
  have hTotal : startOf (durations items) (frames.index_ + 1) ≤ totalLength items :=
    totalLength.eq_def items ▸ startOf_length ▸ startOf_mono h.index_lt
  omega

theorem totalLength_pos (hTwo : 2 ≤ items.length) (hPositive : ∀ frame ∈ items, 0 < frame.duration) :
    0 < totalLength items := by
  cases items with
  | nil => exact absurd hTwo (Nat.not_succ_le_zero 1)
  | cons frame items =>
    rw [totalLength, durations, List.map_cons, List.sum_cons]
    exact Nat.add_pos_left (hPositive frame List.mem_cons_self) _

theorem exists_processLoop (hPositive : ∀ frame ∈ items, 0 < frame.duration) (hItems : frames.items_ = items)
    (hIndex : frames.index_ < items.length) :
    ∃ frames', (∀ fuel, frames.durationOffset_ < fuel → processLoop fuel frames = some frames') ∧
      Sound items frames' ∧ frames'.phase items ≡ frames.phase items [MOD totalLength items] ∧
      (0 < frames.durationOffset_ → 0 < frames'.durationOffset_) := by
  induction hOffset : frames.durationOffset_ using Nat.strong_induction_on generalizing frames with
  | h offset ih =>
    subst hItems
    have hMod : frames.index_ % frames.items_.length = frames.index_ := Nat.mod_eq_of_lt hIndex
    have hItem : frames.items_[frames.index_]? = some frames.items_[frames.index_] := List.getElem?_eq_getElem hIndex
    have hLength : frames.index_ < (durations frames.items_).length := by rwa [durations, List.length_map]
    have hDuration : (durations frames.items_)[frames.index_] = frames.items_[frames.index_].duration :=
      List.getElem_map ..
    by_cases hCarry : frames.durationOffset_ > frames.items_[frames.index_].duration
    · have hShorter := hPositive _ (List.getElem_mem hIndex)
      have hNext : (frames.index_ + 1) % frames.items_.length < frames.items_.length :=
        Nat.mod_lt _ (Nat.zero_lt_of_lt hIndex)
      obtain ⟨frames', hLoop, hSound, hPhase, hPos⟩ := @ih
        (frames.durationOffset_ - frames.items_[frames.index_].duration) (by omega)
        { frames with
          durationOffset_ := frames.durationOffset_ - frames.items_[frames.index_].duration
          index_ := (frames.index_ + 1) % frames.items_.length } rfl hNext rfl
      refine ⟨frames', ?_, hSound, hPhase.trans ?_, fun _ => hPos (by omega)⟩
      · intro fuel hFuel
        obtain ⟨fuel, rfl⟩ : ∃ fuel', fuel = fuel' + 1 := ⟨fuel - 1, by omega⟩
        rw [processLoop]
        simp only [hMod, hItem, if_pos hCarry]
        exact hLoop fuel (by omega)
      · -- the last frame carries over to the start of the next round
        have hEnd := startOf_succ hLength
        rw [hDuration] at hEnd
        unfold phase
        dsimp only
        obtain hInside | hLast := Nat.lt_or_eq_of_le (Nat.succ_le_of_lt hIndex)
        · rw [Nat.mod_eq_of_lt hInside, hEnd]
          exact congrArg (· % _) (by omega)
        · rw [← Nat.succ_eq_add_one, hLast, Nat.mod_self, startOf, List.take_zero, List.sum_nil]
          have hTotal : startOf (durations frames.items_) (frames.index_ + 1) = totalLength frames.items_ := by
            rw [← Nat.succ_eq_add_one, hLast, totalLength, ← startOf_length, durations, List.length_map]
          have hRound : startOf (durations frames.items_) frames.index_ + frames.durationOffset_ =
              0 + (frames.durationOffset_ - frames.items_[frames.index_].duration) + totalLength frames.items_ := by
            omega
          rw [hRound]
          exact (Nat.add_mod_right _ _).symm
    · refine ⟨frames, ?_, ⟨rfl, hLength, ?_⟩, Nat.ModEq.refl _, fun hPos => hOffset ▸ hPos⟩
      · intro fuel hFuel
        obtain ⟨fuel, rfl⟩ : ∃ fuel', fuel = fuel' + 1 := ⟨fuel - 1, by omega⟩
        rw [processLoop]
        simp only [hMod, hItem, if_neg hCarry]
      · rw [hDuration]
        exact Nat.not_lt.mp hCarry

theorem exists_processOffset (hPositive : ∀ frame ∈ items, 0 < frame.duration) (hItems : frames.items_ = items)
    (hIndex : frames.index_ < items.length) :
    ∃ frames', (∀ fuel, frames.durationOffset_ < fuel → processOffset fuel frames = some frames') ∧
      Sound items frames' ∧ frames'.phase items ≡ frames.phase items [MOD totalLength items] ∧
      (0 < frames.durationOffset_ → 0 < frames'.durationOffset_) := by
  obtain ⟨frames', hLoop, hRest⟩ := exists_processLoop hPositive hItems hIndex
  refine ⟨frames', ?_, hRest⟩
  intro fuel hFuel
  have hNonempty : ¬frames.items_.isEmpty := by
    rw [hItems, List.isEmpty_iff]
    rintro rfl
    exact Nat.not_lt_zero _ hIndex
  rw [processOffset, if_neg hNonempty]
  exact hLoop fuel hFuel

theorem exists_advance (hPositive : ∀ frame ∈ items, 0 < frame.duration) (h : Sound items frames) :
    ∃ frames', (∀ fuel, totalLength items + GIF_FRAME_LENGTH < fuel → advance fuel frames = some frames') ∧
      Sound items frames' ∧
      frames'.phase items ≡ frames.phase items + GIF_FRAME_LENGTH [MOD totalLength items] ∧
      0 < frames'.durationOffset_ := by
  have hIndex : frames.index_ < items.length := by
    have := h.index_lt
    rwa [durations, List.length_map] at this
  obtain ⟨frames', hProcess, hSound, hPhase, hPos⟩ := @exists_processOffset _ items
    { frames with durationOffset_ := frames.durationOffset_ + GIF_FRAME_LENGTH } hPositive h.items_ hIndex
  refine ⟨frames', ?_, hSound, hPhase, hPos (Nat.add_pos_right _ (by decide))⟩
  intro fuel hFuel
  exact hProcess fuel (Nat.lt_of_le_of_lt (Nat.add_le_add_right h.offset_le_total _) hFuel)

theorem exists_ofItems (hTwo : 2 ≤ items.length) (hPositive : ∀ frame ∈ items, 0 < frame.duration)
    (hTotal : totalLength items ≤ 60000) (position : Nat) :
    ∃ frames, (∀ fuel, totalLength items + GIF_FRAME_LENGTH < fuel → ofItems fuel items position = some frames) ∧
      Sound items frames ∧ frames.phase items ≡ position [MOD totalLength items] := by
  have hPosTotal : 0 < totalLength items := totalLength_pos hTwo hPositive
  have hLt : position % totalLength items < totalLength items := Nat.mod_lt _ hPosTotal
  obtain ⟨frames, hProcess, hSound, hPhase, -⟩ := @exists_processOffset _ items
    { items_ := items, durationOffset_ := position % totalLength items } hPositive rfl (Nat.zero_lt_of_lt hTwo)
  refine ⟨frames, ?_, hSound, hPhase.trans ?_⟩
  · intro fuel hFuel
    have hAnimated : animated ({ items_ := items } : Frames QPixmap) = true := decide_eq_true hTwo
    rw [ofItems]
    simp only [hAnimated, if_true, if_neg hPosTotal.ne', Nat.min_eq_left (hLt.le.trans hTotal)]
    exact hProcess fuel (by dsimp only; omega)
  · rw [phase, startOf, List.take_zero, List.sum_nil, Nat.zero_add]
    exact Nat.mod_modEq _ _

end Frames

namespace GIFTimer

variable {width fuel d : Nat} {items : List (Frame QPixmap)} {timer : GIFTimer QPixmap}

/-- Between two ticks every copy is where the timer is, up to multiples of `d`. -/
structure Consistent (d : Nat) (items : List (Frame QPixmap)) (timer : GIFTimer QPixmap) : Prop where
  sound : ∀ frames ∈ timer.connected, frames.Sound items
  phase : ∀ frames ∈ timer.connected, frames.phase items ≡ timer.position_ [MOD d]

theorem run_append (events : List Event) (event : Event) :
    run width fuel items (events ++ [event]) = (run width fuel items events).bind fun timer =>
      timer.step width fuel items event := by
  rw [run, List.foldlM_append]
  simp only [List.foldlM_cons, List.foldlM_nil, bind_pure]
  rfl

theorem exists_mapM_advance (hPositive : ∀ frame ∈ items, 0 < frame.duration) {connected : List (Frames QPixmap)}
    (h : ∀ frames ∈ connected, frames.Sound items) :
    ∃ connected', (∀ fuel, totalLength items + GIF_FRAME_LENGTH < fuel →
        connected.mapM (Frames.advance fuel) = some connected') ∧
      List.Forall₂ (fun frames frames' => frames'.Sound items ∧
        frames'.phase items ≡ frames.phase items + GIF_FRAME_LENGTH [MOD totalLength items] ∧
        0 < frames'.durationOffset_) connected connected' := by
  induction connected with
  | nil => exact ⟨[], fun _ _ => rfl, .nil⟩
  | cons frames connected ih =>
    obtain ⟨frames', hAdvance, hFrames⟩ := Frames.exists_advance hPositive (h frames List.mem_cons_self)
    obtain ⟨connected', hMap, hAll⟩ := ih fun other hOther => h other (List.mem_cons_of_mem _ hOther)
    refine ⟨frames' :: connected', ?_, .cons hFrames hAll⟩
    intro fuel hFuel
    rw [List.mapM_cons, hAdvance fuel hFuel, hMap fuel hFuel]
    rfl

theorem Consistent.created (hTwo : 2 ≤ items.length) (hPositive : ∀ frame ∈ items, 0 < frame.duration)
    (hTotal : totalLength items ≤ 60000) (hd : d ∣ totalLength items) (h : timer.Consistent d items) :
    ∃ timer', (∀ fuel, totalLength items + GIF_FRAME_LENGTH < fuel →
      timer.step width fuel items .created = some timer') ∧ timer'.Consistent d items ∧
        timer'.position_ = timer.position_ := by
  obtain ⟨frames, hCreated, hSound, hPhase⟩ := Frames.exists_ofItems hTwo hPositive hTotal timer.position_
  refine ⟨{ timer with connected := timer.connected ++ [frames] }, ?_, ⟨?_, ?_⟩, rfl⟩
  · intro fuel hFuel
    rw [step, hCreated fuel hFuel]
    rfl
  · intro other hOther
    obtain hOld | hNew := List.mem_append.mp hOther
    · exact h.sound other hOld
    · rwa [List.mem_singleton.mp hNew]
  · intro other hOther
    obtain hOld | hNew := List.mem_append.mp hOther
    · exact h.phase other hOld
    · rw [List.mem_singleton.mp hNew]
      exact hPhase.of_dvd hd

theorem Consistent.tick (hPositive : ∀ frame ∈ items, 0 < frame.duration) (hd : d ∣ totalLength items)
    (hWrap : (timer.position_ + GIF_FRAME_LENGTH) % 2 ^ width ≡ timer.position_ + GIF_FRAME_LENGTH [MOD d])
    (h : timer.Consistent d items) :
    ∃ timer', (∀ fuel, totalLength items + GIF_FRAME_LENGTH < fuel →
      timer.step width fuel items .tick = some timer') ∧ timer'.Consistent d items ∧
        timer'.position_ = (timer.position_ + GIF_FRAME_LENGTH) % 2 ^ width ∧
        ∀ frames ∈ timer'.connected, 0 < frames.durationOffset_ := by
  obtain ⟨connected', hMap, hAll⟩ := exists_mapM_advance hPositive h.sound
  refine ⟨⟨(timer.position_ + GIF_FRAME_LENGTH) % 2 ^ width, connected'⟩, ?_, ⟨?_, ?_⟩, rfl, ?_⟩
  · intro fuel hFuel
    rw [step, hMap fuel hFuel]
    rfl
  · intro frames' hFrames'
    obtain ⟨frames, -, hSound, -⟩ := rel_of_mem_right hAll hFrames'
    exact hSound
  · intro frames' hFrames'
    obtain ⟨frames, hFrames, -, hPhase, -⟩ := rel_of_mem_right hAll hFrames'
    exact (hPhase.of_dvd hd).trans (((h.phase frames hFrames).add_right _).trans hWrap.symm)
  · intro frames' hFrames'
    obtain ⟨frames, -, -, -, hPos⟩ := rel_of_mem_right hAll hFrames'
    exact hPos

def ticks (events : List Event) : Nat := events.count .tick

theorem ticks_created (events : List Event) : ticks (events ++ [.created]) = ticks events := List.count_append

theorem ticks_tick (events : List Event) : ticks (events ++ [.tick]) = ticks events + 1 := List.count_append

theorem exists_run (hTwo : 2 ≤ items.length) (hPositive : ∀ frame ∈ items, 0 < frame.duration)
    (hTotal : totalLength items ≤ 60000) (hd : d ∣ totalLength items) (events : List Event)
    (hWraps : d ∣ 2 ^ width ∨ 20 * ticks events < 2 ^ width) :
    ∃ timer, (∀ fuel, totalLength items + GIF_FRAME_LENGTH < fuel → run width fuel items events = some timer) ∧
      timer.Consistent d items ∧ timer.position_ = 20 * ticks events % 2 ^ width ∧
      ∀ earlier, events = earlier ++ [.tick] → ∀ frames ∈ timer.connected, 0 < frames.durationOffset_ := by
  induction events using List.reverseRecOn with
  | nil =>
    refine ⟨{}, fun _ _ => rfl, ⟨?_, ?_⟩, (Nat.zero_mod _).symm, ?_⟩
    · exact fun frames hFrames => absurd hFrames List.not_mem_nil
    · exact fun frames hFrames => absurd hFrames List.not_mem_nil
    · intro earlier hEarlier
      exact absurd (congrArg List.length hEarlier) (by simp)
  | append_singleton events event ih =>
    cases event with
    | created =>
      rw [ticks_created] at hWraps ⊢
      obtain ⟨timer, hRun, hConsistent, hPosition, -⟩ := ih hWraps
      obtain ⟨timer', hStep, hConsistent', hPosition'⟩ :=
        @Consistent.created _ width _ _ _ hTwo hPositive hTotal hd hConsistent
      refine ⟨timer', ?_, hConsistent', hPosition'.trans hPosition, ?_⟩
      · intro fuel hFuel
        rw [run_append, hRun fuel hFuel]
        exact hStep fuel hFuel
      · intro earlier hEarlier
        have hEvent := (List.append_inj' hEarlier rfl).2
        injection hEvent with hCreated
        cases hCreated
    | tick =>
      rw [ticks_tick] at hWraps ⊢
      obtain ⟨timer, hRun, hConsistent, hPosition, -⟩ := ih (hWraps.imp_right (by omega))
      have hNext : (timer.position_ + GIF_FRAME_LENGTH) % 2 ^ width = 20 * (ticks events + 1) % 2 ^ width := by
        rw [hPosition]
        exact Nat.mod_add_mod _ _ _
      have hWrap : (timer.position_ + GIF_FRAME_LENGTH) % 2 ^ width ≡ timer.position_ + GIF_FRAME_LENGTH [MOD d] := by
        obtain hDvd | hLt := hWraps
        · exact (Nat.mod_modEq _ _).of_dvd hDvd
        · rw [hNext, hPosition, Nat.mod_eq_of_lt hLt, Nat.mod_eq_of_lt (by omega)]
          rfl
      obtain ⟨timer', hStep, hConsistent', hPosition', hPos⟩ := hConsistent.tick hPositive hd hWrap
      refine ⟨timer', ?_, hConsistent', hPosition'.trans hNext, fun _ _ => hPos⟩
      intro fuel hFuel
      rw [run_append, hRun fuel hFuel]
      exact hStep fuel hFuel

theorem Consistent.inStep (h : timer.Consistent d items)
    (hShows : ∀ frames ∈ timer.connected, InInterval (durations items) frames.index_ timer.position_) :
    timer.InStep items := by
  refine ⟨hShows, ?_⟩
  intro frames hFrames frames' hFrames'
  have hIndex : frames.index_ = frames'.index_ := (hShows frames hFrames).unique (hShows frames' hFrames')
  rw [Frames.current, Frames.current, (h.sound frames hFrames).items_, (h.sound frames' hFrames').items_, hIndex]

theorem startOf_dropLast (items : List (Frame QPixmap)) :
    startOf (durations items) ((durations items).length - 1) = totalLength items.dropLast := by
  rw [startOf, totalLength, durations, durations, ← List.dropLast_eq_take, List.map_dropLast]

theorem totalLength_dropLast_lt (hTwo : 2 ≤ items.length) (hPositive : ∀ frame ∈ items, 0 < frame.duration) :
    totalLength items.dropLast < totalLength items := by
  have hNonempty : items ≠ [] := List.ne_nil_of_length_pos (Nat.zero_lt_of_lt hTwo)
  have hItems : totalLength items = totalLength items.dropLast + (items.getLast hNonempty).duration := by
    conv_lhs => rw [← List.dropLast_concat_getLast hNonempty]
    rw [totalLength, durations, List.map_append, List.sum_append]
    simp [totalLength, durations]
  rw [hItems]
  exact Nat.lt_add_of_pos_right (hPositive _ (List.getLast_mem hNonempty))

theorem Consistent.shows (h : timer.Consistent (totalLength items) items) {frames : Frames QPixmap}
    (hFrames : frames ∈ timer.connected) (hPos : 0 < frames.durationOffset_) :
    InInterval (durations items) frames.index_ timer.position_ :=
  (h.sound frames hFrames).inInterval hPos (h.phase frames hFrames)

theorem Consistent.shows_last (h : timer.Consistent (Nat.gcd 4 (totalLength items)) items)
    (hPosition : 4 ∣ timer.position_) (hTotal : 0 < totalLength items)
    (hShort : totalLength items.dropLast < Nat.gcd 4 (totalLength items)) {frames : Frames QPixmap}
    (hFrames : frames ∈ timer.connected) (hPos : 0 < frames.durationOffset_) :
    InInterval (durations items) frames.index_ timer.position_ := by
  have hSound := h.sound frames hFrames
  rw [← startOf_dropLast] at hShort
  have hLast : ∀ p, Nat.gcd 4 (totalLength items) ∣ p →
      startOf (durations items) ((durations items).length - 1) < inRound (totalLength items) p := by
    intro p hp
    exact hShort.trans_le (Nat.le_of_dvd (inRound_pos hTotal) (dvd_inRound (Nat.gcd_dvd_right 4 _) hp))
  have hFour : Nat.gcd 4 (totalLength items) ∣ timer.position_ := (Nat.gcd_dvd_left 4 _).trans hPosition
  have hPhase : Nat.gcd 4 (totalLength items) ∣ frames.phase items :=
    ((h.phase frames hFrames).dvd_iff dvd_rfl).mpr hFour
  have hIndex := (hSound.inInterval hPos (Nat.ModEq.refl _)).eq_last hSound.index_lt (hLast _ hPhase)
  rw [hIndex]
  exact .last hTotal (hLast _ hFour)

theorem run_ticks (n : Nat) :
    run width fuel items (List.replicate n .tick) = some ⟨20 * n % 2 ^ width, []⟩ := by
  induction n with
  | zero => simp [run]
  | succ n ih =>
    rw [List.replicate_succ', run_append, ih]
    have hPosition : (20 * n % 2 ^ width + GIF_FRAME_LENGTH) % 2 ^ width = 20 * (n + 1) % 2 ^ width :=
      Nat.mod_add_mod _ _ _
    simp [step, hPosition]

theorem exists_run_created (hTwo : 2 ≤ items.length) (hPositive : ∀ frame ∈ items, 0 < frame.duration)
    (hTotal : totalLength items ≤ 60000) (n m : Nat) :
    ∃ frames : Frames QPixmap, (∀ fuel, totalLength items + GIF_FRAME_LENGTH < fuel →
        run width fuel items (List.replicate n .tick ++ .created :: List.replicate m .tick) =
          some ⟨(20 * n % 2 ^ width + 20 * m) % 2 ^ width, [frames]⟩) ∧
      frames.Sound items ∧ frames.phase items ≡ 20 * n % 2 ^ width + 20 * m [MOD totalLength items] ∧
      (0 < m → 0 < frames.durationOffset_) := by
  induction m with
  | zero =>
    obtain ⟨frames, hCreated, hSound, hPhase⟩ :=
      Frames.exists_ofItems hTwo hPositive hTotal (20 * n % 2 ^ width)
    refine ⟨frames, ?_, hSound, hPhase, fun h => absurd h (Nat.lt_irrefl 0)⟩
    intro fuel hFuel
    rw [List.replicate_zero, run_append, run_ticks]
    simp [step, hCreated fuel hFuel]
  | succ m ih =>
    obtain ⟨frames, hRun, hSound, hPhase, -⟩ := ih
    obtain ⟨frames', hAdvance, hSound', hPhase', hPos⟩ := Frames.exists_advance hPositive hSound
    refine ⟨frames', ?_, hSound', hPhase'.trans (hPhase.add_right _), fun _ => hPos⟩
    intro fuel hFuel
    rw [List.replicate_succ', ← List.cons_append, ← List.append_assoc, run_append, hRun fuel hFuel]
    have hPosition : ((20 * n % 2 ^ width + 20 * m) % 2 ^ width + GIF_FRAME_LENGTH) % 2 ^ width =
        (20 * n % 2 ^ width + 20 * (m + 1)) % 2 ^ width := Nat.mod_add_mod _ _ _
    rw [Option.bind_some, step, List.mapM_cons, List.mapM_nil, hAdvance fuel hFuel, ← hPosition]
    rfl

theorem staysInStep_of_shows (hTwo : 2 ≤ items.length) (hPositive : ∀ frame ∈ items, 0 < frame.duration)
    (hTotal : totalLength items ≤ 60000) (hd : d ∣ totalLength items) (hDvd : d ∣ 2 ^ width)
    (hShows : ∀ timer : GIFTimer QPixmap, timer.Consistent d items → ∀ n, timer.position_ = 20 * n % 2 ^ width →
      ∀ frames ∈ timer.connected, 0 < frames.durationOffset_ →
        InInterval (durations items) frames.index_ timer.position_) :
    StaysInStep width items := by
  intro events
  obtain ⟨timer, hRun, hConsistent, hPosition, hPos⟩ := exists_run hTwo hPositive hTotal hd events (.inl hDvd)
  refine ⟨timer, hRun, ?_, ?_⟩
  · intro frames hFrames
    have hSound := hConsistent.sound frames hFrames
    have hIndex := hSound.index_lt
    rw [durations, List.length_map] at hIndex
    exact ⟨hSound.items_, hIndex⟩
  · intro earlier hEarlier
    refine hConsistent.inStep fun frames hFrames => ?_
    exact hShows timer hConsistent _ hPosition frames hFrames (hPos earlier hEarlier frames hFrames)

theorem staysInStep_of_wraps (hWidth : 2 ≤ width) (hTwo : 2 ≤ items.length)
    (hPositive : ∀ frame ∈ items, 0 < frame.duration) (hTotal : totalLength items ≤ 60000)
    (hWraps : totalLength items ∣ 2 ^ width ∨ totalLength items.dropLast < Nat.gcd 4 (totalLength items)) :
    StaysInStep width items := by
  obtain hDvd | hShort := hWraps
  · refine staysInStep_of_shows hTwo hPositive hTotal dvd_rfl hDvd ?_
    exact fun timer hConsistent _ _ frames hFrames hPos => hConsistent.shows hFrames hPos
  · have hFour : 4 ∣ 2 ^ width := pow_dvd_pow 2 hWidth
    refine staysInStep_of_shows hTwo hPositive hTotal (Nat.gcd_dvd_right 4 _)
      ((Nat.gcd_dvd_left 4 _).trans hFour) ?_
    intro timer hConsistent n hPosition frames hFrames hPos
    have hPositionFour : 4 ∣ timer.position_ := by
      rw [hPosition]
      exact (Nat.dvd_mod_iff hFour).mpr (Dvd.dvd.mul_right (by decide) n)
    exact hConsistent.shows_last hPositionFour (Frames.totalLength_pos hTwo hPositive) hShort hFrames hPos

theorem StaysInStep.sameInterval (h : StaysInStep width items) (hWidth : 32 ≤ width) (hTwo : 2 ≤ items.length)
    (hPositive : ∀ frame ∈ items, 0 < frame.duration) (hTotal : totalLength items ≤ 60000)
    (hDvd : ¬totalLength items ∣ 2 ^ width) {b : Nat} (hb : Nat.gcd 4 (totalLength items) ∣ b)
    (hLe : b ≤ totalLength items) :
    ∃ i, i < (durations items).length ∧ InInterval (durations items) i b ∧
      InInterval (durations items) i (b + (totalLength items - Nat.gcd (2 ^ width) (totalLength items))) := by
  have hPower : 2 ^ 32 ≤ 2 ^ width := Nat.pow_le_pow_right (by decide) hWidth
  have hFour : 4 ∣ 2 ^ width := pow_dvd_pow 2 (by omega : 2 ≤ width)
  have hFive : (2 ^ width).Coprime 5 := Nat.Coprime.pow_left width (by decide)
  obtain ⟨n, m, hFar, hNear⟩ := exists_wrapped hFour hFive (Frames.totalLength_pos hTwo hPositive) hDvd hb
    (by omega) (by omega)
  obtain ⟨frames, hRun, hSound, hPhase, hPos⟩ :=
    @exists_run_created _ width _ hTwo hPositive hTotal n (m + 1)
  obtain ⟨timer, hRun', -, hInStep⟩ := h (List.replicate n .tick ++ .created :: List.replicate (m + 1) .tick)
  have hTimer := (hRun' _ (Nat.lt_succ_self _)).symm.trans (hRun _ (Nat.lt_succ_self _))
  obtain rfl := Option.some.inj hTimer
  have hTick : List.replicate n .tick ++ .created :: List.replicate (m + 1) .tick =
      (List.replicate n .tick ++ .created :: List.replicate m .tick) ++ [Event.tick] := by
    rw [List.replicate_succ', ← List.cons_append, ← List.append_assoc]
  have hShows := (hInStep _ hTick).shows frames (List.mem_singleton_self frames)
  refine ⟨frames.index_, hSound.index_lt, hShows.congr hNear, ?_⟩
  exact hSound.inInterval (hPos (Nat.succ_pos m)) (hPhase.trans hFar)

/-- The copies of an image stay in step exactly if a wrap of the position keeps the place in the animation, or
if every place that the position comes to is in the last frame. -/
theorem staysInStep_iff (hWidth : 32 ≤ width) (hTwo : 2 ≤ items.length)
    (hPositive : ∀ frame ∈ items, 0 < frame.duration) (hTotal : totalLength items ≤ 60000) :
    StaysInStep width items ↔
      totalLength items ∣ 2 ^ width ∨ totalLength items.dropLast < Nat.gcd 4 (totalLength items) := by
  refine ⟨?_, staysInStep_of_wraps (by omega) hTwo hPositive hTotal⟩
  intro h
  by_cases hDvd : totalLength items ∣ 2 ^ width
  · exact .inl hDvd
  · refine .inr ?_
    rw [← startOf_dropLast]
    refine startOf_last_lt (pow_dvd_pow 2 (by omega : 2 ≤ width)) hDvd ?_ fun b hb hLe =>
      h.sameInterval hWidth hTwo hPositive hTotal hDvd hb hLe
    rw [startOf_dropLast]
    exact totalLength_dropLast_lt hTwo hPositive

section

theorem staysInStep_iff_powerOfTwo : StaysInStep 64 ([⟨false, 64⟩, ⟨true, 64⟩] : List (Frame Bool)) :=
  (staysInStep_iff (by decide) (by decide) (by decide) (by decide)).mpr (.inl (by decide))

def twoFrames : List (Frame Bool) := [⟨false, 100⟩, ⟨true, 100⟩]

/-- Where the position has 32 bits, the copies part when it wraps, after 50 days. -/
theorem not_staysInStep_twoFrames : ¬∀ (width : Nat) (items : List (Frame Bool)), 32 ≤ width → 2 ≤ items.length →
    (∀ frame ∈ items, 0 < frame.duration) → totalLength items ≤ 60000 → StaysInStep width items := by
  intro hStays
  obtain ⟨m, hm⟩ : ∃ m, m + 1 = 214748366 := ⟨214748365, rfl⟩
  obtain ⟨frames, hRun, hSound, hPhase, hPos⟩ :=
    @exists_run_created _ 32 twoFrames (by decide) (by decide) (by decide) 0 (m + 1)
  obtain ⟨timer, hRun', -, hInStep⟩ := hStays 32 twoFrames (by decide) (by decide) (by decide) (by decide)
    (List.replicate 0 .tick ++ .created :: List.replicate (m + 1) .tick)
  have hTimer := (hRun' _ (Nat.lt_succ_self _)).symm.trans (hRun _ (Nat.lt_succ_self _))
  obtain rfl := Option.some.inj hTimer
  have hShows := (hInStep (.created :: List.replicate m .tick) (by
    rw [List.replicate_succ']
    rfl)).shows frames (List.mem_singleton_self frames)
  have hPlace := hSound.inInterval (hPos (Nat.succ_pos m)) hPhase
  rw [hm] at hShows hPlace
  -- the position has wrapped to 24, in the first frame, and the copy has gone on to the second one
  have hFirst : InInterval (durations twoFrames) 0 ((20 * 0 % 2 ^ 32 + 20 * 214748366) % 2 ^ 32) :=
    ⟨by decide, by decide⟩
  have hSecond : InInterval (durations twoFrames) 1 (20 * 0 % 2 ^ 32 + 20 * 214748366) :=
    ⟨by decide, by decide⟩
  exact absurd ((hShows.unique hFirst).symm.trans (hPlace.unique hSecond)) (by decide)

end

end GIFTimer

end Chatterino.Images
