import Mathlib.Data.List.Basic

/-! # Runs of a step function

A run folds a step function over the events that occur. A condition on steps reads the state
before the step and the event.
-/

namespace Lib

universe u v

variable {State : Type u} {Event : Type v}

/-- Every step of the run from `s` meets the condition in the state it starts from. -/
def AllSteps (step : State → Event → State) (ok : State → Event → Prop) : State → List Event → Prop
  | _, [] => True
  | s, e :: es => ok s e ∧ AllSteps step ok (step s e) es

namespace AllSteps

variable {step : State → Event → State} {ok : State → Event → Prop} {s : State}

theorem append_iff {es fs : List Event} :
    AllSteps step ok s (es ++ fs) ↔ AllSteps step ok s es ∧ AllSteps step ok (es.foldl step s) fs := by
  induction es generalizing s with
  | nil => exact ⟨fun h => ⟨trivial, h⟩, And.right⟩
  | cons e es ih => exact (and_congr_right fun _ => ih).trans and_assoc.symm

theorem of_isPrefix {es fs : List Event} (h : AllSteps step ok s fs) (hPrefix : es <+: fs) :
    AllSteps step ok s es := by
  obtain ⟨rest, rfl⟩ := hPrefix
  exact (append_iff.mp h).1

theorem of_forall_mem {es : List Event} (h : ∀ e ∈ es, ∀ s, ok s e) : AllSteps step ok s es := by
  induction es generalizing s with
  | nil => trivial
  | cons e es ih =>
    exact ⟨h e List.mem_cons_self s, ih fun e' hMem => h e' (List.mem_cons_of_mem _ hMem)⟩

theorem mono {ok' : State → Event → Prop} {es : List Event} (h : AllSteps step ok s es)
    (hOk : ∀ s e, ok s e → ok' s e) : AllSteps step ok' s es := by
  induction es generalizing s with
  | nil => trivial
  | cons e es ih => exact ⟨hOk s e h.1, ih h.2⟩

theorem and {ok' : State → Event → Prop} {es : List Event} (h : AllSteps step ok s es)
    (h' : AllSteps step ok' s es) : AllSteps step (fun s e => ok s e ∧ ok' s e) s es := by
  induction es generalizing s with
  | nil => trivial
  | cons e es ih => exact ⟨⟨h.1, h'.1⟩, ih h.2 h'.2⟩

instance decidable [∀ s e, Decidable (ok s e)] :
    (s : State) → (es : List Event) → Decidable (AllSteps step ok s es)
  | _, [] => isTrue trivial
  | s, e :: es => @instDecidableAnd _ _ _ (decidable (step s e) es)

theorem of_invariant {inv : State → Prop} {es : List Event} (hStart : inv s)
    (hStep : ∀ s e, inv s → inv (step s e)) : AllSteps step (fun s _ => inv s) s es := by
  induction es generalizing s with
  | nil => trivial
  | cons e es ih => exact ⟨hStart, ih (hStep s e hStart)⟩

theorem invariant {inv : State → Prop} {es : List Event} (h : AllSteps step ok s es) (hStart : inv s)
    (hStep : ∀ s e, inv s → ok s e → inv (step s e)) : inv (es.foldl step s) := by
  induction es generalizing s with
  | nil => exact hStart
  | cons e es ih => exact ih h.2 (hStep s e hStart h.1)

theorem invariant_reached {inv : State → Prop} {es fs : List Event} (h : AllSteps step ok s fs)
    (hPrefix : es <+: fs) (hStart : inv s) (hStep : ∀ s e, inv s → ok s e → inv (step s e)) :
    inv (es.foldl step s) :=
  (h.of_isPrefix hPrefix).invariant hStart hStep

theorem of_kept {ok' : State → Event → Prop} {inv : State → Prop} {es : List Event} (h : AllSteps step ok s es)
    (hStart : inv s) (hKept : ∀ s e, inv s → ok s e → inv (step s e)) (hOk : ∀ s e, inv s → ok s e → ok' s e) :
    AllSteps step ok' s es := by
  induction es generalizing s with
  | nil => trivial
  | cons e es ih => exact ⟨hOk s e hStart h.1, ih h.2 (hKept s e hStart h.1)⟩

theorem forall_reached_iff_of_strengthening {side : State → Event → Prop} {es : List Event}
    (hSide : AllSteps step side s es) (good inv : State → Prop) (hStart : good s)
    (hGood : ∀ s, good s → inv s) (hStep : ∀ s e, good s → side s e → inv (step s e) → ok s e)
    (hKept : ∀ s e, good s → side s e → ok s e → good (step s e)) :
    (∀ reached, reached <+: es → inv (reached.foldl step s)) ↔ AllSteps step ok s es := by
  constructor
  · intro hAll
    induction es generalizing s with
    | nil => trivial
    | cons e es ih =>
      have hOk := hStep s e hStart hSide.1 (hAll [e] (List.prefix_append [e] es))
      refine ⟨hOk, ih hSide.2 (hKept s e hStart hSide.1 hOk) fun reached hPrefix => ?_⟩
      exact hAll (e :: reached) (List.cons_prefix_cons.mpr ⟨rfl, hPrefix⟩)
  · intro hOk reached hPrefix
    apply hGood
    exact (hSide.and hOk).invariant_reached hPrefix hStart fun s e hInv h => hKept s e hInv h.1 h.2

theorem forall_reached_iff {side : State → Event → Prop} {es : List Event}
    (hSide : AllSteps step side s es) (inv : State → Prop) (hStart : inv s)
    (hStep : ∀ s e, inv s → side s e → (inv (step s e) ↔ ok s e)) :
    (∀ reached, reached <+: es → inv (reached.foldl step s)) ↔ AllSteps step ok s es :=
  hSide.forall_reached_iff_of_strengthening inv inv hStart (fun _ hInv => hInv)
    (fun s e hInv h => (hStep s e hInv h).mp) fun s e hInv h => (hStep s e hInv h).mpr

theorem congr_of_invariant {ok' : State → Event → Prop} {inv : State → Prop} {es : List Event}
    (hStart : inv s) (hStep : ∀ s e, inv s → inv (step s e)) (hOk : ∀ s e, inv s → (ok s e ↔ ok' s e)) :
    AllSteps step ok s es ↔ AllSteps step ok' s es := by
  induction es generalizing s with
  | nil => exact Iff.rfl
  | cons e es ih => exact and_congr (hOk s e hStart) (ih (hStep s e hStart))

end AllSteps

theorem foldl_invariant {step : State → Event → State} {inv : State → Prop} {s : State}
    (es : List Event) (hStart : inv s) (hStep : ∀ s e, inv s → inv (step s e)) :
    inv (es.foldl step s) := by
  induction es generalizing s with
  | nil => exact hStart
  | cons e es ih => exact ih (hStep s e hStart)

end Lib
