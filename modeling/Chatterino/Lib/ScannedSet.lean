import Mathlib.Data.Set.Insert

/-! # Resources in use, found by scanning

Holders hold at most one resource each, and a set is to have exactly the resources that are held. When a holder lets
go of a resource, the holders are scanned for another one. What a holder changes may be passed on later.
-/

namespace Lib

universe u v

variable {H : Type u} {R : Type v}

def acquire (r : Option R) (s : Set R) : Set R := {x | x ∈ s ∨ r = some x}

def release (held : H → Option R) (r : Option R) (s : Set R) : Set R :=
  {x | x ∈ s ∧ (r = some x → ∃ h, held h = some x)}

structure ScannedSet (held : H → Option R) (s : Set R) (waiting : List (H × Option R)) : Prop where
  acquired : ∀ h x, held h = some x → x ∈ s ∨ ∃ update ∈ waiting, update.1 = h
  released : ∀ x ∈ s, (∃ h, held h = some x) ∨ ∃ update ∈ waiting, update.2 = some x

namespace ScannedSet

variable {held : H → Option R} {s : Set R} {waiting : List (H × Option R)} {h : H} {old new : Option R}

theorem mem_iff (hSet : ScannedSet held s []) (x : R) : x ∈ s ↔ ∃ h, held h = some x := by
  constructor
  · intro hMem
    obtain hHeld | ⟨update, hUpdate, -⟩ := hSet.released x hMem
    · exact hHeld
    · cases hUpdate
  · rintro ⟨h, hHeld⟩
    obtain hMem | ⟨update, hUpdate, -⟩ := hSet.acquired h x hHeld
    · exact hMem
    · cases hUpdate

section decidable

variable [DecidableEq H]

theorem held_update_of_ne {x : R} (hOld : ∀ x, held h = some x → new ≠ some x → old = some x) {other : H}
    (hHeld : held other = some x) : old = some x ∨ ∃ k, Function.update held h new k = some x := by
  by_cases hOther : other = h
  · by_cases hNew : new = some x
    · exact Or.inr ⟨h, by rw [Function.update_self, hNew]⟩
    · exact Or.inl (hOld x (hOther ▸ hHeld) hNew)
  · exact Or.inr ⟨other, by rw [Function.update_of_ne hOther, hHeld]⟩

theorem postpone (hSet : ScannedSet held s waiting) (hOld : ∀ x, held h = some x → new ≠ some x → old = some x) :
    ScannedSet (Function.update held h new) s (waiting ++ [(h, old)]) where
  acquired other x hHeld := by
    by_cases hOther : other = h
    · exact Or.inr ⟨(h, old), List.mem_append_right _ (List.mem_singleton_self _), hOther.symm⟩
    · rw [Function.update_of_ne hOther] at hHeld
      obtain hMem | ⟨update, hUpdate, hHolder⟩ := hSet.acquired other x hHeld
      · exact Or.inl hMem
      · exact Or.inr ⟨update, List.mem_append_left _ hUpdate, hHolder⟩
  released x hMem := by
    obtain ⟨other, hHeld⟩ | ⟨update, hUpdate, hReleased⟩ := hSet.released x hMem
    · obtain hReleased | hStill := held_update_of_ne hOld hHeld
      · exact Or.inr ⟨(h, old), List.mem_append_right _ (List.mem_singleton_self _), hReleased⟩
      · exact Or.inl hStill
    · exact Or.inr ⟨update, List.mem_append_left _ hUpdate, hReleased⟩

omit [DecidableEq H] in
theorem passOn (hSet : ScannedSet held s ((h, old) :: waiting)) :
    ScannedSet held (release held old (acquire (held h) s)) waiting where
  acquired other x hHeld := by
    obtain hMem | ⟨update, hUpdate, hHolder⟩ := hSet.acquired other x hHeld
    · exact Or.inl ⟨Or.inl hMem, fun _ => ⟨other, hHeld⟩⟩
    · obtain rfl | hRest := List.mem_cons.mp hUpdate
      · have hSame : held h = some x := (congrArg held hHolder).trans hHeld
        exact Or.inl ⟨Or.inr hSame, fun _ => ⟨h, hSame⟩⟩
      · exact Or.inr ⟨update, hRest, hHolder⟩
  released x hMem := by
    obtain ⟨hAcquired | hHeld, hScanned⟩ := hMem
    · obtain hHeld | ⟨update, hUpdate, hReleased⟩ := hSet.released x hAcquired
      · exact Or.inl hHeld
      · obtain rfl | hRest := List.mem_cons.mp hUpdate
        · exact Or.inl (hScanned hReleased)
        · exact Or.inr ⟨update, hRest, hReleased⟩
    · exact Or.inl ⟨h, hHeld⟩

theorem replace (hSet : ScannedSet held s waiting) (hOld : ∀ x, held h = some x → new ≠ some x → old = some x) :
    ScannedSet (Function.update held h new)
      (release (Function.update held h new) old (acquire new s)) waiting where
  acquired other x hHeld := by
    by_cases hOther : other = h
    · rw [hOther, Function.update_self] at hHeld
      exact Or.inl ⟨Or.inr hHeld, fun _ => ⟨h, by rw [Function.update_self, hHeld]⟩⟩
    · have hStill := hHeld
      rw [Function.update_of_ne hOther] at hHeld
      obtain hMem | hWaits := hSet.acquired other x hHeld
      · exact Or.inl ⟨Or.inl hMem, fun _ => ⟨other, hStill⟩⟩
      · exact Or.inr hWaits
  released x hMem := by
    obtain ⟨hAcquired | hNew, hScanned⟩ := hMem
    · obtain ⟨other, hHeld⟩ | hWaits := hSet.released x hAcquired
      · obtain hReleased | hStill := held_update_of_ne hOld hHeld
        · exact Or.inl (hScanned hReleased)
        · exact Or.inl hStill
      · exact Or.inr hWaits
    · exact Or.inl ⟨h, by rw [Function.update_self, hNew]⟩

theorem leave (hSet : ScannedSet held s waiting) (hWaits : ∀ update ∈ waiting, update.1 ≠ h) :
    ScannedSet (Function.update held h none) (release (Function.update held h none) (held h) s) waiting where
  acquired other x hHeld := by
    have hOther : other ≠ h := by
      rintro rfl
      rw [Function.update_self] at hHeld
      cases hHeld
    have hStill := hHeld
    rw [Function.update_of_ne hOther] at hHeld
    obtain hMem | hWaiting := hSet.acquired other x hHeld
    · exact Or.inl ⟨hMem, fun _ => ⟨other, hStill⟩⟩
    · exact Or.inr hWaiting
  released x hMem := by
    obtain ⟨hOldMem, hScanned⟩ := hMem
    obtain ⟨other, hHeld⟩ | hWaiting := hSet.released x hOldMem
    · by_cases hOther : other = h
      · exact Or.inl (hScanned (hOther ▸ hHeld))
      · exact Or.inl ⟨other, by rw [Function.update_of_ne hOther, hHeld]⟩
    · exact Or.inr hWaiting

end decidable

end ScannedSet

end Lib
