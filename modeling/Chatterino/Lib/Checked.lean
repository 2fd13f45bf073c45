import Mathlib.Data.List.Basic

/-! # Programs with checked reads

A program makes calls one after the other and reads lists at positions. A read outside its list
ends the program with the position and the length of the list.
-/

namespace Lib

universe u

structure OutOfBounds where
  index : Nat
  size : Nat
deriving DecidableEq, Repr

abbrev Checked (C : Type u) := StateT (List C) (Except OutOfBounds)

namespace Checked

variable {C α β : Type u}

def read (xs : List α) (index : Nat) : Checked C α :=
  match xs[index]? with
  | some a => pure a
  | none => throw ⟨index, xs.length⟩

def callAll (made : List C) : Checked C PUnit := fun calls => .ok (⟨⟩, calls ++ made)

def call (made : C) : Checked C PUnit := callAll [made]

def InBounds (p : Checked C α) : Prop := ∀ calls, ∃ result, p calls = .ok result

def Fails (p : Checked C α) (e : OutOfBounds) : Prop := ∀ calls, p calls = .error e

theorem Fails.not_inBounds {p : Checked C α} {e : OutOfBounds} (h : Fails p e) : ¬ InBounds p := by
  intro hBounds
  obtain ⟨result, hRun⟩ := hBounds []
  rw [h []] at hRun
  cases hRun

theorem bind_apply (p : Checked C α) (f : α → Checked C β) (calls : List C) :
    (p >>= f) calls = (p calls).bind fun result => f result.1 result.2 := rfl

@[simp] theorem inBounds_pure (a : α) : InBounds (pure a : Checked C α) :=
  fun calls => ⟨(a, calls), rfl⟩

@[simp] theorem inBounds_callAll (made : List C) : InBounds (callAll made) :=
  fun calls => ⟨(⟨⟩, calls ++ made), rfl⟩

@[simp] theorem inBounds_call (made : C) : InBounds (call made) := inBounds_callAll [made]

theorem InBounds.bind {p : Checked C α} {f : α → Checked C β} (hp : InBounds p)
    (hf : ∀ a, InBounds (f a)) : InBounds (p >>= f) := by
  intro calls
  obtain ⟨⟨a, calls'⟩, hRun⟩ := hp calls
  obtain ⟨result, hNext⟩ := hf a calls'
  refine ⟨result, ?_⟩
  rw [bind_apply, hRun]
  exact hNext

theorem pure_inj {a b : α} (h : (pure a : Checked C α) = pure b) : a = b :=
  (Prod.mk.inj (Except.ok.inj (congrFun h []))).1

theorem read_of_getElem? {xs : List α} {index : Nat} {a : α} (h : xs[index]? = some a) :
    (read xs index : Checked C α) = pure a := by
  rw [read, h]

theorem fails_read {xs : List α} {index : Nat} (h : xs.length ≤ index) :
    Fails (read xs index : Checked C α) ⟨index, xs.length⟩ := by
  intro calls
  rw [read, List.getElem?_eq_none h]
  rfl

theorem Fails.bind {p : Checked C α} {e : OutOfBounds} (h : Fails p e) (f : α → Checked C β) :
    Fails (p >>= f) e := by
  intro calls
  rw [bind_apply, h calls]
  rfl

theorem inBounds_read {xs : List α} {index : Nat} (h : index < xs.length) :
    InBounds (read xs index : Checked C α) := by
  rw [read_of_getElem? (List.getElem?_eq_getElem h)]
  exact inBounds_pure _

theorem inBounds_ite {p q : Checked C α} {c : Prop} [Decidable c] (hp : c → InBounds p)
    (hq : ¬ c → InBounds q) : InBounds (if c then p else q) := by
  split
  · rename_i h
    exact hp h
  · rename_i h
    exact hq h

theorem inBounds_foldlM {f : β → α → Checked C β} (xs : List α) (acc : β)
    (hf : ∀ x ∈ xs, ∀ acc, InBounds (f acc x)) : InBounds (xs.foldlM f acc) := by
  induction xs generalizing acc with
  | nil => exact inBounds_pure acc
  | cons x xs ih =>
    rw [List.foldlM_cons]
    refine (hf x List.mem_cons_self acc).bind fun acc' => ?_
    exact ih acc' fun y hy => hf y (List.mem_cons_of_mem x hy)

end Checked

end Lib
