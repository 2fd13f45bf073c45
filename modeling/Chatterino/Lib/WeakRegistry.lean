import Mathlib.Data.List.AList

/-! # Registries of weak references

A heap holds the objects that are alive. A registry is a finite map to references into the heap,
some of them to objects that are gone.
-/

namespace Lib

universe u v w

variable {Key : Type u} {Ref : Type v} {Object : Type w}

abbrev Heap (Ref : Type v) (Object : Type w) := Ref → Option Object

namespace Heap

variable [DecidableEq Ref] {heap : Heap Ref Object} {f : Object → Object} {i j : Ref}

def modify (heap : Heap Ref Object) (i : Ref) (f : Object → Object) : Heap Ref Object :=
  fun j => if j = i then (heap j).map f else heap j

@[simp] theorem modify_self : heap.modify i f i = (heap i).map f := if_pos rfl

theorem modify_of_ne (h : j ≠ i) : heap.modify i f j = heap j := if_neg h

theorem modify_modify {g : Object → Object} :
    (heap.modify i f).modify i g = heap.modify i (g ∘ f) := by
  funext j
  rcases eq_or_ne j i with rfl | hNe
  · simp
  · simp only [modify_of_ne hNe]

theorem modify_of_none (h : heap i = none) : heap.modify i f = heap := by
  funext j
  rcases eq_or_ne j i with rfl | hNe
  · rw [modify_self, h]
    rfl
  · exact modify_of_ne hNe

def modifyAll (heap : Heap Ref Object) (refs : List Ref) (f : Object → Object) : Heap Ref Object :=
  refs.foldl (·.modify · f) heap

theorem modifyAll_apply {refs : List Ref} (h : refs.Nodup) :
    heap.modifyAll refs f i = if i ∈ refs then (heap i).map f else heap i := by
  induction refs generalizing heap with
  | nil => rfl
  | cons j refs ih =>
    obtain ⟨hNotMem, hRefs⟩ := List.nodup_cons.mp h
    have hTail : (heap.modify j f).modifyAll refs f i = _ := ih hRefs
    rw [modifyAll, List.foldl_cons]
    refine hTail.trans ?_
    rcases eq_or_ne i j with rfl | hNe
    · rw [if_neg hNotMem, modify_self, if_pos List.mem_cons_self]
    · rw [modify_of_ne hNe]
      simp only [List.mem_cons, hNe, false_or]

def All (p : Object → Prop) (heap : Heap Ref Object) : Prop := ∀ i object, heap i = some object → p object

variable {p : Object → Prop}

theorem All.modify (h : heap.All p) (hWrite : ∀ object, heap i = some object → p object → p (f object)) :
    (heap.modify i f).All p := by
  intro j object hObject
  rcases eq_or_ne j i with rfl | hNe
  · obtain ⟨old, hOld, rfl⟩ := Option.map_eq_some_iff.mp (modify_self.symm.trans hObject)
    exact hWrite old hOld (h j old hOld)
  · exact h j object ((modify_of_ne hNe).symm.trans hObject)

theorem All.modifyAll (h : heap.All p) (hWrite : ∀ object, p object → p (f object)) (refs : List Ref) :
    (heap.modifyAll refs f).All p := by
  induction refs generalizing heap with
  | nil => exact h
  | cons i refs ih => exact ih (h.modify fun object _ => hWrite object)

def Traces (r : Object → Object → Prop) (heap heap' : Heap Ref Object) : Prop :=
  ∀ i object', heap' i = some object' → ∃ object, heap i = some object ∧ r object object'

variable {r : Object → Object → Prop}

omit [DecidableEq Ref] in
theorem Traces.refl (hRefl : ∀ object, r object object) (heap : Heap Ref Object) : Traces r heap heap :=
  fun _ object h => ⟨object, h, hRefl object⟩

theorem Traces.modify (hRefl : ∀ object, r object object) (hWrite : ∀ object, r object (f object)) :
    Traces r heap (heap.modify i f) := by
  intro j object' hObject'
  rcases eq_or_ne j i with rfl | hNe
  · obtain ⟨old, hOld, rfl⟩ := Option.map_eq_some_iff.mp (modify_self.symm.trans hObject')
    exact ⟨old, hOld, hWrite old⟩
  · exact ⟨object', (modify_of_ne hNe).symm.trans hObject', hRefl object'⟩

omit [DecidableEq Ref] in
theorem Traces.trans {heap' heap'' : Heap Ref Object} (hTrans : ∀ a b c, r a b → r b c → r a c)
    (h : Traces r heap heap') (h' : Traces r heap' heap'') : Traces r heap heap'' := by
  intro i object'' hObject''
  obtain ⟨object', hObject', hLater⟩ := h' i object'' hObject''
  obtain ⟨object, hObject, hFirst⟩ := h i object' hObject'
  exact ⟨object, hObject, hTrans _ _ _ hFirst hLater⟩

end Heap

abbrev Registry (Key : Type u) (Ref : Type v) := AList fun _ : Key => Ref

namespace Registry

variable {registry : Registry Key Ref} {k : Key} {i : Ref} {p : Ref → Bool}

def refs (registry : Registry Key Ref) : List Ref := registry.entries.map (·.2)

def filter (registry : Registry Key Ref) (p : Ref → Bool) : Registry Key Ref where
  entries := registry.entries.filter (p ·.2)
  nodupKeys := registry.nodupKeys.sublist List.filter_sublist

theorem refs_filter_sublist : (refs (registry.filter p)).Sublist (refs registry) :=
  List.filter_sublist.map _

variable [DecidableEq Key]

theorem mem_refs : i ∈ registry.refs ↔ ∃ k, registry.lookup k = some i := by
  rw [refs, List.mem_map]
  constructor
  · rintro ⟨⟨k, j⟩, hEntry, rfl⟩
    exact ⟨k, AList.mem_lookup_iff.mpr hEntry⟩
  · rintro ⟨k, hLookup⟩
    exact ⟨⟨k, i⟩, AList.mem_lookup_iff.mp hLookup, rfl⟩

theorem lookup_filter_eq_some :
    (registry.filter p).lookup k = some i ↔ registry.lookup k = some i ∧ p i = true := by
  rw [← Option.mem_def, ← Option.mem_def, AList.mem_lookup_iff, AList.mem_lookup_iff]
  exact List.mem_filter

theorem refs_erase_sublist : (refs (AList.erase k registry)).Sublist (refs registry) :=
  (List.kerase_sublist k registry.entries).map _

theorem lookup_erase_eq_some {k' : Key} :
    (registry.erase k).lookup k' = some i ↔ registry.lookup k' = some i ∧ k' ≠ k := by
  rcases eq_or_ne k' k with rfl | hNe
  · simp
  · simp [AList.lookup_erase_ne hNe, hNe]

theorem lookup_insert_eq_some {k' : Key} {j : Ref} :
    (registry.insert k j).lookup k' = some i ↔
      k' = k ∧ j = i ∨ k' ≠ k ∧ registry.lookup k' = some i := by
  rcases eq_or_ne k' k with rfl | hNe
  · simp
  · simp [AList.lookup_insert_ne hNe, hNe]

theorem nodup_refs_insert (h : registry.refs.Nodup) (hNew : i ∉ registry.refs) :
    (refs (AList.insert k i registry)).Nodup := by
  rw [refs, AList.entries_insert, List.map_cons, List.nodup_cons]
  exact ⟨fun hMem => hNew (refs_erase_sublist.subset hMem), h.sublist refs_erase_sublist⟩

omit [DecidableEq Key] in
theorem isEmpty_iff : registry.entries.isEmpty = true ↔ registry = ∅ := by
  rw [List.isEmpty_iff]
  constructor
  · exact fun h => AList.ext h
  · rintro rfl
    rfl

end Registry

end Lib
