import Mathlib.Data.List.Induction
import Mathlib.Data.List.Nodup

/-! # Ordered trees

Trees whose nodes carry a value and a list of children. A subtree with what surrounds it is a tree
with a hole that is plugged, so that a change in one place is a change of what plugs the hole.
-/

namespace Lib

universe u

inductive RoseTree (α : Type u) where
  | node (value : α) (children : List (RoseTree α))

namespace RoseTree

variable {α β : Type u}

def value : RoseTree α → α
  | node value _ => value

def children : RoseTree α → List (RoseTree α)
  | node _ children => children

@[simp] theorem value_node (value : α) (children : List (RoseTree α)) :
    (node value children).value = value := rfl

@[simp] theorem children_node (value : α) (children : List (RoseTree α)) :
    (node value children).children = children := rfl

@[elab_as_elim]
theorem induction {motive : RoseTree α → Prop}
    (node : ∀ value children, (∀ child ∈ children, motive child) → motive (node value children))
    (tree : RoseTree α) : motive tree :=
  RoseTree.rec (motive_1 := motive) (motive_2 := fun children => ∀ child ∈ children, motive child)
    (fun value children ih => node value children ih) (fun _ hMem => absurd hMem List.not_mem_nil)
    (fun _ _ ihHead ihTail child hMem =>
      (List.mem_cons.mp hMem).elim (fun hHead => hHead ▸ ihHead) (ihTail child)) tree

mutual

def para (step : α → List (RoseTree α × β) → β) : RoseTree α → β
  | node value children => step value (paraAll step children)

def paraAll (step : α → List (RoseTree α × β) → β) : List (RoseTree α) → List (RoseTree α × β)
  | [] => []
  | child :: children => (child, para step child) :: paraAll step children

end

theorem paraAll_eq_map (step : α → List (RoseTree α × β) → β) (children : List (RoseTree α)) :
    paraAll step children = children.map fun child => (child, para step child) := by
  induction children with
  | nil => rfl
  | cons child children ih => rw [paraAll, ih, List.map_cons]

theorem para_node (step : α → List (RoseTree α × β) → β) (value : α) (children : List (RoseTree α)) :
    para step (node value children) = step value (children.map fun child => (child, para step child)) := by
  rw [para, paraAll_eq_map]

def subtrees : RoseTree α → List (RoseTree α) :=
  para fun value rows => node value (rows.map Prod.fst) :: rows.flatMap Prod.snd

def toList (tree : RoseTree α) : List α := tree.subtrees.map value

def leaves : RoseTree α → List α :=
  para fun value rows => if rows.isEmpty then [value] else rows.flatMap Prod.snd

def find? (test : α → Bool) (tree : RoseTree α) : Option (RoseTree α) :=
  tree.subtrees.find? fun subtree => test subtree.value

def modify (test : α → Bool) (change : RoseTree α → RoseTree α) : RoseTree α → RoseTree α :=
  para fun value rows =>
    if test value then change (node value (rows.map Prod.fst)) else node value (rows.map Prod.snd)

def map (f : α → β) : RoseTree α → RoseTree β := para fun value rows => node (f value) (rows.map Prod.snd)

theorem map_node (f : α → β) (value : α) (children : List (RoseTree α)) :
    (node value children).map f = node (f value) (children.map (map f)) := by
  rw [map, para_node, ← map, List.map_map]
  rfl

theorem subtrees_node (value : α) (children : List (RoseTree α)) :
    (node value children).subtrees = node value children :: children.flatMap subtrees := by
  have hChildren : (children.map fun child => (child, subtrees child)).map Prod.fst = children := by
    rw [List.map_map]
    exact List.map_id children
  rw [subtrees, para_node, ← subtrees, hChildren, List.flatMap_map]

theorem toList_node (value : α) (children : List (RoseTree α)) :
    (node value children).toList = value :: children.flatMap toList := by
  rw [toList, subtrees_node, List.map_cons, List.map_flatMap]
  rfl

theorem leaves_node_nil (value : α) : (node value []).leaves = [value] := rfl

theorem leaves_node {children : List (RoseTree α)} (value : α) (h : children ≠ []) :
    (node value children).leaves = children.flatMap leaves := by
  have hRows : ¬(children.map fun child => (child, leaves child)).isEmpty = true := by
    rw [List.isEmpty_iff, List.map_eq_nil_iff]
    exact h
  rw [leaves, para_node, ← leaves, if_neg hRows, List.flatMap_map]

theorem modify_node (test : α → Bool) (change : RoseTree α → RoseTree α) (value : α)
    (children : List (RoseTree α)) : (node value children).modify test change =
      if test value then change (node value children) else node value (children.map (modify test change)) := by
  have hChildren : (children.map fun child => (child, modify test change child)).map Prod.fst = children := by
    rw [List.map_map]
    exact List.map_id children
  rw [modify, para_node, ← modify, hChildren, List.map_map]
  rfl

theorem mem_subtrees_self (tree : RoseTree α) : tree ∈ tree.subtrees := by
  cases tree with
  | node value children =>
    rw [subtrees_node]
    exact List.mem_cons_self

structure Frame (α : Type u) where
  value : α
  before : List (RoseTree α)
  after : List (RoseTree α)

namespace Frame

def fill (frame : Frame α) (tree : RoseTree α) : RoseTree α :=
  node frame.value (frame.before ++ tree :: frame.after)

def rest (frame : Frame α) : List α :=
  frame.value :: (frame.before.flatMap toList ++ frame.after.flatMap toList)

end Frame

def plug (context : List (Frame α)) (tree : RoseTree α) : RoseTree α :=
  context.foldl (fun filled frame => frame.fill filled) tree

def rest (context : List (Frame α)) : List α := context.flatMap Frame.rest

def leavesBefore (context : List (Frame α)) : List α :=
  context.foldl (fun inner frame => frame.before.flatMap leaves ++ inner) []

def leavesAfter (context : List (Frame α)) : List α :=
  context.foldl (fun inner frame => inner ++ frame.after.flatMap leaves) []

@[simp] theorem plug_cons (frame : Frame α) (context : List (Frame α)) (tree : RoseTree α) :
    plug (frame :: context) tree = plug context (frame.fill tree) := rfl

theorem plug_append (inner outer : List (Frame α)) (tree : RoseTree α) :
    plug (inner ++ outer) tree = plug outer (plug inner tree) := List.foldl_append

theorem value_plug_congr {f : α → β} {tree tree' : RoseTree α} (h : f tree.value = f tree'.value)
    (context : List (Frame α)) : f (plug context tree).value = f (plug context tree').value := by
  induction context generalizing tree tree' with
  | nil => exact h
  | cons frame context ih => exact ih rfl

theorem exists_plug_of_mem {tree subtree : RoseTree α} (h : subtree ∈ tree.subtrees) :
    ∃ context, tree = plug context subtree := by
  induction tree using induction with
  | node value children ih =>
    rw [subtrees_node] at h
    rcases List.mem_cons.mp h with rfl | hBelow
    · exact ⟨[], rfl⟩
    obtain ⟨child, hChild, hMem⟩ := List.mem_flatMap.mp hBelow
    obtain ⟨context, rfl⟩ := ih child hChild hMem
    obtain ⟨before, after, rfl⟩ := List.append_of_mem hChild
    refine ⟨context ++ [⟨value, before, after⟩], ?_⟩
    rw [plug_append]
    rfl

theorem leaves_fill (frame : Frame α) (tree : RoseTree α) : (frame.fill tree).leaves =
    frame.before.flatMap leaves ++ tree.leaves ++ frame.after.flatMap leaves := by
  rw [Frame.fill, leaves_node, List.flatMap_append, List.flatMap_cons, List.append_assoc]
  exact List.append_ne_nil_of_right_ne_nil _ (List.cons_ne_nil _ _)

theorem leavesBefore_cons (frame : Frame α) (context : List (Frame α)) :
    leavesBefore (frame :: context) = leavesBefore context ++ frame.before.flatMap leaves := by
  induction context using List.reverseRecOn with
  | nil => exact List.append_nil _
  | append_singleton context outer ih =>
    rw [leavesBefore, ← List.cons_append, List.foldl_append, ← leavesBefore, ih, leavesBefore,
      leavesBefore, List.foldl_append]
    exact (List.append_assoc _ _ _).symm

theorem leavesAfter_cons (frame : Frame α) (context : List (Frame α)) :
    leavesAfter (frame :: context) = frame.after.flatMap leaves ++ leavesAfter context := by
  induction context using List.reverseRecOn with
  | nil => exact (List.append_nil _).symm
  | append_singleton context outer ih =>
    rw [leavesAfter, ← List.cons_append, List.foldl_append, ← leavesAfter, ih, leavesAfter,
      leavesAfter, List.foldl_append]
    exact List.append_assoc _ _ _

theorem leaves_plug (context : List (Frame α)) (tree : RoseTree α) :
    (plug context tree).leaves = leavesBefore context ++ tree.leaves ++ leavesAfter context := by
  induction context generalizing tree with
  | nil => exact (List.append_nil _).symm
  | cons frame context ih =>
    rw [plug_cons, ih, leaves_fill, leavesBefore_cons, leavesAfter_cons]
    simp only [List.append_assoc]

theorem toList_plug_perm (context : List (Frame α)) (tree : RoseTree α) :
    (plug context tree).toList.Perm (tree.toList ++ rest context) := by
  induction context generalizing tree with
  | nil => exact .of_eq (List.append_nil _).symm
  | cons frame context ih =>
    have hFill : (frame.fill tree).toList.Perm (tree.toList ++ frame.rest) := by
      rw [Frame.fill, toList_node, List.flatMap_append, List.flatMap_cons, Frame.rest]
      refine (List.Perm.cons _ ?_).trans List.perm_middle.symm
      rw [← List.append_assoc, ← List.append_assoc]
      exact List.perm_append_comm.append_right _
    rw [plug_cons, rest, List.flatMap_cons, ← List.append_assoc, ← rest]
    exact (ih _).trans (hFill.append_right _)

theorem find?_eq_none {test : α → Bool} {tree : RoseTree α} (h : ∀ value ∈ tree.toList, test value = false) :
    tree.find? test = none := by
  rw [find?, List.find?_eq_none]
  intro subtree hMem hTest
  rw [h subtree.value (List.mem_map_of_mem hMem)] at hTest
  cases hTest

theorem findSome?_find?_eq_none {test : α → Bool} {trees : List (RoseTree α)}
    (h : ∀ value ∈ trees.flatMap toList, test value = false) : trees.findSome? (find? test) = none := by
  rw [List.findSome?_eq_none_iff]
  intro tree hTree
  exact find?_eq_none fun value hValue => h value (List.mem_flatMap.mpr ⟨tree, hTree, hValue⟩)

theorem find?_node (test : α → Bool) (value : α) (children : List (RoseTree α)) :
    (node value children).find? test =
      if test value then some (node value children) else children.findSome? (find? test) := by
  rw [find?, subtrees_node, List.find?_cons, List.find?_flatMap]
  cases hTest : test value <;> simp only [value_node, hTest] <;> rfl

theorem find?_fill {test : α → Bool} {frame : Frame α} (h : ∀ value ∈ frame.rest, test value = false)
    (tree : RoseTree α) : (frame.fill tree).find? test = tree.find? test := by
  have hBefore := findSome?_find?_eq_none fun value hMem =>
    h value (List.mem_cons_of_mem _ (List.mem_append_left _ hMem))
  have hAfter := findSome?_find?_eq_none fun value hMem =>
    h value (List.mem_cons_of_mem _ (List.mem_append_right _ hMem))
  rw [Frame.fill, find?_node, h frame.value List.mem_cons_self, if_neg Bool.false_ne_true,
    List.findSome?_append, hBefore, List.findSome?_cons, hAfter, Option.none_or]
  cases tree.find? test <;> rfl

theorem find?_plug {test : α → Bool} {context : List (Frame α)}
    (h : ∀ value ∈ rest context, test value = false) (tree : RoseTree α) :
    (plug context tree).find? test = tree.find? test := by
  induction context generalizing tree with
  | nil => rfl
  | cons frame context ih =>
    rw [rest, List.flatMap_cons] at h
    rw [plug_cons, ih fun value hMem => h value (List.mem_append_right _ hMem)]
    exact find?_fill (fun value hMem => h value (List.mem_append_left _ hMem)) tree

theorem modify_eq_self {test : α → Bool} (change : RoseTree α → RoseTree α) {tree : RoseTree α}
    (h : ∀ value ∈ tree.toList, test value = false) : tree.modify test change = tree := by
  induction tree using induction with
  | node value children ih =>
    rw [toList_node] at h
    have hChildren : children.map (modify test change) = children.map id :=
      List.map_congr_left fun child hChild => ih child hChild fun inner hInner =>
        h inner (List.mem_cons_of_mem _ (List.mem_flatMap.mpr ⟨child, hChild, hInner⟩))
    rw [List.map_id] at hChildren
    rw [modify_node, h value List.mem_cons_self, if_neg Bool.false_ne_true, hChildren]

theorem map_modify_eq_self {test : α → Bool} (change : RoseTree α → RoseTree α) {trees : List (RoseTree α)}
    (h : ∀ value ∈ trees.flatMap toList, test value = false) : trees.map (modify test change) = trees := by
  have hTrees : trees.map (modify test change) = trees.map id :=
    List.map_congr_left fun tree hTree => modify_eq_self change fun value hValue =>
      h value (List.mem_flatMap.mpr ⟨tree, hTree, hValue⟩)
  rw [hTrees, List.map_id]

theorem modify_fill {test : α → Bool} (change : RoseTree α → RoseTree α) {frame : Frame α}
    (h : ∀ value ∈ frame.rest, test value = false) (tree : RoseTree α) :
    (frame.fill tree).modify test change = frame.fill (tree.modify test change) := by
  have hBefore := map_modify_eq_self change fun value hMem =>
    h value (List.mem_cons_of_mem _ (List.mem_append_left _ hMem))
  have hAfter := map_modify_eq_self change fun value hMem =>
    h value (List.mem_cons_of_mem _ (List.mem_append_right _ hMem))
  rw [Frame.fill, modify_node, h frame.value List.mem_cons_self, if_neg Bool.false_ne_true,
    List.map_append, List.map_cons, hBefore, hAfter]
  rfl

theorem modify_plug {test : α → Bool} (change : RoseTree α → RoseTree α) {context : List (Frame α)}
    (h : ∀ value ∈ rest context, test value = false) (tree : RoseTree α) :
    (plug context tree).modify test change = plug context (tree.modify test change) := by
  induction context generalizing tree with
  | nil => rfl
  | cons frame context ih =>
    rw [rest, List.flatMap_cons] at h
    rw [plug_cons, plug_cons, ih fun value hMem => h value (List.mem_append_right _ hMem),
      modify_fill change fun value hMem => h value (List.mem_append_left _ hMem)]

theorem modify_root {test : α → Bool} {change : RoseTree α → RoseTree α} {tree : RoseTree α}
    (h : test tree.value = true) : tree.modify test change = change tree := by
  cases tree with
  | node value children => exact (modify_node test change value children).trans (if_pos h)

theorem find?_root {test : α → Bool} {tree : RoseTree α} (h : test tree.value = true) :
    tree.find? test = some tree := by
  cases tree with
  | node value children => exact (find?_node test value children).trans (if_pos h)

theorem value_of_find? {test : α → Bool} {tree subtree : RoseTree α} (h : tree.find? test = some subtree) :
    test subtree.value = true :=
  List.find?_some (p := fun inner : RoseTree α => test inner.value) h

theorem exists_plug_of_find? {test : α → Bool} {tree subtree : RoseTree α}
    (h : tree.find? test = some subtree) : ∃ context, tree = plug context subtree :=
  exists_plug_of_mem (List.mem_of_find?_eq_some h)

theorem find?_isSome {test : α → Bool} {tree : RoseTree α} {value : α} (hMem : value ∈ tree.toList)
    (hTest : test value = true) : (tree.find? test).isSome = true := by
  obtain ⟨subtree, hSubtree, rfl⟩ := List.mem_map.mp hMem
  exact List.find?_isSome.mpr ⟨subtree, hSubtree, hTest⟩

theorem mem_toList_of_mem_leaves {tree : RoseTree α} {value : α} (h : value ∈ tree.leaves) :
    value ∈ tree.toList := by
  induction tree using induction with
  | node root children ih =>
    rw [toList_node]
    by_cases hChildren : children = []
    · subst hChildren
      rw [leaves_node_nil] at h
      exact List.mem_cons.mpr (.inl (List.mem_singleton.mp h))
    · rw [leaves_node root hChildren] at h
      obtain ⟨child, hChild, hLeaf⟩ := List.mem_flatMap.mp h
      exact List.mem_cons_of_mem _ (List.mem_flatMap.mpr ⟨child, hChild, ih child hChild hLeaf⟩)

def Forall (P : α → List α → Prop) (tree : RoseTree α) : Prop :=
  ∀ subtree ∈ tree.subtrees, P subtree.value (subtree.children.map value)

def ForallRest (P : α → List α → Prop) : List (Frame α) → α → Prop
  | [], _ => True
  | frame :: context, hole =>
    P frame.value (frame.before.map value ++ hole :: frame.after.map value) ∧
      (∀ child ∈ frame.before ++ frame.after, child.Forall P) ∧ ForallRest P context frame.value

variable {P : α → List α → Prop}

theorem forall_node {value : α} {children : List (RoseTree α)} : (node value children).Forall P ↔
    P value (children.map RoseTree.value) ∧ ∀ child ∈ children, child.Forall P := by
  rw [Forall, subtrees_node, List.forall_mem_cons]
  refine and_congr Iff.rfl ?_
  constructor
  · intro h child hChild subtree hMem
    exact h subtree (List.mem_flatMap.mpr ⟨child, hChild, hMem⟩)
  · intro h subtree hMem
    obtain ⟨child, hChild, hBelow⟩ := List.mem_flatMap.mp hMem
    exact h child hChild subtree hBelow

theorem forall_fill {frame : Frame α} {tree : RoseTree α} : (frame.fill tree).Forall P ↔
    tree.Forall P ∧ P frame.value (frame.before.map value ++ tree.value :: frame.after.map value) ∧
      ∀ child ∈ frame.before ++ frame.after, child.Forall P := by
  rw [Frame.fill, forall_node, List.map_append, List.map_cons, List.forall_mem_append,
    List.forall_mem_cons, List.forall_mem_append]
  constructor
  · rintro ⟨hValue, hBefore, hTree, hAfter⟩
    exact ⟨hTree, hValue, hBefore, hAfter⟩
  · rintro ⟨hTree, hValue, hBefore, hAfter⟩
    exact ⟨hValue, hBefore, hTree, hAfter⟩

theorem forall_plug {context : List (Frame α)} {tree : RoseTree α} :
    (plug context tree).Forall P ↔ tree.Forall P ∧ ForallRest P context tree.value := by
  induction context generalizing tree with
  | nil => exact (and_iff_left trivial).symm
  | cons frame context ih =>
    rw [plug_cons, ih, forall_fill, and_assoc, and_assoc]
    rfl

theorem Forall.replace {context : List (Frame α)} {tree tree' : RoseTree α}
    (h : (plug context tree).Forall P) (hTree : tree'.Forall P)
    (hValue : ∀ value before after, P value (before ++ tree.value :: after) →
      P value (before ++ tree'.value :: after)) : (plug context tree').Forall P := by
  obtain ⟨-, hRest⟩ := forall_plug.mp h
  refine forall_plug.mpr ⟨hTree, ?_⟩
  cases context with
  | nil => trivial
  | cons frame context => exact ⟨hValue _ _ _ hRest.1, hRest.2⟩

theorem value_map (f : α → β) (tree : RoseTree α) : (tree.map f).value = f tree.value := by
  cases tree with
  | node value children => rw [map_node, value_node, value_node]

theorem leaves_map (f : α → β) (tree : RoseTree α) : (tree.map f).leaves = tree.leaves.map f := by
  induction tree using induction with
  | node value children ih =>
    rw [map_node]
    cases children with
    | nil => rfl
    | cons child children =>
      rw [leaves_node _ (List.cons_ne_nil _ _), List.map_cons,
        leaves_node _ (List.cons_ne_nil _ _), ← List.map_cons, List.flatMap_map, List.map_flatMap]
      exact List.flatMap_congr fun tree hTree => ih tree hTree

theorem toList_map (f : α → β) (tree : RoseTree α) : (tree.map f).toList = tree.toList.map f := by
  induction tree using induction with
  | node value children ih =>
    rw [map_node, toList_node, toList_node, List.map_cons, List.flatMap_map, List.map_flatMap]
    exact congrArg _ (List.flatMap_congr fun tree hTree => ih tree hTree)

theorem subtrees_map (f : α → β) (tree : RoseTree α) : (tree.map f).subtrees = tree.subtrees.map (map f) := by
  induction tree using induction with
  | node value children ih =>
    rw [map_node, subtrees_node, subtrees_node, List.map_cons, map_node, List.flatMap_map, List.map_flatMap]
    exact congrArg _ (List.flatMap_congr fun tree hTree => ih tree hTree)

theorem find?_map (f : α → β) (test : β → Bool) (tree : RoseTree α) :
    (tree.map f).find? test = (tree.find? (test ∘ f)).map (map f) := by
  rw [find?, subtrees_map, List.find?_map, find?]
  refine congrArg _ (congrFun (congrArg _ (funext fun subtree => ?_)) _)
  exact congrArg test (value_map f subtree)

theorem Forall.of_map_eq {f : α → β} (hP : ∀ {value value' children children'}, f value = f value' →
      children.map f = children'.map f → P value children → P value' children')
    {tree tree' : RoseTree α} (hMap : tree.map f = tree'.map f) (h : tree.Forall P) : tree'.Forall P := by
  induction tree using induction generalizing tree' with
  | node value children ih =>
    cases tree' with
    | node value' children' =>
      rw [map_node, map_node] at hMap
      obtain ⟨hValue, hChildren⟩ := RoseTree.node.inj hMap
      obtain ⟨hRoot, hBelow⟩ := forall_node.mp h
      refine forall_node.mpr ⟨hP hValue ?_ hRoot, fun child' hChild' => ?_⟩
      · have hValues := congrArg (List.map RoseTree.value) hChildren
        rw [List.map_map, List.map_map] at hValues
        rw [List.map_map, List.map_map]
        refine Eq.trans ?_ (hValues.trans ?_)
        · exact List.map_congr_left fun child _ => (value_map f child).symm
        · exact List.map_congr_left fun child _ => value_map f child
      · have hMem : child'.map f ∈ children.map (map f) := hChildren ▸ List.mem_map_of_mem hChild'
        obtain ⟨child, hChild, hSame⟩ := List.mem_map.mp hMem
        exact ih child hChild hSame (hBelow child hChild)

theorem forall_map {f : α → β} {P : β → List β → Prop} {tree : RoseTree α} :
    (tree.map f).Forall P ↔ tree.Forall fun value children => P (f value) (children.map f) := by
  induction tree using induction with
  | node value children ih =>
    rw [map_node, forall_node, forall_node, List.map_map, List.map_map, List.forall_mem_map]
    refine and_congr (iff_of_eq ?_) (forall₂_congr ih)
    exact congrArg _ (List.map_congr_left fun child _ => value_map f child)

theorem Forall.imp {P Q : α → List α → Prop} {tree : RoseTree α} (h : tree.Forall P)
    (hImp : ∀ value children, P value children → Q value children) : tree.Forall Q :=
  fun subtree hSubtree => hImp _ _ (h subtree hSubtree)

theorem map_eq_of_forall {β γ : Type*} {f : α → β} {g : α → γ} {list list' : List α}
    (h : ∀ value ∈ list, ∀ value', f value = f value' → g value = g value') (hMap : list.map f = list'.map f) :
    list.map g = list'.map g := by
  induction list generalizing list' with
  | nil => rw [List.map_eq_nil_iff.mp hMap.symm]
  | cons value list ih =>
    cases list' with
    | nil => cases hMap
    | cons value' list' =>
      rw [List.forall_mem_cons] at h
      obtain ⟨hHead, hTail⟩ := List.cons.inj hMap
      rw [List.map_cons, List.map_cons, h.1 value' hHead, ih h.2 hTail]

theorem map_pair_eq_iff {γ : Type u} {f : α → β} {g : α → γ} {tree tree' : RoseTree α} :
    tree.map (fun value => (f value, g value)) = tree'.map (fun value => (f value, g value)) ↔
      tree.map f = tree'.map f ∧ tree.map g = tree'.map g := by
  induction tree using induction generalizing tree' with
  | node value children ih =>
    cases tree' with
    | node value' children' =>
      simp only [map_node, RoseTree.node.injEq, Prod.mk.injEq]
      constructor
      · rintro ⟨⟨hFst, hSnd⟩, hChildren⟩
        refine ⟨⟨hFst, map_eq_of_forall ?_ hChildren⟩, hSnd, map_eq_of_forall ?_ hChildren⟩
        · exact fun child hChild child' hSame => ((ih child hChild).mp hSame).1
        · exact fun child hChild child' hSame => ((ih child hChild).mp hSame).2
      · rintro ⟨⟨hFst, hChildren⟩, hSnd, hChildren'⟩
        have hPairs := congrArg₂ List.zip hChildren hChildren'
        rw [List.zip_map', List.zip_map'] at hPairs
        refine ⟨⟨hFst, hSnd⟩, map_eq_of_forall (fun child hChild child' hSame => ?_) hPairs⟩
        obtain ⟨hLeft, hRight⟩ := Prod.mk.inj hSame
        exact (ih child hChild).mpr ⟨hLeft, hRight⟩

theorem map_injective {f : α → β} (h : Function.Injective f) : Function.Injective (map f) := by
  intro tree tree' hMap
  induction tree using induction generalizing tree' with
  | node value children ih =>
    cases tree' with
    | node value' children' =>
      rw [map_node, map_node] at hMap
      obtain ⟨hValue, hChildren⟩ := RoseTree.node.inj hMap
      have hSame := map_eq_of_forall (g := id) (fun child hChild child' hSame => ih child hChild hSame) hChildren
      rw [List.map_id, List.map_id] at hSame
      rw [h hValue, hSame]

theorem map_map {γ : Type u} (f : α → β) (g : β → γ) (tree : RoseTree α) :
    (tree.map f).map g = tree.map (g ∘ f) := by
  induction tree using induction with
  | node value children ih =>
    rw [map_node, map_node, map_node, List.map_map]
    exact congrArg _ (List.map_congr_left ih)

end RoseTree

end Lib
