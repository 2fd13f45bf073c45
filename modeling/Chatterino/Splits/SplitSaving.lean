import Chatterino.Splits.SplitBuild

/-! # Saving a tree and building it again

A tree is described by what is saved of its splits. The tree that is built from this has the same
rows, columns and flex values, and shows the same if each split comes back.
-/

namespace Chatterino.Splits

open Lib RoseTree Node
open NodeType hiding Split

variable {σ δ F W : Type} {node : Node δ F}

def describe (save : δ → σ) : Node δ F → NodeDescriptor σ F :=
  RoseTree.para fun node items =>
    match node.split_ with
    | some split => .split (save split.shown) node.flexH_ node.flexV_
    | none => .container node.flexH_ node.flexV_ (node.type_ = VerticalContainer) (items.map Prod.snd)

namespace NodeData

def shape (data : NodeData δ F) : NodeType × F × F := (data.type_, data.flexH_, data.flexV_)

def shown? (data : NodeData δ F) : Option δ := data.split_.map Split.shown

def visible (data : NodeData δ F) : (NodeType × F × F) × Option δ := (data.shape, data.shown?)

end NodeData

theorem describe_split (save : δ → σ) {data : NodeData δ F} {split : Split δ} (hSplit : data.split_ = some split)
    (children : List (Node δ F)) :
    describe save (.node data children) = .split (save split.shown) data.flexH_ data.flexV_ := by
  rw [describe, para_node, hSplit]

theorem describe_container (save : δ → σ) {data : NodeData δ F} (hSplit : data.split_ = none)
    (children : List (Node δ F)) : describe save (.node data children) =
      .container data.flexH_ data.flexV_ (data.type_ = VerticalContainer) (children.map (describe save)) := by
  rw [describe, para_node, hSplit, ← describe]
  dsimp only
  rw [List.map_map]
  rfl

theorem containerType_eq {type : NodeType} (h : type.isContainer) :
    containerType (type = VerticalContainer) = type := by
  cases type with
  | EmptyRoot => cases h
  | Split => cases h
  | VerticalContainer => rfl
  | HorizontalContainer => rfl

theorem Sound.isContainer_of_none {data : NodeData δ F} {children : List (NodeData δ F)} (h : Sound data children)
    (hSplit : data.split_ = none) (hType : data.type_ ≠ EmptyRoot) : data.type_.isContainer := by
  cases hCase : data.type_ with
  | EmptyRoot => exact absurd hCase hType
  | Split =>
    have hSome := h.split.mp hCase
    rw [hSplit] at hSome
    cases hSome
  | VerticalContainer => rfl
  | HorizontalContainer => rfl

namespace SplitContainer

section

variable (save : δ → σ) (opens : σ → W → δ × W) (valid : W → Prop) (restorable : δ → Prop)

def Reopens (shown : δ) : Prop := ∀ world, valid world →
  ((opens (save shown) world).1 = shown ↔ restorable shown) ∧ valid (opens (save shown) world).2

/-- Nodes that are built look as those that were saved do, but for what is shown. -/
structure Rebuilds (nodes built : List (Node δ F)) (world : W) : Prop where
  shape : built.map (map NodeData.shape) = nodes.map (map NodeData.shape)
  shown? : built.map (map NodeData.shown?) = nodes.map (map NodeData.shown?) ↔
    ∀ split ∈ nodes.flatMap Node.splits, restorable split.shown
  valid : valid world

end

variable {save : δ → σ} {opens : σ → W → δ × W} {valid : W → Prop} {restorable : δ → Prop}
  {nodes : List (Node δ F)}

theorem buildAll_describe_of (h : ∀ node ∈ nodes, ∀ parent state, valid state.2 →
      Rebuilds valid restorable [node] [(build opens parent (describe save node) state).1]
        (build (δ := δ) opens parent (describe save node) state).2.2)
    (parent : Address) (state : Address × W) (hValid : valid state.2) :
    Rebuilds valid restorable nodes (buildAll opens parent (nodes.map (describe save)) state).1
      (buildAll (δ := δ) opens parent (nodes.map (describe save)) state).2.2 := by
  induction nodes generalizing state with
  | nil => exact ⟨rfl, iff_of_true rfl (by rintro _ ⟨⟩), hValid⟩
  | cons node nodes ih =>
    rw [List.forall_mem_cons] at h
    rw [List.map_cons, buildAll_cons]
    have hNode := h.1 parent state hValid
    have hNodes := ih h.2 (build (δ := δ) opens parent (describe save node) state).2 hNode.valid
    refine ⟨?_, ?_, hNodes.valid⟩
    · rw [List.map_cons, List.map_cons, hNodes.shape, (List.cons.inj hNode.shape).1]
    · have hOne := hNode.shown?
      rw [List.map_singleton, List.map_singleton, List.singleton_inj, List.flatMap_singleton] at hOne
      rw [List.map_cons, List.map_cons, List.cons_eq_cons, hOne, hNodes.shown?, List.flatMap_cons,
        List.forall_mem_append]

theorem rebuilds_leaf {data built : NodeData δ F} {split : Split δ} {world : W} (hSplit : data.split_ = some split)
    (hShape : built.shape = data.shape)
    (hShown : built.shown? = some split.shown ↔ restorable split.shown) (hValid : valid world) :
    Rebuilds valid restorable [RoseTree.node data []] [.node built []] world := by
  have hSplits : Node.splits (.node data []) = [split] := (splits_leaf data).trans (hSplit ▸ rfl)
  have hOld : data.shown? = some split.shown := congrArg (Option.map Split.shown) hSplit
  refine ⟨?_, ?_, hValid⟩
  · rw [List.map_singleton, List.map_singleton, map_node, map_node, hShape]
  · rw [List.map_singleton, List.map_singleton, List.singleton_inj, map_node, map_node, List.flatMap_singleton,
      hSplits, List.forall_mem_singleton, ← hShown, hOld]
    constructor
    · intro hSame
      exact (RoseTree.node.inj hSame).1
    · intro hSame
      exact congrArg (fun shown => RoseTree.node shown _) hSame

theorem rebuilds_container {data built : NodeData δ F} {world : W} {builtNodes : List (Node δ F)}
    (hSplit : data.split_ = none) (hShape : built.shape = data.shape) (hBuilt : built.split_ = none)
    (hNodes : Rebuilds valid restorable nodes builtNodes world) :
    Rebuilds valid restorable [RoseTree.node data nodes] [.node built builtNodes] world := by
  have hShown : built.shown? = data.shown? := by
    rw [NodeData.shown?, NodeData.shown?, hSplit, hBuilt]
  refine ⟨?_, ?_, hNodes.valid⟩
  · rw [List.map_singleton, List.map_singleton, map_node, map_node, hNodes.shape, hShape]
  · rw [List.map_singleton, List.map_singleton, List.singleton_inj, map_node, map_node, List.flatMap_singleton,
      splits_of_none hSplit, ← hNodes.shown?, hShown]
    constructor
    · intro hSame
      exact (RoseTree.node.inj hSame).2
    · intro hSame
      exact congrArg (RoseTree.node data.shown?) hSame

theorem Sound.leaf_eq {data : NodeData δ F} {split : Split δ} (h : Sound data (nodes.map RoseTree.value))
    (hSplit : data.split_ = some split) : data.type_ = NodeType.Split ∧ nodes = [] := by
  have hLeaf : data.type_ = NodeType.Split := h.split.mpr (hSplit ▸ rfl)
  exact ⟨hLeaf, List.map_eq_nil_iff.mp (h.leaf hLeaf)⟩

theorem build_describe (h : node.Forall Sound) (hType : node.value.type_ ≠ EmptyRoot)
    (hReopens : ∀ split ∈ node.splits, Reopens save opens valid restorable split.shown) (parent : Address)
    (state : Address × W) (hValid : valid state.2) :
    Rebuilds valid restorable [node] [(build opens parent (describe save node) state).1]
      (build (δ := δ) opens parent (describe save node) state).2.2 := by
  induction node using RoseTree.induction generalizing parent state with
  | node data children ih =>
    obtain ⟨hData, hBelow⟩ := forall_node.mp h
    cases hSplit : data.split_ with
    | some split =>
      obtain ⟨hLeaf, rfl⟩ := Sound.leaf_eq hData hSplit
      have hSplits : Node.splits (.node data []) = [split] := (splits_leaf data).trans (hSplit ▸ rfl)
      rw [hSplits, List.forall_mem_singleton] at hReopens
      obtain ⟨hShown, hNext⟩ := hReopens state.2 hValid
      rw [describe_split save hSplit, build_split]
      refine rebuilds_leaf hSplit ?_ ?_ hNext
      · rw [NodeData.shape, NodeData.shape, hLeaf]
      · rw [← hShown]
        exact Option.some_inj
    | none =>
      have hEach : ∀ child ∈ children, ∀ parent state, valid state.2 →
          Rebuilds valid restorable [child] [(build opens parent (describe save child) state).1]
            (build (δ := δ) opens parent (describe save child) state).2.2 := by
        intro child hChild parent state hValid
        refine ih child hChild (hBelow child hChild) ?_ (fun split hMem => hReopens split ?_) parent state hValid
        · exact hData.inner child.value (List.mem_map_of_mem hChild)
        · rw [splits_of_none hSplit]
          exact List.mem_flatMap.mpr ⟨child, hChild, hMem⟩
      have hChildren := buildAll_describe_of hEach state.1 (state.1 + 1, state.2) hValid
      rw [describe_container save hSplit, build_container]
      refine rebuilds_container hSplit ?_ rfl hChildren
      rw [NodeData.shape, NodeData.shape, containerType_eq (hData.isContainer_of_none hSplit hType)]

theorem buildAll_describe {data : NodeData δ F} (h : (RoseTree.node data nodes).Forall Sound)
    (hSplit : data.split_ = none)
    (hReopens : ∀ split ∈ Node.splits (.node data nodes), Reopens save opens valid restorable split.shown)
    (parent : Address) (state : Address × W) (hValid : valid state.2) :
    Rebuilds valid restorable nodes (buildAll opens parent (nodes.map (describe save)) state).1
      (buildAll (δ := δ) opens parent (nodes.map (describe save)) state).2.2 := by
  obtain ⟨hData, hBelow⟩ := forall_node.mp h
  rw [splits_of_none hSplit] at hReopens
  refine buildAll_describe_of (fun child hChild parent state hValid => ?_) parent state hValid
  have hType := hData.inner child.value (List.mem_map_of_mem hChild)
  refine build_describe (hBelow child hChild) hType (fun split hMem => ?_) parent state hValid
  exact hReopens split (List.mem_flatMap.mpr ⟨child, hChild, hMem⟩)

end SplitContainer

end Chatterino.Splits
