import Chatterino.Splits.SplitRuns
import Chatterino.Splits.SplitSaving

/-! # Laying out again

The layout reads the types and the flex values of the nodes only. It changes nothing where it has
left the children of every node as they are.
-/

namespace Chatterino.Splits

open Lib RoseTree Node
open NodeType hiding Split

variable {δ F : Type} {node node' : Node δ F}

namespace NodeData

def ofShape (shape : NodeType × F × F) : NodeData δ F := ⟨0, shape.1, none, none, shape.2.1, shape.2.2⟩

def bareAndShape (data : NodeData δ F) : (Address × NodeType × Option (Split δ) × Option Address) × NodeType × F × F :=
  (data.bare, data.shape)

theorem bareAndShape_injective : Function.Injective (bareAndShape : NodeData δ F → _) := by
  rintro ⟨address, type, split, parent, flexH, flexV⟩ ⟨address', type', split', parent', flexH', flexV'⟩ hSame
  cases hSame
  rfl

end NodeData

variable [Flex F]

def LaidOut (data : NodeData δ F) (children : List (NodeData δ F)) : Prop :=
  layoutChildren data.type_ children = children

theorem value_layout (node : Node δ F) : (Node.layout node).value = node.value := by
  cases node with
  | node data nodes =>
    obtain ⟨change, -, hLayout⟩ := layout_node data nodes
    rw [hLayout]
    rfl

theorem layout_node_eq (data : NodeData δ F) (nodes : List (Node δ F)) : Node.layout (.node data nodes) =
    .node data (List.zipWith (fun value node => .node value (Node.layout node).children)
      (layoutChildren data.type_ (nodes.map RoseTree.value)) nodes) := by
  rw [Node.layout, para_node, ← Node.layout]
  dsimp only
  rw [List.map_map, Function.comp_def]
  simp only [value_layout, List.zipWith_map_right]

theorem layout_eq_self_iff_children (node : Node δ F) :
    Node.layout node = node ↔ (Node.layout node).children = node.children := by
  have hValue := value_layout node
  constructor
  · exact fun hSame => congrArg RoseTree.children hSame
  · intro hChildren
    cases hLayout : Node.layout node with
    | node value children =>
      cases node with
      | node value' children' =>
        rw [hLayout] at hValue hChildren
        exact congrArg₂ RoseTree.node hValue hChildren

theorem layout_eq_self_iff : Node.layout node = node ↔ node.Forall LaidOut := by
  induction node using RoseTree.induction with
  | node data nodes ih =>
    obtain ⟨change, -, hChange⟩ := layoutChildren_eq data.type_ (nodes.map RoseTree.value)
    have hNode (child : Node δ F) : RoseTree.node (change child.value) (Node.layout child).children = child ↔
        change child.value = child.value ∧ Node.layout child = child := by
      rw [layout_eq_self_iff_children]
      cases child with
      | node value children => exact RoseTree.node.injEq _ _ _ _ ▸ Iff.rfl
    rw [layout_node_eq, forall_node, LaidOut, hChange, List.map_map, List.zipWith_map_left, List.zipWith_self,
      RoseTree.node.injEq, and_iff_right rfl, List.map_inj_left]
    have hList : nodes.map (fun child => RoseTree.node (change child.value) (Node.layout child).children) = nodes ↔
        ∀ child ∈ nodes, change child.value = child.value ∧ Node.layout child = child := by
      have hSame : nodes.map (fun child => RoseTree.node (change child.value) (Node.layout child).children) =
          nodes.map id ↔ _ := List.map_inj_left
      rw [List.map_id] at hSame
      exact hSame.trans (forall₂_congr fun child _ => hNode child)
    refine hList.trans ?_
    rw [← forall₂_and]
    refine forall₂_congr fun child hChild => ?_
    rw [ih child hChild]
    rfl

def canonical (data : NodeData δ F) : NodeData δ F := NodeData.ofShape data.shape

theorem layoutChildren_canonical (type : NodeType) (children : List (NodeData δ F)) :
    layoutChildren type (children.map canonical) = (layoutChildren type children).map canonical := by
  have hNormalize (isVertical : Bool) (totalFlex : F) (count : Nat) (data : NodeData δ F) :
      normalizeFlex isVertical totalFlex count (clamp (canonical data)) =
        canonical (normalizeFlex isVertical totalFlex count (clamp data)) := by
    cases isVertical <;> rfl
  have hTotal (isVertical : Bool) : getChildrensTotalFlex isVertical ((children.map canonical).map clamp) =
      getChildrensTotalFlex isVertical (children.map clamp) := by
    unfold getChildrensTotalFlex
    rw [List.map_map, List.foldl_map, List.foldl_map]
    rfl
  unfold layoutChildren
  dsimp only
  split_ifs
  · rw [hTotal]
    simp only [List.map_map, List.length_map, Function.comp_def, hNormalize]
  · simp only [List.map_map]
    rfl

theorem layout_canonical (node : Node δ F) : Node.layout (node.map canonical) = (Node.layout node).map canonical := by
  induction node using RoseTree.induction with
  | node data nodes ih =>
    have hChildren (tree : Node δ F) : (tree.map canonical).children = tree.children.map (RoseTree.map canonical) := by
      cases tree with
      | node value children => rw [map_node, children_node, children_node]
    have hValues : (nodes.map (RoseTree.map canonical)).map RoseTree.value =
        (nodes.map RoseTree.value).map (canonical : NodeData δ F → NodeData δ F) := by
      rw [List.map_map, List.map_map]
      exact List.map_congr_left fun child _ => value_map canonical child
    obtain ⟨change, -, hChange⟩ := layoutChildren_eq data.type_ (nodes.map RoseTree.value)
    have hLaidOut : layoutChildren (canonical data).type_ ((nodes.map RoseTree.value).map canonical) =
        nodes.map fun child => canonical (change child.value) := by
      rw [layoutChildren_canonical]
      refine (congrArg (List.map canonical) hChange).trans ?_
      rw [List.map_map, List.map_map]
      rfl
    rw [map_node, layout_node_eq, layout_node_eq, map_node, hValues, hLaidOut, hChange, List.zipWith_map,
      List.zipWith_self, List.map_map, List.zipWith_map_left, List.zipWith_self, List.map_map]
    refine congrArg _ (List.map_congr_left fun child hChild => ?_)
    rw [Function.comp_apply, map_node, ih child hChild, hChildren]
    rfl

theorem shape_layout_congr (h : node.map NodeData.shape = node'.map NodeData.shape) :
    (Node.layout node).map NodeData.shape = (Node.layout node').map NodeData.shape := by
  have hCanonical (node : Node δ F) : node.map canonical = (node.map NodeData.shape).map NodeData.ofShape :=
    (map_map _ _ node).symm
  have hShape (node : Node δ F) : node.map NodeData.shape = (node.map canonical).map NodeData.shape :=
    (map_map canonical NodeData.shape node).symm
  rw [hShape, ← layout_canonical, hCanonical, h, ← hCanonical, layout_canonical, ← hShape]

theorem shape_layout_iff :
    (Node.layout node).map NodeData.shape = node.map NodeData.shape ↔ node.Forall LaidOut := by
  rw [← layout_eq_self_iff]
  constructor
  · intro hShape
    have hBoth : (Node.layout node).map NodeData.bareAndShape = node.map NodeData.bareAndShape :=
      map_pair_eq_iff.mpr ⟨map_bare_layout node, hShape⟩
    exact map_injective NodeData.bareAndShape_injective hBoth
  · intro hSame
    rw [hSame]

theorem map_shown?_layout (node : Node δ F) :
    (Node.layout node).map NodeData.shown? = node.map NodeData.shown? := by
  let shown (bare : Address × NodeType × Option (Split δ) × Option Address) := bare.2.2.1.map Split.shown
  have hShown (node : Node δ F) : node.map NodeData.shown? = (node.map NodeData.bare).map shown :=
    (map_map NodeData.bare shown node).symm
  rw [hShown, map_bare_layout, ← hShown]

end Chatterino.Splits

namespace Chatterino.Splits

open Lib RoseTree Node
open NodeType hiding Split

namespace SplitContainer

variable {σ δ F W : Type} [Flex F] {node : Node δ F} {save : δ → σ} {opens : σ → W → δ × W}
  {valid : W → Prop} {restorable : δ → Prop}

def opening : SplitContainer δ F := { (empty : SplitContainer δ F) with disableLayouting_ := true }

variable (opens)

theorem applyFromDescriptorRecursively_split (descriptor : σ) (flexH flexV : F) (world : W) :
    (applyFromDescriptorRecursively opens (.split descriptor flexH flexV) 0 (opening, world)).1.baseNode_ =
        .node ⟨0, NodeType.Split, some ⟨1, (opens descriptor world).1⟩, none, 1, 1⟩ [] ∧
      (applyFromDescriptorRecursively opens (.split descriptor flexH flexV) 0 (opening (F := F), world)).2 =
        (opens descriptor world).2 := ⟨rfl, rfl⟩

theorem applyFromDescriptorRecursively_container (flexH flexV : F) (vertical : Bool)
    (items : List (NodeDescriptor σ F)) (world : W) :
    (applyFromDescriptorRecursively opens (.container flexH flexV vertical items) 0 (opening, world)).1.baseNode_ =
        .node ⟨0, containerType vertical, none, none, 1, 1⟩ (buildAll opens 0 items (1, world)).1 ∧
      (applyFromDescriptorRecursively opens (.container flexH flexV vertical items) 0
        (opening (δ := δ) (F := F), world)).2 = (buildAll (δ := δ) opens 0 items (1, world)).2.2 := by
  rw [opening, applyFromDescriptorRecursively_eq]
  exact ⟨rfl, rfl⟩

variable {opens}

theorem rebuilds_root (h : node.Forall Sound) (hType : node.value.type_ ≠ EmptyRoot)
    (hFlex : node.value.flexH_ = 1 ∧ node.value.flexV_ = 1)
    (hReopens : ∀ split ∈ node.splits, Reopens save opens valid restorable split.shown) {world : W}
    (hValid : valid world) : Rebuilds valid restorable [node]
      [(applyFromDescriptorRecursively opens (describe save node) 0 (opening, world)).1.baseNode_]
      (applyFromDescriptorRecursively opens (describe save node) 0 (opening (δ := δ) (F := F), world)).2 := by
  cases node with
  | node data children =>
    obtain ⟨hData, hBelow⟩ := forall_node.mp h
    cases hSplit : data.split_ with
    | some split =>
      obtain ⟨hLeaf, rfl⟩ := Sound.leaf_eq hData hSplit
      have hSplits : Node.splits (.node data []) = [split] := (splits_leaf data).trans (hSplit ▸ rfl)
      rw [hSplits, List.forall_mem_singleton] at hReopens
      obtain ⟨hShown, hNext⟩ := hReopens world hValid
      obtain ⟨hLoaded, hWorld⟩ := applyFromDescriptorRecursively_split opens (save split.shown) data.flexH_
        data.flexV_ world
      rw [describe_split save hSplit, hLoaded, hWorld]
      refine rebuilds_leaf hSplit ?_ ?_ hNext
      · have hFlexH : data.flexH_ = 1 := hFlex.1
        have hFlexV : data.flexV_ = 1 := hFlex.2
        rw [NodeData.shape, NodeData.shape, hLeaf, hFlexH, hFlexV]
      · rw [← hShown]
        exact Option.some_inj
    | none =>
      obtain ⟨hLoaded, hWorld⟩ := applyFromDescriptorRecursively_container opens data.flexH_ data.flexV_
        (data.type_ = VerticalContainer) (children.map (describe save)) world
      have hChildren := buildAll_describe h hSplit hReopens 0 (1, world) hValid
      rw [describe_container save hSplit, hLoaded, hWorld]
      refine rebuilds_container hSplit ?_ rfl hChildren
      have hFlexH : data.flexH_ = 1 := hFlex.1
      have hFlexV : data.flexV_ = 1 := hFlex.2
      rw [NodeData.shape, NodeData.shape, containerType_eq (hData.isContainer_of_none hSplit hType), hFlexH, hFlexV]

theorem visible_applyFromDescriptor_iff (h : node.Forall Sound) (hType : node.value.type_ ≠ EmptyRoot)
    (hFlex : node.value.flexH_ = 1 ∧ node.value.flexV_ = 1)
    (hReopens : ∀ split ∈ node.splits, Reopens save opens valid restorable split.shown) {world : W}
    (hValid : valid world) :
    (applyFromDescriptor opens (describe save node) (empty, world)).1.baseNode_.map NodeData.visible =
        node.map NodeData.visible ↔
      node.Forall LaidOut ∧ ∀ split ∈ node.splits, restorable split.shown := by
  have hRebuilds := rebuilds_root h hType hFlex hReopens hValid
  have hShape := hRebuilds.shape
  have hShown := hRebuilds.shown?
  rw [List.map_singleton, List.map_singleton, List.singleton_inj] at hShape hShown
  rw [List.flatMap_singleton] at hShown
  have hLoaded : (applyFromDescriptor opens (describe save node) ((empty : SplitContainer δ F), world)).1.baseNode_ =
    Node.layout (applyFromDescriptorRecursively opens (describe save node) 0 (opening, world)).1.baseNode_ := rfl
  rw [hLoaded]
  refine map_pair_eq_iff.trans (and_congr ?_ ?_)
  · rw [shape_layout_congr hShape]
    exact shape_layout_iff
  · rw [map_shown?_layout]
    exact hShown

variable (restorable) in
theorem visible_emptyRoot_iff (h : node.Forall Sound) (hType : node.value.type_ = EmptyRoot)
    (hFlex : node.value.flexH_ = 1 ∧ node.value.flexV_ = 1) :
    (empty : SplitContainer δ F).baseNode_.map NodeData.visible = node.map NodeData.visible ↔
      node.Forall LaidOut ∧ ∀ split ∈ node.splits, restorable split.shown := by
  cases node with
  | node data children =>
    obtain ⟨hData, -⟩ := forall_node.mp h
    obtain rfl : children = [] := List.map_eq_nil_iff.mp (hData.emptyRoot hType)
    have hEmpty : data.type_ = EmptyRoot := hType
    have hSplit : data.split_ = none := by
      rw [← Option.not_isSome_iff_eq_none, ← hData.split, hEmpty]
      exact NodeType.noConfusion
    have hVisible : data.visible = ((EmptyRoot, 1, 1), none) := by
      have hFlexH : data.flexH_ = 1 := hFlex.1
      have hFlexV : data.flexV_ = 1 := hFlex.2
      rw [NodeData.visible, NodeData.shape, NodeData.shown?, hEmpty, hSplit, hFlexH, hFlexV]
      rfl
    refine iff_of_true ?_ ⟨forall_node.mpr ⟨?_, by rintro _ ⟨⟩⟩, ?_⟩
    · rw [map_node, hVisible]
      rfl
    · rw [LaidOut, hEmpty]
      rfl
    · rw [splits_leaf, hSplit]
      rintro _ ⟨⟩

end SplitContainer

end Chatterino.Splits
