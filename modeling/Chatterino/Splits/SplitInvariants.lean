import Chatterino.Splits.SplitContainer

/-! # Well-formed containers

What holds of the tree in every state: which nodes have a split, which have children, and where the
parent pointers point.
-/

namespace Chatterino.Splits

open Lib RoseTree Node SplitDirection
open NodeType hiding Split

variable {δ F : Type} {container : SplitContainer δ F} {context : List (Frame (NodeData δ F))}
  {frame : Frame (NodeData δ F)} {node : Node δ F} {data data' : NodeData δ F}
  {children children' : List (NodeData δ F)}

structure Sound (data : NodeData δ F) (children : List (NodeData δ F)) : Prop where
  split : data.type_ = NodeType.Split ↔ data.split_.isSome
  leaf : data.type_ = NodeType.Split → children = []
  emptyRoot : data.type_ = EmptyRoot → children = []
  container : data.type_.isContainer → 2 ≤ children.length
  parent : ∀ child ∈ children, child.parent_ = some data.address
  inner : ∀ child ∈ children, child.type_ ≠ EmptyRoot

def Node.splits (node : Node δ F) : List (Split δ) := node.leaves.filterMap NodeData.split_

namespace SplitContainer

structure WellFormed (container : SplitContainer δ F) : Prop where
  sound : container.baseNode_.Forall Sound
  root : container.baseNode_.value.parent_ = none
  addressed : container.Addressed
  leaves : container.baseNode_.splits.Perm container.splits_
  distinct : (container.splits_.map Split.address).Nodup

theorem WellFormed.parent_plug (h : container.WellFormed) {node node' : Node δ F}
    (hBase : container.baseNode_ = plug context node) (hParent : node'.value.parent_ = node.value.parent_) :
    (plug context node').value.parent_ = none := by
  have hRoot := h.root
  rw [hBase] at hRoot
  exact (value_plug_congr hParent context).trans hRoot

end SplitContainer

namespace Sound

theorem isContainer (h : Sound data children) (hChildren : children ≠ []) : data.type_.isContainer := by
  cases hType : data.type_ with
  | EmptyRoot => exact absurd (h.emptyRoot hType) hChildren
  | Split => exact absurd (h.leaf hType) hChildren
  | VerticalContainer => rfl
  | HorizontalContainer => rfl

theorem insert {before after : List (NodeData δ F)} (h : Sound data (before ++ after))
    (hContainer : data.type_.isContainer) (hParent : data'.parent_ = some data.address)
    (hType : data'.type_ ≠ EmptyRoot) : Sound data (before ++ data' :: after) := by
  have hMem {child : NodeData δ F} (hChild : child ∈ before ++ data' :: after) :
      child = data' ∨ child ∈ before ++ after := by
    rw [List.mem_append, List.mem_cons, or_left_comm, ← List.mem_append] at hChild
    exact hChild
  constructor
  · exact h.split
  · intro hSplit
    rw [hSplit] at hContainer
    cases hContainer
  · intro hEmpty
    rw [hEmpty] at hContainer
    cases hContainer
  · intro _
    have hLength := h.container hContainer
    rw [List.length_append] at hLength
    rw [List.length_append, List.length_cons]
    omega
  · intro child hChild
    rcases hMem hChild with rfl | hOld
    · exact hParent
    · exact h.parent child hOld
  · intro child hChild
    rcases hMem hChild with rfl | hOld
    · exact hType
    · exact h.inner child hOld

theorem move (h : Sound data children) (hType : data'.type_ = data.type_)
    (hSplit : data'.split_ = data.split_) :
    Sound data' (children.map fun child => { child with parent_ := some data'.address }) := by
  constructor
  · rw [hType, hSplit]
    exact h.split
  · rw [hType, List.map_eq_nil_iff]
    exact h.leaf
  · rw [hType, List.map_eq_nil_iff]
    exact h.emptyRoot
  · rw [hType, List.length_map]
    exact h.container
  · rintro child hChild
    obtain ⟨old, -, rfl⟩ := List.mem_map.mp hChild
    rfl
  · rintro child hChild
    obtain ⟨old, hOld, rfl⟩ := List.mem_map.mp hChild
    exact h.inner old hOld

theorem ofSplit {split : Split δ} (hType : data.type_ = NodeType.Split) (hSplit : data.split_ = some split) :
    Sound data [] := by
  have hOther {type : NodeType} (hNe : NodeType.Split ≠ type) : data.type_ ≠ type := hType ▸ hNe
  refine ⟨iff_of_true hType (hSplit ▸ rfl), fun _ => rfl, fun _ => rfl, ?_, ?_, ?_⟩
  · rw [hType]
    rintro ⟨⟩
  · rintro _ ⟨⟩
  · rintro _ ⟨⟩

end Sound

theorem forall_sound_setParent {parent : Address} :
    (setParent parent node).Forall Sound ↔ node.Forall Sound := by
  cases node with
  | node data children =>
    rw [setParent, forall_node, forall_node]
    refine and_congr ?_ Iff.rfl
    exact ⟨fun h => ⟨h.split, h.leaf, h.emptyRoot, h.container, h.parent, h.inner⟩,
      fun h => ⟨h.split, h.leaf, h.emptyRoot, h.container, h.parent, h.inner⟩⟩

theorem forall_sound_move {data : NodeData δ F} (h : node.Forall Sound)
    (hType : data.type_ = node.value.type_) (hSplit : data.split_ = node.value.split_) :
    (RoseTree.node data (node.children.map (setParent data.address))).Forall Sound := by
  cases node with
  | node value children =>
    obtain ⟨hRoot, hBelow⟩ := forall_node.mp h
    refine forall_node.mpr ⟨?_, fun child hChild => ?_⟩
    · have hMove : Sound data ((children.map RoseTree.value).map fun child =>
          { child with parent_ := some data.address }) := hRoot.move hType hSplit
      rw [List.map_map] at hMove
      rw [List.map_map]
      exact hMove
    · obtain ⟨old, hOld, rfl⟩ := List.mem_map.mp hChild
      exact forall_sound_setParent.mpr (hBelow old hOld)

theorem splits_leaf (data : NodeData δ F) : Node.splits (.node data []) = data.split_.toList := by
  rw [splits, leaves_node_nil]
  cases hSplit : data.split_ <;> simp [hSplit]

theorem splits_node {nodes : List (Node δ F)} (data : NodeData δ F) (h : nodes ≠ []) :
    Node.splits (.node data nodes) = nodes.flatMap splits := by
  rw [splits, leaves_node data h, List.filterMap_flatMap]
  rfl

def splitsBefore (context : List (Frame (NodeData δ F))) : List (Split δ) :=
  (leavesBefore context).filterMap NodeData.split_

def splitsAfter (context : List (Frame (NodeData δ F))) : List (Split δ) :=
  (leavesAfter context).filterMap NodeData.split_

theorem splits_plug (context : List (Frame (NodeData δ F))) (node : Node δ F) :
    Node.splits (plug context node) = splitsBefore context ++ node.splits ++ splitsAfter context := by
  rw [splits, leaves_plug, List.filterMap_append, List.filterMap_append]
  rfl

theorem splits_setParent (parent : Address) (node : Node δ F) : (setParent parent node).splits = node.splits := by
  cases node with
  | node data children =>
    cases children with
    | nil => exact (splits_leaf _).trans (splits_leaf _).symm
    | cons child children =>
      exact (splits_node _ (List.cons_ne_nil _ _)).trans (splits_node _ (List.cons_ne_nil _ _)).symm

theorem splits_move {data : NodeData δ F} (parent : Address) (hSplit : data.split_ = node.value.split_) :
    Node.splits (.node data (node.children.map (setParent parent))) = node.splits := by
  cases node with
  | node value children =>
    cases children with
    | nil => exact (splits_leaf _).trans ((congrArg Option.toList hSplit).trans (splits_leaf _).symm)
    | cons child children =>
      rw [splits_node value (List.cons_ne_nil _ _), splits_node, children_node, List.flatMap_map]
      · exact List.flatMap_congr fun node _ => splits_setParent parent node
      · exact List.cons_ne_nil _ _

def NodeData.bare (data : NodeData δ F) : Address × NodeType × Option (Split δ) × Option Address :=
  (data.address, data.type_, data.split_, data.parent_)

theorem bare_eq_iff : data.bare = data'.bare ↔ data.address = data'.address ∧ data.type_ = data'.type_ ∧
    data.split_ = data'.split_ ∧ data.parent_ = data'.parent_ := by
  simp only [NodeData.bare, Prod.mk.injEq]

theorem Sound.congr (hData : data.bare = data'.bare)
    (hChildren : children.map NodeData.bare = children'.map NodeData.bare) (h : Sound data children) :
    Sound data' children' := by
  obtain ⟨hAddress, hType, hSplit, -⟩ := bare_eq_iff.mp hData
  have hLength : children'.length = children.length := by
    rw [← List.length_map NodeData.bare, ← hChildren, List.length_map]
  have hMem {child' : NodeData δ F} (hChild : child' ∈ children') :
      ∃ child ∈ children, child.bare = child'.bare :=
    List.mem_map.mp (hChildren ▸ List.mem_map_of_mem hChild)
  have hEmpty (hNil : children = []) : children' = [] := by
    rw [hNil] at hLength
    exact List.length_eq_zero_iff.mp hLength
  constructor
  · rw [← hType, ← hSplit]
    exact h.split
  · rw [← hType]
    exact fun hSplit => hEmpty (h.leaf hSplit)
  · rw [← hType]
    exact fun hRoot => hEmpty (h.emptyRoot hRoot)
  · rw [← hType, hLength]
    exact h.container
  · intro child' hChild'
    obtain ⟨child, hChild, hBare⟩ := hMem hChild'
    rw [← (bare_eq_iff.mp hBare).2.2.2, ← hAddress]
    exact h.parent child hChild
  · intro child' hChild'
    obtain ⟨child, hChild, hBare⟩ := hMem hChild'
    rw [← (bare_eq_iff.mp hBare).2.1]
    exact h.inner child hChild

theorem bare_value {node' : Node δ F} (h : node'.map NodeData.bare = node.map NodeData.bare) :
    node'.value.bare = node.value.bare := by
  have hValue := congrArg RoseTree.value h
  rw [value_map, value_map] at hValue
  exact hValue

theorem splits_of_bare {node' : Node δ F} (h : node'.map NodeData.bare = node.map NodeData.bare) :
    node'.splits = node.splits := by
  have hSplits (node : Node δ F) : node.splits = (node.map NodeData.bare).leaves.filterMap fun bare => bare.2.2.1 := by
    rw [leaves_map, List.filterMap_map]
    rfl
  rw [hSplits, h, ← hSplits]

theorem address_of_bare {node' : Node δ F} (h : node'.map NodeData.bare = node.map NodeData.bare) :
    node'.toList.map NodeData.address = node.toList.map NodeData.address := by
  have hAddresses (node : Node δ F) : node.toList.map NodeData.address =
      (node.map NodeData.bare).toList.map Prod.fst := by
    rw [toList_map, List.map_map]
    rfl
  rw [hAddresses, h, ← hAddresses]

theorem SplitContainer.WellFormed.of_bare (h : container.WellFormed)
    (hBare : node.map NodeData.bare = container.baseNode_.map NodeData.bare) :
    { container with baseNode_ := node }.WellFormed := by
  constructor
  · exact Forall.of_map_eq Sound.congr hBare.symm h.sound
  · exact (bare_eq_iff.mp (bare_value hBare)).2.2.2.trans h.root
  · constructor
    · exact (address_of_bare hBare).symm ▸ h.addressed.nodup
    · intro data hData
      have hAddress : data.address ∈ container.baseNode_.toList.map NodeData.address :=
        address_of_bare hBare ▸ List.mem_map_of_mem hData
      obtain ⟨old, hOld, hSame⟩ := List.mem_map.mp hAddress
      exact hSame ▸ h.addressed.fresh old hOld
  · exact (splits_of_bare hBare).symm ▸ h.leaves
  · exact h.distinct

section

variable [Flex F]

theorem layoutChildren_eq (type : NodeType) (children : List (NodeData δ F)) :
    ∃ change : NodeData δ F → NodeData δ F, (∀ data, (change data).bare = data.bare) ∧
      layoutChildren type children = children.map change := by
  have hNormalize (isVertical : Bool) (totalFlex : F) (count : Nat) (data : NodeData δ F) :
      (normalizeFlex isVertical totalFlex count data).bare = data.bare := by
    unfold normalizeFlex
    split_ifs <;> rfl
  unfold layoutChildren
  dsimp only
  split_ifs
  · rw [List.map_map]
    exact ⟨_, fun data => hNormalize _ _ _ (clamp data), rfl⟩
  · exact ⟨clamp, fun _ => rfl, rfl⟩

theorem layout_node (data : NodeData δ F) (nodes : List (Node δ F)) :
    ∃ change : NodeData δ F → NodeData δ F, (∀ data, (change data).bare = data.bare) ∧
      Node.layout (.node data nodes) = .node data (nodes.map fun node =>
        .node (change (Node.layout node).value) (Node.layout node).children) := by
  obtain ⟨change, hBare, hLayout⟩ :=
    layoutChildren_eq data.type_ (nodes.map fun node => (Node.layout node).value)
  refine ⟨change, hBare, ?_⟩
  rw [Node.layout, para_node, ← Node.layout]
  dsimp only
  rw [List.map_map, Function.comp_def]
  dsimp only
  rw [hLayout, List.map_map, List.zipWith_map, List.zipWith_self]
  rfl

theorem map_bare_layout (node : Node δ F) : (Node.layout node).map NodeData.bare = node.map NodeData.bare := by
  induction node using RoseTree.induction with
  | node data nodes ih =>
    obtain ⟨change, hBare, hLayout⟩ := layout_node data nodes
    rw [hLayout, map_node, map_node, List.map_map]
    refine congrArg _ (List.map_congr_left fun node hNode => ?_)
    rw [← ih node hNode, Function.comp_apply, map_node, hBare]
    cases Node.layout node with
    | node value children => exact (map_node _ _ _).symm

theorem splits_layout (node : Node δ F) : (Node.layout node).splits = node.splits :=
  splits_of_bare (map_bare_layout node)

theorem SplitContainer.WellFormed.layout (h : container.WellFormed) : container.layout.WellFormed := by
  unfold SplitContainer.layout
  split_ifs
  · exact h
  · exact h.of_bare (map_bare_layout container.baseNode_)

end

end Chatterino.Splits
