import Chatterino.Splits.SplitInserted

/-! # Releasing a split

A released split leaves its siblings where they are. Where only one is left, the parent takes over
its data.
-/

namespace Chatterino.Splits

open Lib RoseTree Node SplitDirection
open NodeType hiding Split

namespace SplitContainer

variable {δ F : Type} {container : SplitContainer δ F} {context : List (Frame (NodeData δ F))}
  {frame : Frame (NodeData δ F)} {node sibling : Node δ F} {data : NodeData δ F} {split : Split δ}
  {result : Position × SplitContainer δ F}

inductive Releases (container : SplitContainer δ F) (node : Node δ F) : Position × SplitContainer δ F → Prop
  | root (hBase : container.baseNode_ = node) : Releases container node
    (⟨none, Right⟩, { container with
      baseNode_ := .node { node.value with type_ := EmptyRoot, split_ := none } node.children })
  | pair (context : List (Frame (NodeData δ F))) (frame : Frame (NodeData δ F)) (sibling : Node δ F)
    (hBase : container.baseNode_ = plug (frame :: context) node)
    (hSiblings : frame.before ++ frame.after = [sibling]) : Releases container node
    (⟨some frame.value.address, sideOf frame.value.type_ frame.before.isEmpty⟩, { container with
      baseNode_ := plug context (.node
        { frame.value with type_ := sibling.value.type_, split_ := sibling.value.split_ }
        (sibling.children.map (setParent frame.value.address))) })
  | last (context : List (Frame (NodeData δ F))) (frame : Frame (NodeData δ F)) (before : List (Node δ F))
    (previous : Node δ F) (hBase : container.baseNode_ = plug (frame :: context) node)
    (hBefore : frame.before = before ++ [previous]) (hAfter : frame.after = [])
    (hMany : 2 ≤ (frame.before ++ frame.after).length) : Releases container node
    (⟨some previous.value.address, sideOf frame.value.type_ false⟩, { container with
      baseNode_ := plug context (.node frame.value (frame.before ++ frame.after)) })
  | inner (context : List (Frame (NodeData δ F))) (frame : Frame (NodeData δ F)) (next : Node δ F)
    (after : List (Node δ F)) (hBase : container.baseNode_ = plug (frame :: context) node)
    (hAfter : frame.after = next :: after) (hMany : 2 ≤ (frame.before ++ frame.after).length) :
    Releases container node
    (⟨some next.value.address, sideOf frame.value.type_ true⟩, { container with
      baseNode_ := plug context (.node frame.value (frame.before ++ frame.after)) })

theorem eraseIdx_length {α : Type} (before after : List α) (middle : α) :
    (before ++ middle :: after).eraseIdx before.length = before ++ after := by
  rw [List.eraseIdx_append_of_length_le (Nat.le_refl _), Nat.sub_self, List.eraseIdx_zero, List.tail_cons]

theorem WellFormed.releaseNode_releases (h : container.WellFormed)
    (hBase : container.baseNode_ = plug context node) :
    Releases container node (container.releaseNode node.value.address) := by
  rw [releaseNode, h.addressed.node?_eq hBase, Option.bind_some]
  cases context with
  | nil =>
    have hParent : node.value.parent_ = none := h.parent_plug hBase rfl
    rw [hParent]
    dsimp only
    rw [h.addressed.update_eq hBase]
    exact .root hBase
  | cons frame context =>
    have hPlug : container.baseNode_ = plug context (frame.fill node) := hBase
    have hIndex : indexOf node.value.address (frame.fill node).children = frame.before.length :=
      indexOf_eq (isAt_iff.mpr rfl) (h.addressed.before hBase)
    have hErase : (frame.fill node).children.eraseIdx frame.before.length = frame.before ++ frame.after :=
      eraseIdx_length frame.before frame.after node
    have hLength : (frame.fill node).children.length = (frame.before ++ frame.after).length + 1 := by
      rw [show (frame.fill node).children = frame.before ++ node :: frame.after from rfl]
      simp only [List.length_append, List.length_cons]
      omega
    have hUpdate := h.addressed.update_eq hPlug
    rw [h.parent_eq hBase]
    dsimp only
    rw [h.parentNode hBase]
    dsimp only
    rw [hIndex, hLength, show frame.value.address = (frame.fill node).value.address from rfl, hUpdate, hUpdate,
      hErase]
    have hSiblings : 2 ≤ (frame.before ++ frame.after).length + 1 := by
      have hLength := (h.frame_sound hBase).container ((h.frame_sound hBase).isContainer
        (List.append_ne_nil_of_right_ne_nil _ (List.cons_ne_nil _ _)))
      simp only [List.length_append, List.length_cons, List.length_map] at hLength ⊢
      omega
    split_ifs with hPair hLast
    · obtain ⟨sibling, hSibling⟩ := List.length_eq_one_iff.mp (Nat.succ.inj hPair)
      have hFirst : decide (frame.before.length = 0) = frame.before.isEmpty := by
        cases frame.before <;> rfl
      rw [hFirst, hSibling]
      exact .pair context frame sibling hBase hSibling
    · have hAfter : frame.after = [] := by
        rw [List.length_append] at hLast
        exact List.length_eq_zero_iff.mp (by omega)
      have hMany : 2 ≤ (frame.before ++ frame.after).length := by omega
      obtain hNil | ⟨before, previous, hBefore⟩ := List.eq_nil_or_concat' frame.before
      · rw [hNil, hAfter] at hMany
        exact absurd hMany (Nat.not_succ_le_zero 1)
      · have hPrevious : (frame.before ++ frame.after).getLast? = some previous := by
          rw [hAfter, hBefore, List.append_nil, List.getLast?_concat]
        rw [hPrevious]
        exact .last context frame before previous hBase hBefore hAfter hMany
    · have hMany : 2 ≤ (frame.before ++ frame.after).length := by omega
      obtain ⟨next, after, hAfter⟩ : ∃ next after, frame.after = next :: after := by
        apply List.exists_cons_of_ne_nil
        intro hNil
        rw [hNil, List.append_nil] at hLast
        exact hLast rfl
      have hNext : (frame.fill node).children[frame.before.length + 1]? = some next := by
        rw [show (frame.fill node).children = frame.before ++ node :: frame.after from rfl, hAfter,
          List.getElem?_append_right (Nat.le_succ _), Nat.succ_sub (Nat.le_refl _), Nat.sub_self]
        rfl
      rw [hNext]
      exact .inner context frame next after hBase hAfter hMany

theorem holds_iff : holds split data = true ↔
    data.type_ = NodeType.Split ∧ data.split_.map Split.address = some split.address := decide_eq_true_iff

theorem WellFormed.leaf_eq (h : container.WellFormed) (hBase : container.baseNode_ = plug context node)
    (hType : node.value.type_ = NodeType.Split) : node.children = [] ∧
      node.splits = node.value.split_.toList := by
  have hNode := h.node_sound hBase
  cases node with
  | node value children =>
    have hChildren : children = [] := List.map_eq_nil_iff.mp ((forall_node.mp hNode).1.leaf hType)
    subst hChildren
    exact ⟨rfl, splits_leaf value⟩

theorem WellFormed.exists_holder (h : container.WellFormed) (hSplit : split ∈ container.splits_) :
    ∃ context, ∃ node : Node δ F, container.baseNode_ = plug context node ∧ node.children = [] ∧
      node.splits = [split] ∧
      container.baseNode_.findNodeContainingSplit split = some node.value.address := by
  obtain ⟨data, hLeaf, hData⟩ := List.mem_filterMap.mp (h.leaves.mem_iff.mpr hSplit)
  have hMem : data ∈ container.baseNode_.toList := mem_toList_of_mem_leaves hLeaf
  obtain ⟨subtree, hSubtree, rfl⟩ := List.mem_map.mp hMem
  have hType : subtree.value.type_ = NodeType.Split :=
    (h.sound subtree hSubtree).split.mpr (hData ▸ rfl)
  have hHolds : holds split subtree.value = true := holds_iff.mpr ⟨hType, by rw [hData]; rfl⟩
  obtain ⟨node, hNode⟩ := Option.isSome_iff_exists.mp (find?_isSome hMem hHolds)
  obtain ⟨context, hBase⟩ := exists_plug_of_find? hNode
  obtain ⟨hNodeType, hAddress⟩ := holds_iff.mp (value_of_find? hNode)
  obtain ⟨held, hHeld, hSame⟩ := Option.map_eq_some_iff.mp hAddress
  obtain ⟨hChildren, hSplits⟩ := h.leaf_eq hBase hNodeType
  rw [hHeld] at hSplits
  have hListed : held ∈ container.splits_ := by
    refine h.leaves.mem_iff.mp ?_
    rw [hBase, splits_plug, hSplits]
    exact List.mem_append_left _ (List.mem_append_right _ List.mem_cons_self)
  have hEq : held = split := List.inj_on_of_nodup_map h.distinct hListed hSplit hSame
  refine ⟨context, node, hBase, hChildren, hEq ▸ hSplits, ?_⟩
  rw [findNodeContainingSplit, hNode]
  rfl

theorem forall_sound_shrink {before after : List (Node δ F)}
    (h : (RoseTree.node data (before ++ node :: after)).Forall Sound) (hMany : 2 ≤ (before ++ after).length) :
    (RoseTree.node data (before ++ after)).Forall Sound := by
  obtain ⟨hRoot, hBelow⟩ := forall_node.mp h
  have hSub {child : Node δ F} (hChild : child ∈ before ++ after) : child ∈ before ++ node :: after := by
    rw [List.mem_append] at hChild
    exact List.mem_append.mpr (hChild.imp_right (List.mem_cons_of_mem _))
  have hSubValue {value : NodeData δ F} (hValue : value ∈ (before ++ after).map RoseTree.value) :
      value ∈ (before ++ node :: after).map RoseTree.value := by
    obtain ⟨child, hChild, rfl⟩ := List.mem_map.mp hValue
    exact List.mem_map_of_mem (hSub hChild)
  have hCons : (before ++ node :: after).map RoseTree.value ≠ [] := by
    rw [List.map_append, List.map_cons]
    exact List.append_ne_nil_of_right_ne_nil _ (List.cons_ne_nil _ _)
  refine forall_node.mpr ⟨⟨hRoot.split, ?_, ?_, ?_, ?_, ?_⟩, fun child hChild => hBelow child (hSub hChild)⟩
  · exact fun hType => absurd (hRoot.leaf hType) hCons
  · exact fun hType => absurd (hRoot.emptyRoot hType) hCons
  · rw [List.length_map]
    exact fun _ => hMany
  · exact fun child hChild => hRoot.parent child (hSubValue hChild)
  · exact fun child hChild => hRoot.inner child (hSubValue hChild)

theorem Releases.sound (hReleases : Releases container node result) (h : container.WellFormed)
    (hNode : node.children = []) : result.2.baseNode_.Forall Sound := by
  cases hReleases with
  | root hBase =>
    rw [hNode]
    refine forall_node.mpr ⟨?_, by rintro _ ⟨⟩⟩
    refine ⟨iff_of_false NodeType.noConfusion Bool.false_ne_true, fun _ => rfl, fun _ => rfl, ?_, ?_, ?_⟩
    · rintro ⟨⟩
    · rintro _ ⟨⟩
    · rintro _ ⟨⟩
  | pair context frame sibling hBase hSiblings =>
    have hPlug : container.baseNode_ = plug context (frame.fill node) := hBase
    have hSibling : sibling ∈ frame.before ++ frame.after := hSiblings ▸ List.mem_cons_self
    have hSound := (forall_fill.mp (h.node_sound hPlug)).2.2 sibling hSibling
    have hBase' := h.sound
    rw [hPlug] at hBase'
    refine hBase'.replace (forall_sound_move hSound rfl rfl) fun _ _ _ hOuter => hOuter.replace rfl ?_
    refine (h.frame_sound hBase).inner sibling.value ?_
    rw [List.mem_append, List.mem_cons, or_left_comm, ← List.mem_append, ← List.map_append]
    exact .inr (List.mem_map_of_mem hSibling)
  | last context frame before previous hBase hBefore hAfter hMany | inner context frame next after hBase hAfter hMany =>
    have hPlug : container.baseNode_ = plug context (frame.fill node) := hBase
    have hBase' := h.sound
    rw [hPlug] at hBase'
    exact hBase'.replace (forall_sound_shrink (h.node_sound hPlug) hMany) fun _ _ _ hSound => hSound

theorem address_erase_subperm (before after : List (Node δ F)) :
    ((RoseTree.node data (before ++ after)).toList.map NodeData.address).Subperm
      ((RoseTree.node data (before ++ node :: after)).toList.map NodeData.address) := by
  refine List.Sublist.subperm (List.Sublist.map _ ?_)
  rw [toList_node, toList_node, List.flatMap_append, List.flatMap_append, List.flatMap_cons]
  exact ((List.sublist_append_right _ _).append_left _).cons_cons _

theorem address_takeOver_subperm (h : sibling ∈ frame.before ++ frame.after) (type : NodeType)
    (split : Option (Split δ)) : ((RoseTree.node { frame.value with type_ := type, split_ := split }
        (sibling.children.map (setParent frame.value.address))).toList.map NodeData.address).Subperm
      ((frame.fill node).toList.map NodeData.address) := by
  have hSibling : (sibling.children.flatMap toList).Sublist ((frame.before ++ frame.after).flatMap toList) := by
    obtain ⟨before, after, hAround⟩ := List.append_of_mem h
    have hBelow : (sibling.children.flatMap toList).Sublist sibling.toList := by
      cases sibling with
      | node value children =>
        rw [toList_node]
        exact List.sublist_cons_self _ _
    rw [hAround, List.flatMap_append, List.flatMap_cons]
    exact (hBelow.trans (List.sublist_append_left _ _)).trans (List.sublist_append_right _ _)
  have hTaken : ((RoseTree.node { frame.value with type_ := type, split_ := split }
        (sibling.children.map (setParent frame.value.address))).toList.map NodeData.address) =
      (RoseTree.node frame.value sibling.children).toList.map NodeData.address := by
    rw [toList_node, toList_node, List.map_cons, address_map_setParent]
    rfl
  have hErased : ((RoseTree.node frame.value (frame.before ++ frame.after)).toList.map NodeData.address).Subperm
      ((frame.fill node).toList.map NodeData.address) := address_erase_subperm frame.before frame.after
  rw [hTaken]
  refine List.Subperm.trans (List.Sublist.subperm (List.Sublist.map _ ?_)) hErased
  rw [toList_node, toList_node]
  exact hSibling.cons_cons _

theorem Releases.addressed (hReleases : Releases container node result) (h : container.WellFormed) :
    result.2.Addressed := by
  have hOld (context : List (Frame (NodeData δ F))) {node node' : Node δ F}
      (hBase : container.baseNode_ = plug context node)
      (hNode : (node'.toList.map NodeData.address).Subperm (node.toList.map NodeData.address)) :
      SplitContainer.Addressed { container with baseNode_ := plug context node' } := by
    have hNext : container.nextAddress = container.nextAddress + 0 := rfl
    refine h.addressed.replace hBase rfl hNext ?_
    rw [List.range'_zero, List.append_nil]
    exact hNode
  cases hReleases with
  | root hBase =>
    refine hOld [] hBase ?_
    cases node with
    | node value children => exact List.Subperm.refl _
  | pair context frame sibling hBase hSiblings =>
    have hSibling : sibling ∈ frame.before ++ frame.after := hSiblings ▸ List.mem_cons_self
    have hPlug : container.baseNode_ = plug context (frame.fill node) := hBase
    exact hOld context hPlug (address_takeOver_subperm hSibling _ _)
  | last context frame before previous hBase hBefore hAfter hMany | inner context frame next after hBase hAfter hMany =>
    have hPlug : container.baseNode_ = plug context (frame.fill node) := hBase
    exact hOld context hPlug (address_erase_subperm _ _)

theorem Releases.root_parent (hReleases : Releases container node result) (h : container.WellFormed) :
    result.2.baseNode_.value.parent_ = none := by
  cases hReleases with
  | root hBase => exact @WellFormed.parent_plug _ _ _ [] h _ _ hBase rfl
  | pair context frame sibling hBase hSiblings | last context frame before sibling hBase hBefore hAfter hMany
  | inner context frame sibling after hBase hAfter hMany =>
    have hPlug : container.baseNode_ = plug context (frame.fill node) := hBase
    exact h.parent_plug hPlug rfl

theorem Releases.splits_eq (hReleases : Releases container node result) (hNode : node.children = [])
    (hSplits : node.splits = [split]) : ∃ before after,
      container.baseNode_.splits = before ++ split :: after ∧ result.2.baseNode_.splits = before ++ after := by
  have hOuter {context : List (Frame (NodeData δ F))} {frame : Frame (NodeData δ F)}
      (hBase : container.baseNode_ = plug (frame :: context) node) : container.baseNode_.splits =
        (splitsBefore context ++ frame.before.flatMap splits) ++ split ::
          (frame.after.flatMap splits ++ splitsAfter context) := by
    rw [hBase, plug_cons, splits_plug, splits_fill, hSplits]
    simp only [List.append_assoc, List.cons_append, List.nil_append]
  have hRest {context : List (Frame (NodeData δ F))} {frame : Frame (NodeData δ F)}
      (hMany : 2 ≤ (frame.before ++ frame.after).length) :
      Node.splits (plug context (.node frame.value (frame.before ++ frame.after))) =
        (splitsBefore context ++ frame.before.flatMap splits) ++
          (frame.after.flatMap splits ++ splitsAfter context) := by
    rw [splits_plug, splits_node, List.flatMap_append]
    · simp only [List.append_assoc]
    · exact List.ne_nil_of_length_pos (Nat.lt_of_lt_of_le Nat.zero_lt_two hMany)
  cases hReleases with
  | root hBase =>
    refine ⟨[], [], ?_, ?_⟩
    · rw [hBase, hSplits]
      rfl
    · rw [hNode, splits_leaf]
      rfl
  | pair context frame sibling hBase hSiblings =>
    refine ⟨_, _, hOuter hBase, ?_⟩
    rw [splits_plug, splits_move]
    · have hSibling : frame.before.flatMap splits ++ frame.after.flatMap splits = sibling.splits := by
        rw [← List.flatMap_append, hSiblings, List.flatMap_singleton]
      rw [← hSibling]
      simp only [List.append_assoc]
    · rfl
  | last context frame before previous hBase hBefore hAfter hMany | inner context frame next after hBase hAfter hMany =>
    exact ⟨_, _, hOuter hBase, hRest hMany⟩

theorem releaseNode_withSplits (splits : List (Split δ)) (address : Address) :
    { container with splits_ := splits }.releaseNode address =
      ((container.releaseNode address).1, { (container.releaseNode address).2 with splits_ := splits }) := by
  have hNode (address : Address) : { container with splits_ := splits }.node? address = container.node? address := rfl
  unfold releaseNode
  rw [hNode]
  cases (container.node? address).bind fun node => node.value.parent_ with
  | none => rfl
  | some parent =>
    dsimp only
    rw [hNode]
    cases container.node? parent with
    | none => rfl
    | some parentNode =>
      dsimp only
      split_ifs <;> rfl

def erase (split : Split δ) (splits : List (Split δ)) : List (Split δ) :=
  splits.eraseP fun other => other.address = split.address

theorem erase_eq {before after : List (Split δ)} (h : ((before ++ split :: after).map Split.address).Nodup) :
    erase split (before ++ split :: after) = before ++ after := by
  have hFirst : (split :: after).eraseP (fun other => other.address = split.address) = after :=
    List.eraseP_cons_of_pos (decide_eq_true rfl)
  rw [erase, List.eraseP_append_right, hFirst]
  intro other hOther hSame
  rw [List.map_append, List.map_cons] at h
  have hDisjoint := (List.nodup_append.mp h).2.2 other.address (List.mem_map_of_mem hOther) split.address
    List.mem_cons_self
  exact hDisjoint (of_decide_eq_true hSame)

theorem Releases.wellFormed (hReleases : Releases container node result) (h : container.WellFormed)
    (hNode : node.children = []) (hSplits : node.splits = [split]) :
    { result.2 with splits_ := erase split container.splits_ }.WellFormed := by
  obtain ⟨before, after, hOld, hNew⟩ := hReleases.splits_eq hNode hSplits
  have hSplit : split ∈ container.splits_ :=
    h.leaves.mem_iff.mp (hOld ▸ List.mem_append_right _ List.mem_cons_self)
  obtain ⟨before', after', hListed⟩ := List.append_of_mem hSplit
  have hDistinct := h.distinct
  rw [hListed] at hDistinct
  have hErased : erase split container.splits_ = before' ++ after' := by
    rw [hListed]
    exact erase_eq hDistinct
  have hAddressed := hReleases.addressed h
  refine ⟨hReleases.sound h hNode, hReleases.root_parent h, ⟨hAddressed.nodup, hAddressed.fresh⟩, ?_, ?_⟩
  · have hLeaves := h.leaves
    rw [hOld, hListed] at hLeaves
    have hPerm : (split :: (before ++ after)).Perm (split :: (before' ++ after')) :=
      List.perm_middle.symm.trans (hLeaves.trans List.perm_middle)
    rw [hErased]
    exact hNew ▸ hPerm.cons_inv
  · rw [hErased]
    exact hDistinct.sublist (((List.sublist_cons_self _ _).append_left _).map _)

section

variable [Flex F]

theorem WellFormed.exists_releases (h : container.WellFormed) (hSplit : split ∈ container.splits_) :
    ∃ context, ∃ node : Node δ F, ∃ result, container.baseNode_ = plug context node ∧ node.children = [] ∧
      node.splits = [split] ∧ container.baseNode_.findNodeContainingSplit split = some node.value.address ∧
      Releases container node result ∧ container.releaseSplit split =
        (result.1, { result.2 with splits_ := erase split container.splits_ }.layout) := by
  obtain ⟨context, node, hBase, hChildren, hSplits, hFound⟩ := h.exists_holder hSplit
  refine ⟨context, node, _, hBase, hChildren, hSplits, hFound, h.releaseNode_releases hBase, ?_⟩
  rw [releaseSplit, hFound]
  dsimp only
  rw [releaseNode_withSplits]
  rfl

theorem WellFormed.releaseSplit (h : container.WellFormed) (hSplit : split ∈ container.splits_) :
    (container.releaseSplit split).2.WellFormed := by
  obtain ⟨context, node, result, -, hChildren, hSplits, -, hReleases, hRelease⟩ := h.exists_releases hSplit
  rw [hRelease]
  exact (hReleases.wellFormed h hChildren hSplits).layout

end

end SplitContainer

end Chatterino.Splits
