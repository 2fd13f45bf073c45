import Chatterino.Splits.SplitTabs
import Mathlib.Algebra.BigOperators.Ring.List
import Mathlib.Algebra.Order.BigOperators.Group.List
import Mathlib.Tactic.FieldSimp
import Mathlib.Tactic.Linarith

/-! # Flex values in exact arithmetic

A container was laid out exactly if the flex values of its children are shares of their number.
-/

namespace Chatterino.Splits

open Lib RoseTree Node
open NodeType hiding Split

section Rational

variable {δ : Type} {data : NodeData δ Rat} {children : List (NodeData δ Rat)}

theorem clamp_eq_self_iff {child : NodeData δ Rat} : clamp child = child ↔ 0 ≤ child.flexH_ ∧ 0 ≤ child.flexV_ := by
  obtain ⟨address, type, split, parent, flexH, flexV⟩ := child
  simp only [clamp, NodeData.mk.injEq, true_and, max_eq_right_iff]

theorem getChildrensTotalFlex_eq (isVertical : Bool) (children : List (NodeData δ Rat)) :
    getChildrensTotalFlex isVertical children = (children.map (getFlex isVertical)).sum := by
  rw [getChildrensTotalFlex, List.sum_eq_foldl, List.foldl_map]

theorem normalizeFlex_eq_self_iff (isVertical : Bool) (totalFlex : Rat) (count : Nat) {child : NodeData δ Rat} :
    normalizeFlex isVertical totalFlex count (clamp child) = child ↔
      max 0 (getFlex isVertical child) / totalFlex * count = getFlex isVertical child ∧
        getFlex (!isVertical) child = 1 := by
  obtain ⟨address, type, split, parent, flexH, flexV⟩ := child
  cases isVertical
  · simp only [normalizeFlex, clamp, getFlex, Bool.false_eq_true, if_false, NodeData.mk.injEq, true_and,
      Bool.not_false, if_true]
    exact and_congr_right fun _ => eq_comm
  · simp only [normalizeFlex, clamp, getFlex, if_true, NodeData.mk.injEq, true_and, Bool.not_true,
      Bool.false_eq_true, if_false]
    exact and_comm.trans (and_congr_right fun _ => eq_comm)

theorem share_eq_self_iff (flexes : List Rat) :
    (∀ flex ∈ flexes, max 0 flex / max Flex.tiny (flexes.map (max 0)).sum * flexes.length = flex) ↔
      (∀ flex ∈ flexes, 0 ≤ flex) ∧ (flexes.sum = flexes.length ∨ flexes.sum = 0) := by
  have hTiny : (Flex.tiny : Rat) = 1 / 10000 := rfl
  have hTotal (hNonneg : ∀ flex ∈ flexes, 0 ≤ flex) : (flexes.map (max 0)).sum = flexes.sum := by
    refine congrArg List.sum ((List.map_congr_left fun flex hFlex => ?_).trans (List.map_id _))
    exact max_eq_right (hNonneg flex hFlex)
  generalize hT : max Flex.tiny (flexes.map (max 0)).sum = total
  have hPos : 0 < total := hT ▸ lt_max_of_lt_left (by rw [hTiny]; norm_num)
  constructor
  · intro hSame
    have hNonneg : ∀ flex ∈ flexes, 0 ≤ flex := by
      intro flex hFlex
      rw [← hSame flex hFlex]
      exact mul_nonneg (div_nonneg (le_max_left _ _) hPos.le) (Nat.cast_nonneg _)
    refine ⟨hNonneg, ?_⟩
    have hShares : (flexes.map fun flex => id flex * (flexes.length / total)).sum = (flexes.map id).sum := by
      refine congrArg List.sum (List.map_congr_left fun flex hFlex => ?_)
      have hOne := hSame flex hFlex
      rw [max_eq_right (hNonneg flex hFlex)] at hOne
      rw [id, ← mul_div_assoc, mul_div_right_comm, hOne]
    rw [List.sum_map_mul_right, List.map_id] at hShares
    by_cases hZero : flexes.sum = 0
    · exact .inr hZero
    · have hCount : (flexes.length : Rat) = total :=
        (div_eq_one_iff_eq hPos.ne').mp ((mul_eq_left₀ hZero).mp hShares)
      have hMany : (1 : Rat) ≤ flexes.length := by
        rw [← hCount, Nat.cast_pos] at hPos
        exact Nat.one_le_cast.mpr hPos
      rw [hTotal hNonneg, hTiny] at hT
      rcases max_choice (1 / 10000) flexes.sum with hMax | hMax
      · rw [hMax] at hT
        linarith
      · exact .inl (by rw [hCount, ← hT, hMax])
  · rintro ⟨hNonneg, hSum⟩ flex hFlex
    rw [max_eq_right (hNonneg flex hFlex)]
    rw [hTotal hNonneg] at hT
    obtain hSum | hSum := hSum
    · have hMany : (1 : Rat) ≤ flexes.length :=
        Nat.one_le_cast.mpr (List.length_pos_of_mem hFlex)
      have hCount : total = flexes.length := by
        rw [← hT, hSum, max_eq_right]
        rw [hTiny]
        linarith
      rw [← hCount, div_mul_cancel₀ _ hPos.ne']
    · have hZero : flex = 0 :=
        le_antisymm (hSum ▸ List.single_le_sum hNonneg flex hFlex) (hNonneg flex hFlex)
      rw [hZero, zero_div, zero_mul]

theorem forall_nonneg_iff {isVertical : Bool} (h : ∀ child ∈ children, getFlex (!isVertical) child = 1) :
    (∀ child ∈ children, 0 ≤ getFlex isVertical child) ↔ ∀ child ∈ children, 0 ≤ child.flexH_ ∧ 0 ≤ child.flexV_ := by
  refine forall₂_congr fun child hChild => ?_
  have hAcross : 0 ≤ getFlex (!isVertical) child := by
    rw [h child hChild]
    exact zero_le_one
  cases isVertical
  · exact (and_iff_left hAcross).symm
  · exact (and_iff_right hAcross).symm

theorem laidOut_iff : LaidOut data children ↔
    (∀ child ∈ children, 0 ≤ child.flexH_ ∧ 0 ≤ child.flexV_) ∧
    (data.type_.isContainer → (∀ child ∈ children, getFlex (!decide (data.type_ = VerticalContainer)) child = 1) ∧
      (getChildrensTotalFlex (data.type_ = VerticalContainer) children = children.length ∨
        getChildrensTotalFlex (data.type_ = VerticalContainer) children = 0)) := by
  have hSelf (change : NodeData δ Rat → NodeData δ Rat) :
      children.map change = children ↔ ∀ child ∈ children, change child = child := by
    have hId : children.map change = children.map id ↔ _ := List.map_inj_left
    rwa [List.map_id] at hId
  unfold LaidOut layoutChildren
  dsimp only
  generalize decide (data.type_ = VerticalContainer) = isVertical
  split_ifs with hContainer
  · have hTotal : getChildrensTotalFlex isVertical (children.map clamp) =
        ((children.map (getFlex isVertical)).map (max 0)).sum := by
      rw [getChildrensTotalFlex_eq, List.map_map, List.map_map]
      refine congrArg List.sum (List.map_congr_left fun child _ => ?_)
      cases isVertical <;> rfl
    have hShare := share_eq_self_iff (children.map (getFlex isVertical))
    rw [List.length_map, List.forall_mem_map, List.forall_mem_map, ← getChildrensTotalFlex_eq] at hShare
    rw [List.map_map, hSelf, List.length_map, hTotal]
    simp only [Function.comp_apply, normalizeFlex_eq_self_iff, forall₂_and, hShare]
    constructor
    · rintro ⟨⟨hAlong, hSum⟩, hAcross⟩
      exact ⟨forall₂_and.mp ((forall_nonneg_iff hAcross).mp hAlong), fun _ => ⟨hAcross, hSum⟩⟩
    · rintro ⟨hNonneg, hRest⟩
      obtain ⟨hAcross, hSum⟩ := hRest hContainer
      exact ⟨⟨(forall_nonneg_iff hAcross).mpr (forall₂_and.mpr hNonneg), hSum⟩, hAcross⟩
  · rw [hSelf]
    simp only [clamp_eq_self_iff]
    exact (and_iff_left fun hType => absurd hType hContainer).symm

end Rational

open SplitContainer
open NodeType hiding Split

variable {σ δ F W : Type} [Flex F] {node : Node δ F}

def evened (data : NodeData δ F) : NodeData δ F := setFlexes (fun _ => (1, 1)) data

/-- Laying out the children, if they all had the flex value 1, gives their flex values. -/
def EvenlyLaidOut (data : NodeData δ F) (children : List (NodeData δ F)) : Prop :=
  (layoutChildren data.type_ (children.map evened)).map NodeData.shape = children.map NodeData.shape

theorem layout_evened_node (data : NodeData δ F) (nodes : List (Node δ F)) :
    ∃ change : NodeData δ F → NodeData δ F,
      layoutChildren data.type_ ((nodes.map RoseTree.value).map evened) =
        nodes.map (fun child => change (evened child.value)) ∧
      Node.layout ((RoseTree.node data nodes).map evened) = .node (evened data)
        (nodes.map fun child => .node (change (evened child.value)) (Node.layout (child.map evened)).children) := by
  obtain ⟨change, -, hChange⟩ := layoutChildren_eq data.type_ ((nodes.map RoseTree.value).map evened)
  rw [List.map_map, List.map_map] at hChange
  refine ⟨change, ?_, ?_⟩
  · rw [List.map_map, hChange]
    rfl
  · have hValues : (nodes.map (RoseTree.map evened)).map RoseTree.value = nodes.map (evened ∘ RoseTree.value) := by
      rw [List.map_map]
      exact List.map_congr_left fun child _ => value_map evened child
    have hType : (evened data).type_ = data.type_ := rfl
    rw [map_node, layout_node_eq, hValues, hType, hChange, List.zipWith_map, List.zipWith_self]
    rfl

theorem shape_children_layout_evened_iff :
    (Node.layout (node.map evened)).children.map (RoseTree.map NodeData.shape) =
      node.children.map (RoseTree.map NodeData.shape) ↔ node.Forall EvenlyLaidOut := by
  induction node using RoseTree.induction with
  | node data nodes ih =>
    obtain ⟨change, hChange, hLayout⟩ := layout_evened_node data nodes
    have hChild (child : Node δ F) (hMem : child ∈ nodes) :
        (RoseTree.node (change (evened child.value)) (Node.layout (child.map evened)).children).map NodeData.shape =
            child.map NodeData.shape ↔
          (change (evened child.value)).shape = child.value.shape ∧ child.Forall EvenlyLaidOut := by
      rw [← ih child hMem]
      cases child with
      | node value children =>
        have hNode : (RoseTree.node value children).map NodeData.shape =
            .node value.shape (children.map (RoseTree.map NodeData.shape)) := map_node _ _ _
        rw [map_node, hNode, RoseTree.node.injEq]
        rfl
    rw [hLayout, forall_node, EvenlyLaidOut, hChange, children_node, children_node, List.map_map, List.map_map,
      List.map_map, List.map_inj_left, List.map_inj_left, ← forall₂_and]
    exact forall₂_congr hChild

theorem shape_layout_evened_iff (hFlex : RootFlex node) :
    (Node.layout (node.map evened)).map NodeData.shape = node.map NodeData.shape ↔ node.Forall EvenlyLaidOut := by
  rw [← shape_children_layout_evened_iff]
  have hValue : (Node.layout (node.map evened)).value.shape = node.value.shape := by
    rw [value_layout, value_map, NodeData.shape, NodeData.shape, hFlex.1, hFlex.2]
    rfl
  cases hLayout : Node.layout (node.map evened) with
  | node value children =>
    rw [hLayout] at hValue
    cases node with
    | node data nodes =>
      rw [map_node, map_node, RoseTree.node.injEq]
      exact and_iff_right hValue

omit [Flex F] in
theorem SplitContainer.WellFormed.root_type_ne {tab : SplitContainer δ F} (h : tab.WellFormed)
    (hSplits : tab.splits_ ≠ []) : tab.baseNode_.value.type_ ≠ EmptyRoot := by
  intro hEmpty
  apply hSplits
  have hLeaves := h.leaves
  have hSound := h.sound
  cases hBase : tab.baseNode_ with
  | node data children =>
    rw [hBase] at hLeaves hSound hEmpty
    obtain ⟨hData, -⟩ := forall_node.mp hSound
    have hType : data.type_ = EmptyRoot := hEmpty
    have hSplit : data.split_ = none := by
      rw [← Option.not_isSome_iff_eq_none, ← hData.split, hType]
      exact NodeType.noConfusion
    obtain rfl : children = [] := List.map_eq_nil_iff.mp (hData.emptyRoot hType)
    rw [splits_leaf, hSplit] at hLeaves
    exact hLeaves.nil_eq.symm

def describeEvened (save : δ → σ) (node : Node δ F) : NodeDescriptor σ F := describe save (node.map evened)

theorem splits_evened (node : Node δ F) : Node.splits (node.map evened) = node.splits := by
  rw [Node.splits, leaves_map, List.filterMap_map, Node.splits]
  rfl

theorem visible_describeEvened_iff {tab : SplitContainer δ F} {save : δ → σ} {opens : σ → W → δ × W}
    {restorable : δ → Prop} (h : tab.WellFormed) (hType : tab.baseNode_.value.type_ ≠ EmptyRoot)
    (hFlex : RootFlex tab.baseNode_)
    (hReopens : ∀ shown world, (opens (save shown) world).1 = shown ↔ restorable shown) (world : W) :
    (applyFromDescriptor opens (describeEvened save tab.baseNode_) (empty, world)).1.baseNode_.map NodeData.visible =
        tab.baseNode_.map NodeData.visible ↔
      tab.baseNode_.Forall EvenlyLaidOut ∧ ∀ split ∈ tab.baseNode_.splits, restorable split.shown := by
  have hSound : (tab.baseNode_.map evened).Forall Sound := (h.mapFlexes fun _ => (1, 1)).sound
  have hEvenedType : (tab.baseNode_.map evened).value.type_ ≠ EmptyRoot := by
    rw [value_map]
    exact hType
  have hEvenedFlex : (tab.baseNode_.map evened).value.flexH_ = 1 ∧ (tab.baseNode_.map evened).value.flexV_ = 1 := by
    rw [value_map]
    exact ⟨rfl, rfl⟩
  have hEach : ∀ split ∈ Node.splits (tab.baseNode_.map evened), Reopens save opens (fun _ => True) restorable split.shown :=
    fun split _ world _ => ⟨hReopens split.shown world, trivial⟩
  have hRebuilds :=
    @rebuilds_root _ _ _ _ _ _ _ _ (fun _ => True) _ hSound hEvenedType hEvenedFlex hEach world trivial
  have hShape := hRebuilds.shape
  have hShown := hRebuilds.shown?
  rw [List.map_singleton, List.map_singleton, List.singleton_inj] at hShape hShown
  rw [List.flatMap_singleton, splits_evened] at hShown
  have hLoaded : (applyFromDescriptor opens (describeEvened save tab.baseNode_)
      ((empty : SplitContainer δ F), world)).1.baseNode_ =
    Node.layout (applyFromDescriptorRecursively opens (describe save (tab.baseNode_.map evened)) 0
      (opening, world)).1.baseNode_ := rfl
  have hSameShown : (tab.baseNode_.map evened).map NodeData.shown? = tab.baseNode_.map NodeData.shown? :=
    map_map evened NodeData.shown? _
  rw [hLoaded]
  refine map_pair_eq_iff.trans (and_congr ?_ ?_)
  · rw [shape_layout_congr hShape]
    exact shape_layout_evened_iff hFlex
  · rw [map_shown?_layout, ← hShown, hSameShown]

section Rational

variable {data : NodeData δ Rat} {children : List (NodeData δ Rat)}

theorem evenlyLaidOut_iff :
    EvenlyLaidOut data children ↔ ∀ child ∈ children, child.flexH_ = 1 ∧ child.flexV_ = 1 := by
  have hOne (isVertical : Bool) : ∀ child ∈ children.map evened, getFlex isVertical child = 1 := by
    intro child hChild
    obtain ⟨old, -, rfl⟩ := List.mem_map.mp hChild
    cases isVertical
    · rfl
    · rfl
  have hEven : LaidOut data (children.map evened) := by
    refine laidOut_iff.mpr ⟨fun child hChild => ?_, fun _ => ⟨hOne _, Or.inl ?_⟩⟩
    · obtain ⟨old, -, rfl⟩ := List.mem_map.mp hChild
      exact ⟨zero_le_one, zero_le_one⟩
    · rw [getChildrensTotalFlex_eq, List.map_congr_left (hOne _), List.map_const', List.sum_replicate, nsmul_one]
  rw [EvenlyLaidOut, hEven, List.map_map, List.map_inj_left]
  refine forall₂_congr fun child _ => ?_
  rw [Function.comp_apply, NodeData.shape, NodeData.shape, Prod.mk.injEq, Prod.mk.injEq]
  exact (and_iff_right rfl).trans (and_congr eq_comm eq_comm)

end Rational

end Chatterino.Splits
