import Chatterino.Splits.SplitLayout

/-! # Everything that changes a tab

Splits are inserted and released, resize handles change the flex values of nodes below the root, and
a split may come to show something else. The root keeps its flex values.
-/

namespace Chatterino.Splits

open Lib RoseTree Node
open NodeType hiding Split

namespace SplitContainer

variable {δ F : Type} {container container' : SplitContainer δ F} {node node' : Node δ F} {split : Split δ}

def setFlexes (flexes : NodeData δ F → F × F) (data : NodeData δ F) : NodeData δ F :=
  { data with flexH_ := (flexes data).1, flexV_ := (flexes data).2 }

def mapFlexes (flexes : NodeData δ F → F × F) (container : SplitContainer δ F) : SplitContainer δ F :=
  { container with baseNode_ := container.baseNode_.map (setFlexes flexes) }

/-- The flex values after a handle between two nodes was dragged, where the place of the mouse decides
on the two values. -/
def draggedFlexes (before this : Address) (vertical : Bool) (flexBefore flexThis : F) (data : NodeData δ F) : F × F :=
  let dragged := if data.address = before then some flexBefore
    else if data.address = this then some flexThis else none
  (if vertical then data.flexH_ else dragged.getD data.flexH_,
    if vertical then dragged.getD data.flexV_ else data.flexV_)

def resetFlexes [One F] (parent : Address) (data : NodeData δ F) : F × F :=
  if data.parent_ = some parent then (1, 1) else (data.flexH_, data.flexV_)

section

variable [Flex F]

def mouseMove (before this : Address) (vertical : Bool) (flexBefore flexThis : F) (container : SplitContainer δ F) :
    SplitContainer δ F :=
  (container.mapFlexes (draggedFlexes before this vertical flexBefore flexThis)).layout

def resetFlex (this : Address) (container : SplitContainer δ F) : SplitContainer δ F :=
  match (container.node? this).bind fun node => node.value.parent_ with
  | none => container
  | some parent => (container.mapFlexes (resetFlexes parent)).layout

end

def showSplit (address : Address) (shown : δ) (split : Split δ) : Split δ :=
  if split.address = address then { split with shown := shown } else split

def showData (address : Address) (shown : δ) (data : NodeData δ F) : NodeData δ F :=
  { data with split_ := data.split_.map (showSplit address shown) }

def setShown (address : Address) (shown : δ) (container : SplitContainer δ F) : SplitContainer δ F :=
  { container with
    baseNode_ := container.baseNode_.map (showData address shown)
    splits_ := container.splits_.map (showSplit address shown) }

theorem WellFormed.mapFlexes (h : container.WellFormed) (flexes : NodeData δ F → F × F) :
    (container.mapFlexes flexes).WellFormed := h.of_bare (map_map (setFlexes flexes) NodeData.bare _)

theorem Sound.showData {data : NodeData δ F} {children : List (NodeData δ F)} (h : Sound data children)
    (address : Address) (shown : δ) :
    Sound (SplitContainer.showData address shown data) (children.map (SplitContainer.showData address shown)) := by
  constructor
  · exact h.split.trans (by rw [SplitContainer.showData, Option.isSome_map])
  · exact fun hType => List.map_eq_nil_iff.mpr (h.leaf hType)
  · exact fun hType => List.map_eq_nil_iff.mpr (h.emptyRoot hType)
  · rw [List.length_map]
    exact h.container
  · intro child hChild
    obtain ⟨old, hOld, rfl⟩ := List.mem_map.mp hChild
    exact h.parent old hOld
  · intro child hChild
    obtain ⟨old, hOld, rfl⟩ := List.mem_map.mp hChild
    exact h.inner old hOld

theorem WellFormed.setShown (h : container.WellFormed) (address : Address) (shown : δ) :
    (container.setShown address shown).WellFormed := by
  have hAddresses : (container.setShown address shown).baseNode_.toList.map NodeData.address =
      container.baseNode_.toList.map NodeData.address := by
    rw [SplitContainer.setShown, toList_map, List.map_map]
    rfl
  have hSplits : (container.setShown address shown).baseNode_.splits =
      container.baseNode_.splits.map (showSplit address shown) := by
    rw [SplitContainer.setShown, Node.splits, leaves_map, List.filterMap_map, Node.splits, List.map_filterMap]
    rfl
  have hSame : (container.splits_.map (showSplit address shown)).map Split.address =
      container.splits_.map Split.address := by
    rw [List.map_map]
    refine List.map_congr_left fun split _ => ?_
    rw [Function.comp_apply, showSplit]
    split_ifs <;> rfl
  constructor
  · refine forall_map.mpr (h.sound.imp fun data children hSound => ?_)
    exact Sound.showData hSound address shown
  · rw [SplitContainer.setShown, value_map]
    exact h.root
  · constructor
    · rw [hAddresses]
      exact h.addressed.nodup
    · intro data hData
      have hMem := List.mem_map_of_mem (f := NodeData.address) hData
      rw [hAddresses] at hMem
      obtain ⟨old, hOld, hOldAddress⟩ := List.mem_map.mp hMem
      exact hOldAddress ▸ h.addressed.fresh old hOld
  · rw [hSplits]
    exact h.leaves.map _
  · rw [SplitContainer.setShown, hSame]
    exact h.distinct

variable [Flex F]

inductive ReachesTab : SplitContainer δ F → Prop
  | start {container : SplitContainer δ F} (hStart : Starts container) : ReachesTab container
  | edit {container : SplitContainer δ F} (h : ReachesTab container) (event : Event δ)
    (hAdmissible : Admissible container event) : ReachesTab (container.step event)
  | mouseMove {container : SplitContainer δ F} (h : ReachesTab container) (before this : Address) (vertical : Bool)
    (flexBefore flexThis : F)
    (hBelow : before ≠ container.baseNode_.value.address ∧ this ≠ container.baseNode_.value.address) :
    ReachesTab (container.mouseMove before this vertical flexBefore flexThis)
  | resetFlex {container : SplitContainer δ F} (h : ReachesTab container) (this : Address) :
    ReachesTab (container.resetFlex this)
  | setShown {container : SplitContainer δ F} (h : ReachesTab container) (address : Address) (shown : δ) :
    ReachesTab (container.setShown address shown)

def RootFlex (node : Node δ F) : Prop := node.value.flexH_ = 1 ∧ node.value.flexV_ = 1

theorem RootFlex.plug {context : List (Frame (NodeData δ F))} (h : RootFlex container.baseNode_)
    (hBase : container.baseNode_ = plug context node) (hFlexH : node'.value.flexH_ = node.value.flexH_)
    (hFlexV : node'.value.flexV_ = node.value.flexV_) : RootFlex (RoseTree.plug context node') := by
  rw [hBase] at h
  constructor
  · exact (value_plug_congr hFlexH context).trans h.1
  · exact (value_plug_congr hFlexV context).trans h.2

theorem rootFlex_layout : RootFlex container.layout.baseNode_ ↔ RootFlex container.baseNode_ := by
  unfold SplitContainer.layout
  split_ifs
  · exact Iff.rfl
  · rw [RootFlex, value_layout, RootFlex]

theorem Inserts.rootFlex {direction : SplitDirection} (hInserts : Inserts split direction container node container')
    (h : RootFlex container.baseNode_) : RootFlex container'.baseNode_ := by
  cases hInserts with
  | root hBase hType =>
    have hPlug : container.baseNode_ = RoseTree.plug [] node := hBase
    exact h.plug hPlug rfl rfl
  | next context frame hBase hType =>
    have hPlug : container.baseNode_ = RoseTree.plug context (frame.fill node) := hBase
    exact h.plug hPlug rfl rfl
  | append context hBase hAppends => exact h.plug hBase rfl rfl
  | nest context hBase hType hRoot => exact h.plug hBase rfl rfl

theorem Releases.rootFlex {result : Position × SplitContainer δ F} (hReleases : Releases container node result)
    (h : RootFlex container.baseNode_) : RootFlex result.2.baseNode_ := by
  cases hReleases with
  | root hBase =>
    have hPlug : container.baseNode_ = RoseTree.plug [] node := hBase
    exact h.plug hPlug rfl rfl
  | pair context frame sibling hBase hSiblings =>
    have hPlug : container.baseNode_ = RoseTree.plug context (frame.fill node) := hBase
    exact h.plug hPlug rfl rfl
  | last context frame before previous hBase hBefore hAfter hMany =>
    have hPlug : container.baseNode_ = RoseTree.plug context (frame.fill node) := hBase
    exact h.plug hPlug rfl rfl
  | inner context frame next after hBase hAfter hMany =>
    have hPlug : container.baseNode_ = RoseTree.plug context (frame.fill node) := hBase
    exact h.plug hPlug rfl rfl

theorem RootFlex.step (h : RootFlex container.baseNode_) (hWellFormed : container.WellFormed) {event : Event δ}
    (hAdmissible : Admissible container event) : RootFlex (container.step event).baseNode_ := by
  cases event with
  | insertSplit split options =>
    obtain ⟨context, node, hBase, hAddress⟩ := exists_target hAdmissible.2
    have hInserts : Inserts split options.towards container node
        (container.insertSplitRelative node.value.address split options.towards) :=
      hWellFormed.insertSplitRelative_inserts hBase
    rw [SplitContainer.step, hWellFormed.insertSplit_eq, ← hAddress]
    exact rootFlex_layout.mpr (hInserts.rootFlex h)
  | releaseSplit split =>
    obtain ⟨context, node, result, -, -, -, -, hReleases, hRelease⟩ := hWellFormed.exists_releases hAdmissible
    rw [SplitContainer.step, hRelease]
    exact rootFlex_layout.mpr (hReleases.rootFlex h)

theorem Starts.rootFlex (hStart : Starts container) : RootFlex container.baseNode_ := by
  cases hStart with
  | empty => exact ⟨rfl, rfl⟩
  | descriptor opens hFull world =>
    rename_i rootNode
    have hLoaded : (applyFromDescriptor opens rootNode ((SplitContainer.empty : SplitContainer δ F), world)).1.baseNode_ =
      Node.layout (applyFromDescriptorRecursively opens rootNode 0 (opening, world)).1.baseNode_ := rfl
    rw [hLoaded, RootFlex, value_layout]
    cases rootNode with
    | split descriptor flexH flexV =>
      rw [(applyFromDescriptorRecursively_split opens descriptor flexH flexV world).1]
      exact ⟨rfl, rfl⟩
    | container flexH flexV vertical items =>
      rw [(applyFromDescriptorRecursively_container opens flexH flexV vertical items world).1]
      exact ⟨rfl, rfl⟩

theorem RootFlex.mapFlexes (h : RootFlex container.baseNode_) {flexes : NodeData δ F → F × F}
    (hRoot : flexes container.baseNode_.value =
      (container.baseNode_.value.flexH_, container.baseNode_.value.flexV_)) :
    RootFlex (container.mapFlexes flexes).baseNode_ := by
  rw [RootFlex, SplitContainer.mapFlexes, value_map, setFlexes, hRoot]
  exact h

theorem ReachesTab.invariant (h : ReachesTab container) : container.WellFormed ∧ RootFlex container.baseNode_ := by
  induction h with
  | start hStart => exact ⟨hStart.wellFormed, hStart.rootFlex⟩
  | edit h event hAdmissible ih => exact ⟨ih.1.step hAdmissible, ih.2.step ih.1 hAdmissible⟩
  | mouseMove h before this vertical flexBefore flexThis hBelow ih =>
    refine ⟨(ih.1.mapFlexes _).layout, rootFlex_layout.mpr (ih.2.mapFlexes ?_)⟩
    rw [draggedFlexes, if_neg hBelow.1.symm, if_neg hBelow.2.symm]
    cases vertical <;> rfl
  | resetFlex h this ih =>
    unfold SplitContainer.resetFlex
    split
    · exact ih
    · refine ⟨(ih.1.mapFlexes _).layout, rootFlex_layout.mpr (ih.2.mapFlexes ?_)⟩
      rw [resetFlexes, ih.1.root, if_neg (Option.some_ne_none _).symm]
  | setShown h address shown ih =>
    refine ⟨ih.1.setShown address shown, ?_⟩
    rw [RootFlex, SplitContainer.setShown, value_map]
    exact ih.2

end SplitContainer

end Chatterino.Splits
