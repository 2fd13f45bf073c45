import Chatterino.Lib.Run
import Chatterino.Splits.SplitBuild
import Chatterino.Splits.SplitRelease

/-! # Runs of a split container

The tree is well-formed in every state that insertions and releases reach from an empty container or
from a saved tab.
-/

namespace Chatterino.Splits

open Lib RoseTree Node
open NodeType hiding Split

namespace SplitContainer

variable {σ δ F W : Type} {container : SplitContainer δ F} {split : Split δ}
  {options : InsertOptions δ}

theorem WellFormed.withLayouting (h : container.WellFormed) (disabled : Bool) :
    { container with disableLayouting_ := disabled }.WellFormed :=
  ⟨h.sound, h.root, ⟨h.addressed.nodup, h.addressed.fresh⟩, h.leaves, h.distinct⟩

theorem exists_target (hTarget : (container.relativeTo options).all
      (fun relativeTo => container.baseNode_.isOrContainsNode relativeTo) = true) : ∃ context node, container.baseNode_ = plug context node ∧ node.value.address = container.target options := by
  unfold SplitContainer.target
  cases hRelative : container.relativeTo options with
  | none => exact ⟨[], container.baseNode_, rfl, rfl⟩
  | some relativeTo =>
    rw [hRelative] at hTarget
    obtain ⟨node, hNode⟩ := Option.isSome_iff_exists.mp hTarget
    obtain ⟨hAddress, context, hBase⟩ := exists_plug_of_node? hNode
    exact ⟨context, node, hBase, hAddress⟩

variable [Flex F]

inductive Event (δ : Type) where
  | insertSplit (split : Split δ) (options : InsertOptions δ)
  | releaseSplit (split : Split δ)

def step (container : SplitContainer δ F) : Event δ → SplitContainer δ F
  | .insertSplit split options => container.insertSplit split options
  | .releaseSplit split => (container.releaseSplit split).2

/-- A split is inserted that is in no container, relative to a node of the tree if to any, and a split of the
container is released. -/
def Admissible (container : SplitContainer δ F) : Event δ → Prop
  | .insertSplit split options => split.address ∉ container.splits_.map Split.address ∧
      (container.relativeTo options).all (fun relativeTo => container.baseNode_.isOrContainsNode relativeTo) = true
  | .releaseSplit split => split ∈ container.splits_

instance Admissible.decidable [DecidableEq δ] (container : SplitContainer δ F) :
    (event : Event δ) → Decidable (Admissible container event)
  | .insertSplit split options => inferInstanceAs (Decidable (split.address ∉ container.splits_.map Split.address ∧
      (container.relativeTo options).all (fun relativeTo => container.baseNode_.isOrContainsNode relativeTo) = true))
  | .releaseSplit split => inferInstanceAs (Decidable (split ∈ container.splits_))

inductive Starts : SplitContainer δ F → Prop
  | empty : Starts .empty
  | descriptor {σ W : Type} (opens : σ → W → δ × W) {rootNode : NodeDescriptor σ F} (hFull : rootNode.Full)
    (world : W) : Starts (applyFromDescriptor opens rootNode (.empty, world)).1

theorem wellFormed_empty : (empty : SplitContainer δ F).WellFormed := by
  have hSound : Sound (empty : SplitContainer δ F).baseNode_.value [] := by
    refine ⟨iff_of_false NodeType.noConfusion Bool.false_ne_true, fun _ => rfl, fun _ => rfl, ?_, ?_, ?_⟩
    · rintro ⟨⟩
    · rintro _ ⟨⟩
    · rintro _ ⟨⟩
  refine ⟨forall_node.mpr ⟨hSound, by rintro _ ⟨⟩⟩, rfl, ⟨List.nodup_singleton _, ?_⟩, .rfl, List.nodup_nil⟩
  intro data hData
  rw [List.mem_singleton.mp hData]
  exact Nat.zero_lt_one

theorem WellFormed.insertSplit (h : container.WellFormed)
    (hNew : split.address ∉ container.splits_.map Split.address)
    (hTarget : (container.relativeTo options).all
      (fun relativeTo => container.baseNode_.isOrContainsNode relativeTo) = true) :
    (container.insertSplit split options).WellFormed := by
  obtain ⟨context, node, hBase, hAddress⟩ := exists_target hTarget
  rw [h.insertSplit_eq, ← hAddress]
  exact (h.insertSplitRelative_inserts hBase).wellFormed h hNew

theorem wellFormed_applyFromDescriptorRecursively (opens : σ → W → δ × W) {rootNode : NodeDescriptor σ F}
    (hFull : rootNode.Full) (world : W) : (applyFromDescriptorRecursively opens rootNode 0
      ({ (empty : SplitContainer δ F) with disableLayouting_ := true }, world)).1.WellFormed := by
  cases hFull with
  | split descriptor flexH flexV =>
    rw [applyFromDescriptorRecursively, newSplit]
    dsimp only
    have hStart := (wellFormed_empty (δ := δ) (F := F)).withLayouting true
    have hAllocated := hStart.addressed.allocated
    have hReady : ({ (empty : SplitContainer δ F) with disableLayouting_ := true }.allocated).WellFormed :=
      ⟨hStart.sound, hStart.root, hAllocated, hStart.leaves, hStart.distinct⟩
    exact hReady.insertSplit List.not_mem_nil rfl
  | @container flexH flexV vertical items hLength hItems =>
    have hAllocates := buildAll_allocates (δ := δ) opens items 0 (1, world)
    have hBelow := buildAll_sound_of (δ := δ) opens 0 (fun item hItem => build_sound opens (hItems item hItem)) (1, world)
    rw [applyFromDescriptorRecursively_eq]
    dsimp only
    refine ⟨?_, rfl, (addressed_typed vertical).withChildren rfl hAllocates, ?_, ?_⟩
    · refine forall_sound_container (containerType_ne vertical) rfl ?_ hBelow
      rw [List.nil_append, length_buildAll]
      exact hLength
    · exact .of_eq (splits_of_none rfl)
    · obtain ⟨count, -, -, hSplits⟩ := hAllocates
      exact hSplits.nodup List.nodup_range'

theorem wellFormed_applyFromDescriptor (opens : σ → W → δ × W) {rootNode : NodeDescriptor σ F}
    (hFull : rootNode.Full) (world : W) :
    (applyFromDescriptor opens rootNode ((empty : SplitContainer δ F), world)).1.WellFormed :=
  ((wellFormed_applyFromDescriptorRecursively opens hFull world).withLayouting false).layout

theorem Starts.wellFormed (h : Starts container) : container.WellFormed := by
  cases h with
  | empty => exact wellFormed_empty
  | descriptor opens hFull world => exact wellFormed_applyFromDescriptor opens hFull world

theorem WellFormed.step {event : Event δ} (h : container.WellFormed) (hAdmissible : Admissible container event) :
    (container.step event).WellFormed := by
  cases event with
  | insertSplit split options => exact h.insertSplit hAdmissible.1 hAdmissible.2
  | releaseSplit split => exact h.releaseSplit hAdmissible

/-- Every state of a container is well-formed. -/
theorem wellFormed_of_run (hStart : Starts container) {events : List (Event δ)}
    (hRun : AllSteps step Admissible container events) : (events.foldl step container).WellFormed :=
  hRun.invariant hStart.wellFormed fun _ _ h hAdmissible => h.step hAdmissible

theorem wellFormed_of_moved : ([.insertSplit ⟨0, ()⟩ {}, .insertSplit ⟨1, ()⟩ { direction := some .Below },
    .insertSplit ⟨2, ()⟩ { relativeSplit := some ⟨0, ()⟩, direction := some .Left }, .releaseSplit ⟨1, ()⟩].foldl
      step (empty : SplitContainer Unit Rat)).WellFormed :=
  wellFormed_of_run .empty (by decide)

end SplitContainer

open SplitDirection
open NodeType hiding Split

variable {δ F : Type} {context : List (Frame (NodeData δ F))} {node : Node δ F} {split : Split δ}
  {direction : SplitDirection}

theorem append_inj_of_nodup {α : Type} {before before' middle after after' : List α}
    (h : before ++ middle ++ after = before' ++ middle ++ after') (hMiddle : middle ≠ [])
    (hNodup : (before ++ middle ++ after).Nodup) : before = before' ∧ after = after' := by
  obtain ⟨first, rest, rfl⟩ := List.exists_cons_of_ne_nil hMiddle
  rw [List.append_assoc, List.cons_append] at hNodup
  rw [List.append_assoc, List.append_assoc, List.cons_append, List.cons_append] at h
  obtain ⟨-, hCons, hDisjoint⟩ := List.nodup_append.mp hNodup
  have hBefore : first ∉ before := fun hMem => hDisjoint first hMem first List.mem_cons_self rfl
  obtain ⟨hSame, -, hRest⟩ :=
    (List.append_cons_inj_of_notMem hBefore (List.nodup_cons.mp hCons).1).mp h
  exact ⟨hSame, List.append_cancel_left hRest⟩

theorem splits_ne_nil (h : node.Forall Sound) (hType : node.value.type_ ≠ EmptyRoot) : node.splits ≠ [] := by
  induction node using RoseTree.induction with
  | node data children ih =>
    obtain ⟨hData, hBelow⟩ := forall_node.mp h
    cases children with
    | nil =>
      have hSplit : data.type_ = NodeType.Split := by
        cases hCase : data.type_ with
        | EmptyRoot => exact absurd hCase hType
        | Split => rfl
        | VerticalContainer | HorizontalContainer => exact absurd (hData.container (hCase ▸ rfl)) (Nat.not_succ_le_zero 1)
      obtain ⟨split, hSome⟩ := Option.isSome_iff_exists.mp (hData.split.mp hSplit)
      rw [splits_leaf, hSome]
      exact List.cons_ne_nil _ _
    | cons child children =>
      have hChild := ih child List.mem_cons_self (hBelow child List.mem_cons_self)
        (hData.inner child.value List.mem_cons_self)
      rw [splits_node data (List.cons_ne_nil _ _), List.flatMap_cons]
      exact List.append_ne_nil_of_left_ne_nil hChild _

namespace SplitContainer

variable {container : SplitContainer δ F}

def isAfter (direction : SplitDirection) : Prop := direction = Right ∨ direction = Below

theorem besideSplits_of_isAfter (h : isAfter direction) (splits : List (Split δ)) (split : Split δ) :
    besideSplits direction splits split = splits ++ [split] := if_pos h

theorem besideSplits_of_not_isAfter (h : ¬isAfter direction) (splits : List (Split δ)) (split : Split δ) :
    besideSplits direction splits split = split :: splits := if_neg h

theorem WellFormed.nodup_splits (h : container.WellFormed) : container.baseNode_.splits.Nodup :=
  h.leaves.nodup_iff.mpr (List.Nodup.of_map _ h.distinct)

def InPlace (direction : SplitDirection) (split : Split δ) (node : Node δ F)
    (container container' : SplitContainer δ F) : Prop :=
  ∃ before after, container.baseNode_.splits = before ++ node.splits ++ after ∧
    container'.baseNode_.splits = before ++ besideSplits direction node.splits split ++ after

variable [Flex F] {options : InsertOptions δ}

theorem splits_addSplit (container : SplitContainer δ F) (split : Split δ) :
    (container.addSplit split).baseNode_.splits = container.baseNode_.splits := by
  unfold addSplit layout
  split_ifs
  · rfl
  · exact splits_layout container.baseNode_

theorem WellFormed.inPlace_iff (h : container.WellFormed) (hNew : split ∉ container.splits_)
    (hBase : container.baseNode_ = plug context node)
    (hTarget : node.value.address = container.target options) :
    InPlace options.towards split node container (container.insertSplit split options) ↔
      (¬isAfter options.towards → ¬Appends options.towards container node) := by
  have hInserts : Inserts split options.towards container node
      (container.insertSplitRelative node.value.address split options.towards) :=
    h.insertSplitRelative_inserts hBase
  obtain ⟨before, after, hOld, hAppends, hBeside⟩ := hInserts.splits_eq h
  have hSplits : (container.insertSplit split options).baseNode_.splits =
      (container.insertSplitRelative node.value.address split options.towards).baseNode_.splits := by
    rw [h.insertSplit_eq, hTarget]
    exact splits_addSplit _ _
  have hNonempty (hAppend : Appends options.towards container node) : node.splits ≠ [] := by
    refine splits_ne_nil (h.node_sound hBase) fun hEmpty => ?_
    have hContainer := toContainerType_isContainer options.towards
    rw [hAppend.1, hEmpty] at hContainer
    cases hContainer
  unfold InPlace
  rw [hSplits]
  constructor
  · rintro ⟨before', after', hOld', hPlace⟩ hFirst hAppend
    have hNodup := h.nodup_splits
    rw [hOld] at hNodup
    have hUnlisted : split ∉ before ++ node.splits ++ after := fun hMem =>
      hNew (h.leaves.mem_iff.mp (hOld ▸ hMem))
    rw [hAppends hAppend, besideSplits_of_not_isAfter hFirst] at hPlace
    have hMoved : before ++ node.splits ++ split :: after =
        before' ++ split :: (node.splits ++ after') := by
      simp only [List.append_assoc, List.cons_append, List.nil_append] at hPlace ⊢
      exact hPlace
    -- the split stands before the splits of the node, so these are among those after it, too
    obtain ⟨-, -, hAfter⟩ := (List.append_cons_inj_of_notMem
      (fun hMem => hUnlisted (List.mem_append_left _ hMem))
      (fun hMem => hUnlisted (List.mem_append_right _ hMem))).mp hMoved
    obtain ⟨first, hFirstSplit⟩ := List.exists_mem_of_ne_nil _ (hNonempty hAppend)
    obtain ⟨-, -, hDisjoint⟩ := List.nodup_append.mp hNodup
    refine hDisjoint first (List.mem_append_right _ hFirstSplit) first ?_ rfl
    rw [hAfter]
    exact List.mem_append_left _ hFirstSplit
  · intro hKeeps
    refine ⟨before, after, hOld, ?_⟩
    by_cases hAppend : Appends options.towards container node
    · have hAfter : isAfter options.towards := by
        by_contra hFirst
        exact hKeeps hFirst hAppend
      rw [hAppends hAppend, besideSplits_of_isAfter hAfter]
    · exact hBeside hAppend

end SplitContainer

end Chatterino.Splits

namespace Chatterino.Splits

open Lib RoseTree Node SplitDirection
open NodeType hiding Split

namespace SplitContainer

variable {δ F : Type} {container : SplitContainer δ F} {context context' : List (Frame (NodeData δ F))}
  {frame : Frame (NodeData δ F)} {node node' : Node δ F} {split : Split δ} {direction : SplitDirection}
  {result : Position × SplitContainer δ F}

theorem Addressed.after (h : container.Addressed) (hBase : container.baseNode_ = plug (frame :: context) node) :
    ∀ sibling ∈ frame.after, isAt node.value.address sibling.value = false := by
  intro sibling hSibling
  apply h.rest hBase
  refine List.mem_flatMap.mpr ⟨frame, List.mem_cons_self, List.mem_cons_of_mem _ ?_⟩
  exact List.mem_append_right _ (List.mem_flatMap.mpr ⟨sibling, hSibling, mem_toList_value sibling⟩)

theorem WellFormed.context_eq (h : container.WellFormed) (hBase : container.baseNode_ = plug context node)
    (hBase' : container.baseNode_ = plug context' node) : context = context' := by
  have hRoot {frame : Frame (NodeData δ F)} {context : List (Frame (NodeData δ F))} {node : Node δ F}
      (hOuter : container.baseNode_ = plug (frame :: context) node) (hInner : container.baseNode_ = node) : False := by
    have hParent := h.parent_eq hOuter
    have hNone := h.root
    rw [hInner, hParent] at hNone
    cases hNone
  induction context generalizing context' node with
  | nil =>
    cases context' with
    | nil => rfl
    | cons frame' context' => exact absurd hBase (hRoot hBase')
  | cons frame context ih =>
    cases context' with
    | nil => exact absurd hBase' (hRoot hBase)
    | cons frame' context' =>
      have hParent : frame.value.address = frame'.value.address :=
        Option.some.inj ((h.parent_eq hBase).symm.trans (h.parent_eq hBase'))
      have hFill : frame.fill node = frame'.fill node := by
        have hNode := h.parentNode hBase'
        rw [← hParent, h.parentNode hBase] at hNode
        exact Option.some.inj hNode
      obtain ⟨hValue, hChildren⟩ := RoseTree.node.inj hFill
      have hBefore : node ∉ frame.before := fun hMem => by
        have hOther := h.addressed.before hBase node hMem
        rw [isAt_iff.mpr rfl] at hOther
        cases hOther
      have hAfter : node ∉ frame.after := fun hMem => by
        have hOther := h.addressed.after hBase node hMem
        rw [isAt_iff.mpr rfl] at hOther
        cases hOther
      obtain ⟨hSameBefore, -, hSameAfter⟩ := (List.append_cons_inj_of_notMem hBefore hAfter).mp hChildren
      have hFrame : frame = frame' := by
        cases frame
        cases frame'
        simp_all
      have hOuter : container.baseNode_ = plug context (frame.fill node) := hBase
      have hOuter' : container.baseNode_ = plug context' (frame.fill node) := hFill ▸ hBase'
      rw [ih hOuter hOuter', hFrame]

section

variable [Flex F]

theorem bare_node?_layout (container : SplitContainer δ F) (address : Address) :
    (container.layout.node? address).map (RoseTree.map NodeData.bare) =
      (container.node? address).map (RoseTree.map NodeData.bare) := by
  have hTest : isAt address = (fun bare => decide (bare.1 = address)) ∘ (NodeData.bare : NodeData δ F → _) := rfl
  unfold SplitContainer.layout node?
  split_ifs
  · rfl
  · rw [hTest, ← find?_map, ← find?_map, map_bare_layout]

theorem appends_layout_iff (h : node'.map NodeData.bare = node.map NodeData.bare) :
    Appends direction container.layout node' ↔ Appends direction container node := by
  obtain ⟨-, hType, -, hParent⟩ := bare_eq_iff.mp (bare_value h)
  have hRead (found : Option (Node δ F)) : found.map (fun node => node.value.type_) =
      (found.map (RoseTree.map NodeData.bare)).map fun bare => bare.value.2.1 := by
    cases found with
    | none => rfl
    | some node =>
      have hValue : (node.map NodeData.bare).value.2.1 = node.value.type_ := by
        rw [value_map]
        rfl
      exact congrArg some hValue.symm
  have hTypes (address : Address) : (container.layout.node? address).map (fun node => node.value.type_) =
      (container.node? address).map fun node => node.value.type_ := by
    rw [hRead, bare_node?_layout, ← hRead]
  unfold Appends
  simp only [hType, hParent, hTypes]

theorem splits_layout' (container : SplitContainer δ F) :
    container.layout.baseNode_.splits = container.baseNode_.splits := by
  unfold SplitContainer.layout
  split_ifs
  · rfl
  · exact splits_layout container.baseNode_

theorem WellFormed.splits_insert_layout (h : container.WellFormed) (split : Split δ) {options : InsertOptions δ}
    (hBase : container.baseNode_ = plug context node) (hType : node.value.type_ ≠ EmptyRoot)
    (hTarget : container.layout.target options = node.value.address) :
    (Appends options.towards container node → (container.layout.insertSplit split options).baseNode_.splits =
      splitsBefore context ++ (node.splits ++ [split]) ++ splitsAfter context) ∧
    (¬Appends options.towards container node → (container.layout.insertSplit split options).baseNode_.splits =
      splitsBefore context ++ besideSplits options.towards node.splits split ++ splitsAfter context) := by
  have hFound : (container.layout.node? node.value.address).map (RoseTree.map NodeData.bare) =
      some (node.map NodeData.bare) := by
    rw [bare_node?_layout, h.addressed.node?_eq hBase]
    rfl
  obtain ⟨node', hNode', hBare⟩ := Option.map_eq_some_iff.mp hFound
  obtain ⟨hAddress, context', hBase'⟩ := exists_plug_of_node? hNode'
  have hInserts : Inserts split options.towards container.layout node'
      (container.layout.insertSplitRelative node'.value.address split options.towards) :=
    h.layout.insertSplitRelative_inserts hBase'
  obtain ⟨before, after, hOld, hAppends, hBeside⟩ := hInserts.splits_eq h.layout
  have hNode : node.splits ≠ [] := splits_ne_nil (h.node_sound hBase) hType
  have hWhole : splitsBefore context ++ node.splits ++ splitsAfter context = before ++ node.splits ++ after := by
    rw [← splits_of_bare hBare, ← hOld, splits_layout', hBase, splits_plug, splits_of_bare hBare]
  have hNodup := h.nodup_splits
  rw [hBase, splits_plug] at hNodup
  obtain ⟨rfl, rfl⟩ := append_inj_of_nodup hWhole hNode hNodup
  have hInserted : (container.layout.insertSplit split options).baseNode_.splits =
      (container.layout.insertSplitRelative node'.value.address split options.towards).baseNode_.splits := by
    rw [h.layout.insertSplit_eq, hTarget, hAddress]
    exact splits_addSplit _ _
  rw [hInserted, ← splits_of_bare hBare]
  exact ⟨fun hAppend => hAppends ((appends_layout_iff hBare).mpr hAppend),
    fun hNot => hBeside fun hAppend => hNot ((appends_layout_iff hBare).mp hAppend)⟩

end

end SplitContainer

end Chatterino.Splits
