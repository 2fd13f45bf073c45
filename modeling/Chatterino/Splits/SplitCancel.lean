import Chatterino.Splits.SplitRuns

/-! # Cancelling a drag

A drag releases the split, and cancelling it inserts the split at the position that the release
returned.
-/

namespace Chatterino.Splits

open Lib RoseTree Node SplitDirection
open NodeType hiding Split

namespace SplitContainer

variable {δ F : Type} {container : SplitContainer δ F} {context context' : List (Frame (NodeData δ F))}
  {frame : Frame (NodeData δ F)} {node sibling : Node δ F} {split : Split δ} {direction : SplitDirection}
  {result : Position × SplitContainer δ F}

/-- The split is the first of two children, the other one is a container like their parent, and the
parent stands in no container of this type. -/
def LosesPlace (split : Split δ) (container : SplitContainer δ F) : Prop :=
  ∃ context frame node sibling, container.baseNode_ = plug (frame :: context) node ∧
    container.baseNode_.findNodeContainingSplit split = some node.value.address ∧
    frame.before = [] ∧ frame.after = [sibling] ∧ sibling.value.type_ = frame.value.type_ ∧
    ∀ outer ∈ context.head?, outer.value.type_ ≠ frame.value.type_

theorem WellFormed.losesPlace_iff (h : container.WellFormed) (hBase : container.baseNode_ = plug (frame :: context) node)
    (hFound : container.baseNode_.findNodeContainingSplit split = some node.value.address) :
    LosesPlace split container ↔ ∃ sibling, frame.before = [] ∧ frame.after = [sibling] ∧
      sibling.value.type_ = frame.value.type_ ∧ ∀ outer ∈ context.head?, outer.value.type_ ≠ frame.value.type_ := by
  constructor
  · rintro ⟨context', frame', node', sibling, hBase', hFound', hRest⟩
    rw [hFound] at hFound'
    have hNode : node' = node := by
      have hSame := h.addressed.node?_eq hBase'
      rw [← Option.some.inj hFound', h.addressed.node?_eq hBase] at hSame
      exact (Option.some.inj hSame).symm
    obtain ⟨rfl, rfl⟩ := List.cons.inj (h.context_eq hBase (hNode ▸ hBase'))
    exact ⟨sibling, hRest⟩
  · rintro ⟨sibling, hRest⟩
    exact ⟨context, frame, node, sibling, hBase, hFound, hRest⟩

theorem WellFormed.not_losesPlace_of_root (h : container.WellFormed) (hBase : container.baseNode_ = node)
    (hFound : container.baseNode_.findNodeContainingSplit split = some node.value.address) :
    ¬LosesPlace split container := by
  rintro ⟨context', frame', node', sibling, hBase', hFound', -⟩
  have hParent := h.parent_eq hBase'
  have hPlug : container.baseNode_ = plug [] node := hBase
  have hSame := h.addressed.node?_eq hBase'
  rw [hFound] at hFound'
  rw [← Option.some.inj hFound', h.addressed.node?_eq hPlug] at hSame
  have hRoot := h.root
  rw [hBase, Option.some.inj hSame, hParent] at hRoot
  cases hRoot

theorem toContainerType_sideOf {type : NodeType} (h : type.isContainer) (first : Bool) :
    toContainerType (sideOf type first) = type := by
  cases type with
  | EmptyRoot => cases h
  | Split => cases h
  | VerticalContainer => cases first <;> rfl
  | HorizontalContainer => cases first <;> rfl

theorem isAfter_sideOf (type : NodeType) : isAfter (sideOf type false) := by
  cases type with
  | VerticalContainer => exact .inr rfl
  | EmptyRoot | Split | HorizontalContainer => exact .inl rfl

theorem not_isAfter_sideOf (type : NodeType) : ¬isAfter (sideOf type true) := by
  unfold isAfter
  cases type <;> decide

theorem WellFormed.appends_iff_head (h : container.WellFormed) (hBase : container.baseNode_ = plug context node) :
    Appends direction container node ↔ node.value.type_ = toContainerType direction ∧
      ∀ outer ∈ context.head?, outer.value.type_ ≠ toContainerType direction := by
  cases context with
  | nil =>
    have hRoot : container.baseNode_ = node := hBase
    rw [h.appends_iff_of_root hRoot, eq_comm]
    refine (and_iff_left ?_).symm
    rintro _ ⟨⟩
  | cons frame context =>
    rw [h.appends_iff_of_frame hBase, eq_comm, ne_comm]
    refine and_congr_right fun _ => ⟨?_, fun hOuter => hOuter frame rfl⟩
    rintro hOuter _ ⟨⟩
    exact hOuter

theorem splits_frame (hBase : container.baseNode_ = plug (frame :: context) node)
    (hSplits : node.splits = [split]) : container.baseNode_.splits = splitsBefore context ++
      (frame.before.flatMap splits ++ split :: frame.after.flatMap splits) ++ splitsAfter context := by
  rw [hBase, plug_cons, splits_plug, splits_fill, hSplits]
  rfl

theorem splitsBefore_cons (frame : Frame (NodeData δ F)) (context : List (Frame (NodeData δ F))) :
    splitsBefore (frame :: context) = splitsBefore context ++ frame.before.flatMap splits := by
  rw [splitsBefore, leavesBefore_cons, List.filterMap_append, List.filterMap_flatMap]
  rfl

theorem splitsAfter_cons (frame : Frame (NodeData δ F)) (context : List (Frame (NodeData δ F))) :
    splitsAfter (frame :: context) = frame.after.flatMap splits ++ splitsAfter context := by
  rw [splitsAfter, leavesAfter_cons, List.filterMap_append, List.filterMap_flatMap]
  rfl

theorem not_mem_erase (hDistinct : (container.splits_.map Split.address).Nodup) (hSplit : split ∈ container.splits_) :
    split ∉ erase split container.splits_ := by
  obtain ⟨before, after, hListed⟩ := List.append_of_mem hSplit
  rw [hListed] at hDistinct ⊢
  rw [erase_eq hDistinct]
  exact (List.nodup_middle.mp (List.Nodup.of_map _ hDistinct)).notMem

section

variable [Flex F]

def cancel (split : Split δ) (container : SplitContainer δ F) : SplitContainer δ F :=
  let (position, released) := container.releaseSplit split
  released.insertSplit split { position := some position }

theorem WellFormed.splits_insert_of_nil (h : container.WellFormed) (hEmpty : container.baseNode_.splits = [])
    {options : InsertOptions δ} (hBase : container.baseNode_ = plug context node)
    (hTarget : container.target options = node.value.address) :
    (container.insertSplit split options).baseNode_.splits = [split] := by
  have hInserts : Inserts split options.towards container node
      (container.insertSplitRelative node.value.address split options.towards) :=
    h.insertSplitRelative_inserts hBase
  have hPerm := hInserts.splits_perm h
  rw [hEmpty, List.nil_append, List.perm_singleton] at hPerm
  rw [h.insertSplit_eq, hTarget, splits_addSplit, hPerm]

theorem splits_pair_iff {released : SplitContainer δ F} (h : released.WellFormed)
    (hNew : split ∉ released.splits_) (hBase : released.baseNode_ = plug context node)
    (hType : node.value.type_ ≠ EmptyRoot) (type : NodeType) :
    (released.layout.insertSplit split
        { position := some ⟨some node.value.address, sideOf type true⟩ }).baseNode_.splits =
      splitsBefore context ++ (split :: node.splits) ++ splitsAfter context ↔
        ¬Appends (sideOf type true) released node := by
  have hTarget : released.layout.target (δ := δ) { position := some ⟨some node.value.address, sideOf type true⟩ } =
    node.value.address := rfl
  obtain ⟨hAppends, hBeside⟩ := h.splits_insert_layout split hBase hType hTarget
  constructor
  · intro hSame hAppend
    have hNonempty := splits_ne_nil (h.node_sound hBase) hType
    rw [hAppends hAppend, List.append_cancel_right_eq, List.append_cancel_left_eq] at hSame
    have hFirst : split ∈ node.splits := by
      obtain ⟨first, rest, hCons⟩ := List.exists_cons_of_ne_nil hNonempty
      rw [hCons] at hSame ⊢
      exact (List.cons.inj hSame).1 ▸ List.mem_cons_self
    refine hNew (h.leaves.mem_iff.mp ?_)
    rw [hBase, splits_plug]
    exact List.mem_append_left _ (List.mem_append_right _ hFirst)
  · intro hNot
    rw [hBeside hNot, InsertOptions.towards, besideSplits_of_not_isAfter (not_isAfter_sideOf type)]

theorem splits_cancel_many {released : SplitContainer δ F} (h : released.WellFormed) {before after : List (Node δ F)}
    {neighbour : Node δ F} {data : NodeData δ F}
    (hBase : released.baseNode_ = plug (⟨data, before, after⟩ :: context) neighbour)
    (hContainer : data.type_.isContainer) (first : Bool) :
    (released.layout.insertSplit split
        { position := some ⟨some neighbour.value.address, sideOf data.type_ first⟩ }).baseNode_.splits =
      splitsBefore context ++ (before.flatMap splits ++
        besideSplits (sideOf data.type_ first) neighbour.splits split ++ after.flatMap splits) ++
          splitsAfter context := by
  have hTarget : released.layout.target (δ := δ)
    { position := some ⟨some neighbour.value.address, sideOf data.type_ first⟩ } = neighbour.value.address := rfl
  have hNot : ¬Appends (sideOf data.type_ first) released neighbour := fun hAppend =>
    ((h.appends_iff_of_frame hBase).mp hAppend).2 (toContainerType_sideOf hContainer first)
  have hInserted := (h.splits_insert_layout split hBase (h.type_ne_emptyRoot hBase) hTarget).2 hNot
  rw [hInserted, splitsBefore_cons, splitsAfter_cons]
  simp only [List.append_assoc]
  rfl

theorem splits_cancel_pair {released : SplitContainer δ F} (h : released.WellFormed)
    (hNew : split ∉ released.splits_) (hBase : released.baseNode_ = plug context (.node
        { frame.value with type_ := sibling.value.type_, split_ := sibling.value.split_ }
        (sibling.children.map (setParent frame.value.address))))
    (hSiblings : frame.before ++ frame.after = [sibling])
    (hFrame : Sound frame.value (frame.before.map RoseTree.value ++ node.value :: frame.after.map RoseTree.value)) :
    (released.layout.insertSplit split { position := some ⟨some frame.value.address,
        sideOf frame.value.type_ frame.before.isEmpty⟩ }).baseNode_.splits = splitsBefore context ++
          (frame.before.flatMap splits ++ split :: frame.after.flatMap splits) ++ splitsAfter context ↔
      ¬∃ sibling, frame.before = [] ∧ frame.after = [sibling] ∧ sibling.value.type_ = frame.value.type_ ∧
        ∀ outer ∈ context.head?, outer.value.type_ ≠ frame.value.type_ := by
  have hContainer := hFrame.isContainer (List.append_ne_nil_of_right_ne_nil _ (List.cons_ne_nil _ _))
  have hType : sibling.value.type_ ≠ EmptyRoot := by
    have hMem : sibling ∈ frame.before ++ frame.after := hSiblings ▸ List.mem_cons_self
    refine hFrame.inner sibling.value ?_
    rw [List.mem_append, List.mem_cons, or_left_comm, ← List.mem_append, ← List.map_append]
    exact .inr (List.mem_map_of_mem hMem)
  have hMoved : Node.splits (.node
      { frame.value with type_ := sibling.value.type_, split_ := sibling.value.split_ }
      (sibling.children.map (setParent frame.value.address))) = sibling.splits := splits_move _ rfl
  obtain ⟨value, before, after⟩ := frame
  cases before with
  | nil =>
    have hAfter : after = [sibling] := hSiblings
    subst hAfter
    have hPair := splits_pair_iff h hNew hBase hType value.type_
    rw [hMoved, h.appends_iff_head hBase, toContainerType_sideOf hContainer] at hPair
    rw [List.flatMap_nil, List.nil_append, List.flatMap_singleton]
    refine hPair.trans (not_congr ⟨fun hLoses => ⟨sibling, rfl, rfl, hLoses⟩, ?_⟩)
    rintro ⟨sibling', -, hSame, hLoses⟩
    rw [(List.cons.inj hSame).1]
    exact hLoses
  | cons first before =>
    obtain ⟨rfl, hNil⟩ := List.cons.inj hSiblings
    obtain ⟨rfl, rfl⟩ := List.append_eq_nil_iff.mp hNil
    refine iff_of_true ?_ ?_
    · have hTarget : released.layout.target (δ := δ)
        { position := some ⟨some value.address, sideOf value.type_ false⟩ } = value.address := rfl
      obtain ⟨hAppends, hBeside⟩ := h.splits_insert_layout split hBase hType hTarget
      rw [InsertOptions.towards, besideSplits_of_isAfter (isAfter_sideOf _)] at hBeside
      refine ((em _).elim hAppends hBeside).trans ?_
      rw [hMoved, List.flatMap_singleton, List.flatMap_nil]
    · rintro ⟨_, hNot, -⟩
      cases hNot

theorem WellFormed.splits_cancel_iff (h : container.WellFormed) (hSplit : split ∈ container.splits_) :
    (container.cancel split).baseNode_.splits = container.baseNode_.splits ↔ ¬LosesPlace split container := by
  obtain ⟨context, node, result, hBase, hChildren, hSplits, hFound, hReleases, hRelease⟩ := h.exists_releases hSplit
  have hReleased := hReleases.wellFormed h hChildren hSplits
  have hNew := not_mem_erase h.distinct hSplit
  have hCancel : container.cancel split = { result.2 with splits_ := erase split container.splits_ }.layout.insertSplit
      split { position := some result.1 } := by
    rw [cancel, hRelease]
  rw [hCancel]
  cases hReleases with
  | root hRoot =>
    refine iff_of_true ?_ (h.not_losesPlace_of_root hRoot hFound)
    rw [hRoot, hSplits]
    have hPlug (released : SplitContainer δ F) : released.baseNode_ = plug [] released.baseNode_ := rfl
    refine hReleased.layout.splits_insert_of_nil ?_ (hPlug _) rfl
    rw [splits_layout', hChildren]
    exact splits_leaf _
  | pair context frame sibling hBase hSiblings =>
    rw [h.losesPlace_iff hBase hFound, splits_frame hBase hSplits]
    exact splits_cancel_pair hReleased hNew rfl hSiblings (h.frame_sound hBase)
  | last context frame before previous hBase hBefore hAfter hMany =>
    have hContainer := (h.frame_sound hBase).isContainer (List.append_ne_nil_of_right_ne_nil _ (List.cons_ne_nil _ _))
    have hNot : ¬LosesPlace split container := by
      rw [h.losesPlace_iff hBase hFound]
      rintro ⟨sibling, hNil, -⟩
      rw [hNil] at hBefore
      exact List.append_ne_nil_of_right_ne_nil _ (List.cons_ne_nil _ _) hBefore.symm
    refine iff_of_true ?_ hNot
    have hPlace : { container with
          baseNode_ := plug context (.node frame.value (frame.before ++ frame.after))
          splits_ := erase split container.splits_ }.baseNode_ =
        plug (⟨frame.value, before, []⟩ :: context) previous := by
      rw [hBefore, hAfter, List.append_nil]
      rfl
    refine (splits_cancel_many hReleased hPlace hContainer false).trans ?_
    rw [besideSplits_of_isAfter (isAfter_sideOf _), splits_frame hBase hSplits, hBefore, hAfter]
    simp only [List.flatMap_append, List.flatMap_singleton, List.append_assoc, List.flatMap_nil, List.nil_append,
      List.cons_append]
  | inner context frame next after hBase hAfter hMany =>
    have hContainer := (h.frame_sound hBase).isContainer (List.append_ne_nil_of_right_ne_nil _ (List.cons_ne_nil _ _))
    have hNot : ¬LosesPlace split container := by
      rw [h.losesPlace_iff hBase hFound]
      rintro ⟨sibling, hNil, hOne, -⟩
      rw [hNil, hOne] at hMany
      exact absurd hMany (Nat.not_succ_le_self 1)
    refine iff_of_true ?_ hNot
    have hPlace : { container with
          baseNode_ := plug context (.node frame.value (frame.before ++ frame.after))
          splits_ := erase split container.splits_ }.baseNode_ =
        plug (⟨frame.value, frame.before, after⟩ :: context) next := by
      rw [hAfter]
      rfl
    refine (splits_cancel_many hReleased hPlace hContainer true).trans ?_
    rw [besideSplits_of_not_isAfter (not_isAfter_sideOf _), splits_frame hBase hSplits, hAfter]
    simp only [List.flatMap_cons, List.append_assoc, List.cons_append]

def Reachable (container : SplitContainer δ F) : Prop :=
  ∃ start events, Starts start ∧ AllSteps step Admissible start events ∧ events.foldl step start = container

theorem Reachable.wellFormed (h : Reachable container) : container.WellFormed := by
  obtain ⟨start, events, hStart, hRun, rfl⟩ := h
  exact hRun.invariant hStart.wellFormed fun _ _ h hAdmissible => h.step hAdmissible

/-- Cancelling a drag restores the order unless the split loses its place, and a split is inserted in
place unless a container takes it at the end although it belongs in front. -/
theorem restored_and_inPlace_iff (h : Reachable container) :
    (∀ split ∈ container.splits_, (container.cancel split).baseNode_.splits = container.baseNode_.splits ↔
      ¬LosesPlace split container) ∧
    ∀ split ∉ container.splits_, ∀ options node, container.node? (container.target options) = some node →
      (InPlace options.towards split node container (container.insertSplit split options) ↔
        isAfter options.towards ∨ ¬Appends options.towards container node) := by
  constructor
  · intro split hSplit
    exact h.wellFormed.splits_cancel_iff hSplit
  · intro split hNew options node hNode
    obtain ⟨hAddress, context, hBase⟩ := exists_plug_of_node? hNode
    exact (h.wellFormed.inPlace_iff hNew hBase hAddress).trans or_iff_not_imp_left.symm

def Event.moved : Event δ → Split δ
  | .insertSplit split _ => split
  | .releaseSplit split => split

theorem filter_splits_step (h : container.WellFormed) {kept : Split δ → Bool} {event : Event δ}
    (hAdmissible : Admissible container event) (hOther : kept event.moved = false) :
    (step container event).baseNode_.splits.filter kept = container.baseNode_.splits.filter kept := by
  cases event with
  | insertSplit split options =>
    have hOther : kept split = false := hOther
    obtain ⟨context, node, hBase, hAddress⟩ := exists_target hAdmissible.2
    have hInserts : Inserts split options.towards container node
        (container.insertSplitRelative node.value.address split options.towards) := h.insertSplitRelative_inserts hBase
    obtain ⟨before, after, hOld, hAppends, hBeside⟩ := hInserts.splits_eq h
    rw [step, h.insertSplit_eq, ← hAddress, splits_addSplit, hOld]
    by_cases hAppend : Appends options.towards container node
    · simp [hAppends hAppend, hOther]
    · rw [hBeside hAppend, besideSplits]
      split_ifs <;> simp [hOther]
  | releaseSplit split =>
    have hOther : kept split = false := hOther
    obtain ⟨context, node, result, -, hChildren, hSplits, -, hReleases, hRelease⟩ := h.exists_releases hAdmissible
    obtain ⟨before, after, hOld, hNew⟩ := hReleases.splits_eq hChildren hSplits
    rw [step, hRelease, splits_layout', hNew, hOld]
    simp [hOther]

/-- No run disturbs the order of the splits that it neither inserts nor releases. -/
theorem filter_splits_of_run (h : Reachable container) {events : List (Event δ)}
    (hRun : AllSteps step Admissible container events) {kept : Split δ → Bool}
    (hOther : ∀ event ∈ events, kept event.moved = false) :
    (events.foldl step container).baseNode_.splits.filter kept = container.baseNode_.splits.filter kept := by
  replace h := h.wellFormed
  induction events generalizing container with
  | nil => rfl
  | cons event events ih =>
    obtain ⟨hFirst, hRest⟩ := hRun
    rw [← filter_splits_step h hFirst (hOther event List.mem_cons_self)]
    exact ih hRest (fun other hMem => hOther other (List.mem_cons_of_mem _ hMem)) (h.step hFirst)

def nestedRowEvents : List (Event Unit) := [
  .insertSplit ⟨0, ()⟩ {},
  .insertSplit ⟨1, ()⟩ { direction := some Right },
  .insertSplit ⟨2, ()⟩ { relativeSplit := some ⟨1, ()⟩, direction := some Below },
  .insertSplit ⟨3, ()⟩ { relativeSplit := some ⟨2, ()⟩, direction := some Right },
  .releaseSplit ⟨1, ()⟩]

def nestedRow : SplitContainer Unit Rat := nestedRowEvents.foldl step .empty

theorem nestedRow_reachable : Reachable nestedRow := by
  have hRun : AllSteps step Admissible (.empty : SplitContainer Unit Rat) nestedRowEvents := by decide +kernel
  exact ⟨.empty, nestedRowEvents, .empty, hRun, rfl⟩

theorem restored_and_inPlace_nestedRow :
    ((nestedRow.cancel ⟨2, ()⟩).baseNode_.splits = nestedRow.baseNode_.splits ↔ ¬LosesPlace ⟨2, ()⟩ nestedRow) ∧
    (InPlace Right ⟨4, ()⟩ nestedRow.baseNode_ nestedRow (nestedRow.insertSplit ⟨4, ()⟩ { direction := some Right }) ↔
      isAfter Right ∨ ¬Appends Right nestedRow nestedRow.baseNode_) := by
  have hBase : nestedRow.baseNode_ = plug [] nestedRow.baseNode_ := rfl
  have hNode := nestedRow_reachable.wellFormed.addressed.node?_eq hBase
  refine ⟨(restored_and_inPlace_iff nestedRow_reachable).1 ⟨2, ()⟩ (by decide +kernel), ?_⟩
  exact (restored_and_inPlace_iff nestedRow_reachable).2 ⟨4, ()⟩ (by decide +kernel) { direction := some Right }
    nestedRow.baseNode_ hNode

theorem filter_splits_of_run_nestedRow : (([.insertSplit ⟨4, ()⟩ {}, .releaseSplit ⟨2, ()⟩] : List (Event Unit)).foldl
      step nestedRow).baseNode_.splits.filter (fun split => split.address < 2) =
    nestedRow.baseNode_.splits.filter fun split => split.address < 2 :=
  filter_splits_of_run nestedRow_reachable (by decide +kernel) (by decide)

theorem not_restored_nestedRow : ¬∀ container : SplitContainer Unit Rat, Reachable container →
    ∀ split ∈ container.splits_, (container.cancel split).baseNode_.splits = container.baseNode_.splits := by
  intro hRestored
  have hSame := hRestored nestedRow nestedRow_reachable ⟨0, ()⟩ (by decide +kernel)
  exact absurd hSame (by decide +kernel)

end

end SplitContainer

end Chatterino.Splits
