import Chatterino.Splits.SplitInvariants

/-! # Inserting a split

A new split goes next to a node, to the end of its children, or the node is nested to make room. Each
way keeps the container well-formed.
-/

namespace Chatterino.Splits

open Lib RoseTree Node SplitDirection
open NodeType hiding Split

namespace SplitContainer

variable {δ F : Type} {container container' : SplitContainer δ F} {context : List (Frame (NodeData δ F))}
  {frame : Frame (NodeData δ F)} {node : Node δ F} {split : Split δ} {direction : SplitDirection}

/-- The node takes the split at the end of its children: it is a container of the wanted type, and
its parent is not. -/
def Appends (direction : SplitDirection) (container : SplitContainer δ F) (node : Node δ F) : Prop :=
  toContainerType direction = node.value.type_ ∧ ∀ parent, node.value.parent_ = some parent →
    (container.node? parent).map (fun node => node.value.type_) ≠ some (toContainerType direction)

theorem toContainerType_isContainer (direction : SplitDirection) :
    (toContainerType direction).isContainer = true := by
  cases direction <;> rfl

section

variable [Flex F]

/-- Where a split is inserted relative to a node, and what becomes of the tree. -/
inductive Inserts (split : Split δ) (direction : SplitDirection) (container : SplitContainer δ F)
    (node : Node δ F) : SplitContainer δ F → Prop
  | root (hBase : container.baseNode_ = node) (hType : node.value.type_ = EmptyRoot) :
    Inserts split direction container node { container with
      baseNode_ := .node { node.value with split_ := some split, type_ := NodeType.Split } node.children }
  | next (context : List (Frame (NodeData δ F))) (frame : Frame (NodeData δ F))
    (hBase : container.baseNode_ = plug (frame :: context) node)
    (hType : toContainerType direction = frame.value.type_) :
    Inserts split direction container node { container with
      baseNode_ := plug context (.node frame.value (frame.before ++
        (beside direction node (ofSplit container.nextAddress split frame.value.address) ++ frame.after)))
      nextAddress := container.nextAddress + 1 }
  | append (context : List (Frame (NodeData δ F))) (hBase : container.baseNode_ = plug context node)
    (hAppends : Appends direction container node) :
    Inserts split direction container node { container with
      baseNode_ := plug context (.node node.value
        (node.children ++ [ofSplit container.nextAddress split node.value.address]))
      nextAddress := container.nextAddress + 1 }
  | nest (context : List (Frame (NodeData δ F))) (hBase : container.baseNode_ = plug context node)
    (hType : toContainerType direction ≠ node.value.type_) (hRoot : node.value.type_ ≠ EmptyRoot) :
    Inserts split direction container node { container with
      baseNode_ := plug context (.node
        { node.value with type_ := toContainerType direction, split_ := none }
        (beside direction (clone node.value.address container.nextAddress node)
          (ofSplit (container.nextAddress + 1) split node.value.address)))
      nextAddress := container.nextAddress + 2 }

end

theorem WellFormed.frame_sound (h : container.WellFormed) (hBase : container.baseNode_ = plug (frame :: context) node) :
    Sound frame.value (frame.before.map RoseTree.value ++ node.value :: frame.after.map RoseTree.value) := by
  have hSound := h.sound
  rw [hBase, plug_cons] at hSound
  exact (forall_fill.mp (forall_plug.mp hSound).1).2.1

theorem WellFormed.parent_eq (h : container.WellFormed)
    (hBase : container.baseNode_ = plug (frame :: context) node) :
    node.value.parent_ = some frame.value.address :=
  (h.frame_sound hBase).parent _ (List.mem_append_right _ List.mem_cons_self)

theorem WellFormed.node_sound (h : container.WellFormed) (hBase : container.baseNode_ = plug context node) :
    node.Forall Sound := by
  have hSound := h.sound
  rw [hBase] at hSound
  exact (forall_plug.mp hSound).1

theorem WellFormed.type_ne_emptyRoot (h : container.WellFormed)
    (hBase : container.baseNode_ = plug (frame :: context) node) : node.value.type_ ≠ EmptyRoot :=
  (h.frame_sound hBase).inner _ (List.mem_append_right _ List.mem_cons_self)

theorem WellFormed.parentNode (h : container.WellFormed)
    (hBase : container.baseNode_ = plug (frame :: context) node) :
    container.node? frame.value.address = some (frame.fill node) := by
  have hFill : container.baseNode_ = plug context (frame.fill node) := hBase
  exact h.addressed.node?_eq hFill

theorem WellFormed.appends_iff_of_frame (h : container.WellFormed)
    (hBase : container.baseNode_ = plug (frame :: context) node) : Appends direction container node ↔
      toContainerType direction = node.value.type_ ∧ toContainerType direction ≠ frame.value.type_ := by
  have hParent := h.parentNode hBase
  unfold Appends
  rw [h.parent_eq hBase]
  refine and_congr_right fun _ => ⟨fun hOuter hSame => ?_, fun hOuter parent hSame => ?_⟩
  · refine hOuter frame.value.address rfl ?_
    rw [hParent, hSame]
    rfl
  · rw [← Option.some.inj hSame, hParent]
    exact fun hType => hOuter (Option.some.inj hType).symm

theorem WellFormed.appends_iff_of_root (h : container.WellFormed) (hBase : container.baseNode_ = node) :
    Appends direction container node ↔ toContainerType direction = node.value.type_ := by
  have hRoot := h.root
  rw [hBase] at hRoot
  unfold Appends
  rw [hRoot]
  refine and_iff_left ?_
  rintro parent ⟨⟩

variable [Flex F]

theorem WellFormed.nest_inserts (h : container.WellFormed) (hBase : container.baseNode_ = plug context node)
    (hOuter : toContainerType direction = node.value.type_ → Appends direction container node)
    (hRoot : node.value.type_ ≠ EmptyRoot) : Inserts split direction container node
      (container.nestSplitIntoCollection node.value.address split direction) := by
  by_cases hType : toContainerType direction = node.value.type_
  · rw [h.addressed.nestSplitIntoCollection_eq hBase hType]
    exact .append context hBase (hOuter hType)
  · rw [h.addressed.nestSplitIntoCollection_of_ne hBase hType]
    exact .nest context hBase hType hRoot

theorem WellFormed.insertSplitRelative_inserts (h : container.WellFormed)
    (hBase : container.baseNode_ = plug context node) : Inserts split direction container node
      (container.insertSplitRelative node.value.address split direction) := by
  rw [insertSplitRelative, h.addressed.node?_eq hBase]
  dsimp only
  cases context with
  | nil =>
    have hParent : node.value.parent_ = none := h.parent_plug hBase rfl
    rw [hParent]
    dsimp only
    split_ifs with hType
    · rw [setSplit, h.addressed.update_eq hBase]
      exact .root hBase hType
    · exact h.nest_inserts hBase (h.appends_iff_of_root hBase).mpr hType
  | cons frame context =>
    rw [h.parent_eq hBase]
    dsimp only
    rw [h.parentNode hBase]
    split_ifs with hType
    · rw [h.addressed.insertNextToThis_eq split direction hBase (h.parent_eq hBase)]
      exact .next context frame hBase (Option.some.inj hType).symm
    · refine h.nest_inserts hBase (fun hSame => ?_) (h.type_ne_emptyRoot hBase)
      refine (h.appends_iff_of_frame hBase).mpr ⟨hSame, fun hFrame => hType ?_⟩
      exact congrArg some hFrame.symm

def target (options : InsertOptions δ) (container : SplitContainer δ F) : Address :=
  (container.relativeTo options).getD container.baseNode_.value.address

theorem WellFormed.insertSplit_eq (h : container.WellFormed) (options : InsertOptions δ) :
    container.insertSplit split options =
      (container.insertSplitRelative (container.target options) split options.towards).addSplit split := by
  have hBase : container.baseNode_ = plug [] container.baseNode_ := rfl
  unfold insertSplit target
  dsimp only
  cases container.relativeTo options with
  | some relativeTo => rfl
  | none =>
    dsimp only [Option.getD_none]
    split_ifs with hEmpty hSplit
    · rw [insertSplitRelative, h.addressed.node?_eq hBase]
      dsimp only
      rw [h.root]
      dsimp only
      rw [if_pos hEmpty]
    · rw [insertSplitRelative, h.addressed.node?_eq hBase]
      dsimp only
      rw [h.root]
      dsimp only
      rw [if_neg hEmpty]
    · rfl

end SplitContainer

open NodeType hiding Split

variable {δ F : Type} {context : List (Frame (NodeData δ F))} {frame : Frame (NodeData δ F)}
  {node new : Node δ F} {data data' : NodeData δ F} {split : Split δ} {direction : SplitDirection}

theorem Sound.replace {before after : List (NodeData δ F)} {child child' : NodeData δ F}
    (h : Sound data (before ++ child :: after)) (hParent : child'.parent_ = child.parent_)
    (hType : child'.type_ ≠ EmptyRoot) : Sound data (before ++ child' :: after) := by
  have hMem {other : NodeData δ F} (hOther : other ∈ before ++ child' :: after) :
      other = child' ∨ other ∈ before ++ child :: after := by
    rw [List.mem_append, List.mem_cons, or_left_comm] at hOther
    refine hOther.imp_right fun hOld => hOld.elim (List.mem_append_left _) fun hAfter => ?_
    exact List.mem_append_right _ (List.mem_cons_of_mem _ hAfter)
  have hCons : before ++ child :: after ≠ [] := List.append_ne_nil_of_right_ne_nil _ (List.cons_ne_nil _ _)
  constructor
  · exact h.split
  · exact fun hSplit => absurd (h.leaf hSplit) hCons
  · exact fun hEmpty => absurd (h.emptyRoot hEmpty) hCons
  · intro hContainer
    have hLength := h.container hContainer
    rw [List.length_append, List.length_cons] at hLength ⊢
    exact hLength
  · intro other hOther
    rcases hMem hOther with rfl | hOld
    · rw [hParent]
      exact h.parent child (List.mem_append_right _ List.mem_cons_self)
    · exact h.parent other hOld
  · intro other hOther
    rcases hMem hOther with rfl | hOld
    · exact hType
    · exact h.inner other hOld

section

variable [Flex F]

theorem forall_sound_ofSplit (address : Address) (split : Split δ) (parent : Address) :
    (ofSplit address split parent : Node δ F).Forall Sound :=
  forall_node.mpr ⟨.ofSplit rfl rfl, by rintro _ ⟨⟩⟩

theorem splits_ofSplit (address : Address) (split : Split δ) (parent : Address) :
    (ofSplit address split parent : Node δ F).splits = [split] := splits_leaf _

end

namespace SplitContainer

def besideSplits (direction : SplitDirection) (splits : List (Split δ)) (split : Split δ) : List (Split δ) :=
  if direction = Right ∨ direction = Below then splits ++ [split] else split :: splits

theorem beside_eq (direction : SplitDirection) (node new : Node δ F) :
    beside direction node new = [node, new] ∨ beside direction node new = [new, node] := by
  unfold beside
  split_ifs
  · exact .inl rfl
  · exact .inr rfl

theorem beside_ne_nil (direction : SplitDirection) (node new : Node δ F) : beside direction node new ≠ [] := by
  unfold beside
  split_ifs <;> exact List.cons_ne_nil _ _

theorem splits_beside (direction : SplitDirection) (node : Node δ F) (hNew : new.splits = [split]) :
    (beside direction node new).flatMap splits = besideSplits direction node.splits split := by
  unfold beside besideSplits
  split_ifs
  · rw [List.flatMap_cons, List.flatMap_singleton, hNew]
  · rw [List.flatMap_cons, List.flatMap_singleton, hNew, List.singleton_append]

theorem besideSplits_perm (direction : SplitDirection) (splits : List (Split δ)) (split : Split δ) :
    (besideSplits direction splits split).Perm (splits ++ [split]) := by
  unfold besideSplits
  split_ifs
  · exact .rfl
  · exact (List.perm_append_singleton split splits).symm

theorem exists_beside (direction : SplitDirection) (node new : Node δ F) (before after : List (Node δ F)) :
    ∃ left right, before ++ (beside direction node new ++ after) = left ++ new :: right ∧
      left ++ right = before ++ node :: after := by
  obtain hBeside | hBeside := beside_eq direction node new
  · refine ⟨before ++ [node], after, ?_, ?_⟩
    · rw [hBeside, List.append_assoc]
      rfl
    · rw [List.append_assoc]
      rfl
  · refine ⟨before, node :: after, ?_, rfl⟩
    rw [hBeside]
    rfl

theorem forall_sound_add {left right : List (Node δ F)} (h : (RoseTree.node data (left ++ right)).Forall Sound)
    (hContainer : data.type_.isContainer) (hNew : new.Forall Sound)
    (hParent : new.value.parent_ = some data.address) (hType : new.value.type_ ≠ EmptyRoot) :
    (RoseTree.node data (left ++ new :: right)).Forall Sound := by
  obtain ⟨hRoot, hBelow⟩ := forall_node.mp h
  rw [List.map_append] at hRoot
  refine forall_node.mpr ⟨?_, ?_⟩
  · rw [List.map_append, List.map_cons]
    exact hRoot.insert hContainer hParent hType
  · intro child hChild
    rw [List.mem_append, List.mem_cons, or_left_comm, ← List.mem_append] at hChild
    rcases hChild with rfl | hOld
    · exact hNew
    · exact hBelow child hOld

theorem forall_sound_beside (hContainer : data.type_.isContainer) (hSplit : data.split_ = none)
    (hNode : node.Forall Sound) (hNew : new.Forall Sound)
    (hParents : node.value.parent_ = some data.address ∧ new.value.parent_ = some data.address)
    (hTypes : node.value.type_ ≠ EmptyRoot ∧ new.value.type_ ≠ EmptyRoot) :
    (RoseTree.node data (beside direction node new)).Forall Sound := by
  have hMem {child : Node δ F} (hChild : child ∈ beside direction node new) : child = node ∨ child = new := by
    obtain hBeside | hBeside := beside_eq direction node new
    · rw [hBeside] at hChild
      exact (List.mem_cons.mp hChild).imp_right List.mem_singleton.mp
    · rw [hBeside] at hChild
      exact ((List.mem_cons.mp hChild).imp_right List.mem_singleton.mp).symm
  have hLength : (beside direction node new).length = 2 := by
    obtain hBeside | hBeside := beside_eq direction node new <;> rw [hBeside] <;> rfl
  refine forall_node.mpr ⟨?_, ?_⟩
  · constructor
    · refine iff_of_false ?_ (by simp [hSplit])
      intro hType
      rw [hType] at hContainer
      cases hContainer
    · intro hType
      rw [hType] at hContainer
      cases hContainer
    · intro hType
      rw [hType] at hContainer
      cases hContainer
    · intro _
      rw [List.length_map]
      exact Nat.le_of_eq hLength.symm
    · intro child hChild
      obtain ⟨inner, hInner, rfl⟩ := List.mem_map.mp hChild
      obtain rfl | rfl := hMem hInner
      · exact hParents.1
      · exact hParents.2
    · intro child hChild
      obtain ⟨inner, hInner, rfl⟩ := List.mem_map.mp hChild
      obtain rfl | rfl := hMem hInner
      · exact hTypes.1
      · exact hTypes.2
  · intro child hChild
    obtain rfl | rfl := hMem hChild
    · exact hNode
    · exact hNew

theorem address_add_perm (left right : List (Node δ F)) :
    ((RoseTree.node data (left ++ new :: right)).toList.map NodeData.address).Perm
      ((RoseTree.node data (left ++ right)).toList.map NodeData.address ++ new.toList.map NodeData.address) := by
  rw [← List.map_append, toList_node, toList_node, List.flatMap_append, List.flatMap_append, List.flatMap_cons]
  refine List.Perm.map _ (List.Perm.cons _ ?_)
  change (left.flatMap toList ++ (new.toList ++ right.flatMap toList)).Perm
    (left.flatMap toList ++ right.flatMap toList ++ new.toList)
  rw [List.append_assoc]
  exact List.perm_append_comm.append_left _

variable {container container' : SplitContainer δ F}

theorem splits_fill (frame : Frame (NodeData δ F)) (node : Node δ F) : Node.splits (frame.fill node) =
    frame.before.flatMap splits ++ (node.splits ++ frame.after.flatMap splits) := by
  rw [Frame.fill, splits_node, List.flatMap_append, List.flatMap_cons]
  exact List.append_ne_nil_of_right_ne_nil _ (List.cons_ne_nil _ _)

theorem WellFormed.emptyRoot_eq (h : container.WellFormed) (hBase : container.baseNode_ = node)
    (hType : node.value.type_ = EmptyRoot) : node.children = [] ∧ node.splits = [] := by
  have hPlug : container.baseNode_ = plug [] node := hBase
  have hNode := h.node_sound hPlug
  cases node with
  | node value children =>
    have hValue := (forall_node.mp hNode).1
    have hChildren : children = [] := List.map_eq_nil_iff.mp (hValue.emptyRoot hType)
    have hSplit : value.split_ = none := by
      rw [← Option.not_isSome_iff_eq_none, ← hValue.split]
      exact fun hSplit => NodeType.noConfusion (hType.symm.trans hSplit)
    refine ⟨hChildren, ?_⟩
    rw [hChildren, splits_leaf, hSplit]
    rfl

theorem WellFormed.children_ne_nil (h : container.WellFormed) (hBase : container.baseNode_ = plug context node)
    (hContainer : node.value.type_.isContainer) : node.children ≠ [] := by
  have hNode := h.node_sound hBase
  cases node with
  | node value children =>
    have hLength := (forall_node.mp hNode).1.container hContainer
    rintro rfl
    exact absurd hLength (Nat.not_succ_le_zero 1)

variable [Flex F]

theorem Inserts.sound (hInserts : Inserts split direction container node container')
    (h : container.WellFormed) : container'.baseNode_.Forall Sound := by
  cases hInserts with
  | root hBase hType =>
    rw [(h.emptyRoot_eq hBase hType).1]
    exact forall_node.mpr ⟨.ofSplit rfl rfl, by rintro _ ⟨⟩⟩
  | next context frame hBase hType =>
    have hPlug : container.baseNode_ = plug context (frame.fill node) := hBase
    have hFill := h.node_sound hPlug
    obtain ⟨left, right, hAdded, hOld⟩ := exists_beside direction node
      (ofSplit container.nextAddress split frame.value.address) frame.before frame.after
    have hContainer : frame.value.type_.isContainer := hType ▸ toContainerType_isContainer direction
    have hBase' := h.sound
    rw [hPlug] at hBase'
    refine hBase'.replace ?_ fun _ _ _ hSound => hSound
    rw [hAdded]
    rw [Frame.fill, ← hOld] at hFill
    exact forall_sound_add hFill hContainer (forall_sound_ofSplit _ _ _) rfl NodeType.noConfusion
  | append context hBase hAppends =>
    have hNode := h.node_sound hBase
    have hContainer : node.value.type_.isContainer := hAppends.1 ▸ toContainerType_isContainer direction
    have hBase' := h.sound
    rw [hBase] at hBase'
    refine Forall.replace hBase' ?_ fun _ _ _ hSound => hSound
    cases node with
    | node value children =>
      have hOld : (RoseTree.node value (children ++ [])).Forall Sound := (List.append_nil children).symm ▸ hNode
      exact forall_sound_add hOld hContainer (forall_sound_ofSplit _ _ _) rfl NodeType.noConfusion
  | nest context hBase hType hRoot =>
    have hNode := h.node_sound hBase
    have hBase' := h.sound
    rw [hBase] at hBase'
    have hContainer := toContainerType_isContainer direction
    refine Forall.replace hBase' ?_ fun _ _ _ hSound => hSound.replace rfl ?_
    · exact forall_sound_beside hContainer rfl (forall_sound_move hNode rfl rfl) (forall_sound_ofSplit _ _ _)
        ⟨rfl, rfl⟩ ⟨hRoot, NodeType.noConfusion⟩
    · intro hEmpty
      change toContainerType direction = EmptyRoot at hEmpty
      rw [hEmpty] at hContainer
      cases hContainer

theorem Inserts.addressed (hInserts : Inserts split direction container node container')
    (h : container.WellFormed) : container'.Addressed := by
  cases hInserts with
  | root hBase hType =>
    have hNext : container.nextAddress = container.nextAddress + 0 := rfl
    have hPlug : container.baseNode_ = plug [] node := hBase
    refine h.addressed.replace hPlug rfl hNext (List.Perm.subperm (.of_eq ?_))
    cases node with
    | node value children => exact (List.append_nil _).symm
  | next context frame hBase hType =>
    obtain ⟨left, right, hAdded, hOld⟩ := exists_beside direction node
      (ofSplit container.nextAddress split frame.value.address) frame.before frame.after
    have hNext : container.nextAddress + 1 = container.nextAddress + 1 := rfl
    have hPlug : container.baseNode_ = plug context (frame.fill node) := hBase
    refine h.addressed.replace hPlug rfl hNext (List.Perm.subperm ?_)
    rw [hAdded, Frame.fill, ← hOld]
    exact address_add_perm left right
  | append context hBase hAppends =>
    have hNext : container.nextAddress + 1 = container.nextAddress + 1 := rfl
    refine h.addressed.replace hBase rfl hNext (List.Perm.subperm ?_)
    cases node with
    | node value children =>
      rw [show (RoseTree.node value children).toList = (RoseTree.node value (children ++ [])).toList by
        rw [List.append_nil]]
      exact address_add_perm children []
  | nest context hBase hType hRoot =>
    have hNext : container.nextAddress + 2 = container.nextAddress + 2 := rfl
    refine h.addressed.replace hBase rfl hNext (List.Perm.subperm ?_)
    obtain ⟨left, right, hAdded, hOld⟩ := exists_beside direction
      (clone node.value.address container.nextAddress node)
      (ofSplit (container.nextAddress + 1) split node.value.address) [] []
    rw [List.nil_append, List.append_nil] at hAdded
    rw [hAdded]
    refine (address_add_perm left right).trans ?_
    rw [hOld]
    cases node with
    | node value children =>
      refine ((perm_address_clone value children _ _).append_right _).trans ?_
      rw [List.append_assoc]
      exact .rfl

theorem Inserts.splits_eq (hInserts : Inserts split direction container node container')
    (h : container.WellFormed) : ∃ before after, container.baseNode_.splits = before ++ node.splits ++ after ∧
      (Appends direction container node →
        container'.baseNode_.splits = before ++ (node.splits ++ [split]) ++ after) ∧
      (¬Appends direction container node →
        container'.baseNode_.splits = before ++ besideSplits direction node.splits split ++ after) := by
  cases hInserts with
  | root hBase hType =>
    have hNot : ¬Appends direction container node := by
      rintro ⟨hSame, -⟩
      have hContainer := toContainerType_isContainer direction
      rw [hSame, hType] at hContainer
      cases hContainer
    refine ⟨[], [], ?_, fun hAppends => absurd hAppends hNot, fun _ => ?_⟩
    · rw [hBase, List.nil_append, List.append_nil]
    · obtain ⟨hChildren, hSplits⟩ := h.emptyRoot_eq hBase hType
      rw [hSplits, hChildren, splits_leaf]
      unfold besideSplits
      split_ifs <;> rfl
  | next context frame hBase hType =>
    have hNot : ¬Appends direction container node := fun hAppends =>
      ((h.appends_iff_of_frame hBase).mp hAppends).2 hType
    refine ⟨splitsBefore context ++ frame.before.flatMap splits,
      frame.after.flatMap splits ++ splitsAfter context, ?_, fun hAppends => absurd hAppends hNot, fun _ => ?_⟩
    · rw [hBase, plug_cons, splits_plug, splits_fill]
      simp only [List.append_assoc]
    · rw [splits_plug, splits_node, List.flatMap_append, List.flatMap_append,
        splits_beside _ _ (splits_ofSplit _ _ _)]
      · simp only [List.append_assoc]
      · exact List.append_ne_nil_of_right_ne_nil _ (List.append_ne_nil_of_left_ne_nil (beside_ne_nil _ _ _) _)
  | append context hBase hAppends =>
    refine ⟨splitsBefore context, splitsAfter context, ?_, fun _ => ?_, fun hNot => absurd hAppends hNot⟩
    · rw [hBase, splits_plug]
    · have hChildren := h.children_ne_nil hBase (hAppends.1 ▸ toContainerType_isContainer direction)
      cases node with
      | node value children =>
        have hOld : Node.splits (.node value children) = children.flatMap splits := splits_node value hChildren
        rw [splits_plug, hOld, splits_node, List.flatMap_append, List.flatMap_singleton, splits_ofSplit]
        · rfl
        · exact List.append_ne_nil_of_right_ne_nil _ (List.cons_ne_nil _ _)
  | nest context hBase hType hRoot =>
    refine ⟨splitsBefore context, splitsAfter context, ?_, fun hAppends => absurd hAppends.1 hType, fun _ => ?_⟩
    · rw [hBase, splits_plug]
    · rw [splits_plug, splits_node _ (beside_ne_nil _ _ _), splits_beside _ _ (splits_ofSplit _ _ _)]
      rw [clone, splits_move]
      rfl

theorem Inserts.splits_perm (hInserts : Inserts split direction container node container')
    (h : container.WellFormed) : container'.baseNode_.splits.Perm (container.baseNode_.splits ++ [split]) := by
  obtain ⟨before, after, hOld, hAppends, hBeside⟩ := hInserts.splits_eq h
  have hMove : (before ++ (node.splits ++ [split]) ++ after).Perm (before ++ node.splits ++ after ++ [split]) := by
    simp only [List.append_assoc]
    exact (List.perm_append_comm.append_left _).append_left _
  rw [hOld]
  by_cases hAppend : Appends direction container node
  · rw [hAppends hAppend]
    exact hMove
  · rw [hBeside hAppend]
    exact (((besideSplits_perm direction node.splits split).append_left _).append_right _).trans hMove

theorem Inserts.splits_same (hInserts : Inserts split direction container node container') :
    container'.splits_ = container.splits_ := by
  cases hInserts <;> rfl

theorem Inserts.root_parent (hInserts : Inserts split direction container node container')
    (h : container.WellFormed) : container'.baseNode_.value.parent_ = none := by
  cases hInserts with
  | root hBase hType => exact @WellFormed.parent_plug _ _ _ [] h _ _ hBase rfl
  | next context frame hBase hType =>
    have hPlug : container.baseNode_ = plug context (frame.fill node) := hBase
    exact h.parent_plug hPlug rfl
  | append context hBase hAppends => exact h.parent_plug hBase rfl
  | nest context hBase hType hRoot => exact h.parent_plug hBase rfl

theorem Inserts.wellFormed (hInserts : Inserts split direction container node container')
    (h : container.WellFormed) (hNew : split.address ∉ container.splits_.map Split.address) :
    (container'.addSplit split).WellFormed := by
  apply WellFormed.layout
  have hLeaves : container'.baseNode_.splits.Perm (container'.splits_ ++ [split]) := by
    rw [hInserts.splits_same]
    exact (hInserts.splits_perm h).trans (h.leaves.append_right _)
  have hDistinct : ((container'.splits_ ++ [split]).map Split.address).Nodup := by
    rw [hInserts.splits_same, List.map_append]
    refine List.nodup_append.mpr ⟨h.distinct, List.nodup_singleton _, ?_⟩
    intro address hOld other hOther hSame
    rw [List.map_singleton, List.mem_singleton] at hOther
    exact hNew (hOther ▸ hSame ▸ hOld)
  have hAddressed := hInserts.addressed h
  exact ⟨hInserts.sound h, hInserts.root_parent h, ⟨hAddressed.nodup, hAddressed.fresh⟩, hLeaves, hDistinct⟩

end SplitContainer

end Chatterino.Splits
