import Chatterino.Lib.RoseTree
import Mathlib.Algebra.Order.Field.Rat
import Mathlib.Data.List.Perm.Subperm

/-! # Split containers

The splits of a tab form a tree of rows and columns. A node owns its children and points to its
parent; pointers are addresses that are given out once. Geometry and focus are left out.
-/

namespace Chatterino.Splits

open Lib

abbrev Address := Nat

/-- A split, with what it shows. Two pointers to splits are compared by their addresses. -/
structure Split (δ : Type) where
  address : Address
  shown : δ
  deriving DecidableEq

inductive SplitDirection where
  | Left
  | Above
  | Right
  | Below
  deriving DecidableEq, Repr

inductive NodeType where
  | EmptyRoot
  | Split
  | VerticalContainer
  | HorizontalContainer
  deriving DecidableEq, Repr

open SplitDirection
open NodeType hiding Split

/-- What the flex values are calculated with. -/
class Flex (F : Type) extends Zero F, One F, Add F, Mul F, Div F, Max F, NatCast F where
  /-- `0.0001` -/
  tiny : F

instance : Flex Rat where
  zero := 0
  tiny := 1 / 10000

structure NodeData (δ F : Type) where
  address : Address
  type_ : NodeType
  split_ : Option (Split δ)
  parent_ : Option Address
  flexH_ : F
  flexV_ : F
  deriving DecidableEq

/-- A node with its `children_`. -/
abbrev Node (δ F : Type) := RoseTree (NodeData δ F)

structure Position where
  relativeNode_ : Option Address := none
  direction_ : SplitDirection := Right
  deriving DecidableEq

variable {δ F : Type}

def NodeType.isContainer : NodeType → Bool
  | VerticalContainer | HorizontalContainer => true
  | _ => false

def toContainerType (direction : SplitDirection) : NodeType :=
  if direction = Left ∨ direction = Right then HorizontalContainer else VerticalContainer

namespace Node

def empty [One F] (address : Address) (parent : Option Address) : Node δ F :=
  .node ⟨address, EmptyRoot, none, parent, 1, 1⟩ []

def ofSplit [One F] (address : Address) (split : Split δ) (parent : Address) : Node δ F :=
  .node ⟨address, NodeType.Split, some split, some parent, 1, 1⟩ []

def setParent (parent : Address) (node : Node δ F) : Node δ F :=
  .node { node.value with parent_ := some parent } node.children

def isAt (address : Address) (data : NodeData δ F) : Bool := data.address = address

def holds (split : Split δ) (data : NodeData δ F) : Bool :=
  data.type_ = NodeType.Split ∧ data.split_.map Split.address = some split.address

def findNodeContainingSplit (split : Split δ) (node : Node δ F) : Option Address :=
  (node.find? (holds split)).map fun found => found.value.address

def isOrContainsNode (address : Address) (node : Node δ F) : Bool := (node.find? (isAt address)).isSome

def indexOf (address : Address) (siblings : List (Node δ F)) : Nat :=
  siblings.findIdx fun sibling => isAt address sibling.value

def getFlex (isVertical : Bool) (data : NodeData δ F) : F := if isVertical then data.flexV_ else data.flexH_

section

variable [Flex F]

def clamp (data : NodeData δ F) : NodeData δ F :=
  { data with flexH_ := max 0 data.flexH_, flexV_ := max 0 data.flexV_ }

def getChildrensTotalFlex (isVertical : Bool) (children : List (NodeData δ F)) : F :=
  children.foldl (fun total child => total + getFlex isVertical child) 0

def normalizeFlex (isVertical : Bool) (totalFlex : F) (count : Nat) (data : NodeData δ F) : NodeData δ F :=
  if isVertical then { data with flexV_ := data.flexV_ / totalFlex * count, flexH_ := 1 }
  else { data with flexH_ := data.flexH_ / totalFlex * count, flexV_ := 1 }

/-- What laying out a node makes of the flex values of its children. -/
def layoutChildren (type : NodeType) (children : List (NodeData δ F)) : List (NodeData δ F) :=
  let children := children.map clamp
  if type.isContainer then
    let isVertical : Bool := type = VerticalContainer
    let totalFlex := max Flex.tiny (getChildrensTotalFlex isVertical children)
    children.map (normalizeFlex isVertical totalFlex children.length)
  else children

def layout : Node δ F → Node δ F :=
  RoseTree.para fun value rows =>
    let values := layoutChildren value.type_ (rows.map fun row => row.2.value)
    .node value (List.zipWith (fun value row => .node value row.2.children) values rows)

end

end Node

structure SplitContainer (δ F : Type) where
  baseNode_ : Node δ F
  splits_ : List (Split δ)
  disableLayouting_ : Bool := false
  nextAddress : Address

namespace SplitContainer

open Node

def node? (address : Address) (container : SplitContainer δ F) : Option (Node δ F) :=
  container.baseNode_.find? (isAt address)

def update (address : Address) (change : Node δ F → Node δ F) (container : SplitContainer δ F) :
    SplitContainer δ F :=
  { container with baseNode_ := container.baseNode_.modify (isAt address) change }

def setSplit (this : Address) (split : Split δ) (container : SplitContainer δ F) : SplitContainer δ F :=
  container.update this fun node => .node { node.value with split_ := some split, type_ := NodeType.Split } node.children

section

variable [Flex F]

def layout (container : SplitContainer δ F) : SplitContainer δ F :=
  if container.disableLayouting_ then container
  else { container with baseNode_ := Node.layout container.baseNode_ }

def addSplit (split : Split δ) (container : SplitContainer δ F) : SplitContainer δ F :=
  { container with splits_ := container.splits_ ++ [split] }.layout

def insertSibling (this : Address) (direction : SplitDirection) (node : Node δ F)
    (siblings : List (Node δ F)) : List (Node δ F) :=
  let it := indexOf this siblings
  siblings.insertIdx (if direction = Right ∨ direction = Below then it + 1 else it) node

def insertNextToThis (this : Address) (split : Split δ) (direction : SplitDirection)
    (container : SplitContainer δ F) : SplitContainer δ F :=
  match (container.node? this).bind fun node => node.value.parent_ with
  | none => container
  | some parent =>
    let node := Node.ofSplit container.nextAddress split parent
    { container.update parent fun parentNode =>
        .node parentNode.value (insertSibling this direction node parentNode.children) with
      nextAddress := container.nextAddress + 1 }

def clone (this address : Address) (node : Node δ F) : Node δ F :=
  .node ⟨address, node.value.type_, node.value.split_, some this, 1, 1⟩ (node.children.map (setParent address))

def nestSplitIntoCollection (this : Address) (split : Split δ) (direction : SplitDirection)
    (container : SplitContainer δ F) : SplitContainer δ F :=
  match container.node? this with
  | none => container
  | some node =>
    let address := container.nextAddress
    if toContainerType direction = node.value.type_ then
      { container.update this fun node =>
          .node node.value (node.children ++ [Node.ofSplit address split this]) with
        nextAddress := address + 1 }
    else
      { container.update this fun node =>
          .node { node.value with type_ := toContainerType direction, split_ := none }
            [clone this address node] with
        nextAddress := address + 1 }.insertNextToThis address split direction

def insertSplitRelative (this : Address) (split : Split δ) (direction : SplitDirection)
    (container : SplitContainer δ F) : SplitContainer δ F :=
  match container.node? this with
  | none => container
  | some node =>
    match node.value.parent_ with
    | none =>
      if node.value.type_ = EmptyRoot then container.setSplit this split
      else container.nestSplitIntoCollection this split direction
    | some parent =>
      if (container.node? parent).map (fun node => node.value.type_) = some (toContainerType direction) then
        container.insertNextToThis this split direction
      else container.nestSplitIntoCollection this split direction

structure InsertOptions (δ : Type) where
  position : Option Position := none
  relativeSplit : Option (Split δ) := none
  relativeNode : Option Address := none
  direction : Option SplitDirection := none

def relativeTo (options : InsertOptions δ) (container : SplitContainer δ F) : Option Address :=
  match options.relativeSplit with
  | some relativeSplit => container.baseNode_.findNodeContainingSplit relativeSplit
  | none =>
    match options.position with
    | some position => position.relativeNode_
    | none => options.relativeNode

def InsertOptions.towards (options : InsertOptions δ) : SplitDirection :=
  match options.position with
  | some position => position.direction_
  | none => options.direction.getD Right

def insertSplit (split : Split δ) (options : InsertOptions δ) (container : SplitContainer δ F) :
    SplitContainer δ F :=
  let base := container.baseNode_.value
  let inserted :=
    match container.relativeTo options with
    | none =>
      if base.type_ = EmptyRoot then container.setSplit base.address split
      else if base.type_ = NodeType.Split then container.nestSplitIntoCollection base.address split options.towards
      else container.insertSplitRelative base.address split options.towards
    | some relativeTo => container.insertSplitRelative relativeTo split options.towards
  inserted.addSplit split

def takeOver (this : Address) (siblings : List (Node δ F)) (value : NodeData δ F) : Node δ F :=
  match siblings with
  | [] => .node value []
  | sibling :: _ =>
    .node { value with type_ := sibling.value.type_, split_ := sibling.value.split_ }
      (sibling.children.map (setParent this))

def sideOf (type : NodeType) (first : Bool) : SplitDirection :=
  if type = VerticalContainer then (if first then Above else Below) else if first then Left else Right

def releaseNode (this : Address) (container : SplitContainer δ F) : Position × SplitContainer δ F :=
  match (container.node? this).bind fun node => node.value.parent_ with
  | none =>
    ({ relativeNode_ := none, direction_ := Right }, container.update this fun node =>
      .node { node.value with type_ := EmptyRoot, split_ := none } node.children)
  | some parent =>
    match container.node? parent with
    | none => ({}, container)
    | some parentNode =>
      let siblings := parentNode.children
      let it := indexOf this siblings
      let type := parentNode.value.type_
      if siblings.length = 2 then
        ({ relativeNode_ := some parent, direction_ := sideOf type (it = 0) },
          container.update parent fun node => takeOver parent (node.children.eraseIdx it) node.value)
      else
        let erased := container.update parent fun node => .node node.value (node.children.eraseIdx it)
        if it + 1 = siblings.length then
          ({ relativeNode_ := (siblings.eraseIdx it).getLast?.map fun node => node.value.address
             direction_ := sideOf type false }, erased)
        else
          ({ relativeNode_ := siblings[it + 1]?.map fun node => node.value.address
             direction_ := sideOf type true }, erased)

def releaseSplit (split : Split δ) (container : SplitContainer δ F) : Position × SplitContainer δ F :=
  match container.baseNode_.findNodeContainingSplit split with
  | none => ({}, container)
  | some address =>
    let (position, released) :=
      { container with
        splits_ := container.splits_.eraseP fun other => other.address = split.address }.releaseNode address
    (position, released.layout)

end

end SplitContainer

end Chatterino.Splits

namespace Chatterino.Splits

open Lib RoseTree Node SplitDirection
open NodeType hiding Split

variable {δ F : Type} {container : SplitContainer δ F} {context : List (Frame (NodeData δ F))}
  {frame : Frame (NodeData δ F)} {node : Node δ F} {address : Address}

namespace SplitContainer

structure Addressed (container : SplitContainer δ F) : Prop where
  nodup : (container.baseNode_.toList.map NodeData.address).Nodup
  fresh : ∀ data ∈ container.baseNode_.toList, data.address < container.nextAddress

theorem isAt_iff {data : NodeData δ F} : isAt address data = true ↔ data.address = address :=
  decide_eq_true_iff

theorem isAt_eq_false {data : NodeData δ F} (h : data.address ≠ address) : isAt address data = false :=
  decide_eq_false h

theorem mem_toList_value (node : Node δ F) : node.value ∈ node.toList :=
  List.mem_map_of_mem (mem_subtrees_self node)

theorem Addressed.rest (h : container.Addressed) (hBase : container.baseNode_ = plug context node) :
    ∀ data ∈ RoseTree.rest context, isAt node.value.address data = false := by
  intro data hData
  have hNodup := h.nodup
  rw [hBase, ((toList_plug_perm context node).map _).nodup_iff, List.map_append] at hNodup
  apply isAt_eq_false
  intro hSame
  exact (List.nodup_append.mp hNodup).2.2 node.value.address (List.mem_map_of_mem (mem_toList_value node))
    data.address (List.mem_map_of_mem hData) hSame.symm

theorem Addressed.node?_eq (h : container.Addressed) (hBase : container.baseNode_ = plug context node) :
    container.node? node.value.address = some node := by
  rw [node?, hBase, find?_plug (h.rest hBase)]
  exact find?_root (isAt_iff.mpr rfl)

theorem Addressed.update_eq (h : container.Addressed) (hBase : container.baseNode_ = plug context node)
    (change : Node δ F → Node δ F) : container.update node.value.address change =
      { container with baseNode_ := plug context (change node) } := by
  have hChange : (plug context node).modify (isAt node.value.address) change = plug context (change node) := by
    rw [modify_plug change (h.rest hBase), modify_root (isAt_iff.mpr rfl)]
  rw [update, hBase, hChange]

theorem exists_plug_of_node? (h : container.node? address = some node) :
    node.value.address = address ∧ ∃ context, container.baseNode_ = plug context node :=
  ⟨isAt_iff.mp (value_of_find? h), exists_plug_of_find? h⟩

theorem Addressed.replace (h : container.Addressed) (hBase : container.baseNode_ = plug context node)
    {container' : SplitContainer δ F} {node' : Node δ F} {count : Nat}
    (hBase' : container'.baseNode_ = plug context node')
    (hNext : container'.nextAddress = container.nextAddress + count)
    (hNode : (node'.toList.map NodeData.address).Subperm
      (node.toList.map NodeData.address ++ List.range' container.nextAddress count)) :
    container'.Addressed := by
  have hOld : ((node.toList ++ RoseTree.rest context).map NodeData.address).Perm
      (container.baseNode_.toList.map NodeData.address) := by
    rw [hBase]
    exact ((toList_plug_perm context node).map _).symm
  have hAll : (container'.baseNode_.toList.map NodeData.address).Subperm
      (container.baseNode_.toList.map NodeData.address ++ List.range' container.nextAddress count) := by
    rw [hBase']
    refine ((toList_plug_perm context node').map _).subperm.trans ?_
    rw [List.map_append]
    refine (hNode.append (List.Subperm.refl _)).trans (List.Perm.subperm ?_)
    refine List.Perm.trans ?_ (hOld.append_right _)
    rw [List.map_append, List.append_assoc, List.append_assoc]
    exact List.perm_append_comm.append_left _
  have hBound : ∀ address ∈ container.baseNode_.toList.map NodeData.address,
      address < container.nextAddress := by
    rintro address hAddress
    obtain ⟨data, hData, rfl⟩ := List.mem_map.mp hAddress
    exact h.fresh data hData
  constructor
  · obtain ⟨used, hPerm, hSublist⟩ := hAll
    refine hPerm.nodup_iff.mp (hSublist.nodup ?_)
    refine List.nodup_append.mpr ⟨h.nodup, List.nodup_range', ?_⟩
    intro address hAddress other hOther
    exact Nat.ne_of_lt (Nat.lt_of_lt_of_le (hBound address hAddress) (List.mem_range'_1.mp hOther).1)
  · intro data hData
    rw [hNext]
    rcases List.mem_append.mp (hAll.subset (List.mem_map_of_mem hData)) with hOld | hNew
    · exact Nat.lt_of_lt_of_le (hBound _ hOld) (Nat.le_add_right _ _)
    · exact (List.mem_range'_1.mp hNew).2

theorem address_setParent (parent : Address) (node : Node δ F) :
    (setParent parent node).toList.map NodeData.address = node.toList.map NodeData.address := by
  cases node with
  | node value children =>
    rw [setParent, toList_node, toList_node]
    rfl

theorem address_map_setParent (parent : Address) (nodes : List (Node δ F)) :
    ((nodes.map (setParent parent)).flatMap toList).map NodeData.address =
      (nodes.flatMap toList).map NodeData.address := by
  rw [List.flatMap_map, List.map_flatMap, List.map_flatMap]
  exact congrArg nodes.flatMap (funext (address_setParent parent))

def beside (direction : SplitDirection) (node new : Node δ F) : List (Node δ F) :=
  if direction = Right ∨ direction = Below then [node, new] else [new, node]

theorem indexOf_eq {before after : List (Node δ F)} (hNode : isAt address node.value = true)
    (hBefore : ∀ sibling ∈ before, isAt address sibling.value = false) :
    indexOf address (before ++ node :: after) = before.length := by
  induction before with
  | nil => exact (List.findIdx_cons).trans (by rw [hNode]; rfl)
  | cons sibling before ih =>
    rw [List.forall_mem_cons] at hBefore
    rw [indexOf, List.cons_append, List.findIdx_cons, hBefore.1, ← indexOf, ih hBefore.2]
    rfl

theorem insertIdx_length {α : Type} (before after : List α) (new : α) :
    (before ++ after).insertIdx before.length new = before ++ new :: after := by
  induction before with
  | nil => exact List.insertIdx_zero
  | cons first before ih => rw [List.cons_append, List.length_cons, List.insertIdx_succ_cons, ih, List.cons_append]

theorem insertSibling_eq {before after : List (Node δ F)} {new : Node δ F} (direction : SplitDirection)
    (hBefore : ∀ sibling ∈ before, isAt node.value.address sibling.value = false) :
    insertSibling node.value.address direction new (before ++ node :: after) =
      before ++ (beside direction node new ++ after) := by
  have hAfter := insertIdx_length (before ++ [node]) after new
  rw [List.length_append, List.append_assoc, List.append_assoc] at hAfter
  unfold insertSibling beside
  dsimp only
  rw [indexOf_eq (isAt_iff.mpr rfl) hBefore]
  split_ifs
  · exact hAfter
  · exact insertIdx_length before (node :: after) new

theorem Addressed.before (h : container.Addressed)
    (hBase : container.baseNode_ = plug (frame :: context) node) :
    ∀ sibling ∈ frame.before, isAt node.value.address sibling.value = false := by
  intro sibling hSibling
  apply h.rest hBase
  refine List.mem_flatMap.mpr ⟨frame, List.mem_cons_self, List.mem_cons_of_mem _ ?_⟩
  exact List.mem_append_left _ (List.mem_flatMap.mpr ⟨sibling, hSibling, mem_toList_value sibling⟩)

variable [Flex F] {split : Split δ} {direction : SplitDirection}

theorem Addressed.insertNextToThis_eq (h : container.Addressed) (split : Split δ) (direction : SplitDirection)
    (hBase : container.baseNode_ = plug (frame :: context) node)
    (hParent : node.value.parent_ = some frame.value.address) :
    container.insertNextToThis node.value.address split direction =
      { container with
        baseNode_ := plug context (.node frame.value (frame.before ++
          (beside direction node (.ofSplit container.nextAddress split frame.value.address) ++ frame.after)))
        nextAddress := container.nextAddress + 1 } := by
  have hThis : ((container.node? node.value.address).bind fun node => node.value.parent_) =
      some frame.value.address := by
    rw [h.node?_eq hBase]
    exact hParent
  have hFill : container.baseNode_ = plug context (frame.fill node) := hBase
  have hUpdate := h.update_eq hFill
  rw [insertNextToThis, hThis]
  dsimp only
  rw [show frame.value.address = (frame.fill node).value.address from rfl, hUpdate]
  rw [show (frame.fill node).children = frame.before ++ node :: frame.after from rfl,
    insertSibling_eq direction (h.before hBase)]
  rfl

theorem Addressed.nestSplitIntoCollection_eq (h : container.Addressed)
    (hBase : container.baseNode_ = plug context node) (hType : toContainerType direction = node.value.type_) :
    container.nestSplitIntoCollection node.value.address split direction =
      { container with
        baseNode_ := plug context (.node node.value
          (node.children ++ [ofSplit container.nextAddress split node.value.address]))
        nextAddress := container.nextAddress + 1 } := by
  rw [nestSplitIntoCollection, h.node?_eq hBase]
  dsimp only
  rw [if_pos hType, h.update_eq hBase]

theorem perm_address_clone (value : NodeData δ F) (children : List (Node δ F)) (address : Address)
    (type : NodeType) : ((RoseTree.node { value with type_ := type, split_ := none }
        [clone value.address address (.node value children)]).toList.map NodeData.address).Perm
      ((RoseTree.node value children).toList.map NodeData.address ++ [address]) := by
  have hClone : (clone value.address address (.node value children)).toList.map NodeData.address =
      address :: (children.flatMap toList).map NodeData.address := by
    rw [clone, toList_node, List.map_cons]
    exact congrArg _ (address_map_setParent address children)
  rw [toList_node, toList_node, List.flatMap_singleton, List.map_cons, hClone, List.map_cons]
  exact ((List.perm_append_singleton _ _).symm).cons _

theorem Addressed.nestSplitIntoCollection_of_ne (h : container.Addressed)
    (hBase : container.baseNode_ = plug context node) (hType : toContainerType direction ≠ node.value.type_) :
    container.nestSplitIntoCollection node.value.address split direction =
      { container with
        baseNode_ := plug context (.node
          { node.value with type_ := toContainerType direction, split_ := none }
          (beside direction (clone node.value.address container.nextAddress node)
            (.ofSplit (container.nextAddress + 1) split node.value.address)))
        nextAddress := container.nextAddress + 2 } := by
  rw [nestSplitIntoCollection, h.node?_eq hBase]
  dsimp only
  rw [if_neg hType, h.update_eq hBase]
  let value : NodeData δ F := { node.value with type_ := toContainerType direction, split_ := none }
  let moved : SplitContainer δ F := { container with
    baseNode_ := plug (⟨value, [], []⟩ :: context) (clone node.value.address container.nextAddress node)
    nextAddress := container.nextAddress + 1 }
  have hMoved : moved.Addressed := by
    have hNext : moved.nextAddress = container.nextAddress + 1 := rfl
    refine h.replace hBase rfl hNext (List.Perm.subperm ?_)
    cases node with
    | node value children => exact perm_address_clone value children container.nextAddress _
  have hNext := hMoved.insertNextToThis_eq split direction rfl rfl
  refine hNext.trans ?_
  simp [moved, value]

end SplitContainer

end Chatterino.Splits
