import Chatterino.Splits.SplitInserted

/-! # Building a container from a descriptor

A saved tab is a tree of descriptors. Its nodes are created one by one and pushed to the children of
their parents.
-/

namespace Chatterino.Splits

open Lib
open NodeType hiding Split

/-- What is saved of a node. The type `σ` says what is saved of a split. -/
inductive NodeDescriptor (σ F : Type) where
  | split (descriptor : σ) (flexH_ flexV_ : F)
  | container (flexH_ flexV_ : F) (vertical_ : Bool) (items_ : List (NodeDescriptor σ F))

namespace NodeDescriptor

variable {σ F : Type}

@[elab_as_elim]
theorem induction {motive : NodeDescriptor σ F → Prop}
    (split : ∀ descriptor flexH_ flexV_, motive (.split descriptor flexH_ flexV_))
    (container : ∀ flexH_ flexV_ vertical_ items_, (∀ item ∈ items_, motive item) →
      motive (.container flexH_ flexV_ vertical_ items_)) (descriptor : NodeDescriptor σ F) :
    motive descriptor :=
  NodeDescriptor.rec (motive_1 := motive) (motive_2 := fun items => ∀ item ∈ items, motive item) split
    (fun flexH_ flexV_ vertical_ items_ ih => container flexH_ flexV_ vertical_ items_ ih)
    (fun _ hMem => absurd hMem List.not_mem_nil)
    (fun _ _ ihHead ihTail item hMem =>
      (List.mem_cons.mp hMem).elim (fun hHead => hHead ▸ ihHead) (ihTail item)) descriptor

inductive Full : NodeDescriptor σ F → Prop
  | split (descriptor : σ) (flexH_ flexV_ : F) : Full (.split descriptor flexH_ flexV_)
  | container (flexH_ flexV_ : F) (vertical_ : Bool) {items_ : List (NodeDescriptor σ F)}
    (hLength : 2 ≤ items_.length) (hItems : ∀ item ∈ items_, Full item) :
    Full (.container flexH_ flexV_ vertical_ items_)

end NodeDescriptor

def containerType (vertical : Bool) : NodeType := if vertical then VerticalContainer else HorizontalContainer

namespace SplitContainer

variable {σ δ F W : Type} [Flex F]

def setType (address : Address) (type : NodeType) (container : SplitContainer δ F) : SplitContainer δ F :=
  container.update address fun node => .node { node.value with type_ := type } node.children

def pushChild (address : Address) (child : Node δ F) (container : SplitContainer δ F) : SplitContainer δ F :=
  container.update address fun node => .node node.value (node.children ++ [child])

def allocated (container : SplitContainer δ F) : SplitContainer δ F :=
  { container with nextAddress := container.nextAddress + 1 }

section

-- what a split for a descriptor shows, and what getting it does to the rest of the application
variable (opens : σ → W → δ × W)

def newSplit (descriptor : σ) (state : SplitContainer δ F × W) : Split δ × SplitContainer δ F × W :=
  let (shown, world) := opens descriptor state.2
  (⟨state.1.nextAddress, shown⟩, state.1.allocated, world)

mutual

def applyItem (baseNode : Address) : NodeDescriptor σ F → SplitContainer δ F × W → SplitContainer δ F × W
  | .split descriptor flexH flexV, state =>
    let (split, container, world) := newSplit opens descriptor state
    let node := .node ⟨container.nextAddress, NodeType.Split, some split, some baseNode, flexH, flexV⟩ []
    ((container.allocated.pushChild baseNode node).addSplit split, world)
  | .container flexH flexV vertical items, (container, world) =>
    let address := container.nextAddress
    let node := .node ⟨address, EmptyRoot, none, some baseNode, flexH, flexV⟩ []
    let container := container.allocated.pushChild baseNode node
    -- from here on as for the root, with the new node as `baseNode`
    applyItems address items (container.setType address (containerType vertical), world)

def applyItems (baseNode : Address) :
    List (NodeDescriptor σ F) → SplitContainer δ F × W → SplitContainer δ F × W
  | [], state => state
  | item :: items, state => applyItems baseNode items (applyItem baseNode item state)

end

def applyFromDescriptorRecursively (rootNode : NodeDescriptor σ F) (baseNode : Address)
    (state : SplitContainer δ F × W) : SplitContainer δ F × W :=
  match rootNode with
  | .split descriptor _ _ =>
    let (split, container, world) := newSplit opens descriptor state
    (container.insertSplit split {}, world)
  | .container _ _ vertical items =>
    applyItems opens baseNode items (state.1.setType baseNode (containerType vertical), state.2)

def applyFromDescriptor (rootNode : NodeDescriptor σ F) (state : SplitContainer δ F × W) :
    SplitContainer δ F × W :=
  let (container, world) := applyFromDescriptorRecursively opens rootNode state.1.baseNode_.value.address
    ({ state.1 with disableLayouting_ := true }, state.2)
  ({ container with disableLayouting_ := false }.layout, world)

end

def empty : SplitContainer δ F := { baseNode_ := Node.empty 0 none, splits_ := [], nextAddress := 1 }

section

variable (opens : σ → W → δ × W)

mutual

/-- The node for an item below a parent, with the next address and the rest of the application. -/
def build (parent : Address) : NodeDescriptor σ F → Address × W → Node δ F × Address × W
  | .split descriptor flexH flexV, (next, world) =>
    let (shown, world) := opens descriptor world
    (.node ⟨next + 1, NodeType.Split, some ⟨next, shown⟩, some parent, flexH, flexV⟩ [], next + 2, world)
  | .container flexH flexV vertical items, (next, world) =>
    let (nodes, state) := buildAll next items (next + 1, world)
    (.node ⟨next, containerType vertical, none, some parent, flexH, flexV⟩ nodes, state)

def buildAll (parent : Address) : List (NodeDescriptor σ F) → Address × W → List (Node δ F) × Address × W
  | [], state => ([], state)
  | item :: items, state =>
    let (node, state) := build parent item state
    let (nodes, state) := buildAll parent items state
    (node :: nodes, state)

end

end

end SplitContainer

open RoseTree Node
open NodeType hiding Split

namespace SplitContainer

variable {σ δ F W : Type} {container : SplitContainer δ F} {context : List (Frame (NodeData δ F))}
  {data : NodeData δ F} {nodes : List (Node δ F)} {item : NodeDescriptor σ F}
  {items : List (NodeDescriptor σ F)} {parent next : Address} {world : W}

section

variable {opens : σ → W → δ × W}

theorem splits_of_none (hSplit : data.split_ = none) : Node.splits (.node data nodes) = nodes.flatMap splits := by
  cases nodes with
  | nil =>
    rw [splits_leaf, hSplit]
    rfl
  | cons node nodes => exact splits_node data (List.cons_ne_nil _ _)

/-- The nodes and their splits take up addresses from `next` on. -/
def Allocates (next : Address) (nodes : List (Node δ F)) (next' : Address) : Prop :=
  ∃ count, next' = next + count ∧
    ((nodes.flatMap toList).map NodeData.address).Sublist (List.range' next count) ∧
    ((nodes.flatMap splits).map Split.address).Sublist (List.range' next count)

theorem Allocates.nil (next : Address) : Allocates next ([] : List (Node δ F)) next :=
  ⟨0, rfl, .slnil, .slnil⟩

theorem Allocates.append {nodes nodes' : List (Node δ F)} {next next' next'' : Address}
    (h : Allocates next nodes next') (h' : Allocates next' nodes' next'') :
    Allocates next (nodes ++ nodes') next'' := by
  obtain ⟨count, rfl, hNodes, hSplits⟩ := h
  obtain ⟨count', rfl, hNodes', hSplits'⟩ := h'
  refine ⟨count + count', Nat.add_assoc _ _ _, ?_, ?_⟩
  · rw [List.flatMap_append, List.map_append, ← List.range'_append_1]
    exact hNodes.append hNodes'
  · rw [List.flatMap_append, List.map_append, ← List.range'_append_1]
    exact hSplits.append hSplits'

theorem Allocates.node {next' : Address} (h : Allocates (next + 1) nodes next') (hAddress : data.address = next)
    (hSplit : data.split_ = none) : Allocates next [.node data nodes] next' := by
  obtain ⟨count, rfl, hNodes, hSplits⟩ := h
  refine ⟨count + 1, by rw [Nat.add_assoc, Nat.add_comm 1], ?_, ?_⟩
  · rw [List.flatMap_singleton, toList_node, List.map_cons, hAddress, List.range'_succ]
    exact hNodes.cons_cons next
  · have hSame : Node.splits (.node data nodes) = nodes.flatMap splits := by
      cases nodes with
      | nil => rw [splits_leaf, hSplit]; rfl
      | cons node nodes => exact splits_node data (List.cons_ne_nil _ _)
    rw [List.flatMap_singleton, hSame, List.range'_succ]
    exact hSplits.cons next

variable (opens)

theorem build_split (parent : Address) (descriptor : σ) (flexH flexV : F) (state : Address × W) :
    build opens parent (.split descriptor flexH flexV) state =
      (.node ⟨state.1 + 1, NodeType.Split, some ⟨state.1, (opens descriptor state.2).1⟩, some parent, flexH,
        flexV⟩ [], state.1 + 2, (opens descriptor state.2).2) := rfl

theorem build_container (parent : Address) (flexH flexV : F) (vertical : Bool) (state : Address × W) :
    (build opens parent (.container flexH flexV vertical items) state : Node δ F × Address × W) =
      (.node ⟨state.1, containerType vertical, none, some parent, flexH, flexV⟩
        (buildAll opens state.1 items (state.1 + 1, state.2)).1,
        (buildAll (δ := δ) opens state.1 items (state.1 + 1, state.2)).2) := rfl

theorem buildAll_cons (parent : Address) (item : NodeDescriptor σ F) (state : Address × W) :
    (buildAll opens parent (item :: items) state : List (Node δ F) × Address × W) =
      ((build opens parent item state).1 :: (buildAll opens parent items
        (build (δ := δ) opens parent item state).2).1, (buildAll (δ := δ) opens parent items
          (build (δ := δ) opens parent item state).2).2) := rfl

theorem buildAll_allocates_of (parent : Address) (h : ∀ item ∈ items, ∀ parent state,
      Allocates state.1 [(build (δ := δ) opens parent item state).1] (build (δ := δ) opens parent item state).2.1)
    (state : Address × W) : Allocates state.1 (buildAll (δ := δ) opens parent items state).1
      (buildAll (δ := δ) opens parent items state).2.1 := by
  induction items generalizing state with
  | nil => exact .nil _
  | cons item items ih =>
    rw [buildAll_cons]
    rw [List.forall_mem_cons] at h
    exact (h.1 parent state).append (ih h.2 _)

theorem build_allocates (item : NodeDescriptor σ F) (parent : Address) (state : Address × W) :
    Allocates state.1 [(build (δ := δ) opens parent item state).1]
      (build (δ := δ) opens parent item state).2.1 := by
  induction item using NodeDescriptor.induction generalizing parent state with
  | split descriptor flexH flexV =>
    rw [build_split]
    refine ⟨2, rfl, ?_, ?_⟩
    · exact (List.Sublist.refl [state.1 + 1]).cons state.1
    · rw [List.flatMap_singleton, splits_leaf]
      exact List.sublist_append_left [state.1] [state.1 + 1]
  | container flexH flexV vertical items ih =>
    rw [build_container]
    exact Allocates.node (buildAll_allocates_of opens state.1 ih _) rfl rfl

theorem buildAll_allocates (items : List (NodeDescriptor σ F)) (parent : Address) (state : Address × W) :
    Allocates state.1 (buildAll (δ := δ) opens parent items state).1
      (buildAll (δ := δ) opens parent items state).2.1 :=
  buildAll_allocates_of opens parent (fun item _ => build_allocates opens item) state

theorem length_buildAll (items : List (NodeDescriptor σ F)) (parent : Address) (state : Address × W) :
    (buildAll (δ := δ) opens parent items state).1.length = items.length := by
  induction items generalizing state with
  | nil => rfl
  | cons item items ih =>
    rw [buildAll_cons]
    exact congrArg Nat.succ (ih _)

def SoundBelow (parent : Address) (node : Node δ F) : Prop :=
  node.Forall Sound ∧ node.value.parent_ = some parent ∧ node.value.type_ ≠ EmptyRoot

theorem buildAll_sound_of (parent : Address) (h : ∀ item ∈ items, ∀ parent state,
      SoundBelow parent (build (δ := δ) opens parent item state).1) (state : Address × W) :
    ∀ node ∈ (buildAll (δ := δ) opens parent items state).1, SoundBelow parent node := by
  induction items generalizing state with
  | nil => rintro _ ⟨⟩
  | cons item items ih =>
    rw [buildAll_cons]
    rw [List.forall_mem_cons] at h
    exact List.forall_mem_cons.mpr ⟨h.1 parent state, ih h.2 _⟩

theorem containerType_ne (vertical : Bool) :
    containerType vertical ≠ NodeType.Split ∧ containerType vertical ≠ EmptyRoot := by
  cases vertical <;> exact ⟨NodeType.noConfusion, NodeType.noConfusion⟩

theorem forall_sound_container (hType : data.type_ ≠ NodeType.Split ∧ data.type_ ≠ EmptyRoot)
    (hSplit : data.split_ = none) (hLength : 2 ≤ nodes.length)
    (hNodes : ∀ node ∈ nodes, SoundBelow data.address node) : (RoseTree.node data nodes).Forall Sound := by
  refine forall_node.mpr ⟨⟨iff_of_false hType.1 ?_, fun hSplit => absurd hSplit hType.1,
    fun hEmpty => absurd hEmpty hType.2, ?_, ?_, ?_⟩, fun node hNode => (hNodes node hNode).1⟩
  · rw [hSplit]
    exact Bool.false_ne_true
  · rw [List.length_map]
    exact fun _ => hLength
  · intro child hChild
    obtain ⟨node, hNode, rfl⟩ := List.mem_map.mp hChild
    exact (hNodes node hNode).2.1
  · intro child hChild
    obtain ⟨node, hNode, rfl⟩ := List.mem_map.mp hChild
    exact (hNodes node hNode).2.2

theorem build_sound (hFull : item.Full) (parent : Address) (state : Address × W) :
    SoundBelow parent (build (δ := δ) opens parent item state).1 := by
  induction hFull generalizing parent state with
  | split descriptor flexH flexV =>
    exact ⟨forall_node.mpr ⟨.ofSplit rfl rfl, by rintro _ ⟨⟩⟩, rfl, NodeType.noConfusion⟩
  | container flexH flexV vertical hLength hItems ih =>
    rw [build_container]
    refine ⟨forall_sound_container (containerType_ne vertical) rfl ?_ ?_, rfl, (containerType_ne vertical).2⟩
    · rw [length_buildAll]
      exact hLength
    · exact buildAll_sound_of opens state.1 ih _

end

def withChildren (context : List (Frame (NodeData δ F))) (data : NodeData δ F) (nodes new : List (Node δ F))
    (next : Address) (container : SplitContainer δ F) : SplitContainer δ F :=
  { container with
    baseNode_ := plug context (.node data (nodes ++ new))
    splits_ := container.splits_ ++ new.flatMap splits
    nextAddress := next }

theorem Addressed.withChildren {new : List (Node δ F)} {next : Address} (h : container.Addressed)
    (hBase : container.baseNode_ = plug context (.node data nodes))
    (hNew : Allocates container.nextAddress new next) :
    (container.withChildren context data nodes new next).Addressed := by
  obtain ⟨count, hNext, hNodes, -⟩ := hNew
  refine h.replace hBase rfl hNext ?_
  rw [toList_node, toList_node, List.flatMap_append, List.map_cons, List.map_append, List.map_cons]
  exact List.Sublist.subperm ((hNodes.append_left _).cons_cons _)

theorem withChildren_append (context : List (Frame (NodeData δ F))) (data : NodeData δ F)
    (nodes new new' : List (Node δ F)) (next next' : Address) (container : SplitContainer δ F) :
    (container.withChildren context data nodes new next).withChildren context data (nodes ++ new) new' next' =
      container.withChildren context data nodes (new ++ new') next' := by
  unfold withChildren
  simp only [List.flatMap_append, List.append_assoc]

theorem Addressed.allocated (h : container.Addressed) : container.allocated.Addressed :=
  ⟨h.nodup, fun data hData => Nat.lt_succ_of_lt (h.fresh data hData)⟩

theorem Addressed.pushChild_eq (h : container.Addressed)
    (hBase : container.baseNode_ = plug context (.node data nodes)) (child : Node δ F) :
    container.pushChild data.address child =
      { container with baseNode_ := plug context (.node data (nodes ++ [child])) } :=
  h.update_eq hBase _

variable [Flex F] (opens : σ → W → δ × W)

/-- Applying an item pushes the node that is built for it. -/
def Pushes (item : NodeDescriptor σ F) : Prop :=
  ∀ (container : SplitContainer δ F) (world : W) (context : List (Frame (NodeData δ F))) (data : NodeData δ F)
    (nodes : List (Node δ F)), container.Addressed → container.disableLayouting_ = true →
    container.baseNode_ = plug context (.node data nodes) →
    applyItem opens data.address item (container, world) =
      let built := build opens data.address item (container.nextAddress, world)
      (container.withChildren context data nodes [built.1] built.2.1, built.2.2)

theorem applyItems_eq (h : ∀ item ∈ items, Pushes (δ := δ) opens item) (hAddressed : container.Addressed)
    (hDisabled : container.disableLayouting_ = true)
    (hBase : container.baseNode_ = plug context (.node data nodes)) (world : W) :
    applyItems opens data.address items (container, world) =
      let built := buildAll opens data.address items (container.nextAddress, world)
      (container.withChildren context data nodes built.1 built.2.1, built.2.2) := by
  induction items generalizing container nodes world with
  | nil =>
    have hSame : container.withChildren context data nodes [] container.nextAddress = container := by
      unfold withChildren
      rw [List.append_nil, ← hBase, List.flatMap_nil, List.append_nil]
    exact congrArg (fun container => (container, world)) hSame.symm
  | cons item items ih =>
    rw [List.forall_mem_cons] at h
    rw [applyItems, h.1 container world context data nodes hAddressed hDisabled hBase]
    have hAllocates := build_allocates (δ := δ) opens item data.address (container.nextAddress, world)
    have hNext := ih h.2 (hAddressed.withChildren hBase hAllocates) hDisabled rfl
      (build (δ := δ) opens data.address item (container.nextAddress, world)).2.2
    refine hNext.trans ?_
    dsimp only
    rw [withChildren_append, buildAll_cons]
    rfl

theorem addSplit_of_disabled (hDisabled : container.disableLayouting_ = true) (split : Split δ) :
    container.addSplit split = { container with splits_ := container.splits_ ++ [split] } :=
  if_pos hDisabled

theorem pushes (item : NodeDescriptor σ F) : Pushes (δ := δ) opens item := by
  induction item using NodeDescriptor.induction with
  | split descriptor flexH flexV =>
    intro container world context data nodes hAddressed hDisabled hBase
    have hTwice : container.allocated.allocated.Addressed := hAddressed.allocated.allocated
    rw [applyItem, newSplit]
    dsimp only
    rw [hTwice.pushChild_eq hBase, addSplit_of_disabled, build_split]
    · dsimp only
      rw [withChildren, List.flatMap_singleton, splits_leaf]
      rfl
    · exact hDisabled
  | container flexH flexV vertical items ih =>
    intro container world context data nodes hAddressed hDisabled hBase
    let child : NodeData δ F := ⟨container.nextAddress, EmptyRoot, none, some data.address, flexH, flexV⟩
    let pushed : SplitContainer δ F := { container.allocated with
      baseNode_ := plug (⟨data, nodes, []⟩ :: context) (.node child []) }
    let typed : SplitContainer δ F := { pushed with
      baseNode_ := plug (⟨data, nodes, []⟩ :: context) (.node { child with type_ := containerType vertical } []) }
    have hBase' : pushed.baseNode_ = plug (⟨data, nodes, []⟩ :: context) (.node child []) := rfl
    have hPushed : pushed.Addressed := by
      have hChild : Allocates container.nextAddress [(RoseTree.node child [] : Node δ F)]
          (container.nextAddress + 1) := .node (.nil _) rfl rfl
      have hWith := hAddressed.withChildren hBase hChild
      exact ⟨hWith.nodup, hWith.fresh⟩
    have hPush : container.allocated.pushChild data.address (.node child []) = pushed :=
      hAddressed.allocated.pushChild_eq hBase _
    have hType : pushed.setType container.nextAddress (containerType vertical) = typed :=
      hPushed.update_eq hBase' _
    have hTyped : typed.Addressed := by
      have hNext : typed.nextAddress = pushed.nextAddress + 0 := rfl
      refine hPushed.replace hBase' rfl hNext ?_
      exact (List.sublist_append_left _ _).subperm
    have hItems := applyItems_eq opens ih hTyped hDisabled rfl world
    rw [applyItem]
    dsimp only
    rw [hPush, hType]
    refine hItems.trans ?_
    rw [build_container]
    dsimp only
    rw [withChildren, withChildren, List.flatMap_singleton, splits_of_none]
    · rfl
    · rfl

def typed (vertical : Bool) : SplitContainer δ F :=
  { baseNode_ := .node ⟨0, containerType vertical, none, none, 1, 1⟩ [], splits_ := [], disableLayouting_ := true, nextAddress := 1 }

theorem addressed_typed (vertical : Bool) : (typed vertical : SplitContainer δ F).Addressed := by
  refine ⟨List.nodup_singleton _, fun other hOther => ?_⟩
  rw [List.mem_singleton.mp hOther]
  exact Nat.zero_lt_one

theorem applyFromDescriptorRecursively_eq (flexH flexV : F) (vertical : Bool) (items : List (NodeDescriptor σ F)) (world : W) :
    applyFromDescriptorRecursively opens (.container flexH flexV vertical items) 0
        ({ (empty : SplitContainer δ F) with disableLayouting_ := true }, world) =
      let built := buildAll opens 0 items (1, world)
      ((typed vertical).withChildren [] ⟨0, containerType vertical, none, none, 1, 1⟩ [] built.1 built.2.1, built.2.2) := by
  have hBase : (typed vertical : SplitContainer δ F).baseNode_ =
      plug [] (.node ⟨0, containerType vertical, none, none, 1, 1⟩ []) := rfl
  have hPushes : ∀ item ∈ items, Pushes (δ := δ) opens item := fun item _ => pushes opens item
  exact applyItems_eq opens hPushes (addressed_typed vertical) rfl hBase world

end SplitContainer

end Chatterino.Splits
