import Chatterino.Splits.SplitTabs
import Chatterino.Windows.SavedChannels

/-! # Tabs that are saved and loaded

What is read of a saved tab describes its tree. The tree that is loaded looks as the saved one did
exactly if every channel comes back and the tree has been laid out.
-/

namespace Chatterino.Windows

open Lib RoseTree QString QJsonObject Splits Node SplitContainer WindowManager
open NodeType (HorizontalContainer VerticalContainer EmptyRoot)

variable {Uuid F : Type} [LinearOrder Uuid] {records : Finset Uuid} {qt : QtText Uuid} {servers : Servers}
  {named : QString → QString}

theorem loadFilters_encodeFilters (filters : FilterSet records) :
    loadFilters qt (encodeFilters qt filters : QJsonValue F) = filters.filterIds := by
  rw [encodeFilters, loadFilters, if_neg (by rintro ⟨⟩), QJsonValue.toArray, List.map_map]
  refine (List.map_congr_left fun id _ => ?_).trans (List.map_id _)
  exact qt.fromString_toString id

theorem ofIds_filterIds (filters : FilterSet records) : FilterSet.ofIds filters.filterIds = filters := by
  obtain ⟨filters, hSubset⟩ := filters
  have hFilters : (records.filter fun id => id ∈ filters.sort (· ≤ ·)) = filters := by
    ext id
    rw [Finset.mem_filter, Finset.mem_sort]
    exact and_iff_right_of_imp fun hMem => hSubset hMem
  exact (FilterSet.mk.injEq _ _ _ _).mpr hFilters

def savedSplit (contents : SplitContents records) : SplitDescriptor Uuid :=
  saved contents.channel_ contents.moderationMode_ contents.filters_.filterIds

theorem openSplit_savedSplit {contents : SplitContents records} (h : Agrees named servers)
    (hNamed : NamedChannels qt named contents.channel_) :
    ((openSplit qt (savedSplit contents) servers).1 = contents ↔ Restorable qt contents.channel_) ∧
      Agrees named (openSplit qt (savedSplit contents) servers : SplitContents records × Servers).2 := by
  obtain ⟨hChannel, hAgrees⟩ :=
    decodeChannel_saved contents.moderationMode_ contents.filters_.filterIds h hNamed
  refine ⟨Iff.trans ?_ hChannel, hAgrees⟩
  have hFilters : FilterSet.ofIds (savedSplit contents).filters_ = contents.filters_ := ofIds_filterIds _
  constructor
  · intro hSame
    exact congrArg SplitContents.channel_ hSame
  · intro hSame
    exact (SplitContents.mk.injEq _ _ _ _ _ _).mpr ⟨hSame, rfl, hFilters⟩

theorem loadFromJSON_encodeSplit [One F] (contents : SplitContents records) (flexH flexV : F) :
    loadSplitNode qt (insert "flexv" (.double flexV) (insert "flexh" (.double flexH) (encodeSplit qt contents))) =
      .split (savedSplit contents) flexH flexV := by
  simp [loadSplitNode, encodeSplit, QJsonValue.toObject, QJsonValue.toDouble, QJsonValue.toBool,
    loadFromJSON_encodeChannel, loadFilters_encodeFilters, savedSplit]

variable (qt) in
def loadNode [One F] (root : QJsonObject F) : NodeDescriptor (SplitDescriptor Uuid) F :=
  if (value "type" root).equals (lit "split") then loadSplitNode qt root else loadContainerNode qt root

omit [LinearOrder Uuid] in
theorem loadContainerNode_eq [One F] (root : QJsonObject F) : loadContainerNode qt root =
    .container ((value "flexh" root).toDouble 1) ((value "flexv" root).toDouble 1)
      ((value "type" root).toString = lit "vertical")
      ((value "items" root).toArray.map fun val => loadNode qt val.toObject) := by
  rw [loadContainerNode]
  exact congrArg _ (List.attach_map_val (f := fun val : QJsonValue F => loadNode qt val.toObject))

theorem encodeNodeRecursively_split {data : NodeData (SplitContents records) F}
    {split : Split (SplitContents records)} (hType : data.type_ = NodeType.Split)
    (hSplit : data.split_ = some split) (children : List (Node (SplitContents records) F)) :
    encodeNodeRecursively qt (.node data children) = insert "flexv" (.double data.flexV_)
      (insert "flexh" (.double data.flexH_) (encodeSplit qt split.shown)) := by
  rw [encodeNodeRecursively, para_node, hType, hSplit]
  rfl

def typeName : NodeType → QString
  | EmptyRoot => []
  | NodeType.Split => lit "split"
  | HorizontalContainer => lit "horizontal"
  | VerticalContainer => lit "vertical"

theorem encodeNodeRecursively_container {data : NodeData (SplitContents records) F}
    (hType : data.type_.isContainer) (children : List (Node (SplitContents records) F)) :
    encodeNodeRecursively qt (.node data children) = insert "flexv" (.double data.flexV_)
      (insert "flexh" (.double data.flexH_)
        (insert "items" (.array (children.map fun child => .object (encodeNodeRecursively qt child)))
          (insert "type" (.string (typeName data.type_)) []))) := by
  rw [encodeNodeRecursively, para_node, ← encodeNodeRecursively]
  dsimp only
  rw [List.map_map]
  cases hCase : data.type_ with
  | EmptyRoot => rw [hCase] at hType; cases hType
  | Split => rw [hCase] at hType; cases hType
  | VerticalContainer => rfl
  | HorizontalContainer => rfl

theorem typeName_eq_iff (type type' : NodeType) : typeName type = typeName type' ↔ type = type' := by
  cases type <;> cases type' <;> decide

theorem type_encodeNodeRecursively {node : Node (SplitContents records) F} (h : node.Forall Sound)
    (hType : node.value.type_ ≠ EmptyRoot) :
    value "type" (encodeNodeRecursively qt node) = .string (typeName node.value.type_) := by
  cases node with
  | node data children =>
    obtain ⟨hData, -⟩ := forall_node.mp h
    cases hSplit : data.split_ with
    | some split =>
      have hLeaf : data.type_ = NodeType.Split := hData.split.mpr (hSplit ▸ rfl)
      rw [encodeNodeRecursively_split hLeaf hSplit, value_node, hLeaf]
      simp [encodeSplit, typeName]
    | none =>
      rw [encodeNodeRecursively_container (hData.isContainer_of_none hSplit hType)]
      simp

theorem loadNode_encodeNodeRecursively [One F] {node : Node (SplitContents records) F} (h : node.Forall Sound)
    (hType : node.value.type_ ≠ EmptyRoot) :
    loadNode qt (encodeNodeRecursively qt node) = describe savedSplit node := by
  induction node using RoseTree.induction with
  | node data children ih =>
    obtain ⟨hData, hBelow⟩ := forall_node.mp h
    rw [loadNode, type_encodeNodeRecursively h hType]
    have hName : QJsonValue.equals (F := F) (lit "split") (.string (typeName data.type_)) =
        decide (data.type_ = NodeType.Split) := decide_eq_decide.mpr (typeName_eq_iff _ NodeType.Split)
    rw [value_node, hName]
    cases hSplit : data.split_ with
    | some split =>
      have hLeaf : data.type_ = NodeType.Split := hData.split.mpr (hSplit ▸ rfl)
      rw [describe_split savedSplit hSplit, encodeNodeRecursively_split hLeaf hSplit, hLeaf]
      exact loadFromJSON_encodeSplit split.shown data.flexH_ data.flexV_
    | none =>
      have hContainer := hData.isContainer_of_none hSplit hType
      have hItems : children.map (fun child => loadNode qt (encodeNodeRecursively qt child)) =
          children.map (describe savedSplit) := by
        refine List.map_congr_left fun child hChild => ih child hChild (hBelow child hChild) ?_
        exact hData.inner child.value (List.mem_map_of_mem hChild)
      have hInner : ¬decide (data.type_ = NodeType.Split) = true := by
        rw [decide_eq_true_iff, hData.split, hSplit]
        exact Bool.false_ne_true
      have hVertical : typeName data.type_ = lit "vertical" ↔ data.type_ = VerticalContainer :=
        typeName_eq_iff _ VerticalContainer
      rw [if_neg hInner, describe_container savedSplit hSplit, encodeNodeRecursively_container hContainer,
        loadContainerNode_eq, ← hItems]
      simp [QJsonValue.toDouble, QJsonValue.toString, QJsonValue.toArray, QJsonValue.toObject, hVertical]

section

variable {tab : SplitContainer (SplitContents records) F} (customTitle : Option QString)
  (isSelected highlightsEnabled : Bool)

theorem value_encodeTab : (value "splits2" (encodeTab qt customTitle isSelected highlightsEnabled tab)).toObject =
    encodeNodeRecursively qt tab.baseNode_ := by
  rw [encodeTab, value_insert, if_pos rfl, QJsonValue.toObject]

theorem encodeNodeRecursively_ne_nil (node : Node (SplitContents records) F) :
    (encodeNodeRecursively qt node).isEmpty = false := by
  cases node with
  | node data children =>
    rw [encodeNodeRecursively, para_node]
    rfl

variable [One F]

theorem rootNode_of_emptyRoot (hType : tab.baseNode_.value.type_ = EmptyRoot) :
    (TabDescriptor.loadFromJSON qt (encodeTab qt customTitle isSelected highlightsEnabled tab)).rootNode_ = none := by
  have hNode : (value "type" (encodeNodeRecursively qt tab.baseNode_)).toString = [] := by
    cases hBase : tab.baseNode_ with
    | node data children =>
      have hEmpty : data.type_ = EmptyRoot := by rwa [hBase] at hType
      rw [encodeNodeRecursively, para_node, hEmpty]
      rfl
  unfold TabDescriptor.loadFromJSON
  dsimp only
  rw [value_encodeTab, hNode, encodeNodeRecursively_ne_nil]
  rfl

theorem rootNode_loadFromJSON (h : tab.WellFormed) (hType : tab.baseNode_.value.type_ ≠ EmptyRoot) :
    (TabDescriptor.loadFromJSON qt (encodeTab qt customTitle isSelected highlightsEnabled tab)).rootNode_ =
      some (describe savedSplit tab.baseNode_) := by
  rw [← loadNode_encodeNodeRecursively h.sound hType]
  unfold TabDescriptor.loadFromJSON
  dsimp only
  rw [value_encodeTab, encodeNodeRecursively_ne_nil, loadNode, type_encodeNodeRecursively h.sound hType]
  cases hCase : tab.baseNode_.value.type_ with
  | EmptyRoot => exact absurd hCase hType
  | Split => rfl
  | HorizontalContainer => rfl
  | VerticalContainer => rfl

end

/-- The tab that is loaded looks as the saved one did exactly if it was laid out and each of its
channels comes back. -/
theorem loadTab_encodeTab_iff [Flex F] {tab : SplitContainer (SplitContents records) F} (hTab : ReachesTab tab)
    (hServers : Agrees named servers) (hNamed : ∀ split ∈ tab.splits_, NamedChannels qt named split.shown.channel_)
    (customTitle : Option QString) (isSelected highlightsEnabled : Bool) :
    let loaded : SplitContainer (SplitContents records) F × Servers :=
      loadTab qt (.loadFromJSON qt (encodeTab qt customTitle isSelected highlightsEnabled tab)) servers
    loaded.1.baseNode_.map NodeData.visible = tab.baseNode_.map NodeData.visible ↔
      tab.baseNode_.Forall LaidOut ∧ ∀ split ∈ tab.splits_, Restorable qt split.shown.channel_ := by
  intro loaded
  obtain ⟨hWellFormed, hRoot⟩ := hTab.invariant
  have hSplits (split : Split (SplitContents records)) : split ∈ tab.baseNode_.splits ↔ split ∈ tab.splits_ :=
    hWellFormed.leaves.mem_iff
  simp only [← hSplits] at hNamed ⊢
  by_cases hType : tab.baseNode_.value.type_ = EmptyRoot
  · have hLoaded : loaded = (SplitContainer.empty, servers) := by
      rw [show loaded = loadTab qt _ servers from rfl, loadTab, rootNode_of_emptyRoot _ _ _ hType]
    rw [hLoaded]
    exact visible_emptyRoot_iff (fun contents => Restorable qt contents.channel_) hWellFormed.sound hType hRoot
  · have hLoaded : loaded = applyFromDescriptor (openSplit qt) (describe savedSplit tab.baseNode_)
        (SplitContainer.empty, servers) := by
      rw [show loaded = loadTab qt _ servers from rfl, loadTab, rootNode_loadFromJSON _ _ _ hWellFormed hType]
    have hReopens : ∀ split ∈ tab.baseNode_.splits, Reopens savedSplit (openSplit qt) (Agrees named)
        (fun contents => Restorable qt contents.channel_) split.shown :=
      fun split hSplit _ hAgrees => openSplit_savedSplit hAgrees (hNamed split hSplit)
    rw [hLoaded]
    exact visible_applyFromDescriptor_iff hWellFormed.sound hType hRoot hReopens hServers

section

def asciiLower (c : QChar) : QChar := if 0x41 ≤ c ∧ c ≤ 0x5A then c + 0x20 else c

theorem asciiLower_asciiLower (c : QChar) : asciiLower (asciiLower c) = asciiLower c := by
  unfold asciiLower
  split_ifs
  · grind
  · rfl
  · rfl

def asciiText : QtText Nat where
  toLower s := s.map asciiLower
  trimmed := QString.trimmed
  toString id := decimalDigits (id + 1) id
  fromString s := (digitsValue 0 s).getD 0
  toLower_toLower s := by
    rw [List.map_map]
    exact List.map_congr_left fun c _ => asciiLower_asciiLower c
  toLower_hash s := rfl
  fromString_toString id := congrArg (Option.getD · 0) (digitsValue_decimalDigits (Nat.lt_succ_self id))

def contents (channel : IndirectChannel) : SplitContents ({7} : Finset Nat) :=
  ⟨channel, true, {7}, Finset.Subset.refl _⟩

def mergedTab : SplitContainer (SplitContents ({7} : Finset Nat)) Rat :=
  (SplitContainer.empty.step (.insertSplit ⟨8, contents (.channel ⟨lit "forsen", .Twitch⟩)⟩ {})).step
    (.insertSplit ⟨9, contents (.merged (lit "both") [⟨lit "forsen", .Twitch⟩, ⟨lit "xqc", .Kick⟩])⟩ {})

def hashTab : SplitContainer (SplitContents ({7} : Finset Nat)) Rat :=
  SplitContainer.empty.insertSplit ⟨8, contents (.channel (Servers.getOrAddChannel asciiText (lit "##foo") {}).1)⟩ {}

theorem reachesTab_empty : ReachesTab (SplitContainer.empty : SplitContainer (SplitContents ({7} : Finset Nat)) Rat) :=
  .start .empty

theorem reachesTab_hashTab : ReachesTab hashTab := by
  refine reachesTab_empty.edit (.insertSplit _ _) ?_
  decide

theorem reachesTab_mergedTab : ReachesTab mergedTab := by
  refine (reachesTab_empty.edit (.insertSplit _ _) ?_).edit (.insertSplit _ _) ?_
  · decide
  · decide

theorem splits_mergedTab : mergedTab.splits_ =
    [⟨8, contents (.channel ⟨lit "forsen", .Twitch⟩)⟩,
      ⟨9, contents (.merged (lit "both") [⟨lit "forsen", .Twitch⟩, ⟨lit "xqc", .Kick⟩])⟩] := by
  decide

theorem loadTab_encodeTab_mergedTab :
    let loaded : SplitContainer (SplitContents ({7} : Finset Nat)) Rat × Servers :=
      loadTab asciiText (.loadFromJSON asciiText (encodeTab asciiText none true true mergedTab)) {}
    loaded.1.baseNode_.map NodeData.visible = mergedTab.baseNode_.map NodeData.visible := by
  have hServers : Agrees (id : QString → QString) {} := by rintro _ ⟨⟩
  have hLaidOut : mergedTab.baseNode_.Forall LaidOut := by
    unfold RoseTree.Forall LaidOut
    decide +kernel
  refine (loadTab_encodeTab_iff reachesTab_mergedTab hServers ?_ none true true).mpr ⟨hLaidOut, ?_⟩
  · rw [splits_mergedTab]
    simp [contents, NamedChannels, NamedChannel]
  · rw [splits_mergedTab]
    simp [contents, Restorable, Found, TwitchName]
    decide

theorem not_loaded_hashTab : ¬∀ tab : SplitContainer (SplitContents ({7} : Finset Nat)) Rat, ReachesTab tab →
    (∀ split ∈ tab.splits_, NamedChannels asciiText id split.shown.channel_) →
    (loadTab asciiText (.loadFromJSON asciiText (encodeTab asciiText none true true tab)) {} :
      SplitContainer (SplitContents ({7} : Finset Nat)) Rat × Servers).1.baseNode_.map NodeData.visible =
        tab.baseNode_.map NodeData.visible := by
  intro hLoaded
  have hNamed : ∀ split ∈ hashTab.splits_, NamedChannels asciiText id split.shown.channel_ := by
    have hSplits : hashTab.splits_ = [⟨8, contents (.channel ⟨lit "#foo", .Twitch⟩)⟩] := by decide
    rw [hSplits, List.forall_mem_singleton]
    rintro ⟨⟩
  have hRoot := congrArg RoseTree.value (hLoaded hashTab reachesTab_hashTab hNamed)
  rw [value_map, value_map] at hRoot
  exact absurd hRoot (by decide)

end

end Chatterino.Windows
