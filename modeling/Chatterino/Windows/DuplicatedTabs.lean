import Chatterino.Splits.EvenLayout
import Chatterino.Windows.SavedTabs

/-! # Tabs that are duplicated

A tab is duplicated by a descriptor that is built from its tree, and not by what is saved of it. The descriptor
has neither flex values nor moderation modes, and does not know all types of channels.
-/

namespace Chatterino.Windows

open Lib RoseTree QString Splits Node SplitContainer WindowManager Servers
open NodeType (HorizontalContainer VerticalContainer EmptyRoot)
open ChannelType hiding None

variable {Uuid F : Type} [LinearOrder Uuid] {records : Finset Uuid} {qt : QtText Uuid} {servers : Servers}

def channelTypeToString : ChannelType → QString
  | Twitch => lit "twitch"
  | TwitchWhispers => lit "whispers"
  | TwitchWatching => lit "watching"
  | TwitchMentions => lit "mentions"
  | TwitchLive => lit "live"
  | TwitchAutomod => lit "automod"
  | Misc => lit "misc"
  -- an assertion fails here, where assertions are checked
  | _ => lit "never"

section

-- the name of the channel that is watched at the time
variable (watched : QString)

def IndirectChannel.getName : IndirectChannel → QString
  | watching => watched
  | merged name _ => name
  | channel shown => shown.name_

def builtSplit (contents : SplitContents records) : SplitDescriptor Uuid where
  type_ := channelTypeToString contents.channel_.getType
  channelName_ := contents.channel_.getName watched
  filters_ := contents.filters_.filterIds

def buildDescriptorRecursively [One F] : Node (SplitContents records) F → NodeDescriptor (SplitDescriptor Uuid) F :=
  RoseTree.para fun currentNode items =>
    if items.isEmpty then
      -- a node without children has a split, unless it is the root of an empty tab
      .split (currentNode.split_.elim {} fun split => builtSplit watched split.shown) 1 1
    else .container 1 1 (currentNode.type_ = VerticalContainer) (items.map Prod.snd)

def buildDescriptor [One F] (tab : SplitContainer (SplitContents records) F) : NodeDescriptor (SplitDescriptor Uuid) F :=
  buildDescriptorRecursively watched tab.baseNode_

variable (qt) in
def duplicatePage [Flex F] (page : SplitContainer (SplitContents records) F) (servers : Servers) :
    SplitContainer (SplitContents records) F × Servers :=
  if page.splits_.isEmpty then (.empty, servers)
  else SplitContainer.applyFromDescriptor (openSplit qt) (buildDescriptor watched page) (.empty, servers)

end

variable {watched : QString}

variable (qt) in
def Duplicable (contents : SplitContents records) : Prop :=
  contents.moderationMode_ = false ∧ Restorable qt contents.channel_ ∧
    contents.channel_.getType ∉ [Kick, YouTube, Merged]

theorem decodeChannel_builtSplit_iff (contents : SplitContents records) :
    (decodeChannel qt (builtSplit watched contents) servers).1 = contents.channel_ ↔
      Restorable qt contents.channel_ ∧ contents.channel_.getType ∉ [Kick, YouTube, Merged] := by
  have hNever {type : ChannelType} (name : QString) (hNone : type ≠ ChannelType.None) :
      IndirectChannel.channel Channel.getEmpty ≠ .channel ⟨name, type⟩ :=
    fun hSame => hNone (congrArg Channel.type_ (IndirectChannel.channel.inj hSame)).symm
  obtain ⟨channel, moderationMode, filters⟩ := contents
  cases channel with
  | watching =>
    simp +decide only [decodeChannel, builtSplit, channelTypeToString, IndirectChannel.getType, if_false, if_true]
    exact iff_of_true trivial ⟨trivial, trivial⟩
  | merged name sources =>
    simp +decide only [decodeChannel, builtSplit, channelTypeToString, IndirectChannel.getType, if_false]
    exact iff_of_false (by rintro ⟨⟩) fun hBoth => hBoth.2
  | channel channel =>
    obtain ⟨name, type⟩ := channel
    have hKnown (hType : type ∉ [Kick, YouTube, Merged]) {condition : Prop}
        (hDecoded : (decodeChannel qt (builtSplit watched ⟨.channel ⟨name, type⟩, moderationMode, filters⟩) servers).1 =
          .channel ⟨name, type⟩ ↔ condition) (hCondition : condition ↔ Restorable qt (.channel ⟨name, type⟩)) :
        (decodeChannel qt (builtSplit watched ⟨.channel ⟨name, type⟩, moderationMode, filters⟩) servers).1 =
          .channel ⟨name, type⟩ ↔ Restorable qt (.channel ⟨name, type⟩) ∧ type ∉ [Kick, YouTube, Merged] :=
      (hDecoded.trans hCondition).trans (and_iff_left hType).symm
    cases type with
    | None | TwitchWhispers | TwitchMentions | TwitchLive | TwitchAutomod =>
      exact hKnown (by decide) (channel_eq_iff withName_eq_iff) Iff.rfl
    | Direct | TwitchEnd => exact hKnown (by decide) (iff_of_false (hNever _ (by decide)) id) Iff.rfl
    | Twitch => exact hKnown (by decide) (channel_eq_iff getOrAddChannel_eq_iff) Iff.rfl
    | TwitchWatching => exact hKnown (by decide) (iff_of_false (by rintro ⟨⟩) id) Iff.rfl
    | Misc => exact hKnown (by decide) (channel_eq_iff getChannelOrEmpty_eq_iff) Iff.rfl
    | Kick =>
      refine iff_of_false (hNever _ (by decide)) fun hBoth => hBoth.2 ?_
      exact show Kick ∈ [Kick, YouTube, Merged] by decide
    | YouTube =>
      refine iff_of_false (hNever _ (by decide)) fun hBoth => hBoth.2 ?_
      exact show YouTube ∈ [Kick, YouTube, Merged] by decide
    | Merged =>
      refine iff_of_false (hNever _ (by decide)) fun hBoth => hBoth.2 ?_
      exact show Merged ∈ [Kick, YouTube, Merged] by decide

theorem openSplit_builtSplit_iff (contents : SplitContents records) (servers : Servers) :
    (openSplit qt (builtSplit watched contents) servers).1 = contents ↔ Duplicable qt contents := by
  have hFilters : FilterSet.ofIds (builtSplit watched contents).filters_ = contents.filters_ := ofIds_filterIds _
  rw [Duplicable, ← decodeChannel_builtSplit_iff]
  constructor
  · intro hSame
    exact ⟨(congrArg SplitContents.moderationMode_ hSame).symm, congrArg SplitContents.channel_ hSame⟩
  · rintro ⟨hMode, hChannel⟩
    exact (SplitContents.mk.injEq _ _ _ _ _ _).mpr ⟨hChannel, hMode.symm, hFilters⟩

theorem buildDescriptorRecursively_eq [Flex F] {node : Node (SplitContents records) F} (h : node.Forall Sound)
    (hType : node.value.type_ ≠ EmptyRoot) :
    buildDescriptorRecursively watched node = describeEvened (builtSplit watched) node := by
  induction node using RoseTree.induction with
  | node data children ih =>
    obtain ⟨hData, hBelow⟩ := forall_node.mp h
    rw [describeEvened, map_node, buildDescriptorRecursively, para_node, ← buildDescriptorRecursively]
    cases hSplit : data.split_ with
    | some split =>
      obtain ⟨-, rfl⟩ := Sound.leaf_eq hData hSplit
      have hEvened : (evened data).split_ = some split := hSplit
      rw [describe_split _ hEvened]
      rfl
    | none =>
      have hContainer := hData.isContainer_of_none hSplit hType
      have hMany := hData.container hContainer
      have hEvened : (evened data).split_ = none := hSplit
      have hItems : children.map (buildDescriptorRecursively watched) =
          (children.map (RoseTree.map evened)).map (describe (builtSplit watched)) := by
        rw [List.map_map]
        refine List.map_congr_left fun child hChild => ih child hChild (hBelow child hChild) ?_
        exact hData.inner child.value (List.mem_map_of_mem hChild)
      rw [describe_container _ hEvened, ← hItems]
      cases children with
      | nil => exact absurd hMany (Nat.not_succ_le_zero 1)
      | cons child children =>
        rw [List.map_map]
        rfl

/-- The duplicate looks as the tab does exactly if the tab was laid out evenly and each of its splits can be
described. -/
theorem duplicatePage_visible_iff [Flex F] {tab : SplitContainer (SplitContents records) F} (hTab : ReachesTab tab)
    (hSplits : tab.splits_ ≠ []) (watched : QString) (servers : Servers) :
    (duplicatePage qt watched tab servers).1.baseNode_.map NodeData.visible = tab.baseNode_.map NodeData.visible ↔
      tab.baseNode_.Forall EvenlyLaidOut ∧ ∀ split ∈ tab.splits_, Duplicable qt split.shown := by
  obtain ⟨hWellFormed, hRoot⟩ := hTab.invariant
  have hLeaves (split : Split (SplitContents records)) : split ∈ tab.baseNode_.splits ↔ split ∈ tab.splits_ :=
    hWellFormed.leaves.mem_iff
  have hType := hWellFormed.root_type_ne hSplits
  have hBuilt : buildDescriptor watched tab = describeEvened (builtSplit watched) tab.baseNode_ :=
    buildDescriptorRecursively_eq hWellFormed.sound hType
  rw [duplicatePage, if_neg (by rwa [List.isEmpty_iff]), hBuilt]
  simp only [← hLeaves]
  exact visible_describeEvened_iff hWellFormed hType hRoot (fun contents world => openSplit_builtSplit_iff contents world)
    servers

section

def unmoderated (channel : IndirectChannel) : SplitContents ({7} : Finset Nat) :=
  ⟨channel, false, (contents channel).filters_⟩

def mentionsTab : SplitContainer (SplitContents ({7} : Finset Nat)) Rat :=
  (SplitContainer.empty.step (.insertSplit ⟨8, unmoderated (.channel ⟨lit "forsen", .Twitch⟩)⟩ {})).step
    (.insertSplit ⟨9, unmoderated (.channel ⟨lit "/mentions", .TwitchMentions⟩)⟩ {})

def kickTab : SplitContainer (SplitContents ({7} : Finset Nat)) Rat :=
  SplitContainer.empty.insertSplit ⟨8, unmoderated (.channel ⟨lit "xqc", .Kick⟩)⟩ {}

theorem reachesTab_mentionsTab : ReachesTab mentionsTab := by
  refine (reachesTab_empty.edit (.insertSplit _ _) ?_).edit (.insertSplit _ _) ?_
  · decide
  · decide

theorem reachesTab_kickTab : ReachesTab kickTab := by
  refine reachesTab_empty.edit (.insertSplit _ _) ?_
  decide

theorem splits_mentionsTab : mentionsTab.splits_ =
    [⟨8, unmoderated (.channel ⟨lit "forsen", .Twitch⟩)⟩,
      ⟨9, unmoderated (.channel ⟨lit "/mentions", .TwitchMentions⟩)⟩] := by
  decide

theorem duplicatePage_visible_iff_mentionsTab :
    (duplicatePage asciiText [] mentionsTab {}).1.baseNode_.map NodeData.visible =
      mentionsTab.baseNode_.map NodeData.visible := by
  have hEven : mentionsTab.baseNode_.Forall EvenlyLaidOut := by
    unfold RoseTree.Forall EvenlyLaidOut
    decide +kernel
  have hSome : mentionsTab.splits_ ≠ [] := by
    rw [splits_mentionsTab]
    exact List.cons_ne_nil _ _
  refine (duplicatePage_visible_iff reachesTab_mentionsTab hSome [] {}).mpr ⟨hEven, ?_⟩
  rw [splits_mentionsTab]
  simp [Duplicable, unmoderated, Restorable, Found, TwitchName, IndirectChannel.getType]
  decide

theorem not_duplicated_kickTab : ¬∀ tab : SplitContainer (SplitContents ({7} : Finset Nat)) Rat, ReachesTab tab →
    tab.splits_ ≠ [] → (duplicatePage asciiText [] tab {}).1.baseNode_.map NodeData.visible =
      tab.baseNode_.map NodeData.visible := by
  intro hDuplicated
  have hRoot := congrArg RoseTree.value (hDuplicated kickTab reachesTab_kickTab (by decide))
  rw [value_map, value_map] at hRoot
  exact absurd hRoot (by decide)

end

end Chatterino.Windows
