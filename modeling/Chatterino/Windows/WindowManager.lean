import Chatterino.Qt.QJson
import Chatterino.Splits.SplitBuild
import Mathlib.Data.Finset.Sort

/-! # Channels and where they come from

A channel is looked up by its name where the platform keeps it, and made if it is not there. What
matters of it here is its type and its name.
-/

namespace Chatterino.Windows

open QString

inductive ChannelType where
  | None
  | Direct
  | Twitch
  | TwitchWhispers
  | TwitchWatching
  | TwitchMentions
  | TwitchLive
  | TwitchAutomod
  | TwitchEnd
  | Kick
  | YouTube
  | Merged
  | Misc
  deriving DecidableEq, Repr

open ChannelType hiding None

structure Channel where
  name_ : QString
  type_ : ChannelType
  deriving DecidableEq

namespace Channel

def getEmpty : Channel := ⟨[], ChannelType.None⟩

def isEmpty (channel : Channel) : Bool := channel.name_.isEmpty

end Channel

inductive IndirectChannel where
  /-- The channel that is watched in the browser, whichever it is at the time. -/
  | watching
  | merged (name_ : QString) (sourceChannels_ : List Channel)
  | channel (channel : Channel)
  deriving DecidableEq

def IndirectChannel.getType : IndirectChannel → ChannelType
  | watching => TwitchWatching
  | merged .. => Merged
  | channel shown => shown.type_

structure QtText (Uuid : Type) where
  toLower : QString → QString
  trimmed : QString → QString
  toString : Uuid → QString
  fromString : QString → Uuid
  toLower_toLower (s : QString) : toLower (toLower s) = toLower s
  toLower_hash (s : QString) : toLower (lit "#" ++ s) = lit "#" ++ toLower s
  fromString_toString (id : Uuid) : fromString (toString id) = id

/-- The channels that are open on each platform, by the keys that they are kept under. -/
structure Servers where
  twitch : List QString := []
  bySlug_ : List QString := []
  youTube : List (QString × QString) := []

namespace Servers

variable {Uuid : Type} (qt : QtText Uuid)

def cleanChannelName (dirtyChannelName : QString) : QString :=
  if lit "#" <+: dirtyChannelName then qt.toLower (dirtyChannelName.drop 1) else qt.toLower dirtyChannelName

def timerChannels : List QString :=
  [lit "$$$", lit "$$$:e", lit "$$$$", lit "$$$$:e", lit "$$$$$", lit "$$$$$:e", lit "$$$$$$", lit "$$$$$$:e",
    lit "$$$$$$$", lit "$$$$$$$:e"]

def getCustomChannel (channelName : QString) : Option Channel :=
  if channelName = lit "/whispers" then some ⟨channelName, TwitchWhispers⟩
  else if channelName = lit "/mentions" then some ⟨channelName, TwitchMentions⟩
  else if channelName = lit "/live" then some ⟨channelName, TwitchLive⟩
  else if channelName = lit "/automod" then some ⟨channelName, TwitchAutomod⟩
  else if channelName ∈ timerChannels then some ⟨channelName, Misc⟩
  else none

def getChannelOrEmpty (dirtyChannelName : QString) (servers : Servers) : Channel :=
  let channelName := cleanChannelName qt dirtyChannelName
  match getCustomChannel channelName with
  | some channel => channel
  | none => if channelName ∈ servers.twitch then ⟨channelName, Twitch⟩ else .getEmpty

def getOrAddChannel (dirtyChannelName : QString) (servers : Servers) : Channel × Servers :=
  let channelName := cleanChannelName qt dirtyChannelName
  let channel := servers.getChannelOrEmpty qt channelName
  if channel ≠ .getEmpty then (channel, servers)
  else (⟨channelName, Twitch⟩, { servers with twitch := channelName :: servers.twitch })

def getOrCreateKick (slug : QString) (servers : Servers) : Channel × Servers :=
  let normalized := qt.toLower slug
  -- `findBySlug` folds the case once more
  if qt.toLower normalized ∈ servers.bySlug_ then (⟨qt.toLower normalized, Kick⟩, servers)
  else (⟨normalized, Kick⟩, { servers with bySlug_ := normalized :: servers.bySlug_ })

def youTubeKey (target : QString) : QString := qt.toLower (qt.trimmed target)

def getOrCreateYouTube (target : QString) (servers : Servers) : Channel × Servers :=
  match servers.youTube.lookup (youTubeKey qt target) with
  | some name => (⟨name, YouTube⟩, servers)
  | none => (⟨qt.trimmed target, YouTube⟩,
      { servers with youTube := (youTubeKey qt target, qt.trimmed target) :: servers.youTube })

end Servers

open QJsonObject Splits

structure SourceChannelDescriptor where
  type : QString
  name : QString

structure SplitDescriptor (Uuid : Type) where
  type_ : QString := []
  channelName_ : QString := []
  moderationMode_ : Bool := false
  filters_ : List Uuid := []
  sourceChannels_ : List SourceChannelDescriptor := []

structure TabDescriptor (Uuid F : Type) where
  customTitle_ : QString := []
  selected_ : Bool := false
  highlightsEnabled_ : Bool := true
  rootNode_ : Option (NodeDescriptor (SplitDescriptor Uuid) F) := none

variable {Uuid F : Type} (qt : QtText Uuid)

def loadFilters (val : QJsonValue F) : List Uuid :=
  if val.isUndefined then [] else val.toArray.map fun id => qt.fromString id.toString

def loadSource (sourceVal : QJsonValue F) : Option SourceChannelDescriptor :=
  let sourceObj := sourceVal.toObject
  let source := ⟨(value "type" sourceObj).toString, (value "name" sourceObj).toString⟩
  if source.type ≠ [] ∧ source.name ≠ [] then some source else none

def SplitDescriptor.loadFromJSON (root data : QJsonObject F) : SplitDescriptor Uuid :=
  let type := (value "type" data).toString
  { type_ := type
    moderationMode_ := (value "moderationMode" root).toBool false
    channelName_ := (value (if contains "channel" data then "channel" else "name") data).toString
    filters_ := loadFilters qt (value "filters" root)
    sourceChannels_ :=
      if type = lit "merged" ∧ contains "sources" data then (value "sources" data).toArray.filterMap loadSource
      else [] }

theorem sizeOf_toObject_le (val : QJsonValue F) : sizeOf val.toObject ≤ sizeOf val := by
  cases val with
  | object members =>
    simp only [QJsonValue.toObject, QJsonValue.object.sizeOf_spec]
    omega
  | _ => simp [QJsonValue.toObject]

theorem sizeOf_item_lt {val : QJsonValue F} {key : String} {root : QJsonObject F}
    (h : val ∈ (value key root).toArray) : sizeOf val < sizeOf root := by
  obtain hNone | ⟨entry, hEntry⟩ := Option.eq_none_or_eq_some (root.find? fun entry => entry.1 = key)
  · rw [value, hNone] at h
    cases h
  · have hRoot := List.sizeOf_lt_of_mem (List.mem_of_find?_eq_some hEntry)
    rw [value, hEntry] at h
    obtain ⟨key', member⟩ := entry
    cases member with
    | array items =>
      have hMem : val ∈ items := h
      have hItem := List.sizeOf_lt_of_mem hMem
      simp only [Prod.mk.sizeOf_spec, QJsonValue.array.sizeOf_spec] at hRoot
      omega
    | _ => cases h

section

variable [One F]

def loadSplitNode (root : QJsonObject F) : NodeDescriptor (SplitDescriptor Uuid) F :=
  .split (.loadFromJSON qt root (value "data" root).toObject) ((value "flexh" root).toDouble 1)
    ((value "flexv" root).toDouble 1)

def loadContainerNode (root : QJsonObject F) : NodeDescriptor (SplitDescriptor Uuid) F :=
  .container ((value "flexh" root).toDouble 1) ((value "flexv" root).toDouble 1)
    ((value "type" root).toString = lit "vertical")
    ((value "items" root).toArray.attach.map fun val =>
      let obj := val.1.toObject
      if (value "type" obj).equals (lit "split") then loadSplitNode qt obj else loadContainerNode obj)
termination_by sizeOf root
decreasing_by exact Nat.lt_of_le_of_lt (sizeOf_toObject_le val.1) (sizeOf_item_lt val.2)

def TabDescriptor.loadFromJSON (tabObj : QJsonObject F) : TabDescriptor Uuid F :=
  let splitRoot := (value "splits2" tabObj).toObject
  let nodeType := (value "type" splitRoot).toString
  { customTitle_ := (value "title" tabObj).toString
    selected_ := (value "selected" tabObj).toBool false
    highlightsEnabled_ := (value "highlightsEnabled" tabObj).toBool true
    rootNode_ :=
      if splitRoot.isEmpty then none
      else if nodeType = lit "split" then some (loadSplitNode qt splitRoot)
      else if nodeType = lit "horizontal" ∨ nodeType = lit "vertical" then some (loadContainerNode qt splitRoot)
      else none }

end

end Chatterino.Windows

namespace Chatterino.Windows

open Lib QString QJsonObject Splits
open NodeType (HorizontalContainer VerticalContainer EmptyRoot)
open ChannelType hiding None

structure FilterSet {Uuid : Type} (records : Finset Uuid) where
  filters_ : Finset Uuid
  subset : filters_ ⊆ records
  deriving DecidableEq

structure SplitContents {Uuid : Type} (records : Finset Uuid) where
  channel_ : IndirectChannel
  moderationMode_ : Bool
  filters_ : FilterSet records
  deriving DecidableEq

variable {Uuid F : Type} [LinearOrder Uuid] {records : Finset Uuid} (qt : QtText Uuid)

namespace FilterSet

def ofIds (filterIds : List Uuid) : FilterSet records :=
  ⟨records.filter fun id => id ∈ filterIds, Finset.filter_subset _ _⟩

def filterIds (filters : FilterSet records) : List Uuid := filters.filters_.sort (· ≤ ·)

end FilterSet

namespace WindowManager

def encodeSource (source : Channel) : QJsonValue F :=
  let sourceObj : QJsonObject F :=
    match source.type_ with
    | Twitch => insert "type" (.string (lit "twitch")) []
    | Kick => insert "type" (.string (lit "kick")) []
    | YouTube => insert "type" (.string (lit "youtube")) []
    | _ => []
  .object (insert "name" (.string source.name_) sourceObj)

def encodeNamed (type name : QString) : QJsonObject F :=
  insert "name" (.string name) (insert "type" (.string type) [])

def encodeChannel : IndirectChannel → QJsonObject F
  | .watching => insert "type" (.string (lit "watching")) []
  | .merged name sources =>
    insert "sources" (.array (sources.map encodeSource)) (encodeNamed (lit "merged") name)
  | .channel channel =>
    match channel.type_ with
    | Twitch => encodeNamed (lit "twitch") channel.name_
    | TwitchAutomod => insert "type" (.string (lit "automod")) []
    | TwitchMentions => insert "type" (.string (lit "mentions")) []
    | TwitchWatching => insert "type" (.string (lit "watching")) []
    | TwitchWhispers => insert "type" (.string (lit "whispers")) []
    | TwitchLive => insert "type" (.string (lit "live")) []
    | Misc => encodeNamed (lit "misc") channel.name_
    | Kick => encodeNamed (lit "kick") channel.name_
    | YouTube => encodeNamed (lit "youtube") channel.name_
    -- the sources are those of a merged channel, which this one is not
    | Merged => insert "sources" (.array []) (encodeNamed (lit "merged") channel.name_)
    | _ => []

def encodeFilters (filters : FilterSet records) : QJsonValue F :=
  .array (filters.filterIds.map fun id => .string (qt.toString id))

def encodeSplit (contents : SplitContents records) : QJsonObject F :=
  insert "filters" (encodeFilters qt contents.filters_) (insert "data" (.object (encodeChannel contents.channel_))
    (insert "moderationMode" (.bool contents.moderationMode_) (insert "type" (.string (lit "split")) [])))

def encodeNodeRecursively : Node (SplitContents records) F → QJsonObject F :=
  RoseTree.para fun node items =>
    let container (type : QString) : QJsonObject F :=
      insert "items" (.array (items.map fun item => .object item.2)) (insert "type" (.string type) [])
    let obj : QJsonObject F :=
      match node.type_ with
      | NodeType.Split => node.split_.elim [] fun split => encodeSplit qt split.shown
      | HorizontalContainer => container (lit "horizontal")
      | VerticalContainer => container (lit "vertical")
      | EmptyRoot => []
    insert "flexv" (.double node.flexV_) (insert "flexh" (.double node.flexH_) obj)

def encodeTab (customTitle : Option QString) (isSelected highlightsEnabled : Bool)
    (tab : SplitContainer (SplitContents records) F) : QJsonObject F :=
  let obj : QJsonObject F := customTitle.elim [] fun title => insert "title" (.string title) []
  let obj := if isSelected then insert "selected" (.bool true) obj else obj
  insert "splits2" (.object (encodeNodeRecursively qt tab.baseNode_))
    (insert "highlightsEnabled" (.bool highlightsEnabled) obj)

section

open Servers

def decodeSource (source : SourceChannelDescriptor) (servers : Servers) : Option Channel × Servers :=
  if source.type = lit "twitch" then (getOrAddChannel qt source.name servers).map some id
  else if source.type = lit "youtube" then (getOrCreateYouTube qt source.name servers).map some id
  else if source.type = lit "kick" then (getOrCreateKick qt source.name servers).map some id
  else (none, servers)

def decodeSources : List SourceChannelDescriptor → Servers → List Channel × Servers
  | [], servers => ([], servers)
  | source :: sources, servers =>
    let (channel, servers) := decodeSource qt source servers
    let (channels, servers) := decodeSources sources servers
    ((channel.filter fun channel => !channel.isEmpty).toList ++ channels, servers)

def mergeSources (name : QString) : List Channel → IndirectChannel
  | [] => .channel .getEmpty
  | [channel] => .channel channel
  | sourceChannels => .merged name sourceChannels

def decodeMerged (descriptor : SplitDescriptor Uuid) (servers : Servers) : IndirectChannel × Servers :=
  if descriptor.sourceChannels_.isEmpty then (.channel .getEmpty, servers)
  else
    let (sourceChannels, servers) := decodeSources qt descriptor.sourceChannels_ servers
    (mergeSources descriptor.channelName_ sourceChannels, servers)

def decodeChannel (descriptor : SplitDescriptor Uuid) (servers : Servers) : IndirectChannel × Servers :=
  let type := descriptor.type_
  let name := descriptor.channelName_
  if type = lit "twitch" then (getOrAddChannel qt name servers).map (.channel ·) id
  else if type = lit "mentions" then (.channel ⟨lit "/mentions", TwitchMentions⟩, servers)
  else if type = lit "watching" then (.watching, servers)
  else if type = lit "whispers" then (.channel ⟨lit "/whispers", TwitchWhispers⟩, servers)
  else if type = lit "live" then (.channel ⟨lit "/live", TwitchLive⟩, servers)
  else if type = lit "automod" then (.channel ⟨lit "/automod", TwitchAutomod⟩, servers)
  else if type = lit "misc" then (.channel (servers.getChannelOrEmpty qt name), servers)
  else if type = lit "kick" then (getOrCreateKick qt name servers).map (.channel ·) id
  else if type = lit "youtube" then (getOrCreateYouTube qt name servers).map (.channel ·) id
  else if type = lit "merged" then decodeMerged qt descriptor servers
  else (.channel .getEmpty, servers)

def openSplit (descriptor : SplitDescriptor Uuid) (servers : Servers) : SplitContents records × Servers :=
  let (channel, servers) := decodeChannel qt descriptor servers
  (⟨channel, descriptor.moderationMode_, .ofIds descriptor.filters_⟩, servers)

def loadTab [Flex F] (tab : TabDescriptor Uuid F) (servers : Servers) :
    SplitContainer (SplitContents records) F × Servers :=
  match tab.rootNode_ with
  | none => (.empty, servers)
  | some rootNode => SplitContainer.applyFromDescriptor (openSplit qt) rootNode (.empty, servers)

end

end WindowManager

end Chatterino.Windows
