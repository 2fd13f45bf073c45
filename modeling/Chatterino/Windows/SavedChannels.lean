import Chatterino.Windows.WindowManager

/-! # Channels that are saved and loaded

Looking up the name of a channel gives a channel of this name, unless the lookup cleans the name. A
channel of Twitch whose name starts with a number sign is not found again.
-/

namespace Chatterino.Windows

open QString Servers WindowManager
open ChannelType hiding None

variable {Uuid : Type} {qt : QtText Uuid} {servers : Servers} {name : QString}

variable (qt) in
def TwitchName (name : QString) : Prop := cleanChannelName qt name = name ∧ getCustomChannel name = none

theorem toLower_cleanChannelName (name : QString) :
    qt.toLower (cleanChannelName qt name) = cleanChannelName qt name := by
  unfold cleanChannelName
  split_ifs <;> exact qt.toLower_toLower _

theorem cleanChannelName_of_lower (hLower : qt.toLower name = name) :
    cleanChannelName qt name = name ∨ (cleanChannelName qt name).length < name.length := by
  unfold cleanChannelName
  split_ifs with hHash
  · obtain ⟨rest, rfl⟩ := hHash
    rw [qt.toLower_hash] at hLower
    have hRest : qt.toLower ((lit "#" ++ rest).drop 1) = rest := List.append_cancel_left hLower
    rw [hRest]
    exact .inr (Nat.lt_succ_self _)
  · exact .inl hLower

theorem cleanChannelName_of_twice (h : cleanChannelName qt (cleanChannelName qt name) = name) :
    cleanChannelName qt name = name := by
  have hLower : qt.toLower name = name := by
    rw [← h]
    exact toLower_cleanChannelName _
  have hCleaned : qt.toLower (cleanChannelName qt name) = cleanChannelName qt name := toLower_cleanChannelName name
  have hShorter := cleanChannelName_of_lower hCleaned
  rw [h] at hShorter
  rcases hShorter with hSame | hShort
  · exact hSame.symm
  · refine (cleanChannelName_of_lower hLower).resolve_right fun hShort' => ?_
    exact absurd hShort' (Nat.lt_asymm hShort)

theorem getCustomChannel_eq {channel : Channel} (h : getCustomChannel name = some channel) :
    channel.name_ = name ∧ channel.type_ ≠ Twitch ∧ channel.type_ ≠ ChannelType.None := by
  unfold getCustomChannel at h
  split_ifs at h <;> cases h <;> exact ⟨rfl, by rintro ⟨⟩, by rintro ⟨⟩⟩

theorem getOrAddChannel_eq (name : QString) (servers : Servers) : (getOrAddChannel qt name servers).1 =
    (getCustomChannel (cleanChannelName qt (cleanChannelName qt name))).getD
      (if cleanChannelName qt (cleanChannelName qt name) ∈ servers.twitch
        then ⟨cleanChannelName qt (cleanChannelName qt name), Twitch⟩ else ⟨cleanChannelName qt name, Twitch⟩) := by
  unfold getOrAddChannel getChannelOrEmpty
  dsimp only
  cases hCustom : getCustomChannel (cleanChannelName qt (cleanChannelName qt name)) with
  | some channel =>
    dsimp only [Option.getD_some]
    rw [if_pos]
    intro hEmpty
    exact (getCustomChannel_eq hCustom).2.2 (congrArg Channel.type_ hEmpty)
  | none =>
    dsimp only [Option.getD_none]
    by_cases hOpen : cleanChannelName qt (cleanChannelName qt name) ∈ servers.twitch
    · rw [if_pos hOpen, if_pos hOpen, if_pos]
      exact fun hEmpty => absurd (congrArg Channel.type_ hEmpty) (by rintro ⟨⟩)
    · rw [if_neg hOpen, if_neg hOpen, if_neg (not_not_intro rfl)]

theorem getOrAddChannel_eq_iff :
    (getOrAddChannel qt name servers).1 = ⟨name, Twitch⟩ ↔ TwitchName qt name := by
  rw [getOrAddChannel_eq]
  constructor
  · intro hSame
    cases hCustom : getCustomChannel (cleanChannelName qt (cleanChannelName qt name)) with
    | some channel =>
      rw [hCustom] at hSame
      exact absurd (congrArg Channel.type_ hSame) (getCustomChannel_eq hCustom).2.1
    | none =>
      have hClean : cleanChannelName qt name = name := by
        rw [hCustom, Option.getD_none] at hSame
        split_ifs at hSame
        · exact cleanChannelName_of_twice (congrArg Channel.name_ hSame)
        · exact congrArg Channel.name_ hSame
      rw [hClean, hClean] at hCustom
      exact ⟨hClean, hCustom⟩
  · rintro ⟨hClean, hNone⟩
    rw [hClean, hClean, hNone, Option.getD_none, ite_self]

theorem youTube_getOrAddChannel (name : QString) (servers : Servers) :
    (getOrAddChannel qt name servers).2.youTube = servers.youTube := by
  unfold getOrAddChannel
  dsimp only
  split_ifs <;> rfl

theorem getOrCreateKick_eq (name : QString) (servers : Servers) :
    (getOrCreateKick qt name servers).1 = ⟨qt.toLower name, Kick⟩ := by
  unfold getOrCreateKick
  dsimp only
  rw [qt.toLower_toLower, apply_ite Prod.fst, ite_self]

theorem youTube_getOrCreateKick (name : QString) (servers : Servers) :
    (getOrCreateKick qt name servers).2.youTube = servers.youTube := by
  unfold getOrCreateKick
  dsimp only
  split_ifs <;> rfl

theorem getChannelOrEmpty_eq_iff : servers.getChannelOrEmpty qt name = ⟨name, Misc⟩ ↔
    cleanChannelName qt name = name ∧ name ∈ timerChannels := by
  have hTimer : getCustomChannel name = some ⟨name, Misc⟩ ↔ name ∈ timerChannels := by
    have hOther : ∀ other ∈ timerChannels, other ≠ lit "/whispers" ∧ other ≠ lit "/mentions" ∧
        other ≠ lit "/live" ∧ other ≠ lit "/automod" := by decide
    unfold getCustomChannel
    constructor
    · intro hSome
      split_ifs at hSome with _ _ _ _ hMem
      all_goals first | exact hMem | cases hSome
    · intro hMem
      obtain ⟨hWhispers, hMentions, hLive, hAutomod⟩ := hOther name hMem
      rw [if_neg hWhispers, if_neg hMentions, if_neg hLive, if_neg hAutomod, if_pos hMem]
  rw [← hTimer]
  unfold getChannelOrEmpty
  dsimp only
  constructor
  · intro hSame
    cases hCustom : getCustomChannel (cleanChannelName qt name) with
    | some channel =>
      rw [hCustom] at hSame
      dsimp only at hSame
      obtain ⟨hName, -⟩ := getCustomChannel_eq hCustom
      rw [hSame] at hName hCustom
      have hClean : cleanChannelName qt name = name := hName.symm
      rw [hClean] at hCustom
      exact ⟨hClean, hCustom⟩
    | none =>
      rw [hCustom] at hSame
      dsimp only at hSame
      split_ifs at hSame <;> exact absurd (congrArg Channel.type_ hSame) (by rintro ⟨⟩)
  · rintro ⟨hClean, hCustom⟩
    rw [hClean, hCustom]

section

-- the name of the channel that is kept under a key
variable (qt) (named : QString → QString)

def Named (name : QString) : Prop := qt.trimmed name = name ∧ named (youTubeKey qt name) = name

def Agrees (servers : Servers) : Prop := ∀ entry ∈ servers.youTube, named entry.1 = entry.2

end

variable {named : QString → QString}

theorem Agrees.getOrCreateYouTube (h : Agrees named servers) (hName : Named qt named name) :
    (getOrCreateYouTube qt name servers).1 = ⟨name, YouTube⟩ ∧
      Agrees named (Servers.getOrCreateYouTube qt name servers).2 := by
  unfold Servers.getOrCreateYouTube
  cases hOpen : servers.youTube.lookup (youTubeKey qt name) with
  | some other =>
    obtain ⟨before, after, hServers, -⟩ := List.lookup_eq_some_iff.mp hOpen
    have hOther : named (youTubeKey qt name) = other :=
      h (youTubeKey qt name, other) (hServers ▸ List.mem_append_right _ List.mem_cons_self)
    dsimp only
    rw [← hOther, hName.2]
    exact ⟨rfl, h⟩
  | none =>
    dsimp only
    rw [hName.1]
    refine ⟨rfl, fun entry hEntry => ?_⟩
    rcases List.mem_cons.mp hEntry with rfl | hOld
    · exact hName.2
    · exact h entry hOld

def savedSource (source : Channel) : Option SourceChannelDescriptor :=
  if source.name_ = [] then none
  else
    match source.type_ with
    | Twitch => some ⟨lit "twitch", source.name_⟩
    | Kick => some ⟨lit "kick", source.name_⟩
    | YouTube => some ⟨lit "youtube", source.name_⟩
    | _ => none

def typeText : ChannelType → QString
  | Twitch => lit "twitch"
  | TwitchAutomod => lit "automod"
  | TwitchMentions => lit "mentions"
  | TwitchWatching => lit "watching"
  | TwitchWhispers => lit "whispers"
  | TwitchLive => lit "live"
  | Misc => lit "misc"
  | Kick => lit "kick"
  | YouTube => lit "youtube"
  | Merged => lit "merged"
  | _ => []

def savedName : IndirectChannel → QString
  | .watching => []
  | .merged name _ => name
  | .channel channel => if channel.type_ ∈ [Twitch, Misc, Kick, YouTube, Merged] then channel.name_ else []

def savedSources : IndirectChannel → List SourceChannelDescriptor
  | .merged _ sources => sources.filterMap savedSource
  | _ => []

def saved (channel : IndirectChannel) (moderationMode : Bool) (filters : List Uuid) : SplitDescriptor Uuid :=
  ⟨typeText channel.getType, savedName channel, moderationMode, filters, savedSources channel⟩

variable {F : Type}

theorem loadSource_encodeSource (source : Channel) :
    loadSource (encodeSource source : QJsonValue F) = savedSource source := by
  have hTypes : lit "twitch" ≠ [] ∧ lit "kick" ≠ [] ∧ lit "youtube" ≠ [] := by decide
  obtain ⟨name, type⟩ := source
  cases type <;> simp [loadSource, encodeSource, savedSource, QJsonValue.toObject, QJsonValue.toString, hTypes]

theorem loadFromJSON_encodeChannel (channel : IndirectChannel) (root : QJsonObject F) :
    SplitDescriptor.loadFromJSON qt root (encodeChannel channel) =
      saved channel ((QJsonObject.value "moderationMode" root).toBool false)
        (loadFilters qt (QJsonObject.value "filters" root)) := by
  cases channel with
  | watching =>
    simp [SplitDescriptor.loadFromJSON, encodeChannel, saved, savedName, savedSources, typeText,
      IndirectChannel.getType, QJsonValue.toString]
  | merged name sources =>
    have hSources : (sources.map (encodeSource (F := F))).filterMap loadSource = sources.filterMap savedSource := by
      rw [List.filterMap_map]
      exact List.filterMap_congr fun source _ => loadSource_encodeSource source
    simp [SplitDescriptor.loadFromJSON, encodeChannel, encodeNamed, saved, savedName, savedSources, typeText,
      IndirectChannel.getType, QJsonValue.toString, QJsonValue.toArray, hSources]
  | channel channel =>
    obtain ⟨name, type⟩ := channel
    cases type <;> simp [SplitDescriptor.loadFromJSON, encodeChannel, encodeNamed, saved, savedName, savedSources,
      typeText, IndirectChannel.getType, QJsonValue.toString, QJsonValue.toArray]

end Chatterino.Windows

namespace Chatterino.Windows

open QString Servers WindowManager
open ChannelType hiding None

variable {Uuid : Type} {qt : QtText Uuid} {servers : Servers} {named : QString → QString}

section

variable (qt)

def Found (channel : Channel) : Prop :=
  match channel.type_ with
  | Twitch => TwitchName qt channel.name_
  | Kick => qt.toLower channel.name_ = channel.name_
  | YouTube => True
  | _ => False

def Restorable : IndirectChannel → Prop
  | .watching => True
  | .merged _ sources => 2 ≤ sources.length ∧ ∀ source ∈ sources, source.name_ ≠ [] ∧ Found qt source
  | .channel channel =>
    match channel.type_ with
    | ChannelType.None => channel.name_ = []
    | TwitchWhispers => channel.name_ = lit "/whispers"
    | TwitchMentions => channel.name_ = lit "/mentions"
    | TwitchLive => channel.name_ = lit "/live"
    | TwitchAutomod => channel.name_ = lit "/automod"
    | Misc => cleanChannelName qt channel.name_ = channel.name_ ∧ channel.name_ ∈ timerChannels
    | _ => Found qt channel

variable (named)

def NamedChannel (channel : Channel) : Prop := channel.type_ = YouTube → Named qt named channel.name_

def NamedChannels : IndirectChannel → Prop
  | .watching => True
  | .merged _ sources => ∀ source ∈ sources, NamedChannel qt named source
  | .channel channel => NamedChannel qt named channel

end

theorem decodeSource_twitch (name : QString) (servers : Servers) : decodeSource qt ⟨lit "twitch", name⟩ servers =
    (some (getOrAddChannel qt name servers).1, (getOrAddChannel qt name servers).2) := if_pos rfl

theorem decodeSource_kick (name : QString) (servers : Servers) : decodeSource qt ⟨lit "kick", name⟩ servers =
    (some (getOrCreateKick qt name servers).1, (getOrCreateKick qt name servers).2) := by
  have hTypes : lit "kick" ≠ lit "twitch" ∧ lit "kick" ≠ lit "youtube" := by decide
  exact (if_neg hTypes.1).trans ((if_neg hTypes.2).trans (if_pos rfl))

theorem decodeSource_youTube (name : QString) (servers : Servers) : decodeSource qt ⟨lit "youtube", name⟩ servers =
    (some (getOrCreateYouTube qt name servers).1, (getOrCreateYouTube qt name servers).2) := by
  have hType : lit "youtube" ≠ lit "twitch" := by decide
  exact (if_neg hType).trans (if_pos rfl)

theorem Agrees.congr {servers' : Servers} (h : Agrees named servers) (hYouTube : servers'.youTube = servers.youTube) :
    Agrees named servers' := fun entry hEntry => h entry (hYouTube ▸ hEntry)

theorem decodeSource_of_savedSource {source : Channel} {descriptor : SourceChannelDescriptor}
    (h : Agrees named servers) (hNamed : NamedChannel qt named source)
    (hSaved : savedSource source = some descriptor) : ∃ channel,
      (decodeSource qt descriptor servers).1 = some channel ∧ (channel = source ↔ Found qt source) ∧
        Agrees named (decodeSource qt descriptor servers).2 := by
  obtain ⟨name, type⟩ := source
  unfold savedSource at hSaved
  split_ifs at hSaved with hName
  cases type with
  | Twitch =>
    obtain rfl := Option.some.inj hSaved
    rw [decodeSource_twitch]
    exact ⟨_, rfl, getOrAddChannel_eq_iff, h.congr (youTube_getOrAddChannel _ _)⟩
  | Kick =>
    obtain rfl := Option.some.inj hSaved
    rw [decodeSource_kick]
    refine ⟨_, rfl, ?_, h.congr (youTube_getOrCreateKick _ _)⟩
    rw [getOrCreateKick_eq]
    refine ⟨fun hSame => congrArg Channel.name_ hSame, fun hLower => ?_⟩
    exact congrArg (Channel.mk · Kick) hLower
  | YouTube =>
    obtain rfl := Option.some.inj hSaved
    obtain ⟨hChannel, hAgrees⟩ := h.getOrCreateYouTube (hNamed rfl)
    rw [decodeSource_youTube]
    exact ⟨_, rfl, iff_of_true hChannel trivial, hAgrees⟩
  | _ => cases hSaved

theorem savedSource_eq_none {source : Channel} (h : savedSource source = none) :
    ¬(source.name_ ≠ [] ∧ Found qt source) := by
  rintro ⟨hName, hFound⟩
  obtain ⟨name, type⟩ := source
  rw [savedSource, if_neg hName] at h
  cases type with
  | Twitch => cases h
  | Kick => cases h
  | YouTube => cases h
  | _ => exact hFound

theorem length_decodeSources_le (sources : List SourceChannelDescriptor) (servers : Servers) :
    (decodeSources qt sources servers).1.length ≤ sources.length := by
  induction sources generalizing servers with
  | nil => exact Nat.le_refl _
  | cons source sources ih =>
    have hOne (channel : Option Channel) :
        (channel.filter fun channel => !channel.isEmpty).toList.length ≤ 1 := by
      cases channel.filter fun channel => !channel.isEmpty <;> simp
    have hRest := ih (decodeSource qt source servers).2
    have hFirst := hOne (decodeSource qt source servers).1
    rw [decodeSources, List.length_cons]
    dsimp only
    rw [List.length_append]
    omega

theorem decodeSources_eq_iff {sources : List Channel} (h : Agrees named servers)
    (hNamed : ∀ source ∈ sources, NamedChannel qt named source) :
    ((decodeSources qt (sources.filterMap savedSource) servers).1 = sources ↔
      ∀ source ∈ sources, source.name_ ≠ [] ∧ Found qt source) ∧
    Agrees named (decodeSources qt (sources.filterMap savedSource) servers).2 := by
  induction sources generalizing servers with
  | nil => exact ⟨iff_of_true rfl (by rintro _ ⟨⟩), h⟩
  | cons source sources ih =>
    rw [List.forall_mem_cons] at hNamed ⊢
    have hShort (servers : Servers) :
        (decodeSources qt (sources.filterMap savedSource) servers).1 ≠ source :: sources := by
      intro hSame
      have hLength : (decodeSources qt (sources.filterMap savedSource) servers).1.length ≤ _ :=
        length_decodeSources_le (sources.filterMap savedSource) servers
      rw [hSame] at hLength
      have hFewer := List.length_filterMap_le savedSource sources
      rw [List.length_cons] at hLength
      omega
    cases hSaved : savedSource source with
    | none =>
      rw [List.filterMap_cons_none hSaved]
      exact ⟨iff_of_false (hShort _) fun hAll => savedSource_eq_none hSaved hAll.1, (ih h hNamed.2).2⟩
    | some descriptor =>
      obtain ⟨channel, hChannel, hFound, hAgrees⟩ := decodeSource_of_savedSource h hNamed.1 hSaved
      obtain ⟨hRest, hRestAgrees⟩ := ih hAgrees hNamed.2
      have hName : source.name_ ≠ [] := by
        rintro hEmpty
        rw [savedSource, if_pos hEmpty] at hSaved
        cases hSaved
      rw [List.filterMap_cons_some hSaved, decodeSources]
      dsimp only
      refine ⟨?_, hRestAgrees⟩
      rw [hChannel]
      cases hEmpty : channel.isEmpty with
      | true =>
        rw [Option.filter_some, hEmpty]
        refine iff_of_false (hShort _) fun hAll => ?_
        rw [hFound.mpr hAll.1.2] at hEmpty
        exact hName (List.isEmpty_iff.mp hEmpty)
      | false =>
        have hCons : ((some channel).filter fun channel => !channel.isEmpty).toList = [channel] := by
          rw [Option.filter_some, hEmpty]
          rfl
        rw [hCons, List.singleton_append, List.cons_eq_cons, hRest, hFound]
        exact and_congr_left fun _ => (and_iff_right hName).symm

theorem mergeSources_eq_iff {name : QString} {channels sources : List Channel} :
    mergeSources name channels = .merged name sources ↔ channels = sources ∧ 2 ≤ sources.length := by
  cases channels with
  | nil => exact iff_of_false (by rintro ⟨⟩) (by rintro ⟨rfl, ⟨⟩⟩)
  | cons first rest =>
    cases rest with
    | nil =>
      refine iff_of_false (by rintro ⟨⟩) ?_
      rintro ⟨rfl, hMany⟩
      exact absurd hMany (Nat.not_succ_le_self 1)
    | cons second rest =>
      constructor
      · rintro ⟨⟩
        exact ⟨rfl, Nat.le_add_left 2 _⟩
      · rintro ⟨rfl, -⟩
        rfl

theorem decodeMerged_eq_iff {name : QString} {sources : List Channel} {descriptor : SplitDescriptor Uuid}
    (h : Agrees named servers) (hNamed : ∀ source ∈ sources, NamedChannel qt named source)
    (hName : descriptor.channelName_ = name) (hSources : descriptor.sourceChannels_ = sources.filterMap savedSource) :
    ((decodeMerged qt descriptor servers).1 = .merged name sources ↔ Restorable qt (.merged name sources)) ∧
      Agrees named (decodeMerged qt descriptor servers).2 := by
  obtain ⟨hIff, hAgrees⟩ := decodeSources_eq_iff h hNamed
  rw [← hSources] at hIff hAgrees
  rw [Restorable, ← hIff, decodeMerged, hName]
  split_ifs with hEmpty
  · refine ⟨iff_of_false (by rintro ⟨⟩) ?_, h⟩
    rintro ⟨hMany, hAll⟩
    rw [List.isEmpty_iff.mp hEmpty] at hAll
    rw [← hAll] at hMany
    exact absurd hMany (Nat.not_succ_le_zero 1)
  · exact ⟨mergeSources_eq_iff.trans and_comm, hAgrees⟩

theorem channel_eq_iff {channel channel' : Channel} {condition : Prop} (h : channel = channel' ↔ condition) :
    IndirectChannel.channel channel = .channel channel' ↔ condition := IndirectChannel.channel.injEq _ _ ▸ h

theorem withName_eq_iff {name' name : QString} {type : ChannelType} :
    (⟨name', type⟩ : Channel) = ⟨name, type⟩ ↔ name = name' :=
  ⟨fun hSame => (congrArg Channel.name_ hSame).symm, fun hSame => congrArg (Channel.mk · type) hSame.symm⟩

theorem decodeChannel_saved {channel : IndirectChannel} (moderationMode : Bool) (filters : List Uuid)
    (h : Agrees named servers) (hNamed : NamedChannels qt named channel) :
    ((decodeChannel qt (saved channel moderationMode filters) servers).1 = channel ↔ Restorable qt channel) ∧
      Agrees named (decodeChannel qt (saved channel moderationMode filters) servers).2 := by
  have hType {type : ChannelType} (name : QString) (hNone : type ≠ ChannelType.None) :
      Channel.getEmpty ≠ ⟨name, type⟩ := fun hSame => hNone (congrArg Channel.type_ hSame).symm
  cases channel with
  | watching =>
    simp +decide only [decodeChannel, saved, typeText, IndirectChannel.getType, if_false, if_true]
    exact ⟨Iff.rfl, h⟩
  | merged name sources =>
    simp +decide only [decodeChannel, saved, typeText, IndirectChannel.getType, if_false, if_true]
    exact decodeMerged_eq_iff h hNamed rfl rfl
  | channel channel =>
    obtain ⟨name, type⟩ := channel
    cases type with
    | None =>
      simp +decide only [decodeChannel, saved, typeText, IndirectChannel.getType, if_false]
      exact ⟨channel_eq_iff withName_eq_iff, h⟩
    | Direct | TwitchEnd =>
      simp +decide only [decodeChannel, saved, typeText, IndirectChannel.getType, if_false]
      exact ⟨iff_of_false (fun hSame => hType _ (by decide) (IndirectChannel.channel.inj hSame)) id, h⟩
    | Twitch =>
      simp +decide only [decodeChannel, saved, savedName, typeText, IndirectChannel.getType, if_true, Prod.map_fst,
        Prod.map_snd, id]
      exact ⟨channel_eq_iff getOrAddChannel_eq_iff, h.congr (youTube_getOrAddChannel _ _)⟩
    | TwitchWhispers | TwitchMentions | TwitchLive | TwitchAutomod =>
      simp +decide only [decodeChannel, saved, typeText, IndirectChannel.getType, if_false, if_true]
      exact ⟨channel_eq_iff withName_eq_iff, h⟩
    | TwitchWatching =>
      simp +decide only [decodeChannel, saved, typeText, IndirectChannel.getType, if_false, if_true]
      exact ⟨iff_of_false (by rintro ⟨⟩) id, h⟩
    | Kick =>
      simp +decide only [decodeChannel, saved, savedName, typeText, IndirectChannel.getType, if_false, if_true,
        Prod.map_fst, Prod.map_snd, id]
      refine ⟨channel_eq_iff ?_, h.congr (youTube_getOrCreateKick _ _)⟩
      rw [getOrCreateKick_eq]
      exact withName_eq_iff.trans eq_comm
    | YouTube =>
      simp +decide only [decodeChannel, saved, savedName, typeText, IndirectChannel.getType, if_false, if_true,
        Prod.map_fst, Prod.map_snd, id]
      obtain ⟨hFound, hAgrees⟩ := h.getOrCreateYouTube (hNamed rfl)
      exact ⟨channel_eq_iff (iff_of_true hFound trivial), hAgrees⟩
    | Merged =>
      simp +decide only [decodeChannel, saved, typeText, IndirectChannel.getType, if_false, if_true]
      have hSingle : decodeMerged qt (saved (.channel ⟨name, Merged⟩) moderationMode filters) servers =
        (.channel .getEmpty, servers) := if_pos rfl
      exact hSingle ▸ ⟨iff_of_false (fun hSame => hType _ (by decide) (IndirectChannel.channel.inj hSame)) id, h⟩
    | Misc =>
      simp +decide only [decodeChannel, saved, savedName, typeText, IndirectChannel.getType, if_false, if_true]
      exact ⟨channel_eq_iff getChannelOrEmpty_eq_iff, h⟩

end Chatterino.Windows
