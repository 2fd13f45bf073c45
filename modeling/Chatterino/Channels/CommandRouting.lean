import Chatterino.Channels.MergedChannel

/-! # The channels of a command

A command on a merged channel acts on the sources that it is handed.
-/

namespace Chatterino

open Lib

structure CommandContext (ChannelPtr : Type) where
  words : List QString
  channel : ChannelPtr
  twitchChannel : Option ChannelPtr
  kickChannel : Option ChannelPtr

namespace CommandContext

variable {ChannelPtr Holder : Type} (getType : ChannelPtr → ChannelType)

def dynamicCast (type : ChannelType) (channel : ChannelPtr) : Option ChannelPtr :=
  if getType channel = type then some channel else none

def lookThrough (ctx : CommandContext ChannelPtr) (source : ChannelPtr) : CommandContext ChannelPtr :=
  { ctx with
    twitchChannel := ctx.twitchChannel.or (dynamicCast getType .Twitch source)
    kickChannel := ctx.kickChannel.or (dynamicCast getType .Kick source) }

def select (selection : PlatformSelection) (ctx : CommandContext ChannelPtr) : CommandContext ChannelPtr :=
  match selection with
  | .KickOnly => { ctx with twitchChannel := none }
  | .TwitchOnly | .Both => if ctx.twitchChannel.isSome then { ctx with kickChannel := none } else ctx
  | .YouTubeOnly => ctx

/-- `merged` is the object that a pointer to a merged channel points to. -/
def makeCommandContext (merged : ChannelPtr → MergedChannel ChannelPtr Holder) (words : List QString)
    (channel : ChannelPtr) : CommandContext ChannelPtr :=
  let ctx : CommandContext ChannelPtr :=
    ⟨words, channel, dynamicCast getType .Twitch channel, dynamicCast getType .Kick channel⟩
  if getType channel = .Merged then
    ((merged channel).sourceChannels_.foldl (lookThrough getType) ctx).select (merged channel).platformSelection_
  else ctx

def handed (ctx : CommandContext ChannelPtr) : List ChannelPtr := ctx.twitchChannel.toList ++ ctx.kickChannel.toList

variable {getType} {merged : ChannelPtr → MergedChannel ChannelPtr Holder} {words : List QString} {channel : ChannelPtr}

def firstOf (getType : ChannelPtr → ChannelType) (type : ChannelType) (sources : List ChannelPtr) :
    Option ChannelPtr := sources.find? fun source => getType source == type

theorem foldl_lookThrough (sources : List ChannelPtr) (ctx : CommandContext ChannelPtr) :
    sources.foldl (lookThrough getType) ctx =
      { ctx with
        twitchChannel := ctx.twitchChannel.or (firstOf getType .Twitch sources)
        kickChannel := ctx.kickChannel.or (firstOf getType .Kick sources) } := by
  induction sources generalizing ctx with
  | nil => simp [firstOf]
  | cons source sources ih =>
    have hFirst (type : ChannelType) : firstOf getType type (source :: sources) =
        (dynamicCast getType type source).or (firstOf getType type sources) := by
      rw [firstOf, List.find?_cons, dynamicCast, firstOf]
      by_cases hType : getType source = type
      · simp [hType]
      · simp [beq_eq_false_iff_ne.mpr hType, hType]
    rw [List.foldl_cons, ih, hFirst, hFirst, ← Option.or_assoc, ← Option.or_assoc]
    rfl

theorem mem_of_firstOf {type : ChannelType} {sources : List ChannelPtr} {source : ChannelPtr}
    (h : firstOf getType type sources = some source) : source ∈ sources ∧ getType source = type := by
  have hType := List.find?_some h
  exact ⟨List.mem_of_find?_eq_some h, beq_iff_eq.mp hType⟩

theorem mem_handed_iff (hMerged : getType channel = .Merged) {source : ChannelPtr} :
    source ∈ (makeCommandContext getType merged words channel).handed ↔
      (merged channel).platformSelection_ ≠ .KickOnly ∧
          firstOf getType .Twitch (merged channel).sourceChannels_ = some source ∨
        ((merged channel).platformSelection_ = .KickOnly ∨ (merged channel).platformSelection_ = .YouTubeOnly ∨
            firstOf getType .Twitch (merged channel).sourceChannels_ = none) ∧
          firstOf getType .Kick (merged channel).sourceChannels_ = some source := by
  have hCast (type : ChannelType) (hType : type ≠ .Merged) : dynamicCast getType type channel = none := by
    rw [dynamicCast, hMerged, if_neg hType.symm]
  rw [makeCommandContext, if_pos hMerged, foldl_lookThrough, hCast .Twitch (by decide), hCast .Kick (by decide)]
  cases hSelection : (merged channel).platformSelection_ <;>
    cases hTwitch : firstOf getType .Twitch (merged channel).sourceChannels_ <;>
      simp [select, handed, eq_comm]

end CommandContext

end Chatterino

namespace Chatterino.CommandContext

variable {ChannelPtr Holder : Type} {getType : ChannelPtr → ChannelType}
  {merged : ChannelPtr → MergedChannel ChannelPtr Holder} {words : List QString} {channel : ChannelPtr}
  {m : MergedChannel ChannelPtr Holder} {canSend : ChannelPtr → Bool} {text : QString} {sentTime now : Int}

def platforms : PlatformSelection → List ChannelType
  | .Both => [.Twitch, .Kick, .YouTube]
  | .TwitchOnly => [.Twitch]
  | .KickOnly => [.Kick]
  | .YouTubeOnly => [.YouTube]

/-- Messages and commands go to selected platforms, and only there is asked whether one can be sent. -/
structure Consistent (getType : ChannelPtr → ChannelType) (m : MergedChannel ChannelPtr Holder)
    (canSend : ChannelPtr → Bool) (text : QString) (sentTime now : Int) (ctx : CommandContext ChannelPtr) : Prop where
  delivered : ∀ source ∈ (m.sendMessage getType canSend text sentTime now).2.deliveredTo,
    getType source ∈ platforms m.platformSelection_
  inspected : ∀ canSend' : ChannelPtr → Bool,
    (∀ source ∈ m.sourceChannels_, getType source ∈ platforms m.platformSelection_ → canSend' source = canSend source) →
      m.canSendMessage getType canSend' = m.canSendMessage getType canSend
  handed : ∀ source ∈ ctx.handed, getType source ∈ platforms m.platformSelection_
  reached : ∀ source ∈ ctx.handed, ∃ other ∈ (m.sendMessage getType (fun _ => true) text sentTime now).2.deliveredTo,
    getType other = getType source

/-- A command may be routed: Twitch is there where only Twitch is meant, and there is only YouTube where
only YouTube is. -/
def Routable (getType : ChannelPtr → ChannelType) (m : MergedChannel ChannelPtr Holder) : Prop :=
  (m.platformSelection_ = .TwitchOnly → m.hasPlatform getType .Twitch ∨ ¬m.hasPlatform getType .Kick) ∧
    (m.platformSelection_ = .YouTubeOnly → ¬m.hasPlatform getType .Twitch ∧ ¬m.hasPlatform getType .Kick)

def commandPlatform (getType : ChannelPtr → ChannelType) (m : MergedChannel ChannelPtr Holder) : Option ChannelType :=
  if m.platformSelection_ ≠ .KickOnly ∧ m.hasPlatform getType .Twitch then some .Twitch
  else if m.hasPlatform getType .Kick then some .Kick
  else none

theorem matchesPlatform_iff {selection : PlatformSelection} {type : ChannelType}
    (hType : type ∈ [ChannelType.Twitch, .Kick, .YouTube]) :
    MergedChannel.matchesPlatform selection type = true ↔ type ∈ platforms selection := by
  cases selection with
  | Both => exact iff_of_true rfl hType
  | TwitchOnly | KickOnly | YouTubeOnly => exact beq_iff_eq.trans List.mem_singleton.symm

theorem mem_deliveredTo_iff {source : ChannelPtr} :
    source ∈ (m.sendMessage getType canSend text sentTime now).2.deliveredTo ↔
      source ∈ m.sourceChannels_ ∧ MergedChannel.matchesPlatform m.platformSelection_ (getType source) ∧ canSend source := by
  unfold MergedChannel.sendMessage
  split_ifs with hCan
  · simp only [List.mem_filter]
    rw [and_assoc]
  · rw [MergedChannel.canSendMessage, List.any_eq_true] at hCan
    simp only [List.not_mem_nil, false_iff]
    rintro ⟨hSource, hMatches, hSend⟩
    exact hCan ⟨source, hSource, by rw [hMatches, hSend]; rfl⟩

theorem canSendMessage_congr {canSend' : ChannelPtr → Bool}
    (hSources : ∀ source ∈ m.sourceChannels_, getType source ∈ [ChannelType.Twitch, .Kick, .YouTube])
    (h : ∀ source ∈ m.sourceChannels_, getType source ∈ platforms m.platformSelection_ → canSend' source = canSend source) :
    m.canSendMessage getType canSend' = m.canSendMessage getType canSend := by
  rw [MergedChannel.canSendMessage, MergedChannel.canSendMessage, Bool.eq_iff_iff, List.any_eq_true, List.any_eq_true]
  refine exists_congr fun source => and_congr_right fun hSource => ?_
  rw [Bool.and_eq_true, Bool.and_eq_true]
  refine and_congr_right fun hMatches => ?_
  rw [h source hSource ((matchesPlatform_iff (hSources source hSource)).mp hMatches)]

theorem hasPlatform_iff {type : ChannelType} :
    m.hasPlatform getType type = true ↔ ∃ source, firstOf getType type m.sourceChannels_ = some source := by
  rw [← Option.isSome_iff_exists, firstOf, List.find?_isSome, MergedChannel.hasPlatform, List.any_eq_true]

theorem handed_iff (hMerged : getType channel = .Merged) (words : List QString) :
    (∀ source ∈ (makeCommandContext getType merged words channel).handed,
        getType source ∈ platforms (merged channel).platformSelection_) ↔ Routable getType (merged channel) := by
  simp only [mem_handed_iff hMerged, Routable, hasPlatform_iff, not_exists]
  constructor
  · intro h
    constructor
    · intro hSelection
      rw [hSelection] at h
      cases hTwitch : firstOf getType .Twitch (merged channel).sourceChannels_ with
      | some twitch => exact .inl ⟨twitch, rfl⟩
      | none =>
        right
        intro kick hKick
        have hType := h kick (.inr ⟨.inr (.inr hTwitch), hKick⟩)
        rw [(mem_of_firstOf hKick).2] at hType
        exact absurd hType (by decide)
    · intro hSelection
      rw [hSelection] at h
      constructor
      · intro twitch hTwitch
        have hType := h twitch (.inl ⟨by decide, hTwitch⟩)
        rw [(mem_of_firstOf hTwitch).2] at hType
        exact absurd hType (by decide)
      · intro kick hKick
        have hType := h kick (.inr ⟨.inr (.inl rfl), hKick⟩)
        rw [(mem_of_firstOf hKick).2] at hType
        exact absurd hType (by decide)
  · rintro ⟨hTwitchOnly, hYouTubeOnly⟩ source (⟨hSelection, hTwitch⟩ | ⟨hSelection, hKick⟩)
    · rw [(mem_of_firstOf hTwitch).2]
      cases hSelected : (merged channel).platformSelection_ with
      | Both => decide
      | TwitchOnly => decide
      | KickOnly => exact absurd hSelected hSelection
      | YouTubeOnly => exact absurd hTwitch ((hYouTubeOnly hSelected).1 source)
    · rw [(mem_of_firstOf hKick).2]
      cases hSelected : (merged channel).platformSelection_ with
      | Both => decide
      | TwitchOnly =>
        rw [hSelected] at hSelection
        rcases hTwitchOnly hSelected with ⟨twitch, hTwitch⟩ | hNone
        · rcases hSelection with hNot | hNot | hNot
          · cases hNot
          · cases hNot
          · rw [hTwitch] at hNot
            cases hNot
        · exact absurd hKick (hNone source)
      | KickOnly => decide
      | YouTubeOnly => exact absurd hKick ((hYouTubeOnly hSelected).2 source)

theorem mem_sources_of_handed (hMerged : getType channel = .Merged) {source : ChannelPtr}
    (h : source ∈ (makeCommandContext getType merged words channel).handed) :
    source ∈ (merged channel).sourceChannels_ := by
  rw [mem_handed_iff hMerged] at h
  rcases h with ⟨-, hTwitch⟩ | ⟨-, hKick⟩
  · exact (mem_of_firstOf hTwitch).1
  · exact (mem_of_firstOf hKick).1

theorem consistent_of_routable (hMerged : getType channel = .Merged)
    (hSources : ∀ source ∈ (merged channel).sourceChannels_, getType source ∈ [ChannelType.Twitch, .Kick, .YouTube])
    (words : List QString) (canSend : ChannelPtr → Bool) (text : QString) (sentTime now : Int)
    (h : Routable getType (merged channel)) : Consistent getType (merged channel) canSend text sentTime now
      (makeCommandContext getType merged words channel) := by
  have hHanded := (handed_iff hMerged words).mpr h
  refine ⟨?_, fun canSend' => canSendMessage_congr hSources, hHanded, ?_⟩
  · intro source hSource
    obtain ⟨hMem, hMatches, -⟩ := mem_deliveredTo_iff.mp hSource
    exact (matchesPlatform_iff (hSources source hMem)).mp hMatches
  · intro source hSource
    have hMem := mem_sources_of_handed hMerged hSource
    have hMatches := (matchesPlatform_iff (hSources source hMem)).mpr (hHanded source hSource)
    exact ⟨source, mem_deliveredTo_iff.mpr ⟨hMem, hMatches, rfl⟩, rfl⟩

theorem commandPlatform_of_handed (hMerged : getType channel = .Merged) (h : Routable getType (merged channel))
    {source : ChannelPtr} (hSource : source ∈ (makeCommandContext getType merged words channel).handed) :
    commandPlatform getType (merged channel) = some (getType source) := by
  rcases (mem_handed_iff hMerged).mp hSource with ⟨hSelection, hTwitch⟩ | ⟨hSelection, hKick⟩
  · rw [commandPlatform, if_pos ⟨hSelection, hasPlatform_iff.mpr ⟨source, hTwitch⟩⟩, (mem_of_firstOf hTwitch).2]
  · have hHasKick : (merged channel).hasPlatform getType .Kick = true := hasPlatform_iff.mpr ⟨source, hKick⟩
    have hNotTwitch : ¬((merged channel).platformSelection_ ≠ .KickOnly ∧ (merged channel).hasPlatform getType .Twitch) := by
      rintro ⟨hNotKick, hTwitch⟩
      rcases hSelection with hOnly | hOnly | hNone
      · exact hNotKick hOnly
      · exact (h.2 hOnly).1 hTwitch
      · obtain ⟨twitch, hFirst⟩ := hasPlatform_iff.mp hTwitch
        rw [hNone] at hFirst
        cases hFirst
    rw [commandPlatform, if_neg hNotTwitch, if_pos hHasKick, (mem_of_firstOf hKick).2]

theorem exists_handed (hMerged : getType channel = .Merged) (words : List QString) {type : ChannelType}
    (hPlatform : commandPlatform getType (merged channel) = some type) :
    ∃ source ∈ (makeCommandContext getType merged words channel).handed, getType source = type := by
  simp only [mem_handed_iff hMerged]
  unfold commandPlatform at hPlatform
  split_ifs at hPlatform with hTwitch hKick
  · obtain ⟨twitch, hFirst⟩ := hasPlatform_iff.mp hTwitch.2
    exact ⟨twitch, .inl ⟨hTwitch.1, hFirst⟩, (mem_of_firstOf hFirst).2.trans (Option.some.inj hPlatform)⟩
  · obtain ⟨kick, hFirst⟩ := hasPlatform_iff.mp hKick
    refine ⟨kick, .inr ⟨?_, hFirst⟩, (mem_of_firstOf hFirst).2.trans (Option.some.inj hPlatform)⟩
    by_cases hOnly : (merged channel).platformSelection_ = .KickOnly
    · exact .inl hOnly
    · right
      right
      rw [Option.eq_none_iff_forall_ne_some]
      exact fun twitch hFirst => hTwitch ⟨hOnly, hasPlatform_iff.mpr ⟨twitch, hFirst⟩⟩

/-- Messages and commands of a merged channel agree on the selected platforms exactly where a command may be routed.
-/
theorem consistent_iff (hMerged : getType channel = .Merged)
    (hSources : ∀ source ∈ (merged channel).sourceChannels_, getType source ∈ [ChannelType.Twitch, .Kick, .YouTube])
    (words : List QString) (canSend : ChannelPtr → Bool) (text : QString) (sentTime now : Int) :
    let ctx := makeCommandContext getType merged words channel
    (Consistent getType (merged channel) canSend text sentTime now ctx ↔ Routable getType (merged channel)) ∧
      (Routable getType (merged channel) →
        ((∀ source ∈ ctx.handed, ∃ other ∈ ((merged channel).sendMessage getType canSend text sentTime now).2.deliveredTo,
            getType other = getType source) ↔
          ∀ type, commandPlatform getType (merged channel) = some type →
            ∃ source ∈ (merged channel).sourceChannels_, getType source = type ∧ canSend source)) := by
  intro ctx
  refine ⟨⟨fun h => (handed_iff hMerged words).mp h.handed,
    consistent_of_routable hMerged hSources words canSend text sentTime now⟩, fun hRoutable => ⟨?_, ?_⟩⟩
  · intro h type hPlatform
    obtain ⟨source, hSource, rfl⟩ := exists_handed hMerged words hPlatform
    obtain ⟨other, hOther, hType⟩ := h source hSource
    obtain ⟨hMem, -, hSend⟩ := mem_deliveredTo_iff.mp hOther
    exact ⟨other, hMem, hType, hSend⟩
  · intro h source hSource
    obtain ⟨other, hMem, hType, hSend⟩ := h _ (commandPlatform_of_handed hMerged hRoutable hSource)
    have hNamed := (handed_iff hMerged words).mpr hRoutable source hSource
    have hMatches := (matchesPlatform_iff (hSources other hMem)).mpr (hType ▸ hNamed)
    exact ⟨other, mem_deliveredTo_iff.mpr ⟨hMem, hMatches, hSend⟩, hType⟩

def threeSources (selection : PlatformSelection) (_ : ChannelType) : MergedChannel ChannelType Unit where
  sourceChannels_ := [.Twitch, .Kick, .YouTube]
  platformSelection_ := selection
  signalHolder_ := ()

theorem consistent_kickOnly :
    let ctx := makeCommandContext id (threeSources .KickOnly) [] .Merged
    (Consistent id (threeSources .KickOnly .Merged) (fun _ => true) [] 0 0 ctx ↔
        Routable id (threeSources .KickOnly .Merged)) ∧
      (Routable id (threeSources .KickOnly .Merged) →
        ((∀ source ∈ ctx.handed,
            ∃ other ∈ ((threeSources .KickOnly .Merged).sendMessage id (fun _ => true) [] 0 0).2.deliveredTo,
              id other = id source) ↔
          ∀ type, commandPlatform id (threeSources .KickOnly .Merged) = some type →
            ∃ source ∈ (threeSources .KickOnly .Merged).sourceChannels_, id source = type ∧ (fun _ => true) source)) :=
  consistent_iff rfl (by decide) [] (fun _ => true) [] 0 0

theorem not_consistent_youTubeOnly :
    ¬∀ (getType : ChannelType → ChannelType) (merged : ChannelType → MergedChannel ChannelType Unit)
      (words : List QString) (channel : ChannelType) (canSend : ChannelType → Bool) (text : QString) (sentTime now : Int),
      getType channel = .Merged →
      (∀ source ∈ (merged channel).sourceChannels_, getType source ∈ [ChannelType.Twitch, .Kick, .YouTube]) →
      Consistent getType (merged channel) canSend text sentTime now (makeCommandContext getType merged words channel) := by
  intro hAll
  have hHanded := (hAll id (threeSources .YouTubeOnly) [] .Merged (fun _ => true) [] 0 0 rfl (by decide)).handed
  exact absurd hHanded (by decide)

end Chatterino.CommandContext
