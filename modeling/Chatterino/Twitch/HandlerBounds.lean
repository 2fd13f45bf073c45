import Chatterino.Twitch.IrcMessageHandler

/-! # Reads of the IRC handlers

Each handler stays in bounds by itself, for every message, except the one for notices: the users of
a list are read behind the first colon of its text, whether it has one or not.
-/

namespace Chatterino.Twitch.IrcHandlers

open Lib Lib.Checked QString Ignores

theorem inBounds_parseTagFrom (output : QString) (i length : Nat) (hLength : output.length = length) :
    InBounds (parseTagFrom output i length) := by
  induction output, i, length using parseTagFrom.induct with
  | case1 output i length hMore ihEscaped ihPlain =>
    rw [parseTagFrom, dif_pos hMore]
    refine (inBounds_read (by omega)).bind fun c => inBounds_ite (fun _ => ?_) fun _ => ihPlain hLength
    refine (inBounds_read (by omega)).bind fun next => ihEscaped next ?_
    simp only [List.length_append, List.length_take, List.length_drop, length_unescaped]
    omega
  | case2 output i length hDone =>
    rw [parseTagFrom, dif_neg hDone]
    exact inBounds_pure output

theorem inBounds_parseTagString (input : QString) : InBounds (parseTagString input) :=
  inBounds_parseTagFrom input 0 input.length rfl

variable (env : Surroundings) (message : IrcMessage) (channel : Channel)

theorem inBounds_stripLeadingReplyMention (content : QString) :
    InBounds (stripLeadingReplyMention env message content) := by
  unfold stripLeadingReplyMention
  refine inBounds_ite (fun _ => inBounds_pure _) fun _ => ?_
  refine inBounds_ite (fun _ => inBounds_pure _) fun _ => ?_
  cases message.tag (lit "reply-parent-display-name") with
  | none => exact inBounds_pure _
  | some displayName =>
    refine inBounds_ite (fun _ => inBounds_pure _) fun hLonger => ?_
    refine inBounds_ite (fun _ => ?_) fun _ => inBounds_pure _
    exact (inBounds_read (by omega)).bind fun separator => inBounds_pure _

theorem inBounds_parseBadges (badgesString : QString) : InBounds (parseBadges badgesString) := by
  refine inBounds_foldlM _ _ fun badgeData _ badges => ?_
  refine inBounds_ite (fun _ => inBounds_pure _) fun hParts => ?_
  refine (inBounds_read (by omega)).bind fun key => ?_
  exact (inBounds_read (by omega)).bind fun value => inBounds_pure _

theorem inBounds_getRandomColor (userId : QString) : InBounds (getRandomColor env userId) :=
  inBounds_read (Nat.mod_lt _ (by decide))

theorem inBounds_parseUsernameColor : InBounds (parseUsernameColor env message) := by
  unfold parseUsernameColor
  cases env.userDataColor (message.tagText (lit "user-id")) with
  | some color => exact inBounds_pure _
  | none =>
    refine inBounds_ite (fun _ => inBounds_pure _) fun _ => ?_
    refine inBounds_ite (fun _ => ?_) fun _ => inBounds_pure _
    exact (inBounds_getRandomColor env _).bind fun color => inBounds_pure _

theorem inBounds_subTier (value : QString) : InBounds (subTier value) :=
  inBounds_ite (fun hLong => inBounds_read (by omega)) fun _ => inBounds_pure _

theorem inBounds_badgeTooltip (infos : List (QString × QString)) (badge : QString × QString)
    (tooltip : QString) : InBounds (badgeTooltip infos badge tooltip) := by
  unfold badgeTooltip
  refine inBounds_ite (fun _ => inBounds_pure _) fun _ => ?_
  refine inBounds_ite (fun _ => ?_) fun _ => ?_
  · cases infos.lookup badge.1 with
    | none => exact inBounds_pure _
    | some subMonths => exact (inBounds_subTier badge.2).bind fun subTier => inBounds_pure _
  · refine inBounds_ite (fun _ => ?_) fun _ => inBounds_pure _
    cases infos.lookup badge.1 with
    | none => exact inBounds_pure _
    | some infoValue => exact inBounds_pure _

theorem inBounds_appendTwitchBadges : InBounds (appendTwitchBadges env channel message) := by
  refine inBounds_ite (fun _ => ?_) fun _ => inBounds_pure _
  refine inBounds_foldlM _ _ fun badge _ tooltips => ?_
  unfold appendBadge
  cases env.twitchBadge channel badge.1 badge.2 with
  | none => exact inBounds_pure _
  | some tooltip =>
    dsimp only
    split
    · exact inBounds_pure _
    · exact (inBounds_badgeTooltip _ badge tooltip).bind fun tooltip => inBounds_pure _

theorem inBounds_correctPositions (content : QString) : InBounds (correctPositions content) := by
  refine inBounds_foldlM _ _ fun i hi positions => ?_
  exact (inBounds_read (List.mem_range.mp hi)).bind fun c => inBounds_pure _

theorem inBounds_appendOccurrences (id content : QString) (positions : List Nat) (messageOffset : Int)
    (occurrences : List QString) (vec : List TwitchEmoteOccurrence) :
    InBounds (appendOccurrences env id content positions messageOffset occurrences vec) := by
  induction occurrences generalizing vec with
  | nil => exact inBounds_pure vec
  | cons occurrence occurrences ih =>
    refine inBounds_ite (fun _ => inBounds_pure vec) fun hCoords => ?_
    refine (inBounds_read (by omega)).bind fun first => ?_
    refine (inBounds_read (by omega)).bind fun last => ?_
    refine inBounds_ite (fun _ => inBounds_pure vec) fun hInRange => ?_
    refine (inBounds_read (by omega)).bind fun start => ?_
    refine (inBounds_read (by omega)).bind fun end_ => ?_
    exact inBounds_ite (fun _ => inBounds_pure vec) fun _ => ih _

theorem inBounds_parseTwitchEmotes (content : QString) (messageOffset : Int) :
    InBounds (parseTwitchEmotes env message content messageOffset) := by
  unfold parseTwitchEmotes
  cases message.tag (lit "emotes") with
  | none => exact inBounds_pure _
  | some emotes =>
    refine (inBounds_correctPositions content).bind fun positions => ?_
    refine inBounds_foldlM _ _ fun emote _ vec => ?_
    refine inBounds_ite (fun _ => inBounds_pure vec) fun hParameters => ?_
    have hLength : ¬ (emote.splitOn COLON).length < 2 := fun h => hParameters (.inr h)
    refine (inBounds_read (by omega)).bind fun id => ?_
    refine (inBounds_read (by omega)).bind fun occurrences => ?_
    exact inBounds_appendOccurrences env id content positions messageOffset _ vec

theorem inBounds_parseThread (content : QString) (reply : ReplyContext) :
    InBounds (parseThread env channel message content reply) := by
  unfold parseThread
  refine inBounds_ite (fun _ => inBounds_pure _) fun _ => ?_
  refine inBounds_ite (fun _ => ?_) fun _ => inBounds_pure _
  refine inBounds_ite (fun _ => inBounds_pure _) fun _ => ?_
  exact (inBounds_parseTagString _).bind fun body => inBounds_pure _

theorem inBounds_appendUsername : InBounds (appendUsername message) := by
  unfold appendUsername
  cases message.tag (lit "display-name") with
  | none => exact inBounds_pure _
  | some displayName => exact (inBounds_parseTagString displayName).bind fun name => inBounds_pure _

theorem inBounds_makeIrcMessage (args : MessageParseArgs) (content : QString) (messageOffset : Nat)
    (reply : ReplyContext) :
    InBounds (makeIrcMessage env channel message args content messageOffset reply) := by
  unfold makeIrcMessage
  refine inBounds_ite (fun _ => inBounds_pure _) fun _ => ?_
  refine (inBounds_parseUsernameColor env message).bind fun usernameColor => ?_
  refine (inBounds_parseThread env message channel content reply).bind fun replyBody => ?_
  refine (inBounds_appendTwitchBadges env message _).bind fun badgeTooltips => ?_
  refine (inBounds_appendUsername message).bind fun displayName => ?_
  exact (inBounds_parseTwitchEmotes env message content messageOffset).bind fun emotes => inBounds_pure _

theorem inBounds_buildHypeChatMessage : InBounds (buildHypeChatMessage env message) := by
  unfold buildHypeChatMessage
  dsimp only
  split
  · refine inBounds_ite (fun _ => inBounds_pure _) fun _ => ?_
    exact (inBounds_parseTagString _).bind fun text => inBounds_pure _
  · exact inBounds_pure _

theorem inBounds_addMessage (originalContent : QString) (isSub isAction : Bool) (msgType : QString) :
    InBounds (addMessage env message channel originalContent isSub isAction msgType) := by
  refine (inBounds_callAll _).bind fun _ => ?_
  refine (inBounds_stripLeadingReplyMention env message originalContent).bind fun stripped => ?_
  refine (inBounds_makeIrcMessage env message channel _ _ _ _).bind fun built => ?_
  exact inBounds_callAll _

theorem inBounds_updateOwnBadges : InBounds (updateOwnBadges env channel message) := by
  refine inBounds_ite (fun _ => ?_) fun _ => inBounds_pure _
  cases message.tag (lit "badges") with
  | none => exact inBounds_pure _
  | some badgesTag => exact (inBounds_parseBadges badgesTag).bind fun badges => inBounds_callAll _

theorem inBounds_addHypeChat : InBounds (addHypeChat env channel message) := by
  refine inBounds_ite (fun _ => ?_) fun _ => inBounds_pure _
  exact (inBounds_buildHypeChatMessage env message).bind fun hypeChat => inBounds_callAll _

theorem inBounds_handlePrivMessage : InBounds (handlePrivMessage env message) := by
  refine inBounds_ite (fun _ => inBounds_pure _) fun _ => ?_
  refine (inBounds_updateOwnBadges env message _).bind fun _ => ?_
  refine (inBounds_addMessage env message _ _ _ _ _).bind fun _ => ?_
  exact inBounds_addHypeChat env message _

theorem inBounds_handleWhisperMessage : InBounds (handleWhisperMessage env message) := by
  refine (inBounds_makeIrcMessage env message _ _ _ _ _).bind fun built => ?_
  cases built with
  | none => exact inBounds_pure _
  | some built =>
    refine (inBounds_callAll _).bind fun _ => (inBounds_call _).bind fun _ => ?_
    exact (inBounds_callAll _).bind fun _ => (inBounds_call _).bind fun _ => inBounds_callAll _

theorem inBounds_handleRoomStateMessage : InBounds (handleRoomStateMessage env message) := by
  unfold handleRoomStateMessage
  cases channelOfParameter env message with
  | none => exact inBounds_pure _
  | some channel =>
    refine inBounds_ite (fun _ => ?_) fun _ => inBounds_pure _
    exact (inBounds_callAll _).bind fun _ => (inBounds_call _).bind fun _ => inBounds_call _

theorem inBounds_handleClearChatMessage : InBounds (handleClearChatMessage env message) := by
  unfold handleClearChatMessage
  split
  · refine inBounds_ite (fun _ => inBounds_pure _) fun _ => ?_
    exact (inBounds_callAll _).bind fun _ => inBounds_callAll _
  · exact inBounds_pure _

theorem inBounds_handleClearMessageMessage : InBounds (handleClearMessageMessage env message) := by
  unfold handleClearMessageMessage
  refine inBounds_ite (fun _ => inBounds_pure _) fun _ => ?_
  cases channelOfParameter env message with
  | none => exact inBounds_pure _
  | some channel =>
    refine inBounds_ite (fun _ => inBounds_pure _) fun _ => ?_
    cases env.findMessageByID channel (message.tagText (lit "target-msg-id")) with
    | none => exact inBounds_pure _
    | some msg =>
      exact (inBounds_call _).bind fun _ => (inBounds_callAll _).bind fun _ => inBounds_callAll _

theorem inBounds_handleUserStateMessage : InBounds (handleUserStateMessage env message) := by
  unfold handleUserStateMessage
  cases channelOfParameter env message with
  | none => exact inBounds_pure _
  | some channel =>
    refine inBounds_ite (fun _ => inBounds_pure _) fun _ => ?_
    have hBadges : InBounds ((message.tag (lit "badges")).elim (pure []) parseBadges) := by
      cases message.tag (lit "badges") with
      | none => exact inBounds_pure _
      | some badgesTag => exact inBounds_parseBadges badgesTag
    exact hBadges.bind fun badges => (inBounds_callAll _).bind fun _ => inBounds_callAll _

theorem inBounds_planTier (plan : QString) : InBounds (planTier plan) := by
  refine inBounds_ite (fun _ => inBounds_pure _) fun hPlan => inBounds_read ?_
  exact List.length_pos_of_ne_nil fun h => hPlan (List.isEmpty_iff.mpr h)

theorem inBounds_systemText (msgType messageText : QString) :
    InBounds (systemText message msgType messageText) := by
  have hGift : InBounds (giftText message messageText) := by
    refine inBounds_ite (fun _ => ?_) fun _ => inBounds_pure _
    exact (inBounds_planTier _).bind fun tier => inBounds_pure _
  refine inBounds_ite (fun _ => inBounds_pure _) fun _ => ?_
  refine inBounds_ite (fun _ => inBounds_pure _) fun _ => ?_
  refine inBounds_ite (fun _ => hGift) fun _ => ?_
  exact inBounds_ite (fun _ => inBounds_pure _) fun _ => inBounds_pure _

theorem inBounds_addSystemMsg (msgType : QString) (mirrored : Bool) (messageText : QString) :
    InBounds (addSystemMsg message channel msgType mirrored messageText) := by
  refine (inBounds_systemText message msgType messageText).bind fun text => ?_
  exact (inBounds_parseTagString text).bind fun parsed => inBounds_call _

theorem inBounds_handleUserNoticeMessage : InBounds (handleUserNoticeMessage env message) := by
  have hContent : InBounds (noticeContent message.parameters) :=
    inBounds_ite (fun h => inBounds_read (by omega)) fun _ => inBounds_pure _
  refine inBounds_ite (fun _ => ?_) fun _ => inBounds_pure _
  refine inBounds_ite (fun _ => inBounds_pure _) fun _ => ?_
  refine hContent.bind fun content => inBounds_ite (fun _ => inBounds_pure _) fun _ => ?_
  have hSpecial (channel : Channel) (msgType : QString) :
      InBounds (addSpecialMessage env message channel msgType content) :=
    inBounds_ite (fun _ => inBounds_addMessage env message channel _ _ _ _) fun _ => inBounds_pure _
  refine (hSpecial _ _).bind fun _ => ?_
  split
  · exact inBounds_pure _
  · exact inBounds_addSystemMsg message _ _ _ _

theorem inBounds_handleJoinMessage : InBounds (handleJoinMessage env message) := by
  refine inBounds_ite (fun _ => inBounds_pure _) fun _ => ?_
  exact inBounds_ite (fun _ => (inBounds_call _).bind fun _ => inBounds_call _) fun _ => inBounds_callAll _

theorem inBounds_handlePartMessage : InBounds (handlePartMessage env message) := by
  refine inBounds_ite (fun _ => inBounds_pure _) fun _ => ?_
  exact inBounds_ite (fun _ => inBounds_call _) fun _ => inBounds_callAll _

theorem one_lt_length_splitOn {c : QChar} {text : QString} (h : c ∈ text) :
    1 < (text.splitOn c).length := by
  obtain ⟨before, after, rfl, hBefore⟩ := List.eq_append_cons_of_mem h
  rw [List.splitOn_append_cons_self_of_not_mem hBefore, List.length_cons]
  exact Nat.succ_lt_succ (List.length_pos_of_ne_nil (List.splitOn_ne_nil c after))

def ListsUsers : Prop :=
  message.tagText (lit "msg-id") = lit "room_mods" ∨ message.tagText (lit "msg-id") = lit "vips_success"

theorem inBounds_handleChannelNotice (h : ListsUsers message → COLON ∈ noticeText env message) :
    InBounds (handleChannelNotice env message channel) := by
  refine inBounds_ite (fun _ => inBounds_call _) fun _ => ?_
  refine inBounds_ite (fun _ => inBounds_call _) fun _ => ?_
  refine inBounds_ite (fun _ => ?_) fun _ => inBounds_ite (fun hList => ?_) fun _ => inBounds_call _
  · refine inBounds_ite (fun _ => inBounds_pure _) fun hParts => ?_
    obtain ⟨hOn, hOff⟩ := not_or.mp hParts
    refine (inBounds_read ?_).bind fun name => ?_
    · split
      · rename_i hHostOn
        have hLength := not_not.mp fun h => hOn ⟨hHostOn, h⟩
        omega
      · rename_i hHostOff
        have hLength := not_not.mp fun h => hOff ⟨hHostOff, h⟩
        omega
    · exact inBounds_ite (fun _ => inBounds_pure _) fun _ => inBounds_call _
  · have hTwo : 1 < ((noticeText env message).splitOn COLON).length := one_lt_length_splitOn (h hList)
    refine (inBounds_read hTwo).bind fun names => ?_
    exact (inBounds_read (by omega)).bind fun prefixText => inBounds_call _

theorem fails_handleChannelNotice (hList : ListsUsers message) (hColon : COLON ∉ noticeText env message) :
    Fails (handleChannelNotice env message channel) ⟨1, 1⟩ := by
  have hParts : (noticeText env message).splitOn COLON = [noticeText env message] :=
    List.splitOn_eq_singleton hColon
  have hOther (tags : QString) (h : tags ≠ lit "room_mods" ∧ tags ≠ lit "vips_success") :
      message.tagText (lit "msg-id") ≠ tags := by
    rintro rfl
    exact hList.elim h.1 h.2
  unfold ListsUsers at hList
  unfold handleChannelNotice
  dsimp only
  rw [if_neg (hOther _ (by decide)), if_neg (hOther _ (by decide)),
    if_neg (not_or.mpr ⟨hOther _ (by decide), hOther _ (by decide)⟩), if_pos hList, hParts]
  exact Fails.bind (fails_read (Nat.le_refl 1)) _

def IsShown : Prop := ∃ channel, noticeChannel env message = some channel ∧ channel.isEmpty = false

theorem inBounds_handleNoticeMessage
    (h : IsShown env message → ListsUsers message → COLON ∈ noticeText env message) :
    InBounds (handleNoticeMessage env message) := by
  unfold handleNoticeMessage
  cases hChannel : noticeChannel env message with
  | none => exact inBounds_callAll _
  | some channel =>
    refine inBounds_ite (fun _ => inBounds_pure _) fun hOpen => ?_
    exact inBounds_handleChannelNotice env message channel (h ⟨channel, hChannel, by simpa using hOpen⟩)

theorem fails_handleNoticeMessage (hShown : IsShown env message) (hList : ListsUsers message)
    (hColon : COLON ∉ noticeText env message) : Fails (handleNoticeMessage env message) ⟨1, 1⟩ := by
  obtain ⟨channel, hChannel, hOpen⟩ := hShown
  unfold handleNoticeMessage
  rw [hChannel]
  dsimp only
  rw [if_neg (by simp [hOpen])]
  exact fails_handleChannelNotice env message channel hList hColon

variable (delivery : Delivery)

def IsNotice : Prop :=
  message.command = lit "NOTICE" ∧
    (delivery = .writeConnection ∨ delivery = .readConnection ∧ message.isPrivate = false)

def HasListedUsers : Prop :=
  IsNotice message delivery → IsShown env message → ListsUsers message → COLON ∈ noticeText env message

theorem inBounds_reconnect (made : List Call) :
    InBounds (addGlobalSystemMessage env RECONNECT_TEXT >>= fun _ => callAll made) :=
  (inBounds_callAll _).bind fun _ => inBounds_callAll made

theorem inBounds_received (h : HasListedUsers env message delivery) :
    InBounds (received env delivery message) := by
  cases delivery with
  | privateMessage => exact inBounds_handlePrivMessage env message
  | readConnection =>
    refine inBounds_ite (fun _ => inBounds_pure _) fun hPublic => ?_
    refine inBounds_ite (fun _ => inBounds_handleJoinMessage env message) fun _ => ?_
    refine inBounds_ite (fun _ => inBounds_handlePartMessage env message) fun _ => ?_
    refine inBounds_ite (fun _ => inBounds_handleUserStateMessage env message) fun _ => ?_
    refine inBounds_ite (fun _ => inBounds_handleRoomStateMessage env message) fun _ => ?_
    refine inBounds_ite (fun _ => inBounds_handleClearChatMessage env message) fun _ => ?_
    refine inBounds_ite (fun _ => inBounds_handleClearMessageMessage env message) fun _ => ?_
    refine inBounds_ite (fun _ => inBounds_handleUserNoticeMessage env message) fun _ => ?_
    refine inBounds_ite (fun hNotice => ?_) fun _ => ?_
    · refine inBounds_handleNoticeMessage env message (h ⟨hNotice, .inr ⟨rfl, ?_⟩⟩)
      simpa using hPublic
    refine inBounds_ite (fun _ => inBounds_handleWhisperMessage env message) fun _ => ?_
    exact inBounds_ite (fun _ => inBounds_reconnect env _) fun _ => inBounds_pure _
  | writeConnection =>
    refine inBounds_ite (fun _ => inBounds_handleUserStateMessage env message) fun _ => ?_
    refine inBounds_ite (fun hNotice => ?_) fun _ => ?_
    · exact inBounds_handleNoticeMessage env message (h ⟨hNotice, .inl rfl⟩)
    exact inBounds_ite (fun _ => inBounds_reconnect env _) fun _ => inBounds_pure _

theorem received_of_isNotice (h : IsNotice message delivery) :
    received env delivery message = handleNoticeMessage env message := by
  obtain ⟨hCommand, rfl | ⟨rfl, hPublic⟩⟩ := h
  · simp only [received, writeConnectionMessageReceived, hCommand]
    rw [if_neg (by decide), if_pos trivial]
  · simp only [received, readConnectionMessageReceived, hCommand, hPublic]
    rw [if_neg Bool.false_ne_true, if_neg (by decide), if_neg (by decide), if_neg (by decide),
      if_neg (by decide), if_neg (by decide), if_neg (by decide), if_neg (by decide), if_pos trivial]

/-- Handling a message reads no element outside its list or text, unless it is a notice with a list
of users that has no colon. -/
theorem inBounds_received_iff :
    InBounds (received env delivery message) ↔ HasListedUsers env message delivery := by
  refine ⟨fun hBounds hNotice hShown hList => ?_, inBounds_received env message delivery⟩
  by_contra hColon
  rw [received_of_isNotice env message delivery hNotice] at hBounds
  exact (fails_handleNoticeMessage env message hShown hList hColon).not_inBounds hBounds

def withOpenChannel (name : QString) : Surroundings :=
  { (default : Surroundings) with
    getChannelOrEmpty := fun channelName => if channelName = name then ⟨name, true⟩ else .getEmpty }

def modsNotice (channelName content : QString) : IrcMessage where
  command := lit "NOTICE"
  isPrivate := false
  tags := [(lit "msg-id", lit "room_mods")]
  parameters := [0x23 :: channelName, content]
  nick := []
  target := 0x23 :: channelName
  content := content
  isAction := false

theorem not_inBounds_noModerators :
    ¬ InBounds (received (withOpenChannel (lit "pajlada")) .readConnection
      (modsNotice (lit "pajlada") (lit "There are no moderators of this channel."))) := by
  have hNotice : IsNotice (modsNotice (lit "pajlada") (lit "There are no moderators of this channel."))
      .readConnection := ⟨rfl, .inr ⟨rfl, rfl⟩⟩
  rw [received_of_isNotice _ _ _ hNotice]
  refine (fails_handleNoticeMessage _ _ ⟨⟨lit "pajlada", true⟩, ?_, ?_⟩ ?_ ?_).not_inBounds
  · decide
  · decide
  · exact .inl rfl
  · decide

end Chatterino.Twitch.IrcHandlers
