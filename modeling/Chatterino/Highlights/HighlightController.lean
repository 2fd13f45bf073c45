import Chatterino.Ignores.IgnoreController
import Chatterino.Messages.Message

/-! # Highlights

Every rule of the settings is a check of a message. The checks of all rules are asked in a fixed order, and what they
answer is merged. A sound is kept as the text of its address.
-/

namespace Chatterino.Highlights

open QString Ignores

abbrev QUrl := QString

abbrev QColor := Nat

structure HighlightResult where
  alert : Bool
  playSound : Bool
  customSoundUrl : Option QUrl
  color : Option QColor
  showInMentions : Bool
deriving DecidableEq, Repr

namespace HighlightResult

def emptyResult : HighlightResult := ⟨false, false, none, none, false⟩

def full (result : HighlightResult) : Bool :=
  result.alert && result.playSound && result.customSoundUrl.isSome && result.color.isSome && result.showInMentions

def fill (result checkResult : HighlightResult) : HighlightResult where
  alert := if checkResult.alert ∧ result.alert = false then checkResult.alert else result.alert
  playSound := if checkResult.playSound ∧ result.playSound = false then checkResult.playSound else result.playSound
  customSoundUrl := if checkResult.customSoundUrl.isSome ∧ result.customSoundUrl.isSome = false then
    checkResult.customSoundUrl else result.customSoundUrl
  color := if checkResult.color.isSome ∧ result.color.isSome = false then checkResult.color else result.color
  showInMentions := if checkResult.showInMentions ∧ result.showInMentions = false then checkResult.showInMentions
    else result.showInMentions

end HighlightResult

structure Library where
  regexIsValid : QRegularExpression → Bool
  hasMatch : QRegularExpression → QString → Bool
  /-- `QRegularExpression::escape`. -/
  escape : QString → QString
  /-- `QString::compare` without regard to case gives 0. -/
  equalsCaseInsensitive : QString → QString → Bool

structure HighlightPhrase where
  pattern_ : QString
  showInMentions_ : Bool
  hasAlert_ : Bool
  hasSound_ : Bool
  isRegex_ : Bool
  isCaseSensitive_ : Bool
  soundUrl_ : QUrl
  color_ : Option QColor

structure Badge where
  key_ : QString
  value_ : QString

structure HighlightBadge where
  badgeName_ : QString
  showInMentions_ : Bool
  hasAlert_ : Bool
  hasSound_ : Bool
  soundUrl_ : QUrl
  color_ : Option QColor

def soundUrlOf (soundUrl : QUrl) : Option QUrl := if soundUrl.isEmpty then none else some soundUrl

section

variable (library : Library)

namespace HighlightPhrase

def REGEX_START_BOUNDARY : QString := lit "(?:\\b|\\s|^)"

def REGEX_END_BOUNDARY : QString := lit "(?:\\b|\\s|$)"

variable (highlight : HighlightPhrase)

def regex_ : QRegularExpression where
  pattern := if highlight.isRegex_ then highlight.pattern_
    else REGEX_START_BOUNDARY ++ library.escape highlight.pattern_ ++ REGEX_END_BOUNDARY
  caseInsensitive := !highlight.isCaseSensitive_

def isValid : Bool := !highlight.pattern_.isEmpty && library.regexIsValid (highlight.regex_ library)

def isMatch (subject : QString) : Bool :=
  highlight.isValid library && library.hasMatch (highlight.regex_ library) subject

def result : HighlightResult :=
  ⟨highlight.hasAlert_, highlight.hasSound_, soundUrlOf highlight.soundUrl_, highlight.color_, highlight.showInMentions_⟩

end HighlightPhrase

namespace HighlightBadge

variable (highlight : HighlightBadge)

def slashKeyValue (text : QString) : QString × QString :=
  (text.takeWhile (· ≠ 0x2F), (text.dropWhile (· ≠ 0x2F)).drop 1)

def compare (id : QString) (badge : Badge) : Bool :=
  if (0x2F : QChar) ∈ highlight.badgeName_ then
    library.equalsCaseInsensitive (slashKeyValue id).1 badge.key_ &&
      library.equalsCaseInsensitive (slashKeyValue id).2 badge.value_
  else library.equalsCaseInsensitive id badge.key_

def isMatch (badge : Badge) : Bool :=
  if (0x2C : QChar) ∈ highlight.badgeName_ then
    (highlight.badgeName_.splitOn 0x2C).any fun id => highlight.compare library id badge
  else highlight.compare library highlight.badgeName_ badge

def result : HighlightResult :=
  ⟨highlight.hasAlert_, highlight.hasSound_, soundUrlOf highlight.soundUrl_, highlight.color_, highlight.showInMentions_⟩

end HighlightBadge

structure Checked where
  isSubscriptionMessage : Bool
  isReceivedWhisper : Bool
  badges : List Badge
  senderName : QString
  originalMessage : QString
  flags : MessageFlags
  self : Bool

abbrev HighlightCheck := Checked → Option HighlightResult

structure KindHighlight where
  enable : Bool
  sound : Bool
  taskbar : Bool
  soundUrl : QUrl

structure Settings where
  subHighlight : KindHighlight
  whisperHighlight : KindHighlight
  threadHighlight : KindHighlight
  showThreadHighlightInMentions : Bool
  selfHighlight : KindHighlight
  showSelfHighlightInMentions : Bool
  automodHighlight : KindHighlight
  enableSelfMessageHighlight : Bool
  showSelfMessageHighlightInMentions : Bool
  highlightedMessages : List HighlightPhrase
  highlightedUsers : List HighlightPhrase
  highlightedBadges : List HighlightBadge

inductive ColorType where
  | Subscription | Whisper | ThreadMessageHighlight | SelfHighlight | AutomodHighlight | SelfMessageHighlight
deriving DecidableEq

structure Surroundings where
  currentUsername : QString
  isAnon : Bool
  color : ColorType → Option QColor

def highlightPhraseCheck (highlight : HighlightPhrase) : HighlightCheck := fun message =>
  if message.self then none
  else if highlight.isMatch library message.originalMessage then some highlight.result else none

def kindCheck (kind : KindHighlight) (applies : Checked → Bool) (color : Option QColor) (showInMentions : Bool) :
    HighlightCheck := fun message =>
  if applies message then some ⟨kind.taskbar, kind.sound, soundUrlOf kind.soundUrl, color, showInMentions⟩ else none

variable (settings : Settings) (env : Surroundings)

def rebuildSubscriptionHighlights : List HighlightCheck :=
  if settings.subHighlight.enable then
    [kindCheck settings.subHighlight (·.isSubscriptionMessage) (env.color .Subscription) false]
  else []

def rebuildWhisperHighlights : List HighlightCheck :=
  if settings.whisperHighlight.enable then
    [kindCheck settings.whisperHighlight (·.isReceivedWhisper) (env.color .Whisper) false]
  else []

def rebuildReplyThreadHighlight : List HighlightCheck :=
  if settings.threadHighlight.enable then
    [kindCheck settings.threadHighlight (fun message => message.flags.has .SubscribedThread && !message.self)
      (env.color .ThreadMessageHighlight) settings.showThreadHighlightInMentions]
  else []

def selfHighlight : HighlightPhrase :=
  ⟨env.currentUsername, settings.showSelfHighlightInMentions, settings.selfHighlight.taskbar,
    settings.selfHighlight.sound, false, false, settings.selfHighlight.soundUrl, env.color .SelfHighlight⟩

def rebuildMessageHighlights : List HighlightCheck :=
  (if settings.selfHighlight.enable ∧ env.currentUsername ≠ [] ∧ env.isAnon = false then
    [highlightPhraseCheck library (selfHighlight settings env)]
  else []) ++ settings.highlightedMessages.map (highlightPhraseCheck library) ++
    (if settings.automodHighlight.enable then
      [kindCheck settings.automodHighlight (·.flags.has .AutoModOffendingMessage) (env.color .AutomodHighlight) false]
    else [])

def selfMessageCheck : HighlightCheck := fun message =>
  if message.self then
    some ⟨false, false, some [], env.color .SelfMessageHighlight, settings.showSelfMessageHighlightInMentions⟩
  else none

def userCheck (highlight : HighlightPhrase) : HighlightCheck := fun message =>
  if highlight.isMatch library message.senderName then some highlight.result else none

def rebuildUserHighlights : List HighlightCheck :=
  (if settings.enableSelfMessageHighlight then [selfMessageCheck settings env] else []) ++
    settings.highlightedUsers.map (userCheck library)

def badgeCheck (highlight : HighlightBadge) : HighlightCheck := fun message =>
  if message.badges.any (highlight.isMatch library) then some highlight.result else none

def rebuildBadgeHighlights : List HighlightCheck := settings.highlightedBadges.map (badgeCheck library)

def rebuildChecks : List HighlightCheck :=
  rebuildSubscriptionHighlights settings env ++ rebuildWhisperHighlights settings env ++
    rebuildMessageHighlights library settings env ++ rebuildUserHighlights library settings env ++
    rebuildReplyThreadHighlight settings env ++ rebuildBadgeHighlights library settings

end

/-- The loop over the checks. It ends when no field is left to fill. -/
def checkAll (message : Checked) : List HighlightCheck → Bool × HighlightResult → Bool × HighlightResult
  | [], outcome => outcome
  | check :: checks, outcome =>
    match check message with
    | none => checkAll message checks outcome
    | some checkResult =>
      let result := outcome.2.fill checkResult
      if result.full then (true, result) else checkAll message checks (true, result)

def check (checks : List HighlightCheck) (message : Checked) (currentUser : QString) : Bool × HighlightResult :=
  checkAll { message with self := message.senderName = currentUser } checks (false, .emptyResult)

def matching (message : Checked) (checks : List HighlightCheck) : List HighlightResult :=
  checks.filterMap fun check => check message

def merged (results : List HighlightResult) : HighlightResult where
  alert := results.any (·.alert)
  playSound := results.any (·.playSound)
  customSoundUrl := results.findSome? (·.customSoundUrl)
  color := results.findSome? (·.color)
  showInMentions := results.any (·.showInMentions)

def combined (results : List HighlightResult) : Bool × HighlightResult :=
  (!results.isEmpty, { merged results with customSoundUrl := results.findSome? fun r => r.customSoundUrl.bind soundUrlOf })

theorem fill_eq (result checkResult : HighlightResult) : result.fill checkResult =
    ⟨result.alert || checkResult.alert, result.playSound || checkResult.playSound,
      result.customSoundUrl.or checkResult.customSoundUrl, result.color.or checkResult.color,
      result.showInMentions || checkResult.showInMentions⟩ := by
  have hFlag (new old : Bool) : (if new = true ∧ old = false then new else old) = (old || new) := by
    cases new <;> cases old <;> rfl
  have hField {α : Type} (new old : Option α) :
      (if new.isSome = true ∧ old.isSome = false then new else old) = old.or new := by
    cases new <;> cases old <;> rfl
  rw [HighlightResult.fill, hFlag, hFlag, hField, hField, hFlag]

theorem fill_of_full {result : HighlightResult} (h : result.full = true) (checkResult : HighlightResult) :
    result.fill checkResult = result := by
  obtain ⟨alert, playSound, customSoundUrl, color, showInMentions⟩ := result
  simp only [HighlightResult.full, Bool.and_eq_true] at h
  obtain ⟨⟨⟨⟨rfl, rfl⟩, hSound⟩, hColor⟩, rfl⟩ := h
  obtain ⟨sound, rfl⟩ := Option.isSome_iff_exists.mp hSound
  obtain ⟨color, rfl⟩ := Option.isSome_iff_exists.mp hColor
  rw [fill_eq]
  rfl

theorem foldl_fill_of_full {result : HighlightResult} (h : result.full = true) (results : List HighlightResult) :
    results.foldl HighlightResult.fill result = result := by
  induction results with
  | nil => rfl
  | cons r results ih => rw [List.foldl_cons, fill_of_full h, ih]

theorem checkAll_eq (message : Checked) (checks : List HighlightCheck) (outcome : Bool × HighlightResult) :
    checkAll message checks outcome = (outcome.1 || !(matching message checks).isEmpty,
      (matching message checks).foldl HighlightResult.fill outcome.2) := by
  induction checks generalizing outcome with
  | nil => simp [checkAll, matching]
  | cons check checks ih =>
    rw [checkAll, matching, List.filterMap_cons]
    cases hCheck : check message with
    | none => exact ih outcome
    | some checkResult =>
      dsimp only
      rw [List.foldl_cons, List.isEmpty_cons, Bool.not_false, Bool.or_true]
      split
      · rename_i hFull
        rw [foldl_fill_of_full hFull]
      · rw [ih, Bool.true_or]
        rfl

theorem foldl_fill (results : List HighlightResult) (result : HighlightResult) :
    results.foldl HighlightResult.fill result =
      ⟨result.alert || (merged results).alert, result.playSound || (merged results).playSound,
        result.customSoundUrl.or (merged results).customSoundUrl, result.color.or (merged results).color,
        result.showInMentions || (merged results).showInMentions⟩ := by
  induction results generalizing result with
  | nil => simp [merged]
  | cons r results ih =>
    have hFirst {α : Type} (f : HighlightResult → Option α) :
        (r :: results).findSome? f = (f r).or (results.findSome? f) := by
      rw [List.findSome?_cons]
      cases f r <;> rfl
    rw [List.foldl_cons, ih, fill_eq]
    simp only [merged, List.any_cons, hFirst, Bool.or_assoc, Option.or_assoc]

theorem check_eq (checks : List HighlightCheck) (message : Checked) (currentUser : QString) :
    check checks message currentUser =
      (!(matching { message with self := message.senderName = currentUser } checks).isEmpty,
        merged (matching { message with self := message.senderName = currentUser } checks)) := by
  rw [check, checkAll_eq, foldl_fill]
  simp [HighlightResult.emptyResult]

def Sounding (result : HighlightResult) : Prop := result.customSoundUrl.bind soundUrlOf = result.customSoundUrl

theorem soundUrlOf_bind (soundUrl : QUrl) : (soundUrlOf soundUrl).bind soundUrlOf = soundUrlOf soundUrl := by
  cases soundUrl <;> rfl

section

variable (library : Library) (settings : Settings) (env : Surroundings) (message : Checked)

def KindHighlight.Sounds (kind : KindHighlight) : Prop := kind.enable = true ∧ kind.soundUrl ≠ []

def SoundsBefore : Prop :=
  (settings.subHighlight.Sounds ∧ message.isSubscriptionMessage = true) ∨
    (settings.whisperHighlight.Sounds ∧ message.isReceivedWhisper = true) ∨
    (settings.automodHighlight.Sounds ∧ message.flags.has .AutoModOffendingMessage = true)

def checksBefore : List HighlightCheck :=
  rebuildSubscriptionHighlights settings env ++ rebuildWhisperHighlights settings env ++
    rebuildMessageHighlights library settings env

def checksAfter : List HighlightCheck :=
  settings.highlightedUsers.map (userCheck library) ++ rebuildReplyThreadHighlight settings env ++
    rebuildBadgeHighlights library settings

theorem rebuildChecks_eq : rebuildChecks library settings env = checksBefore library settings env ++
    (if settings.enableSelfMessageHighlight then [selfMessageCheck settings env] else []) ++
      checksAfter library settings env := by
  rw [rebuildChecks, rebuildUserHighlights, checksBefore, checksAfter]
  simp only [List.append_assoc]

def SoundingCheck (c : HighlightCheck) : Prop := ∀ (m : Checked) (r : HighlightResult), c m = some r → Sounding r

theorem soundingCheck_kind (kind : KindHighlight) (applies : Checked → Bool) (color : Option QColor) (mentions : Bool) :
    SoundingCheck (kindCheck kind applies color mentions) := by
  intro m r h
  rw [kindCheck] at h
  split_ifs at h
  cases h
  exact soundUrlOf_bind _

theorem soundingCheck_phrase (highlight : HighlightPhrase) : SoundingCheck (highlightPhraseCheck library highlight) := by
  intro m r h
  rw [highlightPhraseCheck] at h
  split_ifs at h
  cases h
  exact soundUrlOf_bind _

theorem soundingCheck_user (highlight : HighlightPhrase) : SoundingCheck (userCheck library highlight) := by
  intro m r h
  rw [userCheck] at h
  split_ifs at h
  cases h
  exact soundUrlOf_bind _

theorem soundingCheck_badge (highlight : HighlightBadge) : SoundingCheck (badgeCheck library highlight) := by
  intro m r h
  rw [badgeCheck] at h
  split_ifs at h
  cases h
  exact soundUrlOf_bind _

theorem forall_mem_ite {p : Prop} [Decidable p] {P : HighlightCheck → Prop} {c : HighlightCheck} (h : P c) :
    ∀ c' ∈ (if p then [c] else []), P c' := by
  split
  · exact List.forall_mem_singleton.mpr h
  · exact fun c' hc' => absurd hc' List.not_mem_nil

theorem soundingCheck_before : ∀ c ∈ checksBefore library settings env, SoundingCheck c := by
  refine List.forall_mem_append.mpr ⟨List.forall_mem_append.mpr ⟨?_, ?_⟩, List.forall_mem_append.mpr
    ⟨List.forall_mem_append.mpr ⟨?_, ?_⟩, ?_⟩⟩
  · exact forall_mem_ite (soundingCheck_kind _ _ _ _)
  · exact forall_mem_ite (soundingCheck_kind _ _ _ _)
  · exact forall_mem_ite (soundingCheck_phrase library _)
  · exact List.forall_mem_map.mpr fun highlight _ => soundingCheck_phrase library highlight
  · exact forall_mem_ite (soundingCheck_kind _ _ _ _)

theorem soundingCheck_after : ∀ c ∈ checksAfter library settings env, SoundingCheck c := by
  refine List.forall_mem_append.mpr ⟨List.forall_mem_append.mpr ⟨?_, ?_⟩, ?_⟩
  · exact List.forall_mem_map.mpr fun highlight _ => soundingCheck_user library highlight
  · exact forall_mem_ite (soundingCheck_kind _ _ _ _)
  · exact List.forall_mem_map.mpr fun highlight _ => soundingCheck_badge library highlight

theorem sounding_of_mem_matching {checks : List HighlightCheck} (hChecks : ∀ c ∈ checks, SoundingCheck c)
    {r : HighlightResult} (h : r ∈ matching message checks) : Sounding r := by
  obtain ⟨c, hc, hr⟩ := List.mem_filterMap.mp h
  exact hChecks c hc message r hr

theorem findSome?_sounding {results : List HighlightResult} (h : ∀ r ∈ results, Sounding r) :
    (results.findSome? fun r => r.customSoundUrl.bind soundUrlOf) = results.findSome? (·.customSoundUrl) := by
  induction results with
  | nil => rfl
  | cons r results ih =>
    rw [List.findSome?_cons, List.findSome?_cons, ih fun r' hr' => h r' (List.mem_cons_of_mem _ hr'),
      show r.customSoundUrl.bind soundUrlOf = r.customSoundUrl from h r List.mem_cons_self]

theorem matching_append (checks checks' : List HighlightCheck) :
    matching message (checks ++ checks') = matching message checks ++ matching message checks' := List.filterMap_append

theorem isSome_kindSound (kind : KindHighlight) (applies : Checked → Bool) (color : Option QColor) (mentions : Bool) :
    ((matching message (if kind.enable then [kindCheck kind applies color mentions] else [])).findSome?
      (·.customSoundUrl)).isSome = true ↔ kind.Sounds ∧ applies message = true := by
  rw [KindHighlight.Sounds]
  cases hEnable : kind.enable with
  | false => simp [matching]
  | true =>
    cases hApplies : applies message with
    | false => simp [matching, kindCheck, hApplies]
    | true =>
      cases hUrl : kind.soundUrl with
      | nil | cons c url => simp [matching, kindCheck, hApplies, soundUrlOf, hUrl]

theorem matching_phrases_of_self (hSelf : message.self = true) {checks : List HighlightCheck}
    (hChecks : ∀ c ∈ checks, ∃ highlight, c = highlightPhraseCheck library highlight) : matching message checks = [] := by
  refine List.filterMap_eq_nil_iff.mpr fun c hc => ?_
  obtain ⟨highlight, rfl⟩ := hChecks c hc
  rw [highlightPhraseCheck, if_pos hSelf]

theorem isSome_soundBefore (hSelf : message.self = true) :
    ((matching message (checksBefore library settings env)).findSome? (·.customSoundUrl)).isSome = true ↔
      SoundsBefore settings message := by
  have hPhrases : matching message ((if settings.selfHighlight.enable ∧ env.currentUsername ≠ [] ∧ env.isAnon = false then
      [highlightPhraseCheck library (selfHighlight settings env)] else []) ++
        settings.highlightedMessages.map (highlightPhraseCheck library)) = [] := by
    refine matching_phrases_of_self library message hSelf (List.forall_mem_append.mpr ⟨?_, ?_⟩)
    · exact forall_mem_ite ⟨_, rfl⟩
    · exact List.forall_mem_map.mpr fun highlight _ => ⟨highlight, rfl⟩
  rw [checksBefore, rebuildMessageHighlights, matching_append, matching_append, matching_append, hPhrases, List.nil_append,
    List.findSome?_append, List.findSome?_append, Option.isSome_or, Option.isSome_or, Bool.or_eq_true, Bool.or_eq_true,
    rebuildSubscriptionHighlights, rebuildWhisperHighlights, isSome_kindSound, isSome_kindSound, isSome_kindSound,
    or_assoc]
  rfl

theorem merged_eq_combined_iff (results : List HighlightResult) : (!results.isEmpty, merged results) = combined results ↔
    results.findSome? (·.customSoundUrl) = results.findSome? fun r => r.customSoundUrl.bind soundUrlOf := by
  rw [combined, Prod.mk.injEq, HighlightResult.mk.injEq]
  exact ⟨fun h => h.2.2.2.1, fun h => ⟨rfl, rfl, rfl, h, rfl, rfl⟩⟩

theorem merged_matching_iff :
    (!(matching message (rebuildChecks library settings env)).isEmpty,
        merged (matching message (rebuildChecks library settings env))) =
      combined (matching message (rebuildChecks library settings env)) ↔
      ¬(settings.enableSelfMessageHighlight = true ∧ message.self = true ∧ ¬SoundsBefore settings message) := by
  have hBefore (r : HighlightResult) (hr : r ∈ matching message (checksBefore library settings env)) : Sounding r :=
    sounding_of_mem_matching message (soundingCheck_before library settings env) hr
  have hAfter (r : HighlightResult) (hr : r ∈ matching message (checksAfter library settings env)) : Sounding r :=
    sounding_of_mem_matching message (soundingCheck_after library settings env) hr
  rw [merged_eq_combined_iff, rebuildChecks_eq, matching_append, matching_append]
  by_cases hOwn : settings.enableSelfMessageHighlight = true ∧ message.self = true
  · have hMatching : matching message (if settings.enableSelfMessageHighlight then [selfMessageCheck settings env] else []) =
        [⟨false, false, some [], env.color .SelfMessageHighlight, settings.showSelfMessageHighlightInMentions⟩] := by
      rw [if_pos hOwn.1, matching, List.filterMap_cons, selfMessageCheck, if_pos hOwn.2]
      rfl
    rw [hMatching, List.findSome?_append, List.findSome?_append, List.findSome?_append, List.findSome?_append,
      findSome?_sounding hBefore, findSome?_sounding hAfter, ← isSome_soundBefore library settings env message hOwn.2]
    cases hSound : (matching message (checksBefore library settings env)).findSome? (·.customSoundUrl) with
    | some soundUrl => simp
    | none =>
      have hNull : (matching message (checksAfter library settings env)).findSome? (·.customSoundUrl) ≠ some [] := by
        intro hEmpty
        obtain ⟨r, hr, hUrl⟩ := List.exists_of_findSome?_eq_some hEmpty
        have hSounding := hAfter r hr
        rw [Sounding, hUrl] at hSounding
        cases hSounding
      have hSkip : ((some ([] : QUrl)).bind soundUrlOf) = none := rfl
      refine ⟨fun h => ?_, fun h => absurd ⟨hOwn.1, hOwn.2, by simp⟩ h⟩
      simp only [List.findSome?_cons, List.findSome?_nil, hSkip, Option.none_or, Option.some_or] at h
      exact absurd h.symm hNull
  · have hMatching : matching message (if settings.enableSelfMessageHighlight then [selfMessageCheck settings env] else []) =
        [] := by
      split
      · rename_i hEnabled
        have hOther : ¬message.self = true := fun hSelf => hOwn ⟨hEnabled, hSelf⟩
        rw [matching, List.filterMap_cons, selfMessageCheck, if_neg hOther]
        rfl
      · rfl
    rw [hMatching, List.append_nil, findSome?_sounding]
    · exact ⟨fun _ h => hOwn ⟨h.1, h.2.1⟩, fun _ => rfl⟩
    · exact List.forall_mem_append.mpr ⟨hBefore, hAfter⟩

/-- A message is highlighted if a check matches, and the answers of all matching checks are merged, unless the user's own
message silences the rules behind it. -/
theorem check_combines_iff (currentUser : QString) :
    check (rebuildChecks library settings env) message currentUser =
      combined (matching { message with self := message.senderName = currentUser }
        (rebuildChecks library settings env)) ↔
      ¬(settings.enableSelfMessageHighlight = true ∧ message.senderName = currentUser ∧
        ¬SoundsBefore settings message) := by
  rw [check_eq, merged_matching_iff]
  simp only [decide_eq_true_iff]
  rfl

end

def silentKind : KindHighlight := ⟨false, false, false, []⟩

def ownSettings : Settings where
  subHighlight := silentKind
  whisperHighlight := silentKind
  threadHighlight := silentKind
  showThreadHighlightInMentions := false
  selfHighlight := silentKind
  showSelfHighlightInMentions := false
  automodHighlight := silentKind
  enableSelfMessageHighlight := true
  showSelfMessageHighlightInMentions := false
  highlightedMessages := []
  highlightedUsers := [⟨lit "forsen", false, false, true, true, false, lit "file:a.wav", none⟩]
  highlightedBadges := []

def plainLibrary : Library := ⟨fun _ => true, fun regex subject => decide (regex.pattern = subject), id, fun a b => decide (a = b)⟩

def ownMessage : Checked := ⟨false, false, [], lit "forsen", lit "hi", ∅, false⟩

/-- The sound of the second rule is hidden by the null sound of the first. -/
theorem not_combines_ownMessage :
    check (rebuildChecks plainLibrary ownSettings ⟨lit "forsen", false, fun _ => none⟩) ownMessage (lit "forsen") ≠
      combined (matching { ownMessage with self := true }
        (rebuildChecks plainLibrary ownSettings ⟨lit "forsen", false, fun _ => none⟩)) := by
  decide

end Chatterino.Highlights
