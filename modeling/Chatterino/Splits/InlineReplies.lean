import Chatterino.Splits.InputHistory

/-! # Inline replies

The prefix of a reply is put in by setReply, looked for by editTextChanged in the text as the commands
would send it, and cut off by its length when the reply is sent.
-/

namespace Chatterino.Splits.SplitInput

open QString InputContext

variable {context : InputContext}

variable (context) in
def Validated (input : SplitInput) : Prop :=
  ∀ target, input.replyTarget_ = some target →
    stillReplies target.replyPrefix (context.execCommand (trimmed input.text) true) = true

theorem stillReplies_of_checkReplyTarget (hInline : context.enableInlineReplying_ = true) {text : QString}
    {input : SplitInput} {target : ReplyMessage}
    (h : (input.checkReplyTarget context text).replyTarget_ = some target) :
    stillReplies target.replyPrefix text = true := by
  unfold checkReplyTarget at h
  split at h
  · rename_i hNone
    rw [hNone] at h
    cases h
  · rename_i old hOld
    cases hReplies : stillReplies old.replyPrefix text with
    | false =>
      rw [if_pos (by rw [hInline, hReplies]; rfl)] at h
      cases h
    | true =>
      rw [if_neg (by rw [hReplies]; simp), hOld] at h
      rw [← Option.some.inj h, hReplies]

theorem head?_of_repliesToWhisper {text : QString} (h : context.repliesToWhisper text = true) :
    text.head? = some 0x2F := by
  rw [repliesToWhisper, Bool.and_eq_true, Bool.or_eq_true, beq_iff_eq, beq_iff_eq] at h
  cases text with
  | nil => exact absurd h.2 (by decide)
  | cons c rest =>
    rcases h.2 with hTake | hTake
    · exact congrArg some (List.cons.inj hTake).1
    · exact congrArg some (List.cons.inj hTake).1

theorem stillReplies_of_repliesToWhisper {text : QString} (h : context.repliesToWhisper text = true)
    (target : ReplyMessage) : stillReplies target.replyPrefix text = false := by
  have hHead := head?_of_repliesToWhisper h
  cases text with
  | nil => rfl
  | cons c rest =>
    obtain rfl := Option.some.inj hHead
    rw [stillReplies, ReplyMessage.replyPrefix, show lit "@" ++ target.displayName = 0x40 :: target.displayName from rfl,
      List.isPrefixOf_cons_cons]
    rfl

theorem validated_editTextChanged (hInline : context.enableInlineReplying_ = true) {fuel : Nat}
    (input : SplitInput) (hFuel : context.nestedCalls input.text < fuel) :
    Validated context (editTextChanged context fuel input) := by
  induction fuel generalizing input with
  | zero => exact absurd hFuel (Nat.not_lt_zero _)
  | succ fuel ih =>
    rw [editTextChanged]
    split
    · rename_i hPrevent
      have := nestedCalls_take hPrevent
      exact ih _ (by simp only; omega)
    · split
      · rename_i hReplies
        -- what is checked is the text as it was, which starts with a slash
        have hDropped (input' : SplitInput) : Validated context (input'.checkReplyTarget context input.text) := by
          intro target hTarget
          have hStill := stillReplies_of_checkReplyTarget hInline hTarget
          rw [stillReplies_of_repliesToWhisper hReplies] at hStill
          cases hStill
        split
        · exact hDropped _
        · exact hDropped _
      · intro target hTarget
        rw [text_checkReplyTarget]
        exact stillReplies_of_checkReplyTarget hInline hTarget

theorem validated_setPlainText (hInline : context.enableInlineReplying_ = true) (text : QString)
    (input : SplitInput) : Validated context (setPlainText context text input) :=
  validated_editTextChanged hInline _ (nestedCalls_lt_four text)

theorem validated_of_none {input : SplitInput} (h : input.replyTarget_ = none) : Validated context input := by
  intro target hTarget
  rw [h] at hTarget
  cases hTarget

theorem Validated.congr {input input' : SplitInput} (h : Validated context input)
    (hText : input'.text = input.text) (hTarget : input'.replyTarget_ = input.replyTarget_) :
    Validated context input' := by
  intro target hSome
  rw [hText]
  exact h target (hTarget ▸ hSome)

theorem Validated.postMessageSend (hInline : context.enableInlineReplying_ = true) {input : SplitInput}
    (h : Validated context input) (message : QString) (arguments : List QString) :
    Validated context (postMessageSend context message arguments input) := by
  obtain ⟨messages, hKept | ⟨target, hTarget, hCleared⟩⟩ := postMessageSend_cases context message arguments input
  · rw [hKept]
    exact h.congr rfl rfl
  · rw [hCleared]
    exact validated_of_none (hTarget hInline)

theorem Validated.handleSendMessage (hInline : context.enableInlineReplying_ = true) {input : SplitInput}
    (h : Validated context input) (arguments : List QString) :
    Validated context (handleSendMessage context arguments input) := by
  unfold SplitInput.handleSendMessage
  have hSent (sent : List Outgoing) : Validated context { input with sent } := h.congr rfl rfl
  split
  · exact (hSent _).postMessageSend hInline _ _
  · split
    · exact (hSent _).postMessageSend hInline _ _
    · exact h

theorem validated_previousMessage (hInline : context.enableInlineReplying_ = true) {input next : SplitInput}
    (h : Validated context input) (hNext : previousMessage context input = some next) : Validated context next := by
  unfold previousMessage at hNext
  split at hNext
  · exact Option.some.inj hNext ▸ h
  · obtain ⟨message, -, rfl⟩ := Option.map_eq_some_iff.mp hNext
    exact validated_setPlainText hInline _ _

theorem validated_nextMessage (hInline : context.enableInlineReplying_ = true) {input next : SplitInput}
    (h : Validated context input) (hNext : nextMessage context input = some next) : Validated context next := by
  unfold nextMessage at hNext
  split at hNext
  · exact Option.some.inj hNext ▸ h
  · split at hNext
    · obtain ⟨message, -, rfl⟩ := Option.map_eq_some_iff.mp hNext
      exact validated_setPlainText hInline _ _
    · obtain ⟨last, -, rfl⟩ := Option.map_eq_some_iff.mp hNext
      split
      · exact validated_setPlainText hInline _ _
      · split
        · exact h.congr rfl rfl
        · exact h.congr rfl rfl

theorem validated_setReply (hInline : context.enableInlineReplying_ = true) (target : Option ReplyMessage)
    (input : SplitInput) : Validated context (setReply context target input) := by
  cases target with
  | none => exact validated_of_none rfl
  | some target =>
    rw [setReply, if_pos hInline]
    exact validated_setPlainText hInline _ _

theorem validated_step (hInline : context.enableInlineReplying_ = true) {input next : SplitInput}
    (h : Validated context input) {event : InputEvent} (hNext : step context input event = some next) :
    Validated context next := by
  cases event with
  | edit text => exact Option.some.inj hNext ▸ validated_setPlainText hInline _ _
  | sendMessage arguments => exact Option.some.inj hNext ▸ h.handleSendMessage hInline arguments
  | previousMessage => exact validated_previousMessage hInline h hNext
  | nextMessage => exact validated_nextMessage hInline h hNext
  | setReply target => exact Option.some.inj hNext ▸ validated_setReply hInline target input

theorem validated_run (hInline : context.enableInlineReplying_ = true) {events : List InputEvent}
    {input : SplitInput} (hRun : run context events = some input) : Validated context input := by
  induction events using List.reverseRecOn generalizing input with
  | nil => exact validated_of_none (Option.some.inj hRun ▸ rfl)
  | append_singleton events event ih =>
    obtain ⟨before, hBefore, -⟩ := exists_run context events
    rw [run] at hRun hBefore
    rw [List.foldlM_append, hBefore] at hRun
    exact validated_step hInline (ih hBefore) (by simpa using hRun)

variable (context) in
def SendsWords (input : SplitInput) (target : ReplyMessage) : Prop :=
  ∃ gap words, input.text = target.replyPrefix ++ gap ++ words ∧ (gap = [] ∨ gap = lit " ") ∧
    ∀ arguments, (handleSendMessage context arguments input).sent =
      input.sent ++ [.sendReply (context.execCommand (newlinesAsSpaces words) false) target.id]

theorem exists_gap {target : ReplyMessage} {text : QString} (h : target.replyPrefix <+: text) :
    ∃ gap, text = target.replyPrefix ++ gap ++ withoutReplyPrefix target text ∧ (gap = [] ∨ gap = lit " ") := by
  obtain ⟨rest, rfl⟩ := h
  have hLength : target.replyPrefix.length = target.displayName.length + 1 := rfl
  rw [withoutReplyPrefix, ← hLength, List.drop_left]
  cases rest with
  | nil => exact ⟨[], by simp, .inl rfl⟩
  | cons c rest =>
    by_cases hSpace : c = 0x20
    · subst hSpace
      exact ⟨lit " ", by simp [lit], .inr rfl⟩
    · exact ⟨[], by simp [hSpace], .inl rfl⟩

theorem sent_postMessageSend (message : QString) (arguments : List QString) (input : SplitInput) :
    (postMessageSend context message arguments input).sent = input.sent := by
  obtain ⟨messages, hKept | ⟨target, -, hCleared⟩⟩ := postMessageSend_cases context message arguments input
  · rw [hKept]
  · rw [hCleared]

theorem sendsWords_of_prefix (hTwitch : context.isTwitchChannel = true)
    (hCast : context.castsToTwitchChannel = true) (hInline : context.enableInlineReplying_ = true)
    {input : SplitInput} {target : ReplyMessage} (hTarget : input.replyTarget_ = some target)
    (h : target.replyPrefix <+: input.text) : SendsWords context input target := by
  obtain ⟨gap, hText, hGap⟩ := exists_gap h
  refine ⟨gap, _, hText, hGap, fun arguments => ?_⟩
  unfold handleSendMessage
  rw [if_pos hTwitch, hTarget]
  simp only [if_pos hCast, if_pos hInline]
  exact sent_postMessageSend _ _ _

def ownWords (input : SplitInput) : QString :=
  match input.replyTarget_ with
  | some target => withoutOldPrefix target input.text
  | none => trimmed input.text

def Mentions (replyPrefix words : QString) : Prop :=
  replyPrefix <+: words ∧ ∀ c ∈ words[replyPrefix.length]?, c = 0x2C ∨ c = 0x20

variable (context) in
/-- A reply to the target can be added to the words: they do not mention it, and the handler leaves the
text and the reply alone. -/
structure TakesReply (words : QString) (target : ReplyMessage) : Prop where
  mention : ¬ Mentions target.replyPrefix words
  name : trimmed target.replyPrefix = target.replyPrefix
  settled : context.Settled (withReplyPrefix target words)
  replies : stillReplies target.replyPrefix
    (context.execCommand (trimmed (withReplyPrefix target words)) true) = true

theorem trimmed_ownWords (input : SplitInput) : trimmed input.ownWords = input.ownWords := by
  unfold ownWords
  split
  · exact trimmed_trimmed _
  · exact trimmed_trimmed _

theorem withoutMention_eq_self {replyPrefix words : QString} (h : ¬ Mentions replyPrefix words) :
    withoutMention replyPrefix words = words := by
  unfold withoutMention
  split
  · rename_i hPrefix
    have hPrefix := List.isPrefixOf_iff_prefix.mp hPrefix
    split
    · split
      · rename_i hNext
        refine absurd ⟨hPrefix, fun c hc => ?_⟩ h
        rw [Option.mem_def.mp hc] at hNext
        exact hNext.imp Option.some.inj Option.some.inj
      · rfl
    · rename_i hShort
      refine absurd ⟨hPrefix, fun c hc => ?_⟩ h
      rw [List.getElem?_eq_none (not_lt.mp hShort)] at hc
      cases hc
  · rfl

theorem withReplyPrefix_eq {target : ReplyMessage} {words : QString} (hWords : trimmed words = words)
    (h : ¬ Mentions target.replyPrefix words) : withReplyPrefix target words =
      target.replyPrefix ++ (if words = [] then [] else 0x20 :: words) ++ lit " " := by
  rw [withReplyPrefix, hWords, withoutMention_eq_self h]
  by_cases hEmpty : words = []
  · rw [if_neg (fun hBoth => hBoth.1 hEmpty), if_pos hEmpty, hEmpty]
  · have hHead : words.head? ≠ some 0x20 := by
      intro hSpace
      rw [← hWords] at hSpace
      have hVisible := isSpace_of_head?_trimmed 0x20 hSpace
      exact absurd hVisible (by decide)
    rw [if_pos ⟨hEmpty, hHead⟩, if_neg hEmpty]
    simp [lit]

theorem withoutOldPrefix_withReplyPrefix {target : ReplyMessage} {words : QString}
    (hWords : trimmed words = words) (hMention : ¬ Mentions target.replyPrefix words)
    (hName : trimmed target.replyPrefix = target.replyPrefix) :
    withoutOldPrefix target (withReplyPrefix target words) = words := by
  have hTrimmed : trimmed (withReplyPrefix target words) =
      target.replyPrefix ++ (if words = [] then [] else 0x20 :: words) := by
    rw [withReplyPrefix_eq hWords hMention, show lit " " = [0x20] from rfl, trimmed_append_space (by decide)]
    by_cases hEmpty : words = []
    · rw [if_pos hEmpty, List.append_nil, hName]
    · rw [if_neg hEmpty]
      refine trimmed_eq_self_of_ends (fun c hc => ?_) fun c hc => ?_
      · obtain rfl : 0x40 = c := Option.some.inj hc
        rfl
      · rw [← hWords] at hEmpty hc
        rw [List.getLast?_append_of_ne_nil _ (List.cons_ne_nil _ _), List.getLast?_cons_of_ne_nil hEmpty] at hc
        exact isSpace_of_getLast?_trimmed c hc
  rw [withoutOldPrefix]
  simp only [hTrimmed]
  rw [if_pos (List.isPrefixOf_iff_prefix.mpr (List.prefix_append _ _)), List.drop_left]
  by_cases hEmpty : words = []
  · rw [if_pos hEmpty, hEmpty]
    rfl
  · rw [if_neg hEmpty, trimmed_cons_space (by decide), hWords]

theorem trimmed_freed (hInline : context.enableInlineReplying_ = true) {input : SplitInput}
    (hWords : context.Settled input.ownWords) : trimmed (freed context input).text = input.ownWords := by
  unfold freed
  split
  · rename_i target hTarget
    have hOwn : input.ownWords = withoutOldPrefix target input.text := by rw [ownWords, hTarget]
    rw [if_pos hInline, text_setPlainText, ← hOwn, edited_of_settled hWords, trimmed_ownWords]
  · rename_i hTarget
    rw [ownWords, hTarget]

theorem withReplyPrefix_trimmed (target : ReplyMessage) (text : QString) :
    withReplyPrefix target (trimmed text) = withReplyPrefix target text := by
  rw [withReplyPrefix, trimmed_trimmed, withReplyPrefix]

theorem ownWords_setReply (hInline : context.enableInlineReplying_ = true) {input : SplitInput}
    (hWords : context.Settled input.ownWords) {target : ReplyMessage}
    (h : TakesReply context input.ownWords target) :
    (setReply context (some target) input).replyTarget_ = some target ∧
      (setReply context (some target) input).ownWords = input.ownWords := by
  have hText : withReplyPrefix target (freed context input).text = withReplyPrefix target input.ownWords := by
    rw [← withReplyPrefix_trimmed, trimmed_freed hInline hWords]
  have hWhisper : context.repliesToWhisper (withReplyPrefix target input.ownWords) = false := by
    refine Bool.eq_false_iff.mpr fun hReplies => ?_
    have hHead := head?_of_repliesToWhisper hReplies
    rw [withReplyPrefix_eq (trimmed_ownWords input) h.mention] at hHead
    exact absurd (Option.some.inj hHead) (by decide)
  have hSet : setReply context (some target) input = { freed context input with
      replyTarget_ := some target, text := withReplyPrefix target input.ownWords } := by
    rw [setReply, if_pos hInline]
    simp only [hText]
    rw [setPlainText_of_settled h.settled, hWhisper, if_neg Bool.false_ne_true, checkReplyTarget]
    simp only [h.replies, Bool.not_true, Bool.and_false, Bool.false_eq_true, if_false]
  rw [hSet]
  refine ⟨rfl, ?_⟩
  exact withoutOldPrefix_withReplyPrefix (trimmed_ownWords input) h.mention h.name

theorem text_setReply_none (hInline : context.enableInlineReplying_ = true) {input : SplitInput}
    {target : ReplyMessage} (hTarget : input.replyTarget_ = some target)
    (hWords : context.Settled input.ownWords) : (setReply context none input).text = input.ownWords := by
  have hOwn : input.ownWords = withoutOldPrefix target input.text := by rw [ownWords, hTarget]
  rw [setReply, clearReplyTarget, freed, hTarget]
  simp only [hInline, if_true, text_setPlainText]
  rw [← hOwn, edited_of_settled hWords]

/-- In every state that is reached, a reply is only sent while the text starts with the name and a boundary, and
changing the target or dropping it leaves the user's words. -/
theorem repliesWithOwnWords (context : InputContext) (hTwitch : context.isTwitchChannel = true)
    (hCast : context.castsToTwitchChannel = true) (hInline : context.enableInlineReplying_ = true)
    (events : List InputEvent) : ∃ input, run context events = some input ∧
      (∀ target, input.replyTarget_ = some target →
        stillReplies target.replyPrefix (context.execCommand (trimmed input.text) true) = true ∧
          (target.replyPrefix <+: input.text → SendsWords context input target)) ∧
      ∀ a b, context.Settled input.ownWords → TakesReply context input.ownWords a →
        TakesReply context input.ownWords b →
          (setReply context none (setReply context (some b) (setReply context (some a) input))).text =
            input.ownWords := by
  obtain ⟨input, hRun, -⟩ := exists_run context events
  refine ⟨input, hRun, fun target hTarget => ?_, fun a b hWords hA hB => ?_⟩
  · exact ⟨validated_run hInline hRun target hTarget, sendsWords_of_prefix hTwitch hCast hInline hTarget⟩
  · obtain ⟨-, hOwnA⟩ := ownWords_setReply hInline hWords hA
    obtain ⟨hTarget, hOwnB⟩ := ownWords_setReply hInline (hOwnA ▸ hWords) (hOwnA ▸ hB)
    rw [hOwnA] at hOwnB
    rw [text_setReply_none hInline hTarget (hOwnB ▸ hWords), hOwnB]

theorem repliesWithOwnWords_hello : ∃ input,
    run .plain [.edit (lit "hello"), .setReply (some ⟨lit "1", lit "ann"⟩)] = some input ∧
      SendsWords .plain input ⟨lit "1", lit "ann"⟩ ∧
      (setReply .plain none (setReply .plain (some ⟨lit "3", lit "cay"⟩)
        (setReply .plain (some ⟨lit "2", lit "bob"⟩) input))).text = lit "hello" := by
  obtain ⟨input, hRun, hSends, hKeeps⟩ := repliesWithOwnWords .plain rfl rfl rfl
    [.edit (lit "hello"), .setReply (some ⟨lit "1", lit "ann"⟩)]
  refine ⟨input, hRun, ?_⟩
  have hReached : run .plain [.edit (lit "hello"), .setReply (some ⟨lit "1", lit "ann"⟩)] =
      some { text := lit "@ann hello ", replyTarget_ := some ⟨lit "1", lit "ann"⟩ } := by
    decide
  obtain rfl := Option.some.inj (hRun.symm.trans hReached)
  have hTakes (id name : QString) (hMention : (lit "@" ++ name).isPrefixOf (lit "hello") = false)
      (hName : trimmed (lit "@" ++ name) = lit "@" ++ name)
      (hReplies : stillReplies (lit "@" ++ name) (trimmed (withReplyPrefix ⟨id, name⟩ (lit "hello"))) = true) :
      TakesReply .plain (lit "hello") ⟨id, name⟩ := by
    refine ⟨fun h => ?_, hName, ⟨rfl, fun _ => rfl⟩, hReplies⟩
    have hPrefix := List.isPrefixOf_iff_prefix.mpr h.1
    exact absurd (hMention.symm.trans hPrefix) Bool.false_ne_true
  refine ⟨(hSends _ rfl).2 (by decide), ?_⟩
  exact hKeeps _ _ ⟨rfl, fun _ => rfl⟩ (hTakes _ _ (by decide) (by decide) (by decide))
    (hTakes _ _ (by decide) (by decide) (by decide))

/-- The user's mention of the first target is taken for the prefix and is dropped. -/
theorem not_keepsWords_mention : ∃ input, run .plain [.edit (lit "@ann hello")] = some input ∧
    input.text = lit "@ann hello" ∧
      ¬ lit "@ann" <:+: (setReply .plain none (setReply .plain (some ⟨lit "2", lit "bob"⟩)
        (setReply .plain (some ⟨lit "1", lit "ann"⟩) input))).text := by
  refine ⟨{ text := lit "@ann hello" }, by decide, rfl, ?_⟩
  have hText : (setReply .plain none (setReply .plain (some ⟨lit "2", lit "bob"⟩)
      (setReply .plain (some ⟨lit "1", lit "ann"⟩) { text := lit "@ann hello" }))).text = lit "hello" := by
    decide
  rw [hText]
  decide

end Chatterino.Splits.SplitInput
