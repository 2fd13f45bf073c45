import Chatterino.Qt.QString

/-! # The input of a split

An input has a text edit, the history of the messages that were sent from it and, while a reply is written, the
message that is replied to. Every time the text is set or edited, `editTextChanged` runs, which can set it again. The
cursor, completion, highlighting and labels are left out.
-/

namespace Chatterino.Splits

open QString

structure ReplyMessage where
  id : QString
  displayName : QString
  deriving DecidableEq

structure InputContext where
  /-- `messageOverflow` is `Prevent`. -/
  preventsOverflow : Bool
  isTwitchChannel : Bool
  /-- The channel is a TwitchChannel object. -/
  castsToTwitchChannel : Bool
  getLastUserThatWhisperedMe : QString
  /-- `execCommand` in this channel, by the text and `dryRun`. -/
  execCommand : QString → Bool → QString
  enableInlineReplying_ : Bool

def InputContext.plain : InputContext where
  preventsOverflow := false
  isTwitchChannel := true
  castsToTwitchChannel := true
  getLastUserThatWhisperedMe := []
  execCommand text _ := text
  enableInlineReplying_ := true

inductive Outgoing where
  | sendMessage (message : QString)
  | sendReply (message id : QString)
  deriving DecidableEq

structure SplitInput where
  text : QString := []
  replyTarget_ : Option ReplyMessage := none
  prevMsg_ : List QString := []
  currMsg_ : QString := []
  prevIndex_ : Int := 0
  sent : List Outgoing := []
  deriving DecidableEq

def TWITCH_MESSAGE_LIMIT : Nat := 500

namespace InputContext

variable (context : InputContext)

def shouldPreventInput (text : QString) : Bool :=
  context.preventsOverflow && context.isTwitchChannel && decide (TWITCH_MESSAGE_LIMIT < text.length)

/-- The text answers the last whisper: it starts with `/r`, in either case, and a space. -/
def repliesToWhisper (text : QString) : Bool :=
  context.isTwitchChannel && (text.take 3 == lit "/r " || text.take 3 == lit "/R ")

end InputContext

def ReplyMessage.replyPrefix (message : ReplyMessage) : QString := lit "@" ++ message.displayName

def stillReplies (replyPrefix text : QString) : Bool :=
  replyPrefix.isPrefixOf text && decide (∀ c ∈ text[replyPrefix.length]?, c = 0x20)

namespace SplitInput

variable (context : InputContext)

def clearReplyTarget (input : SplitInput) : SplitInput := { input with replyTarget_ := none }

/-- The end of `editTextChanged`, with the text it has come to. -/
def checkReplyTarget (text : QString) (input : SplitInput) : SplitInput :=
  match input.replyTarget_ with
  | none => input
  | some target =>
    if context.enableInlineReplying_ && !stillReplies target.replyPrefix text then input.clearReplyTarget
    else input

/-- The fuel bounds the calls that are nested: setting the text inside runs it again. -/
def editTextChanged : Nat → SplitInput → SplitInput
  | 0, input => input
  | fuel + 1, input =>
    if context.shouldPreventInput input.text then
      editTextChanged fuel { input with text := input.text.take TWITCH_MESSAGE_LIMIT }
    else if context.repliesToWhisper input.text then
      if context.getLastUserThatWhisperedMe = [] then input.checkReplyTarget context input.text
      else
        (editTextChanged fuel { input with
          text := lit "/w " ++ context.getLastUserThatWhisperedMe ++ input.text.drop 2
        }).checkReplyTarget context input.text
    else input.checkReplyTarget context (context.execCommand (trimmed input.text) true)

def setPlainText (text : QString) (input : SplitInput) : SplitInput :=
  editTextChanged context 4 { input with text }

def clearInput (input : SplitInput) : SplitInput :=
  let cleared := setPlainText context [] { input with currMsg_ := [] }
  if context.enableInlineReplying_ then cleared.clearReplyTarget else cleared

def newlinesAsSpaces (text : QString) : QString := text.map fun c => if c = 0x0A then 0x20 else c

def withoutReplyPrefix (target : ReplyMessage) (text : QString) : QString :=
  let message := text.drop (target.displayName.length + 1)
  if message.head? = some 0x20 then message.drop 1 else message

def postMessageSend (message : QString) (arguments : List QString) (input : SplitInput) : SplitInput :=
  let recorded :=
    if input.prevMsg_.getLast? ≠ some message ∧ trimmed message ≠ [] then
      { input with prevMsg_ := input.prevMsg_ ++ [message] }
    else input
  let cleared := if arguments.head? ≠ some (lit "keepInput") then recorded.clearInput context else recorded
  { cleared with prevIndex_ := cleared.prevMsg_.length }

def handleSendMessage (arguments : List QString) (input : SplitInput) : SplitInput :=
  match (if context.isTwitchChannel then input.replyTarget_ else none) with
  | none =>
    let message := newlinesAsSpaces input.text
    let sendMessage := context.execCommand message false
    postMessageSend context message arguments { input with sent := input.sent ++ [.sendMessage sendMessage] }
  | some target =>
    if context.castsToTwitchChannel then
      let message := if context.enableInlineReplying_ then withoutReplyPrefix target input.text else input.text
      let message := newlinesAsSpaces message
      let sendMessage := context.execCommand message false
      postMessageSend context message arguments
        { input with sent := input.sent ++ [.sendReply sendMessage target.id] }
    else input

/-- `QStringList::at`, `none` when the index is out of range. -/
def messageAt (prevMsg_ : List QString) (index : Int) : Option QString :=
  if index < 0 then none else prevMsg_[index.toNat]?

def previousMessage (input : SplitInput) : Option SplitInput :=
  if input.prevMsg_ = [] ∨ input.prevIndex_ = 0 then some input
  else
    let kept := if input.prevIndex_ = input.prevMsg_.length then { input with currMsg_ := input.text } else input
    let moved := { kept with prevIndex_ := kept.prevIndex_ - 1 }
    (messageAt moved.prevMsg_ moved.prevIndex_).map fun message => setPlainText context message moved

def nextMessage (input : SplitInput) : Option SplitInput :=
  if input.prevMsg_ = [] then some input
  else if input.prevIndex_ ≠ input.prevMsg_.length - 1 ∧ input.prevIndex_ ≠ input.prevMsg_.length then
    let moved := { input with prevIndex_ := input.prevIndex_ + 1 }
    (messageAt moved.prevMsg_ moved.prevIndex_).map fun message => setPlainText context message moved
  else
    let moved := { input with prevIndex_ := input.prevMsg_.length }
    (messageAt moved.prevMsg_ (moved.prevIndex_ - 1)).map fun last =>
      if input.text = last then setPlainText context moved.currMsg_ moved
      else if input.text ≠ moved.currMsg_ then { moved with currMsg_ := input.text }
      else moved

def withoutOldPrefix (oldParent : ReplyMessage) (text : QString) : QString :=
  let plainText := trimmed text
  trimmed (if oldParent.replyPrefix.isPrefixOf plainText then plainText.drop oldParent.replyPrefix.length
    else plainText)

/-- A mention of the name at the start of the text is dropped, with a space or a comma after it. -/
def withoutMention (replyPrefix plainText : QString) : QString :=
  if replyPrefix.isPrefixOf plainText then
    if replyPrefix.length < plainText.length then
      if plainText[replyPrefix.length]? = some 0x2C ∨ plainText[replyPrefix.length]? = some 0x20 then
        plainText.drop (replyPrefix.length + 1)
      else plainText
    else plainText.drop replyPrefix.length
  else plainText

def withReplyPrefix (target : ReplyMessage) (text : QString) : QString :=
  let plainText := withoutMention target.replyPrefix (trimmed text)
  let replyPrefix :=
    if plainText ≠ [] ∧ plainText.head? ≠ some 0x20 then target.replyPrefix ++ lit " " else target.replyPrefix
  replyPrefix ++ plainText ++ lit " "

/-- The first part of `setReply`: the old prefix is removed. -/
def freed (input : SplitInput) : SplitInput :=
  match input.replyTarget_ with
  | some oldParent =>
    if context.enableInlineReplying_ then setPlainText context (withoutOldPrefix oldParent input.text) input
    else input
  | none => input

def setReply (target : Option ReplyMessage) (input : SplitInput) : SplitInput :=
  match target with
  | some target =>
    let replying := { freed context input with replyTarget_ := some target }
    if context.enableInlineReplying_ then
      setPlainText context (withReplyPrefix target replying.text) replying
    else replying
  | none => (freed context input).clearReplyTarget

end SplitInput

inductive InputEvent where
  | edit (text : QString)
  | sendMessage (arguments : List QString)
  | previousMessage
  | nextMessage
  | setReply (target : Option ReplyMessage)

namespace SplitInput

variable (context : InputContext)

def step (input : SplitInput) : InputEvent → Option SplitInput
  | .edit text => some (setPlainText context text input)
  | .sendMessage arguments => some (handleSendMessage context arguments input)
  | .previousMessage => previousMessage context input
  | .nextMessage => nextMessage context input
  | .setReply target => some (setReply context target input)

def run (events : List InputEvent) : Option SplitInput := events.foldlM (step context) {}

end SplitInput

namespace InputContext

variable (context : InputContext)

/-- A bound on the calls of `editTextChanged` that a text nests: one to cut it, two to turn it into a
whisper and cut that. -/
def nestedCalls (text : QString) : Nat :=
  (if context.shouldPreventInput text then 1 else 0) +
    (if context.repliesToWhisper text ∧ context.getLastUserThatWhisperedMe ≠ [] then 2 else 0)

/-- `editTextChanged` leaves such a text as it is. -/
def Settled (text : QString) : Prop :=
  context.shouldPreventInput text = false ∧
    (context.repliesToWhisper text = true → context.getLastUserThatWhisperedMe = [])

variable {context}

theorem settled_nil : context.Settled [] := by
  refine ⟨?_, fun h => ?_⟩
  · simp [shouldPreventInput]
  · rw [repliesToWhisper, Bool.and_eq_true] at h
    exact absurd h.2 (by decide)

theorem nestedCalls_lt_four (text : QString) : context.nestedCalls text < 4 := by
  unfold nestedCalls
  split <;> split <;> decide

theorem shouldPreventInput_take (text : QString) :
    context.shouldPreventInput (text.take TWITCH_MESSAGE_LIMIT) = false := by
  have hShort : ¬ TWITCH_MESSAGE_LIMIT < (text.take TWITCH_MESSAGE_LIMIT).length :=
    not_lt.mpr (List.length_take_le _ _)
  rw [shouldPreventInput, decide_eq_false hShort, Bool.and_false]

theorem repliesToWhisper_take (text : QString) :
    context.repliesToWhisper (text.take TWITCH_MESSAGE_LIMIT) = context.repliesToWhisper text := by
  rw [repliesToWhisper, repliesToWhisper, List.take_take,
    show min 3 TWITCH_MESSAGE_LIMIT = 3 from rfl]

theorem repliesToWhisper_whisper (text : QString) : context.repliesToWhisper (lit "/w " ++ text) = false := by
  rw [repliesToWhisper, List.take_left' (by decide : (lit "/w ").length = 3)]
  simp only [show (lit "/w " == lit "/r ") = false by decide, show (lit "/w " == lit "/R ") = false by decide,
    Bool.or_self, Bool.and_false]

theorem nestedCalls_take {text : QString} (h : context.shouldPreventInput text = true) :
    context.nestedCalls (text.take TWITCH_MESSAGE_LIMIT) < context.nestedCalls text := by
  rw [nestedCalls, nestedCalls, shouldPreventInput_take, repliesToWhisper_take, h]
  simp only [Bool.false_eq_true, if_false, if_true]
  omega

theorem nestedCalls_whisper {text : QString} (h : context.repliesToWhisper text = true)
    (hUser : context.getLastUserThatWhisperedMe ≠ []) (rest : QString) :
    context.nestedCalls (lit "/w " ++ rest) < context.nestedCalls text := by
  have hBelow : context.nestedCalls (lit "/w " ++ rest) ≤ 1 := by
    rw [nestedCalls, repliesToWhisper_whisper]
    split <;> simp
  have hAbove : 2 ≤ context.nestedCalls text := by
    rw [nestedCalls, if_pos (c := _ ∧ _) ⟨h, hUser⟩]
    omega
  omega

end InputContext

namespace SplitInput

variable {context : InputContext}

open InputContext

variable (context) in
theorem checkReplyTarget_eq (text : QString) (input : SplitInput) :
    ∃ target, input.checkReplyTarget context text = { input with replyTarget_ := target } := by
  unfold checkReplyTarget
  split
  · exact ⟨_, rfl⟩
  · split
    · exact ⟨none, rfl⟩
    · exact ⟨input.replyTarget_, rfl⟩

@[simp] theorem text_checkReplyTarget (text : QString) (input : SplitInput) :
    (input.checkReplyTarget context text).text = input.text := by
  obtain ⟨target, hEq⟩ := checkReplyTarget_eq context text input
  rw [hEq]

variable (context) in
theorem editTextChanged_eq (fuel : Nat) (input : SplitInput) :
    ∃ text target, editTextChanged context fuel input = { input with text, replyTarget_ := target } := by
  induction fuel generalizing input with
  | zero => exact ⟨input.text, input.replyTarget_, rfl⟩
  | succ fuel ih =>
    rw [editTextChanged]
    split
    · exact ih _
    · split
      · split
        · obtain ⟨target, hEq⟩ := checkReplyTarget_eq context input.text input
          exact ⟨input.text, target, hEq⟩
        · obtain ⟨text, target, hEq⟩ := ih { input with
            text := lit "/w " ++ context.getLastUserThatWhisperedMe ++ input.text.drop 2 }
          rw [hEq]
          obtain ⟨target', hEq'⟩ := checkReplyTarget_eq context input.text
            { input with text, replyTarget_ := target }
          exact ⟨text, target', hEq'⟩
      · obtain ⟨target, hEq⟩ := checkReplyTarget_eq context
          (context.execCommand (trimmed input.text) true) input
        exact ⟨input.text, target, hEq⟩

theorem settled_editTextChanged {fuel : Nat} (input : SplitInput)
    (hFuel : context.nestedCalls input.text < fuel) :
    context.Settled (editTextChanged context fuel input).text ∧
      ∀ more, fuel ≤ more → editTextChanged context more input = editTextChanged context fuel input := by
  induction fuel generalizing input with
  | zero => exact absurd hFuel (Nat.not_lt_zero _)
  | succ fuel ih =>
    have hMore (more : Nat) (h : fuel + 1 ≤ more) : ∃ rest, more = rest + 1 ∧ fuel ≤ rest :=
      ⟨more - 1, by omega, by omega⟩
    cases hPrevent : context.shouldPreventInput input.text with
    | true =>
      have hNested := ih { input with text := input.text.take TWITCH_MESSAGE_LIMIT }
        (by have := nestedCalls_take hPrevent; simp only; omega)
      rw [editTextChanged, if_pos hPrevent]
      refine ⟨hNested.1, fun more h => ?_⟩
      obtain ⟨rest, rfl, hRest⟩ := hMore more h
      rw [editTextChanged, if_pos hPrevent, hNested.2 rest hRest]
    | false =>
      have hNot : ¬ context.shouldPreventInput input.text = true := by simp [hPrevent]
      rw [editTextChanged, if_neg hNot]
      cases hReplies : context.repliesToWhisper input.text with
      | true =>
        by_cases hUser : context.getLastUserThatWhisperedMe = []
        · rw [if_pos rfl, if_pos hUser, text_checkReplyTarget]
          refine ⟨⟨hPrevent, fun _ => hUser⟩, fun more h => ?_⟩
          obtain ⟨rest, rfl, -⟩ := hMore more h
          rw [editTextChanged, if_neg hNot, if_pos hReplies, if_pos hUser]
        · have hNested := ih { input with
              text := lit "/w " ++ context.getLastUserThatWhisperedMe ++ input.text.drop 2 }
            (by
              have := nestedCalls_whisper hReplies hUser
                (context.getLastUserThatWhisperedMe ++ input.text.drop 2)
              rw [← List.append_assoc] at this
              simp only
              omega)
          rw [if_pos rfl, if_neg hUser, text_checkReplyTarget]
          refine ⟨hNested.1, fun more h => ?_⟩
          obtain ⟨rest, rfl, hRest⟩ := hMore more h
          rw [editTextChanged, if_neg hNot, if_pos hReplies, if_neg hUser, hNested.2 rest hRest]
      | false =>
        rw [if_neg Bool.false_ne_true, text_checkReplyTarget]
        refine ⟨⟨hPrevent, fun h => ?_⟩, fun more h => ?_⟩
        · rw [hReplies] at h
          exact absurd h Bool.false_ne_true
        · obtain ⟨rest, rfl, -⟩ := hMore more h
          rw [editTextChanged, if_neg hNot, hReplies, if_neg Bool.false_ne_true]

variable (context) in
theorem text_editTextChanged_congr (fuel : Nat) {input input' : SplitInput} (h : input.text = input'.text) :
    (editTextChanged context fuel input).text = (editTextChanged context fuel input').text := by
  induction fuel generalizing input input' with
  | zero => exact h
  | succ fuel ih =>
    rw [editTextChanged, editTextChanged, ← h]
    split
    · exact ih rfl
    · split
      · split
        · rw [text_checkReplyTarget, text_checkReplyTarget, h]
        · rw [text_checkReplyTarget, text_checkReplyTarget]
          exact ih rfl
      · rw [text_checkReplyTarget, text_checkReplyTarget, h]

variable (context) in
def edited (text : QString) : QString := (setPlainText context text {}).text

theorem settled_edited (text : QString) : context.Settled (edited context text) :=
  (settled_editTextChanged _ (nestedCalls_lt_four text)).1

variable (context) in
theorem setPlainText_eq (text : QString) (input : SplitInput) :
    ∃ target, setPlainText context text input =
      { input with text := edited context text, replyTarget_ := target } := by
  obtain ⟨text', target, hEq⟩ := editTextChanged_eq context 4 { input with text }
  have hText : text' = edited context text := by
    have hCongr : (editTextChanged context 4 { input with text }).text = edited context text :=
      text_editTextChanged_congr context 4 rfl
    rw [hEq] at hCongr
    exact hCongr
  exact ⟨target, by rw [setPlainText, hEq, hText]⟩

@[simp] theorem text_setPlainText (text : QString) (input : SplitInput) :
    (setPlainText context text input).text = edited context text := by
  obtain ⟨target, hEq⟩ := setPlainText_eq context text input
  rw [hEq]

theorem setPlainText_of_settled {text : QString} (h : context.Settled text) (input : SplitInput) :
    setPlainText context text input = { input with text }.checkReplyTarget context
      (if context.repliesToWhisper text then text else context.execCommand (trimmed text) true) := by
  rw [setPlainText, editTextChanged, if_neg (by simp [h.1])]
  cases hReplies : context.repliesToWhisper text with
  | true => rw [if_pos rfl, if_pos (h.2 hReplies), if_pos rfl]
  | false => rw [if_neg Bool.false_ne_true, if_neg Bool.false_ne_true]

theorem edited_of_settled {text : QString} (h : context.Settled text) : edited context text = text := by
  rw [edited, setPlainText_of_settled h, text_checkReplyTarget]

theorem clearInput_eq (context : InputContext) (input : SplitInput) :
    ∃ target, input.clearInput context = { input with text := [], currMsg_ := [], replyTarget_ := target } ∧
      (context.enableInlineReplying_ = true → target = none) := by
  obtain ⟨target, hEq⟩ := setPlainText_eq context [] { input with currMsg_ := [] }
  rw [edited_of_settled settled_nil] at hEq
  simp only [clearInput, hEq]
  split
  · exact ⟨none, rfl, fun _ => rfl⟩
  · rename_i hNot
    exact ⟨target, rfl, fun hInline => absurd hInline hNot⟩

theorem postMessageSend_cases (context : InputContext) (message : QString) (arguments : List QString)
    (input : SplitInput) : ∃ messages : List QString,
      postMessageSend context message arguments input =
          { input with prevMsg_ := messages, prevIndex_ := messages.length } ∨
        ∃ target, (context.enableInlineReplying_ = true → target = none) ∧
          postMessageSend context message arguments input = { input with
            text := [], replyTarget_ := target, prevMsg_ := messages, currMsg_ := [], prevIndex_ := messages.length } := by
  have hRecorded : ∃ messages : List QString,
      (if input.prevMsg_.getLast? ≠ some message ∧ trimmed message ≠ [] then
        { input with prevMsg_ := input.prevMsg_ ++ [message] } else input) = { input with prevMsg_ := messages } := by
    split
    · exact ⟨_, rfl⟩
    · exact ⟨_, rfl⟩
  obtain ⟨messages, hRecorded⟩ := hRecorded
  refine ⟨messages, ?_⟩
  rw [postMessageSend, hRecorded]
  split
  · obtain ⟨target, hEq, hTarget⟩ := clearInput_eq context { input with prevMsg_ := messages }
    exact .inr ⟨target, hTarget, by rw [hEq]⟩
  · exact .inl rfl

end SplitInput

end Chatterino.Splits
