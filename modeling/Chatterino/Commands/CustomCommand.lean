import Chatterino.Lib.Doubling
import Chatterino.Qt.QString

/-! # The text of a custom command

Placeholders in the template of a command stand for words that the user has typed or for variables. The pattern is
searched again behind each match, one character early, since it takes the character in front of a placeholder.
-/

namespace Chatterino.Commands

open Lib QString

abbrev BRACE : QChar := 0x7B

abbrev CLOSING : QChar := 0x7D

abbrev PLUS : QChar := 0x2B

abbrev SPACE : QChar := 0x20

structure Command where
  name : QString
  func : QString
  deriving DecidableEq

structure StreamStatus where
  live : Bool
  game : QString
  title : QString

structure TwitchChannel where
  roomId : QString
  streamStatus : StreamStatus

structure Channel where
  name : QString
  twitchChannel : Option TwitchChannel

structure Message where
  loginName : QString
  id : QString
  messageText : QString

structure TwitchAccount where
  userId : QString
  userName : QString

structure Surroundings where
  current : TwitchAccount
  channel : Channel
  message : Option Message
  context : QString → Option QString

variable (env : Surroundings)

def orAltText (value altText : QString) : QString := if value = [] then altText else value

def ofStream (value : StreamStatus → QString) (altText : QString) : QString :=
  match env.channel.twitchChannel with
  | none => altText
  | some tc => if tc.streamStatus.live then value tc.streamStatus else altText

def ofMessage (value : Message → QString) (altText : QString) : QString :=
  match env.message with
  | none => altText
  | some message => orAltText (value message) altText

/-- The text of a variable, given the one to use instead. -/
def COMMAND_VARS (varName : QString) : Option (QString → QString) :=
  if varName = lit "channel.name" then some fun _ => env.channel.name
  else if varName = lit "channel.id" then
    some fun altText =>
      match env.channel.twitchChannel with
      | none => altText
      | some tc => tc.roomId
  else if varName = lit "channel" then some fun _ => env.channel.name
  else if varName = lit "stream.game" then some (ofStream env StreamStatus.game)
  else if varName = lit "stream.title" then some (ofStream env StreamStatus.title)
  else if varName = lit "my.id" then some (orAltText env.current.userId)
  else if varName = lit "my.name" then some (orAltText env.current.userName)
  else if varName = lit "user.name" then some (ofMessage env Message.loginName)
  else if varName = lit "user" then some (ofMessage env Message.loginName)
  else if varName = lit "msg.id" then some (ofMessage env Message.id)
  else if varName = lit "msg-id" then some (ofMessage env Message.id)
  else if varName = lit "msg.text" then some (ofMessage env Message.messageText)
  else if varName = lit "message" then some (ofMessage env Message.messageText)
  else if varName = lit "input.text" then some fun altText => altText
  else none

def isDigit (c : QChar) : Bool := 0x30 ≤ c && c ≤ 0x39

/-- `[a-zA-Z.-]`. -/
def isNameCharacter (c : QChar) : Bool :=
  (0x61 ≤ c && c ≤ 0x7A) || (0x41 ≤ c && c ≤ 0x5A) || c == 0x2E || c == 0x2D

structure Captured where
  placeholder : QString
  varName : QString
  altText : QString

section

-- the line ends that `.` does not match
variable (isNewline : QChar → Bool)

/-- `(\d+\+?|([a-zA-Z.-]+)(?:;(.+?))?)}` at the start of the text. -/
def matchPlaceholder (text : QString) : Option Captured :=
  let digits := text.takeWhile isDigit
  let name := text.takeWhile isNameCharacter
  if digits ≠ [] then
    match text.drop digits.length with
    | c :: rest =>
      if c = CLOSING then some ⟨digits, [], []⟩
      else if c = PLUS ∧ rest.head? = some CLOSING then some ⟨digits ++ [PLUS], [], []⟩
      else none
    | [] => none
  else if name ≠ [] then
    match text.drop name.length with
    | c :: rest =>
      if c = CLOSING then some ⟨name, name, []⟩
      else if c = 0x3B then
        match rest with
        | d :: rest =>
          let more := rest.takeWhile fun e => e ≠ CLOSING ∧ isNewline e = false
          if isNewline d = false ∧ rest[more.length]? = some CLOSING then
            some ⟨name ++ 0x3B :: d :: more, name, d :: more⟩
          else none
        | [] => none
      else none
    | [] => none
  else none

/-- `({{)*{(\d+\+?|([a-zA-Z.-]+)(?:;(.+?))?)}` at the start of the text, with the end of the match. -/
def matchBraced (text : QString) : Option (Nat × Captured) :=
  let braces := (text.takeWhile (· = BRACE)).length
  if braces % 2 = 1 then
    (matchPlaceholder isNewline (text.drop braces)).map fun captured =>
      (braces + captured.placeholder.length + 1, captured)
  else none

/-- The code units that `[^{]` matches at the start of the text, which are those of one code point. -/
def firstLength : QString → Option Nat
  | [] => none
  | c :: text =>
    if c = BRACE then none
    else if isHighSurrogate c ∧ text.head?.any isLowSurrogate then some 2
    else some 1

structure Match where
  capturedStart : Nat
  capturedEnd : Nat
  captured : Captured

/-- The pattern `(^|[^{])({{)*{(\d+\+?|([a-zA-Z.-]+)(?:;(.+?))?)}` at a position. -/
def matchAt (pos : Nat) (text : QString) : Option Match :=
  let atStart := if pos = 0 then matchBraced isNewline text else none
  (atStart.map fun found => ⟨pos, pos + found.1, found.2⟩).or
    ((firstLength text).bind fun n =>
      (matchBraced isNewline (text.drop n)).map fun found => ⟨pos, pos + n + found.1, found.2⟩)

def searchFrom : Nat → QString → Option Match
  | pos, [] => matchAt isNewline pos []
  | pos, c :: text => (matchAt isNewline pos (c :: text)).or (searchFrom (pos + 1) text)

/-- `parseCommand.match(func, matchOffset)`. -/
def parseCommand (func : QString) (matchOffset : Nat) : Option Match :=
  searchFrom isNewline matchOffset (func.drop matchOffset)

end

variable (words : List QString)

def wordIndex (captured : Captured) : Option Nat :=
  let wordIndexMatch : QString := (captured.placeholder.filter (· ≠ PLUS)).filter (· ≠ 0x3D)
  (wordIndexMatch.toInt.filter (· ≠ 0)).map Int.toNat

def plus (captured : Captured) : Bool := captured.placeholder.getLast? = some PLUS

def joinedWords : (first : Bool) → List QString → QString
  | _, [] => []
  | first, word :: words => (if first then [] else [SPACE]) ++ word ++ joinedWords false words

def replacement (captured : Captured) : QString :=
  match wordIndex captured with
  | none =>
    match env.context captured.varName with
    | some value => if value = [] then captured.altText else value
    | none =>
      match COMMAND_VARS env captured.varName with
      | some replacer => replacer captured.altText
      | none => [BRACE] ++ captured.placeholder ++ [CLOSING]
  | some wordIndex =>
    if words.length ≤ wordIndex then []
    else if plus captured then joinedWords true (words.drop wordIndex)
    else words[wordIndex]?.getD []

variable (isNewline : QChar → Bool)

/-- The loop over the matches. The fuel bounds their number. -/
def replaceMatches (func : QString) : (fuel lastCaptureEnd matchOffset : Nat) → (result : QString) → QString
  | 0, lastCaptureEnd, _, result => result ++ func.drop lastCaptureEnd
  | fuel + 1, lastCaptureEnd, matchOffset, result =>
    match parseCommand isNewline func matchOffset with
    | none => result ++ func.drop lastCaptureEnd
    | some found =>
      let result := result ++ (func.drop lastCaptureEnd).take (found.capturedStart + 1 - lastCaptureEnd)
      replaceMatches func fuel found.capturedEnd (found.capturedEnd - 1) (result ++ replacement env words found.captured)

def execCustomCommand (command : Command) : QString :=
  let result := replaceMatches env words isNewline command.func command.func.length 0 0 []
  let result := if result.head? = some BRACE then result.drop 1 else result
  undouble BRACE result

def value (varName : QString) : Option QString :=
  (env.context varName).or ((COMMAND_VARS env varName).map fun replacer => replacer [])

/-- A text in the place of a placeholder: a word or a value, or a text of the template. -/
inductive Insertion where
  | verbatim (text : QString)
  | template (text : QString)

def Insertion.text : Insertion → QString
  | verbatim text => text
  | template text => text

/-- What a placeholder stands for. One that stands for nothing stays. -/
def insertion (captured : Captured) : Insertion :=
  match wordIndex captured with
  | some wordIndex =>
    .verbatim (if plus captured then [SPACE].intercalate (words.drop wordIndex) else words[wordIndex]?.getD [])
  | none =>
    match value env captured.varName with
    | some value => if value = [] then .template captured.altText else .verbatim value
    | none => .template ([BRACE] ++ captured.placeholder ++ [CLOSING])

def expandPlaceholder (captured : Captured) : QString :=
  match insertion env words captured with
  | .verbatim text => text
  | .template text => undouble BRACE text

/-- The template in one pass from the left, without its first characters. -/
def expandFrom : (skip : Nat) → QString → QString
  | _, [] => []
  | skip + 1, _ :: text => expandFrom skip text
  | 0, c :: text =>
    if c = BRACE then
      if text.head? = some BRACE then BRACE :: expandFrom 1 text
      else
        match matchPlaceholder isNewline text with
        | some captured => expandPlaceholder env words captured ++ expandFrom (captured.placeholder.length + 1) text
        | none => BRACE :: expandFrom 0 text
    else c :: expandFrom 0 text

def expand (func : QString) : QString := expandFrom env words isNewline 0 func

end Chatterino.Commands
