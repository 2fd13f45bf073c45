import Chatterino.Qt.QString
import Mathlib.Data.List.Induction

/-! # Chat logs

The messages of a channel are appended to one file for each day. The name of the open file is remembered as a date,
which a message sets before the file is opened and the opening sets again.
-/

namespace Chatterino.Logging

open QString

structure Library (QDateTime : Type) where
  toString : QDateTime → QString → QString
  timeZoneAbbreviation : QDateTime → QString
  toUpper : QChar → QChar
  toLower : QString → QString
  separator : QString

structure Message (QDateTime : Type) where
  serverReceivedTime : Option QDateTime := none
  channelName : QString := []
  loginName : QString := []
  localizedName : QString := []
  messageText : QString
  isReplyMessage : Bool := false
  /-- The login names of the parent and of the thread's root. -/
  replyParent : Option QString := none
  replyThreadRoot : QString := []

structure Settings where
  tryUseTwitchTimestamps : Bool := true
  logTimestampFormat : QString := lit "hh:mm:ss"
  stripReplyMention : Bool := true
  hideReplyContext : Bool := false
  separatelyStoreStreamLogs : Bool := false

inductive Handle
  | fileHandle
  | currentStreamFileHandle
  deriving DecidableEq

inductive Line
  | opening (text : QString)
  | message (text : QString)

structure Appended where
  handle : Handle
  fileName : QString
  line : Line

structure LoggingChannel where
  channelName : QString
  directory : QString
  dateString : QString := []
  fileName : QString := []
  currentStreamID : QString := []
  currentStreamFileName : QString := []
  written : List Appended := []

/-- A call of `addMessage` with the settings and the clock's readings in it. -/
structure Call (QDateTime : Type) where
  settings : Settings := {}
  message : Message QDateTime
  streamID : QString := []
  now : QDateTime
  /-- The readings at which a file or a stream's file would be opened. -/
  opened : QDateTime
  streamOpened : QDateTime

section

variable {QDateTime : Type} (lib : Library QDateTime)

def generateOpeningString (now : QDateTime) : QString :=
  lit "# Start logging at " ++ lib.toString now (lit "yyyy-MM-dd HH:mm:ss ") ++ lib.timeZoneAbbreviation now ++ lit "\n"

def generateDateString (now : QDateTime) : QString := lib.toString now (lit "yyyy-MM-dd")

def subDirectory (channelName platform : QString) : QString :=
  (platform.head?.map lib.toUpper).toList ++ lib.toLower (platform.drop 1) ++ lib.separator ++
    if (lit "/whispers").isPrefixOf channelName then lit "Whispers"
    else if (lit "/mentions").isPrefixOf channelName then lit "Mentions"
    else if (lit "/live").isPrefixOf channelName then lit "Live"
    else if (lit "/automod").isPrefixOf channelName then lit "AutoMod"
    else lit "Channels" ++ lib.separator ++ channelName

def baseFileName (channelName part : QString) : QString := channelName ++ lit "-" ++ part ++ lit ".log"

namespace LoggingChannel

variable (channel : LoggingChannel)

def appendLine (handle : Handle) (line : Line) : LoggingChannel :=
  { channel with
    written := channel.written ++ [{
      handle
      fileName := match handle with
        | .fileHandle => channel.fileName
        | .currentStreamFileHandle => channel.currentStreamFileName
      line }] }

def path (part : QString) : QString := channel.directory ++ lib.separator ++ baseFileName channel.channelName part

def openLogFile (now : QDateTime) : LoggingChannel :=
  let dateString := generateDateString lib now
  let channel := { channel with dateString, fileName := channel.path lib dateString }
  channel.appendLine .fileHandle (.opening (generateOpeningString lib now))

def openStreamLogFile (streamID : QString) (now : QDateTime) : LoggingChannel :=
  let channel := { channel with currentStreamID := streamID, currentStreamFileName := channel.path lib streamID }
  channel.appendLine .currentStreamFileHandle (.opening (generateOpeningString lib now))

end LoggingChannel

def LoggingChannel.new (channelName platform baseDirectory : QString) (now : QDateTime) : LoggingChannel :=
  LoggingChannel.openLogFile lib
    { channelName, directory := baseDirectory ++ lib.separator ++ subDirectory lib channelName platform } now

def messageTimestamp (call : Call QDateTime) : QDateTime :=
  if call.settings.tryUseTwitchTimestamps then call.message.serverReceivedTime.getD call.now else call.now

def messageDateString (call : Call QDateTime) : QString := generateDateString lib (messageTimestamp call)

def senderAndText (message : Message QDateTime) : QString :=
  if message.loginName = [] then message.messageText
  else if message.localizedName = [] then message.loginName ++ lit ": " ++ message.messageText
  else message.localizedName ++ lit " " ++ message.loginName ++ lit ": " ++ message.messageText

def insertRootMessageChatter (message : Message QDateTime) (messageText : QString) : QString :=
  match messageText.findIdx? (· == 0x3A) with
  | none => messageText
  | some colonIndex =>
    messageText.take (colonIndex + 1) ++ (lit " @" ++ message.replyParent.getD message.replyThreadRoot) ++
      messageText.drop (colonIndex + 1)

def logLine (channelName : QString) (call : Call QDateTime) : QString :=
  let messageText := senderAndText call.message
  (if (lit "/mentions").isPrefixOf channelName ∨ (lit "/automod").isPrefixOf channelName then
    lit "#" ++ call.message.channelName ++ lit " " else []) ++
  (if call.settings.logTimestampFormat = lit "Disable" then []
    else lit "[" ++ lib.toString (messageTimestamp call) call.settings.logTimestampFormat ++ lit "] ") ++
  (if call.message.isReplyMessage ∧ call.settings.stripReplyMention ∧ ¬ call.settings.hideReplyContext then
    insertRootMessageChatter call.message messageText else messageText) ++ lit "\n"

/-- The second half of `addMessage`: the line is appended to the files that are open. -/
def LoggingChannel.appendMessage (channel : LoggingChannel) (call : Call QDateTime) : LoggingChannel :=
  let line := Line.message (logLine lib channel.channelName call)
  let channel := channel.appendLine .fileHandle line
  if call.streamID ≠ [] ∧ call.settings.separatelyStoreStreamLogs then
    let channel := if channel.currentStreamID ≠ call.streamID then
      channel.openStreamLogFile lib call.streamID call.streamOpened else channel
    channel.appendLine .currentStreamFileHandle line
  else channel

def LoggingChannel.addMessage (channel : LoggingChannel) (call : Call QDateTime) : LoggingChannel :=
  let messageDateString := messageDateString lib call
  let channel := if messageDateString ≠ channel.dateString then
    LoggingChannel.openLogFile lib { channel with dateString := messageDateString } call.opened else channel
  channel.appendMessage lib call

def LoggingChannel.messagesIn (channel : LoggingChannel) (fileName : QString) : List QString :=
  channel.written.filterMap fun appended => match appended with
    | ⟨.fileHandle, name, .message text⟩ => if name = fileName then some text else none
    | _ => none

def LoggingChannel.openings (channel : LoggingChannel) : Nat :=
  channel.written.countP fun appended => match appended with
    | ⟨.fileHandle, _, .opening _⟩ => true
    | _ => false

def run (start : LoggingChannel) (calls : List (Call QDateTime)) : LoggingChannel := calls.foldl (LoggingChannel.addMessage lib) start

/-- Each message stands once in the file of its own date, in the order of the calls, and a file is only opened for a date
other than the one before. -/
structure WellLogged (start : LoggingChannel) (calls : List (Call QDateTime)) : Prop where
  lines : ∀ fileName, (run lib start calls).messagesIn fileName =
    (calls.filter fun call => start.path lib (messageDateString lib call) = fileName).map (logLine lib start.channelName)
  reopened : ∀ before call call', before ++ [call, call'] <+: calls →
    (run lib start (before ++ [call, call'])).openings ≠ (run lib start (before ++ [call])).openings →
    messageDateString lib call' ≠ messageDateString lib call

def OnDate (date : QString) (call : Call QDateTime) : Prop :=
  messageDateString lib call = date ∨ messageDateString lib call = generateDateString lib call.opened

def OnDates : (date : QString) → List (Call QDateTime) → Prop
  | _, [] => True
  | date, call :: calls => OnDate lib date call ∧ OnDates (messageDateString lib call) calls

def lastDate (date : QString) (calls : List (Call QDateTime)) : QString :=
  calls.foldl (fun _ call => messageDateString lib call) date

variable {lib}

theorem onDates_append {date : QString} {calls rest : List (Call QDateTime)} :
    OnDates lib date (calls ++ rest) ↔ OnDates lib date calls ∧ OnDates lib (lastDate lib date calls) rest := by
  induction calls generalizing date with
  | nil => exact ⟨fun h => ⟨trivial, h⟩, And.right⟩
  | cons first calls ih => exact (and_congr_right fun _ => ih).trans and_assoc.symm

theorem onDates_of_reached {date : QString} {reached calls : List (Call QDateTime)} (hPrefix : reached <+: calls)
    (h : OnDates lib date calls) : OnDates lib date reached := by
  obtain ⟨rest, rfl⟩ := hPrefix
  exact (onDates_append.mp h).1

theorem onDates_concat {date : QString} {calls : List (Call QDateTime)} {call : Call QDateTime} :
    OnDates lib date (calls ++ [call]) ↔ OnDates lib date calls ∧ OnDate lib (lastDate lib date calls) call :=
  onDates_append.trans (and_congr_right fun _ => and_iff_left trivial)

theorem run_concat (start : LoggingChannel) (calls : List (Call QDateTime)) (call : Call QDateTime) :
    run lib start (calls ++ [call]) = (run lib start calls).addMessage lib call := List.foldl_concat _ _ _ _

theorem lastDate_concat (date : QString) (calls : List (Call QDateTime)) (call : Call QDateTime) :
    lastDate lib date (calls ++ [call]) = messageDateString lib call := List.foldl_concat _ _ _ _

namespace LoggingChannel

variable (channel : LoggingChannel) (call : Call QDateTime)

variable (lib) in
def opened : LoggingChannel :=
  if messageDateString lib call ≠ channel.dateString then channel.openLogFile lib call.opened else channel

structure LogsLine (line : QString) (channel' : LoggingChannel) : Prop where
  channelName : channel'.channelName = channel.channelName
  directory : channel'.directory = channel.directory
  dateString : channel'.dateString = channel.dateString
  fileName : channel'.fileName = channel.fileName
  messagesIn : ∀ fileName, channel'.messagesIn fileName =
    channel.messagesIn fileName ++ if channel.fileName = fileName then [line] else []
  openings : channel'.openings = channel.openings

theorem logsLine_appendLine (line : QString) :
    channel.LogsLine line (channel.appendLine .fileHandle (.message line)) where
  channelName := rfl
  directory := rfl
  dateString := rfl
  fileName := rfl
  messagesIn fileName := by
    rw [LoggingChannel.messagesIn, appendLine, List.filterMap_append]
    congr 1
    by_cases h : channel.fileName = fileName
    · simp only [h, List.filterMap_cons, List.filterMap_nil, if_true]
    · simp only [h, List.filterMap_cons, List.filterMap_nil, if_false]
  openings := by simp [LoggingChannel.openings, appendLine]

variable {channel}

theorem LogsLine.appendLine {channel' : LoggingChannel} {line : QString} (h : channel.LogsLine line channel')
    (stream : Line) : channel.LogsLine line (channel'.appendLine .currentStreamFileHandle stream) where
  channelName := h.channelName
  directory := h.directory
  dateString := h.dateString
  fileName := h.fileName
  messagesIn fileName := by
    rw [← h.messagesIn fileName, LoggingChannel.messagesIn, LoggingChannel.appendLine, List.filterMap_append]
    simp [LoggingChannel.messagesIn]
  openings := by
    rw [← h.openings]
    simp [LoggingChannel.openings, LoggingChannel.appendLine]

theorem LogsLine.openStreamLogFile {channel' : LoggingChannel} {line : QString} (h : channel.LogsLine line channel')
    (streamID : QString) (now : QDateTime) : channel.LogsLine line (channel'.openStreamLogFile lib streamID now) := by
  have hStream : channel.LogsLine line { channel' with
      currentStreamID := streamID, currentStreamFileName := channel'.path lib streamID } :=
    ⟨h.channelName, h.directory, h.dateString, h.fileName, h.messagesIn, h.openings⟩
  exact hStream.appendLine _

variable (channel)

variable (lib) in
theorem logsLine_appendMessage :
    channel.LogsLine (logLine lib channel.channelName call) (channel.appendMessage lib call) := by
  have hLine := channel.logsLine_appendLine (logLine lib channel.channelName call)
  unfold appendMessage
  dsimp only
  split_ifs
  · exact (hLine.openStreamLogFile _ _).appendLine _
  · exact hLine.appendLine _
  · exact hLine

theorem addMessage_eq : channel.addMessage lib call = (channel.opened lib call).appendMessage lib call := by
  unfold addMessage opened
  dsimp only
  split_ifs <;> rfl

theorem openLogFile_messagesIn (now : QDateTime) (fileName : QString) :
    (channel.openLogFile lib now).messagesIn fileName = channel.messagesIn fileName := by
  rw [messagesIn, openLogFile, appendLine, List.filterMap_append]
  simp [messagesIn]

end LoggingChannel

variable (lib) in
/-- A run whose messages are in the files of their dates has the file of the last date open. -/
structure UpToDate (start : LoggingChannel) (calls : List (Call QDateTime)) (channel : LoggingChannel) : Prop where
  channelName : channel.channelName = start.channelName
  directory : channel.directory = start.directory
  dateString : channel.dateString = lastDate lib start.dateString calls
  fileName : channel.fileName = channel.path lib channel.dateString
  messagesIn : ∀ fileName, channel.messagesIn fileName =
    (calls.filter fun call => start.path lib (messageDateString lib call) = fileName).map (logLine lib start.channelName)

variable {start : LoggingChannel} {calls : List (Call QDateTime)} {channel : LoggingChannel}

theorem UpToDate.path_eq (h : UpToDate lib start calls channel) (date : QString) :
    channel.path lib date = start.path lib date := by
  rw [LoggingChannel.path, LoggingChannel.path, h.channelName, h.directory]

theorem path_inj {date date' : QString} : channel.path lib date = channel.path lib date' ↔ date = date' := by
  simp only [LoggingChannel.path, baseFileName, List.append_cancel_left_eq, List.append_cancel_right_eq]

theorem LoggingChannel.opened_messagesIn (channel : LoggingChannel) (call : Call QDateTime) (fileName : QString) :
    (channel.opened lib call).messagesIn fileName = channel.messagesIn fileName := by
  unfold LoggingChannel.opened
  split_ifs
  · exact channel.openLogFile_messagesIn call.opened fileName
  · rfl

theorem LoggingChannel.addMessage_messagesIn (channel : LoggingChannel) (call : Call QDateTime) (fileName : QString) :
    (channel.addMessage lib call).messagesIn fileName = channel.messagesIn fileName ++
      if (channel.opened lib call).fileName = fileName then [logLine lib channel.channelName call] else [] := by
  have hName : (channel.opened lib call).channelName = channel.channelName := by
    unfold LoggingChannel.opened
    split_ifs <;> rfl
  rw [channel.addMessage_eq, ((channel.opened lib call).logsLine_appendMessage lib call).messagesIn, channel.opened_messagesIn, hName]

theorem expected_concat (start : LoggingChannel) (calls : List (Call QDateTime)) (call : Call QDateTime) (fileName : QString) :
    ((calls ++ [call]).filter fun call => start.path lib (messageDateString lib call) = fileName).map
        (logLine lib start.channelName) =
      (calls.filter fun call => start.path lib (messageDateString lib call) = fileName).map (logLine lib start.channelName) ++
        if start.path lib (messageDateString lib call) = fileName then [logLine lib start.channelName call] else [] := by
  rw [List.filter_append, List.map_append]
  congr 1
  by_cases hPath : start.path lib (messageDateString lib call) = fileName <;> simp [hPath]

theorem UpToDate.opened_fileName_iff (h : UpToDate lib start calls channel) (call : Call QDateTime) :
    (channel.opened lib call).fileName = start.path lib (messageDateString lib call) ↔
      OnDate lib (lastDate lib start.dateString calls) call := by
  unfold LoggingChannel.opened
  rw [OnDate, ← h.dateString, ← h.path_eq]
  split_ifs with hDate
  · rw [or_iff_right hDate, eq_comm]
    exact path_inj
  · rw [h.fileName, path_inj, eq_comm]
    exact (or_iff_left_of_imp fun _ => not_not.mp hDate).symm

theorem UpToDate.addMessage (h : UpToDate lib start calls channel) {call : Call QDateTime}
    (hDate : OnDate lib (lastDate lib start.dateString calls) call) :
    UpToDate lib start (calls ++ [call]) (channel.addMessage lib call) := by
  have hLogs := (channel.opened lib call).logsLine_appendMessage lib call
  rw [← channel.addMessage_eq] at hLogs
  have hFile := (h.opened_fileName_iff call).mpr hDate
  have hKept : (channel.opened lib call).channelName = channel.channelName ∧
      (channel.opened lib call).directory = channel.directory ∧
      (channel.opened lib call).dateString = messageDateString lib call := by
    rw [OnDate, ← h.dateString] at hDate
    unfold LoggingChannel.opened
    split_ifs with hOther
    · exact ⟨rfl, rfl, ((or_iff_right hOther).mp hDate).symm⟩
    · exact ⟨rfl, rfl, (not_not.mp hOther).symm⟩
  constructor
  · rw [hLogs.channelName, hKept.1, h.channelName]
  · rw [hLogs.directory, hKept.2.1, h.directory]
  · rw [hLogs.dateString, hKept.2.2, lastDate_concat]
  · rw [hLogs.fileName, hFile, hLogs.dateString, hKept.2.2, LoggingChannel.path, LoggingChannel.path, hLogs.channelName,
      hLogs.directory, hKept.1, hKept.2.1, h.channelName, h.directory]
  · intro fileName
    rw [channel.addMessage_messagesIn, h.messagesIn, hFile, h.channelName, expected_concat]

theorem UpToDate.onDate_of_lines (h : UpToDate lib start calls channel) {call : Call QDateTime}
    (hLines : ∀ fileName, (channel.addMessage lib call).messagesIn fileName =
      ((calls ++ [call]).filter fun call => start.path lib (messageDateString lib call) = fileName).map
        (logLine lib start.channelName)) :
    OnDate lib (lastDate lib start.dateString calls) call := by
  rw [← h.opened_fileName_iff]
  by_contra hFile
  have hLine := hLines (channel.opened lib call).fileName
  rw [channel.addMessage_messagesIn, expected_concat, h.messagesIn, if_pos rfl, if_neg fun hPath => hFile hPath.symm] at hLine
  exact List.cons_ne_nil _ _ (List.append_cancel_left hLine)

theorem UpToDate.openings_eq (h : UpToDate lib start calls channel) {call : Call QDateTime}
    (hDate : messageDateString lib call = lastDate lib start.dateString calls) :
    (channel.addMessage lib call).openings = channel.openings := by
  have hOpened : channel.opened lib call = channel := if_neg (not_not.mpr (hDate.trans h.dateString.symm))
  rw [channel.addMessage_eq, ((channel.opened lib call).logsLine_appendMessage lib call).openings, hOpened]

variable (lib) in
theorem upToDate_new (channelName platform baseDirectory : QString) (now : QDateTime) :
    UpToDate lib (LoggingChannel.new lib channelName platform baseDirectory now) []
      (LoggingChannel.new lib channelName platform baseDirectory now) where
  channelName := rfl
  directory := rfl
  dateString := rfl
  fileName := rfl
  messagesIn fileName := (LoggingChannel.openLogFile_messagesIn _ now fileName).trans rfl

theorem upToDate_run (hStart : UpToDate lib start [] start) (calls : List (Call QDateTime))
    (hDates : OnDates lib start.dateString calls) : UpToDate lib start calls (run lib start calls) := by
  induction calls using List.reverseRecOn with
  | nil => exact hStart
  | append_singleton calls call ih =>
    rw [onDates_concat] at hDates
    rw [run_concat]
    exact (ih hDates.1).addMessage hDates.2

theorem wellLogged_of_onDates (hStart : UpToDate lib start [] start)
    (hDates : OnDates lib start.dateString calls) : WellLogged lib start calls where
  lines := (upToDate_run hStart calls hDates).messagesIn
  reopened before call call' hPrefix hOpened hSame := by
    have hBefore : OnDates lib start.dateString (before ++ [call] ++ [call']) := by
      rw [List.append_assoc]
      exact onDates_of_reached hPrefix hDates
    apply hOpened
    rw [List.append_cons, run_concat]
    exact (upToDate_run hStart _ (onDates_concat.mp hBefore).1).openings_eq (hSame.trans (lastDate_concat _ _ _).symm)

/-- Each message is logged in the file of its date exactly if each message is of the date of the one before or of the
day on which its file is opened. -/
theorem wellLogged_iff_onDates (channelName platform baseDirectory : QString) (now : QDateTime) (calls : List (Call QDateTime)) :
    (∀ reached, reached <+: calls →
        WellLogged lib (LoggingChannel.new lib channelName platform baseDirectory now) reached) ↔
      OnDates lib (generateDateString lib now) calls := by
  have hStart := upToDate_new lib channelName platform baseDirectory now
  constructor
  · intro hAll
    induction calls using List.reverseRecOn with
    | nil => trivial
    | append_singleton calls call ih =>
      have hDates := ih fun reached hPrefix => hAll reached (hPrefix.trans (List.prefix_append calls [call]))
      refine onDates_concat.mpr ⟨hDates, ?_⟩
      have hLines := (hAll _ List.prefix_rfl).lines
      rw [run_concat] at hLines
      exact (upToDate_run hStart calls hDates).onDate_of_lines hLines
  · intro hDates reached hPrefix
    exact wellLogged_of_onDates hStart (onDates_of_reached hPrefix hDates)

end

structure Moment where
  date : QString
  time : QString

def Moment.library : Library Moment where
  toString moment format :=
    if format = lit "yyyy-MM-dd" then moment.date
    else if format = lit "yyyy-MM-dd HH:mm:ss " then moment.date ++ lit " " ++ moment.time ++ lit " "
    else moment.time
  timeZoneAbbreviation _ := lit "UTC"
  toUpper c := if 0x61 ≤ c ∧ c ≤ 0x7A then c - 0x20 else c
  toLower s := s.map fun c => if 0x41 ≤ c ∧ c ≤ 0x5A then c + 0x20 else c
  separator := lit "/"

def delayedMessage : Call Moment where
  message := {
    serverReceivedTime := some ⟨lit "2024-01-01", lit "23:59:59"⟩
    loginName := lit "pajlada"
    messageText := lit "hello" }
  now := ⟨lit "2024-01-02", lit "00:00:01"⟩
  opened := ⟨lit "2024-01-02", lit "00:00:01"⟩
  streamOpened := ⟨lit "2024-01-02", lit "00:00:01"⟩

theorem not_wellLogged_delayedMessage :
    ¬ WellLogged Moment.library (LoggingChannel.new Moment.library (lit "forsen") (lit "twitch") (lit "logs")
      ⟨lit "2024-01-02", lit "00:00:00"⟩) [delayedMessage] := by
  intro h
  have hLines := h.lines (lit "logs/Twitch/Channels/forsen/forsen-2024-01-02.log")
  exact absurd hLines (by decide)

end Chatterino.Logging
