import Chatterino.Filters.Execute
import Chatterino.Filters.ParserSoundness
import Chatterino.Messages.Message

/-! # Filters

A filter is an expression that parses and has a type.
-/

namespace Chatterino.Filters

open QString

/-- The types of the identifiers. -/
def MESSAGE_TYPING_CONTEXT : TypingContext :=
  [(lit "author.badges", .StringList),
    (lit "author.color", .Color),
    (lit "author.name", .String),
    (lit "author.user_id", .String),
    (lit "author.no_color", .Bool),
    (lit "author.subbed", .Bool),
    (lit "author.sub_length", .Int),
    (lit "channel.name", .String),
    (lit "channel.watching", .Bool),
    (lit "channel.live", .Bool),
    (lit "flags.action", .Bool),
    (lit "flags.highlighted", .Bool),
    (lit "flags.points_redeemed", .Bool),
    (lit "flags.sub_message", .Bool),
    (lit "flags.system_message", .Bool),
    (lit "flags.reward_message", .Bool),
    (lit "flags.first_message", .Bool),
    (lit "flags.elevated_message", .Bool),
    (lit "flags.hype_chat", .Bool),
    (lit "flags.cheer_message", .Bool),
    (lit "flags.whisper", .Bool),
    (lit "flags.reply", .Bool),
    (lit "flags.automod", .Bool),
    (lit "flags.restricted", .Bool),
    (lit "flags.monitored", .Bool),
    (lit "flags.shared", .Bool),
    (lit "flags.similar", .Bool),
    (lit "message.content", .String),
    (lit "message.length", .Int),
    (lit "reward.title", .String),
    (lit "reward.cost", .Int),
    (lit "reward.id", .String)]

def explainIllType (ill : IllTyped) : QString :=
  ((lit "%1\n\nProblem occurred here:\n%2").arg ill.message).arg ill.expr.filterString

def parseText (text : QString) : Expression × ParserState :=
  (parseTokens (tokensOf text)).get (parseTokens_isSome _)

theorem parseText_eq {text : QString} {result : Expression × ParserState}
    (h : parseTokens (tokensOf text) = some result) : parseText text = result := by
  simp [parseText, h]

structure Filter where
  expression_ : Expression
  returnType_ : FilterType
  wellTyped : expression_.synthesizeType MESSAGE_TYPING_CONTEXT = .ok returnType_

namespace Filter

def ofExpression (e : Expression) : Except IllTyped Filter :=
  match h : e.synthesizeType MESSAGE_TYPING_CONTEXT with
  | .ok returnType_ => .ok ⟨e, returnType_, h⟩
  | .error ill => .error ill

def fromString (text : QString) : Except QString Filter :=
  let parser := (parseText text).2
  if parser.valid_ then
    match ofExpression (parseText text).1 with
    | .ok filter => .ok filter
    | .error ill => .error ((lit "\n").intercalate (parser.errorLog (explainIllType ill)).parseLog_)
  else .error ((lit "\n").intercalate parser.parseLog_)

def execute (qt : QtLibrary) (context : ContextMap) (filter : Filter) : Except Trap QVariant :=
  filter.expression_.execute int32Result qt context

def filterString (filter : Filter) : QString := filter.expression_.filterString

theorem ofExpression_eq_ok {e : Expression} {filter : Filter} :
    ofExpression e = .ok filter ↔ e = filter.expression_ := by
  obtain ⟨e', T, hType⟩ := filter
  unfold ofExpression
  split
  · rename_i T' hType'
    simp only [Except.ok.injEq, mk.injEq]
    constructor
    · rintro ⟨rfl, -⟩
      rfl
    · rintro rfl
      exact ⟨rfl, Except.ok.inj (hType'.symm.trans hType)⟩
  · rename_i ill hType'
    constructor
    · exact nofun
    · rintro rfl
      cases hType'.symm.trans hType

theorem fromString_eq_ok {text : QString} {filter : Filter} :
    fromString text = .ok filter ↔
      (parseText text).2.valid_ = true ∧ (parseText text).1 = filter.expression_ := by
  rw [← ofExpression_eq_ok]
  simp only [fromString]
  cases hValid : (parseText text).2.valid_ with
  | false => simp
  | true => cases hFilter : ofExpression (parseText text).1 <;> simp

theorem fromString_iff_derives {text : QString} {filter : Filter} :
    fromString text = .ok filter ↔ Derives .expr (tokensOf text) filter.expression_ := by
  rw [fromString_eq_ok]
  constructor
  · rintro ⟨hValid, hTree⟩
    refine derives_of_parseTokens (p := (parseText text).2) ?_ hValid
    rw [← hTree]
    exact (Option.some_get _).symm
  · intro h
    obtain ⟨p, hParse, hValid⟩ := parseTokens_of_derives h
    rw [parseText_eq hParse]
    exact ⟨hValid, rfl⟩

end Filter

theorem lookup_mem {context : TypingContext} {name : QString} {T : FilterType}
    (h : context.lookup name = some T) : (name, T) ∈ context := by
  obtain ⟨before, after, rfl, -⟩ := List.lookup_eq_some_iff.mp h
  simp

theorem identifier_type {name : QString} {T : FilterType}
    (h : MESSAGE_TYPING_CONTEXT.lookup name = some T) :
    T = .String ∨ T = .Int ∨ T = .Bool ∨ T = .Color ∨ T = .StringList := by
  have hAll : ∀ entry ∈ MESSAGE_TYPING_CONTEXT, entry.2 = .String ∨ entry.2 = .Int ∨
      entry.2 = .Bool ∨ entry.2 = .Color ∨ entry.2 = .StringList := by decide
  exact hAll _ (lookup_mem h)

namespace Expression

theorem synthesizeType_identifier {context : TypingContext} {name : QString} {T : FilterType}
    (h : synthesizeType context (.identifier name) = .ok T) : context.lookup name = some T := by
  rw [synthesizeType] at h
  split at h
  · rename_i T' hLookup
    rw [hLookup, Except.ok.inj h]
  · cases h

variable {context : TypingContext}

theorem synthesizeType_binaryOperation {op : TokenType} {left right : Expression} {T : FilterType}
    (h : synthesizeType context (.binaryOperation op left right) = .ok T) :
    ∃ l r, synthesizeType context left = .ok l ∧ synthesizeType context right = .ok r ∧
      binaryOperationType (.binaryOperation op left right) op l r = .ok T := by
  rw [synthesizeType] at h
  cases hLeft : synthesizeType context left with
  | error ill => rw [hLeft] at h; cases h
  | ok l =>
    cases hRight : synthesizeType context right with
    | error ill => rw [hLeft, hRight] at h; cases h
    | ok r =>
      rw [hLeft, hRight] at h
      exact ⟨l, r, rfl, rfl, h⟩

theorem synthesizeType_unaryOperation {op : TokenType} {right : Expression} {T : FilterType}
    (h : synthesizeType context (.unaryOperation op right) = .ok T) :
    synthesizeType context right = .ok .Bool ∧ op = .NOT ∧ T = .Bool := by
  rw [synthesizeType] at h
  cases hRight : synthesizeType context right with
  | error ill => rw [hRight] at h; cases h
  | ok r =>
    rw [hRight] at h
    change unaryOperationType _ op r = .ok T at h
    cases op
    case NOT =>
      simp only [unaryOperationType] at h
      split at h
      · rename_i hBool
        exact ⟨by rw [hBool], rfl, (Except.ok.inj h).symm⟩
      · cases h
    all_goals cases h

theorem synthesizeTypes_forall₂ {es : List Expression} {types : List FilterType}
    (h : synthesizeTypes context es = .ok types) :
    List.Forall₂ (fun e T => synthesizeType context e = .ok T) es types := by
  induction es generalizing types with
  | nil =>
    obtain rfl := Except.ok.inj h
    exact .nil
  | cons e es ih =>
    rw [synthesizeTypes] at h
    cases hHead : synthesizeType context e with
    | error ill => rw [hHead] at h; cases h
    | ok T =>
      cases hTail : synthesizeTypes context es with
      | error ill => rw [hHead, hTail] at h; cases h
      | ok types' =>
        rw [hHead, hTail] at h
        obtain rfl := Except.ok.inj h
        exact .cons hHead (ih hTail)

theorem synthesizeType_listExpression {es : List Expression} {T : FilterType}
    (h : synthesizeType context (.listExpression es) = .ok T) :
    ∃ types, List.Forall₂ (fun e T => synthesizeType context e = .ok T) es types ∧
      T = listExpressionType types := by
  rw [synthesizeType] at h
  cases hTypes : synthesizeTypes context es with
  | error ill => rw [hTypes] at h; cases h
  | ok types =>
    rw [hTypes] at h
    exact ⟨types, synthesizeTypes_forall₂ hTypes, (Except.ok.inj h).symm⟩

theorem exists_type_of_mem {es : List Expression} {types : List FilterType} {e : Expression}
    (h : List.Forall₂ (fun e T => synthesizeType context e = .ok T) es types) (he : e ∈ es) :
    ∃ T, synthesizeType context e = .ok T := by
  induction h with
  | nil => cases he
  | cons hHead hTail ih =>
    rcases List.mem_cons.mp he with rfl | he
    · exact ⟨_, hHead⟩
    · exact ih he

end Expression

theorem binaryOperationType_cases {self : Expression} {op : TokenType} {l r T : FilterType}
    (h : binaryOperationType self op l r = .ok T) :
    (op = .PLUS ∧ l = .String ∧ T = .String) ∨
    (op.typeIsMathOp = true ∧ l = .Int ∧ r = .Int ∧ T = .Int) ∨
    (op = .MATCH ∧ l = .String ∧
      (r = .RegularExpression ∧ T = .Bool ∨ r = .MatchingSpecifier ∧ T = .String)) ∨
    (op.typeIsMathOp = false ∧ op ≠ .MATCH ∧ T = .Bool) := by
  cases op
  case PLUS =>
    simp only [binaryOperationType] at h
    split at h
    · rename_i hString
      exact .inl ⟨rfl, hString, (Except.ok.inj h).symm⟩
    · split at h
      · rename_i hInt
        exact .inr (.inl ⟨rfl, hInt.1, hInt.2, (Except.ok.inj h).symm⟩)
      · cases h
  case MINUS | MULTIPLY | DIVIDE | MOD =>
    simp only [binaryOperationType] at h
    split at h
    · rename_i hInt
      exact .inr (.inl ⟨rfl, hInt.1, hInt.2, (Except.ok.inj h).symm⟩)
    · cases h
  case MATCH =>
    simp only [binaryOperationType] at h
    split at h
    · cases h
    · rename_i hString
      refine .inr (.inr (.inl ⟨rfl, not_not.mp hString, ?_⟩))
      split at h
      · rename_i hRegex
        exact .inl ⟨hRegex, (Except.ok.inj h).symm⟩
      · split at h
        · rename_i hSpecifier
          exact .inr ⟨hSpecifier, (Except.ok.inj h).symm⟩
        · cases h
  case EQ | NEQ => exact .inr (.inr (.inr ⟨rfl, nofun, (Except.ok.inj h).symm⟩))
  case OR | AND | LT | GT | LTE | GTE =>
    simp only [binaryOperationType] at h
    split at h
    · exact .inr (.inr (.inr ⟨rfl, nofun, (Except.ok.inj h).symm⟩))
    · cases h
  case CONTAINS | STARTS_WITH | ENDS_WITH =>
    simp only [binaryOperationType] at h
    split at h
    · exact .inr (.inr (.inr ⟨rfl, nofun, (Except.ok.inj h).symm⟩))
    · split at h
      · exact .inr (.inr (.inr ⟨rfl, nofun, (Except.ok.inj h).symm⟩))
      · cases h
  all_goals cases h

open QVariant

structure ChannelPointReward where
  id : QString
  title : QString
  cost : Int

/-- A message with the fields that only a filter reads. A badge is kept as its key. -/
structure FilteredMessage extends Message where
  displayName : QString
  userID : QString
  channelName : QString
  usernameColor : QColor
  badges : List QString
  badgeInfos : List (QString × QString)
  reward : Option ChannelPointReward

structure TwitchChannel where
  name : QString
  isLive : Bool

/-- What the badges say of a subscription, and of its length. The last of the two badges counts. -/
def subscription (m : FilteredMessage) : Bool × Int :=
  [lit "subscriber", lit "founder"].foldl (fun (subscribed, subLength) subBadge =>
    if subBadge ∈ m.badges then
      (true, match m.badgeInfos.lookup subBadge with
        | some info => info.toInt.getD 0
        | none => subLength)
    else (subscribed, subLength)) (false, 0)

/-- `watchingChannel` is the name of the channel that is watched, `channel` the channel of the
message if it is one of Twitch. -/
def buildContextMap (qt : QtLibrary) (watchingChannel : QString) (m : FilteredMessage)
    (channel : Option TwitchChannel) : ContextMap :=
  let watching := !watchingChannel.isEmpty && qt.equalsCaseInsensitive watchingChannel m.channelName
  let (subscribed, subLength) := subscription m
  let live := match channel with
    | some tc => !tc.name.isEmpty && tc.isLive
    | none => false
  let flag := fun flag => bool (m.flags.has flag)
  [(lit "author.badges", stringList m.badges),
    (lit "author.color", color m.usernameColor),
    (lit "author.name", string m.displayName),
    (lit "author.user_id", string m.userID),
    (lit "author.no_color", bool !m.usernameColor.isValid),
    (lit "author.subbed", bool subscribed),
    (lit "author.sub_length", int subLength),
    (lit "channel.name", string m.channelName),
    (lit "channel.watching", bool watching),
    (lit "channel.live", bool live),
    (lit "flags.action", flag .Action),
    (lit "flags.highlighted", flag .Highlighted),
    (lit "flags.points_redeemed", flag .RedeemedHighlight),
    (lit "flags.sub_message", flag .Subscription),
    (lit "flags.system_message", flag .System),
    (lit "flags.reward_message", flag .RedeemedChannelPointReward),
    (lit "flags.first_message", flag .FirstMessage),
    (lit "flags.elevated_message", flag .ElevatedMessage),
    (lit "flags.hype_chat", flag .ElevatedMessage),
    (lit "flags.cheer_message", flag .CheerMessage),
    (lit "flags.whisper", flag .Whisper),
    (lit "flags.reply", flag .ReplyMessage),
    (lit "flags.automod", flag .AutoMod),
    (lit "flags.restricted", flag .RestrictedMessage),
    (lit "flags.monitored", flag .MonitoredMessage),
    (lit "flags.shared", flag .SharedMessage),
    (lit "flags.similar", flag .Similar),
    (lit "message.content", string m.messageText),
    (lit "message.length", longLong m.messageText.length),
    (lit "reward.title", string ((m.reward.map (·.title)).getD [])),
    (lit "reward.cost", int ((m.reward.map (·.cost)).getD (-1))),
    (lit "reward.id", string ((m.reward.map (·.id)).getD []))]

/-- The type an identifier's value is stored with. A length is a 64-bit integer. -/
def identifierMetaType (name : QString) : FilterType → MetaType
  | .String => .QString
  | .Int => if name = lit "message.length" then .LongLong else .Int
  | .Bool => .Bool
  | .Color => .QColor
  | .RegularExpression => .QRegularExpression
  | .StringList => .QStringList
  | .List | .MatchingSpecifier => .QVariantList
  | .Map => .QVariantMap

def ContextTyped (context : ContextMap) : Prop :=
  ∀ name T, MESSAGE_TYPING_CONTEXT.lookup name = some T →
    (context.value name).metaType = identifierMetaType name T

theorem value_of_forall₂ {context : ContextMap} {types : TypingContext}
    (h : List.Forall₂ (fun entry type => entry.1 = type.1 ∧
      entry.2.metaType = identifierMetaType type.1 type.2) context types) (name : QString)
    (T : FilterType) (hLookup : types.lookup name = some T) :
    (context.value name).metaType = identifierMetaType name T := by
  induction h with
  | nil => cases hLookup
  | @cons entry type context types hHead hTail ih =>
    obtain ⟨key, v⟩ := entry
    obtain ⟨key', T'⟩ := type
    obtain ⟨rfl, hType⟩ := hHead
    rw [List.lookup_cons] at hLookup
    rw [ContextMap.value, List.lookup_cons]
    split at hLookup
    · rename_i hKey
      obtain rfl := Option.some.inj hLookup
      obtain rfl := beq_iff_eq.mp hKey
      simpa using hType
    · rename_i hKey
      rw [hKey]
      exact ih hLookup

theorem contextTyped_buildContextMap (qt : QtLibrary) (watchingChannel : QString)
    (m : FilteredMessage) (channel : Option TwitchChannel) :
    ContextTyped (buildContextMap qt watchingChannel m channel) := by
  refine value_of_forall₂ ?_
  unfold buildContextMap MESSAGE_TYPING_CONTEXT
  repeat first | exact .nil | refine .cons ⟨rfl, rfl⟩ ?_

end Chatterino.Filters
