import Chatterino.Lib.Run
import Chatterino.Qt.QString

/-! # The YouTube account

The tokens are kept in the account, in the keychain, and by older builds in the settings. A sign-in is an exchange of a
code, or tokens that are set at once.
-/

namespace Chatterino.YouTube

structure YouTubeAccount where
  accessToken_ : QString := []
  refreshToken_ : QString := []
  channelId_ : QString := []
  displayName_ : QString := []
  /-- In seconds. -/
  expiresAt_ : Option Int := none
deriving DecidableEq

structure AccountSettings where
  /-- The plain tokens of older builds. -/
  accessToken : Option QString := none
  refreshToken : Option QString := none
  expiresAt : Option Int := none
  channelId : QString := []
  displayName : QString := []
deriving DecidableEq

structure StoredTokens where
  accessToken : QString := []
  refreshToken : QString := []
deriving DecidableEq

structure TokenReply where
  error : Bool := false
  accessToken : QString := []
  refreshToken : QString := []
  expiresIn : Int := 0
deriving DecidableEq

inductive TokenKind where
  | access
  | refresh
deriving DecidableEq

structure AccountState where
  account : YouTubeAccount := {}
  settings : AccountSettings := {}
  stored : StoredTokens := {}
  /-- The reads of the keychain that have no answer yet. -/
  reads : List TokenKind := []
  refreshes : Nat := 0
  /-- The exchanges under way, each with the number of clears before it. -/
  exchanges : List Nat := []
  identities : Nat := 0
  clears : Nat := 0
  /-- A sign-in that was started after the last clear has completed. -/
  signedIn : Bool := false
  /-- How often the account was saved since the last clear. -/
  saves : Nat := 0
  wiped : Bool := false
deriving DecidableEq

inductive AccountEvent where
  | load
  | keychainAnswered (index : Nat) (token : QString)
  | clear
  | setTokens (accessToken refreshToken : QString) (expiresInSeconds now : Int)
  | setIdentity (channelId displayName : QString)
  | withFreshToken (now : Int)
  | refreshToken
  | refreshReplied (reply : TokenReply) (now : Int)
  | exchangeCode
  | exchangeReplied (index : Nat) (reply : TokenReply) (now : Int)
  /-- The channel of the user, if there is one. -/
  | identityReplied (channel : Option (QString × QString))
deriving DecidableEq

namespace YouTubeAccount

variable (account : YouTubeAccount)

def isAuthenticated : Bool := account.accessToken_ ≠ [] || account.refreshToken_ ≠ []

def needsRefresh (now : Int) : Bool :=
  account.accessToken_ = [] || account.expiresAt_.any fun expiresAt => expiresAt - now < 60

def withTokens (accessToken refreshToken : QString) (expiresInSeconds now : Int) : YouTubeAccount :=
  { account with
    accessToken_ := accessToken,
    refreshToken_ := if refreshToken ≠ [] then refreshToken else account.refreshToken_,
    expiresAt_ := some (now + max 0 expiresInSeconds) }

def loaded (kind : TokenKind) (token : QString) : YouTubeAccount :=
  match kind with
  | .access => if account.accessToken_ = [] then { account with accessToken_ := token } else account
  | .refresh => if account.refreshToken_ = [] then { account with refreshToken_ := token } else account

end YouTubeAccount

def StoredTokens.LosesTo (stored : StoredTokens) (account : YouTubeAccount) : Prop :=
  (stored.accessToken ≠ [] ∧ account.accessToken_ = []) ∨ (stored.refreshToken ≠ [] ∧ account.refreshToken_ = [])

instance (stored : StoredTokens) (account : YouTubeAccount) : Decidable (stored.LosesTo account) :=
  inferInstanceAs (Decidable (_ ∨ _))

namespace AccountState

variable (state : AccountState)

def save : AccountState :=
  { state with
    settings :=
      { state.settings with
        expiresAt := state.account.expiresAt_, channelId := state.account.channelId_,
        displayName := state.account.displayName_ },
    stored := { accessToken := state.account.accessToken_, refreshToken := state.account.refreshToken_ },
    saves := state.saves + 1,
    wiped := state.wiped || decide (state.stored.LosesTo state.account) }

def setTokens (accessToken refreshToken : QString) (expiresInSeconds now : Int) : AccountState :=
  { state with account := state.account.withTokens accessToken refreshToken expiresInSeconds now }.save

def setIdentity (channelId displayName : QString) : AccountState :=
  { state with account := { state.account with channelId_ := channelId, displayName_ := displayName } }.save

def clear : AccountState :=
  { state with
    account := {}, settings := {}, stored := {}, clears := state.clears + 1, signedIn := false, saves := 0 }

def fromSettings : AccountState :=
  { state with
    account :=
      { state.account with
        channelId_ := state.settings.channelId, displayName_ := state.settings.displayName,
        expiresAt_ := state.settings.expiresAt } }

def migrate : AccountState :=
  { state with
    account :=
      { state.account with
        accessToken_ := state.settings.accessToken.getD [], refreshToken_ := state.settings.refreshToken.getD [] },
    settings := { state.settings with accessToken := none, refreshToken := none } }.save

def load : AccountState :=
  if state.settings.accessToken.isSome || state.settings.refreshToken.isSome then state.fromSettings.migrate
  else if state.settings.expiresAt.isNone then state.fromSettings
  else { state.fromSettings with reads := state.reads ++ [.access, .refresh] }

def keychainAnswered (index : Nat) (token : QString) : AccountState :=
  match state.reads[index]? with
  | none => state
  | some kind => { state with account := state.account.loaded kind token, reads := state.reads.eraseIdx index }

def refreshToken : AccountState :=
  if state.account.refreshToken_ = [] then state else { state with refreshes := state.refreshes + 1 }

def withFreshToken (now : Int) : AccountState :=
  if state.account.isAuthenticated && state.account.needsRefresh now then state.refreshToken else state

def refreshReplied (reply : TokenReply) (now : Int) : AccountState :=
  if state.refreshes = 0 then state
  else
    let replied := { state with refreshes := state.refreshes - 1 }
    if reply.error then replied
    else replied.setTokens reply.accessToken reply.refreshToken reply.expiresIn now

def exchangeCode : AccountState := { state with exchanges := state.exchanges ++ [state.clears] }

/-- The channel of the user is asked for with the new token. -/
def exchangeReplied (index : Nat) (reply : TokenReply) (now : Int) : AccountState :=
  match state.exchanges[index]? with
  | none => state
  | some startedAt =>
    let replied := { state with exchanges := state.exchanges.eraseIdx index }
    if reply.error then replied
    else
      let signedIn := replied.setTokens reply.accessToken reply.refreshToken reply.expiresIn now
      { signedIn with
        identities := signedIn.identities + 1,
        signedIn := signedIn.signedIn || decide (startedAt = state.clears) }

def identityReplied (channel : Option (QString × QString)) : AccountState :=
  if state.identities = 0 then state
  else
    let replied := { state with identities := state.identities - 1 }
    match channel with
    | none => replied
    | some (channelId, displayName) => replied.setIdentity channelId displayName

def step (state : AccountState) : AccountEvent → AccountState
  | .load => state.load
  | .keychainAnswered index token => state.keychainAnswered index token
  | .clear => state.clear
  | .setTokens accessToken refreshToken expiresInSeconds now =>
    { state.setTokens accessToken refreshToken expiresInSeconds now with signedIn := true }
  | .setIdentity channelId displayName => state.setIdentity channelId displayName
  | .withFreshToken now => state.withFreshToken now
  | .refreshToken => state.refreshToken
  | .refreshReplied reply now => state.refreshReplied reply now
  | .exchangeCode => state.exchangeCode
  | .exchangeReplied index reply now => state.exchangeReplied index reply now
  | .identityReplied channel => state.identityReplied channel

end AccountState

end Chatterino.YouTube
