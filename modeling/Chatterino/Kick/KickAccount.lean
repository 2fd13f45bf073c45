import Chatterino.Qt.QJson

/-! # The Kick account and the refresh of its token

One refresh runs at a time. It is repeated after a delay when it fails for a transient reason.
-/

namespace Chatterino.Kick

open QJsonObject

/-- The step at which a refresh is, with the number of attempts that failed before. -/
inductive Refresh where
  | requested (retryAttempt : Nat)
  | delayed (retryAttempt delayMs : Nat)
deriving DecidableEq

structure KickAccount where
  username_ : QString := []
  userId_ : Int := 0
  accessToken_ : QString
  refreshToken_ : QString
  /-- In milliseconds. -/
  expiresAt_ : Int
  refresh : Option Refresh := none
deriving DecidableEq

inductive NetworkError where
  | TimeoutError
  | TemporaryNetworkFailureError
  | NetworkSessionFailedError
  | other
deriving DecidableEq

structure RefreshReply where
  error : Option NetworkError := none
  statusCode : Int := 200
  /-- The object that was sent, if it is one. -/
  object : Option (QJsonObject ℚ) := none

namespace RefreshReply

variable (reply : RefreshReply)

def IsTransient : Prop :=
  reply.error = some .TimeoutError ∨ reply.error = some .TemporaryNetworkFailureError ∨
    reply.error = some .NetworkSessionFailedError ∨ (500 ≤ reply.statusCode ∧ reply.statusCode < 600)

instance : Decidable reply.IsTransient := inferInstanceAs (Decidable (_ ∨ _))

structure Tokens where
  accessToken : QString
  refreshToken : Option QString
  expiresIn : Int
deriving DecidableEq

def toInt (default : Int) : QJsonValue ℚ → Int
  | .double value => if value.den = 1 ∧ IsInt32 value.num then value.num else default
  | _ => default

def tokens (object : QJsonObject ℚ) : Tokens where
  accessToken := (value "access_token" object).toString
  refreshToken := if contains "refresh_token" object then some (value "refresh_token" object).toString else none
  expiresIn := toInt 3600 (value "expires_in" object)

inductive Outcome where
  | failed (authenticationChanged : Bool)
  | repeated
  | renewed (tokens : Tokens)
deriving DecidableEq

def MAX_REFRESH_RETRIES : Nat := 2

def outcome (retryAttempt : Nat) : Outcome :=
  if reply.error.isSome then
    if reply.IsTransient ∧ retryAttempt < MAX_REFRESH_RETRIES then .repeated else .failed true
  else
    match reply.object with
    | none => .failed false
    | some object =>
      if contains "error" object then .failed true
      else if (tokens object).accessToken = [] then .failed false
      else .renewed (tokens object)

end RefreshReply

namespace KickAccount

variable (account : KickAccount)

def isTokenExpired (now : Int) : Bool := account.expiresAt_ ≤ now

def isAuthenticated (now : Int) : Bool := account.accessToken_ ≠ [] && !account.isTokenExpired now

def refreshAccessToken : KickAccount × Bool :=
  if account.refreshToken_ = [] then (account, true)
  else if account.refresh.isSome then (account, false)
  else ({ account with refresh := some (.requested 0) }, false)

def renew (tokens : RefreshReply.Tokens) (now : Int) : KickAccount :=
  { account with
    accessToken_ := tokens.accessToken,
    refreshToken_ := tokens.refreshToken.getD account.refreshToken_,
    expiresAt_ := now + 1000 * tokens.expiresIn,
    refresh := none }

def refreshed (retryAttempt : Nat) (now : Int) : RefreshReply.Outcome → KickAccount
  | .failed _ => { account with refresh := none }
  | .repeated => { account with refresh := some (.delayed retryAttempt (1000 * 2 ^ retryAttempt)) }
  | .renewed tokens => account.renew tokens now

def refreshTimerFires : KickAccount :=
  match account.refresh with
  | some (.delayed retryAttempt _) => { account with refresh := some (.requested (retryAttempt + 1)) }
  | _ => account

variable {account}

theorem isTokenExpired_of_isAuthenticated {now : Int} (h : account.isAuthenticated now = true) :
    account.isTokenExpired now = false := by
  unfold isAuthenticated at h
  simp only [Bool.and_eq_true, Bool.not_eq_true'] at h
  exact h.2

theorem isAuthenticated_renew (tokens : RefreshReply.Tokens) (now : Int) (hToken : tokens.accessToken ≠ []) :
    (account.renew tokens now).isAuthenticated now = true ↔ 0 < tokens.expiresIn := by
  have hExpired : (account.renew tokens now).isTokenExpired now = decide (now + 1000 * tokens.expiresIn ≤ now) := rfl
  have hAccess : decide ((account.renew tokens now).accessToken_ ≠ []) = true := decide_eq_true hToken
  rw [isAuthenticated, hExpired, hAccess, Bool.true_and, Bool.not_eq_true', decide_eq_false_iff_not]
  constructor
  · intro hLater
    omega
  · intro hLater
    omega

theorem refreshAccessToken_of_ne (hToken : account.refreshToken_ ≠ []) :
    account.refreshAccessToken = ({ account with refresh := some (account.refresh.getD (.requested 0)) }, false) := by
  unfold refreshAccessToken
  rw [if_neg hToken]
  cases hRefresh : account.refresh with
  | none => rfl
  | some refresh => rw [if_pos Option.isSome_some, Option.getD_some, ← hRefresh]

theorem isSome_refreshTimerFires : account.refreshTimerFires.refresh.isSome = account.refresh.isSome := by
  unfold refreshTimerFires
  split
  · rename_i hRefresh
    rw [hRefresh]
    rfl
  · rfl

theorem refreshToken_refreshTimerFires : account.refreshTimerFires.refreshToken_ = account.refreshToken_ := by
  unfold refreshTimerFires
  split
  · rfl
  · rfl

theorem accessToken_of_renewed {reply : RefreshReply} {retryAttempt : Nat} {tokens : RefreshReply.Tokens}
    (h : reply.outcome retryAttempt = .renewed tokens) : tokens.accessToken ≠ [] := by
  unfold RefreshReply.outcome at h
  split at h
  · split at h <;> cases h
  · split at h
    · cases h
    · split at h
      · cases h
      · split at h
        · cases h
        · rename_i hToken
          cases h
          exact hToken

end KickAccount

open QString

/-- A reply of the server: whether it is an error, its status, and the object it holds. -/
structure HttpReply where
  error : Bool := false
  statusCode : Int := 200
  object : Option (QJsonObject ℚ) := none

structure Tokens where
  accessToken : QString := []
  refreshToken : QString := []
  /-- In milliseconds. -/
  expiresAt : Int := 0
deriving DecidableEq

def exchangedTokens (reply : HttpReply) (now : Int) : Option Tokens :=
  if reply.error then none
  else
    match reply.object with
    | none => none
    | some object =>
      if contains "error" object then none
      else
        let accessToken := (value "access_token" object).toString
        if accessToken = [] then none
        else
          some
            { accessToken, refreshToken := (value "refresh_token" object).toString,
              expiresAt := now + 1000 * RefreshReply.toInt 3600 (value "expires_in" object) }

def firstMember (keys : List String) (object : QJsonObject ℚ) : Option QString :=
  (keys.find? fun key => contains key object).map fun key => (value key object).toString

def isNumeric (text : QString) : Bool := text.toLongLong.isSome

def subject (object : QJsonObject ℚ) : QString :=
  let sub := (value "sub" object).toString
  if isNumeric sub then [] else sub

def extractUsernameFromToken (payload : Option (QJsonObject ℚ)) : QString :=
  match payload with
  | none => []
  | some object =>
    (firstMember ["preferred_username", "username", "name"] object).getD
      (if contains "sub" object then subject object else [])

def usernameFromData (object : QJsonObject ℚ) : Option QString :=
  match value "data" object with
  | .array (user :: _) => firstMember ["name", "username", "slug"] user.toObject
  | .object data => firstMember ["username", "name", "slug"] data
  | _ => none

def usernameFromUsers (object : QJsonObject ℚ) : QString :=
  match value "users" object with
  | .array (user :: _) =>
    let name := (value "name" user.toObject).toString
    if name ≠ [] then name else (value "username" user.toObject).toString
  | _ => []

def extractUsernameFromResponse (document : Option (QJsonObject ℚ)) : QString :=
  match document with
  | none => []
  | some object =>
    (firstMember ["username", "preferred_username", "name", "slug"] object).getD
      ((usernameFromData object).getD (usernameFromUsers object))

def usernameFromIntrospect (document : Option (QJsonObject ℚ)) : QString :=
  match document with
  | none => []
  | some object =>
    let data :=
      match value "data" object with
      | .object data => data
      | _ => object
    (firstMember ["username", "preferred_username", "name"] data).getD
      (if contains "sub" data then subject data else [])

inductive Stage where
  | users
  | introspect
  | currentUser
  | userV2
  | prompt
deriving DecidableEq

inductive LookupAnswer where
  | replied (reply : HttpReply)
  /-- What the user entered, unless the dialog was cancelled. -/
  | entered (text : Option QString)

inductive Found where
  | next (stage : Stage)
  | username (name : QString)

def Found.orNext (name : QString) (stage : Stage) : Found := if name = [] then .next stage else .username name

/-- What an answer leads to, if it is one to this stage. -/
def Stage.found (toLower : QString → QString) : Stage → LookupAnswer → Option Found
  | users, .replied reply =>
    some (.orNext (if reply.error = false ∧ reply.statusCode = 200 then extractUsernameFromResponse reply.object else [])
      .introspect)
  | introspect, .replied reply =>
    some (.orNext (if reply.error then [] else usernameFromIntrospect reply.object) .currentUser)
  | currentUser, .replied reply =>
    some (.orNext (if reply.error then [] else extractUsernameFromResponse reply.object) .userV2)
  | userV2, .replied reply =>
    some (.orNext (if reply.error then [] else extractUsernameFromResponse reply.object) .prompt)
  | prompt, .entered text =>
    some (.username (if text.getD [] = [] then lit "kick_user" else toLower (trimmed (text.getD []))))
  | _, _ => none

end Chatterino.Kick
