import Chatterino.Kick.KickAccount
import Chatterino.Lib.Run

/-! # The Kick accounts

The tokens of a login wait in one place until the name of the user is known, and then they make an account. Refreshes
save their tokens whenever they end.
-/

namespace Chatterino.Kick

structure KickOAuthFlow where
  isInProgress_ : Bool
  localServer_ : Bool
  exchanging : Bool := false
  /-- The number of logouts before it was started. -/
  startedAt : Nat
deriving DecidableEq

def KickOAuthFlow.cancel (flow : KickOAuthFlow) : KickOAuthFlow :=
  { flow with isInProgress_ := false, localServer_ := false }

/-- A search for the name of the user, with the number of the login it is for. -/
structure Lookup where
  login : Nat
  accessToken : QString
  stage : Stage
deriving DecidableEq

structure Login where
  tokens : Tokens
  startedAt : Nat
deriving DecidableEq

structure MadeAccount where
  account : KickAccount
  refreshStartedAt : Nat := 0
deriving DecidableEq

structure Creation where
  login : Nat
  tokens : Tokens
deriving DecidableEq

/-- The credentials were saved, for something that was started after so many logouts. -/
structure Save where
  startedAt : Nat
  logouts : Nat
deriving DecidableEq

structure KickAccountManager where
  made : List MadeAccount := []
  currentUser_ : Option Nat := none
  accounts : List Nat := []
  oauthFlow_ : Option KickOAuthFlow := none
  pendingTokens_ : Tokens := {}
  lookups : List Lookup := []
  /-- The account in the settings and the keychain. -/
  saved : Option KickAccount := none
  logouts : Nat := 0
  logins : List Login := []
  creations : List Creation := []
  saves : List Save := []

inductive LoginEvent where
  | startLogin (started : Bool)
  | callback (valid : Bool)
  | timeout
  | exchanged (reply : HttpReply) (now : Int)
  | lookedUp (index : Nat) (answer : LookupAnswer)
  | logout
  | refreshAccessToken (made : Nat)
  | refreshReplied (made : Nat) (reply : RefreshReply) (now : Int)
  | refreshTimerFires (made : Nat)

namespace KickAccountManager

variable (manager : KickAccountManager)

def startLogin (started : Bool) : KickAccountManager :=
  { manager with
    oauthFlow_ := some { isInProgress_ := started, localServer_ := started, startedAt := manager.logouts } }

def modifyFlow (update : KickOAuthFlow → KickOAuthFlow) : KickAccountManager :=
  { manager with oauthFlow_ := manager.oauthFlow_.map update }

def callback (valid : Bool) : KickAccountManager :=
  manager.modifyFlow fun flow =>
    if flow.localServer_ then
      if valid then { flow with localServer_ := false, exchanging := true } else flow.cancel
    else flow

def timeout : KickAccountManager := manager.modifyFlow fun flow => if flow.isInProgress_ then flow.cancel else flow

def logout : KickAccountManager :=
  { manager with
    saved := if manager.currentUser_.isSome then none else manager.saved,
    currentUser_ := none, accounts := [], logouts := manager.logouts + 1 }

def saveToSettings (account : KickAccount) (startedAt : Nat) : KickAccountManager :=
  { manager with saved := some account, saves := manager.saves ++ [⟨startedAt, manager.logouts⟩] }

/-- The account is made for the login that the name was looked up for, from the tokens that wait. -/
def createAccountWithUsername (username : QString) (login startedAt : Nat) : KickAccountManager :=
  let tokens := manager.pendingTokens_
  let account : KickAccount :=
    { username_ := username, accessToken_ := tokens.accessToken, refreshToken_ := tokens.refreshToken,
      expiresAt_ := tokens.expiresAt }
  let saved := manager.saveToSettings account startedAt
  { saved with
    made := saved.made ++ [{ account }], currentUser_ := some saved.made.length,
    accounts := saved.accounts ++ [saved.made.length], creations := saved.creations ++ [⟨login, tokens⟩],
    pendingTokens_ := {} }

section logins

variable (jwtPayload : QString → Option (QJsonObject ℚ)) (toLower : QString → QString)

def onOAuthSuccess (tokens : Tokens) (startedAt : Nat) : KickAccountManager :=
  let login := manager.logins.length
  let pending : KickAccountManager :=
    { manager with pendingTokens_ := tokens, logins := manager.logins ++ [⟨tokens, startedAt⟩] }
  let username := extractUsernameFromToken (jwtPayload tokens.accessToken)
  if username ≠ [] then pending.createAccountWithUsername username login startedAt
  else { pending with lookups := pending.lookups ++ [⟨login, tokens.accessToken, .users⟩] }

def exchanged (reply : HttpReply) (now : Int) : KickAccountManager :=
  match manager.oauthFlow_ with
  | none => manager
  | some flow =>
    if flow.exchanging then
      let ended := { manager with oauthFlow_ := some { flow.cancel with exchanging := false } }
      match exchangedTokens reply now with
      | none => ended
      | some tokens => ended.onOAuthSuccess jwtPayload tokens flow.startedAt
    else manager

def loginStartedAt (login : Nat) : Nat := ((manager.logins[login]?).map Login.startedAt).getD 0

def lookedUp (index : Nat) (answer : LookupAnswer) : KickAccountManager :=
  match manager.lookups[index]? with
  | none => manager
  | some lookup =>
    match lookup.stage.found toLower answer with
    | none => manager
    | some (.next stage) => { manager with lookups := manager.lookups.set index { lookup with stage } }
    | some (.username name) =>
      { manager with lookups := manager.lookups.eraseIdx index }.createAccountWithUsername name lookup.login
        (manager.loginStartedAt lookup.login)

def modifyMade (index : Nat) (update : MadeAccount → MadeAccount) : KickAccountManager :=
  { manager with made := manager.made.modify index update }

def refreshAccessToken (index : Nat) : KickAccountManager :=
  manager.modifyMade index fun made =>
    let account := made.account.refreshAccessToken.1
    { account,
      refreshStartedAt := if made.account.refresh.isSome then made.refreshStartedAt else manager.logouts }

def refreshReplied (index : Nat) (reply : RefreshReply) (now : Int) : KickAccountManager :=
  match manager.made[index]? with
  | none => manager
  | some made =>
    match made.account.refresh with
    | some (.requested retryAttempt) =>
      let outcome := reply.outcome retryAttempt
      let account := made.account.refreshed retryAttempt now outcome
      let replied := manager.modifyMade index fun made => { made with account }
      match outcome with
      | .renewed _ => replied.saveToSettings account made.refreshStartedAt
      | _ => replied
    | _ => manager

def refreshTimerFires (index : Nat) : KickAccountManager :=
  manager.modifyMade index fun made => { made with account := made.account.refreshTimerFires }

def step (manager : KickAccountManager) : LoginEvent → KickAccountManager
  | .startLogin started => manager.startLogin started
  | .callback valid => manager.callback valid
  | .timeout => manager.timeout
  | .exchanged reply now => manager.exchanged jwtPayload reply now
  | .lookedUp index answer => manager.lookedUp toLower index answer
  | .logout => manager.logout
  | .refreshAccessToken index => manager.refreshAccessToken index
  | .refreshReplied index reply now => manager.refreshReplied index reply now
  | .refreshTimerFires index => manager.refreshTimerFires index

end logins

end KickAccountManager

open Lib

namespace KickAccountManager

variable {manager : KickAccountManager} {jwtPayload : QString → Option (QJsonObject ℚ)} {toLower : QString → QString}

/-- Accounts have the tokens of their login, there is one at most, and nothing is saved that was started before a
logout. -/
structure StoresOwn (manager : KickAccountManager) : Prop where
  tokens : ∀ creation ∈ manager.creations, creation.tokens.accessToken ≠ [] ∧
    (manager.logins[creation.login]?).map Login.tokens = some creation.tokens
  one : manager.accounts.length ≤ 1
  final : ∀ save ∈ manager.saves, save.startedAt = save.logouts

/-- No other login is under way or stored when a login gets its tokens, and no logout came since it was started. -/
def GetsAlone (manager : KickAccountManager) : LoginEvent → Prop
  | .exchanged reply now => ∀ flow ∈ manager.oauthFlow_, flow.exchanging = true →
      exchangedTokens reply now ≠ none →
        manager.lookups = [] ∧ manager.accounts = [] ∧ flow.startedAt = manager.logouts
  | .logout => manager.lookups = []
  | .refreshReplied index reply _ => ∀ made ∈ manager.made[index]?, ∀ retryAttempt,
      made.account.refresh = some (.requested retryAttempt) → ∀ tokens,
        reply.outcome retryAttempt = .renewed tokens → made.refreshStartedAt = manager.logouts
  | _ => True

inductive Waits (manager : KickAccountManager) : Prop where
  | idle (hLookups : manager.lookups = [])
  | lookup (lookup : Lookup) (hLookups : manager.lookups = [lookup]) (hAccounts : manager.accounts = [])
      (hTokens : manager.pendingTokens_.accessToken ≠ [])
      (hLogin : manager.logins[lookup.login]? = some ⟨manager.pendingTokens_, manager.logouts⟩)

structure Sound (manager : KickAccountManager) : Prop where
  stores : manager.StoresOwn
  waits : manager.Waits

theorem getElem?_append_of_some {α : Type} {list : List α} {index : Nat} {item : α} (h : list[index]? = some item)
    (rest : List α) : (list ++ rest)[index]? = some item := by
  rw [List.getElem?_append_left (List.getElem?_eq_some_iff.mp h).1, h]

theorem StoresOwn.createAccountWithUsername (h : manager.StoresOwn) {login : Nat} (username : QString)
    (hAccounts : manager.accounts = []) (hTokens : manager.pendingTokens_.accessToken ≠ [])
    (hLogin : manager.logins[login]? = some ⟨manager.pendingTokens_, manager.logouts⟩) :
    (manager.createAccountWithUsername username login manager.logouts).StoresOwn := by
  constructor
  · intro creation hMem
    rcases List.mem_append.mp hMem with hOld | hNew
    · exact h.tokens creation hOld
    · obtain rfl := List.mem_singleton.mp hNew
      exact ⟨hTokens, congrArg (Option.map Login.tokens) hLogin⟩
  · have hOne : (manager.createAccountWithUsername username login manager.logouts).accounts =
        manager.accounts ++ [manager.made.length] := rfl
    rw [hOne, hAccounts]
    exact Nat.le_refl _
  · intro save hMem
    rcases List.mem_append.mp hMem with hOld | hNew
    · exact h.final save hOld
    · obtain rfl := List.mem_singleton.mp hNew
      rfl

theorem exchangedTokens_accessToken {reply : HttpReply} {now : Int} {tokens : Tokens}
    (h : exchangedTokens reply now = some tokens) : tokens.accessToken ≠ [] := by
  unfold exchangedTokens at h
  split at h
  · cases h
  · split at h
    · cases h
    · split at h
      · cases h
      · dsimp only at h
        split at h
        · cases h
        · rename_i hToken
          cases h
          exact hToken

theorem Sound.congr {manager' : KickAccountManager} (h : manager.Sound) (hCreations : manager'.creations = manager.creations)
    (hLogins : manager'.logins = manager.logins) (hAccounts : manager'.accounts = manager.accounts)
    (hSaves : manager'.saves = manager.saves) (hLookups : manager'.lookups = manager.lookups)
    (hPending : manager'.pendingTokens_ = manager.pendingTokens_) (hLogouts : manager'.logouts = manager.logouts) :
    manager'.Sound := by
  constructor
  · constructor
    · rw [hCreations, hLogins]
      exact h.stores.tokens
    · rw [hAccounts]
      exact h.stores.one
    · rw [hSaves]
      exact h.stores.final
  · cases h.waits with
    | idle hNone => exact .idle (hLookups.trans hNone)
    | lookup lookup hOne hEmpty hTokens hLogin =>
      apply Waits.lookup lookup
      · exact hLookups.trans hOne
      · exact hAccounts.trans hEmpty
      · rw [hPending]
        exact hTokens
      · rw [hLogins, hPending, hLogouts]
        exact hLogin

theorem Sound.onOAuthSuccess (h : manager.Sound) {tokens : Tokens} (hToken : tokens.accessToken ≠ [])
    (hLookups : manager.lookups = []) (hAccounts : manager.accounts = []) :
    (manager.onOAuthSuccess jwtPayload tokens manager.logouts).Sound := by
  let pending : KickAccountManager :=
    { manager with pendingTokens_ := tokens, logins := manager.logins ++ [⟨tokens, manager.logouts⟩] }
  have hLogin : pending.logins[manager.logins.length]? = some ⟨tokens, manager.logouts⟩ := List.getElem?_concat_length
  have hStores : pending.StoresOwn := by
    constructor
    · intro creation hMem
      obtain ⟨hAccess, hOwn⟩ := h.stores.tokens creation hMem
      obtain ⟨login, hFound, hTokens⟩ := Option.map_eq_some_iff.mp hOwn
      exact ⟨hAccess, Option.map_eq_some_iff.mpr ⟨login, getElem?_append_of_some hFound _, hTokens⟩⟩
    · exact h.stores.one
    · exact h.stores.final
  unfold KickAccountManager.onOAuthSuccess
  dsimp only
  split
  · constructor
    · exact hStores.createAccountWithUsername _ hAccounts hToken hLogin
    · exact .idle hLookups
  · constructor
    · exact ⟨hStores.tokens, hStores.one, hStores.final⟩
    · apply Waits.lookup ⟨manager.logins.length, tokens.accessToken, .users⟩
      · rw [hLookups, List.nil_append]
      · exact hAccounts
      · exact hToken
      · exact hLogin

theorem Sound.exchanged (h : manager.Sound) (reply : HttpReply) (now : Int)
    (hAlone : manager.GetsAlone (.exchanged reply now)) : (manager.exchanged jwtPayload reply now).Sound := by
  unfold KickAccountManager.exchanged
  split
  · exact h
  · rename_i flow hFlow
    split
    · rename_i hExchanging
      dsimp only
      split
      · exact h.congr rfl rfl rfl rfl rfl rfl rfl
      · rename_i tokens hTokens
        obtain ⟨hLookups, hAccounts, hStarted⟩ := hAlone flow hFlow hExchanging (by simp [hTokens])
        rw [hStarted]
        let ended := { manager with oauthFlow_ := some { flow.cancel with exchanging := false } }
        have hEnded : ended.Sound := h.congr rfl rfl rfl rfl rfl rfl rfl
        exact hEnded.onOAuthSuccess (exchangedTokens_accessToken hTokens) hLookups hAccounts
    · exact h

theorem Sound.lookedUp (h : manager.Sound) (index : Nat) (answer : LookupAnswer) :
    (manager.lookedUp toLower index answer).Sound := by
  cases hLookup : manager.lookups[index]? with
  | none =>
    rw [KickAccountManager.lookedUp, hLookup]
    exact h
  | some lookup =>
    cases h.waits with
    | idle hNone => simp [hNone] at hLookup
    | lookup waiting hOne hAccounts hTokens hLogin =>
      rw [hOne] at hLookup
      obtain ⟨rfl, rfl⟩ : index = 0 ∧ waiting = lookup := by
        cases index with
        | zero => exact ⟨rfl, Option.some.inj hLookup⟩
        | succ index => cases hLookup
      have hStarted : manager.loginStartedAt waiting.login = manager.logouts := by rw [loginStartedAt, hLogin]; rfl
      rw [KickAccountManager.lookedUp, hOne]
      dsimp only [List.getElem?_cons_zero]
      split
      · exact h
      · rename_i stage hFound
        constructor
        · exact ⟨h.stores.tokens, h.stores.one, h.stores.final⟩
        · exact .lookup { waiting with stage } rfl hAccounts hTokens hLogin
      · rename_i name hFound
        rw [hStarted]
        constructor
        · have hStores : { manager with lookups := [] }.StoresOwn := ⟨h.stores.tokens, h.stores.one, h.stores.final⟩
          exact hStores.createAccountWithUsername name hAccounts hTokens hLogin
        · exact .idle rfl

theorem Sound.logout (h : manager.Sound) (hLookups : manager.lookups = []) : manager.logout.Sound := by
  constructor
  · exact ⟨h.stores.tokens, Nat.zero_le _, h.stores.final⟩
  · exact .idle hLookups

theorem Sound.saveToSettings (h : manager.Sound) (account : KickAccount) :
    (manager.saveToSettings account manager.logouts).Sound := by
  constructor
  · constructor
    · exact h.stores.tokens
    · exact h.stores.one
    · intro save hMem
      rcases List.mem_append.mp hMem with hOld | hNew
      · exact h.stores.final save hOld
      · obtain rfl := List.mem_singleton.mp hNew
        rfl
  · cases h.waits with
    | idle hNone => exact .idle hNone
    | lookup lookup hOne hAccounts hTokens hLogin => exact .lookup lookup hOne hAccounts hTokens hLogin

theorem Sound.refreshReplied (h : manager.Sound) (index : Nat) (reply : RefreshReply) (now : Int)
    (hAlone : manager.GetsAlone (.refreshReplied index reply now)) : (manager.refreshReplied index reply now).Sound := by
  unfold KickAccountManager.refreshReplied
  split
  · exact h
  · rename_i made hMade
    split
    · rename_i retryAttempt hRefresh
      dsimp only
      split
      · rename_i tokens hRenewed
        have hStarted := hAlone made hMade retryAttempt hRefresh tokens hRenewed
        rw [hStarted]
        apply Sound.saveToSettings
        exact h.congr rfl rfl rfl rfl rfl rfl rfl
      · exact h.congr rfl rfl rfl rfl rfl rfl rfl
    · exact h

theorem Sound.step (h : manager.Sound) (event : LoginEvent) (hAlone : manager.GetsAlone event) :
    (manager.step jwtPayload toLower event).Sound := by
  cases event with
  | exchanged reply now => exact h.exchanged reply now hAlone
  | lookedUp index answer => exact h.lookedUp index answer
  | logout => exact h.logout hAlone
  | refreshReplied index reply now => exact h.refreshReplied index reply now hAlone
  | startLogin | callback | timeout | refreshAccessToken | refreshTimerFires =>
    exact h.congr rfl rfl rfl rfl rfl rfl rfl

def started (loaded : Option KickAccount) : KickAccountManager :=
  match loaded with
  | none => {}
  | some account => { made := [{ account }], currentUser_ := some 0, accounts := [0], saved := some account }

theorem sound_started (loaded : Option KickAccount) : (started loaded).Sound := by
  cases loaded with
  | none => exact ⟨⟨by rintro _ ⟨⟩, by decide, by rintro _ ⟨⟩⟩, .idle rfl⟩
  | some account => exact ⟨⟨by rintro _ ⟨⟩, Nat.le_refl _, by rintro _ ⟨⟩⟩, .idle rfl⟩

theorem storesOwn_of_run (jwtPayload : QString → Option (QJsonObject ℚ)) (toLower : QString → QString)
    (loaded : Option KickAccount) (events : List LoginEvent)
    (hAlone : AllSteps (step jwtPayload toLower) GetsAlone (started loaded) events) (reached : List LoginEvent)
    (hReached : reached <+: events) : (reached.foldl (step jwtPayload toLower) (started loaded)).StoresOwn := by
  have hSound := hAlone.invariant_reached hReached (sound_started loaded) fun _ event h hStep => h.step event hStep
  exact hSound.stores

def tokenReply (accessToken : String) : HttpReply :=
  { object := some [("access_token", .string (QString.lit accessToken)), ("refresh_token", .string (QString.lit "r"))] }

def nameReply (name : String) : LookupAnswer := .replied { object := some [("name", .string (QString.lit name))] }

def oneLogin : List LoginEvent :=
  [.startLogin true, .callback true, .exchanged (tokenReply "a") 0, .lookedUp 0 (nameReply "alice")]

theorem storesOwn_of_run_oneLogin :
    (oneLogin.foldl (step (fun _ => none) id) (started none)).StoresOwn := by
  apply storesOwn_of_run (fun _ => none) id none oneLogin _ oneLogin List.prefix_rfl
  refine ⟨trivial, trivial, ?_, trivial, trivial⟩
  intro flow hFlow _ _
  cases hFlow
  exact ⟨rfl, rfl, rfl⟩

def twoLogins : List LoginEvent :=
  [.startLogin true, .callback true, .exchanged (tokenReply "a") 0, .startLogin true, .callback true,
    .exchanged (tokenReply "b") 0, .lookedUp 0 (nameReply "alice")]

theorem not_storesOwn_twoLogins :
    ¬∀ (jwtPayload : QString → Option (QJsonObject ℚ)) (toLower : QString → QString) (loaded : Option KickAccount)
        (events : List LoginEvent), (events.foldl (step jwtPayload toLower) (started loaded)).StoresOwn := by
  intro hAll
  have hStores := hAll (fun _ => none) id none twoLogins
  have hOwn := (hStores.tokens ⟨0, ⟨QString.lit "b", QString.lit "r", 3600000⟩⟩ (by decide)).2
  exact absurd hOwn (by decide)

end KickAccountManager

end Chatterino.Kick
