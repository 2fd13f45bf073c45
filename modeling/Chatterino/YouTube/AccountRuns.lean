import Chatterino.YouTube.YouTubeAccount

/-! # Runs of the YouTube account

Nothing that was started before a clear is cancelled by it, and a save writes the tokens as they are, loaded or not.
-/

namespace Chatterino.YouTube

open Lib

namespace AccountState

variable {state : AccountState}

def Out (state : AccountState) : Prop := 0 < state.clears ∧ state.signedIn = false

structure StaysOut (state : AccountState) : Prop where
  unauthenticated : state.Out → state.account.isAuthenticated = false
  silent : state.Out → state.saves = 0
  kept : state.wiped = false

def KeepsTokens (state : AccountState) (accessToken refreshToken : QString) : Prop :=
  (state.stored.accessToken ≠ [] → accessToken ≠ []) ∧
    (state.stored.refreshToken ≠ [] → refreshToken ≠ [] ∨ state.account.refreshToken_ ≠ [])

def HasTokens (state : AccountState) : Prop :=
  (state.stored.accessToken ≠ [] → state.account.accessToken_ ≠ []) ∧
    (state.stored.refreshToken ≠ [] → state.account.refreshToken_ ≠ [])

def MigratesBoth (state : AccountState) : Prop :=
  state.settings.accessToken.isSome = true ∨ state.settings.refreshToken.isSome = true →
    (state.stored.accessToken ≠ [] → state.settings.accessToken.getD [] ≠ []) ∧
      (state.stored.refreshToken ≠ [] → state.settings.refreshToken.getD [] ≠ [])

/-- No completion comes while signed out, and no save comes before the stored tokens are loaded. -/
def InTime (state : AccountState) : AccountEvent → Prop
  | .load => state.MigratesBoth
  | .keychainAnswered index token => state.Out → state.reads[index]? ≠ none → token = []
  | .setTokens accessToken refreshToken _ _ => state.KeepsTokens accessToken refreshToken
  | .setIdentity _ _ => ¬state.Out ∧ state.HasTokens
  | .refreshReplied reply _ =>
    state.refreshes ≠ 0 → reply.error = false → ¬state.Out ∧ state.KeepsTokens reply.accessToken reply.refreshToken
  | .exchangeReplied index reply _ => ∀ startedAt ∈ state.exchanges[index]?, reply.error = false →
      (state.Out → startedAt = state.clears) ∧ state.KeepsTokens reply.accessToken reply.refreshToken
  | .identityReplied channel => state.identities ≠ 0 → channel ≠ none → ¬state.Out ∧ state.HasTokens
  | .clear | .withFreshToken _ | .refreshToken | .exchangeCode => True

structure Clean (state : AccountState) : Prop where
  staysOut : state.StaysOut
  settings : state.Out → state.settings = {}

theorem wiped_save (h : state.wiped = false) : state.save.wiped = false ↔ state.HasTokens := by
  have hWiped : state.save.wiped = (state.wiped || decide (state.stored.LosesTo state.account)) := rfl
  rw [hWiped, h, Bool.false_or, decide_eq_false_iff_not, StoredTokens.LosesTo, HasTokens]
  simp only [not_or, not_and, ne_eq]

theorem hasTokens_withTokens {accessToken refreshToken : QString} {expiresInSeconds now : Int} :
    { state with account := state.account.withTokens accessToken refreshToken expiresInSeconds now }.HasTokens ↔
      state.KeepsTokens accessToken refreshToken := by
  unfold HasTokens KeepsTokens YouTubeAccount.withTokens
  by_cases hRefresh : refreshToken = []
  · simp [hRefresh]
  · simp [hRefresh]

theorem wiped_setTokens (h : state.wiped = false) {accessToken refreshToken : QString} {expiresInSeconds now : Int} :
    (state.setTokens accessToken refreshToken expiresInSeconds now).wiped = false ↔
      state.KeepsTokens accessToken refreshToken := by
  let replied := { state with account := state.account.withTokens accessToken refreshToken expiresInSeconds now }
  have hReplied : replied.wiped = false := h
  exact (wiped_save hReplied).trans hasTokens_withTokens

theorem wiped_setIdentity (h : state.wiped = false) (channelId displayName : QString) :
    (state.setIdentity channelId displayName).wiped = false ↔ state.HasTokens := by
  let named := { state with account := { state.account with channelId_ := channelId, displayName_ := displayName } }
  have hNamed : named.wiped = false := h
  exact wiped_save hNamed

section step

variable {next : AccountState} {inTime : Prop}

theorem decided_of_save (hSaves : 0 < next.saves) (hInTime : ¬next.Out ∧ next.wiped = false ↔ inTime) :
    (next.StaysOut → inTime) ∧ (inTime → next.Clean) := by
  constructor
  · intro h
    refine hInTime.mp ⟨fun hOut => ?_, h.kept⟩
    exact absurd (h.silent hOut) (by omega)
  · intro h
    obtain ⟨hIn, hKept⟩ := hInTime.mpr h
    exact ⟨⟨fun hOut => absurd hOut hIn, fun hOut => absurd hOut hIn, hKept⟩, fun hOut => absurd hOut hIn⟩

theorem decided_of_clean (hNext : next.Clean) (hInTime : inTime) :
    (next.StaysOut → inTime) ∧ (inTime → next.Clean) :=
  ⟨fun _ => hInTime, fun _ => hNext⟩

end step

section events

variable (h : state.Clean)

include h

theorem Clean.congr {next : AccountState} (hAccess : next.account.accessToken_ = state.account.accessToken_)
    (hRefresh : next.account.refreshToken_ = state.account.refreshToken_) (hSettings : next.settings = state.settings)
    (hClears : next.clears = state.clears) (hSignedIn : next.signedIn = state.signedIn)
    (hSaves : next.saves = state.saves) (hWiped : next.wiped = state.wiped) : next.Clean := by
  have hOut : next.Out ↔ state.Out := by rw [Out, Out, hClears, hSignedIn]
  constructor
  · constructor
    · intro hNext
      rw [YouTubeAccount.isAuthenticated, hAccess, hRefresh]
      exact h.staysOut.unauthenticated (hOut.mp hNext)
    · intro hNext
      rw [hSaves]
      exact h.staysOut.silent (hOut.mp hNext)
    · exact hWiped.trans h.staysOut.kept
  · intro hNext
    exact hSettings.trans (h.settings (hOut.mp hNext))

theorem Clean.clear : state.clear.Clean := by
  constructor
  · exact ⟨fun _ => rfl, fun _ => rfl, h.staysOut.kept⟩
  · exact fun _ => rfl

theorem Clean.refreshToken : state.refreshToken.Clean := by
  unfold AccountState.refreshToken
  split
  · exact h
  · exact h.congr rfl rfl rfl rfl rfl rfl rfl

theorem Clean.withFreshToken (now : Int) : (state.withFreshToken now).Clean := by
  unfold AccountState.withFreshToken
  split
  · exact h.refreshToken
  · exact h

theorem load_decided : (state.load.StaysOut → state.MigratesBoth) ∧ (state.MigratesBoth → state.load.Clean) := by
  unfold AccountState.load
  split
  · rename_i hOld
    have hPresent : state.settings.accessToken.isSome = true ∨ state.settings.refreshToken.isSome = true := by
      simpa using hOld
    have hIn : ¬state.fromSettings.migrate.Out := fun hOut => by
      have hSettings : state.settings = {} := h.settings hOut
      simp [hSettings] at hPresent
    apply decided_of_save
    · exact Nat.succ_pos _
    · let moved : AccountState :=
        { state.fromSettings with
          account :=
            { state.fromSettings.account with
              accessToken_ := state.settings.accessToken.getD [], refreshToken_ := state.settings.refreshToken.getD [] },
          settings := { state.settings with accessToken := none, refreshToken := none } }
      have hMoved : moved.wiped = false := h.staysOut.kept
      have hKept : state.fromSettings.migrate.wiped = false ↔ moved.HasTokens := wiped_save hMoved
      exact ⟨fun hNext _ => hKept.mp hNext.2, fun hBoth => ⟨hIn, hKept.mpr (hBoth hPresent)⟩⟩
  · rename_i hNew
    have hAbsent : state.MigratesBoth := fun hPresent => absurd (by simpa using hPresent) hNew
    split
    · exact decided_of_clean (h.congr rfl rfl rfl rfl rfl rfl rfl) hAbsent
    · exact decided_of_clean (h.congr rfl rfl rfl rfl rfl rfl rfl) hAbsent

omit h in
theorem isAuthenticated_loaded {account : YouTubeAccount} (hAccount : account.isAuthenticated = false)
    (kind : TokenKind) (token : QString) : (account.loaded kind token).isAuthenticated = false ↔ token = [] := by
  have hEmpty : account.accessToken_ = [] ∧ account.refreshToken_ = [] := by
    simpa [YouTubeAccount.isAuthenticated] using hAccount
  cases kind with
  | access | refresh => simp [YouTubeAccount.loaded, YouTubeAccount.isAuthenticated, hEmpty]

theorem keychainAnswered_decided (index : Nat) (token : QString) :
    ((state.keychainAnswered index token).StaysOut → state.InTime (.keychainAnswered index token)) ∧
      (state.InTime (.keychainAnswered index token) → (state.keychainAnswered index token).Clean) := by
  cases hRead : state.reads[index]? with
  | none =>
    have hNext : state.keychainAnswered index token = state := by rw [AccountState.keychainAnswered, hRead]
    rw [hNext]
    exact decided_of_clean h fun _ hSome => absurd hRead hSome
  | some kind =>
    have hNext : state.keychainAnswered index token =
        { state with account := state.account.loaded kind token, reads := state.reads.eraseIdx index } := by
      rw [AccountState.keychainAnswered, hRead]
    rw [hNext]
    constructor
    · intro hStays hOut _
      exact (isAuthenticated_loaded (h.staysOut.unauthenticated hOut) kind token).mp (hStays.unauthenticated hOut)
    · intro hEmpty
      refine ⟨⟨fun hOut => ?_, h.staysOut.silent, h.staysOut.kept⟩, h.settings⟩
      have hToken : token = [] := hEmpty hOut (by simp [hRead])
      exact (isAuthenticated_loaded (h.staysOut.unauthenticated hOut) kind token).mpr hToken

theorem setTokens_decided (accessToken refreshToken : QString) (expiresInSeconds now : Int) :
    ((state.step (.setTokens accessToken refreshToken expiresInSeconds now)).StaysOut →
        state.KeepsTokens accessToken refreshToken) ∧
      (state.KeepsTokens accessToken refreshToken →
        (state.step (.setTokens accessToken refreshToken expiresInSeconds now)).Clean) := by
  apply decided_of_save
  · exact Nat.succ_pos _
  · have hIn : ¬(state.step (.setTokens accessToken refreshToken expiresInSeconds now)).Out := fun hOut => by
      cases hOut.2
    exact ⟨fun hNext => (wiped_setTokens h.staysOut.kept).mp hNext.2,
      fun hKeeps => ⟨hIn, (wiped_setTokens h.staysOut.kept).mpr hKeeps⟩⟩

theorem setIdentity_decided (channelId displayName : QString) :
    ((state.setIdentity channelId displayName).StaysOut → ¬state.Out ∧ state.HasTokens) ∧
      (¬state.Out ∧ state.HasTokens → (state.setIdentity channelId displayName).Clean) := by
  apply decided_of_save
  · exact Nat.succ_pos _
  · exact and_congr Iff.rfl (wiped_setIdentity h.staysOut.kept channelId displayName)

theorem refreshReplied_decided (reply : TokenReply) (now : Int) :
    ((state.refreshReplied reply now).StaysOut → state.InTime (.refreshReplied reply now)) ∧
      (state.InTime (.refreshReplied reply now) → (state.refreshReplied reply now).Clean) := by
  unfold AccountState.refreshReplied
  split
  · rename_i hNone
    exact decided_of_clean h fun hSome => absurd hNone hSome
  · rename_i hSome
    dsimp only
    split
    · rename_i hError
      refine decided_of_clean (h.congr rfl rfl rfl rfl rfl rfl rfl) ?_
      exact fun _ hDone => absurd (hError.symm.trans hDone) (by decide)
    · rename_i hDone
      have hReply : reply.error = false := by simpa using hDone
      have hReplied : { state with refreshes := state.refreshes - 1 }.wiped = false := h.staysOut.kept
      apply decided_of_save (Nat.succ_pos _)
      constructor
      · rintro ⟨hIn, hKept⟩ _ _
        exact ⟨hIn, (wiped_setTokens hReplied).mp hKept⟩
      · intro hInTime
        obtain ⟨hIn, hKeeps⟩ := hInTime hSome hReply
        exact ⟨hIn, (wiped_setTokens hReplied).mpr hKeeps⟩

theorem exchangeReplied_decided (index : Nat) (reply : TokenReply) (now : Int) :
    ((state.exchangeReplied index reply now).StaysOut → state.InTime (.exchangeReplied index reply now)) ∧
      (state.InTime (.exchangeReplied index reply now) → (state.exchangeReplied index reply now).Clean) := by
  unfold AccountState.exchangeReplied
  split
  · rename_i hNone
    refine decided_of_clean h ?_
    exact fun _ hSome => absurd (hNone.symm.trans hSome) (by simp)
  · rename_i startedAt hExchange
    dsimp only
    split
    · rename_i hError
      refine decided_of_clean (h.congr rfl rfl rfl rfl rfl rfl rfl) ?_
      exact fun _ _ hDone => absurd (hError.symm.trans hDone) (by decide)
    · rename_i hDone
      have hReply : reply.error = false := by simpa using hDone
      have hReplied : { state with exchanges := state.exchanges.eraseIdx index }.wiped = false := h.staysOut.kept
      apply decided_of_save (Nat.succ_pos _)
      constructor
      · rintro ⟨hIn, hKept⟩ started hStarted _
        obtain rfl : startedAt = started := Option.some.inj (hExchange.symm.trans hStarted)
        refine ⟨fun hOut => ?_, (wiped_setTokens hReplied).mp hKept⟩
        by_contra hOlder
        exact hIn ⟨hOut.1, by simp [setTokens, save, hOut.2, hOlder]⟩
      · intro hInTime
        obtain ⟨hNewest, hKeeps⟩ := hInTime startedAt hExchange hReply
        refine ⟨fun hOut => ?_, (wiped_setTokens hReplied).mpr hKeeps⟩
        obtain ⟨hBefore, hOlder⟩ : state.signedIn = false ∧ startedAt ≠ state.clears := by
          simpa [setTokens, save] using hOut.2
        exact hOlder (hNewest ⟨hOut.1, hBefore⟩)

theorem identityReplied_decided (channel : Option (QString × QString)) :
    ((state.identityReplied channel).StaysOut → state.InTime (.identityReplied channel)) ∧
      (state.InTime (.identityReplied channel) → (state.identityReplied channel).Clean) := by
  unfold AccountState.identityReplied
  split
  · rename_i hNone
    exact decided_of_clean h fun hSome => absurd hNone hSome
  · rename_i hSome
    cases channel with
    | none =>
      refine decided_of_clean (h.congr rfl rfl rfl rfl rfl rfl rfl) ?_
      exact fun _ hChannel => absurd rfl hChannel
    | some channel =>
      have hReplied : { state with identities := state.identities - 1 }.wiped = false := h.staysOut.kept
      apply decided_of_save (Nat.succ_pos _)
      constructor
      · rintro ⟨hIn, hKept⟩ _ _
        exact ⟨hIn, (wiped_setIdentity hReplied _ _).mp hKept⟩
      · intro hInTime
        obtain ⟨hIn, hHas⟩ := hInTime hSome (by simp)
        exact ⟨hIn, (wiped_setIdentity hReplied _ _).mpr hHas⟩

theorem step_decided (event : AccountEvent) :
    ((state.step event).StaysOut → state.InTime event) ∧ (state.InTime event → (state.step event).Clean) := by
  cases event with
  | load => exact load_decided h
  | keychainAnswered index token => exact keychainAnswered_decided h index token
  | clear => exact decided_of_clean h.clear trivial
  | setTokens accessToken refreshToken expiresInSeconds now =>
    exact setTokens_decided h accessToken refreshToken expiresInSeconds now
  | setIdentity channelId displayName => exact setIdentity_decided h channelId displayName
  | withFreshToken now => exact decided_of_clean (h.withFreshToken now) trivial
  | refreshToken => exact decided_of_clean h.refreshToken trivial
  | refreshReplied reply now => exact refreshReplied_decided h reply now
  | exchangeCode => exact decided_of_clean (h.congr rfl rfl rfl rfl rfl rfl rfl) trivial
  | exchangeReplied index reply now => exact exchangeReplied_decided h index reply now
  | identityReplied channel => exact identityReplied_decided h channel

end events

def started (settings : AccountSettings) (stored : StoredTokens) : AccountState := { settings, stored }

theorem clean_started (settings : AccountSettings) (stored : StoredTokens) : (started settings stored).Clean := by
  have hNever : ¬(started settings stored).Out := fun hOut => Nat.lt_irrefl 0 hOut.1
  exact ⟨⟨fun hOut => absurd hOut hNever, fun hOut => absurd hOut hNever, rfl⟩, fun hOut => absurd hOut hNever⟩

/-- Signing out is final and no token is lost, in every state of a run, if and only if everything comes in time. -/
theorem staysOut_iff (settings : AccountSettings) (stored : StoredTokens) (events : List AccountEvent) :
    (∀ reached, reached <+: events → (reached.foldl step (started settings stored)).StaysOut) ↔
      AllSteps step InTime (started settings stored) events := by
  have hSide : AllSteps step (fun _ _ => True) (started settings stored) events :=
    .of_forall_mem fun _ _ _ => trivial
  apply AllSteps.forall_reached_iff_of_strengthening hSide Clean StaysOut
  · exact clean_started settings stored
  · exact fun _ h => h.staysOut
  · exact fun _ event h _ hNext => (step_decided h event).1 hNext
  · exact fun _ event h _ hInTime => (step_decided h event).2 hInTime

def answeredLate : List AccountEvent := [.load, .clear, .keychainAnswered 0 (QString.lit "token")]

theorem not_staysOut_answeredLate :
    ¬∀ (settings : AccountSettings) (stored : StoredTokens) (events : List AccountEvent),
      (events.foldl step (started settings stored)).StaysOut := by
  intro hAll
  have hStays := hAll { expiresAt := some 0 } { accessToken := QString.lit "token" } answeredLate
  exact absurd (hStays.unauthenticated ⟨by decide, rfl⟩) (by decide)

end AccountState

end Chatterino.YouTube
