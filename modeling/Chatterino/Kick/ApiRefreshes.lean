import Chatterino.Kick.ApiRuns

/-! # Refreshes of the Kick API

The end of a refresh is told to all calls that wait for it, and they are made again if it brought a token.
-/

namespace Chatterino.Kick

namespace KickApi

variable {api : KickApi} {now : Int} {toPercentEncoding : QString → QString}

theorem Phase.answered_after {refreshing : Bool} {counts : Counts} (h : Phase refreshing counts) (refreshing' : Bool) :
    Phase refreshing' { counts with answers := counts.answers + counts.waiting, waiting := 0 } := by
  cases h with
  | out => exact .out
  | waits => exact .answered (by decide) (by decide)
  | outAgain => exact .outAgain
  | answered hSent hRenewals => exact .answered hSent hRenewals

theorem Phase.sent_after {refreshing : Bool} {counts : Counts} (h : Phase refreshing counts) (refreshing' : Bool) :
    Phase refreshing'
      { counts with
        replies := counts.replies + counts.waiting, waiting := 0, sent := counts.sent + counts.waiting } := by
  cases h with
  | out => exact .out
  | waits => exact .outAgain
  | outAgain => exact .outAgain
  | answered hSent hRenewals => exact .answered hSent hRenewals

namespace Proceeds

variable (h : api.Proceeds)

include h

theorem tokenRefreshed_of_not_renewable (hRenewable : api.renewable = false) : api.tokenRefreshed = [] := by
  by_contra hWaiting
  have hRefreshable := h.refreshable (h.isRefreshing_of_waiting hWaiting)
  exact absurd (hRenewable.symm.trans hRefreshable) (by decide)

theorem with_account {account' : KickAccount}
    (hToken : account'.refresh.isSome = true → account'.refreshToken_ ≠ [])
    (hRefresh : api.tokenRefreshed ≠ [] → account'.refresh.isSome = true) :
    { api with account_ := some account' }.Proceeds := by
  have hWaiting (id : Nat) (hId : id < api.calls) : (api.counts id).waiting = 0 ∨ account'.refresh.isSome = true := by
    by_cases hNone : api.tokenRefreshed = []
    · left
      simp [counts, hNone]
    · exact .inr (hRefresh hNone)
  constructor
  · intro id hId
    rcases hWaiting id hId with hNot | hRuns
    · exact (h.phases id hId).of_not_waiting hNot _
    · exact (h.phases id hId).mono fun _ => hRuns
  · exact h.unused
  · exact fun _ => rfl
  · intro hRuns
    exact decide_eq_true (hToken hRuns)
  · exact h.failed
  · exact h.refused
  · exact h.justified

theorem refreshAccessToken : (api.step toPercentEncoding .refreshAccessToken).Proceeds := by
  have hStep : api.step toPercentEncoding .refreshAccessToken = api.refreshAccessToken := rfl
  rw [hStep]
  by_cases hRenewable : api.renewable = true
  · obtain ⟨account, hAccount, hToken⟩ := exists_of_renewable hRenewable
    rw [refreshAccessToken_of_renewable hAccount hToken]
    exact h.with_account (fun _ => hToken) fun _ => rfl
  · have hNot : api.renewable = false := by simpa using hRenewable
    rcases refreshAccessToken_of_not_renewable hNot with hSame | hFailed
    · rw [hSame]
      exact h
    · rw [hFailed, refreshFailed_of_nil (h.tokenRefreshed_of_not_renewable hNot)]
      exact h

theorem refreshTimerFires : (api.step toPercentEncoding .refreshTimerFires).Proceeds := by
  have hStep : api.step toPercentEncoding .refreshTimerFires =
      { api with account_ := api.account_.map KickAccount.refreshTimerFires } := rfl
  rw [hStep]
  cases hAccount : api.account_ with
  | none =>
    rw [Option.map_none, ← hAccount]
    exact h
  | some account =>
    have hRuns : account.refreshTimerFires.refresh.isSome = account.refresh.isSome :=
      KickAccount.isSome_refreshTimerFires
    apply h.with_account
    · rw [hRuns]
      intro hRefresh
      have hRenewable := h.refreshable (by simpa [isRefreshing, hAccount] using hRefresh)
      rw [KickAccount.refreshToken_refreshTimerFires]
      simpa [renewable, hAccount] using hRenewable
    · intro hWaiting
      rw [hRuns]
      simpa [isRefreshing, hAccount] using h.isRefreshing_of_waiting hWaiting

theorem of_kept {account' : KickAccount} {next : KickApi} (hOver : account'.refresh = none)
    (hKept : Kept { api with account_ := some account', tokenRefreshed := [] } next)
    (hPhases : ∀ id < api.calls, Phase false (next.counts id))
    (hUnused : ∀ id, api.calls ≤ id → next.counts id = {})
    (hJustified : ∀ answer ∈ next.answers,
      IsAuthenticationFailure answer.result.errorMessage → answer.renewable = false) :
    next.Proceeds := by
  have hQuiet : next.isRefreshing = false := by
    rw [isRefreshing, hKept.account]
    exact congrArg Option.isSome hOver
  constructor
  · intro id hId
    rw [hQuiet]
    exact hPhases id (hKept.calls ▸ hId)
  · intro id hId
    exact hUnused id (hKept.calls ▸ hId)
  · exact fun _ => congrArg Option.isSome hKept.account
  · intro hRuns
    exact absurd (hQuiet.symm.trans hRuns) (by decide)
  · exact hKept.failed.trans h.failed
  · exact hKept.refused.trans h.refused
  · exact hJustified

theorem refreshSucceeded {account' : KickAccount} (now : Int) (hOver : account'.refresh = none)
    (hRenews : api.tokenRefreshed ≠ [] → account'.isAuthenticated now = true ∨ account'.refreshToken_ = []) :
    ({ api with account_ := some account' }.refreshSucceeded now toPercentEncoding).Proceeds := by
  let base := { api with account_ := some account', tokenRefreshed := [] }
  have hBase (id : Nat) : base.counts id = { api.counts id with waiting := 0 } := rfl
  have hCount (id : Nat) : (api.tokenRefreshed.map Call.id).count id = (api.counts id).waiting := rfl
  rcases base.verdict_cases now with ⟨result, hVerdict⟩ | ⟨accessToken, hVerdict⟩
  · obtain ⟨hKept, hReplies, hAnswers, hCounts⟩ :=
      foldl_send_of_answered toPercentEncoding api.tokenRefreshed hVerdict
    apply h.of_kept hOver hKept
    · intro id hId
      rw [hCounts, hBase, hCount]
      exact (h.phases id hId).answered_after _
    · intro id hId
      rw [hCounts, hBase, hCount, h.unused id hId]
      rfl
    · intro answer hMem hFailure
      rw [hAnswers] at hMem
      rcases List.mem_append.mp hMem with hOld | hNew
      · exact h.justified answer hOld hFailure
      · obtain ⟨call, hCall, rfl⟩ := List.mem_map.mp hNew
        have hNot : base.authenticated now = false := not_authenticated_of_failure hVerdict hFailure
        have hToken : account'.refreshToken_ = [] :=
          (hRenews (List.ne_nil_of_mem hCall)).resolve_left fun hGood => absurd (hNot.symm.trans hGood) (by decide)
        exact decide_eq_false (not_not.mpr hToken)
  · obtain ⟨hKept, hAnswers, hCounts⟩ := foldl_send_of_goesOut toPercentEncoding api.tokenRefreshed hVerdict
    apply h.of_kept hOver hKept
    · intro id hId
      rw [hCounts, hBase, hCount]
      exact (h.phases id hId).sent_after _
    · intro id hId
      rw [hCounts, hBase, hCount, h.unused id hId]
      rfl
    · intro answer hMem hFailure
      rw [hAnswers] at hMem
      exact h.justified answer hMem hFailure

theorem refreshReplied (reply : RefreshReply) (now : Int)
    (hWell : api.tokenRefreshed ≠ [] → ∀ account ∈ api.account_, ∀ retryAttempt,
      account.refresh = some (.requested retryAttempt) → Renews (reply.outcome retryAttempt)) :
    (api.step toPercentEncoding (.refreshReplied reply now)).Proceeds := by
  have hStep : api.step toPercentEncoding (.refreshReplied reply now) =
      api.refreshReplied now toPercentEncoding reply := rfl
  rw [hStep]
  by_cases hRuns : ∃ account retryAttempt, api.account_ = some account ∧ account.refresh = some (.requested retryAttempt)
  · obtain ⟨account, retryAttempt, hAccount, hRefresh⟩ := hRuns
    have hRenewable : api.renewable = true := h.refreshable (by simp [isRefreshing, hAccount, hRefresh])
    have hToken : account.refreshToken_ ≠ [] := by simpa [renewable, hAccount] using hRenewable
    have hRenews (hWaiting : api.tokenRefreshed ≠ []) : Renews (reply.outcome retryAttempt) :=
      hWell hWaiting account hAccount retryAttempt hRefresh
    rw [refreshReplied_eq hAccount hRefresh]
    cases hOutcome : reply.outcome retryAttempt with
    | failed authenticationChanged =>
      rw [hOutcome] at hRenews
      have hNone : api.tokenRefreshed = [] := by
        by_contra hWaiting
        exact hRenews hWaiting
      let stopped := { api with account_ := some { account with refresh := none } }
      have hOver : stopped.Proceeds := by
        apply h.with_account
        · rintro ⟨⟩
        · exact fun hWaiting => absurd hNone hWaiting
      have hSame : stopped.refreshFailed = stopped := refreshFailed_of_nil hNone
      rw [← hSame] at hOver
      exact hOver
    | repeated =>
      apply h.with_account
      · exact fun _ => hToken
      · exact fun _ => rfl
    | renewed tokens =>
      rw [hOutcome] at hRenews
      apply h.refreshSucceeded
      · rfl
      · intro hWaiting
        rcases hRenews hWaiting with hLasts | hLast
        · left
          exact (KickAccount.isAuthenticated_renew tokens now (KickAccount.accessToken_of_renewed hOutcome)).mpr hLasts
        · right
          exact congrArg (fun token => token.getD account.refreshToken_) hLast
  · rw [refreshReplied_of_not_requested reply hRuns]
    exact h

theorem step (event : ApiEvent) (hWell : api.GoesWell event) : (api.step toPercentEncoding event).Proceeds := by
  cases event with
  | called request now => exact h.called request now hWell
  | replied index reply now => exact h.replied index reply now hWell
  | refreshReplied reply now => exact h.refreshReplied reply now hWell
  | refreshTimerFires => exact h.refreshTimerFires
  | refreshAccessToken => exact h.refreshAccessToken

end Proceeds

end KickApi

open Lib

namespace KickApi

variable {api : KickApi} {now : Int} {toPercentEncoding : QString → QString}

namespace Proceeds

variable (h : api.Proceeds)

include h

theorem absurd_of_told {next : KickApi} (hNext : next.AnswersOnce) (hFailed : next.failed = api.failed)
    (hRefused : next.refused = api.refused) (call : Nat) (hTold : ⟨call, unauthenticated, true⟩ ∈ next.answers) :
    False := by
  apply hNext.justified _ hTold
  refine ⟨.inl rfl, rfl, ?_, ?_⟩
  · rw [hFailed, h.failed]
    exact List.not_mem_nil
  · rw [hRefused, h.refused]
    exact List.not_mem_nil

theorem authenticated_of_called {request : KickRequest}
    (hNext : (api.step toPercentEncoding (.called request now)).AnswersOnce) (hRenewable : api.renewable = true) :
    api.authenticated now = true := by
  by_contra hNot
  let called := { api with calls := api.calls + 1 }
  have hVerdict : called.verdict now = .answered unauthenticated :=
    verdict_of_not_authenticated (Bool.not_eq_true _ ▸ hNot)
  have hStep : api.step toPercentEncoding (.called request now) = called.answer api.calls unauthenticated :=
    send_of_answered hVerdict _
  rw [hStep] at hNext
  apply h.absurd_of_told hNext rfl rfl api.calls
  have hSame : called.renewable = true := hRenewable
  rw [answer, hSame]
  exact List.mem_append_right _ (List.mem_singleton.mpr rfl)

theorem first_of_refused {call : Call} {next : KickApi} (hMem : call ∈ api.replies) (hNext : next.AnswersOnce)
    (hRenewals : next.renewals = api.renewals ++ [call.id]) : api.attempts call = 1 := by
  rcases h.out_of_mem hMem with hCounts | hCounts
  · exact congrArg Counts.sent hCounts
  · have hOnce : (next.counts call.id).renewals ≤ 1 := hNext.renewals call.id
    have hBefore : api.renewals.count call.id = 1 := congrArg Counts.renewals hCounts
    have hAfter : (next.counts call.id).renewals = api.renewals.count call.id + 1 := by
      simp [counts, hRenewals]
    omega

omit h in
theorem isRefreshing_of_answersOnce {next : KickApi} {id : Nat} (hNext : next.AnswersOnce) (hId : id < next.calls)
    (hAnswers : (next.counts id).answers = 0) (hReplies : (next.counts id).replies = 0) : next.isRefreshing = true := by
  by_contra hQuiet
  have hOnce := hNext.once id hId
  rw [if_neg hQuiet, hAnswers, hReplies] at hOnce
  exact absurd hOnce (by decide)

theorem renewable_of_refused {index : Nat} {call : Call} (hCall : api.replies[index]? = some call) {next : KickApi}
    (hNext : next.AnswersOnce) (hCalls : next.calls = api.calls) (hAnswers : next.answers = api.answers)
    (hReplies : next.replies = api.replies.eraseIdx index)
    (hAccount : api.renewable = false → next.account_ = api.account_) : api.renewable = true := by
  by_contra hNot
  have hMem := List.mem_of_getElem? hCall
  have hCounts : (api.counts call.id).answers = 0 ∧ (api.counts call.id).replies = 1 := by
    rcases h.out_of_mem hMem with hOut | hOut
    · rw [hOut]
      exact ⟨rfl, rfl⟩
    · rw [hOut]
      exact ⟨rfl, rfl⟩
  have hErased := congrArg Counts.replies (counts_eraseIdx call.id hCall)
  have hRuns : next.isRefreshing = true := by
    apply isRefreshing_of_answersOnce hNext (hCalls ▸ h.id_lt_of_mem_replies hMem)
    · rw [counts, hAnswers]
      exact hCounts.1
    · rw [counts, hReplies]
      refine hErased.trans ?_
      rw [if_pos rfl, hCounts.2]
  rw [isRefreshing, hAccount (by simpa using hNot)] at hRuns
  exact hNot (h.refreshable hRuns)

theorem not_answersOnce_failed {account' : KickAccount} (hWaiting : api.tokenRefreshed ≠ [])
    (hOver : account'.refresh = none) : ¬{ api with account_ := some account' }.refreshFailed.AnswersOnce := by
  intro hNext
  obtain ⟨call, hMem⟩ := List.exists_mem_of_ne_nil _ hWaiting
  obtain ⟨hCall, -, hCounts⟩ := h.waits_of_mem hMem
  have hRuns : ({ api with account_ := some account' }.refreshFailed).isRefreshing = true :=
    isRefreshing_of_answersOnce hNext hCall (congrArg Counts.answers hCounts) (congrArg Counts.replies hCounts)
  have hQuiet : ({ api with account_ := some account' }.refreshFailed).isRefreshing = false :=
    congrArg Option.isSome hOver
  exact absurd (hQuiet.symm.trans hRuns) (by decide)

theorem not_answersOnce_succeeded {account' : KickAccount} (hWaiting : api.tokenRefreshed ≠ [])
    (hExpired : account'.isAuthenticated now = false) (hToken : account'.refreshToken_ ≠ []) :
    ¬({ api with account_ := some account' }.refreshSucceeded now toPercentEncoding).AnswersOnce := by
  intro hNext
  obtain ⟨call, hMem⟩ := List.exists_mem_of_ne_nil _ hWaiting
  let base := { api with account_ := some account', tokenRefreshed := [] }
  have hVerdict : base.verdict now = .answered unauthenticated := verdict_of_not_authenticated hExpired
  obtain ⟨hKept, -, hAnswers, -⟩ := foldl_send_of_answered toPercentEncoding api.tokenRefreshed hVerdict
  have hRenewable : base.renewable = true := decide_eq_true hToken
  apply h.absurd_of_told hNext hKept.failed hKept.refused call.id
  rw [KickApi.refreshSucceeded, hAnswers, hRenewable]
  exact List.mem_append_right _ (List.mem_map.mpr ⟨call, hMem, rfl⟩)

theorem goesWell_of_answersOnce (event : ApiEvent) (hNext : (api.step toPercentEncoding event).AnswersOnce) :
    api.GoesWell event := by
  cases event with
  | called request now =>
    by_cases hRenewable : api.renewable = true
    · exact .inl (h.authenticated_of_called hNext hRenewable)
    · exact .inr (by simpa using hRenewable)
  | replied index reply now =>
    intro hRefused call hCall
    let updated := { api with replies := api.replies.eraseIdx index }.updateRateLimitFromReply reply
    have hStep : api.step toPercentEncoding (.replied index reply now) =
        (updated.noteRefusal call).refreshAndRetry call := by
      rw [KickApi.step, hCall]
      exact if_pos hRefused
    rw [hStep] at hNext
    obtain ⟨hRenewals, hCalls, hAnswers, hReplies, hAccount⟩ := refreshAndRetry_kept (updated.noteRefusal call) call
    rw [noteRefusal_eq] at hRenewals hCalls hAnswers hReplies hAccount hNext
    constructor
    · exact h.renewable_of_refused hCall hNext hCalls hAnswers hReplies hAccount
    · exact h.first_of_refused (List.mem_of_getElem? hCall) hNext hRenewals
  | refreshReplied reply now =>
    intro hWaiting account hAccount retryAttempt hRefresh
    have hStep : api.step toPercentEncoding (.refreshReplied reply now) = _ := refreshReplied_eq hAccount hRefresh reply
    rw [hStep] at hNext
    cases hOutcome : reply.outcome retryAttempt with
    | failed authenticationChanged =>
      rw [hOutcome] at hNext
      exact absurd hNext (h.not_answersOnce_failed hWaiting rfl)
    | repeated => trivial
    | renewed tokens =>
      rw [hOutcome] at hNext
      have hToken := KickAccount.accessToken_of_renewed hOutcome
      have hSome : api.account_ = some account := hAccount
      have hRenewable : api.renewable = true := h.refreshable (by simp [isRefreshing, hSome, hRefresh])
      have hKeptToken : account.refreshToken_ ≠ [] := by simpa [renewable, hSome] using hRenewable
      by_contra hNot
      obtain ⟨hShort, hAgain⟩ := not_or.mp hNot
      apply h.not_answersOnce_succeeded hWaiting _ _ hNext
      · by_contra hGood
        exact hShort ((KickAccount.isAuthenticated_renew tokens now hToken).mp (Bool.not_eq_false _ ▸ hGood))
      · intro hEmpty
        cases hNew : tokens.refreshToken with
        | none => exact hKeptToken (by simpa [KickAccount.refreshed, KickAccount.renew, hNew] using hEmpty)
        | some token =>
          have hNone : token = [] := by simpa [KickAccount.refreshed, KickAccount.renew, hNew] using hEmpty
          exact hAgain (hNone ▸ hNew)
  | refreshTimerFires | refreshAccessToken => trivial

end Proceeds

abbrev FoundAccount := { account : KickAccount // account.refresh.isSome = true → account.refreshToken_ ≠ [] }

def start (account : Option FoundAccount) (info : KickRateLimitInfo) : KickApi :=
  { account_ := account.map Subtype.val, rateLimitInfo_ := info }

theorem proceeds_start (account : Option FoundAccount) (info : KickRateLimitInfo) : (start account info).Proceeds := by
  constructor
  · exact fun id hId => absurd hId (Nat.not_lt_zero id)
  · exact fun _ _ => rfl
  · exact fun hOut => absurd rfl hOut
  · intro hRuns
    cases account with
    | none => cases hRuns
    | some account => exact decide_eq_true (account.2 hRuns)
  · rfl
  · rfl
  · rintro _ ⟨⟩

/-- Every call is answered once, by a refresh if need be, if and only if every step goes well. -/
theorem answersOnce_iff (toPercentEncoding : QString → QString) (account : Option FoundAccount)
    (info : KickRateLimitInfo) (events : List ApiEvent) :
    (∀ reached, reached <+: events → (reached.foldl (step toPercentEncoding) (start account info)).AnswersOnce) ↔
      AllSteps (step toPercentEncoding) GoesWell (start account info) events := by
  have hSide : AllSteps (step toPercentEncoding) (fun _ _ => True) (start account info) events :=
    .of_forall_mem fun _ _ _ => trivial
  apply AllSteps.forall_reached_iff_of_strengthening hSide Proceeds AnswersOnce
  · exact proceeds_start account info
  · exact fun _ h => h.answersOnce
  · exact fun _ event h _ hNext => h.goesWell_of_answersOnce event hNext
  · exact fun _ event h _ hWell => h.step event hWell

def expiredAccount : FoundAccount :=
  ⟨{ accessToken_ := QString.lit "old", refreshToken_ := QString.lit "refresh", expiresAt_ := 1000 }, by rintro ⟨⟩⟩

theorem not_answersOnce_expired :
    ¬∀ (toPercentEncoding : QString → QString) (account : Option FoundAccount) (info : KickRateLimitInfo)
        (events : List ApiEvent), (events.foldl (step toPercentEncoding) (start account info)).AnswersOnce := by
  intro hAll
  have hOnce := hAll id (some expiredAccount) {} [.called (.sendMessage 1 (QString.lit "hi")) 2000]
  have hTold := hOnce.justified ⟨0, unauthenticated, true⟩ (by decide)
  exact hTold ⟨.inl rfl, rfl, List.not_mem_nil, List.not_mem_nil⟩

end KickApi

end Chatterino.Kick
