import Chatterino.Kick.KickApi

/-! # What a request of the Kick API meets first

Without a token that is known to be good, the user is told to log in. Otherwise the request goes out, unless the rate
is limited.
-/

namespace Chatterino.Kick

namespace KickApi

variable {api : KickApi} {now : Int} {toPercentEncoding : QString → QString}

def authenticated (api : KickApi) (now : Int) : Bool := api.account_.any fun account => account.isAuthenticated now

theorem verdict_of_not_authenticated (h : api.authenticated now = false) :
    api.verdict now = .answered unauthenticated := by
  unfold verdict
  cases hAccount : api.account_ with
  | none => rfl
  | some account =>
    have hToken : account.isAuthenticated now = false := by simpa [authenticated, hAccount] using h
    simp [hToken]

theorem verdict_of_authenticated (h : api.authenticated now = true) :
    api.verdict now = .answered (api.rateLimited now) ∨ ∃ accessToken, api.verdict now = .goesOut accessToken := by
  unfold verdict
  cases hAccount : api.account_ with
  | none => simp [authenticated, hAccount] at h
  | some account =>
    have hToken : account.isAuthenticated now = true := by simpa [authenticated, hAccount] using h
    have hExpired := KickAccount.isTokenExpired_of_isAuthenticated hToken
    by_cases hLimited : api.isRateLimited now = true
    · exact .inl (by simp [hToken, hLimited])
    · exact .inr ⟨account.accessToken_, by simp [hToken, hLimited, hExpired]⟩

theorem not_failure_rateLimited : ¬IsAuthenticationFailure (api.rateLimited now).errorMessage :=
  @not_isAuthenticationFailure .RateLimited (by decide) (by decide) [] _

theorem isSome_of_authenticated (h : api.authenticated now = true) : api.account_.isSome = true := by
  cases hAccount : api.account_ with
  | none => simp [authenticated, hAccount] at h
  | some account => rfl

theorem not_authenticated_of_failure {result : KickApiResult} (hVerdict : api.verdict now = .answered result)
    (hFailure : IsAuthenticationFailure result.errorMessage) : api.authenticated now = false := by
  by_contra hToken
  have hGood : api.authenticated now = true := by simpa using hToken
  rcases verdict_of_authenticated hGood with hLimited | ⟨accessToken, hOut⟩
  · obtain rfl := Verdict.answered.inj (hVerdict.symm.trans hLimited)
    exact not_failure_rateLimited hFailure
  · exact absurd (hVerdict.symm.trans hOut) (by simp)

theorem authenticated_of_goesOut {accessToken : QString} (h : api.verdict now = .goesOut accessToken) :
    api.authenticated now = true := by
  by_contra hNot
  rw [verdict_of_not_authenticated (by simpa using hNot)] at h
  cases h

theorem send_of_answered {result : KickApiResult} (h : api.verdict now = .answered result) (call : Call) :
    api.send now toPercentEncoding call = api.answer call.id result := by
  rw [send, h]

theorem send_of_goesOut {accessToken : QString} (h : api.verdict now = .goesOut accessToken) (call : Call) :
    api.send now toPercentEncoding call = api.post toPercentEncoding call accessToken := by
  rw [send, h]

theorem verdict_cases (api : KickApi) (now : Int) :
    (∃ result, api.verdict now = .answered result) ∨ ∃ accessToken, api.verdict now = .goesOut accessToken := by
  by_cases hToken : api.authenticated now = true
  · rcases verdict_of_authenticated hToken with hVerdict | hVerdict
    · exact .inl ⟨_, hVerdict⟩
    · exact .inr hVerdict
  · exact .inl ⟨_, verdict_of_not_authenticated (by simpa using hToken)⟩

theorem exists_of_renewable (h : api.renewable = true) :
    ∃ account, api.account_ = some account ∧ account.refreshToken_ ≠ [] := by
  simpa [renewable, Option.any_eq_true] using h

theorem refreshAccessToken_of_renewable {account : KickAccount} (hAccount : api.account_ = some account)
    (hToken : account.refreshToken_ ≠ []) :
    api.refreshAccessToken =
      { api with account_ := some { account with refresh := some (account.refresh.getD (.requested 0)) } } := by
  unfold refreshAccessToken
  simp only [hAccount, KickAccount.refreshAccessToken_of_ne hToken, Bool.false_eq_true, if_false]

theorem refreshAccessToken_of_not_renewable (h : api.renewable = false) :
    api.refreshAccessToken = api ∨ api.refreshAccessToken = api.refreshFailed := by
  cases hAccount : api.account_ with
  | none =>
    left
    unfold refreshAccessToken
    rw [hAccount]
  | some account =>
    right
    have hToken : account.refreshToken_ = [] := by simpa [renewable, hAccount] using h
    unfold refreshAccessToken
    simp only [hAccount, KickAccount.refreshAccessToken, hToken, if_true]
    rw [← hAccount]

theorem refreshFailed_of_nil (hWaiting : api.tokenRefreshed = []) : api.refreshFailed = api := by
  unfold refreshFailed
  rw [hWaiting, List.map_nil, List.append_nil, ← hWaiting]

theorem refreshAndRetry_of_renewable {account : KickAccount} (hAccount : api.account_ = some account)
    (hToken : account.refreshToken_ ≠ []) (call : Call) :
    api.refreshAndRetry call =
      { api with
        renewals := api.renewals ++ [call.id], tokenRefreshed := api.tokenRefreshed ++ [call],
        account_ := some { account with refresh := some (account.refresh.getD (.requested 0)) } } := by
  unfold refreshAndRetry
  rw [if_neg (by simp [hAccount])]
  exact refreshAccessToken_of_renewable hAccount hToken

theorem refreshAccessToken_kept (api : KickApi) :
    api.refreshAccessToken.renewals = api.renewals ∧ api.refreshAccessToken.calls = api.calls ∧
      api.refreshAccessToken.answers = api.answers ∧ api.refreshAccessToken.replies = api.replies ∧
      (api.renewable = false → api.refreshAccessToken.account_ = api.account_) := by
  by_cases hRenewable : api.renewable = true
  · obtain ⟨account, hAccount, hToken⟩ := exists_of_renewable hRenewable
    rw [refreshAccessToken_of_renewable hAccount hToken]
    exact ⟨rfl, rfl, rfl, rfl, fun hNot => absurd (hRenewable.symm.trans hNot) (by decide)⟩
  · rcases refreshAccessToken_of_not_renewable (Bool.not_eq_true _ ▸ hRenewable) with hSame | hFailed
    · rw [hSame]
      exact ⟨rfl, rfl, rfl, rfl, fun _ => rfl⟩
    · rw [hFailed]
      exact ⟨rfl, rfl, rfl, rfl, fun _ => rfl⟩

theorem refreshAndRetry_kept (api : KickApi) (call : Call) :
    (api.refreshAndRetry call).renewals = api.renewals ++ [call.id] ∧
      (api.refreshAndRetry call).calls = api.calls ∧ (api.refreshAndRetry call).answers = api.answers ∧
      (api.refreshAndRetry call).replies = api.replies ∧
      (api.renewable = false → (api.refreshAndRetry call).account_ = api.account_) := by
  unfold refreshAndRetry
  dsimp only
  split
  · exact ⟨rfl, rfl, rfl, rfl, fun _ => rfl⟩
  · exact refreshAccessToken_kept _

theorem noteRefusal_eq (api : KickApi) (call : Call) :
    api.noteRefusal call = { api with refused := (api.noteRefusal call).refused } := by
  unfold noteRefusal
  split
  · rfl
  · rfl

theorem counts_refreshAndRetry {account : KickAccount} (hAccount : api.account_ = some account)
    (hToken : account.refreshToken_ ≠ []) (call : Call) (id : Nat) :
    (api.refreshAndRetry call).counts id =
      { api.counts id with
        waiting := (api.counts id).waiting + if call.id = id then 1 else 0,
        renewals := (api.counts id).renewals + if call.id = id then 1 else 0 } := by
  rw [refreshAndRetry_of_renewable hAccount hToken]
  simp [counts, List.count_append, List.count_singleton]

theorem refreshReplied_eq {account : KickAccount} {retryAttempt : Nat} (hAccount : api.account_ = some account)
    (hRefresh : account.refresh = some (.requested retryAttempt)) (reply : RefreshReply) :
    api.refreshReplied now toPercentEncoding reply =
      { api with
        account_ := some (account.refreshed retryAttempt now (reply.outcome retryAttempt)) }.exits now
        toPercentEncoding (reply.outcome retryAttempt) := by
  rw [refreshReplied, hAccount]
  dsimp only
  rw [hRefresh]

theorem refreshReplied_of_not_requested (reply : RefreshReply)
    (h : ¬∃ account retryAttempt, api.account_ = some account ∧ account.refresh = some (.requested retryAttempt)) :
    api.refreshReplied now toPercentEncoding reply = api := by
  rw [refreshReplied]
  split
  · rfl
  · rename_i account hAccount
    split
    · rename_i retryAttempt hRefresh
      exact absurd ⟨account, retryAttempt, hAccount, hRefresh⟩ h
    · rfl

theorem not_failure_result {reply : KickReply} (hRefused : ¬reply.Refused) :
    ¬IsAuthenticationFailure (api.result now reply).errorMessage := by
  unfold result
  split
  · rename_i hError
    have hStatus : reply.statusCode ≠ 401 := fun hStatus => hRefused ⟨hError, hStatus⟩
    obtain ⟨hScope, hExpired⟩ := mapHttpStatusToKickError_ne hStatus reply.rawApiMessage
    exact not_isAuthenticationFailure hScope hExpired _ _
  · have hSilent : ¬IsAuthenticationFailure [] := by decide
    exact hSilent

structure Kept (api api' : KickApi) : Prop where
  account : api'.account_ = api.account_
  info : api'.rateLimitInfo_ = api.rateLimitInfo_
  calls : api'.calls = api.calls
  failed : api'.failed = api.failed
  refused : api'.refused = api.refused

theorem foldl_send_of_answered (toPercentEncoding : QString → QString) {result : KickApiResult} (calls : List Call)
    (h : api.verdict now = .answered result) :
    let sent := calls.foldl (fun api call => api.send now toPercentEncoding call) api
    Kept api sent ∧ sent.replies = api.replies ∧
      sent.answers = api.answers ++ calls.map (fun call => ⟨call.id, result, api.renewable⟩) ∧
      ∀ id, sent.counts id =
        { api.counts id with answers := (api.counts id).answers + (calls.map Call.id).count id } := by
  induction calls generalizing api with
  | nil =>
    refine ⟨⟨rfl, rfl, rfl, rfl, rfl⟩, rfl, (List.append_nil _).symm, fun id => rfl⟩
  | cons call calls ih =>
    rw [List.foldl_cons, send_of_answered h]
    obtain ⟨hKept, hReplies, hAnswers, hCounts⟩ := @ih (api.answer call.id result) h
    refine ⟨⟨hKept.account, hKept.info, hKept.calls, hKept.failed, hKept.refused⟩, hReplies, ?_, ?_⟩
    · rw [hAnswers]
      exact List.append_assoc ..
    · intro id
      rw [hCounts, counts_answer, List.map_cons, List.count_cons]
      simp only [Counts.mk.injEq, and_true, beq_iff_eq]
      omega

theorem foldl_send_of_goesOut (toPercentEncoding : QString → QString) {accessToken : QString} (calls : List Call)
    (h : api.verdict now = .goesOut accessToken) :
    let sent := calls.foldl (fun api call => api.send now toPercentEncoding call) api
    Kept api sent ∧ sent.answers = api.answers ∧
      ∀ id, sent.counts id =
        { api.counts id with
          replies := (api.counts id).replies + (calls.map Call.id).count id,
          sent := (api.counts id).sent + (calls.map Call.id).count id } := by
  induction calls generalizing api with
  | nil => exact ⟨⟨rfl, rfl, rfl, rfl, rfl⟩, rfl, fun id => rfl⟩
  | cons call calls ih =>
    rw [List.foldl_cons, send_of_goesOut h]
    obtain ⟨hKept, hAnswers, hCounts⟩ := @ih (api.post toPercentEncoding call accessToken) h
    refine ⟨⟨hKept.account, hKept.info, hKept.calls, hKept.failed, hKept.refused⟩, hAnswers, ?_⟩
    intro id
    rw [hCounts, counts_post, List.map_cons, List.count_cons]
    simp only [Counts.mk.injEq, true_and, and_true, beq_iff_eq]
    omega

end KickApi

namespace KickApi

variable {api : KickApi} {now : Int} {toPercentEncoding : QString → QString}

def Renews (outcome : RefreshReply.Outcome) : Prop :=
  match outcome with
  | .failed _ => False
  | .repeated => True
  | .renewed tokens => 0 < tokens.expiresIn ∨ tokens.refreshToken = some []

instance (outcome : RefreshReply.Outcome) : Decidable (Renews outcome) := by
  cases outcome <;> unfold Renews <;> infer_instance

def attempts (api : KickApi) (call : Call) : Nat := (api.sent.map Prod.fst).count call.id

def GoesWell (api : KickApi) : ApiEvent → Prop
  | .called _ now => api.authenticated now = true ∨ api.renewable = false
  | .replied index reply _ =>
    reply.Refused → ∀ call ∈ api.replies[index]?, api.renewable = true ∧ api.attempts call = 1
  | .refreshReplied reply _ =>
    api.tokenRefreshed ≠ [] → ∀ account ∈ api.account_, ∀ retryAttempt,
      account.refresh = some (.requested retryAttempt) → Renews (reply.outcome retryAttempt)
  | _ => True

theorem Phase.mono {refreshing refreshing' : Bool} {counts : Counts} (h : Phase refreshing counts)
    (hRefreshing : refreshing = true → refreshing' = true) : Phase refreshing' counts := by
  cases h with
  | out => exact .out
  | waits h => exact .waits (hRefreshing h)
  | outAgain => exact .outAgain
  | answered hSent hRenewals => exact .answered hSent hRenewals

theorem Phase.of_not_waiting {refreshing : Bool} {counts : Counts} (h : Phase refreshing counts)
    (hWaiting : counts.waiting = 0) (refreshing' : Bool) : Phase refreshing' counts := by
  cases h with
  | out => exact .out
  | waits => cases hWaiting
  | outAgain => exact .outAgain
  | answered hSent hRenewals => exact .answered hSent hRenewals

namespace Proceeds

variable (h : api.Proceeds)

include h

theorem id_lt_of_mem_replies {call : Call} (hMem : call ∈ api.replies) : call.id < api.calls := by
  by_contra hUnused
  have hCounts := congrArg Counts.replies (h.unused call.id (by omega))
  have hCount : 0 < (api.replies.map Call.id).count call.id :=
    List.count_pos_iff.mpr (List.mem_map_of_mem hMem)
  exact absurd hCounts (by simp only [counts]; omega)

theorem waits_of_mem {call : Call} (hMem : call ∈ api.tokenRefreshed) :
    call.id < api.calls ∧ api.isRefreshing = true ∧
      api.counts call.id = { waiting := 1, sent := 1, renewals := 1 } := by
  have hCount : 0 < (api.counts call.id).waiting := List.count_pos_iff.mpr (List.mem_map_of_mem hMem)
  have hCall : call.id < api.calls := by
    by_contra hUnused
    rw [h.unused call.id (by omega)] at hCount
    exact absurd hCount (by decide)
  have hPhase := h.phases call.id hCall
  generalize api.counts call.id = counts at hPhase hCount
  cases hPhase with
  | waits hRefreshing => exact ⟨hCall, hRefreshing, rfl⟩
  | out | outAgain | answered => exact absurd hCount (Nat.lt_irrefl 0)

theorem isRefreshing_of_waiting (hWaiting : api.tokenRefreshed ≠ []) : api.isRefreshing = true := by
  obtain ⟨call, hMem⟩ := List.exists_mem_of_ne_nil _ hWaiting
  exact (h.waits_of_mem hMem).2.1

theorem out_of_mem {call : Call} (hMem : call ∈ api.replies) :
    api.counts call.id = { replies := 1, sent := 1 } ∨ api.counts call.id = { replies := 1, sent := 2, renewals := 1 } := by
  have hCount : 0 < (api.counts call.id).replies := List.count_pos_iff.mpr (List.mem_map_of_mem hMem)
  have hPhase := h.phases call.id (h.id_lt_of_mem_replies hMem)
  generalize api.counts call.id = counts at hPhase hCount
  cases hPhase with
  | out => exact .inl rfl
  | outAgain => exact .inr rfl
  | waits | answered => exact absurd hCount (Nat.lt_irrefl 0)

theorem called (request : KickRequest) (now : Int) (hWell : api.authenticated now = true ∨ api.renewable = false) :
    (api.step toPercentEncoding (.called request now)).Proceeds := by
  have hFresh : api.counts api.calls = {} := h.unused api.calls (Nat.le_refl _)
  have hOlder {id : Nat} (hId : id < api.calls + 1) (hOther : api.calls ≠ id) : id < api.calls := by omega
  let called := { api with calls := api.calls + 1 }
  rcases called.verdict_cases now with ⟨result, hVerdict⟩ | ⟨accessToken, hVerdict⟩
  · have hStep : api.step toPercentEncoding (.called request now) = called.answer api.calls result :=
      send_of_answered hVerdict _
    rw [hStep]
    constructor
    · intro id hId
      rw [counts_answer]
      by_cases hNew : api.calls = id
      · subst hNew
        have hCounts : called.counts api.calls = {} := hFresh
        rw [hCounts, if_pos rfl]
        exact .answered (Nat.zero_le _) (Nat.zero_le _)
      · rw [if_neg hNew]
        exact h.phases id (hOlder hId hNew)
    · intro id hId
      have hUnused : called.counts id = {} := h.unused id (Nat.le_of_succ_le hId)
      rw [counts_answer, hUnused, if_neg (Nat.ne_of_lt hId)]
    · exact h.account
    · exact h.refreshable
    · exact h.failed
    · exact h.refused
    · intro answer hMem hFailure
      rcases List.mem_append.mp hMem with hOld | hNew
      · exact h.justified answer hOld hFailure
      · obtain rfl := List.mem_singleton.mp hNew
        have hNot : api.authenticated now = false := not_authenticated_of_failure hVerdict hFailure
        exact hWell.resolve_left (by simp [hNot])
  · have hStep : api.step toPercentEncoding (.called request now) =
        called.post toPercentEncoding ⟨api.calls, request⟩ accessToken := send_of_goesOut hVerdict _
    rw [hStep]
    constructor
    · intro id hId
      rw [counts_post]
      by_cases hNew : api.calls = id
      · subst hNew
        have hCounts : called.counts api.calls = {} := hFresh
        rw [hCounts, if_pos rfl]
        exact .out
      · rw [if_neg hNew]
        exact h.phases id (hOlder hId hNew)
    · intro id hId
      have hUnused : called.counts id = {} := h.unused id (Nat.le_of_succ_le hId)
      rw [counts_post, hUnused, if_neg (Nat.ne_of_lt hId)]
    · intro _
      have hToken : called.authenticated now = true := authenticated_of_goesOut hVerdict
      exact isSome_of_authenticated hToken
    · exact h.refreshable
    · exact h.failed
    · exact h.refused
    · exact h.justified

section replied

variable {index : Nat} {call : Call} (hCall : api.replies[index]? = some call)

include hCall

theorem answered (result : KickApiResult) (info : KickRateLimitInfo)
    (hResult : ¬IsAuthenticationFailure result.errorMessage) :
    ({ api with replies := api.replies.eraseIdx index, rateLimitInfo_ := info }.answer call.id result).Proceeds := by
  have hMem := List.mem_of_getElem? hCall
  let erased := { api with replies := api.replies.eraseIdx index, rateLimitInfo_ := info }
  have hErased (id : Nat) : erased.counts id = _ := counts_eraseIdx id hCall
  constructor
  · intro id hId
    rw [counts_answer, hErased]
    by_cases hSame : call.id = id
    · subst hSame
      rcases h.out_of_mem hMem with hCounts | hCounts
      · rw [hCounts, if_pos rfl]
        exact .answered (by decide) (by decide)
      · rw [hCounts, if_pos rfl]
        exact .answered (by decide) (by decide)
    · rw [if_neg hSame]
      exact h.phases id hId
  · intro id hId
    have hOther : call.id ≠ id := Nat.ne_of_lt (Nat.lt_of_lt_of_le (h.id_lt_of_mem_replies hMem) hId)
    rw [counts_answer, hErased, h.unused id hId, if_neg hOther]
    rfl
  · exact fun _ => h.account (List.ne_nil_of_mem hMem)
  · exact h.refreshable
  · exact h.failed
  · exact h.refused
  · intro answer hAnswer hFailure
    rcases List.mem_append.mp hAnswer with hOld | hNew
    · exact h.justified answer hOld hFailure
    · obtain rfl := List.mem_singleton.mp hNew
      exact absurd hFailure hResult

theorem counts_of_first (hFirst : api.attempts call = 1) : api.counts call.id = { replies := 1, sent := 1 } := by
  rcases h.out_of_mem (List.mem_of_getElem? hCall) with hCounts | hCounts
  · exact hCounts
  · exact absurd (hFirst.symm.trans (congrArg Counts.sent hCounts)) (by decide)

theorem not_mem_renewals (hFirst : api.attempts call = 1) : call.id ∉ api.renewals :=
  List.count_eq_zero.mp (congrArg Counts.renewals (h.counts_of_first hCall hFirst))

theorem refusedOnce (info : KickRateLimitInfo) (hRenewable : api.renewable = true) (hFirst : api.attempts call = 1) :
    ({ api with replies := api.replies.eraseIdx index, rateLimitInfo_ := info }.refreshAndRetry call).Proceeds := by
  have hMem := List.mem_of_getElem? hCall
  let erased := { api with replies := api.replies.eraseIdx index, rateLimitInfo_ := info }
  have hErased (id : Nat) : erased.counts id = _ := counts_eraseIdx id hCall
  have hOut := h.counts_of_first hCall hFirst
  obtain ⟨account, hAccount, hToken⟩ := exists_of_renewable hRenewable
  have hErasedAccount : erased.account_ = some account := hAccount
  have hNext : erased.refreshAndRetry call = _ := refreshAndRetry_of_renewable hErasedAccount hToken call
  have hRefreshing : (erased.refreshAndRetry call).isRefreshing = true := by
    rw [hNext]
    rfl
  have hCounts (id : Nat) : (erased.refreshAndRetry call).counts id = _ :=
    counts_refreshAndRetry hErasedAccount hToken call id
  constructor
  · intro id hId
    rw [hNext] at hId
    rw [hRefreshing, hCounts, hErased]
    by_cases hSame : call.id = id
    · subst hSame
      rw [hOut, if_pos rfl]
      exact .waits rfl
    · rw [if_neg hSame]
      exact (h.phases id hId).mono fun _ => rfl
  · intro id hId
    rw [hNext] at hId
    have hOther : call.id ≠ id := Nat.ne_of_lt (Nat.lt_of_lt_of_le (h.id_lt_of_mem_replies hMem) hId)
    rw [hCounts, hErased, h.unused id hId, if_neg hOther]
    rfl
  · intro _
    rw [hNext]
    rfl
  · intro _
    rw [hNext]
    simpa [renewable] using hToken
  · rw [hNext]
    exact h.failed
  · rw [hNext]
    exact h.refused
  · rw [hNext]
    exact h.justified

end replied

theorem replied (index : Nat) (reply : KickReply) (now : Int)
    (hWell : reply.Refused → ∀ call ∈ api.replies[index]?, api.renewable = true ∧ api.attempts call = 1) :
    (api.step toPercentEncoding (.replied index reply now)).Proceeds := by
  cases hCall : api.replies[index]? with
  | none =>
    have hStep : api.step toPercentEncoding (.replied index reply now) = api := by rw [step, hCall]
    rw [hStep]
    exact h
  | some call =>
    have hStep : api.step toPercentEncoding (.replied index reply now) =
        { api with replies := api.replies.eraseIdx index }.finished now call reply := by rw [step, hCall]
    rw [hStep, finished]
    split
    · rename_i hRefused
      obtain ⟨hRenewable, hFirst⟩ := hWell hRefused call hCall
      let updated := { api with replies := api.replies.eraseIdx index }.updateRateLimitFromReply reply
      have hNote : updated.noteRefusal call = updated := if_neg (h.not_mem_renewals hCall hFirst)
      have hNext : (updated.refreshAndRetry call).Proceeds := h.refusedOnce hCall _ hRenewable hFirst
      rw [← hNote] at hNext
      exact hNext
    · rename_i hRefused
      exact h.answered hCall _ _ (not_failure_result hRefused)

end Proceeds

end KickApi

end Chatterino.Kick
