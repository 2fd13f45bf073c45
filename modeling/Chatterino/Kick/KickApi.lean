import Chatterino.Kick.KickAccount
import Chatterino.Kick.KickErrors
import Mathlib.Data.List.Count
import Mathlib.Data.List.Perm.Basic

/-! # Authorized requests of the Kick API

A request goes out with the token of the account. A refused token is refreshed, and all requests that wait for the
same refresh are told about its end by one signal.
-/

namespace Chatterino.Kick

open QString QJsonObject

inductive KickRequest where
  | sendMessage (broadcasterUserId : Int) (message : QString)
  | banUser (broadcasterUserId userId : Int) (durationMinutes : Option Int) (reason : QString)
  | unbanUser (broadcasterUserId userId : Int)
  | deleteChatMessage (messageId : QString)
deriving DecidableEq

structure HttpRequest where
  verb : QString
  endpoint : QString
  body : Option (QJsonObject ℚ)
  accessToken : QString

namespace KickRequest

def number (n : Int) : QJsonValue ℚ := .double n

def body : KickRequest → Option (QJsonObject ℚ)
  | sendMessage broadcasterUserId message =>
    some [("content", .string message), ("type", .string (lit "user")), ("broadcaster_user_id", number broadcasterUserId)]
  | banUser broadcasterUserId userId durationMinutes reason =>
    some ([("broadcaster_user_id", number broadcasterUserId), ("user_id", number userId)] ++
      (durationMinutes.map fun minutes => ("duration", number minutes)).toList ++
      if reason = [] then [] else [("reason", .string reason)])
  | unbanUser broadcasterUserId userId =>
    some [("broadcaster_user_id", number broadcasterUserId), ("user_id", number userId)]
  | deleteChatMessage _ => none

def verb : KickRequest → QString
  | sendMessage .. | banUser .. => lit "POST"
  | unbanUser .. | deleteChatMessage _ => lit "DELETE"

def endpoint (toPercentEncoding : QString → QString) : KickRequest → QString
  | sendMessage .. => lit "chat"
  | banUser .. | unbanUser .. => lit "moderation/bans"
  | deleteChatMessage messageId => arg (lit "chat/%1") (toPercentEncoding messageId)

end KickRequest

structure KickRateLimitInfo where
  limit : Int := 0
  remaining : Int := 0
  /-- In seconds. -/
  resetAt : Option Int := none
deriving DecidableEq

structure KickApiResult where
  success : Bool := false
  errorMessage : QString := []
  httpStatus : Int := 0
  rateLimit : Option KickRateLimitInfo := none
deriving DecidableEq

structure KickReply where
  /-- Whether the reply is an error, a refusal of the server included. -/
  error : Bool := false
  statusCode : Int := 200
  rawApiMessage : QString := []
  limitHeader : Option Int := none
  remainingHeader : Option Int := none
  resetHeader : Option Int := none
deriving DecidableEq

def KickReply.Refused (reply : KickReply) : Prop := reply.error = true ∧ reply.statusCode = 401

instance (reply : KickReply) : Decidable reply.Refused := inferInstanceAs (Decidable (_ ∧ _))

structure Call where
  id : Nat
  request : KickRequest
deriving DecidableEq

structure Answer where
  call : Nat
  result : KickApiResult
  /-- There was an account with a refresh token. -/
  renewable : Bool
deriving DecidableEq

structure KickApi where
  account_ : Option KickAccount
  rateLimitInfo_ : KickRateLimitInfo
  calls : Nat := 0
  /-- The requests without a reply. -/
  replies : List Call := []
  tokenRefreshed : List Call := []
  answers : List Answer := []
  sent : List (Nat × HttpRequest) := []
  /-- The calls that asked for a refresh, those of which it failed, and those whose renewed token was refused. -/
  renewals : List Nat := []
  failed : List Nat := []
  refused : List Nat := []

inductive Verdict where
  | answered (result : KickApiResult)
  | renews
  | goesOut (accessToken : QString)
deriving DecidableEq

namespace KickApi

variable (api : KickApi) (now : Int)

def isRateLimited : Bool :=
  decide (api.rateLimitInfo_.remaining ≤ 0) && api.rateLimitInfo_.resetAt.any fun resetAt => now < 1000 * resetAt

def secondsUntilReset : Int := max 0 ((api.rateLimitInfo_.resetAt.map fun resetAt => (1000 * resetAt - now) / 1000).getD 0)

def unauthenticated : KickApiResult := { errorMessage := translateKickError .UserMissingScope [] 0 }

def rateLimited : KickApiResult :=
  { errorMessage := translateKickError .RateLimited [] (api.secondsUntilReset now),
    rateLimit := some api.rateLimitInfo_ }

def verdict : Verdict :=
  match api.account_ with
  | none => .answered unauthenticated
  | some account =>
    if !account.isAuthenticated now then .answered unauthenticated
    else if api.isRateLimited now then .answered (api.rateLimited now)
    else if account.isTokenExpired now then .renews
    else .goesOut account.accessToken_

def renewable : Bool := api.account_.any fun account => account.refreshToken_ ≠ []

def answer (call : Nat) (result : KickApiResult) : KickApi :=
  { api with answers := api.answers ++ [⟨call, result, api.renewable⟩] }

def refreshFailed : KickApi :=
  { api with tokenRefreshed := [], failed := api.failed ++ api.tokenRefreshed.map Call.id }

def refreshAccessToken : KickApi :=
  match api.account_ with
  | none => api
  | some account =>
    let started := { api with account_ := some account.refreshAccessToken.1 }
    if account.refreshAccessToken.2 then started.refreshFailed else started

def refreshAndRetry (call : Call) : KickApi :=
  let asked := { api with renewals := api.renewals ++ [call.id] }
  if api.account_ = none then asked
  else { asked with tokenRefreshed := asked.tokenRefreshed ++ [call] }.refreshAccessToken

section requests

variable (toPercentEncoding : QString → QString)

def post (call : Call) (accessToken : QString) : KickApi :=
  let request : HttpRequest :=
    { verb := call.request.verb, endpoint := call.request.endpoint toPercentEncoding, body := call.request.body,
      accessToken }
  { api with replies := api.replies ++ [call], sent := api.sent ++ [(call.id, request)] }

def send (call : Call) : KickApi :=
  match api.verdict now with
  | .answered result => api.answer call.id result
  | .renews => api.refreshAndRetry call
  | .goesOut accessToken => api.post toPercentEncoding call accessToken

def refreshSucceeded : KickApi :=
  api.tokenRefreshed.foldl (fun api call => api.send now toPercentEncoding call) { api with tokenRefreshed := [] }

def exits : RefreshReply.Outcome → KickApi
  | .failed _ => api.refreshFailed
  | .repeated => api
  | .renewed _ => api.refreshSucceeded now toPercentEncoding

def refreshReplied (reply : RefreshReply) : KickApi :=
  match api.account_ with
  | none => api
  | some account =>
    match account.refresh with
    | some (.requested retryAttempt) =>
      let outcome := reply.outcome retryAttempt
      { api with account_ := some (account.refreshed retryAttempt now outcome) }.exits now toPercentEncoding outcome
    | _ => api

end requests

def updateRateLimitFromReply (reply : KickReply) : KickApi :=
  let info := api.rateLimitInfo_
  { api with
    rateLimitInfo_ :=
      { limit := reply.limitHeader.getD info.limit, remaining := reply.remainingHeader.getD info.remaining,
        resetAt := reply.resetHeader.or info.resetAt } }

def handleErrorResponse (reply : KickReply) : KickApiResult :=
  let error := mapHttpStatusToKickError reply.statusCode reply.rawApiMessage
  { errorMessage := translateKickError error reply.rawApiMessage
      (if error = .RateLimited then api.secondsUntilReset now else 0),
    httpStatus := reply.statusCode }

def result (reply : KickReply) : KickApiResult :=
  if reply.error then api.handleErrorResponse now reply
  else { success := true, httpStatus := reply.statusCode, rateLimit := some api.rateLimitInfo_ }

def noteRefusal (call : Call) : KickApi :=
  if call.id ∈ api.renewals then { api with refused := api.refused ++ [call.id] } else api

def finished (call : Call) (reply : KickReply) : KickApi :=
  let updated := api.updateRateLimitFromReply reply
  if reply.Refused then (updated.noteRefusal call).refreshAndRetry call
  else updated.answer call.id (updated.result now reply)

inductive ApiEvent where
  | called (request : KickRequest) (now : Int)
  | replied (index : Nat) (reply : KickReply) (now : Int)
  | refreshReplied (reply : RefreshReply) (now : Int)
  | refreshTimerFires
  /-- Something else asks for a refresh. -/
  | refreshAccessToken

def step (toPercentEncoding : QString → QString) (api : KickApi) : ApiEvent → KickApi
  | .called request now => { api with calls := api.calls + 1 }.send now toPercentEncoding ⟨api.calls, request⟩
  | .replied index reply now =>
    match api.replies[index]? with
    | none => api
    | some call => { api with replies := api.replies.eraseIdx index }.finished now call reply
  | .refreshReplied reply now => api.refreshReplied now toPercentEncoding reply
  | .refreshTimerFires => { api with account_ := api.account_.map KickAccount.refreshTimerFires }
  | .refreshAccessToken => api.refreshAccessToken

end KickApi

namespace KickApi

/-- How often a call was answered, is out, waits for a refresh, was sent, and asked for a refresh. -/
structure Counts where
  answers : Nat := 0
  replies : Nat := 0
  waiting : Nat := 0
  sent : Nat := 0
  renewals : Nat := 0

def counts (api : KickApi) (id : Nat) : Counts where
  answers := (api.answers.map Answer.call).count id
  replies := (api.replies.map Call.id).count id
  waiting := (api.tokenRefreshed.map Call.id).count id
  sent := (api.sent.map Prod.fst).count id
  renewals := api.renewals.count id

def isRefreshing (api : KickApi) : Bool := api.account_.any fun account => account.refresh.isSome

def Unjustified (api : KickApi) (answer : Answer) : Prop :=
  IsAuthenticationFailure answer.result.errorMessage ∧ answer.renewable = true ∧ answer.call ∉ api.failed ∧
    answer.call ∉ api.refused

/-- Every call is answered once or on its way to be, after two requests and one refresh at most. -/
structure AnswersOnce (api : KickApi) : Prop where
  once : ∀ id < api.calls,
    (api.counts id).answers + (api.counts id).replies +
      (if api.isRefreshing then (api.counts id).waiting else 0) = 1
  sent : ∀ id, (api.counts id).sent ≤ 2
  renewals : ∀ id, (api.counts id).renewals ≤ 1
  justified : ∀ answer ∈ api.answers, ¬api.Unjustified answer

inductive Phase (refreshing : Bool) : Counts → Prop where
  | out : Phase refreshing { replies := 1, sent := 1 }
  | waits (hRefreshing : refreshing = true) : Phase refreshing { waiting := 1, sent := 1, renewals := 1 }
  | outAgain : Phase refreshing { replies := 1, sent := 2, renewals := 1 }
  | answered {sent renewals : Nat} (hSent : sent ≤ 2) (hRenewals : renewals ≤ 1) :
      Phase refreshing { answers := 1, sent := sent, renewals := renewals }

structure Proceeds (api : KickApi) : Prop where
  phases : ∀ id < api.calls, Phase api.isRefreshing (api.counts id)
  unused : ∀ id, api.calls ≤ id → api.counts id = {}
  account : api.replies ≠ [] → api.account_.isSome = true
  refreshable : api.isRefreshing = true → api.renewable = true
  failed : api.failed = []
  refused : api.refused = []
  justified : ∀ answer ∈ api.answers, IsAuthenticationFailure answer.result.errorMessage → answer.renewable = false

variable {api : KickApi}

theorem Proceeds.answersOnce (h : api.Proceeds) : api.AnswersOnce := by
  have hCounts (id : Nat) : (api.counts id).sent ≤ 2 ∧ (api.counts id).renewals ≤ 1 := by
    by_cases hCall : id < api.calls
    · generalize hId : api.counts id = counts
      have hPhase := h.phases id hCall
      rw [hId] at hPhase
      cases hPhase with
      | answered hSent hRenewals => exact ⟨hSent, hRenewals⟩
      | out | waits | outAgain => decide
    · rw [h.unused id (by omega)]
      decide
  constructor
  · intro id hCall
    generalize hId : api.counts id = counts
    have hPhase := h.phases id hCall
    rw [hId] at hPhase
    cases hPhase with
    | out | outAgain | answered => simp
    | waits hRefreshing => simp [hRefreshing]
  · exact fun id => (hCounts id).1
  · exact fun id => (hCounts id).2
  · rintro answer hMem ⟨hFailure, hRenewable, -, -⟩
    have hNot := h.justified answer hMem hFailure
    exact absurd (hRenewable.symm.trans hNot) (by decide)

variable (id : Nat)

theorem counts_answer (call : Nat) (result : KickApiResult) :
    (api.answer call result).counts id =
      { api.counts id with answers := (api.counts id).answers + if call = id then 1 else 0 } := by
  simp [answer, counts, List.count_append, List.count_singleton]

theorem counts_post (toPercentEncoding : QString → QString) (call : Call) (accessToken : QString) :
    (api.post toPercentEncoding call accessToken).counts id =
      { api.counts id with
        replies := (api.counts id).replies + if call.id = id then 1 else 0,
        sent := (api.counts id).sent + if call.id = id then 1 else 0 } := by
  simp [post, counts, List.count_append, List.count_singleton]

theorem counts_eraseIdx {index : Nat} {call : Call} (h : api.replies[index]? = some call) :
    { api with replies := api.replies.eraseIdx index }.counts id =
      { api.counts id with replies := (api.counts id).replies - if call.id = id then 1 else 0 } := by
  obtain ⟨hIndex, rfl⟩ := List.getElem?_eq_some_iff.mp h
  have hPerm := (List.getElem_cons_eraseIdx_perm hIndex).map Call.id
  have hCount := hPerm.count_eq id
  rw [List.map_cons, List.count_cons] at hCount
  simp only [counts, Counts.mk.injEq, true_and, and_true]
  simp only [beq_iff_eq] at hCount
  omega

end KickApi

end Chatterino.Kick
