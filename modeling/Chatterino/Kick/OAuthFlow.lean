import Chatterino.Kick.KickAccount
import Chatterino.Lib.Run

/-! # One attempt to log in at Kick

The browser comes back to a local server with a code, on one of the connections that were accepted. Connections
are gone with the server, not when it stops to listen; exchanges and deferred failures outlive both.
-/

namespace Chatterino.Kick

open Lib QString

structure UrlQueries where
  fullyDecoded : QString → QString → QString
  prettyDecoded : QString → QString → QString

inductive Outcome where
  | authenticationSuccess (tokens : Tokens)
  | authenticationFailed (error : QString)

structure Attempt where
  state : QString
  outcomes : List Outcome := []
  cancelled : Bool := false
  afterCancel : List Outcome := []
  exchanged : List (QString × QString) := []

structure CallbackServer where
  listening : Bool := true
  sockets : Nat := 0

structure TokenExchange where
  code : QString
  codeVerifier : QString

structure OAuthFlow where
  isInProgress_ : Bool := false
  timeoutTimer_ : Bool := false
  codeVerifier_ : QString := []
  state_ : QString := []
  localServer_ : Option CallbackServer := none
  exchanges : List TokenExchange := []
  /-- Failures that were put off to the next turn of the event loop. -/
  deferred : Nat := 0
  attempt : Attempt

inductive OAuthEvent where
  | newConnection
  | readyRead (request : QString)
  | timeout
  | cancel
  | deferredFailure
  | exchanged (i : Nat) (reply : HttpReply) (errorString : QString) (now : Int)

def firstLine : QString → QString
  | [] => []
  | c :: request => if (lit "\r\n").isPrefixOf (c :: request) then [] else c :: firstLine request

def callbackUrl (httpRequest : QString) : Option QString :=
  match (firstLine httpRequest).splitOn 0x20 with
  | method :: path :: _ =>
    if method ≠ lit "GET" then none
    else if !(lit "/callback?").isPrefixOf path then none
    else some (lit "http://localhost" ++ path)
  | _ => none

namespace OAuthFlow

variable (queries : UrlQueries) (viaProxy : Bool) (flow : OAuthFlow)

def parseCallbackCode (httpRequest : QString) : Option QString :=
  match callbackUrl httpRequest with
  | none => none
  | some url =>
    if queries.fullyDecoded url (lit "state") ≠ flow.state_ then none
    else if queries.prettyDecoded url (lit "error") ≠ [] then none
    else
      let code := queries.prettyDecoded url (lit "code")
      if code = [] then none else some code

def cancel : OAuthFlow :=
  { flow with timeoutTimer_ := false, localServer_ := none, isInProgress_ := false, codeVerifier_ := [], state_ := [] }

def emit (outcome : Outcome) : OAuthFlow :=
  { flow with attempt :=
      { flow.attempt with
        outcomes := flow.attempt.outcomes ++ [outcome]
        afterCancel := if flow.attempt.cancelled then flow.attempt.afterCancel ++ [outcome] else flow.attempt.afterCancel } }

def started (codeVerifier state : QString) : OAuthFlow :=
  { flow with
    codeVerifier_ := codeVerifier, state_ := state, localServer_ := some {}, isInProgress_ := true
    timeoutTimer_ := true, attempt := { state } }

/-- With what becomes of the server and the browser. -/
def start (startLocalServer openBrowser : Bool) (codeVerifier state : QString) : Bool × OAuthFlow :=
  if flow.isInProgress_ then (false, flow)
  else
    let generated : OAuthFlow := { flow with codeVerifier_ := codeVerifier, state_ := state }
    if !startLocalServer then
      (false, OAuthFlow.emit { generated with localServer_ := some { listening := false } }
        (.authenticationFailed (lit "Failed to start local server for OAuth callback")))
    else if !openBrowser then
      (false, OAuthFlow.emit { generated with localServer_ := none }
        (.authenticationFailed (lit "Failed to open browser for authentication")))
    else (true, flow.started codeVerifier state)

def exchangeCodeForTokens (code : QString) : OAuthFlow :=
  { flow with exchanges := flow.exchanges ++ [⟨code, flow.codeVerifier_⟩] }

def dropSocket : OAuthFlow :=
  { flow with localServer_ := flow.localServer_.map fun server => { server with sockets := server.sockets - 1 } }

def onNewConnection : OAuthFlow :=
  { flow with localServer_ := flow.localServer_.map fun server =>
      if server.listening then { server with sockets := server.sockets + 1 } else server }

def onClientReadyRead (request : QString) : OAuthFlow :=
  match flow.parseCallbackCode queries request with
  | none =>
    if ¬lit "/callback?" <:+: request then flow.dropSocket
    else { flow.dropSocket with deferred := flow.deferred + 1 }
  | some code =>
    let url := (callbackUrl request).getD []
    let flow : OAuthFlow := { flow.dropSocket with
      localServer_ := flow.dropSocket.localServer_.map fun server => { server with listening := false }
      attempt := { flow.attempt with
        exchanged := flow.attempt.exchanged ++ [(code, queries.fullyDecoded url (lit "state"))] } }
    flow.exchangeCodeForTokens code

def exchangeError (reply : HttpReply) (errorString : QString) : QString :=
  if reply.error then
    lit "Token exchange failed: " ++ errorString ++
      if viaProxy then
        lit " (Kick login service unavailable? To use your own Kick app, set CHATTERINO_KICK_CLIENT_ID and CHATTERINO_KICK_CLIENT_SECRET.)"
      else []
  else
    match reply.object with
    | none => lit "Invalid token response"
    | some object =>
      if QJsonObject.contains "error" object then
        lit "OAuth error: " ++ (QJsonObject.value "error" object).toString ++ lit " - " ++
          (QJsonObject.value "error_description" object).toString
      else lit "No access token in response"

def onFinished (reply : HttpReply) (errorString : QString) (now : Int) : OAuthFlow :=
  match exchangedTokens reply now with
  | none => (flow.emit (.authenticationFailed (exchangeError viaProxy reply errorString))).cancel
  | some tokens =>
    OAuthFlow.emit { flow with timeoutTimer_ := false, isInProgress_ := false, localServer_ := none }
      (.authenticationSuccess tokens)

def step (flow : OAuthFlow) : OAuthEvent → OAuthFlow
  | .newConnection => flow.onNewConnection
  | .readyRead request =>
    if flow.localServer_.any (·.sockets ≠ 0) then flow.onClientReadyRead queries request else flow
  | .timeout =>
    if flow.timeoutTimer_ then
      flow.cancel.emit (.authenticationFailed (lit "Timed out waiting for Kick authorization"))
    else flow
  | .cancel => { flow.cancel with attempt := { flow.attempt with cancelled := true } }
  | .deferredFailure =>
    if flow.deferred = 0 then flow
    else
      (OAuthFlow.emit { flow with deferred := flow.deferred - 1 }
        (.authenticationFailed (lit "Invalid OAuth callback"))).cancel
  | .exchanged i reply errorString now =>
    match flow.exchanges[i]? with
    | none => flow
    | some _ =>
      OAuthFlow.onFinished viaProxy { flow with exchanges := flow.exchanges.eraseIdx i } reply errorString now

structure OneOutcome : Prop where
  outcomes : flow.attempt.outcomes.length ≤ 1
  afterCancel : flow.attempt.afterCancel = []
  exchanged : flow.attempt.exchanged.length ≤ 1
  state : ∀ exchange ∈ flow.attempt.exchanged, exchange.2 = flow.attempt.state

def IsCallback (request : QString) : Prop :=
  ∃ url ∈ callbackUrl request, queries.fullyDecoded url (lit "state") = flow.attempt.state

def IgnoresOthers (flow : OAuthFlow) : OAuthEvent → Prop
  | .readyRead request => ¬flow.IsCallback queries request →
      step queries viaProxy flow (.readyRead request) = flow.dropSocket
  | _ => True

def LooksOther (flow : OAuthFlow) : OAuthEvent → Prop
  | .readyRead request => flow.localServer_.any (·.sockets ≠ 0) → ¬flow.IsCallback queries request →
      ¬lit "/callback?" <:+: request
  | _ => True

def EndsInProgress (flow : OAuthFlow) : OAuthEvent → Prop
  | .readyRead request => ∀ server ∈ flow.localServer_, server.sockets ≠ 0 →
      (flow.parseCallbackCode queries request).isSome → server.listening
  | .deferredFailure => flow.deferred ≠ 0 → flow.isInProgress_
  | .exchanged i _ _ _ => i < flow.exchanges.length → flow.isInProgress_
  | _ => True

/-- The flow is in progress until its outcome or its end, and its server has its state. -/
structure Attempting : Prop where
  server : ∀ server ∈ flow.localServer_, (server.listening = true ↔ flow.attempt.exchanged = []) ∧
    flow.state_ = flow.attempt.state
  progress : flow.isInProgress_ = true ↔ flow.attempt.outcomes = [] ∧ flow.attempt.cancelled = false
  timer : flow.timeoutTimer_ = true → flow.isInProgress_ = true

variable {queries} {viaProxy} {flow}

theorem Attempting.started (flow : OAuthFlow) (codeVerifier state : QString) :
    (flow.started codeVerifier state).Attempting where
  server := by
    rintro _ ⟨⟩
    exact ⟨iff_of_true rfl rfl, rfl⟩
  progress := iff_of_true rfl ⟨rfl, rfl⟩
  timer := fun _ => rfl

theorem OneOutcome.started (flow : OAuthFlow) (codeVerifier state : QString) :
    (flow.started codeVerifier state).OneOutcome where
  outcomes := Nat.zero_le 1
  afterCancel := rfl
  exchanged := Nat.zero_le 1
  state := by
    rintro _ ⟨⟩

theorem Attempting.of_over (hServer : flow.localServer_ = none) (hProgress : flow.isInProgress_ = false)
    (hTimer : flow.timeoutTimer_ = false) (hOver : flow.attempt.outcomes ≠ [] ∨ flow.attempt.cancelled = true) :
    flow.Attempting where
  server := by
    rw [hServer]
    rintro _ ⟨⟩
  progress := by
    rw [hProgress]
    refine iff_of_false Bool.false_ne_true ?_
    rintro ⟨hNil, hNot⟩
    rcases hOver with hOutcome | hCancelled
    · exact hOutcome hNil
    · rw [hCancelled] at hNot
      cases hNot
  timer := fun hOn => by
    rw [hTimer] at hOn
    cases hOn

theorem Attempting.emit_cancel (flow : OAuthFlow) (outcome : Outcome) : (flow.emit outcome).cancel.Attempting :=
  .of_over rfl rfl rfl (.inl (List.append_ne_nil_of_right_ne_nil _ (List.cons_ne_nil _ _)))

theorem Attempting.dropSocket (h : flow.Attempting) : flow.dropSocket.Attempting where
  server := by
    intro server hServer
    obtain ⟨server', hServer', rfl⟩ := Option.map_eq_some_iff.mp hServer
    exact h.server server' hServer'
  progress := h.progress
  timer := h.timer

theorem Attempting.onClientReadyRead (h : flow.Attempting) (request : QString) :
    (flow.onClientReadyRead queries request).Attempting := by
  unfold OAuthFlow.onClientReadyRead
  split
  · split_ifs
    · exact ⟨h.dropSocket.server, h.dropSocket.progress, h.dropSocket.timer⟩
    · exact h.dropSocket
  · refine ⟨?_, h.progress, h.timer⟩
    intro server hServer
    obtain ⟨server', hServer', rfl⟩ := Option.map_eq_some_iff.mp hServer
    refine ⟨iff_of_false Bool.false_ne_true ?_, (h.dropSocket.server server' hServer').2⟩
    exact List.append_ne_nil_of_right_ne_nil _ (List.cons_ne_nil _ _)

theorem Attempting.step (h : flow.Attempting) (event : OAuthEvent) :
    (OAuthFlow.step queries viaProxy flow event).Attempting := by
  cases event with
  | newConnection =>
    refine ⟨?_, h.progress, h.timer⟩
    intro server hServer
    obtain ⟨server', hServer', rfl⟩ := Option.map_eq_some_iff.mp hServer
    split_ifs
    · exact h.server server' hServer'
    · exact h.server server' hServer'
  | readyRead request =>
    simp only [OAuthFlow.step]
    split_ifs
    · exact h.onClientReadyRead request
    · exact h
  | timeout =>
    simp only [OAuthFlow.step]
    split_ifs
    · exact .of_over rfl rfl rfl (.inl (List.append_ne_nil_of_right_ne_nil _ (List.cons_ne_nil _ _)))
    · exact h
  | cancel => exact .of_over rfl rfl rfl (.inr rfl)
  | deferredFailure =>
    simp only [OAuthFlow.step]
    split_ifs
    · exact h
    · exact .emit_cancel _ _
  | exchanged i reply errorString now =>
    simp only [OAuthFlow.step]
    split
    · exact h
    · unfold onFinished
      split
      · exact .emit_cancel _ _
      · exact .of_over rfl rfl rfl (.inl (List.append_ne_nil_of_right_ne_nil _ (List.cons_ne_nil _ _)))

theorem oneOutcome_emit_iff (hAttempting : flow.Attempting) (h : flow.OneOutcome) {after : OAuthFlow}
    {outcome : Outcome} (hAfter : after.attempt = (flow.emit outcome).attempt) :
    after.OneOutcome ↔ flow.isInProgress_ = true := by
  rw [hAttempting.progress]
  constructor
  · intro hOne
    have hOutcomes := hOne.outcomes
    have hCancel := hOne.afterCancel
    rw [hAfter] at hOutcomes hCancel
    simp only [emit, List.length_append, List.length_singleton] at hOutcomes hCancel
    refine ⟨List.length_eq_zero_iff.mp (by omega), ?_⟩
    by_contra hCancelled
    rw [if_pos (by simpa using hCancelled)] at hCancel
    exact List.append_ne_nil_of_right_ne_nil _ (List.cons_ne_nil _ _) hCancel
  · rintro ⟨hNil, hCancelled⟩
    refine ⟨?_, ?_, ?_, ?_⟩
    · rw [hAfter]
      simp [emit, hNil]
    · rw [hAfter]
      simp only [emit, hCancelled, Bool.false_eq_true, if_false]
      exact h.afterCancel
    · rw [hAfter]
      exact h.exchanged
    · rw [hAfter]
      exact h.state

theorem OneOutcome.congr {after : OAuthFlow} (h : flow.OneOutcome) (hAfter : after.attempt = flow.attempt) :
    after.OneOutcome := by
  refine ⟨?_, ?_, ?_, ?_⟩
  · rw [hAfter]
    exact h.outcomes
  · rw [hAfter]
    exact h.afterCancel
  · rw [hAfter]
    exact h.exchanged
  · rw [hAfter]
    exact h.state

theorem callbackUrl_of_parse {request code : QString} (h : flow.parseCallbackCode queries request = some code) :
    ∃ url ∈ callbackUrl request, queries.fullyDecoded url (lit "state") = flow.state_ := by
  unfold parseCallbackCode at h
  cases hUrl : callbackUrl request with
  | none =>
    rw [hUrl] at h
    cases h
  | some url =>
    refine ⟨url, rfl, ?_⟩
    rw [hUrl] at h
    by_contra hState
    dsimp only at h
    rw [if_pos hState] at h
    cases h

theorem oneOutcome_readyRead_iff (hAttempting : flow.Attempting) (h : flow.OneOutcome) {server : CallbackServer}
    (hServer : flow.localServer_ = some server) (request : QString) :
    (flow.onClientReadyRead queries request).OneOutcome ↔
      ((flow.parseCallbackCode queries request).isSome → server.listening) := by
  unfold onClientReadyRead
  cases hCode : flow.parseCallbackCode queries request with
  | none =>
    refine iff_of_true ?_ (by rintro ⟨⟩)
    dsimp only
    split_ifs <;> exact h.congr rfl
  | some code =>
    obtain ⟨url, hUrl, hState⟩ := callbackUrl_of_parse hCode
    rw [Option.mem_def] at hUrl
    obtain ⟨hListening, hSame⟩ := hAttempting.server server hServer
    rw [hListening, hUrl]
    constructor
    · intro hOne _
      have hLength := hOne.exchanged
      simp only [exchangeCodeForTokens, List.length_append, List.length_singleton] at hLength
      exact List.length_eq_zero_iff.mp (by omega)
    · intro hNil
      refine ⟨h.outcomes, h.afterCancel, ?_, ?_⟩
      · simp [exchangeCodeForTokens, hNil rfl]
      · intro exchange hMem
        simp only [exchangeCodeForTokens, hNil rfl, List.nil_append, List.mem_singleton] at hMem
        rw [hMem]
        exact hState.trans hSame

theorem oneOutcome_step_iff (hAttempting : flow.Attempting) (h : flow.OneOutcome) (event : OAuthEvent) :
    (step queries viaProxy flow event).OneOutcome ↔ flow.EndsInProgress queries event := by
  cases event with
  | newConnection => exact iff_of_true (h.congr rfl) trivial
  | readyRead request =>
    simp only [step, EndsInProgress]
    cases hServer : flow.localServer_ with
    | none =>
      refine iff_of_true h ?_
      rintro _ ⟨⟩
    | some server =>
      simp only [Option.any_some, decide_not, Bool.not_eq_true', decide_eq_false_iff_not, Option.mem_def,
        Option.some.injEq, forall_eq']
      split_ifs with hSockets
      · exact iff_of_true h fun hSome => absurd hSockets hSome
      · refine (oneOutcome_readyRead_iff hAttempting h hServer request).trans ?_
        exact ⟨fun hListens _ => hListens, fun hAll => hAll hSockets⟩
  | timeout =>
    simp only [step]
    split_ifs with hTimer
    · refine iff_of_true ?_ trivial
      exact (oneOutcome_emit_iff hAttempting h (by rfl)).mpr (hAttempting.timer hTimer)
    · exact iff_of_true h trivial
  | cancel => exact iff_of_true ⟨h.outcomes, h.afterCancel, h.exchanged, h.state⟩ trivial
  | deferredFailure =>
    simp only [step, EndsInProgress]
    split_ifs with hNone
    · exact iff_of_true h fun hSome => absurd hNone hSome
    · exact (oneOutcome_emit_iff hAttempting h (by rfl)).trans ⟨fun hProgress _ => hProgress, fun hAll => hAll hNone⟩
  | exchanged i reply errorString now =>
    simp only [step, EndsInProgress]
    split
    · rename_i hNone
      exact iff_of_true h fun hLt => absurd (List.getElem?_eq_none_iff.mp hNone) (Nat.not_le_of_gt hLt)
    · rename_i exchange hSome
      have hLt := (List.getElem?_eq_some_iff.mp hSome).1
      have hIff : (onFinished viaProxy { flow with exchanges := flow.exchanges.eraseIdx i } reply errorString now).OneOutcome ↔
          flow.isInProgress_ = true := by
        unfold onFinished
        split
        · exact oneOutcome_emit_iff hAttempting h (by rfl)
        · exact oneOutcome_emit_iff hAttempting h (by rfl)
      exact hIff.trans ⟨fun hProgress _ => hProgress, fun hAll => hAll hLt⟩

theorem parseCallbackCode_eq_none (hState : flow.state_ = flow.attempt.state) {request : QString}
    (hOther : ¬flow.IsCallback queries request) : flow.parseCallbackCode queries request = none := by
  cases hCode : flow.parseCallbackCode queries request with
  | none => rfl
  | some code =>
    obtain ⟨url, hUrl, hSame⟩ := callbackUrl_of_parse hCode
    exact absurd ⟨url, hUrl, hSame.trans hState⟩ hOther

theorem dropSocket_of_none (h : flow.localServer_ = none) : flow.dropSocket = flow := by
  unfold dropSocket
  rw [h, Option.map_none, ← h]

theorem dropSocket_of_sockets_eq_zero {server : CallbackServer} (h : flow.localServer_ = some server)
    (hNone : server.sockets = 0) : flow.dropSocket = flow := by
  have hSame : { server with sockets := server.sockets - 1 } = server := by
    rw [hNone, Nat.zero_sub, ← hNone]
  unfold dropSocket
  rw [h, Option.map_some, hSame, ← h]

theorem ignoresOthers_iff_looksOther (hAttempting : flow.Attempting) (event : OAuthEvent) :
    flow.IgnoresOthers queries viaProxy event ↔ flow.LooksOther queries event := by
  cases event with
  | readyRead request =>
    simp only [IgnoresOthers, LooksOther, step]
    cases hServer : flow.localServer_ with
    | none =>
      refine iff_of_true (fun _ => ?_) (by rintro ⟨⟩)
      rw [dropSocket_of_none hServer]
      rfl
    | some server =>
      rw [Option.any_some]
      by_cases hSockets : server.sockets = 0
      · have hNot : ¬decide (server.sockets ≠ 0) = true := by simpa using hSockets
        refine iff_of_true (fun _ => ?_) fun hLive => absurd hLive hNot
        rw [if_neg hNot, dropSocket_of_sockets_eq_zero hServer hSockets]
      · have hLive : decide (server.sockets ≠ 0) = true := decide_eq_true hSockets
        rw [if_pos hLive]
        refine Iff.trans ?_ ⟨fun hAll _ => hAll, fun hAll => hAll hLive⟩
        refine forall_congr' fun hOther => ?_
        unfold onClientReadyRead
        rw [parseCallbackCode_eq_none (hAttempting.server server hServer).2 hOther]
        dsimp only
        split_ifs with hText
        · refine iff_of_false (fun hSame => ?_) (not_not_intro hText)
          have hDeferred := congrArg OAuthFlow.deferred hSame
          exact absurd hDeferred (Nat.succ_ne_self flow.deferred)
        · exact iff_of_true rfl hText
  | newConnection | timeout | cancel | deferredFailure | exchanged i reply errorString now => exact Iff.rfl

/-- After a start, there is one outcome and no other request matters, exactly if requests of others do not look
like callbacks, one code arrives, and what was put off ends while the flow is in progress. -/
theorem oneOutcome_iff_endsInProgress (queries : UrlQueries) (viaProxy : Bool) (flow : OAuthFlow)
    (codeVerifier state : QString) (events : List OAuthEvent) :
    ((∀ reached, reached <+: events →
        (reached.foldl (step queries viaProxy) (flow.started codeVerifier state)).OneOutcome) ∧
      AllSteps (step queries viaProxy) (IgnoresOthers queries viaProxy) (flow.started codeVerifier state) events) ↔
      AllSteps (step queries viaProxy) (fun flow event => flow.EndsInProgress queries event ∧ flow.LooksOther queries event)
        (flow.started codeVerifier state) events := by
  have hStart := Attempting.started flow codeVerifier state
  have hStep : ∀ flow event, flow.Attempting → (step queries viaProxy flow event).Attempting :=
    fun flow event h => h.step event
  have hSide : AllSteps (step queries viaProxy) (fun flow _ => flow.Attempting) (flow.started codeVerifier state) events :=
    AllSteps.of_invariant hStart hStep
  have hOne := AllSteps.forall_reached_iff hSide _ (OneOutcome.started flow codeVerifier state)
    fun flow event h hSide => oneOutcome_step_iff hSide h event
  have hOthers : AllSteps (step queries viaProxy) (IgnoresOthers queries viaProxy) (flow.started codeVerifier state) events ↔
      AllSteps (step queries viaProxy) (LooksOther queries) (flow.started codeVerifier state) events :=
    AllSteps.congr_of_invariant hStart hStep fun flow event h => ignoresOthers_iff_looksOther h event
  rw [hOne, hOthers]
  exact ⟨fun h => h.1.and h.2, fun h => ⟨h.mono fun _ _ hBoth => hBoth.1, h.mono fun _ _ hBoth => hBoth.2⟩⟩

theorem not_oneOutcome_favicon :
    ¬∀ (queries : UrlQueries) (flow : OAuthFlow) (codeVerifier state : QString) (events : List OAuthEvent),
      AllSteps (step queries true) (IgnoresOthers queries true) (flow.started codeVerifier state) events := by
  intro hAll
  have hIgnored := hAll ⟨fun _ _ => [], fun _ _ => []⟩ { attempt := { state := [] } } (lit "v") (lit "s")
    [.newConnection, .readyRead (lit "GET /favicon.ico HTTP/1.1\r\nReferer: http://localhost:52847/callback?code=c\r\n")]
  have hNone : callbackUrl (lit "GET /favicon.ico HTTP/1.1\r\nReferer: http://localhost:52847/callback?code=c\r\n") = none := by
    decide +kernel
  have hOther := hIgnored.2.1 (by
    rintro ⟨url, hUrl, -⟩
    rw [hNone] at hUrl
    cases hUrl)
  exact absurd (congrArg OAuthFlow.deferred hOther) (by decide +kernel)

end OAuthFlow

end Chatterino.Kick
