import Chatterino.Kick.KickInvariants
import Chatterino.Qt.QStringArg

/-! # Errors of the Kick API

A status and the message of the API make an error, and the error makes the text that the user sees.
-/

namespace Chatterino.Kick

open QString

inductive KickError where
  | MissingText
  | BadRequest
  | Forbidden
  | RateLimited
  | UserMissingScope
  | TokenExpired
  | ConnectionFailed
  | ChannelNotFound
  | MessageTooLong
  | Unknown
deriving DecidableEq

def translateKickError (error : KickError) (apiMessage : QString) (secondsUntilReset : Int) : QString :=
  match error with
  | .MissingText => lit "You can't send an empty message."
  | .BadRequest =>
    if apiMessage ≠ [] then arg (lit "Failed to send message: %1") apiMessage
    else lit "Failed to send message: Invalid request."
  | .Forbidden => lit "You don't have permission to send messages in this channel."
  | .RateLimited =>
    if 0 < secondsUntilReset then
      arg (lit "You're sending messages too quickly. " ++
        lit "Kick allows 3 messages per second. Please wait %1 seconds before sending another message.")
        (number secondsUntilReset)
    else
      lit "You're sending messages too quickly. " ++
        lit "Kick allows 3 messages per second. Please wait before sending another message."
  | .UserMissingScope => lit "Missing required scope. Re-login with your account and try again."
  | .TokenExpired => lit "Your session has expired. Please log in again."
  | .ConnectionFailed =>
    lit "Failed to connect to Kick chat. Check your internet connection or verify the channel name is correct."
  | .ChannelNotFound => lit "Channel not found. Please verify the channel name is correct."
  | .MessageTooLong => lit "Your message is too long. Kick messages can be at most 500 characters."
  | .Unknown =>
    if apiMessage ≠ [] then arg (lit "An error occurred: %1") apiMessage else lit "An unknown error occurred."

def foldCase (c : QChar) : QChar := if 0x41 ≤ c ∧ c ≤ 0x5A then c + 0x20 else c

def containsInsensitive (text part : QString) : Bool := part.map foldCase <:+: text.map foldCase

def mapHttpStatusToKickError (httpStatus : Int) (apiMessage : QString) : KickError :=
  if httpStatus = 400 then
    if containsInsensitive apiMessage (lit "too long") || containsInsensitive apiMessage (lit "500") then .MessageTooLong
    else .BadRequest
  else if httpStatus = 401 then
    if containsInsensitive apiMessage (lit "expired") then .TokenExpired else .UserMissingScope
  else if httpStatus = 403 then .Forbidden
  else if httpStatus = 404 then .ChannelNotFound
  else if httpStatus = 429 then .RateLimited
  else .Unknown

def IsAuthenticationFailure (text : QString) : Prop :=
  text = translateKickError .UserMissingScope [] 0 ∨ text = translateKickError .TokenExpired [] 0

instance (text : QString) : Decidable (IsAuthenticationFailure text) := inferInstanceAs (Decidable (_ ∨ _))

theorem arg_append_of_noPercent {s : QString} (h : 0x25 ∉ s) (t a : QString) : arg (s ++ t) a = s ++ arg t a := by
  unfold arg
  rw [markers_append_of_noPercent h]
  cases (markers t).min? with
  | none => rfl
  | some k => exact filled_append_of_noPercent h k a t

theorem not_isAuthenticationFailure_append {start : QString} (hLength : start.length = 4)
    (hScope : start ≠ lit "Miss") (hExpired : start ≠ lit "Your") (rest : QString) :
    ¬IsAuthenticationFailure (start ++ rest) := by
  have hStart : (start ++ rest).take 4 = start := by rw [← hLength, List.take_left]
  rintro (hText | hText)
  · rw [hText] at hStart
    exact hScope (hStart.symm.trans (by decide))
  · rw [hText] at hStart
    exact hExpired (hStart.symm.trans (by decide))

theorem not_isAuthenticationFailure_arg {start : QString} (hLength : start.length = 4)
    (hScope : start ≠ lit "Miss") (hExpired : start ≠ lit "Your") (hPercent : 0x25 ∉ start) (rest a : QString) :
    ¬IsAuthenticationFailure (arg (start ++ rest) a) := by
  rw [arg_append_of_noPercent hPercent]
  exact not_isAuthenticationFailure_append hLength hScope hExpired _

theorem not_isAuthenticationFailure {error : KickError} (hScope : error ≠ .UserMissingScope)
    (hExpired : error ≠ .TokenExpired) (apiMessage : QString) (secondsUntilReset : Int) :
    ¬IsAuthenticationFailure (translateKickError error apiMessage secondsUntilReset) := by
  cases error with
  | UserMissingScope => exact absurd rfl hScope
  | TokenExpired => exact absurd rfl hExpired
  | BadRequest =>
    unfold translateKickError
    dsimp only
    split
    · have hText : ¬IsAuthenticationFailure (arg (lit "Fail" ++ lit "ed to send message: %1") apiMessage) := by
        apply not_isAuthenticationFailure_arg <;> decide
      exact hText
    · decide
  | Unknown =>
    unfold translateKickError
    dsimp only
    split
    · have hText : ¬IsAuthenticationFailure (arg (lit "An e" ++ lit "rror occurred: %1") apiMessage) := by
        apply not_isAuthenticationFailure_arg <;> decide
      exact hText
    · decide
  | RateLimited =>
    unfold translateKickError
    dsimp only
    split
    · have hText (rest : QString) : ¬IsAuthenticationFailure
          (arg (lit "You'" ++ (lit "re sending messages too quickly. " ++ rest)) (number secondsUntilReset)) := by
        apply not_isAuthenticationFailure_arg <;> decide
      exact hText _
    · decide
  | MissingText | Forbidden | ConnectionFailed | ChannelNotFound | MessageTooLong =>
    unfold translateKickError
    dsimp only
    decide

theorem mapHttpStatusToKickError_ne {httpStatus : Int} (h : httpStatus ≠ 401) (apiMessage : QString) :
    mapHttpStatusToKickError httpStatus apiMessage ≠ .UserMissingScope ∧
      mapHttpStatusToKickError httpStatus apiMessage ≠ .TokenExpired := by
  unfold mapHttpStatusToKickError
  simp only [h, if_false]
  split
  · split <;> decide
  · split
    · decide
    · split
      · decide
      · split <;> decide

open Lib KickConnectionState

namespace KickChannel

variable {Slug : Type} {channel : KickChannel Slug}

def WillRetry (channel : KickChannel Slug) : Prop :=
  channel.connectionState_ = Reconnecting ∧ channel.retryTimers ≠ [] ∨
    channel.connectionState_ = Failed ∧ MAX_RECONNECT_ATTEMPTS ≤ channel.reconnectAttempts_

def Timed (channel : KickChannel Slug) : Prop :=
  channel.connectionState_ = Reconnecting → channel.retryTimers ≠ []

theorem willRetry_onServerError (h : channel.Timed) : channel.onServerError.WillRetry := by
  obtain ⟨hState, hError⟩ | ⟨-, ⟨hUsed, hError⟩ | ⟨-, hError⟩⟩ := onServerError_cases channel
  · rw [hError]
    exact .inl ⟨hState, h hState⟩
  · rw [hError]
    exact .inr ⟨rfl, hUsed⟩
  · rw [hError]
    exact .inl ⟨rfl, List.cons_ne_nil _ _⟩

theorem timed_onServerError (h : channel.Timed) : channel.onServerError.Timed := by
  intro hState
  rcases willRetry_onServerError h with hWaiting | hFailed
  · exact hWaiting.2
  · cases hState.symm.trans hFailed.1

theorem timed_of_ne (h : channel.connectionState_ ≠ Reconnecting) : channel.Timed := fun hState => absurd hState h

end KickChannel

namespace KickChatServer

variable {Slug : Type} [DecidableEq Slug] {server : KickChatServer Slug} {id : ChannelId}
  {lower : Slug → Slug}

def AllTimed (server : KickChatServer Slug) : Prop := server.channels.All KickChannel.Timed

omit [DecidableEq Slug] in
theorem AllTimed.connect (h : AllTimed server) : AllTimed (server.connect true id) := by
  obtain ⟨-, hSame⟩ | ⟨channel, -, -, hConnect⟩ := connect_cases server id
  · rw [hSame]
    exact h
  · rw [hConnect]
    exact Heap.All.modify h fun _ _ _ => KickChannel.timed_of_ne (by rintro ⟨⟩)

theorem AllTimed.disconnect (h : AllTimed server) : AllTimed (server.disconnect lower id) := by
  rcases hLive : server.channels id with _ | channel
  · rw [disconnect_of_gone hLive]
    exact h
  · rw [disconnect_eq hLive]
    refine Heap.All.modify ?_ fun _ _ _ => KickChannel.timed_of_ne (by rintro ⟨⟩)
    rw [channels_leave]
    exact h

theorem AllTimed.retryTimeout (h : AllTimed server) {delay : Nat} :
    AllTimed (server.retryTimeout lower true id delay) := by
  obtain ⟨-, hSame⟩ | ⟨channel, hLive, -, ⟨hState, hMoved⟩ | ⟨-, hRetried⟩⟩ :=
    retryTimeout_cases lower server id delay
  · rw [hSame]
    exact h
  · rw [hMoved]
    refine Heap.All.modify h fun other hOther _ => KickChannel.timed_of_ne ?_
    rwa [← Option.some.inj (hLive.symm.trans hOther)]
  · rw [hRetried]
    exact Heap.All.modify h fun _ _ _ => KickChannel.timed_of_ne (by rintro ⟨⟩)

theorem AllTimed.step (h : AllTimed server) (event : Event Slug) :
    AllTimed (server.step lower true event) := by
  cases event with
  | getOrCreate slug =>
    rcases hFound : server.findBySlug lower (lower slug) with _ | existing
    · rw [KickChatServer.step, getOrCreate_of_new hFound]
      intro i channel hLive
      rcases eq_or_ne i server.nextChannel with rfl | hNe
      · obtain rfl := Option.some.inj ((if_pos rfl).symm.trans hLive)
        exact KickChannel.timed_of_ne (by rintro ⟨⟩)
      · exact h i channel ((if_neg hNe).symm.trans hLive)
    · rw [KickChatServer.step, getOrCreate_of_found hFound]
      exact h
  | connect id => exact h.connect
  | disconnect id => exact h.disconnect
  | reconnect id => exact h.disconnect.modify fun _ _ hTimed => hTimed
  | destroy id =>
    rcases hLive : server.channels id with _ | channel
    · rw [KickChatServer.step, destroy_of_gone hLive]
      exact h
    · have hLeft : AllTimed { server with
          channels := fun i => if i = id then none else server.channels i } := by
        intro i other hOther
        rcases eq_or_ne i id with rfl | hNe
        · cases (if_pos rfl).symm.trans hOther
        · exact h i other ((if_neg hNe).symm.trans hOther)
      rw [KickChatServer.step, destroy_eq hLive, disconnectIfIdle]
      split <;> exact hLeft
  | setApi id => exact Heap.All.modify h fun _ _ hTimed => hTimed
  | established =>
    rw [KickChatServer.step]
    split
    · exact Heap.All.modifyAll h (f := KickChannel.onServerConnected) (fun _ hTimed => hTimed) _
    · exact h
  | closed =>
    rw [KickChatServer.step]
    split
    · exact Heap.All.modifyAll h (f := KickChannel.onServerDisconnected)
        (fun _ _ => KickChannel.timed_of_ne (by rintro ⟨⟩)) _
    · exact h
  | error =>
    rw [KickChatServer.step]
    split
    · exact Heap.All.modifyAll h (fun _ => KickChannel.timed_onServerError) _
    · exact h
  | pusherError code =>
    have hError : AllTimed server.onError :=
      Heap.All.modifyAll h (fun _ => KickChannel.timed_onServerError) _
    rw [KickChatServer.step]
    split
    · rw [handlePusherError]
      split <;> exact hError
    · exact h
  | message chatroomId =>
    rw [KickChatServer.step, onMessage]
    split
    · exact h
    split <;> exact h
  | resolved id info =>
    obtain ⟨-, hSame⟩ | ⟨channel, -, -, ⟨-, hFailed⟩ | ⟨-, hConnected⟩⟩ := resolved_cases server id info
    · rw [KickChatServer.step, hSame]
      exact h
    · rw [KickChatServer.step, hFailed]
      exact Heap.All.modify h fun _ _ _ => KickChannel.timed_of_ne (by rintro ⟨⟩)
    · rw [KickChatServer.step, hConnected]
      exact Heap.All.modify h fun _ _ _ => KickChannel.timed_of_ne (by rintro ⟨⟩)
  | retryTimeout id delay => exact h.retryTimeout
  | reconnectTimeout id =>
    obtain ⟨-, hSame⟩ | ⟨channel, -, -, hConnect⟩ := reconnectTimeout_cases server id true
    · rw [KickChatServer.step, hSame]
      exact h
    · rw [KickChatServer.step, hConnect]
      exact AllTimed.connect (Heap.All.modify h fun _ _ hTimed => hTimed)

end KickChatServer

end Chatterino.Kick
