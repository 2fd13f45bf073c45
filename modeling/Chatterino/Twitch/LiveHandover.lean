import Chatterino.Twitch.LiveChannel

/-! # Handing over what is live

A channel changes from the record of the notification controller to a status of its own and back. As
long as no answer meets a record that starts again while /live shows the channel, /live agrees with
the answers.
-/

namespace Chatterino.Twitch

open Lib CircularBuffer

variable {C : Type}

def OlderDisabled (messages : List (LiveMessage C)) : Prop := ∀ message ∈ messages.dropLast, message.disabled = true

def undisabled (messages : List (LiveMessage C)) : Nat := messages.countP fun message => !message.disabled

theorem undisabled_eq_zero_iff {messages : List (LiveMessage C)} :
    undisabled messages = 0 ↔ ∀ message ∈ messages, message.disabled = true := by
  simp [undisabled, List.countP_eq_zero]

theorem olderDisabled_append {messages : List (LiveMessage C)} (h : undisabled messages = 0) (channel : C) :
    OlderDisabled (messages ++ [{ id := some channel }]) ∧ undisabled (messages ++ [{ id := some channel }]) = 1 := by
  constructor
  · rw [OlderDisabled, List.dropLast_concat]
    exact undisabled_eq_zero_iff.mp h
  · rw [undisabled, List.countP_append]
    exact congrArg (· + 1) h

theorem olderDisabled_retractLast [DecidableEq C] {messages : List (LiveMessage C)} {channel : C} (h : OlderDisabled messages)
    (hIds : ∀ message ∈ messages, message.id = some channel) :
    OlderDisabled ((liveMarking C).retractLast (some channel) messages) ∧
      undisabled ((liveMarking C).retractLast (some channel) messages) = 0 := by
  rcases List.eq_nil_or_concat messages with rfl | ⟨older, last, rfl⟩
  · exact ⟨h, rfl⟩
  · rw [List.concat_eq_append] at h hIds ⊢
    have hLast : last.id = some channel := hIds last (by simp)
    have hRetract := @Marking.retractLast_split _ _ _ _ (liveMarking C) _ older [] last hLast List.not_mem_nil
    rw [OlderDisabled, List.dropLast_concat] at h
    rw [hRetract]
    constructor
    · rw [OlderDisabled, List.dropLast_concat]
      exact h
    · rw [undisabled_eq_zero_iff, List.forall_mem_append, List.forall_mem_singleton]
      exact ⟨h, rfl⟩

structure LiveView (C : Type) where
  messages : List (LiveMessage C)
  lastAnswer : Option Bool
  opened : Option OpenChannel
  fake : Option (FakeChannel C)

/-- One record is live at most, and then the channel is shown. The last answer agrees with what is
shown. -/
structure Tracked (channel : C) (view : LiveView C) : Prop where
  ids : ∀ message ∈ view.messages, message.id = some channel
  older : OlderDisabled view.messages
  answered : ∀ live, view.lastAnswer = some live → undisabled view.messages = if live then 1 else 0
  opened : ∀ found, view.opened = some found → found.live = true →
    undisabled view.messages = 1 ∧ ∀ fake, view.fake = some fake → fake.isLive = false
  fakeId : ∀ fake, view.fake = some fake → fake.id = none ∨ fake.id = some channel
  fake : ∀ fake, view.fake = some fake → fake.isLive = true → fake.id.isSome ∧ undisabled view.messages = 1

namespace Tracked

variable {channel : C} {view : LiveView C} {opened : Option OpenChannel} {fake : Option (FakeChannel C)}

theorem opened_hidden (h : Tracked channel view) (hHidden : undisabled view.messages = 0) :
    ∀ found, view.opened = some found → found.live = false := by
  intro found hFound
  rw [Bool.eq_false_iff]
  intro hLive
  rw [(h.opened found hFound hLive).1] at hHidden
  cases hHidden

theorem fake_hidden (h : Tracked channel view) (hHidden : undisabled view.messages = 0) :
    ∀ fake, view.fake = some fake → fake.isLive = false := by
  intro fake hFake
  rw [Bool.eq_false_iff]
  intro hLive
  rw [(h.fake fake hFake hLive).2] at hHidden
  cases hHidden

theorem post (h : Tracked channel view) (hHidden : undisabled view.messages = 0)
    (hOpened : ∀ found, opened = some found → found.live = true → ∀ f, fake = some f → f.isLive = false)
    (hFakeId : ∀ f, fake = some f → f.id = none ∨ f.id = some channel)
    (hFake : ∀ f, fake = some f → f.isLive = true → f.id.isSome) :
    Tracked channel ⟨view.messages ++ [{ id := some channel }], some true, opened, fake⟩ := by
  obtain ⟨hOlder, hShown⟩ := olderDisabled_append hHidden channel
  refine ⟨?_, hOlder, ?_, fun found hFound hLive => ⟨hShown, hOpened found hFound hLive⟩, hFakeId,
    fun f hf hLive => ⟨hFake f hf hLive, hShown⟩⟩
  · rw [List.forall_mem_append, List.forall_mem_singleton]
    exact ⟨h.ids, rfl⟩
  · rintro live ⟨⟩
    exact hShown

theorem disable [DecidableEq C] (h : Tracked channel view) (hOpened : ∀ found, opened = some found → found.live = false)
    (hFakeId : ∀ f, fake = some f → f.id = none ∨ f.id = some channel)
    (hFake : ∀ f, fake = some f → f.isLive = false) :
    Tracked channel ⟨(liveMarking C).retractLast (some channel) view.messages, some false, opened, fake⟩ := by
  obtain ⟨hOlder, hHidden⟩ := olderDisabled_retractLast h.older h.ids
  refine ⟨?_, hOlder, ?_, ?_, hFakeId, ?_⟩
  · have hIds := (liveMarking C).map_id_retractLast (some channel) view.messages
    intro message hMem
    have hId : message.id ∈ view.messages.map LiveMessage.id := by
      rw [← show _ = view.messages.map LiveMessage.id from hIds]
      exact List.mem_map_of_mem hMem
    obtain ⟨old, hOld, hEq⟩ := List.mem_map.mp hId
    rw [← hEq, h.ids old hOld]
  · rintro live ⟨⟩
    exact hHidden
  · intro found hFound hLive
    rw [hOpened found hFound] at hLive
    cases hLive
  · intro f hf hLive
    rw [hFake f hf] at hLive
    cases hLive

theorem stayHidden (h : Tracked channel view) (hHidden : undisabled view.messages = 0)
    (hOpened : ∀ found, opened = some found → found.live = false)
    (hFakeId : ∀ f, fake = some f → f.id = none ∨ f.id = some channel)
    (hFake : ∀ f, fake = some f → f.isLive = false) : Tracked channel ⟨view.messages, some false, opened, fake⟩ := by
  refine ⟨h.ids, h.older, ?_, ?_, hFakeId, ?_⟩
  · rintro live ⟨⟩
    exact hHidden
  · intro found hFound hLive
    rw [hOpened found hFound] at hLive
    cases hLive
  · intro f hf hLive
    rw [hFake f hf] at hLive
    cases hLive

theorem stayShown (h : Tracked channel view) (hShown : undisabled view.messages = 1) :
    Tracked channel { view with lastAnswer := some true } := by
  refine ⟨h.ids, h.older, ?_, h.opened, h.fakeId, h.fake⟩
  rintro live ⟨⟩
  exact hShown

theorem of_quiet {view' : LiveView C} (h : Tracked channel view)
    (hMessages : view'.messages = view.messages)
    (hAnswer : view'.lastAnswer = view.lastAnswer ∨ view'.lastAnswer = none)
    (hOpened : ∀ found, view'.opened = some found → found.live = true →
      ∃ before, view.opened = some before ∧ before.live = true)
    (hFake : view'.fake = view.fake ∨ view'.fake = none) : Tracked channel view' := by
  have hSome {fake : FakeChannel C} (hNow : view'.fake = some fake) : view.fake = some fake := by
    rcases hFake with hSame | hNone
    · rwa [← hSame]
    · rw [hNone] at hNow
      cases hNow
  refine ⟨?_, ?_, ?_, ?_, fun fake hNow => h.fakeId fake (hSome hNow), ?_⟩
  · rw [hMessages]
    exact h.ids
  · rw [hMessages]
    exact h.older
  · intro live hLast
    rw [hMessages]
    rcases hAnswer with hSame | hNone
    · exact h.answered live (hSame ▸ hLast)
    · rw [hNone] at hLast
      cases hLast
  · intro found hFound hLive
    obtain ⟨before, hBefore, hWas⟩ := hOpened found hFound hLive
    rw [hMessages]
    exact ⟨(h.opened before hBefore hWas).1, fun fake hNow => (h.opened before hBefore hWas).2 fake (hSome hNow)⟩
  · intro fake hNow hLive
    rw [hMessages]
    exact h.fake fake (hSome hNow) hLive

end Tracked

namespace LiveTracker

variable [DecidableEq C]

def view (s : LiveTracker C) (channel : C) : LiveView C where
  messages := s.messages.filter fun message => message.id = some channel
  lastAnswer := s.lastAnswer channel
  opened := s.opened channel
  fake := s.fakeChannels_ channel

theorem shown_eq (channel : C) (s : LiveTracker C) : s.shown channel = undisabled (s.view channel).messages := by
  rw [shown, undisabled, view, List.countP_filter]
  congr 1
  funext message
  exact Bool.and_comm _ _

theorem messages_view_live (channel other : C) (s : LiveTracker C) :
    ((s.notifyTwitchChannelLive channel).view other).messages =
      if other = channel then (s.view other).messages ++ [{ id := some channel }] else (s.view other).messages := by
  rw [view, notifyTwitchChannelLive, List.filter_append]
  split_ifs with hOther
  · rw [hOther, List.filter_cons_of_pos (by simp)]
    rfl
  · rw [List.filter_cons_of_neg (by simpa using Ne.symm hOther), List.filter_nil, List.append_nil]
    rfl

theorem messages_view_offline {s : LiveTracker C} (hFew : s.messages.length < 200) (id : Option C) (other : C) :
    ((s.notifyTwitchChannelOffline id).view other).messages =
      if id = some other then (liveMarking C).retractLast id (s.view other).messages else (s.view other).messages := by
  have hMessages : (s.notifyTwitchChannelOffline id).messages = (liveMarking C).retractLast id s.messages := by
    rw [notifyTwitchChannelOffline, rtake_of_length_le hFew.le, Nat.sub_eq_zero_of_le hFew.le, List.take_zero,
      List.nil_append]
  rw [view, hMessages]
  split_ifs with hId
  · refine (liveMarking C).filter_retractLast (fun x hx => ?_) (fun _ => rfl) _
    rw [decide_eq_true_iff]
    exact Eq.trans hx hId
  · refine (liveMarking C).filter_retractLast_of_ne (fun x hx => ?_) (fun _ => rfl) _
    rw [decide_eq_false_iff_not]
    exact fun hEq => hId (Eq.trans (Eq.symm hx) hEq)

def AllTracked (s : LiveTracker C) : Prop := ∀ channel, Tracked channel (s.view channel)

theorem length_offline (id : Option C) (s : LiveTracker C) :
    (s.notifyTwitchChannelOffline id).messages.length = s.messages.length := by
  rw [notifyTwitchChannelOffline, List.length_append, Marking.length_retractLast, length_rtake, List.length_take]
  omega

omit [DecidableEq C] in
theorem length_le_live (channel : C) (s : LiveTracker C) :
    s.messages.length ≤ (s.notifyTwitchChannelLive channel).messages.length := by
  rw [notifyTwitchChannelLive, List.length_append]
  exact Nat.le_add_right _ _

def answerFake (channel : C) (live : Bool) (s : LiveTracker C) : LiveTracker C :=
  (s.updateFakeChannel channel live).answered channel live

theorem view_notifyTwitchChannelLive (channel other : C) (s : LiveTracker C) :
    (s.notifyTwitchChannelLive channel).view other = { s.view other with
      messages :=
        if other = channel then (s.view other).messages ++ [{ id := some channel }] else (s.view other).messages } := by
  rw [← messages_view_live]
  rfl

theorem view_notifyTwitchChannelOffline {s : LiveTracker C} (hFew : s.messages.length < 200) (id : Option C)
    (other : C) : (s.notifyTwitchChannelOffline id).view other = { s.view other with
      messages := if id = some other then (liveMarking C).retractLast id (s.view other).messages
        else (s.view other).messages } := by
  have hMessages := messages_view_offline hFew id other
  obtain ⟨messages, hOffline⟩ : ∃ messages, s.notifyTwitchChannelOffline id = { s with messages } := ⟨_, rfl⟩
  rw [hOffline] at hMessages ⊢
  exact congrArg (fun messages => LiveView.mk messages (s.lastAnswer other) (s.opened other) (s.fakeChannels_ other))
    hMessages

theorem view_answered (channel other : C) (live : Bool) (s : LiveTracker C) :
    (s.answered channel live).view other = { s.view other with
      lastAnswer := if other = channel then some live else (s.view other).lastAnswer } := by
  simp only [view, answered, Function.update_apply]

def setFake (channel : C) (fake : FakeChannel C) (s : LiveTracker C) : LiveTracker C :=
  { s with fakeChannels_ := Function.update s.fakeChannels_ channel (some fake) }

theorem view_setFake (channel other : C) (fake : FakeChannel C) (s : LiveTracker C) :
    (s.setFake channel fake).view other = { s.view other with
      fake := if other = channel then some fake else (s.view other).fake } := by
  simp only [view, setFake, Function.update_apply]

def changeFake (channel : C) (live : Bool) (id : Option C) (s : LiveTracker C) : LiveTracker C :=
  if live then (s.setFake channel ⟨if id.isNone then some channel else id, true⟩).notifyTwitchChannelLive channel
  else (s.setFake channel ⟨id, false⟩).notifyTwitchChannelOffline id

theorem updateFakeChannel_eq (channel : C) (live : Bool) (s : LiveTracker C) :
    s.updateFakeChannel channel live =
      match s.fakeChannels_ channel with
      | none => s.changeFake channel live none
      | some fake => if fake.isLive = live then s else s.changeFake channel live fake.id := by
  unfold updateFakeChannel changeFake
  cases hFake : s.fakeChannels_ channel with
  | none => cases live <;> rfl
  | some fake => cases live <;> cases hLive : fake.isLive <;> simp [setFake, hLive]

theorem view_changeFake_of_ne {channel other : C} {live : Bool} {id : Option C} {s : LiveTracker C}
    (hFew : s.messages.length < 200) (hId : id = none ∨ id = some channel) (hOther : other ≠ channel) :
    (s.changeFake channel live id).view other = s.view other := by
  cases live with
  | true =>
    rw [changeFake, if_pos rfl, view_notifyTwitchChannelLive, view_setFake, if_neg hOther, if_neg hOther]
  | false =>
    have hNe : id ≠ some other := by
      rintro rfl
      rcases hId with hId | hId
      · cases hId
      · exact hOther (Option.some.inj hId)
    rw [changeFake, if_neg Bool.false_ne_true, view_notifyTwitchChannelOffline (by exact hFew), view_setFake,
      if_neg hOther, if_neg hNe]

theorem view_answerFake_of_ne {channel other : C} {live : Bool} {s : LiveTracker C} (hFew : s.messages.length < 200)
    (h : Tracked channel (s.view channel)) (hOther : other ≠ channel) :
    (s.answerFake channel live).view other = s.view other := by
  rw [answerFake, view_answered, if_neg hOther, updateFakeChannel_eq]
  cases hFake : s.fakeChannels_ channel with
  | none => exact view_changeFake_of_ne hFew (.inl rfl) hOther
  | some fake =>
    dsimp only
    split_ifs
    · rfl
    · exact view_changeFake_of_ne hFew (h.fakeId fake hFake) hOther

theorem view_changeFake {channel : C} {live : Bool} {id : Option C} {s : LiveTracker C}
    (hFew : s.messages.length < 200) : (s.changeFake channel live id).view channel =
      if live then
        { s.view channel with
          messages := (s.view channel).messages ++ [{ id := some channel }]
          fake := some ⟨if id.isNone then some channel else id, true⟩ }
      else
        { s.view channel with
          messages := if id = some channel then (liveMarking C).retractLast id (s.view channel).messages
            else (s.view channel).messages
          fake := some ⟨id, false⟩ } := by
  cases live with
  | true => rw [changeFake, if_pos rfl, view_notifyTwitchChannelLive, view_setFake, if_pos rfl, if_pos rfl, if_pos rfl]
  | false =>
    rw [changeFake, if_neg Bool.false_ne_true, view_notifyTwitchChannelOffline (by exact hFew), view_setFake,
      if_pos rfl, if_neg Bool.false_ne_true]

theorem tracked_answerFake {channel : C} {live : Bool} {s : LiveTracker C} (hFew : s.messages.length < 200)
    (h : Tracked channel (s.view channel))
    (hReady : (s.fakeChannels_ channel).any (·.isLive) = true ∨ s.shown channel = 0) :
    Tracked channel ((s.answerFake channel live).view channel) := by
  rw [shown_eq] at hReady
  rw [answerFake, view_answered, if_pos rfl, updateFakeChannel_eq]
  have hPost (id : Option C) (hId : id = none ∨ id = some channel) (hHidden : undisabled (s.view channel).messages = 0) :
      Tracked channel ⟨(s.view channel).messages ++ [{ id := some channel }], some true, s.opened channel,
        some ⟨if id.isNone then some channel else id, true⟩⟩ := by
    have hSome : (if id.isNone then some channel else id) = some channel := by
      rcases hId with rfl | rfl
      · rfl
      · rfl
    rw [hSome]
    refine h.post hHidden ?_ ?_ ?_
    · intro found hFound hLive
      rw [h.opened_hidden hHidden found hFound] at hLive
      cases hLive
    · rintro f ⟨⟩
      exact .inr rfl
    · rintro f ⟨⟩ -
      rfl
  cases hFake : s.fakeChannels_ channel with
  | none =>
    have hHidden : undisabled (s.view channel).messages = 0 := by simpa [hFake] using hReady
    dsimp only
    rw [view_changeFake hFew]
    cases live with
    | true => exact hPost none (.inl rfl) hHidden
    | false =>
      refine h.stayHidden hHidden (h.opened_hidden hHidden) ?_ ?_
      · rintro f ⟨⟩
        exact .inl rfl
      · rintro f ⟨⟩
        rfl
  | some fake =>
    dsimp only
    split_ifs with hSame
    · cases live with
      | true => exact h.stayShown (h.fake fake hFake hSame).2
      | false =>
        have hHidden : undisabled (s.view channel).messages = 0 := by simpa [hFake, hSame] using hReady
        exact h.stayHidden hHidden (h.opened_hidden hHidden) h.fakeId (h.fake_hidden hHidden)
    · rw [view_changeFake hFew]
      cases live with
      | true =>
        have hHidden : undisabled (s.view channel).messages = 0 := by simpa [hFake, hSame] using hReady
        exact hPost fake.id (h.fakeId fake hFake) hHidden
      | false =>
        have hLive : fake.isLive = true := by simpa using hSame
        have hId : fake.id = some channel := by
          refine (h.fakeId fake hFake).resolve_left fun hNone => ?_
          have hSome := (h.fake fake hFake hLive).1
          rw [hNone] at hSome
          cases hSome
        rw [if_neg Bool.false_ne_true, if_pos hId, hId]
        refine h.disable ?_ ?_ ?_
        · intro found hFound
          rw [Bool.eq_false_iff]
          intro hOpened
          rw [(h.opened found hFound hOpened).2 fake hFake] at hLive
          cases hLive
        · rintro f ⟨⟩
          exact .inr rfl
        · rintro f ⟨⟩
          rfl

theorem isLive_answerFake (channel : C) (live : Bool) (s : LiveTracker C) :
    ((s.answerFake channel live).fakeChannels_ channel).any (·.isLive) = live := by
  change ((s.updateFakeChannel channel live).fakeChannels_ channel).any (·.isLive) = live
  have hChange (id : Option C) : ((s.changeFake channel live id).fakeChannels_ channel).any (·.isLive) = live := by
    cases live with
    | true =>
      change (Function.update s.fakeChannels_ channel _ channel).any (·.isLive) = true
      rw [Function.update_self]
      rfl
    | false =>
      change (Function.update s.fakeChannels_ channel _ channel).any (·.isLive) = false
      rw [Function.update_self]
      rfl
  rw [updateFakeChannel_eq]
  cases hFake : s.fakeChannels_ channel with
  | none => exact hChange none
  | some fake =>
    dsimp only
    split_ifs with hSame
    · rw [hFake]
      exact hSame
    · exact hChange fake.id

def setOpened (channel : C) (found : OpenChannel) (s : LiveTracker C) : LiveTracker C :=
  { s with opened := Function.update s.opened channel (some found) }

theorem view_setOpened (channel other : C) (found : OpenChannel) (s : LiveTracker C) :
    (s.setOpened channel found).view other = { s.view other with
      opened := if other = channel then some found else (s.view other).opened } := by
  simp only [view, setOpened, Function.update_apply]

theorem updateStreamStatus_eq (channel : C) (found : OpenChannel) (live : Bool) (s : LiveTracker C) :
    s.updateStreamStatus channel found live =
      if found.live = live then s
      else if live then (s.setOpened channel { found with live }).notifyTwitchChannelLive channel
      else (s.setOpened channel { found with live }).notifyTwitchChannelOffline (some channel) := rfl

theorem opened_of_lock {channel : C} {found : OpenChannel} {s : LiveTracker C} (h : s.lock channel = some found) :
    s.opened channel = some found := by
  obtain ⟨entry, -, hOpened⟩ := Option.bind_eq_some_iff.mp h
  exact (Option.filter_eq_some_iff.mp hOpened).1

theorem view_updateChannel_of_ne {channel other : C} {live : Bool} {s : LiveTracker C}
    (hFew : s.messages.length < 200) (hOther : other ≠ channel) :
    (s.updateChannel channel live).view other = s.view other := by
  unfold updateChannel
  cases s.lock channel with
  | none => rfl
  | some found =>
    dsimp only
    rw [view_answered, if_neg hOther, updateStreamStatus_eq]
    split_ifs with hSame hLive
    · rfl
    · rw [view_notifyTwitchChannelLive, view_setOpened, if_neg hOther, if_neg hOther]
    · rw [view_notifyTwitchChannelOffline (by exact hFew), view_setOpened, if_neg hOther,
        if_neg fun hEq => hOther (Option.some.inj hEq).symm]

theorem tracked_updateChannel {channel : C} {live : Bool} {s : LiveTracker C} (hFew : s.messages.length < 200)
    (h : Tracked channel (s.view channel))
    (hReady : ∀ found ∈ s.lock channel, found.live = true ∨ s.shown channel = 0) :
    Tracked channel ((s.updateChannel channel live).view channel) := by
  unfold updateChannel
  cases hLock : s.lock channel with
  | none => exact h
  | some found =>
    have hOpened := opened_of_lock hLock
    have hHidden (hLive : ¬found.live = true) : undisabled (s.view channel).messages = 0 := by
      rw [← shown_eq]
      exact (hReady found hLock).resolve_left hLive
    dsimp only
    rw [view_answered, if_pos rfl, updateStreamStatus_eq]
    split_ifs with hSame hLive
    · cases live with
      | true => exact h.stayShown (h.opened found hOpened hSame).1
      | false =>
        have hNone := hHidden (by simp [hSame])
        exact h.stayHidden hNone (h.opened_hidden hNone) h.fakeId (h.fake_hidden hNone)
    · have hNone := hHidden (by simpa [hLive] using hSame)
      rw [view_notifyTwitchChannelLive, view_setOpened, if_pos rfl, if_pos rfl, hLive]
      refine h.post hNone (fun _ _ _ => h.fake_hidden hNone) h.fakeId ?_
      intro f hFake hFakeLive
      rw [h.fake_hidden hNone f hFake] at hFakeLive
      cases hFakeLive
    · have hWas : found.live = true := by simpa [hLive] using hSame
      rw [view_notifyTwitchChannelOffline (by exact hFew), view_setOpened, if_pos rfl, if_pos rfl,
        Bool.eq_false_iff.mpr hLive]
      refine h.disable ?_ h.fakeId (h.opened found hOpened hWas).2
      rintro f ⟨⟩
      rfl

theorem channels_updateChannel (channel : C) (live : Bool) (s : LiveTracker C) :
    (s.updateChannel channel live).channels = s.channels := by
  unfold updateChannel
  cases s.lock channel with
  | none => rfl
  | some found =>
    dsimp only
    rw [updateStreamStatus_eq]
    split_ifs
    · rfl
    · rfl
    · rfl

theorem lock_updateChannel_of_ne {channel other : C} {live : Bool} {s : LiveTracker C}
    (hFew : s.messages.length < 200) (hOther : other ≠ channel) :
    (s.updateChannel channel live).lock other = s.lock other := by
  have hOpened : (s.updateChannel channel live).opened other = s.opened other :=
    congrArg LiveView.opened (view_updateChannel_of_ne hFew hOther)
  rw [lock, channels_updateChannel, hOpened, lock]

theorem live_of_lock_updateChannel {channel : C} {live : Bool} {s : LiveTracker C} {found : OpenChannel}
    (h : (s.updateChannel channel live).lock channel = some found) : found.live = live := by
  have hNow := opened_of_lock h
  unfold updateChannel at h hNow
  cases hLock : s.lock channel with
  | none =>
    rw [hLock] at h
    rw [show s.lock channel = some found from h] at hLock
    cases hLock
  | some before =>
    have hChange (t : LiveTracker C) (hOpened : t.opened = (s.setOpened channel { before with live }).opened)
        (hSome : t.opened channel = some found) : found.live = live := by
      rw [hOpened] at hSome
      have hBefore : (s.setOpened channel { before with live }).opened channel = some { before with live } :=
        Function.update_self _ _ _
      rw [← Option.some.inj (hBefore.symm.trans hSome)]
    rw [hLock] at hNow
    dsimp only at hNow
    rw [updateStreamStatus_eq] at hNow
    split_ifs at hNow with hSame hLive
    · have hFound : before = found := Option.some.inj ((opened_of_lock hLock).symm.trans hNow)
      rw [← hFound, hSame]
    · exact hChange _ rfl hNow
    · exact hChange _ rfl hNow

theorem lastAnswer_updateChannel {channel : C} {live : Bool} {s : LiveTracker C} {found : OpenChannel}
    (h : (s.updateChannel channel live).lock channel = some found) :
    (s.updateChannel channel live).lastAnswer channel = some live := by
  unfold updateChannel at h ⊢
  cases hLock : s.lock channel with
  | none =>
    rw [hLock] at h
    rw [show s.lock channel = some found from h] at hLock
    cases hLock
  | some before => exact Function.update_self _ _ _

theorem length_le_answerFake (channel : C) (live : Bool) (s : LiveTracker C) :
    s.messages.length ≤ (s.answerFake channel live).messages.length := by
  change s.messages.length ≤ (s.updateFakeChannel channel live).messages.length
  have hChange (id : Option C) : s.messages.length ≤ (s.changeFake channel live id).messages.length := by
    cases live with
    | true => exact length_le_live channel _
    | false => exact (length_offline id _).ge
  rw [updateFakeChannel_eq]
  cases s.fakeChannels_ channel with
  | none => exact hChange none
  | some fake =>
    dsimp only
    split_ifs
    · exact Nat.le_refl _
    · exact hChange fake.id

theorem length_le_updateChannel (channel : C) (live : Bool) (s : LiveTracker C) :
    s.messages.length ≤ (s.updateChannel channel live).messages.length := by
  unfold updateChannel
  cases s.lock channel with
  | none => exact Nat.le_refl _
  | some found =>
    change s.messages.length ≤ (s.updateStreamStatus channel found live).messages.length
    rw [updateStreamStatus_eq]
    split_ifs
    · exact Nat.le_refl _
    · exact length_le_live channel _
    · exact (length_offline (some channel) _).ge

theorem allTracked_foldl {update : LiveTracker C → C → LiveTracker C} {ready : LiveTracker C → C → Prop}
    (hGrow : ∀ s channel, s.messages.length ≤ (update s channel).messages.length)
    (hTracked : ∀ s channel, s.messages.length < 200 → s.AllTracked → ready s channel → (update s channel).AllTracked)
    (hReady : ∀ s channel, s.messages.length < 200 → s.AllTracked → ready s channel →
      ∀ other, ready s other → ready (update s channel) other)
    {batch : List C} {s : LiveTracker C} (hFew : (batch.foldl update s).messages.length < 200) (h : s.AllTracked)
    (hBatch : ∀ channel ∈ batch, ready s channel) : (batch.foldl update s).AllTracked := by
  induction batch generalizing s with
  | nil => exact h
  | cons channel batch ih =>
    rw [List.forall_mem_cons] at hBatch
    have hLess (s : LiveTracker C) : s.messages.length ≤ (batch.foldl update s).messages.length :=
      @foldl_invariant _ _ update (fun t => s.messages.length ≤ t.messages.length) s batch (Nat.le_refl _)
        fun t channel hLe => hLe.trans (hGrow t channel)
    have hNow : s.messages.length < 200 := ((hGrow s channel).trans (hLess _)).trans_lt hFew
    refine ih hFew (hTracked s channel hNow h hBatch.1) fun other hMem => ?_
    exact hReady s channel hNow h hBatch.1 other (hBatch.2 other hMem)

theorem allTracked_onFakeAnswer {batch streams : List C} {s : LiveTracker C}
    (hFew : (s.onFakeAnswer batch streams).messages.length < 200) (h : s.AllTracked)
    (hReady : ∀ channel ∈ batch, (s.fakeChannels_ channel).any (·.isLive) = true ∨ s.shown channel = 0) :
    (s.onFakeAnswer batch streams).AllTracked := by
  have hView {s : LiveTracker C} {channel other : C} {live : Bool} (hNow : s.messages.length < 200)
      (h : s.AllTracked) (hOther : other ≠ channel) : (s.answerFake channel live).view other = s.view other :=
    view_answerFake_of_ne hNow (h channel) hOther
  refine @allTracked_foldl _ _ (fun s name => s.answerFake name (name ∈ streams))
    (fun s channel => (s.fakeChannels_ channel).any (·.isLive) = true ∨ s.shown channel = 0)
    (fun s channel => length_le_answerFake channel _ s) ?_ ?_ batch s hFew h hReady
  · intro s channel hNow h hReady other
    by_cases hOther : other = channel
    · rw [hOther]
      exact tracked_answerFake hNow (h channel) hReady
    · rw [hView hNow h hOther]
      exact h other
  · intro s channel hNow h hChannel other hReady
    by_cases hOther : other = channel
    · have hTracked := @tracked_answerFake _ _ channel (channel ∈ streams) s hNow (h channel) hChannel
      rw [hOther, isLive_answerFake, shown_eq]
      by_cases hLive : channel ∈ streams
      · exact .inl (decide_eq_true hLive)
      · refine .inr ((hTracked.answered (decide (channel ∈ streams)) ?_).trans (by simp [hLive]))
        exact Function.update_self _ _ _
    · rw [shown_eq, hView hNow h hOther, ← shown_eq]
      rw [show ((s.answerFake channel _).fakeChannels_ other) = s.fakeChannels_ other from
        congrArg LiveView.fake (hView hNow h hOther)]
      exact hReady

theorem allTracked_onLiveAnswer {batch streams : List C} {s : LiveTracker C}
    (hFew : (s.onLiveAnswer batch streams).messages.length < 200) (h : s.AllTracked)
    (hReady : ∀ channel ∈ batch, ∀ found ∈ s.lock channel, found.live = true ∨ s.shown channel = 0) :
    (s.onLiveAnswer batch streams).AllTracked := by
  have hFold : (batch.foldl (fun s channel => s.updateChannel channel (channel ∈ streams)) s).AllTracked := by
    refine @allTracked_foldl _ _ (fun s channel => s.updateChannel channel (channel ∈ streams))
      (fun s channel => ∀ found ∈ s.lock channel, found.live = true ∨ s.shown channel = 0)
      (fun s channel => length_le_updateChannel channel _ s) ?_ ?_ batch s hFew h hReady
    · intro s channel hNow h hReady other
      by_cases hOther : other = channel
      · rw [hOther]
        exact tracked_updateChannel hNow (h channel) hReady
      · rw [view_updateChannel_of_ne hNow hOther]
        exact h other
    · intro s channel hNow h hChannel other hReady
      by_cases hOther : other = channel
      · have hTracked := @tracked_updateChannel _ _ channel (channel ∈ streams) s hNow (h channel) hChannel
        rw [hOther]
        intro found hFound
        rw [live_of_lock_updateChannel hFound, shown_eq]
        by_cases hLive : channel ∈ streams
        · exact .inl (decide_eq_true hLive)
        · refine .inr ((hTracked.answered (decide (channel ∈ streams)) ?_).trans (by simp [hLive]))
          exact lastAnswer_updateChannel hFound
      · rw [lock_updateChannel_of_ne hNow hOther, shown_eq, view_updateChannel_of_ne hNow hOther, ← shown_eq]
        exact hReady
  exact hFold

theorem lastAnswer_update (channel other : C) (s : LiveTracker C) :
    Function.update s.lastAnswer channel none other = s.lastAnswer other ∨
      Function.update s.lastAnswer channel none other = none := by
  rw [Function.update_apply]
  split_ifs
  · exact .inr rfl
  · exact .inl rfl

theorem allTracked_openChannel {s : LiveTracker C} (h : s.AllTracked) (channel : C) :
    (s.openChannel channel).AllTracked := by
  intro other
  unfold openChannel
  split_ifs with hOpen
  · exact h other
  · refine (h other).of_quiet rfl (lastAnswer_update channel other s) ?_ (.inl rfl)
    intro found hFound hLive
    change Function.update s.opened channel _ other = some found at hFound
    rw [Function.update_apply] at hFound
    split_ifs at hFound with hOther
    · rw [← Option.some.inj hFound] at hLive
      cases hLive
    · exact ⟨found, hFound, hLive⟩

theorem allTracked_closeChannel {s : LiveTracker C} (h : s.AllTracked) (channel : C) :
    (s.closeChannel channel).AllTracked := by
  intro other
  unfold closeChannel
  split_ifs with hClosed
  · exact h other
  · refine (h other).of_quiet rfl (lastAnswer_update channel other s) ?_ (.inl rfl)
    intro found hFound hLive
    change Function.update s.opened channel none other = some found at hFound
    rw [Function.update_apply] at hFound
    split_ifs at hFound with hOther
    exact ⟨found, hFound, hLive⟩

theorem allTracked_roomIdChanged {s : LiveTracker C} (h : s.AllTracked) (channel : C) :
    (s.roomIdChanged channel).AllTracked := by
  intro other
  unfold roomIdChanged
  cases hOpened : s.opened channel with
  | none => exact h other
  | some found =>
    dsimp only
    split_ifs with hRoom
    · exact h other
    · refine (h other).of_quiet rfl (.inl rfl) ?_ (.inl rfl)
      intro now hNow hLive
      change Function.update s.opened channel _ other = some now at hNow
      rw [Function.update_apply] at hNow
      split_ifs at hNow with hOther
      · rw [← Option.some.inj hNow] at hLive
        exact ⟨found, by rw [hOther]; exact hOpened, hLive⟩
      · exact ⟨now, hNow, hLive⟩

theorem allTracked_fetchFakeChannels {s : LiveTracker C} (h : s.AllTracked) : s.fetchFakeChannels.AllTracked := by
  intro other
  refine (h other).of_quiet rfl (.inl rfl) (fun found hFound hLive => ⟨found, hFound, hLive⟩) ?_
  change (if _ then none else s.fakeChannels_ other) = s.fakeChannels_ other ∨ _ = none
  split_ifs with hOpen
  · exact .inr (if_pos hOpen)
  · exact .inl rfl

theorem allTracked_step {s : LiveTracker C} {event : LiveEvent C} (h : s.AllTracked)
    (hMeets : s.MeetsRecords event) (hFew : (s.step event).messages.length < 200) : (s.step event).AllTracked := by
  cases event with
  | openChannel channel => exact allTracked_openChannel h channel
  | roomIdChanged channel => exact allTracked_roomIdChanged h channel
  | closeChannel channel => exact allTracked_closeChannel h channel
  | addChannelNotification channel => exact h
  | removeChannelNotification channel => exact h
  | fetchFakeChannels => exact allTracked_fetchFakeChannels h
  | fakeAnswer i streams =>
    cases streams with
    | none => exact h
    | some streams => exact allTracked_onFakeAnswer hFew h hMeets
  | refresh => exact h
  | immediateRequest => exact h
  | liveAnswer i streams =>
    cases streams with
    | none => exact h
    | some streams => exact allTracked_onLiveAnswer hFew h hMeets
  | notice =>
    intro channel
    have hView : (s.step .notice).view channel = s.view channel := by
      simp [view, step, List.filter_append]
    rw [hView]
    exact h channel

theorem allTracked_start (names : List C) : (start names).AllTracked := by
  intro channel
  refine ⟨?_, ?_, ?_, ?_, ?_, ?_⟩
  · rintro _ ⟨⟩
  · rintro _ ⟨⟩
  · rintro live ⟨⟩
  · rintro found ⟨⟩
  · rintro fake ⟨⟩
  · rintro fake ⟨⟩

theorem agrees_of_allTracked {s : LiveTracker C} (h : s.AllTracked) : s.Agrees := by
  intro channel _ live hLast
  rw [shown_eq]
  exact (h channel).answered live hLast

/-- While every answer meets a record that agrees with /live, /live agrees with the answers. -/
theorem agrees_of_meetsRecords (names : List C) {events reached : List (LiveEvent C)}
    (hSteps : AllSteps step (fun s event => s.MeetsRecords event ∧ (s.step event).messages.length < 200)
      (start names) events) (hPrefix : reached <+: events) :
    (reached.foldl step (start names)).Agrees := by
  apply agrees_of_allTracked
  exact hSteps.invariant_reached hPrefix (allTracked_start names) fun s event h hOk =>
    allTracked_step h hOk.1 hOk.2

def opens : List (LiveEvent String) :=
  [.fetchFakeChannels, .fakeAnswer 0 (some []), .openChannel "forsen", .roomIdChanged "forsen", .immediateRequest,
    .liveAnswer 0 (some ["forsen"]), .refresh, .liveAnswer 0 (some []), .closeChannel "forsen"]

theorem agrees_opens : (opens.foldl step (start ["forsen"])).Agrees := by
  refine agrees_of_meetsRecords ["forsen"] ?_ (List.prefix_refl opens)
  refine ⟨⟨trivial, by decide⟩, ⟨?_, by decide⟩, ⟨trivial, by decide⟩, ⟨trivial, by decide⟩, ⟨trivial, by decide⟩,
    ⟨?_, by decide⟩, ⟨trivial, by decide⟩, ⟨?_, by decide⟩, ⟨trivial, by decide⟩, trivial⟩
  · unfold MeetsRecords
    decide
  · unfold MeetsRecords
    decide
  · unfold MeetsRecords
    decide

def opensLive : List (LiveEvent String) :=
  [.fetchFakeChannels, .fakeAnswer 0 (some ["forsen"]), .openChannel "forsen", .roomIdChanged "forsen",
    .immediateRequest, .liveAnswer 0 (some ["forsen"])]

/-- Its status starts from offline, so /live shows it twice. -/
theorem not_agrees_opensLive :
    AllSteps step (fun s event => (s.step event).messages.length < 200) (start ["forsen"]) opensLive ∧
      ¬(opensLive.foldl step (start ["forsen"])).Agrees := by
  refine ⟨by decide, fun h => ?_⟩
  have hShown : (opensLive.foldl step (start ["forsen"])).shown "forsen" = 1 :=
    h "forsen" (.inl (by decide)) true (by decide)
  revert hShown
  decide

end LiveTracker

end Chatterino.Twitch
