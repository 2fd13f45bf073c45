import Chatterino.Util.ChannelHelpers

/-! # Timeouts and clears that stack

What the outcome of a call may be, and that timeouts that follow each other leave one message. Where
nothing shall be stacked, this fails exactly for a timeout with an earlier one of the same source.
-/

namespace Chatterino

open Lib
open TimeoutStackStyle ChannelHelpers

variable {style : TimeoutStackStyle} {buffer : List ModerationMessage} {message s : ModerationMessage} {now : Int}
  {disableUserMessages : Bool}

def Stacking.applied (message : ModerationMessage) (buffer : List ModerationMessage) :
    Stacking → List ModerationMessage
  | add => buffer ++ [message]
  | drop => buffer
  | replace i _ => buffer.set i message
  | stack i _ replacement => buffer.set i replacement

namespace ChannelHelpers

section

-- what ends the scan, and which events it looks for
variable (ends earlier : ModerationMessage → Prop) (message : ModerationMessage) (buffer : List ModerationMessage)

/-- The last earlier event is replaced, and counted if it is of the same source. -/
structure Replaces (i : Nat) (s replacement : ModerationMessage) : Prop where
  found : ∃ before after, LastWanted ends earlier 20 buffer before s after ∧ i = before.length ∧
    buffer.set i replacement = before ++ replacement :: after
  count : SameSource message s → replacement.count = s.count + 1

def Allowed : Stacking → Prop
  | .add => True
  | .drop => ¬has .PubSub message ∧
      ∃ before s after, LastWanted ends earlier 20 buffer before s after ∧ has .PubSub s
  | .replace i s => Replaces ends earlier message buffer i s message
  | .stack i s replacement => Replaces ends earlier message buffer i s replacement

end

def Combines (message : ModerationMessage) : Stacking → Prop
  | .add => False
  | .drop => True
  | .replace _ s => SameSource message s
  | .stack _ s _ => SameSource message s

theorem replaces_of_lastWanted {ends earlier : ModerationMessage → Prop} {before after : List ModerationMessage}
    {replacement : ModerationMessage} (h : LastWanted ends earlier 20 buffer before s after)
    (hCount : SameSource message s → replacement.count = s.count + 1) :
    Replaces ends earlier message buffer before.length s replacement := by
  refine ⟨⟨before, after, h, rfl, ?_⟩, hCount⟩
  rw [h.split, List.set_append_right _ _ (Nat.le_refl _), Nat.sub_self, List.set_cons_zero]

theorem fst_addOrReplaceChannelTimeout :
    (addOrReplaceChannelTimeout style buffer message now disableUserMessages).1 =
      (scanBack (EndsTimeouts style message now) (EarlierTimeout message) 20 buffer.reverse).elim .add
        (timeoutFound style message) := scanTimeouts_eq 20 buffer.reverse

theorem allowed_timeout : Allowed (EndsTimeouts style message now) (EarlierTimeout message) message buffer
    (addOrReplaceChannelTimeout style buffer message now disableUserMessages).1 := by
  rw [fst_addOrReplaceChannelTimeout]
  cases hScan : scanBack (EndsTimeouts style message now) (EarlierTimeout message) 20 buffer.reverse with
  | none => trivial
  | some found =>
    obtain ⟨i, s⟩ := found
    obtain ⟨before, after, rfl, hLast⟩ := scanBack_reverse_eq_some_iff.mp hScan
    rw [Option.elim, timeoutFound]
    split_ifs with hNew hOld hStyle
    · refine replaces_of_lastWanted hLast fun hSame => ?_
      exact absurd (hSame.symm.trans hNew.1) hNew.2
    · trivial
    · exact ⟨hOld.1, before, s, after, hLast, hOld.2⟩
    · exact replaces_of_lastWanted hLast fun _ => rfl

theorem allowed_clear : Allowed (EndsClears style message now) (EarlierClear message) message buffer
    (addOrReplaceChannelClear style buffer message now) := by
  rw [addOrReplaceChannelClear]
  split_ifs
  · trivial
  · rw [scanClears_eq]
    cases hScan : scanBack (EndsClears style message now) (EarlierClear message) 20 buffer.reverse with
    | none => trivial
    | some found =>
      obtain ⟨i, s⟩ := found
      obtain ⟨before, after, rfl, hLast⟩ := scanBack_reverse_eq_some_iff.mp hScan
      exact replaces_of_lastWanted hLast fun _ => rfl

theorem combines_timeout_iff :
    Combines message (addOrReplaceChannelTimeout DontStack buffer message now disableUserMessages).1 ↔
      ∃ before s after, LastWanted (EndsTimeouts DontStack message now) (EarlierTimeout message) 20 buffer before s
        after ∧ SameSource message s := by
  rw [fst_addOrReplaceChannelTimeout]
  cases hScan : scanBack (EndsTimeouts DontStack message now) (EarlierTimeout message) 20 buffer.reverse with
  | none =>
    refine iff_of_false id ?_
    rintro ⟨before, s, after, hLast, -⟩
    have hFound := scanBack_reverse_eq_some_iff.mpr ⟨before, after, rfl, hLast⟩
    rw [hScan] at hFound
    cases hFound
  | some found =>
    obtain ⟨i, s⟩ := found
    obtain ⟨before, after, rfl, hLast⟩ := scanBack_reverse_eq_some_iff.mp hScan
    have hUnique : (∃ before s after, LastWanted (EndsTimeouts DontStack message now) (EarlierTimeout message) 20
        buffer before s after ∧ SameSource message s) ↔ SameSource message s := by
      constructor
      · rintro ⟨before', s', after', hLast', hSame⟩
        have hFound := scanBack_reverse_eq_some_iff.mpr ⟨before', after', rfl, hLast'⟩
        rw [hScan] at hFound
        obtain rfl : s = s' := (Prod.mk.inj (Option.some.inj hFound)).2
        exact hSame
      · exact fun hSame => ⟨before, s, after, hLast, hSame⟩
    rw [hUnique, Option.elim, timeoutFound]
    split_ifs with hNew hOld hStyle
    · exact Iff.rfl
    · refine iff_of_false id fun hSame => ?_
      exact hOld.1 (hSame.trans hOld.2)
    · exact absurd rfl hStyle
    · exact Iff.rfl

theorem clear_of_dontStack : addOrReplaceChannelClear DontStack buffer message now = .add := if_pos rfl

def IsTimeout (message : ModerationMessage) : Prop :=
  has .Timeout message ∧ has .ModerationAction message ∧ ¬has .Untimeout message

instance : Decidable (IsTimeout message) := inferInstanceAs (Decidable (_ ∧ _ ∧ _))

/-- A timeout of the same user and source, at most 5 s later. -/
structure Follows (previous message : ModerationMessage) (now : Int) : Prop where
  origin : SameOrigin message previous
  user : previous.timeoutUser = message.timeoutUser
  source : SameSource message previous
  recent : now - 5000 ≤ previous.serverReceivedTime

def Burst : ModerationMessage → List (ModerationMessage × Int) → Prop
  | _, [] => True
  | previous, (message, now) :: rest => IsTimeout message ∧ Follows previous message now ∧ Burst message rest

def addTimeout (style : TimeoutStackStyle) (disableUserMessages : Bool) (buffer : List ModerationMessage)
    (event : ModerationMessage × Int) : List ModerationMessage :=
  let result := addOrReplaceChannelTimeout style buffer event.1 event.2 disableUserMessages
  result.1.applied event.1 result.2

theorem Burst.congr {previous previous' : ModerationMessage} {events : List (ModerationMessage × Int)}
    (h : Burst previous events) (hFlags : previous'.flags = previous.flags)
    (hUser : previous'.timeoutUser = previous.timeoutUser) (hChannel : previous'.channelName = previous.channelName)
    (hTime : previous'.serverReceivedTime = previous.serverReceivedTime) : Burst previous' events := by
  cases events with
  | nil => trivial
  | cons event rest =>
    obtain ⟨hTimeout, hFollows, hRest⟩ := h
    refine ⟨hTimeout, ⟨?_, hUser.trans hFollows.user, ?_, hTime ▸ hFollows.recent⟩, hRest⟩
    · have hOrigin := hFollows.origin
      unfold SameOrigin has at hOrigin ⊢
      rwa [hFlags, hChannel]
    · have hSource := hFollows.source
      unfold SameSource has at hSource ⊢
      rwa [hFlags]

theorem timeout_of_follows {previous : ModerationMessage} (hPrevious : IsTimeout previous)
    (h : Follows previous message now) :
    (addOrReplaceChannelTimeout style (buffer ++ [previous]) message now disableUserMessages).1 =
      .stack buffer.length previous (stackedTimeout message (previous.count + 1)) := by
  have hEnds : ¬EndsTimeouts style message now previous := by
    rintro (hOld | hUntimeout | ⟨-, -, hUser⟩)
    · exact absurd hOld (Int.not_lt.mpr h.recent)
    · exact hPrevious.2.2 hUntimeout.1
    · have hAction : previous.flags.has .ModerationAction = true := hPrevious.2.1
      rw [FlagsEnum.hasNone, List.all_eq_true] at hUser
      have hNot := hUser .ModerationAction (by decide)
      rw [hAction] at hNot
      cases hNot
  have hScan : scanBack (EndsTimeouts style message now) (EarlierTimeout message) 20 (buffer ++ [previous]).reverse =
      some (buffer.length, previous) := by
    refine scanBack_reverse_eq_some_iff.mpr ⟨buffer, [], rfl, rfl, Nat.succ_pos _, ?_, by rintro _ ⟨⟩, ?_⟩
    · exact ⟨h.origin, hPrevious.1, h.user⟩
    · exact List.forall_mem_singleton.mpr hEnds
  rw [fst_addOrReplaceChannelTimeout, hScan, Option.elim, timeoutFound]
  have hSource : has .PubSub message = has .PubSub previous := h.source
  rw [hSource, if_neg fun hBoth => hBoth.2 hBoth.1, if_neg fun hBoth => hBoth.1 hBoth.2]

theorem addTimeout_of_follows (buffer : List ModerationMessage) {previous : ModerationMessage} (hPrevious : IsTimeout previous)
    (h : Follows previous message now) : ∃ before,
      addTimeout style disableUserMessages (buffer ++ [previous]) (message, now) =
        before ++ [stackedTimeout message (previous.count + 1)] ∧ before.length = buffer.length := by
  have hSet (before : List ModerationMessage) (replaced replacement : ModerationMessage) :
      (before ++ [replaced]).set before.length replacement = before ++ [replacement] := by
    rw [List.set_append_right _ _ (Nat.le_refl _), Nat.sub_self, List.set_cons_zero]
  let disabled (s : ModerationMessage) : ModerationMessage := if isDisabledBy message s then disable s else s
  rw [addTimeout, timeout_of_follows hPrevious h, addOrReplaceChannelTimeout]
  cases disableUserMessages with
  | false => exact ⟨buffer, hSet buffer _ _, rfl⟩
  | true =>
    refine ⟨buffer.map disabled, ?_, List.length_map _⟩
    rw [if_pos rfl, List.map_append, ← List.length_map disabled]
    exact hSet (buffer.map disabled) _ _

theorem exists_of_burst {first : ModerationMessage} (hFirst : IsTimeout first)
    {events : List (ModerationMessage × Int)} (h : Burst first events) : ∃ before last,
      events.foldl (addTimeout style disableUserMessages) (buffer ++ [first]) = before ++ [last] ∧
      before.length = buffer.length ∧ last.timeoutUser = first.timeoutUser ∧
      last.count = first.count + UInt32.ofNat events.length := by
  induction events generalizing buffer first with
  | nil => exact ⟨buffer, first, rfl, rfl, rfl, (UInt32.add_zero _).symm⟩
  | cons event events ih =>
    obtain ⟨message, now⟩ := event
    obtain ⟨hTimeout, hFollows, hRest⟩ := h
    let last := stackedTimeout message (first.count + 1)
    obtain ⟨before, hStep, hBefore⟩ := addTimeout_of_follows buffer hFirst hFollows
    have hBurst : Burst last events := hRest.congr rfl rfl rfl rfl
    have hLast : IsTimeout last := hTimeout
    obtain ⟨before', last', hRun, hLength, hUser, hCount⟩ := ih hLast hBurst
    refine ⟨before', last', ?_, hLength.trans hBefore, hUser.trans hFollows.user.symm, ?_⟩
    · rw [List.foldl_cons, hStep]
      exact hRun
    · have hOne : last.count = first.count + 1 := rfl
      rw [hCount, hOne, List.length_cons, Nat.add_comm, UInt32.ofNat_add, UInt32.add_assoc]
      rfl

/-- Timeouts that follow each other leave one message that counts them, and nothing is stacked where nothing shall be.
-/
structure Stacks (style : TimeoutStackStyle) (buffer : List ModerationMessage) (message : ModerationMessage)
    (now : Int) (disableUserMessages : Bool) : Prop where
  timeout : Allowed (EndsTimeouts style message now) (EarlierTimeout message) message buffer
    (addOrReplaceChannelTimeout style buffer message now disableUserMessages).1
  clear : Allowed (EndsClears style message now) (EarlierClear message) message buffer
    (addOrReplaceChannelClear style buffer message now)
  burst : style ≠ DontStack → ∀ first events, IsTimeout first → Burst first events → ∃ before last,
    events.foldl (addTimeout style disableUserMessages) (buffer ++ [first]) = before ++ [last] ∧
    before.length = buffer.length ∧ last.timeoutUser = first.timeoutUser ∧
    last.count = first.count + UInt32.ofNat events.length
  timeout_dontStack : style = DontStack →
    ¬Combines message (addOrReplaceChannelTimeout style buffer message now disableUserMessages).1
  clear_dontStack : style = DontStack → ¬Combines message (addOrReplaceChannelClear style buffer message now)

theorem stacks_iff (style : TimeoutStackStyle) (buffer : List ModerationMessage) (message : ModerationMessage)
    (now : Int) (disableUserMessages : Bool) : Stacks style buffer message now disableUserMessages ↔
      (style = DontStack → ∀ before s after,
        LastWanted (EndsTimeouts style message now) (EarlierTimeout message) 20 buffer before s after →
          ¬SameSource message s) := by
  constructor
  · rintro h rfl before s after hLast hSame
    exact h.timeout_dontStack rfl (combines_timeout_iff.mpr ⟨before, s, after, hLast, hSame⟩)
  · intro h
    refine ⟨allowed_timeout, allowed_clear, fun _ first events hFirst hBurst => exists_of_burst hFirst hBurst, ?_, ?_⟩
    · rintro rfl hCombines
      obtain ⟨before, s, after, hLast, hSame⟩ := combines_timeout_iff.mp hCombines
      exact h rfl before s after hLast hSame
    · rintro rfl
      rw [clear_of_dontStack]
      exact id

def exampleTimeout : ModerationMessage :=
  { flags := {.System, .Timeout, .ModerationAction}, timeoutUser := .lit "forsen", serverReceivedTime := 1000 }

theorem not_stacks_dontStack : ¬∀ style buffer message now, Stacks style buffer message now true := by
  intro hAll
  have hStacks := (hAll DontStack [exampleTimeout] exampleTimeout 2000).timeout_dontStack rfl
  refine hStacks (combines_timeout_iff.mpr ⟨[], exampleTimeout, [], ?_, rfl⟩)
  refine ⟨rfl, by decide, by decide, by rintro _ ⟨⟩, ?_⟩
  exact List.forall_mem_singleton.mpr (by decide)

end ChannelHelpers

end Chatterino
