import Chatterino.Lib.Run
import Chatterino.Qt.QString
import Mathlib.Data.List.Count
import Mathlib.Data.List.Induction

/-! # Users by their id

An id that is asked for is cached and waits in a list. Requests take up to a hundred ids from the list, one request after
the other; the first one waits for a timer.
-/

namespace Chatterino.TwitchUsers

open Lib QString

structure TwitchUser where
  id : QString
  name : QString := []
  displayName : QString := []
  profilePictureUrl : QString := []

structure HelixUser where
  id : QString
  login : QString
  displayName : QString
  profileImageUrl : QString

def TwitchUser.update (self : TwitchUser) (user : HelixUser) : TwitchUser :=
  { self with name := user.login, displayName := user.displayName, profilePictureUrl := user.profileImageUrl }

structure TwitchUsersPrivate where
  /-- The users that were made; the cache refers to them by their position. -/
  users : List TwitchUser := []
  cache : List (QString × Nat) := []
  unresolved : List QString := []
  nextBatchTimerActive : Bool := false
  isResolving : Bool := false
  /-- The calls of `fetchUsers` that are not completed, and those that are. -/
  inFlight : List (List QString) := []
  completed : List (List QString) := []

inductive Event
  | resolveID (id : QString)
  | timeout
  | success (request : Nat) (users : List HelixUser)
  | failure (request : Nat)

namespace TwitchUsersPrivate

variable (self : TwitchUsersPrivate)

def emplace (id : QString) : Nat × TwitchUsersPrivate :=
  match self.cache.lookup id with
  | some user => (user, self)
  | none =>
    (self.users.length, { self with users := self.users ++ [{ id }], cache := (id, self.users.length) :: self.cache })

def makeUnresolved (id : QString) : Nat × TwitchUsersPrivate :=
  let (user, self) := self.emplace id
  if id = [] then (user, self)
  else
    let self := { self with unresolved := self.unresolved ++ [id] }
    (user, if ¬ self.isResolving ∧ ¬ self.nextBatchTimerActive then { self with nextBatchTimerActive := true } else self)

def resolveID (id : QString) : Nat × TwitchUsersPrivate :=
  match self.cache.lookup id with
  | some user => (user, self)
  | none => self.makeUnresolved id

def fetchUsers (ids : List QString) : TwitchUsersPrivate := { self with inFlight := self.inFlight ++ [ids] }

def makeNextRequest : TwitchUsersPrivate :=
  if self.unresolved = [] then self
  else if self.isResolving then self
  else
    let ids := self.unresolved.take (min self.unresolved.length 100)
    fetchUsers { self with isResolving := true, unresolved := self.unresolved.drop ids.length } ids

def updateUsers (users : List HelixUser) : TwitchUsersPrivate :=
  users.foldl (fun self user => match self.cache.lookup user.id with
    | none => self
    | some cached => { self with users := self.users.modify cached (·.update user) }) self

def complete (request : Nat) (handler : TwitchUsersPrivate → TwitchUsersPrivate) : TwitchUsersPrivate :=
  match self.inFlight[request]? with
  | none => self
  | some ids =>
    handler { self with inFlight := self.inFlight.eraseIdx request, completed := self.completed ++ [ids] }

def onSuccess (users : List HelixUser) : TwitchUsersPrivate :=
  makeNextRequest { self.updateUsers users with isResolving := false }

def onFailure : TwitchUsersPrivate := makeNextRequest { self with isResolving := false }

def step : Event → TwitchUsersPrivate
  | .resolveID id => (self.resolveID id).2
  | .timeout =>
    if self.nextBatchTimerActive then makeNextRequest { self with nextBatchTimerActive := false } else self
  | .success request users => self.complete request (·.onSuccess users)
  | .failure request => self.complete request onFailure

end TwitchUsersPrivate

def run (events : List Event) : TwitchUsersPrivate := events.foldl TwitchUsersPrivate.step {}

def asked (events : List Event) : List QString :=
  events.filterMap fun event => match event with
    | .resolveID id => some id
    | _ => none

namespace TwitchUsersPrivate

variable (self : TwitchUsersPrivate)

def occurrences (id : QString) : Nat :=
  self.unresolved.count id + self.inFlight.flatten.count id + self.completed.flatten.count id

/-- Each cached id but the empty one is in one place, and there is a request in flight while one is resolved. -/
structure Counted (state : TwitchUsersPrivate) : Prop where
  once : ∀ id, state.occurrences id = if id ≠ [] ∧ (state.cache.lookup id).isSome then 1 else 0
  atMost : ∀ ids ∈ state.inFlight ++ state.completed, ids.length ≤ 100
  single : state.inFlight.length = if state.isResolving then 1 else 0

/-- The ids that wait are taken up by the completed request or by the timer. -/
structure Consistent (state : TwitchUsersPrivate) : Prop extends state.Counted where
  waiting : state.unresolved ≠ [] → state.isResolving = true ∨ state.nextBatchTimerActive = true

theorem updateUsers_eq (users : List HelixUser) :
    ∃ updated, self.updateUsers users = { self with users := updated } := by
  induction users generalizing self with
  | nil => exact ⟨self.users, rfl⟩
  | cons user users ih =>
    rw [updateUsers, List.foldl_cons, ← updateUsers]
    cases hCached : self.cache.lookup user.id with
    | none => exact ih self
    | some cached => exact ih { self with users := self.users.modify cached (·.update user) }

theorem makeNextRequest_cache : self.makeNextRequest.cache = self.cache := by
  unfold makeNextRequest
  split_ifs <;> rfl

variable {self}

theorem Counted.makeNextRequest (h : self.Counted) : self.makeNextRequest.Consistent := by
  unfold TwitchUsersPrivate.makeNextRequest
  split_ifs with hEmpty hResolving
  · exact ⟨h, fun hNonempty => absurd hEmpty hNonempty⟩
  · exact ⟨h, fun _ => .inl hResolving⟩
  · have hNone : self.inFlight = [] := by
      apply List.eq_nil_of_length_eq_zero
      rw [h.single, if_neg hResolving]
    have hIds : (self.unresolved.take (min self.unresolved.length 100)).length ≤ 100 := by
      rw [List.length_take]
      omega
    refine ⟨⟨fun id => ?_, fun ids hMem => ?_, ?_⟩, fun _ => .inl rfl⟩
    · have hSplit := congrArg (List.count id) (List.take_append_drop
        (self.unresolved.take (min self.unresolved.length 100)).length self.unresolved)
      have hTake : self.unresolved.take (self.unresolved.take (min self.unresolved.length 100)).length =
          self.unresolved.take (min self.unresolved.length 100) := by
        rw [List.length_take, min_eq_left (min_le_left _ _)]
      rw [List.count_append, hTake] at hSplit
      refine Eq.trans ?_ (h.once id)
      simp only [occurrences, fetchUsers, hNone, List.nil_append, List.flatten_cons, List.flatten_nil, List.append_nil, List.count_nil]
      omega
    · simp only [fetchUsers, hNone, List.nil_append, List.singleton_append, List.mem_cons] at hMem
      rcases hMem with rfl | hMem
      · exact hIds
      · exact h.atMost ids (List.mem_append_right _ hMem)
    · simp only [fetchUsers, hNone, List.nil_append, List.length_singleton, if_true]

theorem Counted.complete (h : self.Counted) {request : Nat} {handler : TwitchUsersPrivate → TwitchUsersPrivate}
    (hConsistent : self.Consistent)
    (hHandler : ∀ answered : TwitchUsersPrivate, { answered with isResolving := false }.Counted → (handler answered).Consistent) :
    (self.complete request handler).Consistent := by
  unfold TwitchUsersPrivate.complete
  cases hRequest : self.inFlight[request]? with
  | none => exact hConsistent
  | some ids =>
    have hLt : request < self.inFlight.length := (List.getElem?_eq_some_iff.mp hRequest).1
    have hSingle := h.single
    split_ifs at hSingle with hResolving
    · obtain ⟨only, hOnly⟩ := List.length_eq_one_iff.mp hSingle
      obtain rfl : request = 0 := by omega
      rw [hOnly, List.getElem?_cons_zero, Option.some_inj] at hRequest
      subst hRequest
      apply hHandler
      refine ⟨fun id => ?_, fun ids hMem => ?_, ?_⟩
      · have hOnce := h.once id
        simp only [occurrences, hOnly, List.flatten_cons, List.flatten_nil, List.append_nil] at hOnce
        simp only [occurrences, hOnly, List.eraseIdx_zero, List.tail_cons, List.flatten_nil, List.count_nil,
          List.flatten_append, List.flatten_cons, List.append_nil, List.count_append]
        omega
      · simp only [hOnly, List.eraseIdx_zero, List.tail_cons, List.nil_append] at hMem
        apply h.atMost ids
        rw [hOnly]
        exact (List.perm_append_comm.mem_iff).mp hMem
      · simp only [hOnly, List.eraseIdx_zero, List.tail_cons, List.length_nil, Bool.false_eq_true, if_false]
    · omega

theorem Consistent.success (h : self.Consistent) (request : Nat) (users : List HelixUser) :
    (self.step (.success request users)).Consistent := by
  rw [step]
  refine h.toCounted.complete h fun answered hAnswered => ?_
  obtain ⟨updated, hUpdated⟩ := answered.updateUsers_eq users
  rw [onSuccess, hUpdated]
  exact Counted.makeNextRequest ⟨hAnswered.once, hAnswered.atMost, hAnswered.single⟩

theorem Consistent.failure (h : self.Consistent) (request : Nat) : (self.step (.failure request)).Consistent :=
  h.toCounted.complete h fun _ hAnswered => hAnswered.makeNextRequest

theorem Consistent.timeout (h : self.Consistent) : (self.step .timeout).Consistent := by
  rw [step]
  split_ifs
  · exact Counted.makeNextRequest ⟨h.once, h.atMost, h.single⟩
  · exact h

theorem resolveID_eq_of_none {id : QString} (hNone : self.cache.lookup id = none) :
    (self.resolveID id).1 = self.users.length ∧
      (self.resolveID id).2 = { self with
        users := self.users ++ [{ id }]
        cache := (id, self.users.length) :: self.cache
        unresolved := if id = [] then self.unresolved else self.unresolved ++ [id]
        nextBatchTimerActive := if id ≠ [] ∧ self.isResolving = false then true else self.nextBatchTimerActive } := by
  rw [resolveID, hNone]
  dsimp only
  rw [makeUnresolved, emplace, hNone]
  dsimp only
  by_cases hEmpty : id = []
  · simp only [hEmpty, if_true, ne_eq, not_true_eq_false, false_and, if_false, and_self]
  · cases self.isResolving <;> cases self.nextBatchTimerActive <;> simp [hEmpty]

theorem Consistent.resolveID (h : self.Consistent) (id : QString) : (self.step (.resolveID id)).Consistent := by
  rw [step]
  cases hCached : self.cache.lookup id with
  | some user =>
    rw [TwitchUsersPrivate.resolveID, hCached]
    exact h
  | none =>
    rw [(resolveID_eq_of_none hCached).2]
    refine ⟨⟨fun other => ?_, h.atMost, h.single⟩, ?_⟩
    · have hOnce := h.once other
      rw [occurrences] at hOnce
      simp only [occurrences, List.lookup_cons]
      by_cases hSame : other = id
      · subst hSame
        rw [hCached] at hOnce
        simp only [Option.isSome_none, Bool.false_eq_true, and_false, if_false] at hOnce
        by_cases hEmpty : other = []
        · simp only [hEmpty, ne_eq, not_true_eq_false, false_and, if_true, if_false]
          rw [← hEmpty]
          exact hOnce
        · simp only [hEmpty, ne_eq, not_false_eq_true, true_and, if_false, beq_self_eq_true, Option.isSome_some, if_true,
            List.count_append, List.count_singleton_self]
          omega
      · have hCount : (if id = [] then self.unresolved else self.unresolved ++ [id]).count other =
            self.unresolved.count other := by
          split_ifs
          · rfl
          · rw [List.count_append, List.count_singleton, beq_false_of_ne (Ne.symm hSame), if_neg Bool.false_ne_true,
              Nat.add_zero]
        simp only [beq_false_of_ne hSame, hCount]
        exact hOnce
    · intro hWaiting
      by_cases hEmpty : id = []
      · simp only [hEmpty, if_true, ne_eq, not_true_eq_false, false_and, if_false] at hWaiting ⊢
        exact h.waiting hWaiting
      · cases hResolving : self.isResolving with
        | true => exact .inl rfl
        | false => exact .inr (if_pos ⟨hEmpty, rfl⟩)

theorem Consistent.step (h : self.Consistent) (event : Event) : (self.step event).Consistent := by
  cases event with
  | resolveID id => exact h.resolveID id
  | timeout => exact h.timeout
  | success request users => exact h.success request users
  | failure request => exact h.failure request

variable (self)

theorem complete_cache (request : Nat) {handler : TwitchUsersPrivate → TwitchUsersPrivate}
    (hHandler : ∀ answered, (handler answered).cache = answered.cache) :
    (self.complete request handler).cache = self.cache := by
  unfold complete
  cases self.inFlight[request]? with
  | none => rfl
  | some ids => exact hHandler _

theorem step_cache (event : Event) :
    (self.step event).cache = self.cache ∨
      ∃ id, event = .resolveID id ∧ self.cache.lookup id = none ∧
        (self.step event).cache = (id, (self.resolveID id).1) :: self.cache := by
  cases event with
  | resolveID id =>
    rw [step]
    cases hCached : self.cache.lookup id with
    | some user => exact .inl (by rw [TwitchUsersPrivate.resolveID, hCached])
    | none =>
      refine .inr ⟨id, rfl, hCached, ?_⟩
      rw [(resolveID_eq_of_none hCached).1, (resolveID_eq_of_none hCached).2]
  | timeout =>
    refine .inl ?_
    rw [step]
    split_ifs
    · exact makeNextRequest_cache _
    · rfl
  | success request users =>
    refine .inl (self.complete_cache request fun answered => ?_)
    obtain ⟨updated, hUpdated⟩ := answered.updateUsers_eq users
    rw [onSuccess, makeNextRequest_cache, hUpdated]
  | failure request => exact .inl (self.complete_cache request fun answered => makeNextRequest_cache _)

theorem lookup_resolveID (id : QString) :
    (self.step (.resolveID id)).cache.lookup id = some (self.resolveID id).1 := by
  rw [step]
  cases hCached : self.cache.lookup id with
  | some user =>
    rw [TwitchUsersPrivate.resolveID, hCached]
    exact hCached
  | none => rw [(resolveID_eq_of_none hCached).1, (resolveID_eq_of_none hCached).2, List.lookup_cons_self]

variable {self}

theorem lookup_step {id : QString} {user : Nat} (h : self.cache.lookup id = some user) (event : Event) :
    (self.step event).cache.lookup id = some user := by
  rcases self.step_cache event with hSame | ⟨other, -, hNone, hCache⟩
  · rw [hSame, h]
  · have hOther : id ≠ other := by
      rintro rfl
      exact Option.some_ne_none user (h.symm.trans hNone)
    rw [hCache, List.lookup_cons, beq_false_of_ne hOther, h]

theorem lookup_run {id : QString} {user : Nat} (h : self.cache.lookup id = some user) (events : List Event) :
    (events.foldl TwitchUsersPrivate.step self).cache.lookup id = some user :=
  @foldl_invariant _ _ _ (fun state => state.cache.lookup id = some user) self events h fun _ event hCached => lookup_step hCached event

end TwitchUsersPrivate

open TwitchUsersPrivate

theorem consistent_run (events : List Event) : (run events).Consistent :=
  foldl_invariant events ⟨⟨fun id => by rw [if_neg fun h => Bool.false_ne_true h.2]; rfl, fun _ hMem => absurd hMem List.not_mem_nil, rfl⟩, fun h => absurd rfl h⟩
    fun _ event h => h.step event

theorem cached_iff_asked (events : List Event) (id : QString) :
    ((run events).cache.lookup id).isSome ↔ id ∈ asked events := by
  induction events using List.reverseRecOn with
  | nil => exact iff_of_false Bool.false_ne_true List.not_mem_nil
  | append_singleton events event ih =>
    have hRun : run (events ++ [event]) = (run events).step event := List.foldl_concat _ _ _ _
    have hAsked : id ∈ asked (events ++ [event]) ↔ ((run events).cache.lookup id).isSome ∨ event = .resolveID id := by
      rw [ih, asked, List.filterMap_append, List.mem_append, ← asked]
      refine or_congr_right ?_
      cases event <;> simp [eq_comm]
    rw [hRun, hAsked]
    rcases (run events).step_cache event with hSame | ⟨other, rfl, hNone, hCache⟩
    · rw [hSame]
      refine (or_iff_left_of_imp ?_).symm
      rintro rfl
      rw [← hSame, lookup_resolveID]
      rfl
    · rw [hCache, List.lookup_cons]
      by_cases hSame : id = other
      · simp only [hSame, beq_self_eq_true, Option.isSome_some, or_true]
      · simp only [beq_false_of_ne hSame, Event.resolveID.injEq, Ne.symm hSame, or_false]

structure ResolvesOnce (events : List Event) : Prop where
  /-- An id that was asked for waits, is in flight or was requested, and is so once. -/
  once : ∀ id ∈ asked events, id ≠ [] → (run events).occurrences id = 1
  atMost : ∀ ids ∈ (run events).inFlight ++ (run events).completed, ids.length ≤ 100
  single : (run events).inFlight.length ≤ 1
  waiting : (run events).unresolved ≠ [] → (run events).inFlight ≠ [] ∨ (run events).nextBatchTimerActive = true
  sameObject : ∀ before between id, before ++ .resolveID id :: between = events →
    ((run events).resolveID id).1 = ((run before).resolveID id).1

theorem resolvesOnce (events : List Event) : ResolvesOnce events where
  once id hAsked hNonempty := by
    rw [(consistent_run events).once id, if_pos ⟨hNonempty, (cached_iff_asked events id).mpr hAsked⟩]
  atMost := (consistent_run events).atMost
  single := by
    rw [(consistent_run events).single]
    split_ifs <;> omega
  waiting hWaiting := by
    refine ((consistent_run events).waiting hWaiting).imp_left fun hResolving hNone => ?_
    have hSingle := (consistent_run events).single
    rw [hNone, hResolving] at hSingle
    cases hSingle
  sameObject before between id hEvents := by
    have hCached : (run events).cache.lookup id = some ((run before).resolveID id).1 := by
      rw [← hEvents, run, List.foldl_append, List.foldl_cons, ← run]
      exact lookup_run ((run before).lookup_resolveID id) between
    rw [resolveID, hCached]

end Chatterino.TwitchUsers
