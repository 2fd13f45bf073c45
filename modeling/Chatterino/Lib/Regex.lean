import Mathlib.Data.List.Basic

/-! # Backtracking regular expressions

The matches of a pattern are listed in the order in which a backtracking engine finds them: an
alternative before the next one, and a repetition greedily. A repetition is not entered again after
an empty round.
-/

namespace Lib

universe u

inductive Regex (α : Type u) where
  | empty
  | char (p : α → Bool)
  | seq (r t : Regex α)
  | alt (r t : Regex α)
  | star (r : Regex α)

namespace Regex

variable {α : Type u}

def opt (r : Regex α) : Regex α := alt r empty

def plus (r : Regex α) : Regex α := seq r (star r)

def word [DecidableEq α] : List α → Regex α
  | [] => empty
  | [c] => char (· = c)
  | c :: w => seq (char (· = c)) (word w)

def alts : List (Regex α) → Regex α
  | [] => char fun _ => false
  | [r] => r
  | r :: rs => alt r (alts rs)

/-- What is left after up to `n` rounds of a repetition. -/
def starEnds (f : List α → List (List α)) : Nat → List α → List (List α)
  | 0, s => [s]
  | n + 1, s => ((f s).filter fun t => t.length < s.length).flatMap (starEnds f n) ++ [s]

/-- What is left of the text after each match at its start. -/
def ends : Regex α → List α → List (List α)
  | empty, s => [s]
  | char _, [] => []
  | char p, c :: s => if p c then [s] else []
  | seq r t, s => (ends r s).flatMap (ends t)
  | alt r t, s => ends r s ++ ends t s
  | star r, s => starEnds (ends r) s.length s

def matchEnd (r : Regex α) (s : List α) : Option (List α) := (ends r s).head?

/-- The successive matches in the text without its first `skip` characters. -/
def globalMatchFrom (r : Regex α) : Nat → List α → List (List α)
  | _, [] => []
  | skip + 1, _ :: s => globalMatchFrom r skip s
  | 0, c :: s =>
    match matchEnd r (c :: s) with
    | none => globalMatchFrom r 0 s
    | some rest =>
      (c :: s).take (s.length + 1 - rest.length) :: globalMatchFrom r (s.length - rest.length) s

def globalMatch (r : Regex α) (s : List α) : List (List α) := globalMatchFrom r 0 s

/-- What is left when the matches are deleted, from the text without its first `skip` characters. -/
def remainderFrom (r : Regex α) : Nat → List α → List α
  | _, [] => []
  | skip + 1, _ :: s => remainderFrom r skip s
  | 0, c :: s =>
    match matchEnd r (c :: s) with
    | none => c :: remainderFrom r 0 s
    | some rest => remainderFrom r (s.length - rest.length) s

/-- The characters at which a match is looked for, each with the text behind it. -/
def triedFrom (r : Regex α) : Nat → List α → List (α × List α)
  | _, [] => []
  | skip + 1, _ :: s => triedFrom r skip s
  | 0, c :: s =>
    (c, s) :: match matchEnd r (c :: s) with
      | none => triedFrom r 0 s
      | some rest => triedFrom r (s.length - rest.length) s

@[simp] theorem word_nil [DecidableEq α] : word ([] : List α) = empty := rfl

@[simp] theorem word_singleton [DecidableEq α] (c : α) : word [c] = char (· = c) := rfl

@[simp] theorem word_cons_cons [DecidableEq α] (c d : α) (w : List α) :
    word (c :: d :: w) = seq (char (· = c)) (word (d :: w)) := rfl

@[simp] theorem alts_singleton (r : Regex α) : alts [r] = r := rfl

@[simp] theorem alts_cons_cons (r t : Regex α) (rs : List (Regex α)) :
    alts (r :: t :: rs) = alt r (alts (t :: rs)) := rfl

@[simp] theorem starEnds_zero (f : List α → List (List α)) (s : List α) : starEnds f 0 s = [s] := rfl

theorem starEnds_succ (f : List α → List (List α)) (n : Nat) (s : List α) :
    starEnds f (n + 1) s =
      ((f s).filter fun t => t.length < s.length).flatMap (starEnds f n) ++ [s] := rfl

@[simp] theorem ends_empty (s : List α) : ends empty s = [s] := by cases s <;> rfl

@[simp] theorem ends_char_nil (p : α → Bool) : ends (char p) [] = [] := rfl

@[simp] theorem ends_char_cons (p : α → Bool) (c : α) (s : List α) :
    ends (char p) (c :: s) = if p c then [s] else [] := rfl

theorem ends_seq (r t : Regex α) (s : List α) : ends (seq r t) s = (ends r s).flatMap (ends t) := by
  cases s <;> rfl

theorem ends_alt (r t : Regex α) (s : List α) : ends (alt r t) s = ends r s ++ ends t s := by
  cases s <;> rfl

theorem ends_star (r : Regex α) (s : List α) : ends (star r) s = starEnds (ends r) s.length s := by
  cases s <;> rfl

@[simp] theorem matchEnd_alt (r t : Regex α) (s : List α) :
    matchEnd (alt r t) s = (matchEnd r s).or (matchEnd t s) := by
  simp [matchEnd, ends_alt, List.head?_append]

theorem matchEnd_seq (r t : Regex α) (s : List α) :
    matchEnd (seq r t) s = (ends r s).findSome? (matchEnd t) := by
  rw [matchEnd, ends_seq, List.head?_flatMap]
  rfl

theorem matchEnd_seq_of_ends {r t : Regex α} {s x : List α} (h : ends r s = [x]) :
    matchEnd (seq r t) s = matchEnd t x := by
  rw [matchEnd_seq, h, List.findSome?_singleton]

theorem matchEnd_seq_of_ends_nil {r t : Regex α} {s : List α} (h : ends r s = []) :
    matchEnd (seq r t) s = none := by
  rw [matchEnd_seq, h]
  rfl

theorem findSome?_flatMap {β γ : Type u} (l : List α) (f : α → List β) (g : β → Option γ) :
    (l.flatMap f).findSome? g = l.findSome? fun x => (f x).findSome? g := by
  induction l with
  | nil => rfl
  | cons x l ih =>
    rw [List.flatMap_cons, List.findSome?_append, List.findSome?_cons, ih]
    cases (f x).findSome? g <;> rfl

theorem starEnds_findSome? {β : Type u} (f : List α → List (List α)) (g : List α → Option β) (n : Nat)
    (s : List α) : (starEnds f (n + 1) s).findSome? g =
      (((f s).filter fun t => t.length < s.length).findSome? fun t => (starEnds f n t).findSome? g).or
        (g s) := by
  rw [starEnds_succ, List.findSome?_append, findSome?_flatMap]
  simp

theorem head?_starEnds_of_stop {f : List α → List (List α)} {n : Nat} {s : List α} (h : f s = []) :
    (starEnds f n s).head? = some s := by
  cases n with
  | zero => rfl
  | succ n => simp [starEnds_succ, h]

theorem matchEnd_plus {r : Regex α} {s t : List α} (h : matchEnd r s = some t) (hStop : ends r t = []) :
    matchEnd (plus r) s = some t := by
  obtain ⟨rest, hEnds⟩ := List.head?_eq_some_iff.mp h
  have hStar : matchEnd (star r) t = some t := by
    rw [matchEnd, ends_star]
    exact head?_starEnds_of_stop hStop
  rw [plus, matchEnd_seq, hEnds, List.findSome?_cons, hStar]

theorem head?_starEnds_char {p : α → Bool} {w s : List α} {n : Nat} (hWord : ∀ c ∈ w, p c = true)
    (hStop : ∀ c ∈ s.head?, p c = false) (hFuel : w.length ≤ n) :
    (starEnds (ends (char p)) n (w ++ s)).head? = some s := by
  induction w generalizing n with
  | nil =>
    refine head?_starEnds_of_stop ?_
    cases s with
    | nil => rfl
    | cons c s => simp [hStop c rfl]
  | cons c w ih =>
    obtain ⟨n, rfl⟩ : ∃ k, n = k + 1 := ⟨n - 1, by simp only [List.length_cons] at hFuel; omega⟩
    have hTail : (starEnds (ends (char p)) n (w ++ s)).head? = some s :=
      ih (fun d hd => hWord d (List.mem_cons_of_mem c hd)) (by simpa using hFuel)
    simp [starEnds_succ, hWord c List.mem_cons_self, List.head?_append, hTail]

theorem matchEnd_plus_char {p : α → Bool} {w s : List α} (hWord : ∀ c ∈ w, p c = true)
    (hNonempty : w ≠ []) (hStop : ∀ c ∈ s.head?, p c = false) :
    matchEnd (plus (char p)) (w ++ s) = some s := by
  cases w with
  | nil => exact absurd rfl hNonempty
  | cons c w =>
    have hEnds : ends (char p) (c :: w ++ s) = [w ++ s] := by simp [hWord c List.mem_cons_self]
    rw [plus, matchEnd_seq_of_ends hEnds, matchEnd, ends_star]
    exact head?_starEnds_char (fun d hd => hWord d (List.mem_cons_of_mem c hd)) hStop (by simp)

inductive Matches : Regex α → List α → Prop
  | empty : Matches empty []
  | char {p c} : p c = true → Matches (char p) [c]
  | seq {r t v w} : Matches r v → Matches t w → Matches (seq r t) (v ++ w)
  | altLeft {r t w} : Matches r w → Matches (alt r t) w
  | altRight {r t w} : Matches t w → Matches (alt r t) w
  | starNil {r} : Matches (star r) []
  | starCons {r v w} : Matches r v → Matches (star r) w → Matches (star r) (v ++ w)

theorem matches_of_mem_starEnds {r : Regex α}
    (h : ∀ s, ∀ t ∈ ends r s, ∃ w, s = w ++ t ∧ Matches r w) (n : Nat) (s : List α) :
    ∀ t ∈ starEnds (ends r) n s, ∃ w, s = w ++ t ∧ Matches (star r) w := by
  induction n generalizing s with
  | zero =>
    intro t ht
    obtain rfl : t = s := by simpa using ht
    exact ⟨[], rfl, .starNil⟩
  | succ n ih =>
    intro t ht
    rcases List.mem_append.mp ht with ht | ht
    · obtain ⟨x, hx, ht⟩ := List.mem_flatMap.mp ht
      obtain ⟨v, hs, hv⟩ := h s x (List.mem_of_mem_filter hx)
      obtain ⟨w, rfl, hw⟩ := ih x t ht
      exact ⟨v ++ w, hs.trans (List.append_assoc v w t).symm, .starCons hv hw⟩
    · obtain rfl : t = s := by simpa using ht
      exact ⟨[], rfl, .starNil⟩

theorem matches_of_mem_ends (r : Regex α) (s : List α) :
    ∀ t ∈ ends r s, ∃ w, s = w ++ t ∧ Matches r w := by
  induction r generalizing s with
  | empty =>
    intro t ht
    obtain rfl : t = s := by simpa using ht
    exact ⟨[], rfl, .empty⟩
  | char p =>
    intro t ht
    cases s with
    | nil => simp at ht
    | cons c s =>
      rw [ends_char_cons] at ht
      split at ht
      · rename_i hp
        obtain rfl : t = s := by simpa using ht
        exact ⟨[c], rfl, .char hp⟩
      · cases ht
  | seq r t ihr iht =>
    intro x hx
    obtain ⟨y, hy, hx⟩ := List.mem_flatMap.mp hx
    obtain ⟨v, hs, hv⟩ := ihr s y hy
    obtain ⟨w, rfl, hw⟩ := iht y x hx
    exact ⟨v ++ w, hs.trans (List.append_assoc v w x).symm, .seq hv hw⟩
  | alt r t ihr iht =>
    intro x hx
    rcases List.mem_append.mp hx with hx | hx
    · obtain ⟨w, rfl, hw⟩ := ihr s x hx
      exact ⟨w, rfl, .altLeft hw⟩
    · obtain ⟨w, rfl, hw⟩ := iht s x hx
      exact ⟨w, rfl, .altRight hw⟩
  | star r ih => exact matches_of_mem_starEnds ih s.length s

theorem matches_of_matchEnd {r : Regex α} {s t : List α} (h : matchEnd r s = some t) :
    ∃ w, s = w ++ t ∧ Matches r w :=
  matches_of_mem_ends r s t (List.mem_of_mem_head? h)

theorem matches_char {p : α → Bool} {w : List α} : Matches (char p) w ↔ ∃ c, w = [c] ∧ p c = true := by
  constructor
  · rintro (_ | ⟨h⟩)
    exact ⟨_, rfl, h⟩
  · rintro ⟨c, rfl, h⟩
    exact .char h

theorem matches_empty {w : List α} : Matches empty w ↔ w = [] := by
  constructor
  · rintro (_ | _)
    rfl
  · rintro rfl
    exact .empty

theorem matches_alt {r t : Regex α} {w : List α} : Matches (alt r t) w ↔ Matches r w ∨ Matches t w := by
  constructor
  · rintro (_ | _ | _ | h | h)
    · exact .inl h
    · exact .inr h
  · rintro (h | h)
    · exact .altLeft h
    · exact .altRight h

theorem matches_seq {r t : Regex α} {w : List α} :
    Matches (seq r t) w ↔ ∃ u v, w = u ++ v ∧ Matches r u ∧ Matches t v := by
  constructor
  · rintro (_ | _ | ⟨hr, ht⟩)
    exact ⟨_, _, rfl, hr, ht⟩
  · rintro ⟨u, v, rfl, hr, ht⟩
    exact .seq hr ht

theorem matches_word [DecidableEq α] {w v : List α} : Matches (word w) v ↔ v = w := by
  induction w generalizing v with
  | nil => exact matches_empty
  | cons c w ih =>
    cases w with
    | nil => simp [word, matches_char]
    | cons d w =>
      change Matches (seq (char (· = c)) (word (d :: w))) v ↔ _
      rw [matches_seq]
      constructor
      · rintro ⟨u, t, rfl, hc, ht⟩
        obtain ⟨c', rfl, hEq⟩ := matches_char.mp hc
        rw [ih.mp ht, of_decide_eq_true hEq]
        rfl
      · rintro rfl
        exact ⟨[c], d :: w, rfl, matches_char.mpr ⟨c, rfl, by simp⟩, ih.mpr rfl⟩

theorem forall_of_matches_star {r : Regex α} {w : List α} {P : α → Prop}
    (hRound : ∀ v, Matches r v → ∀ c ∈ v, P c) (h : Matches (star r) w) : ∀ c ∈ w, P c := by
  generalize hStar : star r = t at h
  induction h with
  | starNil => exact nofun
  | starCons hHead hTail ihHead ihTail =>
    obtain rfl := Regex.star.inj hStar
    intro c hc
    rcases List.mem_append.mp hc with hc | hc
    · exact hRound _ hHead c hc
    · exact ihTail rfl c hc
  | _ => cases hStar

theorem forall_of_matches_plus {r : Regex α} {w : List α} {P : α → Prop}
    (hRound : ∀ v, Matches r v → ∀ c ∈ v, P c) (h : Matches (plus r) w) : ∀ c ∈ w, P c := by
  obtain ⟨u, v, rfl, hHead, hTail⟩ := matches_seq.mp h
  intro c hc
  rcases List.mem_append.mp hc with hc | hc
  · exact hRound u hHead c hc
  · exact forall_of_matches_star hRound hTail c hc

theorem ne_nil_of_matches_plus {r : Regex α} {w : List α} (hRound : ∀ v, Matches r v → v ≠ [])
    (h : Matches (plus r) w) : w ≠ [] := by
  obtain ⟨u, v, rfl, hHead, -⟩ := matches_seq.mp h
  exact List.append_ne_nil_of_left_ne_nil (hRound u hHead) v

theorem mem_starEnds {r : Regex α} (hRound : ∀ v t, Matches r v → t ∈ ends r (v ++ t)) {w : List α}
    (h : Matches (star r) w) (t : List α) {n : Nat} (hFuel : w.length ≤ n) : t ∈ starEnds (ends r) n (w ++ t) := by
  generalize hStar : star r = r' at h
  induction h generalizing n with
  | starNil =>
    cases n with
    | zero => exact List.mem_singleton_self t
    | succ n => exact List.mem_append_right _ (List.mem_singleton_self t)
  | @starCons _ v w hHead _ _ ihTail =>
    obtain rfl := Regex.star.inj hStar
    rw [List.length_append] at hFuel
    cases v with
    | nil => exact ihTail (by omega) rfl
    | cons c v =>
      rw [List.length_cons] at hFuel
      obtain ⟨n, rfl⟩ : ∃ k, n = k + 1 := ⟨n - 1, by omega⟩
      refine List.mem_append_left _ (List.mem_flatMap.mpr ⟨w ++ t, ?_, ihTail (by omega) rfl⟩)
      rw [List.append_assoc]
      refine List.mem_filter.mpr ⟨hRound _ _ hHead, decide_eq_true ?_⟩
      simp only [List.cons_append, List.length_cons, List.length_append]
      omega
  | _ => cases hStar

theorem mem_ends_of_matches {r : Regex α} {w : List α} (h : Matches r w) (t : List α) : t ∈ ends r (w ++ t) := by
  induction r generalizing w t with
  | empty =>
    rw [matches_empty.mp h]
    exact List.mem_singleton_self t
  | char p =>
    obtain ⟨c, rfl, hp⟩ := matches_char.mp h
    rw [List.singleton_append, ends_char_cons, if_pos hp]
    exact List.mem_singleton_self t
  | seq r r' ihr ihr' =>
    obtain ⟨u, v, rfl, hu, hv⟩ := matches_seq.mp h
    rw [List.append_assoc]
    exact List.mem_flatMap.mpr ⟨v ++ t, ihr hu _, ihr' hv t⟩
  | alt r r' ihr ihr' =>
    rcases matches_alt.mp h with h | h
    · exact List.mem_append_left _ (ihr h t)
    · exact List.mem_append_right _ (ihr' h t)
  | star r ih =>
    refine mem_starEnds (fun v t hv => ih hv t) h t ?_
    rw [List.length_append]
    omega

theorem exists_matchEnd_of_matches {r : Regex α} {w : List α} (h : Matches r w) (t : List α) :
    ∃ x, matchEnd r (w ++ t) = some x := by
  have hNonempty := List.ne_nil_of_mem (mem_ends_of_matches h t)
  exact ⟨_, List.head?_eq_some_head hNonempty⟩

theorem matches_star_char {p : α → Bool} {w : List α} (h : ∀ c ∈ w, p c = true) : Matches (star (char p)) w := by
  induction w with
  | nil => exact .starNil
  | cons c w ih =>
    rw [List.forall_mem_cons] at h
    exact .starCons (.char h.1) (ih h.2)

theorem matches_plus_char {p : α → Bool} {w : List α} :
    Matches (plus (char p)) w ↔ w ≠ [] ∧ ∀ c ∈ w, p c = true := by
  constructor
  · intro h
    refine ⟨ne_nil_of_matches_plus ?_ h, forall_of_matches_plus ?_ h⟩
    · intro v hv
      obtain ⟨c, rfl, -⟩ := matches_char.mp hv
      exact List.cons_ne_nil c []
    · intro v hv c hc
      obtain ⟨d, rfl, hp⟩ := matches_char.mp hv
      rwa [List.mem_singleton.mp hc]
  · rintro ⟨hNonempty, hAll⟩
    cases w with
    | nil => exact absurd rfl hNonempty
    | cons c w =>
      rw [List.forall_mem_cons] at hAll
      exact .seq (.char hAll.1) (matches_star_char hAll.2)

theorem globalMatchFrom_eq_drop (r : Regex α) (skip : Nat) (s : List α) :
    globalMatchFrom r skip s = globalMatch r (s.drop skip) := by
  induction s generalizing skip with
  | nil => cases skip <;> simp [globalMatch, globalMatchFrom]
  | cons c s ih =>
    cases skip with
    | zero => rfl
    | succ skip => exact ih skip

theorem mem_remainderFrom_iff {r : Regex α} {skip : Nat} {s : List α} {c : α} :
    c ∈ remainderFrom r skip s ↔ ∃ rest, (c, rest) ∈ triedFrom r skip s ∧ matchEnd r (c :: rest) = none := by
  induction s generalizing skip with
  | nil => cases skip <;> simp [remainderFrom, triedFrom]
  | cons d s ih =>
    cases skip with
    | succ skip => exact ih
    | zero =>
      rw [remainderFrom, triedFrom]
      cases h : matchEnd r (d :: s) with
      | none =>
        simp only [List.mem_cons, ih, Prod.mk.injEq]
        constructor
        · rintro (rfl | ⟨rest, hMem, hNone⟩)
          · exact ⟨s, .inl ⟨rfl, rfl⟩, h⟩
          · exact ⟨rest, .inr hMem, hNone⟩
        · rintro ⟨rest, ⟨rfl, rfl⟩ | hMem, hNone⟩
          · exact .inl rfl
          · exact .inr ⟨rest, hMem, hNone⟩
      | some t =>
        simp only [List.mem_cons, ih, Prod.mk.injEq]
        constructor
        · rintro ⟨rest, hMem, hNone⟩
          exact ⟨rest, .inr hMem, hNone⟩
        · rintro ⟨rest, ⟨rfl, rfl⟩ | hMem, hNone⟩
          · rw [h] at hNone
            cases hNone
          · exact ⟨rest, hMem, hNone⟩

theorem globalMatch_append {r : Regex α} {w s : List α} (hWord : w ≠ [])
    (h : matchEnd r (w ++ s) = some s) : globalMatch r (w ++ s) = w :: globalMatch r s := by
  cases w with
  | nil => exact absurd rfl hWord
  | cons c w =>
    rw [List.cons_append] at h
    rw [List.cons_append, globalMatch, globalMatchFrom, h]
    simp only [List.length_append]
    rw [globalMatchFrom_eq_drop, show w.length + s.length + 1 - s.length = w.length + 1 by omega,
      show w.length + s.length - s.length = w.length by omega]
    simp

theorem globalMatch_cons_of_none {r : Regex α} {c : α} {s : List α}
    (h : matchEnd r (c :: s) = none) : globalMatch r (c :: s) = globalMatch r s := by
  rw [globalMatch, globalMatchFrom, h]
  rfl

theorem globalMatch_induction {r : Regex α}
    (hProper : ∀ s t, matchEnd r s = some t → t.length < s.length)
    {motive : List α → List (List α) → Prop} (nil : motive [] [])
    (skip : ∀ c s, matchEnd r (c :: s) = none → motive s (globalMatch r s) →
      motive (c :: s) (globalMatch r s))
    (token : ∀ w s, w ≠ [] → matchEnd r (w ++ s) = some s → motive s (globalMatch r s) →
      motive (w ++ s) (w :: globalMatch r s)) (s : List α) : motive s (globalMatch r s) := by
  induction hLength : s.length using Nat.strongRecOn generalizing s with
  | ind n ih =>
    cases s with
    | nil => exact nil
    | cons c s =>
      cases h : matchEnd r (c :: s) with
      | none =>
        rw [globalMatch_cons_of_none h]
        exact skip c s h (ih s.length (by simp [← hLength]) s rfl)
      | some rest =>
        have hShort := hProper _ _ h
        obtain ⟨w, hSplit, -⟩ := matches_of_matchEnd h
        have hWord : w ≠ [] := by
          rintro rfl
          rw [hSplit] at hShort
          exact absurd hShort (by simp)
        rw [hSplit] at h ⊢
        rw [globalMatch_append hWord h]
        exact token w rest hWord h (ih rest.length (by omega) rest rfl)

theorem exists_of_mem_globalMatch {r : Regex α}
    (hProper : ∀ s t, matchEnd r s = some t → t.length < s.length) {w s : List α}
    (h : w ∈ globalMatch r s) :
    ∃ before after, s = before ++ (w ++ after) ∧ matchEnd r (w ++ after) = some after := by
  revert h
  refine globalMatch_induction hProper (motive := fun s matched => w ∈ matched → ∃ before after,
    s = before ++ (w ++ after) ∧ matchEnd r (w ++ after) = some after) nofun ?_ ?_ s
  · intro c s hNone ih h
    obtain ⟨before, after, rfl, hMatch⟩ := ih h
    exact ⟨c :: before, after, rfl, hMatch⟩
  · intro v s hWord hFirst ih h
    rcases List.mem_cons.mp h with rfl | h
    · exact ⟨[], s, rfl, hFirst⟩
    · obtain ⟨before, after, rfl, hMatch⟩ := ih h
      exact ⟨v ++ before, after, by simp, hMatch⟩

end Regex

end Lib
