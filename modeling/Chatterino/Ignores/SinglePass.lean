import Chatterino.Ignores.IgnoreRun

/-! # Replacing in a single pass

A single pass replaces the successive matches of the original text. The loop searches the text it
changes, and goes on behind a match by the length of the replacement with its references
unexpanded.
-/

namespace Chatterino.Ignores

open Lib QString

variable (library : Library) (accessEmotes : Option (List (EmoteName × EmotePtr)))

/-- A match as seen from where the search began, and what is put in its place. -/
structure Cut where
  skipped : Nat
  length : Nat
  inserted : QString
  deriving DecidableEq, Repr

/-- The next match of a phrase. An empty pattern has none. -/
def nextCut (phrase : IgnorePhrase) (content : QString) (from_ : Nat) : Option Cut :=
  if phrase.pattern_ = [] then none
  else if phrase.isRegex_ then
    (library.firstMatch phrase.getRegex content from_).map fun m =>
      ⟨m.capturedStart - from_, m.capturedLength, regexReplacement library phrase content m⟩
  else
    (library.indexOf content phrase.pattern_ from_ phrase.isCaseSensitive_).map fun p =>
      ⟨p.val - from_, phrase.pattern_.length, phrase.replace_⟩

/-- The successive matches of the original text from `from_` on. -/
def cuts (phrase : IgnorePhrase) (content : QString) : Nat → Nat → List Cut
  | 0, _ => []
  | fuel + 1, from_ =>
    match nextCut library phrase content from_ with
    | none => []
    | some cut => cut :: cuts phrase content fuel (from_ + cut.skipped + cut.length)

def allCuts (phrase : IgnorePhrase) (content : QString) : List Cut :=
  cuts library phrase content (content.length + 1) 0

def replaceCuts : List Cut → QString → QString
  | [], rest => rest
  | cut :: cuts, rest =>
    rest.take cut.skipped ++ (cut.inserted ++ replaceCuts cuts (rest.drop (cut.skipped + cut.length)))

/-- The edits of a single pass, the first of them behind `from_` in the text changed so far. -/
def passEdits (phrase : IgnorePhrase) : Nat → List Cut → List Edit
  | _, [] => []
  | from_, cut :: cuts =>
    .replace phrase (from_ + cut.skipped) cut.length cut.inserted ::
      passEdits phrase (from_ + cut.skipped + cut.inserted.length) cuts

/-- Both loops: search, replace, go on behind by the length of the unexpanded replacement. -/
def searchEdits (phrase : IgnorePhrase) : Nat → Nat → State → List Edit
  | 0, _, _ => [.tooMany]
  | left + 1, from_, s =>
    match nextCut library phrase s.content from_ with
    | none => []
    | some cut =>
      .replace phrase (from_ + cut.skipped) cut.length cut.inserted ::
        searchEdits phrase left (from_ + cut.skipped + phrase.replace_.length)
          (replaceMessageAt library accessEmotes phrase s (from_ + cut.skipped) cut.length cut.inserted)

section

variable {library} {phrase : IgnorePhrase}

theorem nextCut_bounds {content : QString} {from_ : Nat} {cut : Cut}
    (h : nextCut library phrase content from_ = some cut) :
    from_ + cut.skipped + cut.length ≤ content.length := by
  unfold nextCut at h
  split at h
  · cases h
  · split at h
    · obtain ⟨m, hMatch, rfl⟩ := Option.map_eq_some_iff.mp h
      have hBounds := library.firstMatch_bounds hMatch
      dsimp only
      omega
    · obtain ⟨p, -, rfl⟩ := Option.map_eq_some_iff.mp h
      have hBounds := p.property
      dsimp only
      omega

theorem regexEdits_eq (hPattern : phrase.pattern_ ≠ []) (hRegex : phrase.isRegex_ = true)
    (left from_ : Nat) (s : State) : regexEdits library accessEmotes phrase left from_ s =
      searchEdits library accessEmotes phrase left from_ s := by
  induction left generalizing from_ s with
  | zero => rfl
  | succ left ih =>
    rw [regexEdits, searchEdits, nextCut, if_neg hPattern, if_pos hRegex]
    cases hMatch : library.firstMatch phrase.getRegex s.content from_ with
    | none => rfl
    | some m =>
      have hStart : from_ + (m.capturedStart - from_) = m.capturedStart :=
        Nat.add_sub_cancel' (library.firstMatch_bounds hMatch).1
      dsimp only [Option.map_some]
      rw [hStart, ih]

theorem plainEdits_eq (hPattern : phrase.pattern_ ≠ []) (hRegex : phrase.isRegex_ = false)
    (left from_ : Nat) (s : State) (hFrom : from_ ≤ s.content.length)
    (hLeft : s.content.length < from_ + left) : plainEdits library accessEmotes phrase hPattern from_ s =
      searchEdits library accessEmotes phrase left from_ s := by
  induction left generalizing from_ s with
  | zero => omega
  | succ left ih =>
    rw [plainEdits, searchEdits, nextCut, if_neg hPattern, if_neg (by rw [hRegex]; decide)]
    cases library.indexOf s.content phrase.pattern_ from_ phrase.isCaseSensitive_ with
    | none => rfl
    | some p =>
      have hBounds := p.property
      have hLength := List.length_pos_iff.mpr hPattern
      have hStart : from_ + (p.val - from_) = p.val := Nat.add_sub_cancel' hBounds.1
      have hContent := length_splice (r := phrase.replace_) hBounds.2
      dsimp only [Option.map_some]
      rw [hStart, ih]
      · rw [content_replaceMessageAt]
        omega
      · rw [content_replaceMessageAt]
        omega

end

def Edit.searchedFrom : Edit → Option Nat
  | .replace phrase from_ _ _ => some (from_ + phrase.replace_.length)
  | .tooMany => none

def Edit.insertedEnd : Edit → Option Nat
  | .replace _ from_ _ replacement => some (from_ + replacement.length)
  | .tooMany => none

/-- The call replaces the successive matches of the original text, and goes on right behind each
text it inserted. -/
structure SinglePass (phrase : IgnorePhrase) (s : State) : Prop where
  content : (processIgnorePhrases library accessEmotes [phrase] s).content =
    replaceCuts (allCuts library phrase s.content) s.content
  edits : edits library accessEmotes [phrase] s =
    passEdits phrase 0 (allCuts library phrase s.content)
  resumes : ∀ e ∈ Ignores.edits library accessEmotes [phrase] s, e.searchedFrom = e.insertedEnd

/-- Behind every match the changed text and the original have the same next match: the search does
not look back at what was inserted. -/
def SearchesUnchanged (phrase : IgnorePhrase) (content : QString) : QString → Nat → List Cut → Prop
  | done, from_, [] =>
    nextCut library phrase (done ++ content.drop from_) done.length = nextCut library phrase content from_
  | done, from_, cut :: cuts =>
    nextCut library phrase (done ++ content.drop from_) done.length =
        nextCut library phrase content from_ ∧
      SearchesUnchanged phrase content
        (done ++ ((content.drop from_).take cut.skipped ++ cut.inserted))
        (from_ + cut.skipped + cut.length) cuts

instance decidableSearchesUnchanged (phrase : IgnorePhrase) (content : QString) : (cuts : List Cut) →
    (done : QString) → (from_ : Nat) → Decidable (SearchesUnchanged library phrase content done from_ cuts)
  | [], _, _ => inferInstanceAs (Decidable (_ = _))
  | _ :: cuts, _, _ =>
    have := decidableSearchesUnchanged phrase content cuts
    inferInstanceAs (Decidable (_ ∧ _))

section

variable {library} {phrase : IgnorePhrase}

theorem eq_of_replace_eq {cut cut' : Cut} {from_ : Nat}
    (h : Edit.replace phrase (from_ + cut.skipped) cut.length cut.inserted =
      .replace phrase (from_ + cut'.skipped) cut'.length cut'.inserted) : cut = cut' := by
  obtain ⟨skipped, length, inserted⟩ := cut
  obtain ⟨skipped', length', inserted'⟩ := cut'
  injection h with _ hSkipped hLength hInserted
  rw [Cut.mk.injEq]
  exact ⟨Nat.add_left_cancel hSkipped, hLength, hInserted⟩

variable (library phrase) in
theorem content_edit (cut : Cut) {content done : QString} {from_ : Nat} {s : State}
    (hContent : s.content = done ++ content.drop from_) :
    (replaceMessageAt library accessEmotes phrase s (done.length + cut.skipped) cut.length
        cut.inserted).content =
      (done ++ ((content.drop from_).take cut.skipped ++ cut.inserted)) ++
        content.drop (from_ + cut.skipped + cut.length) := by
  rw [content_replaceMessageAt, hContent, splice_append, List.drop_drop, Nat.add_assoc]

theorem length_done {content done : QString} {from_ : Nat} {cut : Cut}
    (h : nextCut library phrase content from_ = some cut) :
    (done ++ ((content.drop from_).take cut.skipped ++ cut.inserted)).length =
      done.length + cut.skipped + cut.inserted.length := by
  have hBounds := nextCut_bounds h
  rw [List.length_append, List.length_append, List.length_take, List.length_drop, Nat.min_eq_left,
    Nat.add_assoc]
  omega

theorem foldl_passEdits {content : QString} (fuel from_ : Nat) (done : QString) (s : State)
    (hContent : s.content = done ++ content.drop from_) :
    ((passEdits phrase done.length (cuts library phrase content fuel from_)).foldl
        (State.edit library accessEmotes) s).content =
      done ++ replaceCuts (cuts library phrase content fuel from_) (content.drop from_) := by
  induction fuel generalizing done from_ s with
  | zero => exact hContent
  | succ fuel ih =>
    rw [cuts]
    cases hNext : nextCut library phrase content from_ with
    | none => exact hContent
    | some cut =>
      have hEdited := content_edit library accessEmotes phrase cut hContent
      have hRest := ih _ _ _ hEdited
      rw [length_done hNext] at hRest
      dsimp only
      rw [passEdits, replaceCuts, List.foldl_cons, List.drop_drop, ← Nat.add_assoc, ← List.append_assoc,
        ← List.append_assoc, List.append_assoc done]
      exact hRest

theorem searchEdits_iff {content : QString} (fuel from_ left : Nat) (done : QString) (s : State)
    (hContent : s.content = done ++ content.drop from_) (hFrom : from_ ≤ content.length)
    (hFuel : content.length < from_ + fuel)
    (hLength : ∀ cut ∈ cuts library phrase content fuel from_, 0 < cut.length)
    (hLeft : (cuts library phrase content fuel from_).length < left) :
    (searchEdits library accessEmotes phrase left done.length s =
        passEdits phrase done.length (cuts library phrase content fuel from_) ∧
      ∀ e ∈ searchEdits library accessEmotes phrase left done.length s, e.searchedFrom = e.insertedEnd) ↔
    (∀ cut ∈ cuts library phrase content fuel from_, cut.inserted.length = phrase.replace_.length) ∧
      SearchesUnchanged library phrase content done from_ (cuts library phrase content fuel from_) := by
  obtain ⟨left, rfl⟩ := Nat.exists_eq_succ_of_ne_zero (Nat.ne_of_gt (Nat.zero_lt_of_lt hLeft))
  induction fuel generalizing left done from_ s with
  | zero => omega
  | succ fuel ih =>
    rw [searchEdits, cuts, hContent]
    rw [cuts] at hLength hLeft
    cases hNext : nextCut library phrase content from_ with
    | none =>
      dsimp only [passEdits, SearchesUnchanged]
      rw [hNext]
      cases nextCut library phrase (done ++ content.drop from_) done.length with
      | none => simp
      | some cut => simp
    | some cut =>
      rw [hNext] at hLength hLeft
      obtain ⟨left, rfl⟩ := Nat.exists_eq_succ_of_ne_zero (Nat.ne_of_gt (Nat.lt_of_succ_lt_succ hLeft |> Nat.zero_lt_of_lt))
      have hBounds := nextCut_bounds hNext
      have hPos := hLength cut List.mem_cons_self
      have hRest := ih (from_ + cut.skipped + cut.length) _ _
        (content_edit library accessEmotes phrase cut hContent) hBounds (by omega)
        (fun cut hCut => hLength cut (List.mem_cons_of_mem _ hCut)) left (Nat.lt_of_succ_lt_succ hLeft)
      rw [length_done hNext] at hRest
      dsimp only [passEdits, SearchesUnchanged]
      rw [hNext]
      constructor
      · rintro ⟨hEdits, hResumes⟩
        cases hFound : nextCut library phrase (done ++ content.drop from_) done.length with
        | none =>
          rw [hFound] at hEdits
          exact absurd hEdits.symm (List.cons_ne_nil _ _)
        | some found =>
          rw [hFound] at hEdits hResumes
          obtain ⟨hHead, hTail⟩ := List.cons_eq_cons.mp hEdits
          have hCut : found = cut := eq_of_replace_eq hHead
          subst hCut
          obtain ⟨hBehind, hResumes⟩ := List.forall_mem_cons.mp hResumes
          have hInserted : found.inserted.length = phrase.replace_.length :=
            (Nat.add_left_cancel (Option.some.inj hBehind)).symm
          rw [← hInserted] at hTail hResumes
          obtain ⟨hLengths, hSearches⟩ := hRest.mp ⟨hTail, hResumes⟩
          exact ⟨List.forall_mem_cons.mpr ⟨hInserted, hLengths⟩, rfl, hSearches⟩
      · rintro ⟨hLengths, hFound, hSearches⟩
        obtain ⟨hInserted, hLengths⟩ := List.forall_mem_cons.mp hLengths
        obtain ⟨hTail, hResumes⟩ := hRest.mpr ⟨hLengths, hSearches⟩
        rw [hFound]
        dsimp only
        rw [← hInserted]
        refine ⟨congrArg _ hTail, List.forall_mem_cons.mpr ⟨?_, hResumes⟩⟩
        exact congrArg (fun n => some (done.length + cut.skipped + n)) hInserted.symm

end

section

variable {library} {phrase : IgnorePhrase}

def SearchesForward (library : Library) : Prop :=
  ∀ content pattern caseSensitive, ∀ from_ ≤ content.length,
    (library.indexOf content pattern from_ caseSensitive).map (·.val) =
      (library.indexOf (content.drop from_) pattern 0 caseSensitive).map (from_ + ·.val)

theorem nextCut_plain (hForward : SearchesForward library) (hRegex : phrase.isRegex_ = false)
    {content : QString} {from_ : Nat} (hFrom : from_ ≤ content.length) :
    nextCut library phrase content from_ = nextCut library phrase (content.drop from_) 0 := by
  have hFirst := hForward content phrase.pattern_ phrase.isCaseSensitive_ from_ hFrom
  have hFirst := congrArg (Option.map fun p =>
    (⟨p - from_, phrase.pattern_.length, phrase.replace_⟩ : Cut)) hFirst
  rw [Option.map_map, Option.map_map] at hFirst
  have hOffset : (fun p => (⟨p - from_, phrase.pattern_.length, phrase.replace_⟩ : Cut)) ∘
      (fun p : { p : Nat // 0 ≤ p ∧ p + phrase.pattern_.length ≤ (content.drop from_).length } =>
        from_ + p.val) = fun p => ⟨p.val - 0, phrase.pattern_.length, phrase.replace_⟩ := by
    funext p
    dsimp only [Function.comp]
    rw [Nat.add_sub_cancel_left, Nat.sub_zero]
  rw [hOffset] at hFirst
  rw [nextCut, nextCut, hRegex]
  exact congrArg (ite _ none) hFirst

theorem searchesUnchanged_plain (hForward : SearchesForward library) (hRegex : phrase.isRegex_ = false)
    {content : QString} (fuel from_ : Nat) (hFrom : from_ ≤ content.length) (done : QString) :
    SearchesUnchanged library phrase content done from_ (cuts library phrase content fuel from_) := by
  have hSame : ∀ from_ ≤ content.length, ∀ done : QString,
      nextCut library phrase (done ++ content.drop from_) done.length =
        nextCut library phrase content from_ := by
    intro from_ hFrom done
    rw [nextCut_plain hForward hRegex hFrom, nextCut_plain hForward hRegex, List.drop_left]
    rw [List.length_append]
    exact Nat.le_add_right _ _
  induction fuel generalizing from_ done with
  | zero => exact hSame from_ hFrom done
  | succ fuel ih =>
    rw [cuts]
    cases hNext : nextCut library phrase content from_ with
    | none => exact hSame from_ hFrom done
    | some cut => exact ⟨hSame from_ hFrom done, ih _ (nextCut_bounds hNext) _⟩

theorem mem_cuts_plain (hRegex : phrase.isRegex_ = false) {content : QString} (fuel from_ : Nat) : ∀ cut ∈ cuts library phrase content fuel from_,
      0 < cut.length ∧ cut.inserted = phrase.replace_ := by
  induction fuel generalizing from_ with
  | zero => exact fun _ h => absurd h List.not_mem_nil
  | succ fuel ih =>
    rw [cuts]
    cases hNext : nextCut library phrase content from_ with
    | none => exact fun _ h => absurd h List.not_mem_nil
    | some cut =>
      refine List.forall_mem_cons.mpr ⟨?_, ih _⟩
      rw [nextCut, hRegex] at hNext
      split at hNext
      · cases hNext
      · rename_i hPattern
        obtain ⟨p, -, rfl⟩ := Option.map_eq_some_iff.mp hNext
        exact ⟨List.length_pos_iff.mpr hPattern, rfl⟩

theorem length_cuts_le {content : QString} (fuel from_ : Nat) :
    (cuts library phrase content fuel from_).length ≤ fuel := by
  induction fuel generalizing from_ with
  | zero => exact Nat.le_refl 0
  | succ fuel ih =>
    rw [cuts]
    cases nextCut library phrase content from_ with
    | none => exact Nat.zero_le _
    | some cut => exact Nat.succ_le_succ (ih _)

end

section

variable {phrase : IgnorePhrase} {s : State}

theorem exists_edits_eq (hBlock : phrase.isBlock_ = false)
    (hRegex : phrase.isRegex_ = true → library.isValid phrase.getRegex = true ∧
      (allCuts library phrase s.content).length < 128) :
    ∃ left, (allCuts library phrase s.content).length < left ∧
      edits library accessEmotes [phrase] s = searchEdits library accessEmotes phrase left 0 s := by
  have hMany : (allCuts library phrase s.content).length < s.content.length + 2 :=
    Nat.lt_succ_of_le (length_cuts_le _ _)
  by_cases hPattern : phrase.pattern_ = []
  · refine ⟨_, hMany, ?_⟩
    rw [searchEdits, nextCut, if_pos hPattern, edits, dif_pos hPattern, edits, ite_self]
  · cases hKind : phrase.isRegex_ with
    | false =>
      refine ⟨_, hMany, ?_⟩
      rw [edits, if_neg (by rw [hBlock]; decide), dif_neg hPattern, if_neg (by rw [hKind]; decide),
        edits, List.append_nil, plainEdits_eq accessEmotes hPattern hKind _ _ _ (Nat.zero_le _)]
      omega
    | true =>
      obtain ⟨hValid, hFew⟩ := hRegex hKind
      refine ⟨128, hFew, ?_⟩
      rw [edits, if_neg (by rw [hBlock]; decide), dif_neg hPattern, if_pos hKind, if_pos hValid,
        regexEdits_eq accessEmotes hPattern hKind]
      cases replaceRegex library accessEmotes phrase 128 0 s with
      | ok s' => exact List.append_nil _
      | error s' => exact List.append_nil _

/-- A replacing phrase is a single pass exactly if it is no regex, or every expanded replacement has
the length of the replacement text and no search looks back at what was inserted. -/
theorem singlePass_iff (hBlock : phrase.isBlock_ = false)
    (hForward : phrase.isRegex_ = false → SearchesForward library)
    (hRegex : phrase.isRegex_ = true → library.isValid phrase.getRegex = true ∧
      (∀ cut ∈ allCuts library phrase s.content, 0 < cut.length) ∧
      (allCuts library phrase s.content).length < 128) :
    SinglePass library accessEmotes phrase s ↔ (phrase.isRegex_ = true →
      (∀ cut ∈ allCuts library phrase s.content, cut.inserted.length = phrase.replace_.length) ∧
      SearchesUnchanged library phrase s.content [] 0 (allCuts library phrase s.content)) := by
  obtain ⟨left, hLeft, hEdits⟩ := exists_edits_eq library accessEmotes hBlock
    fun hKind => ⟨(hRegex hKind).1, (hRegex hKind).2.2⟩
  have hLength : ∀ cut ∈ allCuts library phrase s.content, 0 < cut.length := by
    cases hKind : phrase.isRegex_ with
    | false => exact fun cut hCut => (mem_cuts_plain hKind _ _ cut hCut).1
    | true => exact (hRegex hKind).2.1
  have hFuel : s.content.length < 0 + (s.content.length + 1) := by
    rw [Nat.zero_add]
    exact Nat.lt_succ_self _
  have hIff := searchEdits_iff accessEmotes (s.content.length + 1) 0 left [] s rfl (Nat.zero_le _)
    hFuel hLength hLeft
  have hPlain : phrase.isRegex_ = false →
      (∀ cut ∈ allCuts library phrase s.content, cut.inserted.length = phrase.replace_.length) ∧
      SearchesUnchanged library phrase s.content [] 0 (allCuts library phrase s.content) := by
    intro hKind
    refine ⟨fun cut hCut => ?_, searchesUnchanged_plain (hForward hKind) hKind _ _ (Nat.zero_le _) _⟩
    rw [(mem_cuts_plain hKind _ _ cut hCut).2]
  constructor
  · rintro ⟨-, hPass, hResumes⟩ -
    rw [hEdits] at hPass hResumes
    exact hIff.mp ⟨hPass, hResumes⟩
  · intro hCondition
    have hMet := hIff.mpr <| by
      cases hKind : phrase.isRegex_ with
      | false => exact hPlain hKind
      | true => exact hCondition hKind
    refine ⟨?_, hEdits.trans hMet.1, fun e he => hMet.2 e (hEdits ▸ he)⟩
    have hPass : searchEdits library accessEmotes phrase left 0 s =
        passEdits phrase 0 (allCuts library phrase s.content) := hMet.1
    rw [processIgnorePhrases_eq_foldl, hEdits, hPass]
    exact foldl_passEdits accessEmotes _ 0 [] s rfl

end

def groupWord (regex : QRegularExpression) : Option QString :=
  let word := (regex.pattern.drop 1).dropLast
  if regex.pattern = lit "(" ++ word ++ lit ")" ∧ word.all isLetter then some word else none

def groupLibrary : Library where
  indexOf content pattern from_ _ := firstPosition content pattern from_ fun _ => true
  isValid regex := (groupWord regex).isSome
  captureCount _ := 1
  firstMatch regex subject from_ := (groupWord regex).bind fun word =>
    (firstPosition subject word from_ fun _ => true).map fun p =>
      ⟨p.val, word.length, [some (p.val, word.length)]⟩
  firstMatch_bounds h := by
    obtain ⟨word, -, h⟩ := Option.bind_eq_some_iff.mp h
    obtain ⟨p, -, rfl⟩ := Option.map_eq_some_iff.mp h
    exact p.property
  digitValue := letterLibrary.digitValue
  partition := letterLibrary.partition
  partition_perm := letterLibrary.partition_perm

def groupPhrase (pattern replace : QString) : IgnorePhrase :=
  { examplePhrase pattern replace with isRegex_ := true }

theorem singlePass_ab : SinglePass groupLibrary none (groupPhrase (lit "(ab)") (lit "<\\1>"))
    ⟨lit "ab ab", []⟩ :=
  (singlePass_iff groupLibrary none rfl (fun h => absurd h (by decide))
    fun _ => ⟨by decide, by decide, by decide⟩).mpr fun _ => ⟨by decide, by decide⟩

theorem not_singlePass_aa :
    (processIgnorePhrases groupLibrary none [groupPhrase (lit "(a)") (lit "<\\1>")]
      ⟨lit "aa", []⟩).content = lit "<a>a" ∧
    replaceCuts (allCuts groupLibrary (groupPhrase (lit "(a)") (lit "<\\1>")) (lit "aa")) (lit "aa") =
      lit "<a><a>" ∧
    ¬SinglePass groupLibrary none (groupPhrase (lit "(a)") (lit "<\\1>")) ⟨lit "aa", []⟩ := by
  have hContent : (processIgnorePhrases groupLibrary none [groupPhrase (lit "(a)") (lit "<\\1>")]
      ⟨lit "aa", []⟩).content = lit "<a>a" := by decide
  have hCuts : replaceCuts (allCuts groupLibrary (groupPhrase (lit "(a)") (lit "<\\1>")) (lit "aa"))
      (lit "aa") = lit "<a><a>" := by decide
  refine ⟨hContent, hCuts, fun hPass => ?_⟩
  have hSame := hPass.content
  rw [hContent, hCuts] at hSame
  revert hSame
  decide

end Chatterino.Ignores
