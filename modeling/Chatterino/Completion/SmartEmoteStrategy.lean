import Chatterino.Lib.StdSort
import Chatterino.Qt.QString

/-! # Completing emotes

The emotes that contain a query, ordered by what the query lacks of them. Which characters are upper case, how
cases are folded and the sort are parameters.
-/

namespace Chatterino.Completion

open QString

inductive CaseSensitivity where
  | CaseInsensitive | CaseSensitive
deriving DecidableEq

structure EmoteItem where
  zeroWidth : Bool
  searchName : QString
deriving DecidableEq

structure CompletionEnv where
  isUpper : QChar → Bool
  foldCase : QString → QString
  sort : Lib.StdSort EmoteItem

variable (env : CompletionEnv)

/-- `QString::contains`. -/
def contains (name query : QString) : CaseSensitivity → Bool
  | .CaseSensitive => query <:+: name
  | .CaseInsensitive => env.foldCase query <:+: env.foldCase name

def nameKey (name : QString) : List Nat := (env.foldCase name).map UInt16.toNat

def costOfEmote (query emote : QString) (prioritizeUpper : Bool) : Int :=
  let score : Int :=
    if prioritizeUpper then (emote.countP fun c => !env.isUpper c : Nat)
    else ((List.zip query emote).countP fun c => env.isUpper c.1 != env.isUpper c.2 : Nat)
  let score := if score = 0 then -10 else score
  let diff : Int := (emote.length : Int) - query.length
  if 0 < diff then score + diff * 100 else score

def nameForCost (ignoreColonForCost ignoreTildeForCost : Bool) (searchName : QString) : QString :=
  let temp := if ignoreColonForCost && searchName.head? = some 0x3A then searchName.drop 1 else searchName
  if ignoreTildeForCost && temp.head? = some 0x7E then temp.drop 1 else temp

def comesBefore (query : QString) (prioritizeUpper ignoreColonForCost ignoreTildeForCost : Bool) (a b : EmoteItem) :
    Bool :=
  let tempA := nameForCost ignoreColonForCost ignoreTildeForCost a.searchName
  let tempB := nameForCost ignoreColonForCost ignoreTildeForCost b.searchName
  let costA := costOfEmote env query tempA prioritizeUpper
  let costB := costOfEmote env query tempB prioritizeUpper
  if costA = costB then nameKey env tempA < nameKey env tempB else costA < costB

/-- Updates the output to the sorted completions. If there is none in the case of a query with upper case
letters, all cases are searched. -/
def completeEmotes (items output : List EmoteItem) (query : QString) (ignoreColonForCost ignoreTildeForCost : Bool)
    (matchingFunction : EmoteItem → CaseSensitivity → Bool) : List EmoteItem :=
  let haveUpper := query.any env.isUpper
  let first := output ++ items.filter fun item =>
    matchingFunction item (if haveUpper then .CaseSensitive else .CaseInsensitive)
  if first.isEmpty then
    if !haveUpper then first
    else
      let second := first ++ items.filter fun item => matchingFunction item .CaseInsensitive
      if second.isEmpty then second
      else env.sort.sort (comesBefore env query true ignoreColonForCost ignoreTildeForCost) second
  else env.sort.sort (comesBefore env query false ignoreColonForCost ignoreTildeForCost) first

def startsWithColon (query : QString) : Bool := query.head? = some 0x3A

def withoutColon (query : QString) : QString := if startsWithColon query then query.drop 1 else query

def zeroWidthOnly (query : QString) : Bool := (withoutColon query).head? = some 0x7E

def normalizedQuery (query : QString) : QString :=
  if zeroWidthOnly query then (withoutColon query).drop 1 else withoutColon query

def filteredItems (items : List EmoteItem) (query : QString) : List EmoteItem :=
  if zeroWidthOnly query then items.filter EmoteItem.zeroWidth else items

def apply (items output : List EmoteItem) (query : QString) : List EmoteItem :=
  completeEmotes env (filteredItems items query) output (normalizedQuery query) (startsWithColon query)
    (zeroWidthOnly query) fun item => contains env item.searchName (normalizedQuery query)

def update (items : List EmoteItem) (query : QString) : List EmoteItem := apply env items [] query

def hasExactMatch (items : List EmoteItem) (query : QString) : Bool :=
  query.any env.isUpper && items.any fun item => contains env item.searchName query .CaseSensitive

/-- The emotes that contain the query. Cases matter if the query has upper case letters and is found with them. -/
def matching (items : List EmoteItem) (query : QString) : List EmoteItem :=
  items.filter fun item => contains env item.searchName query
    (if hasExactMatch env items query then .CaseSensitive else .CaseInsensitive)

/-- The order of the completions: by their costs, and by their names if these are the same. -/
def order (items : List EmoteItem) (query : QString) (ignoreColonForCost ignoreTildeForCost : Bool) :
    EmoteItem → EmoteItem → Bool :=
  comesBefore env query (query.any env.isUpper && !hasExactMatch env items query) ignoreColonForCost ignoreTildeForCost

structure Completed (items : List EmoteItem) (query : QString) (ignoreColonForCost ignoreTildeForCost : Bool)
    (output : List EmoteItem) : Prop where
  comparison : Lib.IsComparison (order env items query ignoreColonForCost ignoreTildeForCost)
  perm : output.Perm (matching env items query)
  sorted : output.Pairwise fun a b => order env items query ignoreColonForCost ignoreTildeForCost b a = false

theorem isComparison_comesBefore (query : QString) (prioritizeUpper ignoreColonForCost ignoreTildeForCost : Bool) :
    Lib.IsComparison (comesBefore env query prioritizeUpper ignoreColonForCost ignoreTildeForCost) := by
  apply Lib.isComparison_of_keys
    (fun item => costOfEmote env query (nameForCost ignoreColonForCost ignoreTildeForCost item.searchName) prioritizeUpper)
    (fun item => nameKey env (nameForCost ignoreColonForCost ignoreTildeForCost item.searchName))
  intro a b
  rw [comesBefore]
  split_ifs with hCost
  · rw [decide_eq_true_iff, hCost, and_iff_right rfl, or_iff_right (lt_irrefl _)]
  · rw [decide_eq_true_iff, or_iff_left fun hBoth => hCost hBoth.1]

theorem completeEmotes_eq (items : List EmoteItem) (query : QString) (ignoreColonForCost ignoreTildeForCost : Bool) :
    (completeEmotes env items [] query ignoreColonForCost ignoreTildeForCost fun item => contains env item.searchName query) =
      if (matching env items query).isEmpty then []
      else env.sort.sort (order env items query ignoreColonForCost ignoreTildeForCost) (matching env items query) := by
  have hEmpty (list : List EmoteItem) (h : list.isEmpty = true) : list = [] := List.isEmpty_iff.mp h
  rw [completeEmotes, order, matching, hasExactMatch]
  dsimp only
  rw [List.nil_append]
  cases query.any env.isUpper with
  | false =>
    simp only [Bool.false_and, Bool.false_eq_true, if_false, Bool.not_false, if_true]
    split_ifs with hNone
    · exact hEmpty _ hNone
    · rfl
  | true =>
    -- the search with cases finds an emote, or all cases are searched
    cases hExact : items.any fun item => contains env item.searchName query .CaseSensitive with
    | true =>
      have hSome : (items.filter fun item => contains env item.searchName query .CaseSensitive).isEmpty = false := by
        obtain ⟨item, hMem, hContains⟩ := List.any_eq_true.mp hExact
        exact List.isEmpty_eq_false_iff_exists_mem.mpr ⟨item, List.mem_filter.mpr ⟨hMem, hContains⟩⟩
      simp only [Bool.true_and, if_true, hSome, Bool.not_true, Bool.false_eq_true, if_false]
    | false =>
      have hNil : (items.filter fun item => contains env item.searchName query .CaseSensitive) = [] :=
        List.filter_eq_nil_iff.mpr (List.any_eq_false.mp hExact)
      simp only [Bool.true_and, if_true, hNil, List.isEmpty_nil, Bool.not_true, Bool.not_false, Bool.false_eq_true, if_false,
        List.nil_append]
      split_ifs with hNone
      · exact hEmpty _ hNone
      · rfl

theorem completed_completeEmotes (items : List EmoteItem) (query : QString) (ignoreColonForCost ignoreTildeForCost : Bool) :
    Completed env items query ignoreColonForCost ignoreTildeForCost (completeEmotes env items [] query ignoreColonForCost
      ignoreTildeForCost fun item => contains env item.searchName query) := by
  have hComparison := isComparison_comesBefore env query (query.any env.isUpper && !hasExactMatch env items query)
    ignoreColonForCost ignoreTildeForCost
  rw [completeEmotes_eq]
  split_ifs with hNone
  · rw [List.isEmpty_iff] at hNone
    exact ⟨hComparison, hNone ▸ List.Perm.nil, List.Pairwise.nil⟩
  · exact ⟨hComparison, env.sort.perm _ _ hComparison, env.sort.sorted _ _ hComparison⟩

end Chatterino.Completion
