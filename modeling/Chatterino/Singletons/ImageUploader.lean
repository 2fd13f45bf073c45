import Chatterino.Lib.Template
import Chatterino.Qt.QString
import Mathlib.Data.List.TakeWhile

/-! # The link to an uploaded image

The link is a pattern of the settings with placeholders. Each names a path in the response of the server,
and the value at this path is put in its place. The response is searched again with every value in it.
-/

namespace Chatterino.ImageUploader

open Lib QString

inductive ResponseValue (F : Type) where
  | undefined
  | null
  | bool (value : Bool)
  | double (value : F)
  | string (value : QString)
  | array (items : List (ResponseValue F))
  | object (members : List (QString × ResponseValue F))

variable {F : Type}

namespace ResponseValue

def toString : ResponseValue F → QString
  | string value => value
  | _ => []

end ResponseValue

def memberOf (members : List (QString × ResponseValue F)) (key : QString) : ResponseValue F :=
  ((members.find? fun member => member.1 = key).map Prod.snd).getD .undefined

def itemAt (items : List (ResponseValue F)) (idx : Int) : ResponseValue F :=
  if idx < 0 then .undefined else items[idx.toNat]?.getD .undefined

/-- The keys are followed until a value has no parts. A key of an array that is no number is passed over. -/
def valueAt : ResponseValue F → List QString → ResponseValue F
  | responseJson, [] => responseJson
  | .object members, key :: keys => valueAt (memberOf members key) keys
  | .array items, key :: keys =>
    match key.toLongLong with
    | some idx => valueAt (itemAt items idx) keys
    | none => valueAt (.array items) keys
  | responseJson, _ :: _ => responseJson

def getJSONValue (responseJson : ResponseValue F) (jsonPattern : QString) : QString :=
  (valueAt responseJson (jsonPattern.splitOn 0x2E)).toString

def isValidUtf16 : QString → Bool
  | [] => true
  | [c] => !isHighSurrogate c && !isLowSurrogate c
  | c :: d :: text =>
    if isHighSurrogate c then isLowSurrogate d && isValidUtf16 text
    else !isLowSurrogate c && isValidUtf16 (d :: text)

section

-- the line ends that `.` does not match
variable (isNewline : QChar → Bool)

/-- The length of what `{(.+)}`, matching as little as it can, matches at the start of a text. -/
def matchLength : QString → Option Nat
  | brace :: first :: rest =>
    let more := rest.takeWhile fun c => c ≠ 0x7D ∧ isNewline c = false
    if brace = 0x7B ∧ isNewline first = false ∧ rest[more.length]? = some 0x7D then some (more.length + 3) else none
  | _ => none

theorem eq_of_matchLength {text : QString} {n : Nat} (h : matchLength isNewline text = some n) :
    ∃ first more after, text = 0x7B :: first :: (more ++ 0x7D :: after) ∧ n = more.length + 3 ∧
      isNewline first = false ∧ ∀ c ∈ more, c ≠ 0x7D ∧ isNewline c = false := by
  unfold matchLength at h
  split at h
  · rename_i brace first rest
    simp only at h
    split at h
    · rename_i hMatch
      obtain ⟨rfl, hFirst, hClosing⟩ := hMatch
      obtain ⟨hBelow, hGet⟩ := List.getElem?_eq_some_iff.mp hClosing
      refine ⟨first, rest.takeWhile fun c => c ≠ 0x7D ∧ isNewline c = false,
        rest.drop ((rest.takeWhile fun c => c ≠ 0x7D ∧ isNewline c = false).length + 1), ?_,
        (Option.some.inj h).symm, hFirst, fun c hc => by simpa using List.mem_takeWhile_imp hc⟩
      have hRest : rest.drop (rest.takeWhile fun c => c ≠ 0x7D ∧ isNewline c = false).length =
          0x7D :: rest.drop ((rest.takeWhile fun c => c ≠ 0x7D ∧ isNewline c = false).length + 1) := by
        rw [List.drop_eq_getElem_cons hBelow, hGet]
      rw [← hRest, List.prefix_iff_eq_append.mp (List.takeWhile_prefix _)]
    · cases h
  · cases h

theorem matchLength_eq {first : QChar} {more after : QString} (hFirst : isNewline first = false)
    (hMore : ∀ c ∈ more, c ≠ 0x7D ∧ isNewline c = false) :
    matchLength isNewline (0x7B :: first :: (more ++ 0x7D :: after)) = some (more.length + 3) := by
  have hTake : (more ++ 0x7D :: after).takeWhile (fun c => c ≠ 0x7D ∧ isNewline c = false) = more := by
    rw [List.takeWhile_append_of_pos fun c hc => decide_eq_true (hMore c hc), List.takeWhile_cons_of_neg (by simp),
      List.append_nil]
  unfold matchLength
  have hClosing : (more ++ 0x7D :: after)[more.length]? = some 0x7D := by
    rw [List.getElem?_append_right (Nat.le_refl _), Nat.sub_self]
    rfl
  simp only [hTake]
  exact if_pos ⟨trivial, hFirst, hClosing⟩

def placeholderMatcher : Matcher QChar where
  length := matchLength isNewline
  pos h := by
    obtain ⟨-, more, -, -, rfl, -⟩ := eq_of_matchLength isNewline h
    exact Nat.succ_pos _
  le h := by
    obtain ⟨first, more, after, rfl, rfl, -⟩ := eq_of_matchLength isNewline h
    simp only [List.length_cons, List.length_append]
    omega
  stable h hPrefix := by
    obtain ⟨first, more, after, rfl, rfl, hFirst, hMore⟩ := eq_of_matchLength isNewline h
    have hTake : (0x7B :: first :: (more ++ 0x7D :: after)).take (more.length + 3) =
        0x7B :: first :: (more ++ [0x7D]) := by
      rw [List.take_succ_cons, List.take_succ_cons, List.take_length_add_append]
      rfl
    rw [hTake] at hPrefix
    obtain ⟨rest, rfl⟩ := hPrefix
    rw [List.cons_append, List.cons_append, List.append_assoc]
    exact matchLength_eq isNewline hFirst hMore

/-- What the regular expression captures first in a text. A text that is not valid UTF-16 is not searched. -/
def regExpMatch (pattern : QString) : Option QString := (placeholderMatcher isNewline).find isValidUtf16 pattern

def capturedView (captured : QString) : QString := (captured.drop 1).dropLast

/-- Every occurrence of what is captured is replaced, and the pattern is searched again. -/
def getLinkFromResponse (jsonRoot : ResponseValue F) : Nat → QString → Option QString
  | 0, _ => none
  | fuel + 1, pattern =>
    match regExpMatch isNewline pattern with
    | none => some pattern
    | some captured =>
      getLinkFromResponse jsonRoot fuel
        (replaceFrom id captured (getJSONValue jsonRoot (capturedView captured)) 0 pattern)

abbrev Located := QChar × Option Nat

def located (pattern : QString) : List Located := pattern.zipIdx.map fun c => (c.1, some c.2)

def ofResponse (text : QString) : List Located := text.map fun c => (c, none)

def patternParts (pattern : QString) : List (TemplatePart Located) :=
  (placeholderMatcher isNewline).parts Prod.fst (located pattern)

def substituted (jsonRoot : ResponseValue F) (pattern : QString) : QString :=
  ((placeholderMatcher isNewline).parts id pattern).flatMap
    (TemplatePart.fill id fun captured => getJSONValue jsonRoot (capturedView captured))

def locatedRun (jsonRoot : ResponseValue F) (fuel : Nat) (pattern : QString) :
    Option (List Located × List (List Located)) :=
  fillLoop (placeholderMatcher isNewline) isValidUtf16 Prod.fst
    (fun captured => ofResponse (getJSONValue jsonRoot (capturedView captured))) fuel (located pattern)

/-- The loop ends with the placeholders replaced, and on the way it replaces the placeholders of the pattern
and nothing else. -/
def ExtractsInOnePass (jsonRoot : ResponseValue F) (pattern : QString) : Prop :=
  ∃ fuel, getLinkFromResponse isNewline jsonRoot fuel pattern = some (substituted isNewline jsonRoot pattern) ∧
    ∃ result replaced, locatedRun isNewline jsonRoot fuel pattern = some (result, replaced) ∧
      ∀ stretch, stretch ∈ replaced ↔ .placeholder stretch ∈ patternParts isNewline pattern

variable {isNewline} {jsonRoot : ResponseValue F}

theorem map_located (pattern : QString) : (located pattern).map Prod.fst = pattern := by
  rw [located, List.map_map]
  exact List.zipIdx_map_fst 0 pattern

theorem nodup_located (pattern : QString) : (located pattern).Nodup := by
  refine List.Nodup.of_map Prod.snd ?_
  have hPlaces : (located pattern).map Prod.snd = (List.range pattern.length).map some := by
    rw [located, List.map_map, List.range_eq_range', ← List.zipIdx_map_snd 0 pattern, List.map_map]
    rfl
  rw [hPlaces]
  exact List.nodup_range.map (Option.some_injective _)

theorem not_mem_located {c : Located} {text pattern : QString} (h : c ∈ ofResponse text) : c ∉ located pattern := by
  obtain ⟨d, -, rfl⟩ := List.mem_map.mp h
  intro hMem
  obtain ⟨e, -, hEq⟩ := List.mem_map.mp hMem
  cases congrArg Prod.snd hEq

theorem valueOf_ofResponse (value : QString → QString) :
    valueOf Prod.fst (fun captured => ofResponse (value captured)) = value := by
  funext captured
  rw [valueOf, ofResponse, List.map_map]
  exact List.map_id _

theorem map_locatedRun (fuel : Nat) (pattern : QString) :
    (locatedRun isNewline jsonRoot fuel pattern).map (fun found => found.1.map Prod.fst) =
      getLinkFromResponse isNewline jsonRoot fuel pattern := by
  rw [locatedRun, map_fillLoop, map_located, valueOf_ofResponse]
  induction fuel generalizing pattern with
  | zero => rfl
  | succ fuel ih =>
    rw [fillLoop, getLinkFromResponse, regExpMatch, List.map_id]
    cases (placeholderMatcher isNewline).find isValidUtf16 pattern with
    | none => rfl
    | some captured =>
      rw [Option.map_map]
      exact ih _

theorem map_patternParts (pattern : QString) : (patternParts isNewline pattern).map (TemplatePart.map Prod.fst) =
    (placeholderMatcher isNewline).parts id pattern := by
  rw [patternParts, Matcher.map_parts, map_located]

theorem substituted_eq (pattern : QString) : substituted isNewline jsonRoot pattern =
    ((patternParts isNewline pattern).flatMap (TemplatePart.fill Prod.fst
      fun captured => ofResponse (getJSONValue jsonRoot (capturedView captured)))).map Prod.fst := by
  rw [map_fill, map_patternParts, valueOf_ofResponse, substituted]

variable (isNewline jsonRoot)

/-- A link is extracted in one pass exactly if each placeholder in turn is what is found next and is filled in in
place, and nothing is found once all are filled in. -/
theorem extractsInOnePass_iff (pattern : QString) :
    ExtractsInOnePass isNewline jsonRoot pattern ↔
      FillsInPlace (placeholderMatcher isNewline) isValidUtf16 id
        (fun captured => getJSONValue jsonRoot (capturedView captured))
        ((placeholderMatcher isNewline).parts id pattern) := by
  have hPlain := fillsInPlace_map (placeholderMatcher isNewline) isValidUtf16 Prod.fst
    (fun captured => ofResponse (getJSONValue jsonRoot (capturedView captured))) (patternParts isNewline pattern)
  rw [map_patternParts, valueOf_ofResponse] at hPlain
  rw [hPlain]
  constructor
  · rintro ⟨fuel, -, result, replaced, hRun, hReplaced⟩
    exact fillsInPlace_of_fillLoop (nodup_located pattern) (fun word c => not_mem_located) hRun hReplaced
  · intro h
    obtain ⟨fuel, replaced, hRun, hReplaced⟩ := exists_fillLoop_of_fillsInPlace h
    refine ⟨fuel, ?_, _, replaced, hRun, hReplaced⟩
    rw [← map_locatedRun, locatedRun, hRun, substituted_eq]
    rfl

theorem getLinkFromResponse_itself (fuel : Nat) :
    getLinkFromResponse (fun c => c == 0x0A) (.object [(lit "a", .string (lit "{a}"))] : ResponseValue Nat) fuel
      (lit "{a}") = none := by
  induction fuel with
  | zero => rfl
  | succ fuel ih =>
    have hMatch : regExpMatch (fun c => c == 0x0A) (lit "{a}") = some (lit "{a}") := by decide
    have hReplace : replaceFrom id (lit "{a}") (getJSONValue
        (.object [(lit "a", .string (lit "{a}"))] : ResponseValue Nat) (capturedView (lit "{a}"))) 0 (lit "{a}") =
        lit "{a}" := by
      decide
    rw [getLinkFromResponse, hMatch]
    simp only [hReplace]
    exact ih

theorem not_extractsInOnePass_itself : ¬ ExtractsInOnePass (fun c => c == 0x0A)
    (.object [(lit "a", .string (lit "{a}"))] : ResponseValue Nat) (lit "{a}") := by
  rintro ⟨fuel, hLink, -⟩
  rw [getLinkFromResponse_itself] at hLink
  cases hLink

end

end Chatterino.ImageUploader
