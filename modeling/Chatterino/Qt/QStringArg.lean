import Chatterino.Qt.QString

/-! # Place markers and their arguments

`QString::arg` replaces the place markers of the lowest number, wherever they stand: those of the
template and those that came in with earlier arguments.
-/

namespace Chatterino.QString

/-- A character of the text, or a place marker with its number and its text. -/
inductive Piece where
  | text (c : QChar)
  | marker (number : Nat) (source : QString)
deriving DecidableEq

namespace Piece

def source : Piece → QString
  | text c => [c]
  | marker _ source => source

def number? : Piece → Option Nat
  | text _ => none
  | marker n _ => some n

/-- The piece with the markers of number `k` replaced. -/
def fill (k : Nat) (a : QString) : Piece → QString
  | text c => [c]
  | marker n source => if n = k then a else source

end Piece

def markerDigits : QString → Option (Nat × Nat)
  | [] => none
  | c :: s => (digitValue c).map fun d =>
    match s.head?.bind digitValue with
    | some e => (10 * d + e, 2)
    | none => (d, 1)

def markerAt : QString → Option (Nat × Nat)
  | [] => none
  | c :: s =>
    if c = 0x4C then (markerDigits s).map fun (n, length) => (n, length + 1)
    else markerDigits (c :: s)

/-- The pieces of the text without its first `skip` characters. -/
def pieces : Nat → QString → List Piece
  | _, [] => []
  | skip + 1, _ :: s => pieces skip s
  | 0, c :: s =>
    if c = 0x25 then
      match markerAt s with
      | some (n, length) => .marker n (c :: s.take length) :: pieces length s
      | none => .text c :: pieces 0 s
    else .text c :: pieces 0 s

def markers (s : QString) : List Nat := (pieces 0 s).filterMap Piece.number?

/-- The text with its place markers of number `k` replaced. -/
def filled (k : Nat) (a s : QString) : QString := (pieces 0 s).flatMap (Piece.fill k a)

/-- `QString::arg`. Without a place marker the text stays as it is. -/
def arg (s a : QString) : QString :=
  match (markers s).min? with
  | none => s
  | some k => filled k a s

example : arg (arg (arg (lit "(%1 %2 %3)") (lit "\"%2\"")) (lit "==")) (lit "\"x\"") =
    lit "(\"==\" == \"x\")" := by decide

def StartsNoMarker (t : QString) : Prop := ∀ c ∈ t.head?, digitValue c = none ∧ c ≠ 0x4C

theorem markerDigits_append {t : QString} (h : StartsNoMarker t) (s : QString) :
    markerDigits (s ++ t) = markerDigits s := by
  have hHead : t.head?.bind digitValue = none := by
    cases t with
    | nil => rfl
    | cons c t => exact (h c rfl).1
  cases s with
  | nil =>
    cases t with
    | nil => rfl
    | cons c t => simp [markerDigits, (h c rfl).1]
  | cons c s =>
    cases s with
    | nil => simp [markerDigits, hHead]
    | cons d s => rfl

theorem markerAt_append {t : QString} (h : StartsNoMarker t) (s : QString) :
    markerAt (s ++ t) = markerAt s := by
  cases s with
  | nil =>
    cases t with
    | nil => rfl
    | cons c t =>
      have hNone : markerDigits (c :: t) = none := by simp [markerDigits, (h c rfl).1]
      simp [markerAt, (h c rfl).2, hNone]
  | cons c s =>
    rw [List.cons_append, markerAt, markerAt, markerDigits_append h, ← List.cons_append,
      markerDigits_append h]

theorem length_of_markerDigits {s : QString} {n length : Nat} (h : markerDigits s = some (n, length)) :
    0 < length ∧ length ≤ s.length := by
  cases s with
  | nil => cases h
  | cons c s =>
    simp only [markerDigits, Option.map_eq_some_iff] at h
    obtain ⟨d, -, h⟩ := h
    split at h
    · rename_i e hSecond
      obtain ⟨-, rfl⟩ := Prod.mk.inj h
      cases s with
      | nil => cases hSecond
      | cons d s => simp
    · obtain ⟨-, rfl⟩ := Prod.mk.inj h
      simp

theorem length_of_markerAt {s : QString} {n length : Nat} (h : markerAt s = some (n, length)) :
    0 < length ∧ length ≤ s.length := by
  cases s with
  | nil => cases h
  | cons c s =>
    rw [markerAt] at h
    split at h
    · obtain ⟨⟨n', length'⟩, hDigits, hEq⟩ := Option.map_eq_some_iff.mp h
      obtain ⟨-, rfl⟩ := Prod.mk.inj hEq
      have hLength := length_of_markerDigits hDigits
      simp only [List.length_cons]
      omega
    · exact length_of_markerDigits h

theorem pieces_append {t : QString} (h : StartsNoMarker t) {s : QString} {skip : Nat}
    (hSkip : skip ≤ s.length) : pieces skip (s ++ t) = pieces skip s ++ pieces 0 t := by
  induction s generalizing skip with
  | nil =>
    obtain rfl : skip = 0 := by simpa using hSkip
    rfl
  | cons c s ih =>
    cases skip with
    | succ skip => exact ih (by simpa using hSkip)
    | zero =>
      rw [List.cons_append, pieces, pieces, markerAt_append h]
      split
      · cases hMarker : markerAt s with
        | none => simp only [ih (Nat.zero_le _), List.cons_append]
        | some marker =>
          obtain ⟨n, length⟩ := marker
          have hLength := (length_of_markerAt hMarker).2
          simp only [ih hLength, List.take_append_of_le_length hLength, List.cons_append]
      · rw [ih (Nat.zero_le _), List.cons_append]

theorem markers_append {t : QString} (h : StartsNoMarker t) (s : QString) :
    markers (s ++ t) = markers s ++ markers t := by
  rw [markers, pieces_append h (Nat.zero_le _), List.filterMap_append]
  rfl

theorem filled_append {t : QString} (h : StartsNoMarker t) (k : Nat) (a s : QString) :
    filled k a (s ++ t) = filled k a s ++ filled k a t := by
  rw [filled, pieces_append h (Nat.zero_le _), List.flatMap_append]
  rfl

theorem pieces_append_of_noPercent {s : QString} (h : 0x25 ∉ s) (t : QString) :
    pieces 0 (s ++ t) = s.map Piece.text ++ pieces 0 t := by
  induction s with
  | nil => rfl
  | cons c s ih =>
    rw [List.mem_cons, not_or] at h
    rw [List.cons_append, pieces, if_neg (Ne.symm h.1), ih h.2]
    rfl

theorem markers_append_of_noPercent {s : QString} (h : 0x25 ∉ s) (t : QString) :
    markers (s ++ t) = markers t := by
  rw [markers, pieces_append_of_noPercent h, List.filterMap_append, List.filterMap_map]
  simp [Function.comp_def, Piece.number?, markers]

theorem markers_cons {c : QChar} (h : c ≠ 0x25) (t : QString) : markers (c :: t) = markers t :=
  markers_append_of_noPercent (s := [c]) (by simpa using Ne.symm h) t

theorem filled_append_of_noPercent {s : QString} (h : 0x25 ∉ s) (k : Nat) (a t : QString) :
    filled k a (s ++ t) = s ++ filled k a t := by
  have hText : (s.map Piece.text).flatMap (Piece.fill k a) = s := by
    rw [List.flatMap_map]
    exact List.flatMap_singleton' s
  rw [filled, pieces_append_of_noPercent h, List.flatMap_append, hText]
  rfl

theorem filled_cons {c : QChar} (h : c ≠ 0x25) (k : Nat) (a t : QString) :
    filled k a (c :: t) = c :: filled k a t :=
  filled_append_of_noPercent (s := [c]) (by simpa using Ne.symm h) k a t

theorem flatMap_source_pieces (skip : Nat) (s : QString) :
    (pieces skip s).flatMap Piece.source = s.drop skip := by
  induction s generalizing skip with
  | nil => simp [pieces]
  | cons c s ih =>
    cases skip with
    | succ skip => exact ih skip
    | zero =>
      rw [pieces]
      split
      · split
        · rename_i n length hMarker
          simp [ih, Piece.source]
        · simp [ih, Piece.source]
      · simp [ih, Piece.source]

theorem filled_of_notMem {k : Nat} {s : QString} (h : k ∉ markers s) (a : QString) : filled k a s = s := by
  have hSource : (pieces 0 s).flatMap (Piece.fill k a) = (pieces 0 s).flatMap Piece.source := by
    refine List.flatMap_congr fun piece hPiece => ?_
    cases piece with
    | text c => rfl
    | marker n source =>
      have hNumber : n ≠ k := by
        rintro rfl
        exact h (List.mem_filterMap.mpr ⟨_, hPiece, rfl⟩)
      simp [Piece.fill, Piece.source, hNumber]
  rw [filled, hSource, flatMap_source_pieces]
  rfl

def LosesPercent (s t : QString) : Prop :=
  ∃ a b c d, s = a ++ 0x25 :: b ∧ t = a ++ c :: d ∧ c ≠ 0x25 ∧ ∃ e ∈ b.head?, e ≠ 0x20

theorem LosesPercent.append {s t : QString} (h : LosesPercent s t) (before after after' : QString) :
    LosesPercent (before ++ s ++ after) (before ++ t ++ after') := by
  obtain ⟨a, b, c, d, rfl, rfl, hc, e, he, hSpace⟩ := h
  refine ⟨before ++ a, b ++ after, c, d ++ after', by simp, by simp, hc, e, ?_, hSpace⟩
  rw [List.head?_append, Option.mem_def.mp he]
  rfl

theorem LosesPercent.trans {s t u : QString} (h : LosesPercent s t) (h' : LosesPercent t u) :
    LosesPercent s u := by
  obtain ⟨a, b, c, d, rfl, rfl, hc, e, he, hSpace⟩ := h
  obtain ⟨a', b', c', d', hText, rfl, hc', e', he', hSpace'⟩ := h'
  rcases List.append_eq_append_iff.mp hText with ⟨m, rfl, hRest⟩ | ⟨m, rfl, hRest⟩
  · cases m with
    | nil => exact absurd (List.cons.inj hRest).1 hc
    | cons f m =>
      obtain ⟨rfl, rfl⟩ := List.cons.inj hRest
      exact ⟨a, b, c, m ++ c' :: d', rfl, by simp, hc, e, he, hSpace⟩
  · cases m with
    | nil => exact absurd (List.cons.inj hRest).1.symm hc
    | cons f m =>
      obtain ⟨rfl, rfl⟩ := List.cons.inj hRest
      refine ⟨a', m ++ 0x25 :: b, c', d', by simp, rfl, hc', ?_⟩
      cases m with
      | nil => exact ⟨0x25, rfl, by decide⟩
      | cons g m => exact ⟨g, rfl, by
          obtain rfl : g = e' := Option.some.inj he'
          exact hSpace'⟩

theorem source_of_mem_pieces {skip n : Nat} {s source : QString} (h : .marker n source ∈ pieces skip s) :
    ∃ e x, source = 0x25 :: e :: x ∧ e ≠ 0x20 := by
  induction s generalizing skip with
  | nil => simp [pieces] at h
  | cons c s ih =>
    cases skip with
    | succ skip => exact ih h
    | zero =>
      rw [pieces] at h
      split at h
      · rename_i hPercent
        split at h
        · rename_i n' length hMarker
          rcases List.mem_cons.mp h with hEq | h
          · obtain ⟨-, rfl⟩ := Piece.marker.inj hEq
            cases s with
            | nil => cases hMarker
            | cons e s =>
              obtain ⟨length, rfl⟩ : ∃ l, length = l + 1 :=
                ⟨length - 1, by have := (length_of_markerAt hMarker).1; omega⟩
              refine ⟨e, s.take length, by rw [hPercent]; rfl, ?_⟩
              rintro rfl
              cases hMarker
          · exact ih h
        · rcases List.mem_cons.mp h with hEq | h
          · cases hEq
          · exact ih h
      · rcases List.mem_cons.mp h with hEq | h
        · cases hEq
        · exact ih h

theorem losesPercent_filled {k : Nat} {s a : QString} (h : k ∈ markers s)
    (hHead : ∃ c ∈ a.head?, c ≠ 0x25) : LosesPercent s (filled k a s) := by
  obtain ⟨c, hc, hPercent⟩ := hHead
  obtain ⟨a, rfl⟩ := List.head?_eq_some_iff.mp hc
  obtain ⟨piece, hPiece, hNumber⟩ := List.mem_filterMap.mp h
  have hSplit : ∃ before source after, pieces 0 s = before ++ .marker k source :: after ∧
      ∀ piece ∈ before, piece.number? ≠ some k := by
    have hSome : ((pieces 0 s).find? fun piece => piece.number? = some k).isSome = true :=
      List.find?_isSome.mpr ⟨piece, hPiece, decide_eq_true hNumber⟩
    obtain ⟨found, hFound⟩ := Option.isSome_iff_exists.mp hSome
    obtain ⟨hFoundNumber, before, after, hPieces, hFirst⟩ := List.find?_eq_some_iff_append.mp hFound
    cases found with
    | text c => cases of_decide_eq_true hFoundNumber
    | marker n source =>
      obtain rfl : n = k := Option.some.inj (of_decide_eq_true hFoundNumber)
      exact ⟨before, source, after, hPieces, fun piece hPiece => by simpa using hFirst piece hPiece⟩
  obtain ⟨before, source, after, hPieces, hFirst⟩ := hSplit
  obtain ⟨e, x, rfl, hSpace⟩ := source_of_mem_pieces (hPieces ▸ by simp : Piece.marker k source ∈ pieces 0 s)
  have hBefore : before.flatMap (Piece.fill k (c :: a)) = before.flatMap Piece.source := by
    refine List.flatMap_congr fun piece hPiece => ?_
    cases piece with
    | text c => rfl
    | marker n source =>
      have hNot : n ≠ k := by
        rintro rfl
        exact hFirst _ hPiece rfl
      simp [Piece.fill, Piece.source, hNot]
  refine ⟨before.flatMap Piece.source, e :: x ++ after.flatMap Piece.source, c,
    a ++ after.flatMap (Piece.fill k (c :: a)), ?_, ?_, hPercent, e, rfl, hSpace⟩
  · have hSource := flatMap_source_pieces 0 s
    rw [hPieces] at hSource
    simpa [Piece.source] using hSource.symm
  · rw [filled, hPieces, List.flatMap_append, hBefore]
    simp [Piece.fill]

end Chatterino.QString
