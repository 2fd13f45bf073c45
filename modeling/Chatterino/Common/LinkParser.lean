import Chatterino.Qt.QString

/-! # Links in a text

A parsed link is a group of views over the text it was found in. The list of the top level domains
and the digits of all scripts are parameters.
-/

namespace Chatterino

structure QStringView (source : QString) where
  begin_ : Nat
  end_ : Nat
  begin_le : begin_ ≤ end_
  end_le : end_ ≤ source.length

namespace QStringView

variable {source : QString}

def ofString (source : QString) : QStringView source := ⟨0, source.length, Nat.zero_le _, le_rfl⟩

def toString (view : QStringView source) : QString := (source.take view.end_).drop view.begin_

def size (view : QStringView source) : Nat := view.end_ - view.begin_

/-- `mid(position)`. -/
def mid (view : QStringView source) (position : Nat) : QStringView source :=
  ⟨min (view.begin_ + position) view.end_, view.end_, Nat.min_le_right _ _, view.end_le⟩

/-- `mid(0, n)`. -/
def first (view : QStringView source) (n : Nat) : QStringView source :=
  ⟨view.begin_, min (view.begin_ + n) view.end_, Nat.le_min.mpr ⟨Nat.le_add_right _ _, view.begin_le⟩,
    (Nat.min_le_right _ _).trans view.end_le⟩

def chop (view : QStringView source) (n : Nat) : QStringView source := view.first (view.size - n)

end QStringView

namespace LinkParser

open QString

structure Tables where
  isValidTld : QString → Bool
  isDigit : QChar → Bool

def foldAscii (c : QChar) : QChar := if 0x41 ≤ c ∧ c ≤ 0x5A then c + 0x20 else c

def isIgnoredPrefix (c : QChar) : Bool := c ∈ lit "<*_~("

def isIgnoredSuffix (c : QChar) : Bool := c ∈ lit ">?!.,:*~)"

def isValidDomainChar (c : QChar) : Bool :=
  0x80 ≤ c || (0x30 ≤ c && c ≤ 0x39) || (0x41 ≤ c && c ≤ 0x5A) || (0x61 ≤ c && c ≤ 0x7A) ||
    c ∈ lit "_-."

def isValidIpv4From (sectionValue octetNumber sectionDigits : Nat) (lastWasDot : Bool) : QString → Bool
  | [] => octetNumber == 3 && !lastWasDot
  | current :: host =>
    if current = 0x2E then
      if lastWasDot ∨ octetNumber = 3 then false else isValidIpv4From 0 (octetNumber + 1) 0 true host
    else if 0x39 < current ∨ current < 0x30 then false
    else
      let sectionValue := sectionValue * 10 + (current.toNat - 0x30)
      let sectionDigits := sectionDigits + 1
      if 256 ≤ sectionValue ∨ 3 < sectionDigits then false
      else isValidIpv4From sectionValue octetNumber sectionDigits false host

def isValidIpv4 (host : QString) : Bool := isValidIpv4From 0 0 0 true host

def startsWithPortFrom (tables : Tables) : Nat → QString → Bool
  | _, [] => true
  | i, c :: string =>
    if 5 ≤ i then true
    else if 1 ≤ i ∧ c ∈ lit "/?#" then true
    else if tables.isDigit c then startsWithPortFrom tables (i + 1) string
    else false

def startsWithPort (tables : Tables) (string : QString) : Bool := startsWithPortFrom tables 0 string

variable {source : QString}

def strip (source' : QStringView source) : QStringView source :=
  let source' := source'.mid (source'.toString.takeWhile isIgnoredPrefix).length
  source'.chop (source'.toString.reverse.takeWhile isIgnoredSuffix).length

structure HostScan where
  lastWasDot : Bool := true
  lastDotPos : Int := -1
  nDots : Nat := 0

/-- The loop over the host. It stops before the port or the path, at the position it returns. -/
def extractHost (tables : Tables) : QString → Nat → HostScan → Option (Nat × HostScan)
  | [], i, scan => some (i, scan)
  | currentChar :: remaining, i, scan =>
    if currentChar = 0x2E ∧ scan.lastWasDot then none
    else
      let scan : HostScan :=
        if currentChar = 0x2E then ⟨true, i, scan.nDots + 1⟩ else { scan with lastWasDot := false }
      if currentChar = 0x3A then
        if startsWithPort tables remaining then some (i, scan) else none
      else if currentChar ∈ lit "/?#" then some (i, scan)
      else if isValidDomainChar currentChar then extractHost tables remaining (i + 1) scan
      else none

/-- The position after the last brace that closes an open one. -/
def findLastClose : QString → (it nestingLevel lastClose : Nat) → Nat
  | [], _, _, lastClose => lastClose
  | c :: rest, it, nestingLevel, lastClose =>
    if c = 0x28 then findLastClose rest (it + 1) (nestingLevel + 1) lastClose
    else if nestingLevel ≠ 0 ∧ c = 0x29 then
      findLastClose rest (it + 1) (nestingLevel - 1) (if nestingLevel = 1 then it + 1 else lastClose)
    else findLastClose rest (it + 1) nestingLevel lastClose

theorem findLastClose_le {rest : QString} {it nestingLevel lastClose bound : Nat}
    (hClose : lastClose ≤ bound) (hRest : it + rest.length ≤ bound) :
    findLastClose rest it nestingLevel lastClose ≤ bound := by
  induction rest generalizing it nestingLevel lastClose with
  | nil => exact hClose
  | cons c rest ih =>
    rw [List.length_cons] at hRest
    unfold findLastClose
    split_ifs
    · exact ih hClose (by omega)
    · exact ih (by omega) (by omega)
    · exact ih hClose (by omega)
    · exact ih hClose (by omega)

structure Parsed (source : QString) where
  protocol : Option (QStringView source)
  host : QStringView source
  rest : QStringView source
  link : QStringView source

def afterHttp (link : QStringView source) : QStringView source :=
  let withProto := link.mid 4
  if (withProto.first 1).toString.map foldAscii = lit "s" then withProto.mid 1 else withProto

def parseProtocol (link : QStringView source) : Option (QStringView source) × QStringView source :=
  if (link.first 4).toString.map foldAscii = lit "http" ∧ 8 ≤ link.size ∧
      ((afterHttp link).first 3).toString = lit "://" then
    let remaining := (afterHttp link).mid 3
    (some (link.first (remaining.begin_ - link.begin_)), remaining)
  else (none, link)

/-- The end of the link and of its rest once the braces that the rest opens are closed. -/
def closeBraces (link rest : QStringView source) : { e : Nat // e ≤ source.length } :=
  if link.end_ ≠ source.length ∧ rest.size ≠ 0 then
    ⟨findLastClose (source.drop rest.begin_) rest.begin_ 0 link.end_,
      findLastClose_le link.end_le <| by
        have hBegin := rest.begin_le.trans rest.end_le
        rw [List.length_drop]
        omega⟩
  else ⟨link.end_, link.end_le⟩

def extendTo (view : QStringView source) (lastClose : { e : Nat // e ≤ source.length }) :
    QStringView source :=
  ⟨view.begin_, max view.end_ lastClose.val, view.begin_le.trans (Nat.le_max_left _ _),
    Nat.max_le.mpr ⟨view.end_le, lastClose.property⟩⟩

def parse (tables : Tables) (source : QString) : Option (Parsed source) :=
  let link := strip (QStringView.ofString source)
  let remaining := (parseProtocol link).2
  match extractHost tables remaining.toString 0 {} with
  | none => none
  | some (i, scan) =>
    let host := remaining.first i
    let rest := remaining.mid i
    if scan.lastWasDot ∨ scan.lastDotPos ≤ 0 then none
    else if (scan.nDots = 3 ∧ isValidIpv4 host.toString) ∨
        tables.isValidTld (host.toString.drop (scan.lastDotPos.toNat + 1)) then
      let lastClose := closeBraces link rest
      some {
        protocol := (parseProtocol link).1
        host := host
        rest := extendTo rest lastClose
        link := extendTo link lastClose }
    else none

theorem toString_ne_nil_iff {view : QStringView source} :
    view.toString ≠ [] ↔ view.begin_ < view.end_ := by
  have hEnd := view.end_le
  rw [← List.length_pos_iff, QStringView.toString, List.length_drop, List.length_take,
    Nat.min_eq_left hEnd]
  omega

theorem le_begin_mid (view : QStringView source) (n : Nat) : view.begin_ ≤ (view.mid n).begin_ := by
  have hBegin := view.begin_le
  simp only [QStringView.mid]
  omega

theorem le_begin_afterHttp (link : QStringView source) : link.begin_ ≤ (afterHttp link).begin_ := by
  unfold afterHttp
  dsimp only
  split_ifs
  · exact (le_begin_mid _ _).trans (le_begin_mid _ _)
  · exact le_begin_mid _ _

theorem end_afterHttp (link : QStringView source) : (afterHttp link).end_ = link.end_ := by
  unfold afterHttp
  dsimp only
  split_ifs <;> rfl

theorem le_begin_parseProtocol (link : QStringView source) :
    link.begin_ ≤ (parseProtocol link).2.begin_ := by
  unfold parseProtocol
  split_ifs
  · exact (le_begin_afterHttp link).trans (le_begin_mid _ _)
  · exact le_rfl

theorem end_parseProtocol (link : QStringView source) : (parseProtocol link).2.end_ = link.end_ := by
  unfold parseProtocol
  split_ifs
  · exact end_afterHttp link
  · rfl

theorem link_ne_nil_of_parse {tables : Tables} {parsed : Parsed source}
    (h : parse tables source = some parsed) : parsed.link.toString ≠ [] := by
  unfold parse at h
  dsimp only at h
  generalize strip (QStringView.ofString source) = link at h
  split at h
  · cases h
  · rename_i i scan hHost
    have hRemaining : (parseProtocol link).2.toString ≠ [] := by
      intro hNil
      rw [hNil, extractHost] at hHost
      cases hHost
      simp at h
    have hLink : link.begin_ < link.end_ := by
      have hSize := toString_ne_nil_iff.mp hRemaining
      have hBegin := le_begin_parseProtocol link
      have hEnd := end_parseProtocol link
      omega
    split_ifs at h
    cases h
    exact toString_ne_nil_iff.mpr (hLink.trans_le (Nat.le_max_left _ _))

namespace Parsed

def before (parsed : Parsed source) : QString := source.take parsed.link.begin_

def suffix (parsed : Parsed source) : QString := source.drop parsed.link.end_

def hasPrefix (parsed : Parsed source) : Bool := parsed.link.begin_ ≠ 0

def hasSuffix (parsed : Parsed source) : Bool := parsed.link.end_ ≠ source.length

theorem before_append_link_append_suffix (parsed : Parsed source) :
    parsed.before ++ parsed.link.toString ++ parsed.suffix = source := by
  have hPrefix : parsed.before = (source.take parsed.link.end_).take parsed.link.begin_ := by
    rw [List.take_take, Nat.min_eq_left parsed.link.begin_le]
    rfl
  rw [hPrefix, QStringView.toString, List.take_append_drop, suffix, List.take_append_drop]

theorem hasPrefix_iff (parsed : Parsed source) : parsed.hasPrefix ↔ parsed.before ≠ [] := by
  have hEnd := parsed.link.begin_le.trans parsed.link.end_le
  rw [← List.length_pos_iff, before, List.length_take, Nat.min_eq_left hEnd, hasPrefix, decide_eq_true_iff,
    Nat.pos_iff_ne_zero]

theorem hasSuffix_iff (parsed : Parsed source) : parsed.hasSuffix ↔ parsed.suffix ≠ [] := by
  have hEnd := parsed.link.end_le
  rw [← List.length_pos_iff, suffix, List.length_drop, hasSuffix, decide_eq_true_iff]
  omega

end Parsed

end LinkParser

end Chatterino
