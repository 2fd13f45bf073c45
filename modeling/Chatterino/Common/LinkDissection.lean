import Chatterino.Common.LinkParser
import Mathlib.Data.List.DropRight

/-! # Valid links

The parts of a link are read off the loops that find them: the labels of its host, the octets of an address and the
digits of a port.
-/

namespace Chatterino.LinkParser

open QString

def DOT : QChar := 0x2E

def COLON : QChar := 0x3A

def separators : QString := lit "/?#"

structure IsLabel (label : QString) : Prop where
  nonempty : label ≠ []
  valid : ∀ c ∈ label, isValidDomainChar c ∧ c ≠ DOT

def IsOctet (text : QString) : Prop := text ≠ [] ∧ text.length ≤ 3 ∧ ∃ n ≤ 255, digitsValue 0 text = some n

def dotted (labels : List QString) (last : QString) : QString := (labels.flatMap fun label => label ++ [DOT]) ++ last

def ValidHost (tables : Tables) (host : QString) : Prop :=
  ∃ labels last, labels ≠ [] ∧ (∀ label ∈ labels ++ [last], IsLabel label) ∧ host = dotted labels last ∧
    (tables.isValidTld last ∨ labels.length = 3 ∧ ∀ label ∈ labels ++ [last], IsOctet label)

def PortEnds (tables : Tables) (rest : QString) : Prop :=
  rest.head? = some COLON → ∃ digits tail, rest = COLON :: (digits ++ tail) ∧ 1 ≤ digits.length ∧ digits.length ≤ 5 ∧
    (∀ c ∈ digits, tables.isDigit c) ∧ ∀ c ∈ tail.head?, c ∈ separators

structure Dissects (tables : Tables) {source : QString} (parsed : Parsed source) : Prop where
  parts : (parsed.protocol.elim [] QStringView.toString) ++ (parsed.host.toString ++ parsed.rest.toString) =
    parsed.link.toString
  word : parsed.before ++ parsed.link.toString ++ parsed.suffix = source
  before : ∀ c ∈ parsed.before, isIgnoredPrefix c
  after : ∀ c ∈ parsed.suffix, isIgnoredSuffix c
  host : ValidHost tables parsed.host.toString
  port : PortEnds tables parsed.rest.toString

structure Tables.Real (tables : Tables) : Prop where
  noEmptyTld : tables.isValidTld [] = false
  noDigit : ∀ c ∈ lit "(/?#", tables.isDigit c = false

def NoOverlongPort (tables : Tables) (source : QString) : Prop :=
  ∀ host digits c tail, (parseProtocol (strip (QStringView.ofString source))).2.toString =
      host ++ COLON :: (digits ++ c :: tail) → ValidHost tables host → digits.length = 5 →
    (∀ d ∈ digits, tables.isDigit d) → c ∈ separators

def scanHost : QString → Nat → HostScan → Option HostScan
  | [], _, scan => some scan
  | c :: host, i, scan =>
    if c = 0x2E ∧ scan.lastWasDot then none
    else scanHost host (i + 1) (if c = 0x2E then ⟨true, i, scan.nDots + 1⟩ else { scan with lastWasDot := false })

def stopHost (tables : Tables) : QString → Nat → HostScan → Option (Nat × HostScan)
  | [], i, scan => some (i, scan)
  | c :: rest, i, scan =>
    if c = 0x3A then if startsWithPort tables rest then some (i, { scan with lastWasDot := false }) else none
    else if c ∈ lit "/?#" then some (i, { scan with lastWasDot := false })
    else none

theorem not_isValidDomainChar : ∀ c ∈ COLON :: separators, isValidDomainChar c = false := by decide

theorem extractHost_eq (tables : Tables) (text : QString) (i : Nat) (scan : HostScan) :
    extractHost tables text i scan = (scanHost (text.takeWhile isValidDomainChar) i scan).bind
      (stopHost tables (text.dropWhile isValidDomainChar) (i + (text.takeWhile isValidDomainChar).length)) := by
  induction text generalizing i scan with
  | nil => rfl
  | cons c text ih =>
    rw [extractHost]
    by_cases hValid : isValidDomainChar c
    · have hColon : c ≠ 0x3A := by
        rintro rfl
        exact absurd hValid (by decide)
      have hSeparator : c ∉ lit "/?#" := fun h =>
        absurd hValid (by rw [not_isValidDomainChar c (List.mem_cons_of_mem _ h)]; decide)
      have hNext : i + ((text.takeWhile isValidDomainChar).length + 1) =
          i + 1 + (text.takeWhile isValidDomainChar).length := by omega
      rw [List.takeWhile_cons_of_pos hValid, List.dropWhile_cons_of_pos hValid, scanHost, List.length_cons, hNext]
      rw [if_neg hColon, if_neg hSeparator, if_pos hValid]
      split
      · rfl
      · exact ih (i + 1) _
    · have hDot : c ≠ 0x2E := by
        rintro rfl
        exact hValid (by decide)
      rw [List.takeWhile_cons_of_neg hValid, List.dropWhile_cons_of_neg hValid]
      simp only [hDot, false_and, if_false, if_neg hValid]
      rfl

theorem scanHost_append {label : QString} (hLabel : ∀ c ∈ label, c ≠ DOT) (text : QString) (i : Nat)
    (scan : HostScan) :
    scanHost (label ++ text) i scan = scanHost text (i + label.length)
      (if label = [] then scan else { scan with lastWasDot := false }) := by
  induction label generalizing i scan with
  | nil => rfl
  | cons c label ih =>
    have hDot : c ≠ 0x2E := hLabel c List.mem_cons_self
    have hNext : i + (label.length + 1) = i + 1 + label.length := by omega
    rw [List.cons_append, scanHost, if_neg (fun h => hDot h.1), if_neg hDot,
      ih (fun c hc => hLabel c (List.mem_cons_of_mem _ hc)), List.length_cons, hNext, if_neg (List.cons_ne_nil _ _)]
    split <;> rfl

theorem dotted_cons (label : QString) (labels : List QString) (last : QString) :
    dotted (label :: labels) last = label ++ DOT :: dotted labels last := by
  simp [dotted]

theorem scanHost_dotted {labels : List QString} {last : QString}
    (hDots : ∀ label ∈ labels ++ [last], ∀ c ∈ label, c ≠ DOT) {i : Nat} {scan : HostScan}
    (hScan : scan.lastWasDot = true) :
    scanHost (dotted labels last) i scan = if ∀ label ∈ labels, label ≠ [] then
      some ⟨decide (last = []), if labels = [] then scan.lastDotPos else
        ((i + (labels.map fun label => label.length + 1).sum : Nat) : Int) - 1, scan.nDots + labels.length⟩
      else none := by
  induction labels generalizing i scan with
  | nil =>
    have hLast := scanHost_append (hDots last List.mem_cons_self) [] i scan
    rw [List.append_nil] at hLast
    rw [if_pos (fun label hMem => absurd hMem List.not_mem_nil), if_pos rfl]
    refine hLast.trans (congrArg some ?_)
    by_cases hNil : last = []
    · rw [if_pos hNil, decide_eq_true hNil, ← hScan]
      rfl
    · rw [if_neg hNil, decide_eq_false hNil]
      rfl
  | cons label labels ih =>
    have hLabels : ∀ l ∈ labels ++ [last], ∀ c ∈ l, c ≠ DOT := fun l hl => hDots l (List.mem_cons_of_mem _ hl)
    rw [dotted_cons, scanHost_append (hDots label List.mem_cons_self), scanHost, if_neg (List.cons_ne_nil label labels)]
    by_cases hEmpty : label = []
    · rw [if_pos hEmpty, if_pos ⟨rfl, hScan⟩, if_neg (fun h => h label List.mem_cons_self hEmpty)]
    · rw [if_neg hEmpty, if_neg (fun h => Bool.false_ne_true h.2), if_pos (by rfl), ih hLabels rfl]
      simp only [List.forall_mem_cons, ne_eq, hEmpty, not_false_eq_true, true_and]
      refine if_congr Iff.rfl (congrArg some ?_) rfl
      refine HostScan.mk.injEq .. |>.mpr ⟨rfl, ?_, ?_⟩
      · split
        · rename_i hNil
          subst hNil
          simp only [List.map_cons, List.map_nil, List.sum_cons, List.sum_nil]
          omega
        · rw [List.map_cons, List.sum_cons]
          push_cast
          omega
      · rw [List.length_cons]
        omega

theorem exists_dotted (text : QString) : ∃ labels last, text = dotted labels last ∧
    ∀ label ∈ labels ++ [last], ∀ c ∈ label, c ≠ DOT := by
  induction text with
  | nil => exact ⟨[], [], rfl, by simp⟩
  | cons c text ih =>
    obtain ⟨labels, last, rfl, hDots⟩ := ih
    by_cases hDot : c = DOT
    · refine ⟨[] :: labels, last, by rw [dotted_cons, hDot]; rfl, ?_⟩
      exact List.forall_mem_cons.mpr ⟨fun c hc => absurd hc List.not_mem_nil, hDots⟩
    · cases labels with
      | nil =>
        refine ⟨[], c :: last, rfl, List.forall_mem_cons.mpr ⟨List.forall_mem_cons.mpr ⟨hDot, ?_⟩, by simp⟩⟩
        exact hDots last (by simp)
      | cons label labels =>
        refine ⟨(c :: label) :: labels, last, by rw [dotted_cons, dotted_cons]; rfl, ?_⟩
        rw [List.cons_append, List.forall_mem_cons] at hDots ⊢
        exact ⟨List.forall_mem_cons.mpr ⟨hDot, hDots.1⟩, hDots.2⟩

theorem digitsValue_mono {n value : Nat} {text : QString} (h : digitsValue n text = some value) : n ≤ value := by
  induction text generalizing n with
  | nil => exact (Option.some.inj h).le
  | cons c text ih =>
    obtain ⟨d, -, hRest⟩ := Option.bind_eq_some_iff.mp h
    have hLe := ih hRest
    omega

theorem isValidIpv4From_reset {rest : QString} (hRest : ∀ c ∈ rest.head?, c = DOT)
    (sectionValue octetNumber sectionDigits : Nat) :
    isValidIpv4From sectionValue octetNumber sectionDigits false rest = isValidIpv4From 0 octetNumber 0 false rest := by
  cases rest with
  | nil => rfl
  | cons c rest =>
    have hDot : c = 0x2E := hRest c rfl
    rw [isValidIpv4From, isValidIpv4From, if_pos hDot, if_pos hDot]

theorem isValidIpv4From_section {text rest : QString} (hText : ∀ c ∈ text, c ≠ DOT) (hRest : ∀ c ∈ rest.head?, c = DOT)
    {sectionValue sectionDigits : Nat} (octetNumber : Nat) (hValue : sectionValue ≤ 255) (hDigits : sectionDigits ≤ 3) :
    isValidIpv4From sectionValue octetNumber sectionDigits false (text ++ rest) = true ↔
      (sectionDigits + text.length ≤ 3 ∧ ∃ n ≤ 255, digitsValue sectionValue text = some n) ∧
        isValidIpv4From 0 octetNumber 0 false rest = true := by
  induction text generalizing sectionValue sectionDigits with
  | nil =>
    rw [List.nil_append, isValidIpv4From_reset hRest]
    exact ⟨fun h => ⟨⟨hDigits, _, hValue, rfl⟩, h⟩, fun h => h.2⟩
  | cons c text ih =>
    have hDot : c ≠ 0x2E := hText c List.mem_cons_self
    have hLength : sectionDigits + (text.length + 1) = sectionDigits + 1 + text.length := by omega
    rw [List.cons_append, isValidIpv4From, if_neg hDot, digitsValue, List.length_cons, hLength]
    by_cases hDigit : 0x30 ≤ c ∧ c ≤ 0x39
    · have hOther : ¬(0x39 < c ∨ c < 0x30) := by
        rw [not_or, UInt16.not_lt, UInt16.not_lt]
        exact hDigit.symm
      have hSome : digitValue c = some (c.toNat - 0x30) := if_pos hDigit
      rw [if_neg hOther, hSome, Option.bind_some, Nat.mul_comm 10]
      dsimp only
      split
      · rename_i hStop
        refine ⟨fun h => absurd h Bool.false_ne_true, fun h => ?_⟩
        obtain ⟨⟨hThree, n, hMax, hText⟩, -⟩ := h
        have hMono := digitsValue_mono hText
        omega
      · rename_i hGo
        exact ih (fun d hd => hText d (List.mem_cons_of_mem _ hd)) (by omega) (by omega)
    · have hOther : 0x39 < c ∨ c < 0x30 := by
        by_contra hNot
        rw [not_or, UInt16.not_lt, UInt16.not_lt] at hNot
        exact hDigit hNot.symm
      have hNone : digitValue c = none := if_neg hDigit
      rw [if_pos hOther, hNone]
      exact ⟨fun h => absurd h Bool.false_ne_true, fun h => by obtain ⟨⟨-, n, -, hn⟩, -⟩ := h; cases hn⟩

theorem isValidIpv4From_octet {text rest : QString} (hText : ∀ c ∈ text, c ≠ DOT) (hRest : ∀ c ∈ rest.head?, c = DOT)
    {octetNumber : Nat} :
    isValidIpv4From 0 octetNumber 0 true (text ++ rest) = true ↔
      IsOctet text ∧ isValidIpv4From 0 octetNumber 0 false rest = true := by
  cases text with
  | nil =>
    refine ⟨fun h => ?_, fun h => absurd rfl h.1.1⟩
    cases rest with
    | nil => exact absurd h (by simp [isValidIpv4From])
    | cons c rest =>
      have hDot : c = 0x2E := hRest c rfl
      rw [List.nil_append, isValidIpv4From, if_pos hDot, if_pos (Or.inl rfl)] at h
      cases h
  | cons c text =>
    have hDot : c ≠ 0x2E := hText c List.mem_cons_self
    have hSame : isValidIpv4From 0 octetNumber 0 true (c :: text ++ rest) =
        isValidIpv4From 0 octetNumber 0 false (c :: text ++ rest) := by
      rw [List.cons_append, isValidIpv4From, isValidIpv4From, if_neg hDot, if_neg hDot]
    rw [hSame, isValidIpv4From_section hText hRest octetNumber (Nat.zero_le _) (Nat.zero_le _), Nat.zero_add]
    exact and_congr_left fun _ => ⟨fun h => ⟨List.cons_ne_nil _ _, h⟩, fun h => h.2⟩

theorem isValidIpv4From_dotted {labels : List QString} {last : QString}
    (hDots : ∀ label ∈ labels ++ [last], ∀ c ∈ label, c ≠ DOT) {octetNumber : Nat}
    (hNumber : octetNumber + labels.length ≤ 3) :
    isValidIpv4From 0 octetNumber 0 true (dotted labels last) = true ↔
      octetNumber + labels.length = 3 ∧ ∀ label ∈ labels ++ [last], IsOctet label := by
  induction labels generalizing octetNumber with
  | nil =>
    have hLast := @isValidIpv4From_octet last [] (hDots last List.mem_cons_self) (by simp) octetNumber
    rw [List.append_nil] at hLast
    refine hLast.trans ?_
    simp [isValidIpv4From, and_comm]
  | cons label labels ih =>
    rw [List.length_cons] at hNumber ⊢
    rw [dotted_cons, isValidIpv4From_octet (hDots label List.mem_cons_self) (by simp), isValidIpv4From,
      if_pos (by rfl), if_neg (by simp; omega), ih (fun l hl => hDots l (List.mem_cons_of_mem _ hl)) (by omega),
      List.cons_append, List.forall_mem_cons]
    constructor
    · rintro ⟨hLabel, hThree, hLabels⟩
      exact ⟨by omega, hLabel, hLabels⟩
    · rintro ⟨hThree, hLabel, hLabels⟩
      exact ⟨hLabel, by omega, hLabels⟩

theorem startsWithPortFrom_iff (tables : Tables) {i : Nat} (hFive : i ≤ 5) (text : QString) :
    startsWithPortFrom tables i text = true ↔ ∃ digits tail, text = digits ++ tail ∧ (∀ c ∈ digits, tables.isDigit c) ∧
      i + digits.length ≤ 5 ∧
        (tail = [] ∨ i + digits.length = 5 ∨ 1 ≤ i + digits.length ∧ ∀ c ∈ tail.head?, c ∈ separators) := by
  induction text generalizing i with
  | nil => exact ⟨fun _ => ⟨[], [], rfl, by simp, hFive, Or.inl rfl⟩, fun _ => rfl⟩
  | cons c text ih =>
    rw [startsWithPortFrom]
    by_cases hEnd : 5 ≤ i
    · rw [if_pos hEnd]
      exact ⟨fun _ => ⟨[], c :: text, rfl, by simp, hFive, Or.inr (Or.inl (by simp; omega))⟩, fun _ => rfl⟩
    · rw [if_neg hEnd]
      by_cases hSeparator : 1 ≤ i ∧ c ∈ lit "/?#"
      · rw [if_pos hSeparator]
        refine ⟨fun _ => ⟨[], c :: text, rfl, by simp, hFive, Or.inr (Or.inr ⟨hSeparator.1, ?_⟩)⟩, fun _ => rfl⟩
        rintro _ ⟨⟩
        exact hSeparator.2
      · rw [if_neg hSeparator]
        constructor
        · intro h
          by_cases hDigit : tables.isDigit c = true
          · rw [if_pos hDigit, ih (by omega)] at h
            obtain ⟨digits, tail, rfl, hDigits, hLength, hTail⟩ := h
            refine ⟨c :: digits, tail, rfl, List.forall_mem_cons.mpr ⟨hDigit, hDigits⟩, ?_, ?_⟩
            · rw [List.length_cons]
              omega
            · rw [List.length_cons, show i + (digits.length + 1) = i + 1 + digits.length by omega]
              exact hTail
          · rw [if_neg hDigit] at h
            cases h
        · rintro ⟨digits, tail, hText, hDigits, hLength, hTail⟩
          cases digits with
          | nil =>
            rw [List.nil_append] at hText
            subst hText
            rcases hTail with hTail | hTail | hTail
            · cases hTail
            · rw [List.length_nil] at hTail
              omega
            · exact absurd ⟨hTail.1, hTail.2 c rfl⟩ hSeparator
          | cons d digits =>
            rw [List.cons_append] at hText
            injection hText with hHead hText
            subst hHead
            rw [List.length_cons, show i + (digits.length + 1) = i + 1 + digits.length by omega] at hLength hTail
            rw [if_pos (hDigits c List.mem_cons_self), ih (by omega)]
            exact ⟨digits, tail, hText, fun d hd => hDigits d (List.mem_cons_of_mem _ hd), hLength, hTail⟩

def Stops (tables : Tables) (rest : QString) : Prop :=
  rest = [] ∨ ∃ c tail, rest = c :: tail ∧ (c ∈ separators ∨ c = COLON ∧ startsWithPort tables tail = true)

theorem colon_notMem_separators : COLON ∉ separators := by decide

theorem stops_of_stopHost {tables : Tables} {rest : QString} {i j : Nat} {scan scan' : HostScan}
    (h : stopHost tables rest i scan = some (j, scan')) :
    j = i ∧ scan'.lastDotPos = scan.lastDotPos ∧ scan'.nDots = scan.nDots ∧ Stops tables rest := by
  cases rest with
  | nil =>
    cases h
    exact ⟨rfl, rfl, rfl, Or.inl rfl⟩
  | cons c rest =>
    rw [stopHost] at h
    split_ifs at h with hColon hPort hSeparator
    · cases h
      exact ⟨rfl, rfl, rfl, Or.inr ⟨c, rest, rfl, Or.inr ⟨hColon, hPort⟩⟩⟩
    · cases h
      exact ⟨rfl, rfl, rfl, Or.inr ⟨c, rest, rfl, Or.inl hSeparator⟩⟩

theorem stopHost_of_stops {tables : Tables} {rest : QString} (h : Stops tables rest) (i : Nat) {scan : HostScan}
    (hScan : scan.lastWasDot = false) : stopHost tables rest i scan = some (i, scan) := by
  have hSame : { scan with lastWasDot := false } = scan := by rw [← hScan]
  rcases h with rfl | ⟨c, tail, rfl, hSeparator | ⟨hColon, hPort⟩⟩
  · rfl
  · have hColon : c ≠ 0x3A := by
      rintro rfl
      exact colon_notMem_separators hSeparator
    have hSeparator : c ∈ lit "/?#" := hSeparator
    rw [stopHost, if_neg hColon, if_pos hSeparator, hSame]
  · have hColon : c = 0x3A := hColon
    rw [stopHost, if_pos hColon, if_pos hPort, hSame]

theorem sum_length_pos {labels : List QString} (hLabels : labels ≠ []) (hNonempty : ∀ label ∈ labels, label ≠ []) :
    2 ≤ (labels.map fun label => label.length + 1).sum := by
  cases labels with
  | nil => exact absurd rfl hLabels
  | cons label labels =>
    have hLength := List.length_pos_iff.mpr (hNonempty label List.mem_cons_self)
    rw [List.map_cons, List.sum_cons]
    omega

theorem drop_dotted (labels : List QString) (last : QString) :
    (dotted labels last).drop (labels.map fun label => label.length + 1).sum = last := by
  have hLength : (labels.flatMap fun label => label ++ [DOT]).length = (labels.map fun label => label.length + 1).sum := by
    simp [List.length_flatMap]
  rw [dotted, ← hLength, List.drop_left]

theorem validHost_of_scanHost {tables : Tables} (hReal : tables.Real) {host : QString} {scan : HostScan}
    (hChars : ∀ c ∈ host, isValidDomainChar c) (hScan : scanHost host 0 {} = some scan) (hDotPos : ¬scan.lastDotPos ≤ 0)
    (hHost : (scan.nDots = 3 ∧ isValidIpv4 host) ∨ tables.isValidTld (host.drop (scan.lastDotPos.toNat + 1))) :
    ValidHost tables host := by
  obtain ⟨labels, last, rfl, hDots⟩ := exists_dotted host
  rw [scanHost_dotted hDots rfl] at hScan
  split at hScan
  · rename_i hNonempty
    cases hScan
    dsimp only at hDotPos hHost
    have hLabels : labels ≠ [] := by
      intro hNil
      exact hDotPos (by rw [if_pos hNil]; decide)
    rw [if_neg hLabels] at hHost
    have hSum := sum_length_pos hLabels hNonempty
    have hTld : (((0 + (labels.map fun label => label.length + 1).sum : Nat) : Int) - 1).toNat + 1 =
        (labels.map fun label => label.length + 1).sum := by omega
    rw [hTld, drop_dotted, Nat.zero_add] at hHost
    have hChars : ∀ label ∈ labels ++ [last], ∀ c ∈ label, isValidDomainChar c := by
      intro label hLabel c hc
      refine hChars c ?_
      rw [dotted, List.mem_append]
      rcases List.mem_append.mp hLabel with hLabel | hLabel
      · exact Or.inl (List.mem_flatMap.mpr ⟨label, hLabel, List.mem_append_left _ hc⟩)
      · exact Or.inr (List.mem_singleton.mp hLabel ▸ hc)
    have hValid : tables.isValidTld last ∨ labels.length = 3 ∧ ∀ label ∈ labels ++ [last], IsOctet label := by
      rcases hHost with ⟨hFour, hIpv4⟩ | hTld
      · exact Or.inr ((Nat.zero_add _ ▸ isValidIpv4From_dotted hDots (by omega)).mp hIpv4)
      · exact Or.inl hTld
    have hLast : last ≠ [] := by
      rintro rfl
      rcases hValid with hTld | ⟨-, hOctets⟩
      · exact absurd hTld (by rw [hReal.noEmptyTld]; decide)
      · exact (hOctets [] (by simp)).1 rfl
    refine ⟨labels, last, hLabels, fun label hLabel => ⟨?_, fun c hc => ⟨hChars label hLabel c hc, hDots label hLabel c hc⟩⟩,
      rfl, hValid⟩
    rcases List.mem_append.mp hLabel with hLabel | hLabel
    · exact hNonempty label hLabel
    · exact List.mem_singleton.mp hLabel ▸ hLast
  · cases hScan

theorem scanHost_of_validHost {tables : Tables} {host : QString} (h : ValidHost tables host) :
    ∃ scan, scanHost host 0 {} = some scan ∧ scan.lastWasDot = false ∧ 0 < scan.lastDotPos ∧
      ((scan.nDots = 3 ∧ isValidIpv4 host) ∨ tables.isValidTld (host.drop (scan.lastDotPos.toNat + 1))) := by
  obtain ⟨labels, last, hLabels, hValid, rfl, hHost⟩ := h
  have hDots : ∀ label ∈ labels ++ [last], ∀ c ∈ label, c ≠ DOT := fun label hl c hc => ((hValid label hl).valid c hc).2
  have hNonempty : ∀ label ∈ labels, label ≠ [] := fun label hl => (hValid label (List.mem_append_left _ hl)).nonempty
  have hLast : last ≠ [] := (hValid last (by simp)).nonempty
  have hSum := sum_length_pos hLabels hNonempty
  have hTld : (((0 + (labels.map fun label => label.length + 1).sum : Nat) : Int) - 1).toNat + 1 =
      (labels.map fun label => label.length + 1).sum := by omega
  refine ⟨_, (scanHost_dotted hDots rfl).trans (if_pos hNonempty), decide_eq_false hLast, ?_, ?_⟩
  · rw [if_neg hLabels]
    dsimp only
    omega
  · rw [if_neg hLabels, hTld, drop_dotted]
    rcases hHost with hTld | ⟨hThree, hOctets⟩
    · exact Or.inr hTld
    · refine Or.inl ⟨?_, (isValidIpv4From_dotted hDots (by omega)).mpr ⟨by omega, hOctets⟩⟩
      rw [hThree]

theorem isValidDomainChar_of_validHost {tables : Tables} {host : QString} (h : ValidHost tables host) :
    ∀ c ∈ host, isValidDomainChar c := by
  obtain ⟨labels, last, -, hValid, rfl, -⟩ := h
  intro c hc
  rcases List.mem_append.mp hc with hc | hc
  · obtain ⟨label, hLabel, hc⟩ := List.mem_flatMap.mp hc
    rcases List.mem_append.mp hc with hc | hc
    · exact ((hValid label (List.mem_append_left _ hLabel)).valid c hc).1
    · rw [List.mem_singleton.mp hc]
      decide
  · exact ((hValid last (by simp)).valid c hc).1

theorem not_isValidDomainChar_of_stops {tables : Tables} {rest : QString} (h : Stops tables rest) :
    rest.takeWhile isValidDomainChar = [] := by
  rcases h with rfl | ⟨c, tail, rfl, hSeparator | ⟨rfl, -⟩⟩
  · rfl
  · rw [List.takeWhile_cons_of_neg]
    rw [not_isValidDomainChar c (List.mem_cons_of_mem _ hSeparator)]
    decide
  · rfl

theorem extractHost_accepts_iff {tables : Tables} (hReal : tables.Real) {text : QString} {i : Nat} :
    (∃ scan, extractHost tables text 0 {} = some (i, scan) ∧ ¬(scan.lastWasDot ∨ scan.lastDotPos ≤ 0) ∧
      ((scan.nDots = 3 ∧ isValidIpv4 (text.take i)) ∨ tables.isValidTld ((text.take i).drop (scan.lastDotPos.toNat + 1)))) ↔
      i ≤ text.length ∧ ValidHost tables (text.take i) ∧ Stops tables (text.drop i) := by
  rw [extractHost_eq]
  constructor
  · rintro ⟨scan, hExtract, hDot, hHost⟩
    obtain ⟨scan', hScan, hStop⟩ := Option.bind_eq_some_iff.mp hExtract
    obtain ⟨hi, hPos, hNumber, hStops⟩ := stops_of_stopHost hStop
    rw [Nat.zero_add] at hi
    rw [hPos, hNumber] at hHost
    have hTake : text.take i = text.takeWhile isValidDomainChar := by
      rw [hi]
      exact List.prefix_iff_eq_take.mp (List.takeWhile_prefix _) |>.symm
    have hDrop : text.drop i = text.dropWhile isValidDomainChar := by
      refine (List.append_right_inj (text.take i)).mp ?_
      rw [List.take_append_drop, hTake, List.takeWhile_append_dropWhile]
    rw [hTake] at hHost ⊢
    rw [hDrop]
    rw [not_or, hPos] at hDot
    refine ⟨hi ▸ (List.takeWhile_prefix _).length_le, ?_, hStops⟩
    exact validHost_of_scanHost hReal (fun c hc => List.mem_takeWhile_imp hc) hScan hDot.2 hHost
  · rintro ⟨hi, hHost, hStops⟩
    obtain ⟨scan, hScan, hDot, hPos, hAccepts⟩ := scanHost_of_validHost hHost
    have hChars := isValidDomainChar_of_validHost hHost
    have hTake : text.takeWhile isValidDomainChar = text.take i := by
      conv_lhs => rw [← List.take_append_drop i text]
      rw [List.takeWhile_append_of_pos hChars, not_isValidDomainChar_of_stops hStops, List.append_nil]
    have hDrop : text.dropWhile isValidDomainChar = text.drop i := by
      refine (List.append_right_inj (text.take i)).mp ?_
      rw [List.take_append_drop, ← hTake, List.takeWhile_append_dropWhile]
    refine ⟨scan, ?_, ?_, hAccepts⟩
    · rw [hTake, hDrop, hScan, Option.bind_some, stopHost_of_stops hStops _ hDot, Nat.zero_add, List.length_take,
        Nat.min_eq_left hi]
    · rw [hDot, not_or]
      exact ⟨Bool.false_ne_true, not_le.mpr hPos⟩

variable {source : QString}

theorem drop_take_append (text : QString) {a b c : Nat} (hFirst : a ≤ b) (hSecond : b ≤ c) :
    (text.take b).drop a ++ (text.take c).drop b = (text.take c).drop a := by
  have hTake : (text.take b).drop a = ((text.take c).drop a).take (b - a) := by
    rw [← List.drop_take, List.take_take, Nat.min_eq_left hSecond]
  have hDrop : (text.take c).drop b = ((text.take c).drop a).drop (b - a) := by
    rw [List.drop_drop, Nat.add_sub_cancel' hFirst]
  rw [hTake, hDrop, List.take_append_drop]

theorem toString_first (view : QStringView source) (n : Nat) : (view.first n).toString = view.toString.take n := by
  have hBegin := view.begin_le
  rw [QStringView.toString, QStringView.toString, List.take_drop, List.take_take]
  rfl

theorem toString_mid (view : QStringView source) (n : Nat) : (view.mid n).toString = view.toString.drop n := by
  have hBegin := view.begin_le
  have hEnd := view.end_le
  rw [QStringView.toString, QStringView.toString, List.drop_drop]
  by_cases hLe : view.begin_ + n ≤ view.end_
  · simp only [QStringView.mid, Nat.min_eq_left hLe]
  · rw [List.drop_eq_nil_of_le, List.drop_eq_nil_of_le]
    · rw [List.length_take]
      omega
    · simp only [QStringView.mid, List.length_take]
      omega

theorem length_toString (view : QStringView source) : view.toString.length = view.size := by
  rw [QStringView.toString, List.length_drop, List.length_take, Nat.min_eq_left view.end_le]
  rfl

theorem take_sub_length_takeWhile_reverse (p : QChar → Bool) (text : QString) :
    text.take (text.length - (text.reverse.takeWhile p).length) = text.rdropWhile p := by
  have hText := List.rdropWhile_append_rtakeWhile (p := p) (l := text)
  have hLength : text.length - (text.reverse.takeWhile p).length = (text.rdropWhile p).length := by
    conv_lhs => rw [← hText]
    rw [List.length_append, hText, List.rtakeWhile, List.length_reverse]
    omega
  have hTake : (text.rdropWhile p ++ text.rtakeWhile p).take (text.rdropWhile p).length = text.rdropWhile p :=
    List.take_left
  rwa [hText, ← hLength] at hTake

theorem toString_ofString (source : QString) : (QStringView.ofString source).toString = source := by
  rw [QStringView.toString, QStringView.ofString, List.take_length]
  rfl

theorem drop_length_takeWhile (p : QChar → Bool) (text : QString) :
    text.drop (text.takeWhile p).length = text.dropWhile p := by
  have hDrop : (text.takeWhile p ++ text.dropWhile p).drop (text.takeWhile p).length = text.dropWhile p :=
    List.drop_left
  rwa [List.takeWhile_append_dropWhile] at hDrop

theorem toString_strip (source : QString) : (strip (QStringView.ofString source)).toString =
    (source.dropWhile isIgnoredPrefix).rdropWhile isIgnoredSuffix := by
  have hMid : ((QStringView.ofString source).mid (source.takeWhile isIgnoredPrefix).length).toString =
      source.dropWhile isIgnoredPrefix := by
    rw [toString_mid, toString_ofString, drop_length_takeWhile]
  rw [strip, toString_ofString, QStringView.chop, toString_first, ← length_toString, hMid, take_sub_length_takeWhile_reverse]

theorem begin_strip (source : QString) :
    (strip (QStringView.ofString source)).begin_ = (source.takeWhile isIgnoredPrefix).length := by
  have hLe : 0 + (source.takeWhile isIgnoredPrefix).length ≤ source.length := by
    rw [Nat.zero_add]
    exact (List.takeWhile_prefix _).length_le
  rw [strip, toString_ofString]
  exact (Nat.min_eq_left hLe).trans (Nat.zero_add _)

theorem take_begin_strip (source : QString) :
    source.take (strip (QStringView.ofString source)).begin_ = source.takeWhile isIgnoredPrefix := by
  rw [begin_strip]
  exact (List.prefix_iff_eq_take.mp (List.takeWhile_prefix _)).symm

theorem drop_end_strip (source : QString) : source.drop (strip (QStringView.ofString source)).end_ =
    (source.dropWhile isIgnoredPrefix).rtakeWhile isIgnoredSuffix := by
  have hEnd : source.take (strip (QStringView.ofString source)).end_ =
      source.takeWhile isIgnoredPrefix ++ (source.dropWhile isIgnoredPrefix).rdropWhile isIgnoredSuffix := by
    rw [← take_begin_strip, ← toString_strip, QStringView.toString]
    conv_lhs => rw [← List.take_append_drop (strip (QStringView.ofString source)).begin_ (source.take _)]
    rw [List.take_take, Nat.min_eq_left (strip (QStringView.ofString source)).begin_le]
  refine (List.append_right_inj (source.take (strip (QStringView.ofString source)).end_)).mp ?_
  rw [List.take_append_drop, hEnd, List.append_assoc, List.rdropWhile_append_rtakeWhile,
    List.takeWhile_append_dropWhile]

def parsedAt (source : QString) (i : Nat) : Parsed source :=
  let link := strip (QStringView.ofString source)
  let remaining := (parseProtocol link).2
  let lastClose := closeBraces link (remaining.mid i)
  ⟨(parseProtocol link).1, remaining.first i, extendTo (remaining.mid i) lastClose, extendTo link lastClose⟩

def hostAndRest (source : QString) : QString := (parseProtocol (strip (QStringView.ofString source))).2.toString

theorem parse_eq_some_iff {tables : Tables} (hReal : tables.Real) {parsed : Parsed source} :
    parse tables source = some parsed ↔ ∃ i ≤ (hostAndRest source).length, parsed = parsedAt source i ∧
      ValidHost tables ((hostAndRest source).take i) ∧ Stops tables ((hostAndRest source).drop i) := by
  have hAccepts (i : Nat) := @extractHost_accepts_iff tables hReal (hostAndRest source) i
  constructor
  · intro h
    rw [parse] at h
    dsimp only at h
    split at h
    · cases h
    · rename_i i scan hExtract
      split_ifs at h with hStop hHost
      · cases h
        rw [toString_first] at hHost
        obtain ⟨hi, hValid, hStops⟩ := (hAccepts i).mp ⟨scan, hExtract, hStop, hHost⟩
        exact ⟨i, hi, rfl, hValid, hStops⟩
  · rintro ⟨i, hi, rfl, hValid, hStops⟩
    obtain ⟨scan, hExtract, hStop, hHost⟩ := (hAccepts i).mpr ⟨hi, hValid, hStops⟩
    rw [hostAndRest] at hExtract hHost
    rw [← toString_first] at hHost
    rw [parse]
    dsimp only
    rw [hExtract]
    dsimp only
    rw [if_neg hStop, if_pos hHost]
    rfl

theorem end_first {view : QStringView source} {n : Nat} (h : n ≤ view.size) : (view.first n).end_ = view.begin_ + n :=
  Nat.min_eq_left (by
    rw [QStringView.size] at h
    have hBegin := view.begin_le
    omega)

theorem begin_mid {view : QStringView source} {n : Nat} (h : n ≤ view.size) : (view.mid n).begin_ = view.begin_ + n :=
  Nat.min_eq_left (by
    rw [QStringView.size] at h
    have hBegin := view.begin_le
    omega)

theorem toString_protocol (link : QStringView source) : (parseProtocol link).1.elim [] QStringView.toString =
    (source.take (parseProtocol link).2.begin_).drop link.begin_ := by
  have hLe := le_begin_parseProtocol link
  have hEnd := (parseProtocol link).2.begin_le.trans (end_parseProtocol link).le
  revert hLe hEnd
  rw [parseProtocol]
  split_ifs
  · intro hLe hEnd
    dsimp only at hLe hEnd
    rw [Option.elim_some, QStringView.toString, end_first (by rw [QStringView.size]; omega),
      show link.begin_ + (((afterHttp link).mid 3).begin_ - link.begin_) = ((afterHttp link).mid 3).begin_ by omega]
    rfl
  · intro hLe hEnd
    rw [Option.elim_none, List.drop_eq_nil_of_le]
    rw [List.length_take]
    exact Nat.min_le_left _ _

theorem toString_extendTo (view : QStringView source) (lastClose : { e : Nat // e ≤ source.length }) :
    (extendTo view lastClose).toString = (source.take (max view.end_ lastClose.val)).drop view.begin_ := rfl

theorem parts_parsedAt {i : Nat} (hi : i ≤ (hostAndRest source).length) :
    (parsedAt source i).protocol.elim [] QStringView.toString ++
      ((parsedAt source i).host.toString ++ (parsedAt source i).rest.toString) = (parsedAt source i).link.toString := by
  rw [hostAndRest, length_toString] at hi
  dsimp only [parsedAt]
  generalize strip (QStringView.ofString source) = link at hi ⊢
  have hProtocol := toString_protocol link
  have hBegin := le_begin_parseProtocol link
  have hEnd := end_parseProtocol link
  generalize (parseProtocol link).2 = remaining at hi hProtocol hBegin hEnd ⊢
  generalize closeBraces link (remaining.mid i) = lastClose
  have hSize : remaining.begin_ + i ≤ link.end_ := by
    rw [QStringView.size] at hi
    have hLe := remaining.begin_le
    omega
  rw [hProtocol, toString_extendTo, toString_extendTo, QStringView.toString, end_first hi, begin_mid hi]
  have hRest : (remaining.mid i).end_ = link.end_ := hEnd
  rw [hRest]
  have hHost := drop_take_append source (Nat.le_add_right remaining.begin_ i) (hSize.trans (Nat.le_max_left _ lastClose.val))
  exact (congrArg _ hHost).trans (drop_take_append source hBegin
    ((Nat.le_add_right _ _).trans (hSize.trans (Nat.le_max_left _ lastClose.val))))

theorem before_parsedAt {i : Nat} : ∀ c ∈ (parsedAt source i).before, isIgnoredPrefix c := by
  have hBefore : (parsedAt source i).before = source.takeWhile isIgnoredPrefix := take_begin_strip source
  intro c hc
  rw [hBefore] at hc
  exact List.mem_takeWhile_imp hc

theorem isIgnoredSuffix_of_mem {c : QChar} (h : c ∈ source.drop (strip (QStringView.ofString source)).end_) :
    isIgnoredSuffix c := by
  rw [drop_end_strip] at h
  exact List.mem_rtakeWhile_imp h

theorem suffix_parsedAt {i : Nat} : ∀ c ∈ (parsedAt source i).suffix, isIgnoredSuffix c := by
  intro c hc
  refine isIgnoredSuffix_of_mem ((List.drop_suffix_drop_left source ?_).subset hc)
  exact Nat.le_max_left _ _

theorem findLastClose_of_notMem {rest : QString} (h : ∀ c ∈ rest, c ≠ 0x28) (it lastClose : Nat) :
    findLastClose rest it 0 lastClose = lastClose := by
  induction rest generalizing it with
  | nil => rfl
  | cons c rest ih =>
    rw [findLastClose, if_neg (h c List.mem_cons_self), if_neg (fun hClose => hClose.1 rfl)]
    exact ih (fun d hd => h d (List.mem_cons_of_mem _ hd)) _

theorem closeBraces_of_notMem {link rest : QStringView source} (h : ∀ c ∈ source.drop rest.begin_, c ≠ 0x28) :
    (closeBraces link rest).val = link.end_ := by
  rw [closeBraces]
  split_ifs
  · exact findLastClose_of_notMem h _ _
  · rfl

theorem rest_parsedAt {i : Nat} : (parsedAt source i).rest.toString =
    (hostAndRest source).drop i ++
      (source.take (parsedAt source i).rest.end_).drop (strip (QStringView.ofString source)).end_ := by
  have hEnd := end_parseProtocol (strip (QStringView.ofString source))
  have hBegin := ((parseProtocol (strip (QStringView.ofString source))).2.mid i).begin_le
  rw [hostAndRest, ← toString_mid, QStringView.toString, QStringView.toString, ← hEnd]
  exact (drop_take_append source hBegin (Nat.le_max_left _ _)).symm

theorem hostAndRest_ne_colon (source host : QString) : hostAndRest source ≠ host ++ [COLON] := by
  intro h
  have hEnd := end_parseProtocol (strip (QStringView.ofString source))
  have hBegin := le_begin_parseProtocol (strip (QStringView.ofString source))
  have hSuffix : hostAndRest source <:+ (strip (QStringView.ofString source)).toString := by
    rw [hostAndRest, QStringView.toString, QStringView.toString, hEnd]
    exact List.drop_suffix_drop_left _ hBegin
  obtain ⟨front, hFront⟩ := hSuffix
  rw [h, toString_strip, ← List.append_assoc] at hFront
  have hNonempty : (source.dropWhile isIgnoredPrefix).rdropWhile isIgnoredSuffix ≠ [] := by
    rw [← hFront]
    exact List.append_ne_nil_of_right_ne_nil _ (List.cons_ne_nil _ _)
  refine List.rdropWhile_last_not _ _ hNonempty ?_
  have hLast : ((source.dropWhile isIgnoredPrefix).rdropWhile isIgnoredSuffix).getLast hNonempty = COLON := by
    have hGet := congrArg List.getLast? hFront
    rw [List.getLast?_concat, List.getLast?_eq_getLast_of_ne_nil hNonempty] at hGet
    exact (Option.some.inj hGet).symm
  rw [hLast]
  decide

theorem Tables.Real.notMem {tables : Tables} (hReal : tables.Real) {c : QChar} (h : tables.isDigit c = true) :
    c ≠ 0x28 ∧ c ∉ separators := by
  have hOther (d : QChar) (hd : d ∈ lit "(/?#") : c ≠ d := by
    rintro rfl
    rw [hReal.noDigit c hd] at h
    cases h
  refine ⟨hOther _ (by decide), fun hMem => hOther c ?_ rfl⟩
  exact List.mem_cons_of_mem _ hMem

theorem rest_parsedAt_of_notMem {i : Nat} (h : ∀ c ∈ (hostAndRest source).drop i, c ≠ 0x28) :
    (parsedAt source i).rest.toString = (hostAndRest source).drop i := by
  have hClose : (closeBraces (strip (QStringView.ofString source))
      ((parseProtocol (strip (QStringView.ofString source))).2.mid i)).val = (strip (QStringView.ofString source)).end_ := by
    refine closeBraces_of_notMem fun c hc => ?_
    have hBegin := ((parseProtocol (strip (QStringView.ofString source))).2.mid i).begin_le
    have hEnd : ((parseProtocol (strip (QStringView.ofString source))).2.mid i).end_ = _ := end_parseProtocol _
    have hSource := drop_take_append source hBegin ((parseProtocol (strip (QStringView.ofString source))).2.mid i).end_le
    rw [List.take_length, hEnd] at hSource
    rw [← hSource] at hc
    rcases List.mem_append.mp hc with hc | hc
    · refine h c ?_
      rw [hostAndRest, ← toString_mid, QStringView.toString, hEnd]
      exact hc
    · rintro rfl
      exact absurd (isIgnoredSuffix_of_mem hc) (by decide)
  have hRestEnd : (parsedAt source i).rest.end_ = (strip (QStringView.ofString source)).end_ := by
    have hEnd : ((parseProtocol (strip (QStringView.ofString source))).2.mid i).end_ = _ := end_parseProtocol _
    refine (congrArg₂ max hEnd hClose).trans (max_self _)
  have hNone (e : Nat) : (source.take e).drop e = [] :=
    List.drop_eq_nil_of_le (by rw [List.length_take]; exact Nat.min_le_left _ _)
  rw [rest_parsedAt, hRestEnd, hNone, List.append_nil]

theorem portEnds_parsedAt {tables : Tables} (hReal : tables.Real) (hPort : NoOverlongPort tables source) {i : Nat}
    (hHost : ValidHost tables ((hostAndRest source).take i)) (hStops : Stops tables ((hostAndRest source).drop i)) :
    PortEnds tables (parsedAt source i).rest.toString := by
  intro hColon
  have hText := List.take_append_drop i (hostAndRest source)
  rcases hStops with hNil | ⟨c, tail, hTail, hSeparator | ⟨rfl, hStarts⟩⟩
  · rw [rest_parsedAt_of_notMem (by rw [hNil]; exact fun c hc => absurd hc List.not_mem_nil), hNil] at hColon
    cases hColon
  · rw [rest_parsedAt, hTail] at hColon
    cases hColon
    exact absurd hSeparator colon_notMem_separators
  · obtain ⟨digits, tail, rfl, hDigits, hLength, hEnds⟩ := (startsWithPortFrom_iff tables (Nat.zero_le 5) _).mp hStarts
    rw [Nat.zero_add] at hLength hEnds
    rw [hTail] at hText
    cases tail with
    | nil =>
      rw [List.append_nil] at hTail hText
      have hBraces : ∀ c ∈ (hostAndRest source).drop i, c ≠ 0x28 := by
        rw [hTail]
        exact List.forall_mem_cons.mpr ⟨by decide, fun c hc => (hReal.notMem (hDigits c hc)).1⟩
      refine ⟨digits, [], by rw [rest_parsedAt_of_notMem hBraces, hTail, List.append_nil], ?_, hLength, hDigits, by simp⟩
      rw [Nat.one_le_iff_ne_zero, ne_eq, List.length_eq_zero_iff]
      rintro rfl
      exact hostAndRest_ne_colon source _ hText.symm
    | cons c tail =>
      rw [rest_parsedAt, hTail, List.cons_append, List.append_assoc]
      rcases hEnds with hNil | hFive | hSeparator
      · cases hNil
      · refine ⟨digits, _, rfl, by omega, hLength, hDigits, ?_⟩
        rintro _ ⟨⟩
        exact hPort _ digits c tail hText.symm hHost hFive hDigits
      · refine ⟨digits, _, rfl, hSeparator.1, hLength, hDigits, ?_⟩
        rintro _ ⟨⟩
        exact hSeparator.2 c rfl

theorem noOverlongPort_of_portEnds {tables : Tables} (hReal : tables.Real)
    (h : ∀ parsed, parse tables source = some parsed → PortEnds tables parsed.rest.toString) :
    NoOverlongPort tables source := by
  intro host digits c tail hText hHost hFive hDigits
  have hTake : (hostAndRest source).take host.length = host := by
    rw [hostAndRest, hText]
    exact List.take_left
  have hDrop : (hostAndRest source).drop host.length = COLON :: (digits ++ c :: tail) := by
    rw [hostAndRest, hText]
    exact List.drop_left
  have hStarts : startsWithPort tables (digits ++ c :: tail) = true :=
    (startsWithPortFrom_iff tables (Nat.zero_le 5) _).mpr
      ⟨digits, c :: tail, rfl, hDigits, by omega, Or.inr (Or.inl (by omega))⟩
  have hParse : parse tables source = some (parsedAt source host.length) := by
    refine (parse_eq_some_iff hReal).mpr ⟨host.length, ?_, rfl, by rwa [hTake], ?_⟩
    · rw [hostAndRest, hText, List.length_append]
      omega
    · rw [hDrop]
      exact Or.inr ⟨COLON, _, rfl, Or.inr ⟨rfl, hStarts⟩⟩
  have hRest := @rest_parsedAt source host.length
  rw [hDrop] at hRest
  obtain ⟨digits', tail', hPort, hOne, hMax, hDigits', hTail'⟩ := h _ hParse (by rw [hRest]; rfl)
  rw [hRest, List.cons_append, List.append_assoc] at hPort
  injection hPort with _ hPort
  have hLength : digits'.length = digits.length := by
    by_contra hShorter
    have hLess : digits'.length < digits.length := by omega
    have hHead := congrArg (·[digits'.length]?) hPort
    simp only [List.getElem?_append_left hLess, List.getElem?_append_right (Nat.le_refl digits'.length), Nat.sub_self,
      List.getElem?_eq_getElem hLess, ← List.head?_eq_getElem?] at hHead
    have hDigit := hDigits _ (List.getElem_mem hLess)
    exact (hReal.notMem hDigit).2 (hTail' _ hHead.symm)
  obtain ⟨-, hTails⟩ := List.append_inj hPort.symm hLength
  refine hTail' c ?_
  rw [hTails]
  rfl

/-- A parsed link is a valid dissection unless a valid host is followed by more than five digits' worth of port. -/
theorem parse_dissects_iff {tables : Tables} (hReal : tables.Real) :
    (∀ parsed, parse tables source = some parsed → Dissects tables parsed) ↔ NoOverlongPort tables source := by
  refine ⟨fun h => noOverlongPort_of_portEnds hReal fun parsed hParse => (h parsed hParse).port, ?_⟩
  intro hPort parsed hParse
  obtain ⟨i, hi, rfl, hHost, hStops⟩ := (parse_eq_some_iff hReal).mp hParse
  exact {
    parts := parts_parsedAt hi
    word := Parsed.before_append_link_append_suffix _
    before := before_parsedAt
    after := suffix_parsedAt
    host := (toString_first _ i).symm ▸ hHost
    port := portEnds_parsedAt hReal hPort hHost hStops }

def asciiTables : Tables := ⟨fun tld => decide (tld = lit "com"), fun c => decide (0x30 ≤ c ∧ c ≤ 0x39)⟩

theorem real_asciiTables : asciiTables.Real := ⟨by decide, by decide⟩

theorem dissects_enclosedLink : (parse asciiTables (lit "(a.com)")).isSome = true ∧
    ∀ parsed, parse asciiTables (lit "(a.com)") = some parsed → Dissects asciiTables parsed := by
  refine ⟨by decide, (parse_dissects_iff real_asciiTables).mpr fun host digits c tail hText => ?_⟩
  have hColon : COLON ∈ (parseProtocol (strip (QStringView.ofString (lit "(a.com)")))).2.toString := by
    rw [hText]
    exact List.mem_append_right _ List.mem_cons_self
  exact absurd hColon (by decide)

theorem isLabel_iff {label : QString} : IsLabel label ↔ label ≠ [] ∧ ∀ c ∈ label, isValidDomainChar c ∧ c ≠ DOT :=
  ⟨fun h => ⟨h.1, h.2⟩, fun h => ⟨h.1, h.2⟩⟩

theorem not_dissects_overlongPort : ¬∀ parsed, parse asciiTables (lit "a.com:123456") = some parsed →
    Dissects asciiTables parsed := by
  intro h
  have hPort : NoOverlongPort asciiTables (lit "a.com:123456") :=
    noOverlongPort_of_portEnds real_asciiTables fun parsed hParse => (h parsed hParse).port
  have hHost : ValidHost asciiTables (lit "a.com") := by
    refine ⟨[lit "a"], lit "com", by decide, fun label hLabel => isLabel_iff.mpr ?_, by decide, Or.inl (by decide)⟩
    revert label
    decide
  exact absurd (hPort _ (lit "12345") (0x36 : QChar) [] (by decide) hHost (by decide) (by decide)) (by decide)

end Chatterino.LinkParser
