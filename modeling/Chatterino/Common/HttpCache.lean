import Chatterino.Lib.Run
import Chatterino.Qt.QString

/-! # The cache of HTTP answers

A request that may be cached is answered by the file of its hash. The hash is of the URL followed by the names of the
headers, with nothing between them.
-/

namespace Chatterino.HttpCache

open Lib

abbrev QByteArray := List UInt8

structure Library (QUrl : Type) where
  toString : QUrl → QString
  toUtf8 : QString → QByteArray
  sha256 : QByteArray → QByteArray

/-- A request with `cache()` and the GET method. -/
structure Request (QUrl : Type) where
  url : QUrl
  headers : List (QByteArray × QByteArray) := []

def hexDigit (n : UInt8) : QChar := if n < 10 then 0x30 + n.toUInt16 else 0x57 + n.toUInt16

def toHex (bytes : QByteArray) : QString := bytes.flatMap fun byte => [hexDigit (byte / 16), hexDigit (byte % 16)]

section

variable {QUrl : Type} (lib : Library QUrl)

def Request.rawHeaderList (request : Request QUrl) : List QByteArray := request.headers.map Prod.fst

def hashedBytes (request : Request QUrl) : QByteArray :=
  request.rawHeaderList.foldl (fun bytes header => bytes ++ header) (lib.toUtf8 (lib.toString request.url))

def getHash (request : Request QUrl) : QString := toHex (lib.sha256 (hashedBytes lib request))

end

/-- The cache's files by their names, and the requests that wait for the server or were answered by it. -/
structure Cache (QUrl : Type) where
  files : QString → Option QByteArray := fun _ => none
  tasks : List (Request QUrl) := []
  succeeded : List (Request QUrl × QByteArray) := []

inductive Event (QUrl : Type)
  | execute (request : Request QUrl)
  /-- The server's answer to a task, or none after an error. -/
  | finished (task : Nat) (bytes : Option QByteArray)

section

variable {QUrl : Type} (lib : Library QUrl)

def loadCached (cache : Cache QUrl) (request : Request QUrl) : Option QByteArray := cache.files (getHash lib request)

def writeToCache (cache : Cache QUrl) (request : Request QUrl) (bytes : QByteArray) : Cache QUrl :=
  { cache with files := Function.update cache.files (getHash lib request) (some bytes) }

def step (cache : Cache QUrl) : Event QUrl → Cache QUrl
  | .execute request =>
    match loadCached lib cache request with
    | some _ => cache
    | none => { cache with tasks := cache.tasks ++ [request] }
  | .finished task bytes =>
    match cache.tasks[task]?, bytes with
    | some request, some bytes =>
      writeToCache lib { cache with
        tasks := cache.tasks.eraseIdx task, succeeded := cache.succeeded ++ [(request, bytes)] } request bytes
    | _, _ => { cache with tasks := cache.tasks.eraseIdx task }

def executed (events : List (Event QUrl)) : List (Request QUrl) :=
  events.filterMap fun event => match event with
    | .execute request => some request
    | .finished _ _ => none

def AnswersAsBefore (cache : Cache QUrl) : Event QUrl → Prop
  | .execute request => ∀ bytes ∈ loadCached lib cache request, (request, bytes) ∈ cache.succeeded
  | .finished _ _ => True

/-- The requests of a run of the list are answered by their own files, whatever the server answers and when. -/
def AnswersRequests (requests : List (Request QUrl)) : Prop :=
  ∀ events, executed events = requests → AllSteps (step lib) (AnswersAsBefore lib) {} events

def SeparatesFiles (requests : List (Request QUrl)) : Prop :=
  ∀ request ∈ requests, ∀ other ∈ requests, getHash lib request = getHash lib other → request = other

def SeparatesTexts (requests : List (Request QUrl)) : Prop :=
  ∀ request ∈ requests, ∀ other ∈ requests,
    lib.toUtf8 (lib.toString request.url) ++ request.rawHeaderList.flatten =
      lib.toUtf8 (lib.toString other.url) ++ other.rawHeaderList.flatten → request = other

variable {lib}

theorem hashedBytes_eq (request : Request QUrl) :
    hashedBytes lib request = lib.toUtf8 (lib.toString request.url) ++ request.rawHeaderList.flatten := by
  rw [hashedBytes]
  generalize lib.toUtf8 (lib.toString request.url) = bytes
  induction request.rawHeaderList generalizing bytes with
  | nil => rw [List.foldl_nil, List.flatten_nil, List.append_nil]
  | cons header headers ih => rw [List.foldl_cons, ih, List.flatten_cons, List.append_assoc]

theorem hexDigit_toNat {n : UInt8} (h : n < 16) : (hexDigit n).toNat = if n.toNat < 10 then 48 + n.toNat else 87 + n.toNat := by
  rw [UInt8.lt_iff_toNat_lt] at h
  have hLt : n.toNat < 16 := h
  rw [hexDigit]
  by_cases hSmall : n < 10
  · have hNat : n.toNat < 10 := UInt8.lt_iff_toNat_lt.mp hSmall
    rw [if_pos hSmall, if_pos hNat, UInt16.toNat_add, UInt8.toNat_toUInt16]
    exact Nat.mod_eq_of_lt (by change 48 + n.toNat < 65536; omega)
  · have hNat : ¬ n.toNat < 10 := fun h' => hSmall (UInt8.lt_iff_toNat_lt.mpr h')
    rw [if_neg hSmall, if_neg hNat, UInt16.toNat_add, UInt8.toNat_toUInt16]
    exact Nat.mod_eq_of_lt (by change 87 + n.toNat < 65536; omega)

theorem hexDigit_inj {n m : UInt8} (hn : n < 16) (hm : m < 16) (h : hexDigit n = hexDigit m) : n = m := by
  apply UInt8.toNat_inj.mp
  have hNat := congrArg UInt16.toNat h
  rw [hexDigit_toNat hn, hexDigit_toNat hm] at hNat
  have hn' : n.toNat < 16 := UInt8.lt_iff_toNat_lt.mp hn
  have hm' : m.toNat < 16 := UInt8.lt_iff_toNat_lt.mp hm
  split_ifs at hNat <;> omega

theorem hexDigits_inj (byte other : UInt8) (hHigh : hexDigit (byte / 16) = hexDigit (other / 16))
    (hLow : hexDigit (byte % 16) = hexDigit (other % 16)) : byte = other := by
  have hDigit (n : UInt8) : n / 16 < 16 ∧ n % 16 < 16 := by
    have hByte := n.toNat_lt
    constructor
    · rw [UInt8.lt_iff_toNat_lt, UInt8.toNat_div]
      change n.toNat / 16 < 16
      omega
    · rw [UInt8.lt_iff_toNat_lt, UInt8.toNat_mod]
      exact Nat.mod_lt _ (by decide)
  have hDiv := congrArg UInt8.toNat (hexDigit_inj (hDigit byte).1 (hDigit other).1 hHigh)
  have hMod := congrArg UInt8.toNat (hexDigit_inj (hDigit byte).2 (hDigit other).2 hLow)
  rw [UInt8.toNat_div, UInt8.toNat_div] at hDiv
  rw [UInt8.toNat_mod, UInt8.toNat_mod] at hMod
  apply UInt8.toNat_inj.mp
  change byte.toNat / 16 = other.toNat / 16 at hDiv
  change byte.toNat % 16 = other.toNat % 16 at hMod
  omega

theorem toHex_injective : Function.Injective toHex := by
  intro bytes
  induction bytes with
  | nil =>
    intro others h
    cases others with
    | nil => rfl
    | cons other others => cases h
  | cons byte bytes ih =>
    intro others h
    cases others with
    | nil => cases h
    | cons other others =>
      rw [toHex, toHex, List.flatMap_cons, List.flatMap_cons, ← toHex, ← toHex] at h
      simp only [List.cons_append, List.nil_append, List.cons.injEq] at h
      rw [hexDigits_inj byte other h.1 h.2.1, ih h.2.2]

variable (lib) in
structure WrittenFor (requests : List (Request QUrl)) (cache : Cache QUrl) : Prop where
  tasks : ∀ request ∈ cache.tasks, request ∈ requests
  files : ∀ name bytes, cache.files name = some bytes →
    ∃ request ∈ requests, (request, bytes) ∈ cache.succeeded ∧ getHash lib request = name

variable {requests : List (Request QUrl)} {cache : Cache QUrl}

theorem WrittenFor.execute (h : WrittenFor lib requests cache) {request : Request QUrl} (hMem : request ∈ requests) :
    WrittenFor lib requests (step lib cache (.execute request)) := by
  rw [step]
  cases loadCached lib cache request with
  | some bytes => exact h
  | none =>
    refine ⟨fun other hTask => ?_, h.files⟩
    rcases List.mem_append.mp hTask with hTask | hTask
    · exact h.tasks other hTask
    · rw [List.mem_singleton.mp hTask]
      exact hMem

theorem WrittenFor.finished (h : WrittenFor lib requests cache) (task : Nat) (bytes : Option QByteArray) :
    WrittenFor lib requests (step lib cache (.finished task bytes)) := by
  have hTasks : ∀ request ∈ cache.tasks.eraseIdx task, request ∈ requests :=
    fun request hTask => h.tasks request (List.mem_of_mem_eraseIdx hTask)
  unfold step
  dsimp only
  cases hTask : cache.tasks[task]? with
  | none => exact ⟨hTasks, h.files⟩
  | some request =>
    cases bytes with
    | none => exact ⟨hTasks, h.files⟩
    | some bytes =>
      refine ⟨hTasks, fun name body hFile => ?_⟩
      dsimp only [writeToCache] at hFile ⊢
      by_cases hName : name = getHash lib request
      · subst hName
        rw [Function.update_self, Option.some_inj] at hFile
        subst hFile
        exact ⟨request, h.tasks request (List.mem_of_getElem? hTask), List.mem_concat_self, rfl⟩
      · rw [Function.update_of_ne hName] at hFile
        obtain ⟨other, hMem, hSucceeded, hHash⟩ := h.files name body hFile
        exact ⟨other, hMem, List.mem_append_left _ hSucceeded, hHash⟩

theorem WrittenFor.allSteps (hFiles : SeparatesFiles lib requests) {events : List (Event QUrl)}
    (h : WrittenFor lib requests cache) (hExecuted : ∀ request ∈ executed events, request ∈ requests) :
    AllSteps (step lib) (AnswersAsBefore lib) cache events := by
  induction events generalizing cache with
  | nil => trivial
  | cons event events ih =>
    cases event with
    | finished task bytes => exact ⟨trivial, ih (h.finished task bytes) hExecuted⟩
    | execute request =>
      rw [executed, List.filterMap_cons, ← executed, List.forall_mem_cons] at hExecuted
      refine ⟨fun bytes hBytes => ?_, ih (h.execute hExecuted.1) hExecuted.2⟩
      obtain ⟨other, hMem, hSucceeded, hHash⟩ := h.files _ bytes hBytes
      rw [hFiles request hExecuted.1 other hMem hHash.symm]
      exact hSucceeded

theorem foldl_execute_empty (requests tasks : List (Request QUrl)) :
    (requests.map Event.execute).foldl (step lib) { tasks } = { tasks := tasks ++ requests } := by
  induction requests generalizing tasks with
  | nil => rw [List.append_nil, List.map_nil, List.foldl_nil]
  | cons request requests ih =>
    rw [List.map_cons, List.foldl_cons, List.append_cons, ← ih]
    rfl

theorem foldl_execute_files (requests : List (Request QUrl)) (cache : Cache QUrl) :
    ((requests.map Event.execute).foldl (step lib) cache).files = cache.files ∧
      ((requests.map Event.execute).foldl (step lib) cache).succeeded = cache.succeeded := by
  induction requests generalizing cache with
  | nil => exact ⟨rfl, rfl⟩
  | cons request requests ih =>
    have hStep : (step lib cache (.execute request)).files = cache.files ∧
        (step lib cache (.execute request)).succeeded = cache.succeeded := by
      rw [step]
      cases loadCached lib cache request <;> exact ⟨rfl, rfl⟩
    rw [List.map_cons, List.foldl_cons, (ih _).1, (ih _).2]
    exact hStep

theorem executed_append (events rest : List (Event QUrl)) : executed (events ++ rest) = executed events ++ executed rest :=
  List.filterMap_append

theorem executed_map (requests : List (Request QUrl)) : executed (requests.map Event.execute) = requests := by
  rw [executed, List.filterMap_map]
  exact List.filterMap_some

theorem eq_of_answersRequests {before between after : List (Request QUrl)} {first second : Request QUrl}
    (h : AnswersRequests lib (before ++ first :: (between ++ second :: after)))
    (hHash : getHash lib first = getHash lib second) : first = second := by
  have hSteps := h ((before ++ [first]).map Event.execute ++ ([.finished before.length (some [])] ++
    (between.map Event.execute ++ (.execute second :: after.map Event.execute)))) (by
      rw [executed_append, executed_append, executed_append, executed_map, executed_map]
      rw [executed, executed, List.filterMap_cons, List.filterMap_cons, List.filterMap_nil, ← executed, executed_map]
      simp only [List.append_assoc, List.nil_append, List.singleton_append])
  rw [AllSteps.append_iff, AllSteps.append_iff, AllSteps.append_iff, foldl_execute_empty, List.nil_append] at hSteps
  obtain ⟨-, -, -, hSecond, -⟩ := hSteps
  have hFinished : step lib { tasks := before ++ [first] } (.finished before.length (some [])) =
      { files := Function.update (fun _ => none) (getHash lib first) (some [])
        tasks := (before ++ [first]).eraseIdx before.length
        succeeded := [(first, [])] } := by
    unfold step
    dsimp only
    rw [List.getElem?_concat_length]
    rfl
  rw [List.foldl_cons, List.foldl_nil, hFinished] at hSecond
  obtain ⟨hFiles, hSucceeded⟩ := @foldl_execute_files _ lib between
    { files := Function.update (fun _ => none) (getHash lib first) (some [])
      tasks := (before ++ [first]).eraseIdx before.length
      succeeded := [(first, [])] }
  have hAnswer := hSecond [] (by
    rw [loadCached, hFiles, ← hHash]
    exact Function.update_self (getHash lib first) (some []) fun _ => none)
  rw [hSucceeded, List.mem_singleton] at hAnswer
  exact (congrArg Prod.fst hAnswer).symm

theorem separatesFiles_of_answersRequests (h : AnswersRequests lib requests) : SeparatesFiles lib requests := by
  intro first hFirst second hSecond hHash
  obtain ⟨before, after, rfl⟩ := List.append_of_mem hFirst
  rcases List.mem_append.mp hSecond with hBefore | hAfter
  · obtain ⟨start, between, rfl⟩ := List.append_of_mem hBefore
    rw [List.append_assoc, List.cons_append] at h
    exact (eq_of_answersRequests h hHash.symm).symm
  · rcases List.mem_cons.mp hAfter with rfl | hAfter
    · rfl
    · obtain ⟨between, rest, rfl⟩ := List.append_of_mem hAfter
      exact eq_of_answersRequests h hHash

theorem separatesFiles_iff (hSha : Set.InjOn lib.sha256 (hashedBytes lib '' {request | request ∈ requests})) :
    SeparatesFiles lib requests ↔ SeparatesTexts lib requests := by
  unfold SeparatesFiles SeparatesTexts
  refine forall₂_congr fun request hRequest => forall₂_congr fun other hOther => ?_
  rw [← hashedBytes_eq, ← hashedBytes_eq, getHash, getHash, toHex_injective.eq_iff]
  rw [hSha.eq_iff ⟨request, hRequest, rfl⟩ ⟨other, hOther, rfl⟩]

/-- A request that the cache answers gets the answer to a request with its URL and headers, exactly if no two of the
requests have one text. -/
theorem answersRequests_iff_separatesTexts
    (hSha : Set.InjOn lib.sha256 (hashedBytes lib '' {request | request ∈ requests})) :
    (AnswersRequests lib requests ↔ SeparatesTexts lib requests) ∧
      (SeparatesFiles lib requests ↔ SeparatesTexts lib requests) := by
  have hFiles := separatesFiles_iff hSha
  refine ⟨⟨fun h => hFiles.mp (separatesFiles_of_answersRequests h), fun h events hEvents => ?_⟩, hFiles⟩
  subst hEvents
  refine WrittenFor.allSteps (hFiles.mpr h) ⟨fun _ hMem => absurd hMem List.not_mem_nil, fun _ _ hFile => ?_⟩ fun _ => id
  cases hFile

end

def texts : Library QString where
  toString := id
  toUtf8 text := text.map UInt16.toUInt8
  sha256 bytes :=
    if bytes = (QString.lit "https://t.tv/aUser-AgentAccept").map UInt16.toUInt8 then
    [0x36, 0x9C, 0x8A, 0x3A, 0x69, 0x5F, 0xFE, 0x4D, 0xDC, 0x5F, 0x56, 0x78, 0xB9, 0xA1, 0xCB, 0x71,
    0xF4, 0xEC, 0x0F, 0x71, 0x85, 0xAE, 0x54, 0x18, 0xEC, 0x33, 0xF3, 0xD2, 0xF3, 0x92, 0x12, 0x4D]
    else
    [0xB6, 0x1D, 0x31, 0x58, 0xB1, 0xA0, 0x07, 0x6D, 0x39, 0xFD, 0x11, 0xDF, 0x1B, 0x11, 0x72, 0xB5,
    0x42, 0x9B, 0x6B, 0x16, 0x74, 0x37, 0xBE, 0x18, 0x26, 0x13, 0x68, 0x97, 0xCC, 0x36, 0x26, 0x66]

def requestFor (url accept : QString) : Request QString where
  url := url
  headers := [(texts.toUtf8 (QString.lit "User-Agent"), texts.toUtf8 (QString.lit "chatterino/7.5.4")),
    (texts.toUtf8 (QString.lit "Accept"), texts.toUtf8 accept)]

theorem answersRequests_iff_separatesTexts_twoUrls :
    AnswersRequests texts [requestFor (QString.lit "https://t.tv/a") (QString.lit "text/html"),
      requestFor (QString.lit "https://t.tv/b") (QString.lit "text/html")] := by
  refine (answersRequests_iff_separatesTexts ?_).1.mpr ?_
  · rintro _ ⟨request, hRequest, rfl⟩ _ ⟨other, hOther, rfl⟩ hHash
    simp only [Set.mem_ofPred_eq, List.mem_cons, List.not_mem_nil, or_false] at hRequest hOther
    rcases hRequest with rfl | rfl <;> rcases hOther with rfl | rfl
    · rfl
    · exact absurd hHash (by decide)
    · exact absurd hHash (by decide)
    · rfl
  · intro request hRequest other hOther hTexts
    simp only [List.mem_cons, List.not_mem_nil, or_false] at hRequest hOther
    rcases hRequest with rfl | rfl <;> rcases hOther with rfl | rfl
    · rfl
    · exact absurd hTexts (by decide)
    · exact absurd hTexts (by decide)
    · rfl

theorem not_answersRequests_otherValue :
    ¬ AnswersRequests texts [requestFor (QString.lit "https://t.tv/a") (QString.lit "text/html"),
      requestFor (QString.lit "https://t.tv/a") (QString.lit "text/plain")] := by
  intro h
  have hSame := @eq_of_answersRequests _ texts [] [] [] _ _ h (by decide)
  exact absurd (congrArg Request.headers hSame) (by decide)

end Chatterino.HttpCache
