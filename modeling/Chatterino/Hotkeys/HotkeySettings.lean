import Chatterino.Hotkeys.HotkeyModel
import Mathlib.Data.List.Dedup
import Mathlib.Data.List.Sort

/-! # Saved hotkeys

The settings store a value at a path as nested objects, one for each part between slashes. What lies
under `/hotkeys` is kept as its values by path. Key sequences are taken as the texts they are stored
as.
-/

namespace Chatterino.Hotkeys

open QString

abbrev Path := List QString

inductive Value where
  | string (text : QString)
  | array (texts : List QString)
  deriving DecidableEq

abbrev Settings := List (Path × Value)

namespace Settings

/-- A value replaces what is at its path, below it, or a value on the way to it. -/
def set (settings : Settings) (path : Path) (value : Value) : Settings :=
  settings.filter (fun entry => ¬(path <+: entry.1 ∨ entry.1 <+: path)) ++ [(path, value)]

def get (settings : Settings) (path : Path) : Option Value :=
  (settings.find? fun entry => entry.1 = path).map Prod.snd

def getString (settings : Settings) (path : Path) : QString :=
  match settings.get path with
  | some (.string text) => text
  | _ => []

def getArray (settings : Settings) (path : Path) : List QString :=
  match settings.get path with
  | some (.array texts) => texts
  | _ => []

def getObjectKeys (settings : Settings) : List QString := (settings.filterMap fun entry => entry.1.head?).dedup

end Settings

/-- A hotkey with what the table does not show. -/
structure FullHotkey extends Hotkey where
  action : QString
  arguments : List QString
  deriving DecidableEq

structure HotkeyController where
  settings : Settings
  hotkeys_ : List FullHotkey

def HotkeyCategory.name : HotkeyCategory → QString
  | .PopupWindow => lit "popupWindow"
  | .Split => lit "split"
  | .SplitInput => lit "splitInput"
  | .Window => lit "window"

def hotkeyCategoryFromName (categoryName : QString) : Option HotkeyCategory :=
  categories.find? fun category => category.name = categoryName

def addedDefaults : QString := lit "addedDefaults"

def section_ (name : QString) : Path := name.splitOn 0x2F

def append (hotkeys : List FullHotkey) (hotkey : FullHotkey) : List FullHotkey :=
  hotkeys.orderedInsert (fun a b => hotkeySortCompare_ b.toHotkey a.toHotkey = false) hotkey

def saveHotkey (settings : Settings) (hotkey : FullHotkey) : Settings :=
  (((settings.set (section_ hotkey.name ++ [lit "action"]) (.string hotkey.action)).set
    (section_ hotkey.name ++ [lit "keySequence"]) (.string hotkey.keySequence)).set
    (section_ hotkey.name ++ [lit "category"]) (.string hotkey.category.name)).set
    (section_ hotkey.name ++ [lit "arguments"]) (.array hotkey.arguments)

def saveHotkeys (settings : Settings) (hotkeys : List FullHotkey) : Settings :=
  hotkeys.foldl saveHotkey (Settings.set [] [addedDefaults] (.array (settings.getArray [addedDefaults])))

def tryAddDefault (added : List FullHotkey × List QString) (hotkey : FullHotkey) :
    List FullHotkey × List QString :=
  if hotkey.name ∈ added.2 then added else (append added.1 hotkey, added.2 ++ [hotkey.name])

def loadHotkey (settings : Settings) (key : QString) : Option FullHotkey :=
  if key = addedDefaults then none
  else
    let categoryName := settings.getString (section_ key ++ [lit "category"])
    let keySequence := settings.getString (section_ key ++ [lit "keySequence"])
    let action := settings.getString (section_ key ++ [lit "action"])
    if categoryName = [] ∨ keySequence = [] ∨ action = [] then none
    else
      (hotkeyCategoryFromName categoryName).map fun category =>
        ⟨⟨key, category, keySequence⟩, action, settings.getArray (section_ key ++ [lit "arguments"])⟩

/-- A controller that has loaded the settings, and saved them if there are new defaults. -/
def loadHotkeys (defaults : List FullHotkey) (settings : Settings) : HotkeyController :=
  let set := (settings.getArray [addedDefaults]).dedup
  let added := defaults.foldl tryAddDefault ([], set)
  let loaded := settings.set [addedDefaults] (.array added.2)
  let hotkeys := (settings.getObjectKeys.filterMap (loadHotkey loaded)).foldl append added.1
  ⟨if set.length = added.2.length then loaded else saveHotkeys loaded hotkeys, hotkeys⟩

namespace HotkeyController

variable (self : HotkeyController)

def getHotkeyByName (name : QString) : Option FullHotkey := self.hotkeys_.find? fun hotkey => hotkey.name = name

def replaceHotkey (oldName : QString) (newHotkey : FullHotkey) : HotkeyController :=
  { self with
    hotkeys_ := append (self.hotkeys_.eraseP fun hotkey => hotkey.name = oldName) newHotkey }

/-- What the dialog accepts, when it edits the hotkey of a name. -/
structure Accepts (controller : HotkeyController) (edited : Option QString) (hotkey : FullHotkey) : Prop where
  name : hotkey.name ≠ []
  unused : controller.getHotkeyByName hotkey.name = none ∨ edited = some hotkey.name
  keySequence : hotkey.keySequence ≠ []
  action : hotkey.action ≠ []

end HotkeyController

/-- The controllers reached from the first start by edits and saves. -/
inductive Reached (defaults : List FullHotkey) : HotkeyController → Prop
  | start : Reached defaults (loadHotkeys defaults [])
  | add {self : HotkeyController} {hotkey : FullHotkey} : Reached defaults self → self.Accepts none hotkey →
      Reached defaults { self with hotkeys_ := append self.hotkeys_ hotkey }
  | replace {self : HotkeyController} {old hotkey : FullHotkey} : Reached defaults self → old ∈ self.hotkeys_ →
      self.Accepts (some old.name) hotkey → Reached defaults (self.replaceHotkey old.name hotkey)
  | remove {self : HotkeyController} (index : Nat) : Reached defaults self →
      Reached defaults { self with hotkeys_ := self.hotkeys_.eraseIdx index }
  | save {self : HotkeyController} : Reached defaults self →
      Reached defaults { self with settings := saveHotkeys self.settings self.hotkeys_ }

/-- A new controller loads the hotkeys that were saved, and no default that was removed. -/
structure Survives (defaults : List FullHotkey) (controller : HotkeyController) : Prop where
  same : (loadHotkeys defaults (saveHotkeys controller.settings controller.hotkeys_)).hotkeys_.Perm controller.hotkeys_
  removed : ∀ hotkey ∈ defaults, controller.getHotkeyByName hotkey.name = none →
    (loadHotkeys defaults (saveHotkeys controller.settings controller.hotkeys_)).getHotkeyByName hotkey.name = none

/-- A name that is one key of the stored object, and not that of the list of defaults. -/
def IsKey (name : QString) : Prop := 0x2F ∉ name ∧ name ≠ addedDefaults

instance (name : QString) : Decidable (IsKey name) := inferInstanceAs (Decidable (_ ∧ _))

namespace Settings

variable {settings : Settings} {path other : Path}

theorem get_set_self (value : Value) : (settings.set path value).get path = some value := by
  have hNone : (settings.filter fun entry => ¬(path <+: entry.1 ∨ entry.1 <+: path)).find?
      (fun entry => entry.1 = path) = none := by
    refine List.find?_eq_none.mpr fun entry hEntry hPath => ?_
    have hApart := of_decide_eq_true (List.mem_filter.mp hEntry).2
    rw [of_decide_eq_true hPath] at hApart
    exact hApart (.inl (List.prefix_refl path))
  rw [set, get, List.find?_append, hNone, Option.none_or, List.find?_cons_of_pos (by simp)]
  rfl

theorem get_set_of_apart (h : ¬(path <+: other ∨ other <+: path)) (value : Value) :
    (settings.set path value).get other = settings.get other := by
  have hNe : path ≠ other := by
    rintro rfl
    exact h (.inl (List.prefix_refl path))
  have hLast : [(path, value)].find? (fun entry => entry.1 = other) = none := by
    rw [List.find?_cons_of_neg (by simpa using hNe), List.find?_nil]
  rw [set, get, get, List.find?_append, hLast, Option.or_none, List.find?_filter]
  refine congrArg (Option.map Prod.snd) (congrFun (congrArg List.find? (funext fun entry => ?_)) settings)
  by_cases hPath : entry.1 = other
  · simp [hPath, h]
  · simp [hPath]

theorem mem_getObjectKeys {key : QString} :
    key ∈ settings.getObjectKeys ↔ ∃ entry ∈ settings, entry.1.head? = some key := by
  rw [getObjectKeys, List.mem_dedup, List.mem_filterMap]

/-- Setting a value adds the first key of its path, and no other. -/
theorem mem_getObjectKeys_set {first key : QString} {rest : Path} {value : Value} :
    key ∈ (settings.set (first :: rest) value).getObjectKeys ↔ key ∈ settings.getObjectKeys ∨ key = first := by
  rw [mem_getObjectKeys, mem_getObjectKeys, set]
  constructor
  · rintro ⟨entry, hEntry, hKey⟩
    rcases List.mem_append.mp hEntry with hEntry | hEntry
    · exact .inl ⟨entry, List.mem_of_mem_filter hEntry, hKey⟩
    · rw [List.mem_singleton.mp hEntry] at hKey
      exact .inr (Option.some.inj hKey).symm
  · rintro (⟨entry, hEntry, hKey⟩ | rfl)
    · by_cases hRelated : first :: rest <+: entry.1 ∨ entry.1 <+: first :: rest
      · refine ⟨_, List.mem_append_right _ (List.mem_singleton_self _), ?_⟩
        obtain ⟨tail, hPath⟩ := List.head?_eq_some_iff.mp hKey
        rw [hPath, List.cons_prefix_cons, List.cons_prefix_cons] at hRelated
        rcases hRelated with ⟨rfl, -⟩ | ⟨rfl, -⟩
        · rfl
        · rfl
      · exact ⟨entry, List.mem_append_left _ (List.mem_filter.mpr ⟨hEntry, decide_eq_true hRelated⟩), hKey⟩
    · exact ⟨_, List.mem_append_right _ (List.mem_singleton_self _), rfl⟩

end Settings

section

variable {settings : Settings} {hotkeys : List FullHotkey} {hotkey : FullHotkey}

theorem section_of_isKey {name : QString} (h : IsKey name) : section_ name = [name] :=
  List.splitOn_eq_singleton h.1

theorem exists_section (name : QString) : ∃ first rest, section_ name = first :: rest ∧ 0x2F ∉ first := by
  obtain ⟨first, rest, hSection⟩ := List.exists_cons_of_ne_nil (List.splitOn_ne_nil 0x2F name)
  exact ⟨first, rest, hSection, not_mem_of_mem_splitOn (hSection ▸ List.mem_cons_self)⟩

theorem mem_getObjectKeys_saveHotkeys {key : QString} : key ∈ (saveHotkeys settings hotkeys).getObjectKeys ↔
    key = addedDefaults ∨ ∃ hotkey ∈ hotkeys, (section_ hotkey.name).head? = some key := by
  have hFold (stored : Settings) : key ∈ (hotkeys.foldl saveHotkey stored).getObjectKeys ↔
      key ∈ stored.getObjectKeys ∨ ∃ hotkey ∈ hotkeys, (section_ hotkey.name).head? = some key := by
    induction hotkeys generalizing stored with
    | nil => simp
    | cons hotkey hotkeys ih =>
      obtain ⟨first, rest, hSection, -⟩ := exists_section hotkey.name
      rw [List.foldl_cons, ih, saveHotkey, hSection]
      simp only [List.cons_append, Settings.mem_getObjectKeys_set, List.exists_mem_cons_iff, hSection, List.head?_cons,
        Option.some.injEq, @eq_comm _ first key]
      tauto
  rw [saveHotkeys, hFold, Settings.mem_getObjectKeys_set, Settings.mem_getObjectKeys]
  simp

theorem get_saveHotkey_of_ne {name : QString} (h : IsKey hotkey.name) (hNe : hotkey.name ≠ name) (rest : Path) :
    (saveHotkey settings hotkey).get (name :: rest) = settings.get (name :: rest) := by
  have hApart (field : QString) : ¬([hotkey.name] ++ [field] <+: name :: rest ∨ name :: rest <+: [hotkey.name] ++ [field]) := by
    rw [List.singleton_append, List.cons_prefix_cons, List.cons_prefix_cons]
    rintro (⟨hName, -⟩ | ⟨hName, -⟩)
    · exact hNe hName
    · exact hNe hName.symm
  rw [saveHotkey, section_of_isKey h, Settings.get_set_of_apart (hApart _), Settings.get_set_of_apart (hApart _),
    Settings.get_set_of_apart (hApart _), Settings.get_set_of_apart (hApart _)]

theorem get_foldl_of_ne {name : QString} (h : ∀ hotkey ∈ hotkeys, IsKey hotkey.name ∧ hotkey.name ≠ name) (rest : Path) :
    (hotkeys.foldl saveHotkey settings).get (name :: rest) = settings.get (name :: rest) := by
  induction hotkeys generalizing settings with
  | nil => rfl
  | cons hotkey hotkeys ih =>
    obtain ⟨⟨hKey, hNe⟩, h⟩ := List.forall_mem_cons.mp h
    rw [List.foldl_cons, ih h, get_saveHotkey_of_ne hKey hNe]

theorem hotkeyCategoryFromName_name (category : HotkeyCategory) : hotkeyCategoryFromName category.name = some category := by
  cases category <;> rfl

theorem name_ne_nil (category : HotkeyCategory) : category.name ≠ [] := by
  cases category <;> decide

theorem loadHotkey_saveHotkey (hKey : IsKey hotkey.name) (hSequence : hotkey.keySequence ≠ []) (hAction : hotkey.action ≠ []) :
    loadHotkey (saveHotkey settings hotkey) hotkey.name = some hotkey := by
  have hApart {a b : QString} (hNe : a ≠ b) :
      ¬([hotkey.name, a] <+: [hotkey.name, b] ∨ [hotkey.name, b] <+: [hotkey.name, a]) := by
    simp [hNe, hNe.symm]
  have hSaved : saveHotkey settings hotkey = (((settings.set [hotkey.name, lit "action"] (.string hotkey.action)).set
      [hotkey.name, lit "keySequence"] (.string hotkey.keySequence)).set
      [hotkey.name, lit "category"] (.string hotkey.category.name)).set
      [hotkey.name, lit "arguments"] (.array hotkey.arguments) := by
    rw [saveHotkey, section_of_isKey hKey]
    rfl
  have hArguments : (saveHotkey settings hotkey).getArray [hotkey.name, lit "arguments"] = hotkey.arguments := by
    rw [hSaved, Settings.getArray, Settings.get_set_self]
  have hCategory : (saveHotkey settings hotkey).getString [hotkey.name, lit "category"] = hotkey.category.name := by
    rw [hSaved, Settings.getString, Settings.get_set_of_apart (hApart (by decide)), Settings.get_set_self]
  have hKeys : (saveHotkey settings hotkey).getString [hotkey.name, lit "keySequence"] = hotkey.keySequence := by
    rw [hSaved, Settings.getString, Settings.get_set_of_apart (hApart (by decide)),
      Settings.get_set_of_apart (hApart (by decide)), Settings.get_set_self]
  have hActionSaved : (saveHotkey settings hotkey).getString [hotkey.name, lit "action"] = hotkey.action := by
    rw [hSaved, Settings.getString, Settings.get_set_of_apart (hApart (by decide)),
      Settings.get_set_of_apart (hApart (by decide)), Settings.get_set_of_apart (hApart (by decide)), Settings.get_set_self]
  simp only [loadHotkey, if_neg hKey.2, section_of_isKey hKey, List.singleton_append, hCategory, hKeys, hActionSaved,
    hArguments, name_ne_nil, hSequence, hAction, or_self, if_false, hotkeyCategoryFromName_name, Option.map_some]

theorem loadHotkey_congr {stored : Settings} {key : QString} (hKey : 0x2F ∉ key)
    (h : ∀ field, stored.get [key, field] = settings.get [key, field]) : loadHotkey stored key = loadHotkey settings key := by
  have hSection : section_ key = [key] := List.splitOn_eq_singleton hKey
  simp only [loadHotkey, hSection, List.singleton_append, Settings.getString, Settings.getArray, h]

theorem name_of_loadHotkey {key : QString} (h : loadHotkey settings key = some hotkey) :
    hotkey.name = key ∧ key ≠ addedDefaults := by
  rw [loadHotkey] at h
  split_ifs at h with hKey
  dsimp only at h
  split_ifs at h
  obtain ⟨category, -, rfl⟩ := Option.map_eq_some_iff.mp h
  exact ⟨rfl, hKey⟩

/-- The value of the list of defaults does not matter to a hotkey. -/
theorem loadHotkey_set {key : QString} {value : Value} (hKey : 0x2F ∉ key) :
    loadHotkey (settings.set [addedDefaults] value) key = loadHotkey settings key := by
  by_cases hDefaults : key = addedDefaults
  · rw [loadHotkey, loadHotkey, if_pos hDefaults, if_pos hDefaults]
  · refine loadHotkey_congr hKey fun field => Settings.get_set_of_apart ?_ value
    rw [List.cons_prefix_cons, List.cons_prefix_cons]
    rintro (⟨hName, -⟩ | ⟨hName, -⟩)
    · exact hDefaults hName.symm
    · exact hDefaults hName

theorem perm_append (hotkeys : List FullHotkey) (hotkey : FullHotkey) : (append hotkeys hotkey).Perm (hotkey :: hotkeys) :=
  List.perm_orderedInsert _ _ _

theorem perm_foldl_append (hotkeys more : List FullHotkey) : (more.foldl append hotkeys).Perm (more ++ hotkeys) := by
  induction more generalizing hotkeys with
  | nil => rfl
  | cons hotkey more ih =>
    exact (ih _).trans (((perm_append hotkeys hotkey).append_left more).trans List.perm_middle)

/-- What is added to a set of names: hotkeys with names of their own, which the set did not have. -/
structure Added (names : List QString) (added : List FullHotkey × List QString) : Prop where
  distinct : (added.1.map fun hotkey => hotkey.name).Nodup
  named : ∀ name, name ∈ added.2 ↔ name ∈ names ∨ ∃ hotkey ∈ added.1, hotkey.name = name
  new : ∀ hotkey ∈ added.1, hotkey.name ∉ names

theorem Added.tryAddDefault {names : List QString} {added : List FullHotkey × List QString} (h : Added names added)
    (hotkey : FullHotkey) : Added names (tryAddDefault added hotkey) := by
  rw [Hotkeys.tryAddDefault]
  split_ifs with hMem
  · exact h
  have hPerm := perm_append added.1 hotkey
  rw [h.named, not_or, not_exists] at hMem
  refine ⟨(hPerm.map _).nodup_iff.mpr (List.nodup_cons.mpr ⟨fun hName => ?_, h.distinct⟩), fun name => ?_, fun other hOther => ?_⟩
  · obtain ⟨other, hOther⟩ := List.mem_map.mp hName
    exact hMem.2 other hOther
  · simp only [List.mem_append, h.named, List.mem_singleton, hPerm.mem_iff, List.exists_mem_cons_iff, @eq_comm _ name]
    exact or_assoc.trans (or_congr_right or_comm)
  · rcases List.mem_cons.mp (hPerm.mem_iff.mp hOther) with rfl | hOther
    · exact hMem.1
    · exact h.new other hOther

theorem mem_tryAddDefault {added : List FullHotkey × List QString} {other : FullHotkey}
    (h : other ∈ (tryAddDefault added hotkey).1) : other = hotkey ∨ other ∈ added.1 := by
  rw [tryAddDefault] at h
  split_ifs at h
  · exact .inr h
  · exact List.mem_cons.mp ((perm_append _ _).mem_iff.mp h)

/-- Every default is named afterwards, and what was added is a default. -/
theorem foldl_tryAddDefault (names : List QString) {added : List FullHotkey × List QString} (h : Added names added)
    (defaults : List FullHotkey) : Added names (defaults.foldl tryAddDefault added) ∧
      (∀ hotkey ∈ defaults, hotkey.name ∈ (defaults.foldl tryAddDefault added).2) ∧
      (∀ name ∈ added.2, name ∈ (defaults.foldl tryAddDefault added).2) ∧
      ∀ hotkey ∈ (defaults.foldl tryAddDefault added).1, hotkey ∈ defaults ∨ hotkey ∈ added.1 := by
  induction defaults generalizing added with
  | nil => exact ⟨h, List.forall_mem_nil _, fun name hName => hName, fun hotkey hMem => .inr hMem⟩
  | cons default defaults ih =>
    obtain ⟨hAdded, hNamed, hKept, hFrom⟩ := ih (h.tryAddDefault default)
    have hKeeps : ∀ name ∈ default.name :: added.2, name ∈ (tryAddDefault added default).2 := by
      intro name hName
      rw [tryAddDefault]
      split_ifs with hMem
      · rcases List.mem_cons.mp hName with rfl | hName
        · exact hMem
        · exact hName
      · exact List.mem_append.mpr ((List.mem_cons.mp hName).symm.imp id List.mem_singleton.mpr)
    refine ⟨hAdded, List.forall_mem_cons.mpr ⟨hKept _ (hKeeps _ List.mem_cons_self), hNamed⟩,
      fun name hName => hKept _ (hKeeps _ (List.mem_cons_of_mem _ hName)), fun hotkey hMem => ?_⟩
    rcases hFrom hotkey hMem with hMem | hMem
    · exact .inl (List.mem_cons_of_mem _ hMem)
    · rcases mem_tryAddDefault hMem with rfl | hMem
      · exact .inl List.mem_cons_self
      · exact .inr hMem

end

section

variable {defaults : List FullHotkey} {self : HotkeyController}

/-- What the edits keep: every name once, and nothing that a load would skip. -/
structure Sound (hotkeys : List FullHotkey) : Prop where
  distinct : (hotkeys.map fun hotkey => hotkey.name).Nodup
  filled : ∀ hotkey ∈ hotkeys, hotkey.keySequence ≠ [] ∧ hotkey.action ≠ []

theorem Sound.append {hotkeys : List FullHotkey} {hotkey : FullHotkey} (h : Sound hotkeys)
    (hNew : ∀ other ∈ hotkeys, other.name ≠ hotkey.name) (hFilled : hotkey.keySequence ≠ [] ∧ hotkey.action ≠ []) :
    Sound (append hotkeys hotkey) := by
  have hPerm := perm_append hotkeys hotkey
  refine ⟨(hPerm.map _).nodup_iff.mpr (List.nodup_cons.mpr ⟨fun hName => ?_, h.distinct⟩), fun other hOther => ?_⟩
  · obtain ⟨other, hOther, hSame⟩ := List.mem_map.mp hName
    exact hNew other hOther hSame
  · rcases List.mem_cons.mp (hPerm.mem_iff.mp hOther) with rfl | hOther
    · exact hFilled
    · exact h.filled other hOther

theorem Sound.sublist {hotkeys fewer : List FullHotkey} (h : Sound hotkeys) (hSublist : fewer.Sublist hotkeys) :
    Sound fewer :=
  ⟨h.distinct.sublist (hSublist.map _), fun hotkey hMem => h.filled hotkey (hSublist.subset hMem)⟩

theorem Sound.name_ne_of_mem_eraseP {hotkeys : List FullHotkey} (h : Sound hotkeys) {name : QString} {other : FullHotkey}
    (hMem : other ∈ hotkeys.eraseP fun hotkey => hotkey.name = name) : other.name ≠ name := by
  induction hotkeys with
  | nil => cases hMem
  | cons hotkey hotkeys ih =>
    have hFresh := (List.nodup_cons.mp h.distinct).1
    rw [List.eraseP_cons, Bool.cond_decide] at hMem
    split_ifs at hMem with hName
    · rintro rfl
      exact hFresh (List.mem_map.mpr ⟨other, hMem, hName.symm⟩)
    · rcases List.mem_cons.mp hMem with rfl | hMem
      · exact hName
      · exact ih (h.sublist (List.sublist_cons_self _ _)) hMem

theorem getHotkeyByName_eq_none_iff {name : QString} :
    self.getHotkeyByName name = none ↔ ∀ hotkey ∈ self.hotkeys_, hotkey.name ≠ name := by
  rw [HotkeyController.getHotkeyByName, List.find?_eq_none]
  simp only [decide_eq_true_eq, ne_eq]

theorem added_nil (names : List QString) : Added names ([], names) := ⟨List.nodup_nil, by simp, by simp⟩

theorem Reached.sound (hFilled : ∀ hotkey ∈ defaults, hotkey.keySequence ≠ [] ∧ hotkey.action ≠ [])
    (h : Reached defaults self) : Sound self.hotkeys_ := by
  induction h with
  | start =>
    obtain ⟨hAdded, -, -, hFrom⟩ := foldl_tryAddDefault [] (added_nil []) defaults
    refine ⟨hAdded.distinct, fun hotkey hMem => hFilled hotkey ?_⟩
    exact (hFrom hotkey hMem).resolve_right List.not_mem_nil
  | add h hAccepts ih =>
    have hNone := getHotkeyByName_eq_none_iff.mp (hAccepts.unused.resolve_right (by simp))
    exact ih.append hNone ⟨hAccepts.keySequence, hAccepts.action⟩
  | replace h hOld hAccepts ih =>
    refine (ih.sublist List.eraseP_sublist).append (fun other hOther => ?_) ⟨hAccepts.keySequence, hAccepts.action⟩
    rcases hAccepts.unused with hNone | hSame
    · exact getHotkeyByName_eq_none_iff.mp hNone other (List.eraseP_sublist.subset hOther)
    · exact Option.some.inj hSame ▸ ih.name_ne_of_mem_eraseP hOther
  | remove index h ih => exact ih.sublist (List.eraseIdx_sublist _ _)
  | save h ih => exact ih

theorem perm_loadHotkeys (defaults : List FullHotkey) (settings : Settings) :
    ∃ added value, Added (settings.getArray [addedDefaults]).dedup added ∧
      (∀ hotkey ∈ added.1, hotkey ∈ defaults) ∧ (∀ hotkey ∈ defaults, hotkey.name ∈ added.2) ∧
      (loadHotkeys defaults settings).hotkeys_.Perm
        (settings.getObjectKeys.filterMap (loadHotkey (settings.set [addedDefaults] value)) ++ added.1) := by
  obtain ⟨hAdded, hNamed, -, hFrom⟩ :=
    foldl_tryAddDefault (settings.getArray [addedDefaults]).dedup (added_nil _) defaults
  exact ⟨_, _, hAdded, fun hotkey hMem => (hFrom hotkey hMem).resolve_right List.not_mem_nil, hNamed, perm_foldl_append _ _⟩

theorem loadHotkey_saveHotkeys {hotkeys : List FullHotkey} (h : Sound hotkeys) (hKeys : ∀ hotkey ∈ hotkeys, IsKey hotkey.name)
    {hotkey : FullHotkey} (hMem : hotkey ∈ hotkeys) (settings : Settings) :
    loadHotkey (saveHotkeys settings hotkeys) hotkey.name = some hotkey := by
  obtain ⟨before, after, rfl⟩ := List.append_of_mem hMem
  obtain ⟨hSequence, hAction⟩ := h.filled hotkey hMem
  have hAfter : ∀ other ∈ after, IsKey other.name ∧ other.name ≠ hotkey.name := by
    intro other hOther
    refine ⟨hKeys other (List.mem_append_right _ (List.mem_cons_of_mem _ hOther)), fun hSame => ?_⟩
    have hDistinct := h.sublist (List.sublist_append_right before _)
    exact (List.nodup_cons.mp hDistinct.distinct).1 (List.mem_map.mpr ⟨other, hOther, hSame⟩)
  rw [saveHotkeys, List.foldl_append, List.foldl_cons, loadHotkey_congr (hKeys hotkey hMem).1 fun field =>
    get_foldl_of_ne hAfter [field]]
  exact loadHotkey_saveHotkey (hKeys hotkey hMem) hSequence hAction

theorem getArray_saveHotkeys {hotkeys : List FullHotkey} (hKeys : ∀ hotkey ∈ hotkeys, IsKey hotkey.name) (settings : Settings) :
    (saveHotkeys settings hotkeys).getArray [addedDefaults] = settings.getArray [addedDefaults] := by
  rw [Settings.getArray, saveHotkeys, get_foldl_of_ne (fun hotkey hMem => ⟨hKeys hotkey hMem, (hKeys hotkey hMem).2⟩) [],
    Settings.get_set_self]

theorem mem_filterMap_saveHotkeys {hotkeys : List FullHotkey} (h : Sound hotkeys) (hKeys : ∀ hotkey ∈ hotkeys, IsKey hotkey.name)
    (settings : Settings) (value : Value) {hotkey : FullHotkey} :
    hotkey ∈ (saveHotkeys settings hotkeys).getObjectKeys.filterMap
      (loadHotkey ((saveHotkeys settings hotkeys).set [addedDefaults] value)) ↔ hotkey ∈ hotkeys := by
  have hLoad {other : FullHotkey} (hOther : other ∈ hotkeys) :
      loadHotkey ((saveHotkeys settings hotkeys).set [addedDefaults] value) other.name = some other :=
    (loadHotkey_set (hKeys other hOther).1).trans (loadHotkey_saveHotkeys h hKeys hOther settings)
  have hHead {other : FullHotkey} (hOther : other ∈ hotkeys) : (section_ other.name).head? = some other.name := by
    rw [section_of_isKey (hKeys other hOther), List.head?_cons]
  rw [List.mem_filterMap]
  constructor
  · rintro ⟨key, hKey, hLoaded⟩
    rcases mem_getObjectKeys_saveHotkeys.mp hKey with rfl | ⟨other, hOther, hFirst⟩
    · exact absurd rfl (name_of_loadHotkey hLoaded).2
    · obtain rfl := Option.some.inj ((hHead hOther).symm.trans hFirst)
      exact Option.some.inj ((hLoad hOther).symm.trans hLoaded) ▸ hOther
  · exact fun hMem => ⟨hotkey.name, mem_getObjectKeys_saveHotkeys.mpr (.inr ⟨hotkey, hMem, hHead hMem⟩), hLoad hMem⟩

theorem nodup_filterMap_loadHotkey (settings stored : Settings) : (settings.getObjectKeys.filterMap (loadHotkey stored)).Nodup :=
  (List.nodup_dedup _).filterMap fun _ _ _ hLeft hRight =>
    (name_of_loadHotkey hLeft).1.symm.trans (name_of_loadHotkey hRight).1

/-- No loaded hotkey has the name of the list, or one that is not a key. -/
theorem isKey_of_survives (hDefaults : ∀ hotkey ∈ defaults, IsKey hotkey.name) (h : Survives defaults self)
    {hotkey : FullHotkey} (hMem : hotkey ∈ self.hotkeys_) : IsKey hotkey.name := by
  obtain ⟨added, value, -, hFrom, -, hLoaded⟩ := perm_loadHotkeys defaults (saveHotkeys self.settings self.hotkeys_)
  rcases List.mem_append.mp ((h.same.symm.trans hLoaded).mem_iff.mp hMem) with hStored | hAdded
  · obtain ⟨key, hKey, hLoad⟩ := List.mem_filterMap.mp hStored
    obtain ⟨hName, hNe⟩ := name_of_loadHotkey hLoad
    rw [hName]
    refine ⟨?_, hNe⟩
    obtain ⟨other, -, hFirst⟩ := (mem_getObjectKeys_saveHotkeys.mp hKey).resolve_left hNe
    obtain ⟨first, rest, hSection, hSlash⟩ := exists_section other.name
    rw [hSection, List.head?_cons] at hFirst
    exact Option.some.inj hFirst ▸ hSlash
  · exact hDefaults hotkey (hFrom hotkey hAdded)

theorem survives_iff
    (hDefaults : ∀ hotkey ∈ defaults, IsKey hotkey.name ∧ hotkey.keySequence ≠ [] ∧ hotkey.action ≠ [])
    (h : Reached defaults self) :
    Survives defaults self ↔ (∀ hotkey ∈ self.hotkeys_, IsKey hotkey.name) ∧
      ∀ hotkey ∈ defaults, hotkey.name ∈ self.settings.getArray [addedDefaults] := by
  have hSound := h.sound fun hotkey hMem => (hDefaults hotkey hMem).2
  obtain ⟨added, value, hAdded, hFrom, hNamed, hLoaded⟩ := perm_loadHotkeys defaults (saveHotkeys self.settings self.hotkeys_)
  have hDistinct : self.hotkeys_.Nodup := hSound.distinct.of_map _
  constructor
  · intro hSurvives
    have hKeys : ∀ hotkey ∈ self.hotkeys_, IsKey hotkey.name := fun hotkey hMem =>
      isKey_of_survives (fun hotkey hMem => (hDefaults hotkey hMem).1) hSurvives hMem
    refine ⟨hKeys, fun default hDefault => ?_⟩
    rw [getArray_saveHotkeys hKeys] at hAdded
    rcases (hAdded.named default.name).mp (hNamed default hDefault) with hListed | ⟨hotkey, hMem, -⟩
    · exact List.mem_dedup.mp hListed
    -- a default that was not listed is added again, beside the one that was saved
    have hBoth := (hLoaded.symm.trans hSurvives.same).nodup_iff.mpr hDistinct
    have hStored := (hLoaded.symm.trans hSurvives.same).mem_iff.mp (List.mem_append_right _ hMem)
    exact absurd hMem (List.disjoint_of_nodup_append hBoth ((mem_filterMap_saveHotkeys hSound hKeys _ _).mpr hStored))
  · rintro ⟨hKeys, hListed⟩
    have hNone : added.1 = [] := by
      refine List.eq_nil_iff_forall_not_mem.mpr fun hotkey hMem => hAdded.new hotkey hMem ?_
      rw [getArray_saveHotkeys hKeys]
      exact List.mem_dedup.mpr (hListed hotkey (hFrom hotkey hMem))
    rw [hNone, List.append_nil] at hLoaded
    have hSame := hLoaded.trans ((List.perm_ext_iff_of_nodup (nodup_filterMap_loadHotkey _ _) hDistinct).mpr fun hotkey =>
      mem_filterMap_saveHotkeys hSound hKeys _ _)
    refine ⟨hSame, fun hotkey hMem hRemoved => getHotkeyByName_eq_none_iff.mpr fun other hOther => ?_⟩
    exact getHotkeyByName_eq_none_iff.mp hRemoved other (hSame.mem_iff.mp hOther)

end

def closePopup : FullHotkey := ⟨⟨lit "close popup window", .PopupWindow, lit "Esc"⟩, lit "delete", []⟩

theorem survives_closePopup : Survives [closePopup] (loadHotkeys [closePopup] []) :=
  (survives_iff (by decide) .start).mpr ⟨by decide, by decide⟩

def slashed : FullHotkey := ⟨⟨lit "zoom in/out", .Window, lit "F1"⟩, lit "zoom", [lit "reset"]⟩

theorem not_survives_slashed : ∃ controller, Reached [closePopup] controller ∧ slashed ∈ controller.hotkeys_ ∧
    ¬Survives [closePopup] controller := by
  have hAccepts : (loadHotkeys [closePopup] []).Accepts none slashed :=
    ⟨by decide, .inl (by decide), by decide, by decide⟩
  refine ⟨_, .add .start hAccepts, by decide, fun h => absurd h.same (by decide)⟩

end Chatterino.Hotkeys
