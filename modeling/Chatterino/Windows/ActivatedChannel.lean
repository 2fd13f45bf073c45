import Chatterino.Lib.ListSearch
import Chatterino.Windows.SavedTabs

/-! # Activating a channel

The layout that is started with is the saved one, or one for a channel that is asked for on the command
line: of the tabs in the main window, the one that suits the channel best is selected.
-/

namespace Chatterino.Splits.NodeDescriptor

variable {σ F : Type}

mutual

def splits : NodeDescriptor σ F → List σ
  | .split descriptor _ _ => [descriptor]
  | .container _ _ _ items_ => splitsAll items_

def splitsAll : List (NodeDescriptor σ F) → List σ
  | [] => []
  | item :: items => splits item ++ splitsAll items

end

end Chatterino.Splits.NodeDescriptor

namespace Chatterino.Windows

open Lib QString QJsonObject Splits

inductive ProviderId where
  | Twitch
  | Kick
  deriving DecidableEq

inductive WindowType where
  | Main
  | Popup
  | Attached
  deriving DecidableEq

inductive WindowState where
  | None
  | Minimized
  | Maximized
  deriving DecidableEq

structure QRect where
  x : Int
  y : Int
  width : Int
  height : Int
  deriving DecidableEq

structure WindowDescriptor (Uuid F : Type) where
  type_ : WindowType
  state_ : WindowState := .None
  geometry_ : QRect
  tabs_ : List (TabDescriptor Uuid F) := []

structure WindowLayout (Uuid F : Type) where
  emotePopupBounds_ : QRect := ⟨0, 0, 0, 0⟩
  windows_ : List (WindowDescriptor Uuid F) := []

/-- A number is only an `int` if it is whole and in the range of one. -/
def toIntOr {F : Type} (toInt : F → Option Int) (default : Int) : QJsonValue F → Int
  | .double value => (toInt value).getD default
  | _ => default

section

variable {Uuid F : Type} [One F] (qt : QtText Uuid) (toInt : F → Option Int)

def loadTabs : Bool → List (QJsonValue F) → List (TabDescriptor Uuid F)
  | _, [] => []
  | hasSetASelectedTab, tabVal :: tabs =>
    let tab := TabDescriptor.loadFromJSON qt tabVal.toObject
    { tab with selected_ := tab.selected_ && !hasSetASelectedTab } ::
      loadTabs (hasSetASelectedTab || tab.selected_) tabs

def loadState (windowObj : QJsonObject F) : WindowState :=
  if (value "state" windowObj).equals (lit "minimized") then .Minimized
  else if (value "state" windowObj).equals (lit "maximized") then .Maximized
  else .None

def loadRect (default : Int) (obj : QJsonObject F) : QRect where
  x := toIntOr toInt default (value "x" obj)
  y := toIntOr toInt default (value "y" obj)
  width := toIntOr toInt default (value "width" obj)
  height := toIntOr toInt default (value "height" obj)

def loadWindow (type : WindowType) (windowObj : QJsonObject F) : WindowDescriptor Uuid F where
  type_ := type
  state_ := loadState windowObj
  geometry_ := loadRect toInt (-1) windowObj
  tabs_ := loadTabs qt false (value "tabs" windowObj).toArray

def loadType (windowObj : QJsonObject F) : WindowType :=
  if (value "type" windowObj).toString = lit "main" then .Main else .Popup

def loadWindows : Bool → List (QJsonValue F) → List (WindowDescriptor Uuid F)
  | _, [] => []
  | hasSetAMainWindow, windowVal :: windows =>
    let windowObj := windowVal.toObject
    let type := if hasSetAMainWindow then .Popup else loadType windowObj
    loadWindow qt toInt type windowObj :: loadWindows (hasSetAMainWindow || loadType windowObj = .Main) windows

def WindowLayout.loadFromFile (windowArray : List (QJsonValue F)) : WindowLayout Uuid F where
  emotePopupBounds_ := windowArray.foldl
    (fun _ windowVal => loadRect toInt 0 (value "emotePopup" windowVal.toObject).toObject) ⟨0, 0, 0, 0⟩
  windows_ := loadWindows qt toInt false windowArray

end

variable {Uuid F : Type}

structure Visitor where
  spec : QString
  score : Nat := 0
  hasChannel : Bool := false

namespace Visitor

def visitSplit (visitor : Visitor) (split : SplitDescriptor Uuid) : Visitor :=
  let visitor := { visitor with score := visitor.score + 2 }
  if split.channelName_ = visitor.spec then
    { visitor with
      hasChannel := true
      score := if !split.filters_.isEmpty then visitor.score + 1 else visitor.score }
  else visitor

mutual

def visit : NodeDescriptor (SplitDescriptor Uuid) F → Visitor → Visitor
  | .split descriptor _ _, visitor => visitor.visitSplit descriptor
  | .container _ _ _ items_, visitor => visitAll items_ visitor

def visitAll : List (NodeDescriptor (SplitDescriptor Uuid) F) → Visitor → Visitor
  | [], visitor => visitor
  | item :: items, visitor => visitAll items (visit item visitor)

end

end Visitor

/-- Keeps a tab with the channel if its score is less than the one of the best tab. -/
def considerTab (name : QString) (best : Option (Nat × Nat)) (index : Nat) (tab : TabDescriptor Uuid F) :
    Option (Nat × Nat) :=
  match tab.rootNode_ with
  | none => best
  | some rootNode =>
    let visitor := Visitor.visit rootNode { spec := name }
    if visitor.hasChannel && best.all (fun kept => visitor.score < kept.2) then some (index, visitor.score) else best

def bestTab (name : QString) (tabs : List (TabDescriptor Uuid F)) : Option (Nat × Nat) :=
  tabs.zipIdx.foldl (fun best entry => considerTab name best entry.2 entry.1) none

def SplitDescriptor.ofChannel (name : QString) : SplitDescriptor Uuid where
  type_ := lit "twitch"
  channelName_ := name

namespace TabDescriptor

def withSelected (selected : Bool) (tab : TabDescriptor Uuid F) : TabDescriptor Uuid F :=
  { tab with selected_ := selected }

def ofChannel [One F] (name : QString) : TabDescriptor Uuid F where
  selected_ := true
  rootNode_ := some (.split (.ofChannel name) 1 1)

end TabDescriptor

section

variable [One F]

def activateTab (name : QString) (tabs : List (TabDescriptor Uuid F)) : List (TabDescriptor Uuid F) :=
  let tabs' := tabs.map (TabDescriptor.withSelected false)
  match bestTab name tabs with
  | some best => tabs'.modify best.1 (TabDescriptor.withSelected true)
  | none => tabs' ++ [.ofChannel name]

def WindowDescriptor.ofChannel (name : QString) : WindowDescriptor Uuid F where
  type_ := .Main
  geometry_ := ⟨-1, -1, -1, -1⟩
  tabs_ := [.ofChannel name]

def WindowDescriptor.activateTab (name : QString) (window : WindowDescriptor Uuid F) : WindowDescriptor Uuid F :=
  { window with tabs_ := Windows.activateTab name window.tabs_ }

def WindowLayout.activateOrAddChannel (provider : ProviderId) (name : QString) (layout : WindowLayout Uuid F) :
    WindowLayout Uuid F :=
  if provider ≠ .Twitch ∨ lit "/" <+: name ∨ lit "$" <+: name then layout
  else
    match layout.windows_.findIdx? fun win => win.type_ = .Main with
    | none =>
      { layout with windows_ := layout.windows_ ++ [.ofChannel name] }
    | some mainWindow =>
      { layout with windows_ := layout.windows_.modify mainWindow (WindowDescriptor.activateTab name) }

end


section

def Called (name : QString) (split : SplitDescriptor Uuid) : Prop := split.channelName_ = name

instance (name : QString) (split : SplitDescriptor Uuid) : Decidable (Called name split) :=
  inferInstanceAs (Decidable (_ = _))

def Filtered (name : QString) (split : SplitDescriptor Uuid) : Prop := Called name split ∧ split.filters_ ≠ []

instance (name : QString) (split : SplitDescriptor Uuid) : Decidable (Filtered name split) :=
  decidable_of_iff (Called name split ∧ ¬split.filters_.isEmpty) (by rw [Filtered, List.isEmpty_iff])

namespace TabDescriptor

def splits (tab : TabDescriptor Uuid F) : List (SplitDescriptor Uuid) := tab.rootNode_.elim [] NodeDescriptor.splits

def score (name : QString) (tab : TabDescriptor Uuid F) : Nat :=
  2 * tab.splits.length + tab.splits.countP fun split => Filtered name split

def HasName (name : QString) (tab : TabDescriptor Uuid F) : Prop := ∃ split ∈ tab.splits, Called name split

instance (name : QString) (tab : TabDescriptor Uuid F) : Decidable (tab.HasName name) :=
  inferInstanceAs (Decidable (∃ split ∈ tab.splits, Called name split))

def scoreOf (name : QString) (tab : TabDescriptor Uuid F) : Option Nat :=
  if tab.HasName name then some (tab.score name) else none

end TabDescriptor

theorem Visitor.visitSplit_eq (visitor : Visitor) (split : SplitDescriptor Uuid) :
    visitor.visitSplit split =
      { visitor with
        score := visitor.score + (2 + if Filtered visitor.spec split then 1 else 0)
        hasChannel := visitor.hasChannel || decide (Called visitor.spec split) } := by
  unfold visitSplit Filtered Called
  by_cases hCalled : split.channelName_ = visitor.spec
  · by_cases hFilters : split.filters_ = []
    · simp [hCalled, hFilters]
    · simp [hCalled, hFilters]
  · simp [hCalled]

theorem Visitor.foldl_visitSplit (splits : List (SplitDescriptor Uuid)) (visitor : Visitor) :
    splits.foldl visitSplit visitor =
      { visitor with
        score := visitor.score + (2 * splits.length + splits.countP fun split => Filtered visitor.spec split)
        hasChannel := visitor.hasChannel || splits.any fun split => Called visitor.spec split } := by
  induction splits generalizing visitor with
  | nil => simp
  | cons split splits ih =>
    rw [List.foldl_cons, ih, visitSplit_eq, List.length_cons, List.countP_cons, List.any_cons, Bool.or_assoc,
      mk.injEq]
    refine ⟨rfl, ?_, rfl⟩
    simp only [decide_eq_true_eq]
    omega

theorem Visitor.visit_eq (node : NodeDescriptor (SplitDescriptor Uuid) F) (visitor : Visitor) :
    visit node visitor = node.splits.foldl visitSplit visitor := by
  induction node using NodeDescriptor.induction generalizing visitor with
  | split descriptor flexH_ flexV_ => rw [visit, NodeDescriptor.splits, List.foldl_cons, List.foldl_nil]
  | container flexH_ flexV_ vertical_ items_ ih =>
    rw [visit, NodeDescriptor.splits]
    induction items_ generalizing visitor with
    | nil => rw [visitAll, NodeDescriptor.splitsAll, List.foldl_nil]
    | cons item items ihItems =>
      rw [visitAll, NodeDescriptor.splitsAll, List.foldl_append, ih item List.mem_cons_self]
      exact ihItems (fun other hMem => ih other (List.mem_cons_of_mem _ hMem)) _

theorem visit_root {tab : TabDescriptor Uuid F} {rootNode : NodeDescriptor (SplitDescriptor Uuid) F}
    (hRoot : tab.rootNode_ = some rootNode) (name : QString) : Visitor.visit rootNode { spec := name } =
      { spec := name, score := tab.score name, hasChannel := decide (tab.HasName name) } := by
  have hSplits : tab.splits = rootNode.splits := by rw [TabDescriptor.splits, hRoot, Option.elim_some]
  have hAny : (rootNode.splits.any fun split => Called name split) = decide (tab.HasName name) := by
    rw [Bool.eq_iff_iff, decide_eq_true_iff, TabDescriptor.HasName, hSplits]
    simp only [List.any_eq_true, decide_eq_true_eq]
  rw [Visitor.visit_eq, Visitor.foldl_visitSplit, Visitor.mk.injEq, TabDescriptor.score, hSplits, ← hAny]
  exact ⟨rfl, Nat.zero_add _, Bool.false_or _⟩

theorem considerTab_eq (name : QString) (best : Option (Nat × Nat)) (index : Nat) (tab : TabDescriptor Uuid F) :
    considerTab name best index tab = keepLess (TabDescriptor.scoreOf name) best index tab := by
  unfold considerTab keepLess TabDescriptor.scoreOf
  cases hRoot : tab.rootNode_ with
  | none =>
    have hSplits : tab.splits = [] := by rw [TabDescriptor.splits, hRoot, Option.elim_none]
    rw [if_neg (by rw [TabDescriptor.HasName, hSplits]; exact fun h => List.not_mem_nil h.choose_spec.1)]
  | some rootNode =>
    dsimp only
    rw [visit_root hRoot]
    by_cases hName : tab.HasName name
    · simp [hName]
    · simp [hName]

theorem bestTab_eq (name : QString) (tabs : List (TabDescriptor Uuid F)) :
    bestTab name tabs = firstLeast (TabDescriptor.scoreOf name) tabs := by
  rw [bestTab, firstLeast]
  congr 1
  funext best entry
  exact considerTab_eq name best entry.2 entry.1

end


section

variable (qt : QtText Uuid) (name : QString)

def SplitDescriptor.Shows (split : SplitDescriptor Uuid) : Prop :=
  split.type_ = lit "twitch" ∧
    Servers.cleanChannelName qt split.channelName_ = Servers.cleanChannelName qt name

instance (split : SplitDescriptor Uuid) : Decidable (split.Shows qt name) := inferInstanceAs (Decidable (_ ∧ _))

def TabDescriptor.Shows (tab : TabDescriptor Uuid F) : Prop := ∃ split ∈ tab.splits, split.Shows qt name

instance (tab : TabDescriptor Uuid F) : Decidable (tab.Shows qt name) :=
  inferInstanceAs (Decidable (∃ split ∈ tab.splits, _))

def Suits (tabs : List (TabDescriptor Uuid F)) (tab : TabDescriptor Uuid F) : Prop :=
  tab.Shows qt name ∧ ∀ other ∈ tabs, other.Shows qt name → tab.splits.length ≤ other.splits.length

instance (tabs : List (TabDescriptor Uuid F)) (tab : TabDescriptor Uuid F) : Decidable (Suits qt name tabs tab) :=
  inferInstanceAs (Decidable (_ ∧ ∀ other ∈ tabs, _))

def SelectsSuited (tabs : List (TabDescriptor Uuid F)) : Prop :=
  ∃ before tab after, tabs = before ++ tab :: after ∧ tab.selected_ = true ∧
    (∀ other ∈ before ++ after, other.selected_ = false) ∧ Suits qt name tabs tab

variable {qt name} in
theorem Suits.congr {tabs tabs' : List (TabDescriptor Uuid F)} {tab tab' : TabDescriptor Uuid F}
    (hTabs : tabs'.map TabDescriptor.splits = tabs.map TabDescriptor.splits) (hTab : tab'.splits = tab.splits)
    (h : Suits qt name tabs tab) : Suits qt name tabs' tab' := by
  unfold Suits TabDescriptor.Shows at h ⊢
  rw [hTab]
  refine ⟨h.1, ?_⟩
  intro other hOther
  have hMem : other.splits ∈ tabs'.map TabDescriptor.splits := List.mem_map_of_mem hOther
  rw [hTabs] at hMem
  obtain ⟨other', hOther', hSplits⟩ := List.mem_map.mp hMem
  rw [← hSplits]
  exact h.2 other' hOther'

def Outscored (before : List (TabDescriptor Uuid F)) (tab : TabDescriptor Uuid F)
    (after : List (TabDescriptor Uuid F)) : Prop :=
  (∃ other ∈ before, other.HasName name ∧ other.score name ≤ tab.score name) ∨
    ∃ other ∈ after, other.HasName name ∧ other.score name < tab.score name

instance (before : List (TabDescriptor Uuid F)) (tab : TabDescriptor Uuid F) (after : List (TabDescriptor Uuid F)) :
    Decidable (Outscored name before tab after) :=
  inferInstanceAs (Decidable ((∃ other ∈ before, _) ∨ ∃ other ∈ after, _))

def Misleads (tabs : List (TabDescriptor Uuid F)) : Prop :=
  ∃ before tab after, tabs = before ++ tab :: after ∧ tab.HasName name ∧ ¬Suits qt name tabs tab ∧
    ¬Outscored name before tab after

variable {name}

theorem mem_scoreOf {tab : TabDescriptor Uuid F} {value : Nat} :
    value ∈ tab.scoreOf name ↔ tab.HasName name ∧ tab.score name = value := by
  rw [TabDescriptor.scoreOf, Option.mem_def, Option.ite_none_right_eq_some, Option.some_inj]

theorem isFirstLeast_iff {before after : List (TabDescriptor Uuid F)} {tab : TabDescriptor Uuid F} {least : Nat} :
    IsFirstLeast (TabDescriptor.scoreOf name) before tab after least ↔
      tab.HasName name ∧ tab.score name = least ∧ ¬Outscored name before tab after := by
  constructor
  · intro h
    obtain ⟨hName, hScore⟩ := mem_scoreOf.mp h.score_eq
    refine ⟨hName, hScore, ?_⟩
    rw [Outscored, hScore]
    rintro (⟨other, hOther, hOtherName, hLe⟩ | ⟨other, hOther, hOtherName, hLt⟩)
    · exact Nat.not_lt.mpr hLe (h.lt_before other hOther _ (mem_scoreOf.mpr ⟨hOtherName, rfl⟩))
    · exact Nat.not_lt.mpr (h.le_after other hOther _ (mem_scoreOf.mpr ⟨hOtherName, rfl⟩)) hLt
  · rintro ⟨hName, hScore, hOutscored⟩
    refine ⟨mem_scoreOf.mpr ⟨hName, hScore⟩, ?_, ?_⟩
    · intro other hOther value hValue
      obtain ⟨hOtherName, rfl⟩ := mem_scoreOf.mp hValue
      rw [← hScore]
      exact Nat.not_le.mp fun hLe => hOutscored (.inl ⟨other, hOther, hOtherName, hLe⟩)
    · intro other hOther value hValue
      obtain ⟨hOtherName, rfl⟩ := mem_scoreOf.mp hValue
      rw [← hScore]
      exact Nat.not_lt.mp fun hLt => hOutscored (.inr ⟨other, hOther, hOtherName, hLt⟩)

variable {qt}

theorem not_misleads_iff {before after : List (TabDescriptor Uuid F)} {tab : TabDescriptor Uuid F} {least : Nat}
    (h : IsFirstLeast (TabDescriptor.scoreOf name) before tab after least) :
    ¬Misleads qt name (before ++ tab :: after) ↔ Suits qt name (before ++ tab :: after) tab := by
  obtain ⟨hName, -, hOutscored⟩ := isFirstLeast_iff.mp h
  constructor
  · intro hMisleads
    exact by_contra fun hSuits => hMisleads ⟨before, tab, after, rfl, hName, hSuits, hOutscored⟩
  · rintro hSuits ⟨before', tab', after', hTabs, hName', hSuits', hOutscored'⟩
    have hSame : tab = tab' := h.unique (isFirstLeast_iff.mpr ⟨hName', rfl, hOutscored'⟩) hTabs
    exact hSuits' (hSame ▸ hSuits)

variable [One F]

omit [One F] in
theorem map_splits_withSelected (tabs : List (TabDescriptor Uuid F)) (selected : Bool) :
    (tabs.map (TabDescriptor.withSelected selected)).map TabDescriptor.splits = tabs.map TabDescriptor.splits :=
  List.map_map ..

omit [One F] in
theorem selected_of_mem_deselected {tabs : List (TabDescriptor Uuid F)} {tab : TabDescriptor Uuid F}
    (h : tab ∈ tabs.map (TabDescriptor.withSelected false)) : tab.selected_ = false := by
  obtain ⟨tab', -, rfl⟩ := List.mem_map.mp h
  rfl

theorem activateTab_cases (name : QString) (tabs : List (TabDescriptor Uuid F)) :
    ((∀ tab ∈ tabs, ¬tab.HasName name) ∧
      activateTab name tabs = tabs.map (TabDescriptor.withSelected false) ++ [.ofChannel name]) ∨
    ∃ before tab after least, tabs = before ++ tab :: after ∧
      IsFirstLeast (TabDescriptor.scoreOf name) before tab after least ∧
      activateTab name tabs = before.map (TabDescriptor.withSelected false) ++
        tab.withSelected true :: after.map (TabDescriptor.withSelected false) := by
  have hFound : FindsLeast (TabDescriptor.scoreOf name) tabs (firstLeast (TabDescriptor.scoreOf name) tabs) :=
    findsLeast_firstLeast tabs
  rw [← bestTab_eq] at hFound
  unfold activateTab
  cases hBest : bestTab name tabs with
  | none =>
    rw [hBest] at hFound
    refine .inl ⟨?_, rfl⟩
    intro tab hTab hName
    exact absurd (hFound tab hTab) (by rw [TabDescriptor.scoreOf, if_pos hName]; exact Option.some_ne_none _)
  | some best =>
    rw [hBest] at hFound
    obtain ⟨before, tab, after, hTabs, hIndex, hLeast⟩ := hFound
    refine .inr ⟨before, tab, after, _, hTabs, hLeast, ?_⟩
    have hLength : (before.map (TabDescriptor.withSelected false)).length = best.1 := by
      rw [List.length_map, hIndex]
    dsimp only
    rw [hTabs, List.map_append, List.map_cons, ← hLength, modify_append_cons]
    rfl

theorem selectsSuited_activateTab_iff (tabs : List (TabDescriptor Uuid F)) :
    SelectsSuited qt name (activateTab name tabs) ↔ ¬Misleads qt name tabs := by
  obtain ⟨hNone, hTabs'⟩ | ⟨before, tab, after, least, rfl, hLeast, hTabs'⟩ := activateTab_cases name tabs
  · refine iff_of_true ?_ ?_
    · rw [hTabs']
      refine ⟨_, _, [], rfl, rfl, ?_, ?_⟩
      · rw [List.append_nil]
        exact fun other hOther => selected_of_mem_deselected hOther
      · refine ⟨⟨_, List.mem_singleton_self _, rfl, rfl⟩, ?_⟩
        rintro other - ⟨split, hSplit, -⟩
        exact List.length_pos_of_mem hSplit
    · rintro ⟨before, tab, after, rfl, hName, -⟩
      exact hNone tab (List.mem_append_right _ List.mem_cons_self) hName
  · rw [not_misleads_iff hLeast, hTabs']
    have hSplits : (before.map (TabDescriptor.withSelected false) ++
        tab.withSelected true :: after.map (TabDescriptor.withSelected false)).map TabDescriptor.splits =
          (before ++ tab :: after).map TabDescriptor.splits := by
      rw [List.map_append, List.map_cons, map_splits_withSelected, map_splits_withSelected, List.map_append,
        List.map_cons]
      rfl
    have hOthers : ∀ other ∈ before.map (TabDescriptor.withSelected false) ++
        after.map (TabDescriptor.withSelected false), other.selected_ = false := by
      intro other hOther
      rw [← List.map_append] at hOther
      exact selected_of_mem_deselected hOther
    constructor
    · rintro ⟨before', tab', after', hTabs, hSelected, -, hSuits⟩
      have hMem : tab' ∈ before.map (TabDescriptor.withSelected false) ++
          tab.withSelected true :: after.map (TabDescriptor.withSelected false) := by
        rw [hTabs]
        exact List.mem_append_right _ List.mem_cons_self
      have hTab' : tab' = tab.withSelected true := by
        have hNotOther : tab' ∉ before.map (TabDescriptor.withSelected false) ++
            after.map (TabDescriptor.withSelected false) := by
          intro hOther
          have hUnselected := hOthers tab' hOther
          rw [hSelected] at hUnselected
          cases hUnselected
        rw [List.mem_append, List.mem_cons] at hMem
        rw [List.mem_append] at hNotOther
        tauto
      subst hTab'
      exact hSuits.congr hSplits.symm rfl
    · intro hSuits
      exact ⟨_, _, _, rfl, rfl, hOthers, hSuits.congr hSplits rfl⟩

def WindowDescriptor.deselected (window : WindowDescriptor Uuid F) : WindowDescriptor Uuid F :=
  { window with tabs_ := window.tabs_.map (TabDescriptor.withSelected false) }

def WindowLayout.deselected (layout : WindowLayout Uuid F) : List (WindowDescriptor Uuid F) :=
  layout.windows_.map WindowDescriptor.deselected

/-- But for the selection, the layout is the same or has one more tab or one more window. -/
structure WindowLayout.AddsAtMostOne (layout layout' : WindowLayout Uuid F) : Prop where
  emotePopupBounds_ : layout'.emotePopupBounds_ = layout.emotePopupBounds_
  windows_ : layout'.deselected = layout.deselected ∨
    (∃ window, layout'.deselected = layout.deselected ++ [window]) ∨
    ∃ others window others' tab, layout.deselected = others ++ window :: others' ∧
      layout'.deselected = others ++ { window with tabs_ := window.tabs_ ++ [tab] } :: others'

variable (qt name) in
/-- There is one main window, in which a tab is selected that suits the channel. -/
structure WindowLayout.Activated (layout layout' : WindowLayout Uuid F) : Prop where
  oneMain : ∃ others window others', layout'.windows_ = others ++ window :: others' ∧ window.type_ = .Main ∧
    (∀ other ∈ others ++ others', other.type_ ≠ .Main) ∧ SelectsSuited qt name window.tabs_
  unchanged : layout.AddsAtMostOne layout'

def WindowLayout.AtMostOneMain (layout : WindowLayout Uuid F) : Prop :=
  ∀ others window others', layout.windows_ = others ++ window :: others' → window.type_ = .Main →
    ∀ other ∈ others ++ others', other.type_ ≠ .Main

theorem countP_loadWindows (toInt : F → Option Int) (windowArray : List (QJsonValue F)) (hasSetAMainWindow : Bool) :
    (loadWindows qt toInt hasSetAMainWindow windowArray).countP (fun window => window.type_ = .Main) ≤
      if hasSetAMainWindow then 0 else 1 := by
  induction windowArray generalizing hasSetAMainWindow with
  | nil => exact Nat.zero_le _
  | cons windowVal windows ih =>
    rw [loadWindows, List.countP_cons]
    cases hasSetAMainWindow with
    | true => simpa [loadWindow] using ih true
    | false =>
      cases hType : loadType windowVal.toObject with
      | Main => simpa [loadWindow, hType] using ih true
      | _ => simpa [loadWindow, hType] using ih false

theorem atMostOneMain_loadFromFile (toInt : F → Option Int) (windowArray : List (QJsonValue F)) :
    (WindowLayout.loadFromFile qt toInt windowArray).AtMostOneMain := by
  intro others window others' hWindows hMain other hOther hOtherMain
  have hCount : (loadWindows qt toInt false windowArray).countP (fun window => window.type_ = .Main) ≤ 1 :=
    countP_loadWindows toInt windowArray false
  have hLoaded : loadWindows qt toInt false windowArray = others ++ window :: others' := hWindows
  have hPos : 0 < (others ++ others').countP fun window => window.type_ = .Main :=
    List.countP_pos_iff.mpr ⟨other, hOther, decide_eq_true hOtherMain⟩
  rw [hLoaded, List.countP_append, List.countP_cons, if_pos (decide_eq_true hMain)] at hCount
  rw [List.countP_append] at hPos
  omega

theorem deselected_activateTab (name : QString) (window : WindowDescriptor Uuid F) :
    (window.activateTab name).deselected = window.deselected ∨ ∃ tab, (window.activateTab name).deselected =
      { window.deselected with tabs_ := window.deselected.tabs_ ++ [tab] } := by
  unfold WindowDescriptor.activateTab WindowDescriptor.deselected
  obtain ⟨-, hTabs⟩ | ⟨before, tab, after, -, hBefore, -, hTabs⟩ := activateTab_cases name window.tabs_
  · refine .inr ⟨(TabDescriptor.ofChannel name).withSelected false, ?_⟩
    rw [hTabs, List.map_append, List.map_map]
    rfl
  · refine .inl ?_
    rw [hTabs, hBefore, List.map_append, List.map_cons, List.map_map, List.map_map, List.map_append, List.map_cons]
    rfl

theorem activated_iff {layout : WindowLayout Uuid F} (hMain : layout.AtMostOneMain)
    (hName : ¬lit "/" <+: name ∧ ¬lit "$" <+: name) :
    layout.Activated qt name (layout.activateOrAddChannel .Twitch name) ↔
      ∀ window ∈ layout.windows_, window.type_ = .Main → ¬Misleads qt name window.tabs_ := by
  have hAllowed : ¬(ProviderId.Twitch ≠ .Twitch ∨ lit "/" <+: name ∨ lit "$" <+: name) := by tauto
  rw [WindowLayout.activateOrAddChannel, if_neg hAllowed]
  cases hFind : layout.windows_.findIdx? fun win => win.type_ = .Main with
  | none =>
    have hNone : ∀ window ∈ layout.windows_, window.type_ ≠ .Main := by
      intro window hWindow
      simpa using List.findIdx?_eq_none_iff.mp hFind window hWindow
    refine iff_of_true ⟨?_, rfl, .inr (.inl ⟨(WindowDescriptor.ofChannel name).deselected, ?_⟩)⟩ ?_
    · refine ⟨_, _, [], rfl, rfl, ?_, [], .ofChannel name, [], rfl, rfl, fun other hOther => absurd hOther List.not_mem_nil,
        ⟨_, List.mem_singleton_self _, rfl, rfl⟩, ?_⟩
      · rw [List.append_nil]
        exact hNone
      · intro other hOther
        rw [List.mem_singleton.mp hOther]
        exact fun _ => Nat.le_refl _
    · exact List.map_append ..
    · exact fun window hWindow hType => absurd hType (hNone window hWindow)
  | some mainWindow =>
    obtain ⟨others, window, others', hWindows, rfl, hFound⟩ := split_of_findIdx? hFind
    have hType : window.type_ = .Main := of_decide_eq_true hFound
    have hOthers := hMain others window others' hWindows hType
    have hActivated : layout.windows_.modify others.length (WindowDescriptor.activateTab name) =
        others ++ window.activateTab name :: others' := by rw [hWindows, modify_append_cons]
    have hOnly : (∀ window ∈ layout.windows_, window.type_ = .Main → ¬Misleads qt name window.tabs_) ↔
        SelectsSuited qt name (window.activateTab name).tabs_ := by
      rw [WindowDescriptor.activateTab, selectsSuited_activateTab_iff]
      constructor
      · intro hAll
        refine hAll window ?_ hType
        rw [hWindows]
        exact List.mem_append_right _ List.mem_cons_self
      · intro hWindow other hOther hOtherType
        rw [hWindows, List.mem_append, List.mem_cons] at hOther
        have hNotOther : other ∉ others ++ others' := fun hMem => hOthers other hMem hOtherType
        rw [List.mem_append] at hNotOther
        obtain rfl : other = window := by tauto
        exact hWindow
    rw [hOnly]
    constructor
    · rintro ⟨⟨others₁, window', others₁', hWindows', hType', -, hSuited⟩, -⟩
      have hMem : window' ∈ others ++ window.activateTab name :: others' := by
        have hAfter : layout.windows_.modify others.length (WindowDescriptor.activateTab name) =
          others₁ ++ window' :: others₁' := hWindows'
        rw [← hActivated, hAfter]
        exact List.mem_append_right _ List.mem_cons_self
      have hNotOther : window' ∉ others ++ others' := fun hOther => hOthers window' hOther hType'
      rw [List.mem_append, List.mem_cons] at hMem
      rw [List.mem_append] at hNotOther
      obtain rfl : window' = window.activateTab name := by tauto
      exact hSuited
    · intro hSuited
      refine ⟨⟨others, window.activateTab name, others', hActivated, hType, hOthers, hSuited⟩, rfl, ?_⟩
      have hBefore : layout.deselected = others.map WindowDescriptor.deselected ++
          window.deselected :: others'.map WindowDescriptor.deselected := by
        rw [WindowLayout.deselected, hWindows, List.map_append, List.map_cons]
      have hAfter : (layout.windows_.modify others.length (WindowDescriptor.activateTab name)).map
          WindowDescriptor.deselected = others.map WindowDescriptor.deselected ++
            (window.activateTab name).deselected :: others'.map WindowDescriptor.deselected := by
        rw [hActivated, List.map_append, List.map_cons]
      obtain hSame | ⟨tab, hTab⟩ := deselected_activateTab name window
      · rw [hSame, ← hBefore] at hAfter
        exact .inl hAfter
      · rw [hTab] at hAfter
        exact .inr (.inr ⟨_, _, _, tab, hBefore, hAfter⟩)

/-- The channel that is asked for is opened exactly if no tab of the main window misleads. -/
theorem activateOrAddChannel_iff (qt : QtText Uuid) (toInt : F → Option Int) (windowArray : List (QJsonValue F))
    {name : QString} (hName : ¬lit "/" <+: name ∧ ¬lit "$" <+: name) :
    (WindowLayout.loadFromFile qt toInt windowArray).Activated qt name
        ((WindowLayout.loadFromFile qt toInt windowArray).activateOrAddChannel .Twitch name) ↔
      ∀ window ∈ (WindowLayout.loadFromFile qt toInt windowArray).windows_, window.type_ = .Main →
        ¬Misleads qt name window.tabs_ :=
  activated_iff (atMostOneMain_loadFromFile toInt windowArray) hName

end

section

def ratToInt (number : Rat) : Option Int := if number.den = 1 then some number.num else none

def savedTab (type name : String) : QJsonValue Rat :=
  .object [("splits2", .object [("type", .string (lit "split")),
    ("data", .object [("type", .string (lit type)), ("name", .string (lit name))])])]

def savedWindow (tabs : List (QJsonValue Rat)) : QJsonValue Rat :=
  .object [("type", .string (lit "main")), ("tabs", .array tabs)]

theorem activateOrAddChannel_iff_savedWindow :
    (WindowLayout.loadFromFile asciiText ratToInt [savedWindow [savedTab "twitch" "forsen"]]).Activated asciiText
      (lit "forsen") ((WindowLayout.loadFromFile asciiText ratToInt
        [savedWindow [savedTab "twitch" "forsen"]]).activateOrAddChannel .Twitch (lit "forsen")) := by
  refine (activateOrAddChannel_iff asciiText ratToInt [savedWindow [savedTab "twitch" "forsen"]] ?_).mpr ?_
  · decide
  · rintro window hWindow - ⟨before, tab, after, hTabs, -, hUnsuited, -⟩
    have hSuits : ∀ window ∈ (WindowLayout.loadFromFile asciiText ratToInt
        [savedWindow [savedTab "twitch" "forsen"]]).windows_, ∀ tab ∈ window.tabs_,
          Suits asciiText (lit "forsen") window.tabs_ tab := by
      decide
    refine hUnsuited (hSuits window hWindow tab ?_)
    rw [hTabs]
    exact List.mem_append_right _ List.mem_cons_self

theorem not_activated_kickTab : ¬∀ (qt : QtText Nat) (toInt : Rat → Option Int) (windowArray : List (QJsonValue Rat))
    (name : QString), ¬lit "/" <+: name ∧ ¬lit "$" <+: name →
      (WindowLayout.loadFromFile qt toInt windowArray).Activated qt name
        ((WindowLayout.loadFromFile qt toInt windowArray).activateOrAddChannel .Twitch name) := by
  intro hActivated
  have hName : ¬lit "/" <+: lit "forsen" ∧ ¬lit "$" <+: lit "forsen" := by decide
  have hNot := (activated_iff (atMostOneMain_loadFromFile ratToInt _) hName).mp (hActivated asciiText ratToInt
    [savedWindow [savedTab "kick" "forsen", savedTab "twitch" "forsen"]] (lit "forsen") hName)
  refine hNot _ List.mem_cons_self rfl ⟨[], _, _, rfl, ?_, ?_, ?_⟩
  · decide
  · decide
  · decide

end

end Chatterino.Windows
