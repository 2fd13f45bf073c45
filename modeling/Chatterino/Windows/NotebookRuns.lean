import Chatterino.Windows.Notebook

/-! # Cycling through the tabs of a notebook

The loops go around the tabs, from the selected one back to it. They are safe in every state of a
notebook, but for the empty one with a filter.
-/

namespace Chatterino.Notebooks

open Lib

namespace Notebook

variable {Page : Type} [DecidableEq Page] {notebook : Notebook Page} {filter : TabVisibilityFilter Page}
  {advance : Int → Int} {startIndex index : Int} {item : Item Page} {before after front middle rest visited : List (Item Page)}
  {page selected : Page}

omit [DecidableEq Page] in
theorem itemAt_of_append (hItems : notebook.items_ = front ++ item :: rest) :
    notebook.itemAt front.length = .ok item := by
  rw [itemAt, if_neg (Int.not_lt.mpr (Int.natCast_nonneg _)), Int.toNat_natCast, hItems,
    List.getElem?_append_right (Nat.le_refl _), Nat.sub_self]
  rfl

omit [DecidableEq Page] in
inductive Visits (notebook : Notebook Page) (advance : Int → Int) (startIndex : Int) : Int → List (Item Page) → Prop
  | stop : Visits notebook advance startIndex startIndex []
  | next {index : Int} {item : Item Page} {visited : List (Item Page)} (hNe : index ≠ startIndex)
    (hItem : notebook.itemAt index = .ok item) (hRest : Visits notebook advance startIndex (advance index) visited) :
    Visits notebook advance startIndex index (item :: visited)

theorem seekTab_eq (h : notebook.Visits advance startIndex index visited) {fuel : Nat} (hFuel : visited.length < fuel) :
    notebook.seekTab advance filter startIndex fuel index =
      .ok ((visited.find? filter).elim notebook fun item => notebook.select item.page) := by
  induction h generalizing fuel with
  | stop =>
    obtain ⟨fuel, rfl⟩ := Nat.exists_eq_succ_of_ne_zero (Nat.ne_zero_of_lt hFuel)
    rw [seekTab, if_pos rfl]
    rfl
  | @next index item visited hNe hItem hRest ih =>
    obtain ⟨fuel, rfl⟩ := Nat.exists_eq_succ_of_ne_zero (Nat.ne_zero_of_lt hFuel)
    rw [seekTab, if_neg hNe, hItem, List.find?_cons]
    change (if filter item = true then _ else _) = _
    cases hFilter : filter item with
    | true => rfl
    | false => exact ih (Nat.lt_of_succ_lt_succ hFuel)

omit [DecidableEq Page] in
theorem count_eq (hItems : notebook.items_ = before ++ item :: after) :
    notebook.count = before.length + 1 + after.length := by
  rw [count, hItems, List.length_append, List.length_cons]
  omega

omit [DecidableEq Page] in
theorem visits_to_start (hItems : notebook.items_ = front ++ middle ++ item :: after) :
    notebook.Visits (fun index => (index + 1).tmod notebook.count) (front ++ middle).length front.length middle := by
  induction middle generalizing front with
  | nil =>
    rw [List.append_nil]
    exact .stop
  | cons head middle ih =>
    have hCount := count_eq hItems
    rw [List.length_append, List.length_cons] at hCount
    refine .next ?_ (@itemAt_of_append _ _ _ _ (middle ++ item :: after) ?_) ?_
    · rw [List.length_append, List.length_cons]
      omega
    · rw [hItems]
      simp
    · have hAdvance : ((front.length : Int) + 1).tmod notebook.count = (front ++ [head]).length := by
        rw [List.length_append, List.length_singleton, Int.tmod_eq_of_lt (by omega) (by omega)]
        rfl
      rw [hAdvance, List.append_cons]
      refine ih ?_
      rw [hItems]
      simp

omit [DecidableEq Page] in
theorem visits_wrap (hItems : notebook.items_ = front ++ rest) (hStart : startIndex < front.length)
    (h : notebook.Visits (fun index => (index + 1).tmod notebook.count) startIndex 0 visited) :
    notebook.Visits (fun index => (index + 1).tmod notebook.count) startIndex
      ((front.length : Int).tmod notebook.count) (rest ++ visited) := by
  induction rest generalizing front with
  | nil =>
    have hCount : notebook.count = front.length := by rw [count, hItems, List.append_nil]
    have hZero : (front.length : Int).tmod notebook.count = 0 := by rw [hCount, Int.tmod_self]
    rw [hZero, List.nil_append]
    exact h
  | cons head rest ih =>
    have hCount := count_eq hItems
    rw [Int.tmod_eq_of_lt (by omega) (by omega)]
    refine .next (by omega) (itemAt_of_append hItems) ?_
    have hNext := @ih (front ++ [head]) (by rw [hItems, List.append_assoc]; rfl) (by
      rw [List.length_append]
      omega)
    rw [List.length_append, List.length_singleton] at hNext
    exact hNext

omit [DecidableEq Page] in
theorem visits_forwards (hItems : notebook.items_ = before ++ item :: after) :
    notebook.Visits (fun index => (index + 1).tmod notebook.count) before.length
      (((before.length : Int) + 1).tmod notebook.count) (after ++ before) := by
  have hFirst := @visits_to_start _ notebook item after [] before hItems
  have hWrap := @visits_wrap _ notebook before.length (before ++ [item]) after before
    (by rw [hItems, List.append_assoc]; rfl) (by rw [List.length_append, List.length_singleton]; omega) hFirst
  rw [List.length_append] at hWrap
  exact hWrap

def backwards (notebook : Notebook Page) (index : Int) : Int := if index = 0 then notebook.count - 1 else index - 1

omit [DecidableEq Page] in
theorem backwards_succ (n : Nat) : notebook.backwards (n + 1 : Nat) = n := by
  rw [backwards, if_neg (by omega)]
  omega

omit [DecidableEq Page] in
theorem visits_wrap_backwards (hItems : notebook.items_ = front ++ rest) (hStart : (front.length : Int) ≤ startIndex)
    (h : notebook.Visits notebook.backwards startIndex (notebook.count - 1) visited) :
    notebook.Visits notebook.backwards startIndex (notebook.backwards front.length) (front.reverse ++ visited) := by
  induction front using List.reverseRecOn generalizing rest with
  | nil => exact h
  | append_singleton front last ih =>
    rw [List.length_append] at hStart ⊢
    rw [List.length_singleton, backwards_succ, List.reverse_append]
    rw [List.append_assoc] at hItems
    refine .next (by rw [List.length_singleton] at hStart; omega) (itemAt_of_append hItems) ?_
    exact ih hItems (by rw [List.length_singleton] at hStart; omega)

omit [DecidableEq Page] in
theorem visits_to_start_backwards (hItems : notebook.items_ = before ++ item :: (middle ++ rest)) :
    notebook.Visits notebook.backwards before.length (notebook.backwards (before.length + 1 + middle.length : Nat))
      middle.reverse := by
  induction middle using List.reverseRecOn generalizing rest with
  | nil =>
    rw [List.length_nil, Nat.add_zero, backwards_succ]
    exact .stop
  | append_singleton middle last ih =>
    rw [List.length_append, List.length_singleton, ← Nat.add_assoc, backwards_succ, List.reverse_append]
    rw [List.append_assoc] at hItems
    refine .next (by omega) ?_ (ih hItems)
    have hLast : notebook.items_ = (before ++ item :: middle) ++ last :: rest := by
      rw [hItems]
      simp
    have hIndex : (before ++ item :: middle).length = before.length + 1 + middle.length := by
      rw [List.length_append, List.length_cons]
      omega
    rw [← hIndex]
    exact itemAt_of_append hLast

omit [DecidableEq Page] in
theorem visits_backwards (hItems : notebook.items_ = before ++ item :: after) :
    notebook.Visits notebook.backwards before.length (notebook.backwards before.length)
      (before.reverse ++ after.reverse) := by
  refine visits_wrap_backwards hItems (Int.le_refl _) ?_
  have hEnd := @visits_to_start_backwards _ notebook item before after [] (by rw [List.append_nil]; exact hItems)
  have hLast : notebook.backwards (before.length + 1 + after.length : Nat) = notebook.count - 1 := by
    rw [count_eq hItems, backwards, if_neg (by omega)]
    omega
  rwa [hLast] at hEnd

variable (notebook) in
structure Sound : Prop extends notebook.Marked where
  selected_iff : notebook.selectedPage_ = none ↔ notebook.items_ = []
  filter : ∀ filter ∈ notebook.tabVisibilityFilter_, ∀ item : Item Page, item.selected_ = true → filter item = true

omit [DecidableEq Page] in
variable (notebook) in
def accepts (page : Page) : Bool := notebook.tabVisibilityFilter_.all fun filter => filter { page }

structure Cut (notebook : Notebook Page) (page : Page) (before after : List (Item Page)) : Prop where
  items : notebook.items_ = before ++ ⟨page, true⟩ :: after
  pages : notebook.pages = before.map Item.page ++ page :: after.map Item.page
  unselected : ∀ item ∈ after ++ before, item.selected_ = false
  ne : ∀ item ∈ after ++ before, item.page ≠ page
  index : notebook.indexOf page = before.length

omit [DecidableEq Page] in
theorem mem_pages (hItem : item ∈ notebook.items_) : item.page ∈ notebook.pages := List.mem_map_of_mem hItem

theorem indexOf_eq (hItems : notebook.items_ = before ++ item :: after)
    (hBefore : ∀ other ∈ before, other.page ≠ item.page) : notebook.indexOf item.page = before.length := by
  have hFind : notebook.items_.findIdx? (fun other => some other.page = some item.page) = some before.length := by
    rw [hItems, List.findIdx?_append, List.findIdx?_eq_none_iff.mpr, Option.none_or, List.findIdx?_cons,
      decide_eq_true rfl]
    · simp
    · intro other hOther
      exact decide_eq_false fun hEq => hBefore other hOther (Option.some.inj hEq)
  rw [indexOf, hFind]

omit [DecidableEq Page] in
theorem Marked.ne_of_before (h : notebook.Marked) (hItems : notebook.items_ = before ++ item :: after) :
    ∀ other ∈ before, other.page ≠ item.page := by
  have hNodup := h.nodup
  rw [Notebook.pages, hItems, List.map_append, List.map_cons] at hNodup
  intro other hOther
  exact (List.nodup_append.mp hNodup).2.2 _ (List.mem_map_of_mem hOther) _ List.mem_cons_self

omit [DecidableEq Page] in
theorem Marked.sound (h : notebook.Marked) (hNone : notebook.selectedPage_ = none → notebook.items_ = [])
    (hFilter : ∀ filter ∈ notebook.tabVisibilityFilter_, ∀ item : Item Page, item.selected_ = true → filter item = true) :
    notebook.Sound := by
  refine ⟨h, ⟨hNone, fun hEmpty => ?_⟩, hFilter⟩
  refine Option.eq_none_iff_forall_not_mem.mpr fun page hPage => ?_
  have hMem := h.selected_mem page hPage
  rw [Notebook.pages, hEmpty] at hMem
  exact List.not_mem_nil hMem

theorem Marked.exists_cut (h : notebook.Marked) (hSelected : notebook.selectedPage_ = some page) :
    ∃ before after, notebook.Cut page before after := by
  obtain ⟨item, hItem, rfl⟩ := List.mem_map.mp (h.selected_mem page hSelected)
  obtain ⟨before, after, hItems⟩ := List.append_of_mem hItem
  have hMark : item.selected_ = true := (h.marked item hItem).mpr hSelected
  have hItemEq : item = ⟨item.page, true⟩ := by rw [← hMark]
  have hPages : notebook.pages = before.map Item.page ++ item.page :: after.map Item.page := by
    rw [Notebook.pages, hItems, List.map_append, List.map_cons]
  have hNodup := h.nodup
  rw [hPages] at hNodup
  have hNe : ∀ other ∈ after ++ before, other.page ≠ item.page := by
    obtain ⟨-, hAfter, hDisjoint⟩ := List.nodup_append.mp hNodup
    intro other hOther
    obtain hMem | hMem := List.mem_append.mp hOther
    · intro hEq
      exact (List.nodup_cons.mp hAfter).1 (hEq ▸ List.mem_map_of_mem hMem)
    · exact hDisjoint _ (List.mem_map_of_mem hMem) _ List.mem_cons_self
  refine ⟨before, after, hItemEq ▸ hItems, hPages, ?_, hNe, ?_⟩
  · intro other hOther
    have hMem : other ∈ notebook.items_ := by
      rw [hItems, List.mem_append, List.mem_cons]
      rw [List.mem_append] at hOther
      tauto
    rw [Bool.eq_false_iff]
    intro hOtherMark
    have hSame := ((h.marked other hMem).mp hOtherMark).symm.trans hSelected
    exact hNe other hOther (Option.some.inj hSame)
  · exact indexOf_eq hItems fun other hOther => hNe other (List.mem_append_right _ hOther)

theorem Marked.withSelected_self (h : notebook.Marked) (hSelected : notebook.selectedPage_ = some page) :
    notebook.withSelected page = notebook := by
  rw [Notebook.withSelected, ← hSelected, ← h.items_eq]

theorem Marked.select_item (h : notebook.Marked) (hItem : item ∈ notebook.items_) :
    notebook.select item.page = notebook.withSelected item.page := by
  refine h.select_eq ?_
  rintro _ ⟨⟩
  exact mem_pages hItem

theorem Marked.selectAt_eq (h : notebook.Marked) (hIndex : notebook.itemAt index = .ok item)
    (hItem : item ∈ notebook.items_) : notebook.selectAt index = .ok (notebook.withSelected item.page) := by
  rw [selectAt, hIndex]
  exact congrArg _ (h.select_item hItem)

theorem Cut.mem (hCut : notebook.Cut page before after) (hItem : item ∈ after ++ before) : item ∈ notebook.items_ := by
  rw [hCut.items, List.mem_append, List.mem_cons]
  rw [List.mem_append] at hItem
  tauto

omit [DecidableEq Page] in
theorem find?_accepts (hFilter : notebook.tabVisibilityFilter_ = some filter) {items : List (Item Page)}
    (hUnselected : ∀ item ∈ items, item.selected_ = false) :
    (items.find? filter).map Item.page = (items.map Item.page).find? notebook.accepts := by
  induction items with
  | nil => rfl
  | cons item items ih =>
    have hItem : filter item = notebook.accepts item.page := by
      have hEq : item = { page := item.page } := by rw [← hUnselected item List.mem_cons_self]
      rw [accepts, hFilter, Option.all_some, ← hEq]
    rw [List.find?_cons, List.map_cons, List.find?_cons, ← hItem]
    cases filter item with
    | true => rfl
    | false => exact ih fun other hOther => hUnselected other (List.mem_cons_of_mem _ hOther)

theorem Marked.elim_find? (h : notebook.Marked) (hSelected : notebook.selectedPage_ = some page)
    (hFilter : notebook.tabVisibilityFilter_ = some filter) {items : List (Item Page)}
    (hUnselected : ∀ item ∈ items, item.selected_ = false) (hItems : ∀ item ∈ items, item ∈ notebook.items_) :
    ((items.find? filter).elim notebook fun item => notebook.select item.page) =
      notebook.withSelected (((items.map Item.page).find? notebook.accepts).getD page) := by
  rw [← find?_accepts hFilter hUnselected]
  cases hFind : items.find? filter with
  | none => exact (h.withSelected_self hSelected).symm
  | some item => exact h.select_item (hItems item (List.mem_of_find?_eq_some hFind))

omit [DecidableEq Page] in
theorem Visits.head (h : notebook.Visits advance startIndex index (item :: visited)) :
    notebook.itemAt index = .ok item := by
  cases h with
  | next _ hItem _ => exact hItem

omit [DecidableEq Page] in
theorem accepts_of_filter_none (hFilter : notebook.tabVisibilityFilter_ = none) (page : Page) :
    notebook.accepts page = true := by
  rw [accepts, hFilter]
  rfl

theorem Marked.visits_first (h : notebook.Marked) (hCut : notebook.Cut page before after)
    (hFilter : notebook.tabVisibilityFilter_ = none) (hCount : ¬notebook.count ≤ 1)
    (hVisited : ∀ item, item ∈ visited ↔ item ∈ after ++ before)
    (hVisits : notebook.Visits advance startIndex index visited) :
    notebook.selectAt index =
      .ok (notebook.withSelected (((visited.map Item.page).find? notebook.accepts).getD page)) := by
  cases visited with
  | nil =>
    have hEmpty : after ++ before = [] :=
      List.eq_nil_iff_forall_not_mem.mpr fun item hItem => List.not_mem_nil ((hVisited item).mpr hItem)
    obtain ⟨hAfter, hBefore⟩ := List.append_eq_nil_iff.mp hEmpty
    refine absurd ?_ hCount
    rw [count_eq hCut.items, hAfter, hBefore]
    exact Int.le_refl _
  | cons item visited =>
    rw [h.selectAt_eq hVisits.head (hCut.mem ((hVisited item).mp List.mem_cons_self)), List.map_cons, List.find?_cons,
      accepts_of_filter_none hFilter, Option.getD_some]

omit [DecidableEq Page] in
theorem remainder_count (hItems : notebook.items_ = before ++ item :: after) (a : Int) :
    remainder a notebook.count = .ok (a.tmod notebook.count) := by
  have hCount := count_eq hItems
  exact if_neg (by omega)

theorem Marked.selectNextTab_eq (h : notebook.Marked) (hSelected : notebook.selectedPage_ = some page) :
    notebook.selectNextTab =
      .ok (notebook.withSelected (some (nextAccepted notebook.accepts notebook.pages page))) := by
  obtain ⟨before, after, hCut⟩ := h.exists_cut hSelected
  have hOthers : others notebook.pages page = (after ++ before).map Item.page := by
    rw [others_of_cut h.nodup hCut.pages, List.map_append]
  have hVisits := visits_forwards hCut.items
  rw [nextAccepted, hOthers, selectNextTab, hSelected, hCut.index, remainder_count hCut.items]
  cases hFilter : notebook.tabVisibilityFilter_ with
  | none =>
    dsimp only
    split_ifs with hCount
    · have hNone : after ++ before = [] := by
        have hLength := count_eq hCut.items
        refine List.eq_nil_of_length_eq_zero ?_
        rw [List.length_append]
        omega
      rw [hNone, List.map_nil, List.find?_nil, Option.getD_none, h.withSelected_self hSelected]
    · exact h.visits_first hCut hFilter hCount (fun _ => Iff.rfl) hVisits
  | some filter =>
    have hFuel : (after ++ before).length < notebook.items_.length + 1 := by
      rw [hCut.items, List.length_append, List.length_append, List.length_cons]
      omega
    refine (seekTab_eq hVisits hFuel).trans ?_
    rw [h.elim_find? hSelected hFilter hCut.unselected fun item => hCut.mem]

theorem nextAccepted_ne (h : notebook.Marked) (hSelected : notebook.selectedPage_ = some page) {other : Page}
    (hOther : other ∈ notebook.pages) (hNe : other ≠ page) (hAccepts : notebook.accepts other) :
    nextAccepted notebook.accepts notebook.pages page ≠ page := by
  have hPage := h.selected_mem page hSelected
  obtain ⟨next, hFind⟩ : ∃ next, (others notebook.pages page).find? notebook.accepts = some next :=
    Option.isSome_iff_exists.mp
      (List.find?_isSome.mpr ⟨other, (mem_others h.nodup hPage).mpr ⟨hOther, hNe⟩, hAccepts⟩)
  rw [nextAccepted, hFind, Option.getD_some]
  exact ((mem_others h.nodup hPage).mp (List.mem_of_find?_eq_some hFind)).2

theorem nextAccepted_mem (h : notebook.Marked) (hSelected : notebook.selectedPage_ = some page) :
    nextAccepted notebook.accepts notebook.pages page ∈ notebook.pages := by
  have hPage := h.selected_mem page hSelected
  rw [nextAccepted]
  cases hFind : (others notebook.pages page).find? notebook.accepts with
  | none => exact hPage
  | some next => exact ((mem_others h.nodup hPage).mp (List.mem_of_find?_eq_some hFind)).1

theorem Marked.exists_selectPreviousTab (h : notebook.Marked) (hSelected : notebook.selectedPage_ = some page) :
    ∃ previous ∈ notebook.pages, notebook.selectPreviousTab = .ok (notebook.withSelected previous) ∧
      ∀ other ∈ notebook.pages, other ≠ page → notebook.accepts other → previous ≠ page := by
  obtain ⟨before, after, hCut⟩ := h.exists_cut hSelected
  have hVisited : ∀ item, item ∈ before.reverse ++ after.reverse ↔ item ∈ after ++ before := by
    intro item
    rw [List.mem_append, List.mem_append, List.mem_reverse, List.mem_reverse, or_comm]
  have hVisits := visits_backwards hCut.items
  refine ⟨(((before.reverse ++ after.reverse).map Item.page).find? notebook.accepts).getD page, ?_, ?_, ?_⟩
  · cases hFind : ((before.reverse ++ after.reverse).map Item.page).find? notebook.accepts with
    | none => exact h.selected_mem page hSelected
    | some previous =>
      obtain ⟨item, hItem, rfl⟩ := List.mem_map.mp (List.mem_of_find?_eq_some hFind)
      exact mem_pages (hCut.mem ((hVisited item).mp hItem))
  · rw [selectPreviousTab, hSelected, hCut.index]
    cases hFilter : notebook.tabVisibilityFilter_ with
    | none =>
      dsimp only
      split_ifs with hCount hFirst
      · have hNone : before.reverse ++ after.reverse = [] := by
          have hLength := count_eq hCut.items
          refine List.eq_nil_of_length_eq_zero ?_
          rw [List.length_append, List.length_reverse, List.length_reverse]
          omega
        rw [hNone, List.map_nil, List.find?_nil, Option.getD_none, h.withSelected_self hSelected]
      · have hIndex : (before.length : Int) - 1 + notebook.count = notebook.backwards before.length := by
          rw [backwards, if_pos (by omega)]
          omega
        rw [hIndex]
        exact h.visits_first hCut hFilter hCount hVisited hVisits
      · have hIndex : (before.length : Int) - 1 = notebook.backwards before.length := by
          rw [backwards, if_neg (by omega)]
        rw [hIndex]
        exact h.visits_first hCut hFilter hCount hVisited hVisits
    | some filter =>
      have hFuel : (before.reverse ++ after.reverse).length < notebook.items_.length + 1 := by
        rw [hCut.items, List.length_append, List.length_append, List.length_cons, List.length_reverse,
          List.length_reverse]
        omega
      refine (seekTab_eq hVisits hFuel).trans ?_
      rw [h.elim_find? hSelected hFilter (fun item hItem => hCut.unselected item ((hVisited item).mp hItem))
        fun item hItem => hCut.mem ((hVisited item).mp hItem)]
  · intro other hOther hNe hAccepts
    have hMem : other ∈ (before.reverse ++ after.reverse).map Item.page := by
      rw [hCut.pages, List.mem_append, List.mem_cons] at hOther
      rw [List.map_append, List.mem_append, List.map_reverse, List.map_reverse, List.mem_reverse, List.mem_reverse]
      tauto
    obtain ⟨previous, hFind⟩ : ∃ previous,
        ((before.reverse ++ after.reverse).map Item.page).find? notebook.accepts = some previous :=
      Option.isSome_iff_exists.mp (List.find?_isSome.mpr ⟨other, hMem, hAccepts⟩)
    rw [hFind, Option.getD_some]
    obtain ⟨item, hItem, rfl⟩ := List.mem_map.mp (List.mem_of_find?_eq_some hFind)
    exact hCut.ne item ((hVisited item).mp hItem)

theorem Sound.withSelected (h : notebook.Sound) (hPage : page ∈ notebook.pages) :
    (notebook.withSelected (some page)).Sound := by
  refine ⟨h.toMarked.withSelected ?_, ?_, h.filter⟩
  · rintro _ ⟨⟩
    exact hPage
  · refine iff_of_false (Option.some_ne_none page) fun hEmpty => ?_
    have hPages : notebook.pages = [] := by
      have hShown : (notebook.withSelected (some page)).pages = notebook.pages := pages_withSelected
      rw [← hShown, Notebook.pages, hEmpty]
      rfl
    rw [hPages] at hPage
    exact absurd hPage List.not_mem_nil

theorem Sound.select (h : notebook.Sound) (page : Page) : (notebook.select page).Sound := by
  by_cases hPage : page ∈ notebook.pages
  · have hSelect : notebook.select page = notebook.withSelected page := by
      refine h.select_eq ?_
      rintro _ ⟨⟩
      exact hPage
    rw [hSelect]
    exact h.withSelected hPage
  · rwa [select_of_not_mem hPage]

theorem Sound.selectVisibleFrom (h : notebook.Sound) (filter : TabVisibilityFilter Page) (index : Int)
    (items : List (Item Page)) (i : Int) : (notebook.selectVisibleFrom filter index items i).Sound := by
  induction items generalizing i with
  | nil => exact h
  | cons item items ih =>
    rw [Notebook.selectVisibleFrom]
    split_ifs
    · exact h.select item.page
    · exact ih _
    · exact ih _

theorem Sound.exists_selectAt (h : notebook.Sound) {n : Nat} (hLt : n < notebook.items_.length) :
    ∃ notebook', notebook.selectAt n = .ok notebook' ∧ notebook'.Sound := by
  obtain ⟨front, item, rest, hItems, rfl⟩ : ∃ front item rest, notebook.items_ = front ++ item :: rest ∧ front.length = n :=
    ⟨notebook.items_.take n, notebook.items_[n], notebook.items_.drop (n + 1), by
      rw [List.getElem_cons_drop, List.take_append_drop], List.length_take_of_le (Nat.le_of_lt hLt)⟩
  have hMem : item ∈ notebook.items_ := by
    rw [hItems]
    exact List.mem_append_right _ List.mem_cons_self
  exact ⟨_, h.selectAt_eq (itemAt_of_append hItems) hMem, h.withSelected (mem_pages hMem)⟩

theorem Sound.exists_selectIndex (h : notebook.Sound) (index : Int) :
    ∃ notebook', notebook.selectIndex index = .ok notebook' ∧ notebook'.Sound := by
  rw [selectIndex]
  split_ifs with hRange
  · exact ⟨notebook, rfl, h⟩
  · obtain ⟨n, rfl⟩ : ∃ n : Nat, (n : Int) = index := ⟨index.toNat, Int.toNat_of_nonneg (by omega)⟩
    refine h.exists_selectAt ?_
    rw [count] at hRange
    omega

theorem Sound.exists_selectVisibleIndex (h : notebook.Sound) (index : Int) :
    ∃ notebook', notebook.selectVisibleIndex index = .ok notebook' ∧ notebook'.Sound := by
  rw [selectVisibleIndex]
  cases notebook.tabVisibilityFilter_ with
  | none => exact h.exists_selectIndex index
  | some filter => exact ⟨_, rfl, h.selectVisibleFrom filter index _ _⟩

theorem Sound.exists_selectLastTab (h : notebook.Sound) :
    ∃ notebook', notebook.selectLastTab = .ok notebook' ∧ notebook'.Sound := by
  rw [selectLastTab]
  cases notebook.tabVisibilityFilter_ with
  | none =>
    dsimp only
    split_ifs with hCount
    · exact ⟨notebook, rfl, h⟩
    · rw [count] at hCount ⊢
      have hLast : (notebook.items_.length : Int) - 1 = (notebook.items_.length - 1 : Nat) := by omega
      rw [hLast]
      exact h.exists_selectAt (by omega)
  | some filter =>
    dsimp only
    cases notebook.items_.reverse.find? filter with
    | none => exact ⟨notebook, rfl, h⟩
    | some item => exact ⟨_, rfl, h.select item.page⟩

theorem Sound.exists_selectNextTab (h : notebook.Sound)
    (hGuarded : ¬(notebook.items_ = [] ∧ notebook.tabVisibilityFilter_.isSome)) :
    ∃ notebook', notebook.selectNextTab = .ok notebook' ∧ notebook'.Sound := by
  obtain hNone | ⟨page, hSelected⟩ := Option.eq_none_or_eq_some notebook.selectedPage_
  · have hEmpty := h.selected_iff.mp hNone
    have hFilter : notebook.tabVisibilityFilter_ = none := by
      rw [← Option.not_isSome_iff_eq_none]
      exact fun hSome => hGuarded ⟨hEmpty, hSome⟩
    refine ⟨notebook, ?_, h⟩
    rw [selectNextTab, hFilter]
    exact if_pos (by rw [count, hEmpty, List.length_nil]; decide)
  · exact ⟨_, h.selectNextTab_eq hSelected, h.withSelected (nextAccepted_mem h.toMarked hSelected)⟩

theorem Sound.exists_selectPreviousTab (h : notebook.Sound)
    (hGuarded : ¬(notebook.items_ = [] ∧ notebook.tabVisibilityFilter_.isSome)) :
    ∃ notebook', notebook.selectPreviousTab = .ok notebook' ∧ notebook'.Sound := by
  obtain hNone | ⟨page, hSelected⟩ := Option.eq_none_or_eq_some notebook.selectedPage_
  · have hEmpty := h.selected_iff.mp hNone
    have hFilter : notebook.tabVisibilityFilter_ = none := by
      rw [← Option.not_isSome_iff_eq_none]
      exact fun hSome => hGuarded ⟨hEmpty, hSome⟩
    refine ⟨notebook, ?_, h⟩
    rw [selectPreviousTab, hFilter]
    exact if_pos (by rw [count, hEmpty, List.length_nil]; decide)
  · obtain ⟨previous, hMem, hPrevious, -⟩ := h.toMarked.exists_selectPreviousTab hSelected
    exact ⟨_, hPrevious, h.withSelected hMem⟩

omit [DecidableEq Page] in
theorem Marked.of_perm (h : notebook.Marked) {items : List (Item Page)} (hPerm : items.Perm notebook.items_) :
    Marked { notebook with items_ := items } := by
  have hPages : (items.map Item.page).Perm notebook.pages := hPerm.map Item.page
  refine ⟨hPages.nodup_iff.mpr h.nodup, ?_, ?_⟩
  · exact fun page hPage => hPages.mem_iff.mpr (h.selected_mem page hPage)
  · exact fun item hItem => h.marked item (hPerm.mem_iff.mp hItem)

omit [DecidableEq Page] in
theorem Sound.of_perm (h : notebook.Sound) {items : List (Item Page)} (hPerm : items.Perm notebook.items_) :
    Sound { notebook with items_ := items } := by
  refine ⟨h.toMarked.of_perm hPerm, h.selected_iff.trans ?_, h.filter⟩
  constructor
  · intro hEmpty
    rw [hEmpty] at hPerm
    exact hPerm.eq_nil
  · intro hEmpty
    have hNil : items = [] := hEmpty
    rw [hNil] at hPerm
    exact hPerm.symm.eq_nil

omit [DecidableEq Page] in
theorem Sound.setTabVisibilityFilter (h : notebook.Sound) (filter : Option (TabVisibilityFilter Page)) :
    (notebook.setTabVisibilityFilter filter).Sound := by
  refine ⟨⟨h.nodup, h.selected_mem, h.marked⟩, h.selected_iff, ?_⟩
  intro wrapped hWrapped item hItem
  obtain ⟨originalFilter, -, rfl⟩ := Option.map_eq_some_iff.mp hWrapped
  dsimp only
  rw [hItem, Bool.true_or]

omit [DecidableEq Page] in
theorem Marked.added (h : notebook.Marked) (hNew : page ∉ notebook.pages) {items : List (Item Page)}
    (hPerm : items.Perm ({ page } :: notebook.items_)) : Marked { notebook with items_ := items } := by
  have hPages : (items.map Item.page).Perm (page :: notebook.pages) := hPerm.map Item.page
  refine ⟨hPages.nodup_iff.mpr (List.nodup_cons.mpr ⟨hNew, h.nodup⟩), ?_, ?_⟩
  · exact fun other hOther => hPages.mem_iff.mpr (List.mem_cons_of_mem _ (h.selected_mem other hOther))
  · intro item hItem
    obtain rfl | hOld := List.mem_cons.mp (hPerm.mem_iff.mp hItem)
    · exact iff_of_false Bool.false_ne_true fun hSelected => hNew (h.selected_mem page hSelected)
    · exact h.marked item hOld

theorem Sound.added (h : notebook.Sound) (hNew : page ∉ notebook.pages) {items : List (Item Page)}
    (hPerm : items.Perm ({ page } :: notebook.items_)) (select : Bool) :
    Sound (if select || count { notebook with items_ := items } == 1 then
      Notebook.select { notebook with items_ := items } page else { notebook with items_ := items }) := by
  have hMarked := h.toMarked.added hNew hPerm
  have hMem : page ∈ pages { notebook with items_ := items } :=
    (hPerm.map Item.page).mem_iff.mpr List.mem_cons_self
  have hNonempty : items ≠ [] := by
    rintro rfl
    exact absurd hMem List.not_mem_nil
  split_ifs with hSelect
  · rw [hMarked.select_eq (by rintro _ ⟨⟩; exact hMem)]
    refine ⟨hMarked.withSelected (by rintro _ ⟨⟩; exact hMem), ?_, h.filter⟩
    refine iff_of_false (Option.some_ne_none page) fun hEmpty => hNonempty ?_
    exact List.map_eq_nil_iff.mp (List.map_eq_nil_iff.mp hEmpty)
  · refine ⟨hMarked, iff_of_false (fun hNone => hSelect ?_) hNonempty, h.filter⟩
    have hEmpty := h.selected_iff.mp hNone
    rw [hEmpty] at hPerm
    have hOne : count { notebook with items_ := items } = 1 := by
      rw [count, hPerm.length_eq]
      rfl
    rw [hOne, beq_self_eq_true, Bool.or_true]

theorem Sound.exists_addPageAt (h : notebook.Sound) (hNew : page ∉ notebook.pages) {position : Int}
    (hPosition : position = -1 ∨ 0 ≤ position ∧ position ≤ notebook.count) (select : Bool) :
    ∃ notebook', notebook.addPageAt page position select = .ok notebook' ∧ notebook'.Sound := by
  rw [addPageAt]
  split_ifs with hEnd hRange
  · exact ⟨_, rfl, h.added hNew List.perm_append_comm select⟩
  · omega
  · refine ⟨_, rfl, h.added hNew (List.perm_insertIdx _ _ ?_) select⟩
    rw [count] at hRange
    omega

theorem Sound.exists_rearrangePage (h : notebook.Sound)
    (hValid : notebook.lockNotebookLayout_ ∨ page ∈ notebook.pages ∧ 0 ≤ index ∧ index < notebook.count) :
    ∃ notebook', notebook.rearrangePage page index = .ok notebook' ∧ notebook'.Sound := by
  rw [rearrangePage]
  by_cases hLocked : notebook.lockNotebookLayout_
  · exact ⟨notebook, if_pos hLocked, h⟩
  · rw [if_neg hLocked]
    obtain ⟨hPage, hIndex⟩ := hValid.resolve_left hLocked
    obtain ⟨item, hItem, rfl⟩ := List.mem_map.mp hPage
    obtain ⟨before, after, hItems⟩ := List.append_of_mem hItem
    rw [indexOf_eq hItems (h.ne_of_before hItems), itemAt_of_append hItems]
    refine ⟨_, if_neg (by omega), h.of_perm ?_⟩
    have hErase : notebook.items_.eraseIdx before.length = before ++ after := by
      rw [hItems, List.eraseIdx_append_of_length_le (Nat.le_refl _), Nat.sub_self]
      rfl
    have hLength := count_eq hItems
    rw [Int.toNat_natCast, hErase]
    refine (List.perm_insertIdx _ _ ?_).trans ?_
    · rw [List.length_append]
      omega
    · rw [hItems]
      exact List.perm_middle.symm

omit [DecidableEq Page] in
theorem Marked.removed (h : notebook.Marked) {n : Nat} (hIndex : notebook.items_[n]? = some item)
    (hSelected : notebook.selectedPage_ ≠ some item.page) :
    Marked { notebook with items_ := notebook.items_.eraseIdx n } := by
  have hSublist : (notebook.items_.eraseIdx n).Sublist notebook.items_ := List.eraseIdx_sublist _ _
  refine ⟨h.nodup.sublist (hSublist.map Item.page), ?_, fun other hOther => h.marked other (hSublist.subset hOther)⟩
  intro page hPage
  obtain ⟨other, hOther, rfl⟩ := List.mem_map.mp (h.selected_mem page hPage)
  refine List.mem_map_of_mem (List.mem_eraseIdx_iff_getElem?.mpr ?_)
  obtain ⟨m, hm⟩ := List.mem_iff_getElem?.mp hOther
  refine ⟨m, ?_, hm⟩
  rintro rfl
  rw [hIndex] at hm
  exact hSelected (Option.some.inj hm ▸ hPage)

theorem exists_visibleIndexFrom (hFilter : filter item = true) (hBefore : ∀ other ∈ before, other.page ≠ item.page)
    {i : Int} (hi : 0 ≤ i) : ∃ v, visibleIndexFrom filter item.page (before ++ item :: after) i = .ok v ∧ 0 ≤ v := by
  induction before generalizing i with
  | nil =>
    refine ⟨i, ?_, hi⟩
    rw [List.nil_append, visibleIndexFrom, if_pos rfl, if_pos hFilter]
  | cons first before ih =>
    rw [List.cons_append, visibleIndexFrom, if_neg (hBefore first List.mem_cons_self)]
    refine ih (fun other hOther => hBefore other (List.mem_cons_of_mem _ hOther)) ?_
    split_ifs
    · omega
    · exact hi

theorem Sound.exists_visibleIndexOf (h : notebook.Sound) (hCut : notebook.Cut page before after) :
    ∃ v, notebook.visibleIndexOf page = .ok v ∧ 0 ≤ v := by
  rw [visibleIndexOf]
  cases hFilter : notebook.tabVisibilityFilter_ with
  | none => exact ⟨_, rfl, hCut.index ▸ Int.natCast_nonneg _⟩
  | some filter =>
    have hAccepts : filter ⟨page, true⟩ = true := h.filter filter hFilter _ rfl
    dsimp only
    rw [hCut.items]
    exact exists_visibleIndexFrom hAccepts
      (fun other hOther => hCut.ne other (List.mem_append_right _ hOther)) (Int.le_refl 0)

theorem Sound.exists_other (h : notebook.Sound) (hCut : notebook.Cut page before after)
    (hCount : notebook.getVisibleTabCount ≠ 1) :
    ∃ other ∈ notebook.pages, other ≠ page ∧ notebook.accepts other := by
  by_contra hNone
  have hRefused : ∀ item ∈ after ++ before, notebook.accepts item.page = false := by
    intro item hItem
    rw [Bool.eq_false_iff]
    exact fun hAccepts => hNone ⟨item.page, mem_pages (hCut.mem hItem), hCut.ne item hItem, hAccepts⟩
  refine hCount ?_
  rw [getVisibleTabCount]
  cases hFilter : notebook.tabVisibilityFilter_ with
  | none =>
    have hEmpty : after ++ before = [] := by
      refine List.eq_nil_iff_forall_not_mem.mpr fun item hItem => ?_
      have hAccepts := accepts_of_filter_none hFilter item.page
      rw [hRefused item hItem] at hAccepts
      cases hAccepts
    obtain ⟨rfl, rfl⟩ := List.append_eq_nil_iff.mp hEmpty
    exact count_eq hCut.items
  | some filter =>
    have hOthers : ∀ item ∈ after ++ before, ¬filter item = true := by
      intro item hItem hAccepts
      have hEq : item = { page := item.page } := by rw [← hCut.unselected item hItem]
      have hRefusedItem := hRefused item hItem
      rw [accepts, hFilter, Option.all_some, ← hEq, hAccepts] at hRefusedItem
      cases hRefusedItem
    have hAccepts : filter ⟨page, true⟩ = true := h.filter filter hFilter _ rfl
    have hZero : ∀ items : List (Item Page), (∀ item ∈ items, item ∈ after ++ before) → items.countP filter = 0 :=
      fun items hItems => List.countP_eq_zero.mpr fun item hItem => hOthers item (hItems item hItem)
    dsimp only
    rw [hCut.items, List.countP_append, List.countP_cons_of_pos hAccepts,
      hZero before fun item hItem => List.mem_append_right _ hItem,
      hZero after fun item hItem => List.mem_append_left _ hItem]
    rfl

theorem Sound.exists_selectSuccessor (h : notebook.Sound) (hSelected : notebook.selectedPage_ = some page) :
    ∃ successor, notebook.selectSuccessor page = .ok (notebook.withSelected successor) ∧ successor ≠ some page ∧
      (∀ page ∈ successor, page ∈ notebook.pages) ∧ (successor = none → notebook.count = 1) := by
  obtain ⟨before, after, hCut⟩ := h.toMarked.exists_cut hSelected
  obtain ⟨v, hVisible, hNonneg⟩ := h.exists_visibleIndexOf hCut
  have hLength := count_eq hCut.items
  have hSome : ∀ p : Page, p ∈ notebook.pages → ∀ page ∈ some p, page ∈ notebook.pages := by
    rintro p hMem _ ⟨⟩
    exact hMem
  rw [selectSuccessor, hVisible, hCut.index]
  change ∃ successor, (if v = -1 then _ else _) = _ ∧ _
  rw [if_neg (by omega)]
  by_cases hOne : notebook.count = 1
  · refine ⟨none, ?_, (Option.some_ne_none page).symm, by rintro _ ⟨⟩, fun _ => hOne⟩
    rw [if_pos hOne, h.select_eq (by rintro _ ⟨⟩)]
  · rw [if_neg hOne]
    by_cases hVisibleOne : notebook.getVisibleTabCount = 1
    · rw [if_pos hVisibleOne, remainder_count hCut.items]
      have hVisits := visits_forwards hCut.items
      cases hOthers : after ++ before with
      | nil =>
        obtain ⟨rfl, rfl⟩ := List.append_eq_nil_iff.mp hOthers
        exact absurd hLength hOne
      | cons item others =>
        rw [hOthers] at hVisits
        have hItem : item ∈ after ++ before := hOthers ▸ List.mem_cons_self
        refine ⟨some item.page, h.selectAt_eq hVisits.head (hCut.mem hItem), ?_, hSome _ (mem_pages (hCut.mem hItem)), ?_⟩
        · exact fun hEq => hCut.ne item hItem (Option.some.inj hEq)
        · exact fun hNone => absurd hNone (Option.some_ne_none _)
    · obtain ⟨other, hOther, hNe, hAccepts⟩ := h.exists_other hCut hVisibleOne
      rw [if_neg hVisibleOne]
      split_ifs
      · obtain ⟨previous, hMem, hPrevious, hPreviousNe⟩ := h.toMarked.exists_selectPreviousTab hSelected
        refine ⟨some previous, hPrevious, ?_, hSome _ hMem, fun hNone => absurd hNone (Option.some_ne_none _)⟩
        exact fun hEq => hPreviousNe other hOther hNe hAccepts (Option.some.inj hEq)
      · refine ⟨_, h.selectNextTab_eq hSelected, ?_, hSome _ (nextAccepted_mem h.toMarked hSelected),
          fun hNone => absurd hNone (Option.some_ne_none _)⟩
        exact fun hEq => nextAccepted_ne h.toMarked hSelected hOther hNe hAccepts (Option.some.inj hEq)

theorem Sound.exists_removePage (h : notebook.Sound) (hPage : page ∈ notebook.pages) :
    ∃ notebook', notebook.removePage page = .ok notebook' ∧ notebook'.Sound := by
  obtain ⟨item, hItem, rfl⟩ := List.mem_map.mp hPage
  obtain ⟨before, after, hItems⟩ := List.append_of_mem hItem
  have hIndex : notebook.items_[before.length]? = some item := by
    rw [hItems, List.getElem?_append_right (Nat.le_refl _), Nat.sub_self]
    rfl
  rw [removePage, indexOf_eq hItems (h.ne_of_before hItems)]
  change ∃ notebook', (if (before.length : Int) = -1 then _ else _) = _ ∧ _
  rw [if_neg (by omega)]
  by_cases hSelected : notebook.selectedPage_ = some item.page
  · obtain ⟨successor, hSuccessor, hNe, hMem, hNone⟩ := h.exists_selectSuccessor hSelected
    have hShown : (notebook.withSelected successor).items_[before.length]? =
        some ⟨item.page, successor = some item.page⟩ := by
      rw [Notebook.withSelected, shown, marks, List.getElem?_map, Notebook.pages, List.getElem?_map, hIndex]
      rfl
    rw [if_pos hSelected, hSuccessor]
    refine ⟨_, rfl, ((h.toMarked.withSelected hMem).removed hShown hNe).sound ?_ h.filter⟩
    intro hSelectedNone
    have hCount : notebook.count = 1 := hNone hSelectedNone
    have hLength : (notebook.withSelected successor).items_.length = 1 := by
      rw [Notebook.withSelected, shown, marks, List.length_map, Notebook.pages, List.length_map]
      rw [count] at hCount
      omega
    have hZero : before.length = 0 := by
      have hLt := (List.getElem?_eq_some_iff.mp hShown).1
      omega
    rw [hZero]
    refine List.eq_nil_of_length_eq_zero ?_
    rw [List.length_eraseIdx_of_lt (by omega), hLength]
  · rw [if_neg hSelected]
    refine ⟨_, rfl, (h.toMarked.removed hIndex hSelected).sound ?_ h.filter⟩
    intro hNone
    have hEmpty := h.selected_iff.mp hNone
    rw [hEmpty] at hItem
    exact absurd hItem List.not_mem_nil

variable (notebook) in
def CyclesTabs : Prop :=
  ∀ item ∈ notebook.items_, notebook.accepts item.page → ∃ k : Nat, 1 ≤ k ∧ k ≤ notebook.getVisibleTabCount ∧
    ∃ notebook', (List.replicate k Event.selectNextTab).foldl step (.ok notebook) = .ok notebook' ∧
      notebook'.selectedPage_ = some item.page

theorem foldl_selectNextTab (h : notebook.Sound) (hSelected : notebook.selectedPage_ = some page) (k : Nat) :
    (List.replicate k Event.selectNextTab).foldl step (.ok notebook) =
      .ok (notebook.withSelected (some ((nextAccepted notebook.accepts notebook.pages)^[k] page))) := by
  induction k generalizing notebook page with
  | zero => exact congrArg _ (h.withSelected_self hSelected).symm
  | succ k ih =>
    have hStep : step (.ok notebook) .selectNextTab =
        .ok (notebook.withSelected (some (nextAccepted notebook.accepts notebook.pages page))) :=
      h.selectNextTab_eq hSelected
    rw [List.replicate_succ, List.foldl_cons, hStep,
      ih (h.withSelected (nextAccepted_mem h.toMarked hSelected)) rfl, Function.iterate_succ_apply,
      Notebook.withSelected, pages_withSelected]
    rfl

omit [DecidableEq Page] in
theorem Sound.countP_accepts_le (h : notebook.Sound) :
    (notebook.pages.countP notebook.accepts : Int) ≤ notebook.getVisibleTabCount := by
  rw [getVisibleTabCount, Notebook.pages, List.countP_map]
  cases hFilter : notebook.tabVisibilityFilter_ with
  | none => exact Int.ofNat_le.mpr List.countP_le_length
  | some filter =>
    refine Int.ofNat_le.mpr (List.countP_mono_left fun item hItem hAccepts => ?_)
    rw [Function.comp_apply, accepts, hFilter, Option.all_some] at hAccepts
    cases hSelected : item.selected_ with
    | true => exact h.filter filter hFilter item hSelected
    | false =>
      have hEq : item = { page := item.page } := by rw [← hSelected]
      rw [hEq]
      exact hAccepts

theorem Sound.cyclesTabs (h : notebook.Sound) : notebook.CyclesTabs := by
  intro item hItem hAccepts
  obtain hNone | ⟨page, hSelected⟩ := Option.eq_none_or_eq_some notebook.selectedPage_
  · rw [h.selected_iff.mp hNone] at hItem
    exact absurd hItem List.not_mem_nil
  · obtain ⟨k, hPos, hLe, hVisits⟩ :=
      exists_iterate_nextAccepted h.nodup (h.selected_mem page hSelected) (mem_pages hItem) hAccepts
    refine ⟨k, hPos, Int.le_trans (Int.ofNat_le.mpr hLe) h.countP_accepts_le, _, foldl_selectNextTab h hSelected k, ?_⟩
    exact congrArg some hVisits

variable (notebook) in
/-- A page is selected if there is one, its tab is the only one marked, and cycling visits all tabs. -/
structure WellSelected : Prop where
  selected_iff : notebook.selectedPage_ = none ↔ notebook.items_ = []
  selected_mem : ∀ page ∈ notebook.selectedPage_, page ∈ notebook.pages
  marked : ∀ item ∈ notebook.items_, item.selected_ = true ↔ notebook.selectedPage_ = some item.page
  cycles : notebook.CyclesTabs

variable (notebook) in
/-- A page that is added is a new one, one that is removed or moved is there, and positions are in range. -/
def Valid : Event Page → Prop
  | .addPage page _ => page ∉ notebook.pages
  | .addPageAt page position _ => page ∉ notebook.pages ∧ (position = -1 ∨ 0 ≤ position ∧ position ≤ notebook.count)
  | .removePage page => page ∈ notebook.pages
  | .rearrangePage page index =>
    notebook.lockNotebookLayout_ ∨ page ∈ notebook.pages ∧ 0 ≤ index ∧ index < notebook.count
  | .sortTabsAlphabetically sorted => sorted.Perm notebook.items_
  | _ => True

variable (notebook) in
/-- The loops are not started without tabs while a filter is set, and no selection is cleared from outside. -/
def Guarded : Event Page → Prop
  | .selectNextTab | .selectPreviousTab => ¬(notebook.items_ = [] ∧ notebook.tabVisibilityFilter_.isSome)
  | .select none => notebook.items_ = []
  | _ => True

theorem Sound.exists_perform (h : notebook.Sound) {event : Event Page} (hValid : notebook.Valid event)
    (hGuarded : notebook.Guarded event) : ∃ notebook', notebook.perform event = .ok notebook' ∧ notebook'.Sound := by
  cases event with
  | addPage page select => exact h.exists_addPageAt hValid (.inl rfl) select
  | addPageAt page position select => exact h.exists_addPageAt hValid.1 hValid.2 select
  | removePage page => exact h.exists_removePage hValid
  | rearrangePage page index => exact h.exists_rearrangePage hValid
  | sortTabsAlphabetically sorted => exact ⟨_, rfl, h.of_perm hValid⟩
  | select page =>
    cases page with
    | none =>
      have hNone : notebook.selectedPage_ = none := h.selected_iff.mpr hGuarded
      have hSame : notebook.select none = notebook := by rw [Notebook.select.eq_def, if_pos hNone.symm]
      exact ⟨_, rfl, hSame.symm ▸ h⟩
    | some page => exact ⟨_, rfl, h.select page⟩
  | selectIndex index => exact h.exists_selectIndex index
  | selectVisibleIndex index => exact h.exists_selectVisibleIndex index
  | selectNextTab => exact h.exists_selectNextTab hGuarded
  | selectPreviousTab => exact h.exists_selectPreviousTab hGuarded
  | selectLastTab => exact h.exists_selectLastTab
  | setTabVisibilityFilter filter => exact ⟨_, rfl, h.setTabVisibilityFilter filter⟩
  | setLockNotebookLayout value => exact ⟨_, rfl, ⟨h.nodup, h.selected_mem, h.marked⟩, h.selected_iff, h.filter⟩

theorem Sound.wellSelected (h : notebook.Sound) : notebook.WellSelected :=
  ⟨h.selected_iff, h.selected_mem, h.marked, h.cyclesTabs⟩

theorem Sound.guarded_of_wellSelected (h : notebook.Sound) {event : Event Page}
    (hWell : ∃ notebook', notebook.perform event = .ok notebook' ∧ notebook'.WellSelected) : notebook.Guarded event := by
  obtain ⟨notebook', hPerform, hWell⟩ := hWell
  have hLoop : (event = .selectNextTab ∨ event = .selectPreviousTab) →
      ¬(notebook.items_ = [] ∧ notebook.tabVisibilityFilter_.isSome) := by
    rintro hEvent ⟨hEmpty, hSome⟩
    obtain ⟨filter, hFilter⟩ := Option.isSome_iff_exists.mp hSome
    have hCount : notebook.count = 0 := by
      rw [count, hEmpty]
      rfl
    have hIndex : notebook.indexOf notebook.selectedPage_ = -1 := by
      rw [indexOf, hEmpty]
      rfl
    obtain rfl | rfl := hEvent
    · rw [perform, selectNextTab, hFilter, hCount] at hPerform
      cases hPerform
    · rw [perform, selectPreviousTab, hFilter, hIndex, hCount, hEmpty] at hPerform
      cases hPerform
  cases event with
  | selectNextTab => exact hLoop (.inl rfl)
  | selectPreviousTab => exact hLoop (.inr rfl)
  | select page =>
    cases page with
    | none =>
      have hSelect : notebook.select none = notebook' := Except.ok.inj hPerform
      rw [h.select_eq (by rintro _ ⟨⟩)] at hSelect
      have hEmpty : notebook'.items_ = [] := hWell.selected_iff.mp (by rw [← hSelect]; rfl)
      rw [← hSelect] at hEmpty
      exact List.map_eq_nil_iff.mp (List.map_eq_nil_iff.mp hEmpty)
    | some page => trivial
  | _ => trivial

def InState (condition : Notebook Page → Event Page → Prop) (state : Except Fault (Notebook Page))
    (event : Event Page) : Prop :=
  ∀ notebook, state = .ok notebook → condition notebook event

theorem Sound.wellSelected_iff (h : notebook.Sound) {events : List (Event Page)}
    (hValid : AllSteps step (InState Valid) (.ok notebook) events) :
    (∀ reached, reached <+: events → ∃ notebook', reached.foldl step (.ok notebook) = .ok notebook' ∧
      notebook'.WellSelected) ↔ AllSteps step (InState Guarded) (.ok notebook) events := by
  induction events generalizing notebook with
  | nil =>
    refine iff_of_true ?_ trivial
    intro reached hReached
    rw [List.prefix_nil.mp hReached]
    exact ⟨notebook, rfl, h.wellSelected⟩
  | cons event events ih =>
    obtain ⟨hEvent, hRest⟩ := hValid
    constructor
    · intro hWell
      have hGuarded : notebook.Guarded event :=
        h.guarded_of_wellSelected (hWell [event] (List.prefix_append [event] events))
      obtain ⟨notebook', hPerform, hSound⟩ := h.exists_perform (hEvent notebook rfl) hGuarded
      have hStep : step (.ok notebook) event = .ok notebook' := hPerform
      refine ⟨?_, ?_⟩
      · rintro _ ⟨⟩
        exact hGuarded
      · rw [hStep] at hRest ⊢
        refine (ih hSound hRest).mp fun reached hReached => ?_
        have hLonger := hWell (event :: reached) (List.cons_prefix_cons.mpr ⟨rfl, hReached⟩)
        rwa [List.foldl_cons, hStep] at hLonger
    · rintro ⟨hGuarded, hRestGuarded⟩ reached hReached
      obtain ⟨notebook', hPerform, hSound⟩ := h.exists_perform (hEvent notebook rfl) (hGuarded notebook rfl)
      have hStep : step (.ok notebook) event = .ok notebook' := hPerform
      cases reached with
      | nil => exact ⟨notebook, rfl, h.wellSelected⟩
      | cons first reached =>
        obtain ⟨rfl, hShorter⟩ := List.cons_prefix_cons.mp hReached
        rw [hStep] at hRest hRestGuarded
        rw [List.foldl_cons, hStep]
        exact (ih hSound hRest).mpr hRestGuarded reached hShorter

omit [DecidableEq Page] in
theorem sound_empty : Sound ({} : Notebook Page) := by
  refine ⟨⟨List.nodup_nil, ?_, ?_⟩, iff_of_true rfl rfl, ?_⟩
  · rintro _ ⟨⟩
  · exact fun item hItem => absurd hItem List.not_mem_nil
  · rintro _ ⟨⟩

/-- No operation fails and the selection is valid throughout exactly if every event is guarded. -/
theorem wellSelected_iff_guarded {events : List (Event Page)}
    (hValid : AllSteps step (InState Valid) (.ok {}) events) :
    (∀ reached, reached <+: events → ∃ notebook, run reached = .ok notebook ∧ notebook.WellSelected) ↔
      AllSteps step (InState Guarded) (.ok {}) events :=
  sound_empty.wellSelected_iff hValid

theorem wellSelected_iff_guarded_onePage : ∃ notebook : Notebook Nat,
    run [.addPage 7 false, .selectNextTab, .removePage 7] = .ok notebook ∧ notebook.WellSelected := by
  have hValid : AllSteps step (InState Valid) (.ok ({} : Notebook Nat))
      [Event.addPage 7 false, .selectNextTab, .removePage 7] := by
    refine ⟨?_, fun _ _ => trivial, ?_, trivial⟩
    · rintro _ ⟨⟩
      exact List.not_mem_nil
    · rintro _ ⟨⟩
      exact List.mem_cons_self
  refine (wellSelected_iff_guarded hValid).mpr ⟨fun _ _ => trivial, ?_, fun _ _ => trivial, trivial⟩ _ List.prefix_rfl
  rintro _ ⟨⟩ ⟨-, hSome⟩
  cases hSome

/-- The next tab is asked for where there are none, and a filter is set. -/
theorem not_wellSelected_empty : ¬∀ events : List (Event Nat), AllSteps step (InState Valid) (.ok {}) events →
    ∀ reached, reached <+: events → ∃ notebook, run reached = .ok notebook ∧ notebook.WellSelected := by
  intro hAll
  obtain ⟨notebook, hRun, -⟩ := hAll [.setTabVisibilityFilter (some fun _ => true), .selectNextTab]
    ⟨fun _ _ => trivial, fun _ _ => trivial, trivial⟩ _ (List.prefix_refl _)
  cases hRun

end Notebook

end Chatterino.Notebooks
