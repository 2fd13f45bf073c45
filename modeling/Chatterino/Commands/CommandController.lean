import Chatterino.Commands.CustomCommand
import Chatterino.Emojis.ShortCodes
import Mathlib.Data.List.InsertIdx

/-! # Custom commands by their names

The controller keeps, besides the list of its commands, a map from their names and the number of spaces in the longest
name. A text is looked up by its first word, then by its first two words, and so on.
-/

namespace Chatterino.Commands

open Lib QString

structure CommandController where
  items : List Command
  userCommands_ : QString → Option Command
  maxSpaces_ : Nat

namespace CommandController

def empty : CommandController := ⟨[], fun _ => none, 0⟩

def longerOf (maxSpaces : Nat) (cmd : Command) : Nat :=
  let localMaxSpaces := cmd.name.count SPACE
  if maxSpaces < localMaxSpaces then localMaxSpaces else maxSpaces

/-- Connected to the signals for an item that has been inserted or removed. -/
def addFirstMatchToMap (item : Command) (controller : CommandController) : CommandController :=
  let removed := Function.update controller.userCommands_ item.name none
  { controller with
    userCommands_ :=
      match controller.items.find? fun cmd => cmd.name = item.name with
      | some cmd => Function.update removed cmd.name (some cmd)
      | none => removed
    maxSpaces_ := controller.items.foldl longerOf 0 }

def insert (item : Command) (index : Int) (controller : CommandController) : CommandController :=
  let index := if index = -1 then controller.items.length else index.toNat
  addFirstMatchToMap item { controller with items := controller.items.insertIdx index item }

def removeAt (index : Nat) (controller : CommandController) : CommandController :=
  match controller.items[index]? with
  | none => controller
  | some item => addFirstMatchToMap item { controller with items := controller.items.eraseIdx index }

def removeFirstMatching (matcher : Command → Bool) (controller : CommandController) : CommandController :=
  match controller.items.findIdx? matcher with
  | none => controller
  | some index => removeAt index controller

end CommandController

inductive Edit where
  | insert (item : Command) (index : Int)
  | removeAt (index : Nat)
  | removeFirstMatching (matcher : Command → Bool)

def edit (controller : CommandController) : Edit → CommandController
  | .insert item index => controller.insert item index
  | .removeAt index => controller.removeAt index
  | .removeFirstMatching matcher => controller.removeFirstMatching matcher

def edited (edits : List Edit) : CommandController := edits.foldl edit .empty

/-- `text.split(' ', Qt::SkipEmptyParts)`. -/
def splitWords (text : QString) : List QString := (text.splitOn SPACE).filter (· ≠ [])

structure Execution where
  env : Surroundings
  isNewline : QChar → Bool
  emojiShortCodeToEmoji_ : QString → Option QString
  commands_ : QString → Option (List QString → QString)
  isWhispers : Bool
  dryRun : Bool

/-- The text to send, with the custom commands that have been executed on the way and their words. -/
structure Executed where
  text : QString
  custom : List (Command × List QString)

section

variable (execution : Execution) (controller : CommandController)

def findLonger (userCommands_ : QString → Option Command) : (commandName : QString) → List QString → Option Command
  | _, [] => none
  | commandName, word :: words =>
    let commandName := commandName ++ [SPACE] ++ word
    match userCommands_ commandName with
    | some command => some command
    | none => findLonger userCommands_ commandName words

/-- The commands of the program, then longer names. -/
def execWords (text : QString) (words : List QString) (custom : List (Command × List QString)) : Executed :=
  match words with
  | [] => ⟨text, custom⟩
  | commandName :: others =>
    match if execution.dryRun then none else execution.commands_ commandName with
    | some command => ⟨command words, custom⟩
    | none =>
      let maxSpaces := min controller.maxSpaces_ others.length
      match findLonger controller.userCommands_ commandName (others.take maxSpaces) with
      | some command =>
        ⟨execCustomCommand execution.env words execution.isNewline command, custom ++ [(command, words)]⟩
      | none => if !execution.dryRun && execution.isWhispers then ⟨[], custom⟩ else ⟨text, custom⟩

def execCommand (textNoEmoji : QString) : Executed :=
  let text := Emojis.replaceShortCodes execution.emojiShortCodeToEmoji_ textNoEmoji
  let words := splitWords text
  match words with
  | [] => ⟨text, []⟩
  | commandName :: _ =>
    match controller.userCommands_ commandName with
    | some command =>
      let text := Emojis.replaceShortCodes execution.emojiShortCodeToEmoji_
        (execCustomCommand execution.env words execution.isNewline command)
      execWords execution controller text (splitWords text) [(command, words)]
    | none => execWords execution controller text words []

end

def firstWords (k : Nat) (words : List QString) : QString := [SPACE].intercalate (words.take k)

def named (items : List Command) (name : QString) : Option Command := items.find? fun cmd => cmd.name = name

/-- The command is the first one of its name, and no shorter part of the text is a name. -/
structure Shortest (items : List Command) (words : List QString) (k : Nat) (command : Command) : Prop where
  pos : 0 < k
  le_length : k ≤ words.length
  named_eq : named items (firstWords k words) = some command
  shorter (j : Nat) : 0 < j → j < k → named items (firstWords j words) = none

/-- The map and the maximum follow the list, and the custom command that is executed first is the one of the shortest
name. -/
structure FollowsItems (controller : CommandController) : Prop where
  mapped (name : QString) : controller.userCommands_ name = named controller.items name
  le_maxSpaces (item : Command) : item ∈ controller.items → item.name.count SPACE ≤ controller.maxSpaces_
  maxSpaces_mem : controller.items ≠ [] → ∃ item ∈ controller.items, item.name.count SPACE = controller.maxSpaces_
  maxSpaces_nil : controller.items = [] → controller.maxSpaces_ = 0
  executes (execution : Execution) (textNoEmoji : QString) (command : Command) (words : List QString) :
    (execCommand execution controller textNoEmoji).custom.head? = some (command, words) ↔
      words = splitWords (Emojis.replaceShortCodes execution.emojiShortCodeToEmoji_ textNoEmoji) ∧
        ∃ k, Shortest controller.items words k command ∧
          (k = 1 ∨ execution.dryRun = true ∨ ∀ commandName ∈ words.head?, execution.commands_ commandName = none)

section

variable {controller : CommandController}

structure Indexed (controller : CommandController) : Prop where
  mapped (name : QString) : controller.userCommands_ name = named controller.items name
  maxSpaces : controller.maxSpaces_ = controller.items.foldl CommandController.longerOf 0

theorem indexed_empty : Indexed .empty := ⟨fun _ => rfl, rfl⟩

theorem indexed_addFirstMatchToMap {item : Command} {items : List Command}
    (hMapped : ∀ name, controller.userCommands_ name = named items name)
    (hOthers : ∀ name, item.name ≠ name → named controller.items name = named items name) :
    Indexed (controller.addFirstMatchToMap item) := by
  refine ⟨fun name => ?_, rfl⟩
  rw [CommandController.addFirstMatchToMap]
  dsimp only
  by_cases hName : item.name = name
  · subst hName
    cases hFound : controller.items.find? fun cmd => cmd.name = item.name with
    | none =>
      dsimp only
      rw [Function.update_self, named, hFound]
    | some cmd =>
      have hSame : cmd.name = item.name := by simpa using List.find?_some hFound
      dsimp only
      rw [hSame, Function.update_self, named, hFound]
  · rw [hOthers name hName, ← hMapped name]
    cases hFound : controller.items.find? fun cmd => cmd.name = item.name with
    | none => exact Function.update_of_ne (Ne.symm hName) _ _
    | some cmd =>
      have hSame : cmd.name = item.name := by simpa using List.find?_some hFound
      dsimp only
      rw [hSame, Function.update_of_ne (Ne.symm hName), Function.update_of_ne (Ne.symm hName)]

theorem named_insertIdx {item : Command} {name : QString} (h : item.name ≠ name) (index : Nat) (items : List Command) :
    named (items.insertIdx index item) name = named items name := by
  induction index generalizing items with
  | zero =>
    rw [List.insertIdx_zero, named, List.find?_cons_of_neg (by simpa using h)]
    rfl
  | succ index ih =>
    cases items with
    | nil => rfl
    | cons first items =>
      have hItems := ih items
      rw [named, named] at hItems
      rw [List.insertIdx_succ_cons, named, named, List.find?_cons, List.find?_cons, hItems]

theorem named_eraseIdx {item : Command} {name : QString} (h : item.name ≠ name) {index : Nat} {items : List Command}
    (hItem : items[index]? = some item) : named (items.eraseIdx index) name = named items name := by
  induction index generalizing items with
  | zero =>
    cases items with
    | nil => cases hItem
    | cons first items =>
      cases hItem
      rw [List.eraseIdx_cons_zero, named, named, List.find?_cons_of_neg (by simpa using h)]
  | succ index ih =>
    cases items with
    | nil => cases hItem
    | cons first items =>
      have hItems := ih hItem
      rw [named, named] at hItems
      rw [List.eraseIdx_cons_succ, named, named, List.find?_cons, List.find?_cons, hItems]

theorem indexed_removeAt (h : Indexed controller) (index : Nat) : Indexed (controller.removeAt index) := by
  rw [CommandController.removeAt]
  cases hItem : controller.items[index]? with
  | none => exact h
  | some item => exact indexed_addFirstMatchToMap h.mapped fun name hName => named_eraseIdx hName hItem

theorem indexed_edit (h : Indexed controller) (change : Edit) : Indexed (edit controller change) := by
  cases change with
  | insert item index => exact indexed_addFirstMatchToMap h.mapped fun name hName => named_insertIdx hName _ _
  | removeAt index => exact indexed_removeAt h index
  | removeFirstMatching matcher =>
    rw [edit, CommandController.removeFirstMatching]
    cases controller.items.findIdx? matcher with
    | none => exact h
    | some index => exact indexed_removeAt h index

theorem indexed_foldl (h : Indexed controller) (edits : List Edit) : Indexed (edits.foldl edit controller) := by
  induction edits generalizing controller with
  | nil => exact h
  | cons change edits ih => exact ih (indexed_edit h change)

end

theorem longerOf_eq (maxSpaces : Nat) (cmd : Command) :
    CommandController.longerOf maxSpaces cmd = max maxSpaces (cmd.name.count SPACE) := by
  rw [CommandController.longerOf]
  split_ifs with h
  · exact (max_eq_right h.le).symm
  · exact (max_eq_left (Nat.le_of_not_lt h)).symm

theorem foldl_longerOf (items : List Command) (maxSpaces : Nat) :
    items.foldl CommandController.longerOf maxSpaces =
      (items.map fun item => item.name.count SPACE).foldl max maxSpaces := by
  induction items generalizing maxSpaces with
  | nil => rfl
  | cons item items ih =>
    rw [List.foldl_cons, List.map_cons, List.foldl_cons, longerOf_eq]
    exact ih _

theorem le_foldl_max (counts : List Nat) (n : Nat) : n ≤ counts.foldl max n ∧ ∀ count ∈ counts, count ≤ counts.foldl max n := by
  induction counts generalizing n with
  | nil => exact ⟨le_rfl, by rintro _ ⟨⟩⟩
  | cons count counts ih =>
    obtain ⟨hStart, hCounts⟩ := ih (max n count)
    refine ⟨(le_max_left _ _).trans hStart, List.forall_mem_cons.mpr ⟨(le_max_right _ _).trans hStart, hCounts⟩⟩

theorem foldl_max_mem (counts : List Nat) (n : Nat) : counts.foldl max n = n ∨ counts.foldl max n ∈ counts := by
  induction counts generalizing n with
  | nil => exact .inl rfl
  | cons count counts ih =>
    rcases ih (max n count) with hEq | hMem
    · rcases max_choice n count with hLeft | hRight
      · exact .inl (hEq.trans hLeft)
      · refine .inr ?_
        rw [List.foldl_cons, hEq, hRight]
        exact List.mem_cons_self
    · exact .inr (List.mem_cons_of_mem _ hMem)

section

variable {controller : CommandController} {execution : Execution}

theorem intercalate_merge (name word : QString) (words : List QString) :
    [SPACE].intercalate ((name ++ [SPACE] ++ word) :: words) = [SPACE].intercalate (name :: word :: words) := by
  cases words with
  | nil => simp [List.intercalate_cons_cons]
  | cons next words => simp [List.intercalate_cons_cons]

theorem findLonger_eq_some_iff {lookup : QString → Option Command} {name : QString} {words : List QString} {command : Command} :
    findLonger lookup name words = some command ↔ ∃ j, 0 < j ∧ j ≤ words.length ∧
      lookup ([SPACE].intercalate (name :: words.take j)) = some command ∧
        ∀ i, 0 < i → i < j → lookup ([SPACE].intercalate (name :: words.take i)) = none := by
  induction words generalizing name with
  | nil =>
    rw [findLonger]
    refine iff_of_false (by rintro ⟨⟩) ?_
    rintro ⟨j, hPos, hLength, -⟩
    exact absurd (Nat.lt_of_lt_of_le hPos hLength) (lt_irrefl 0)
  | cons word words ih =>
    have hFirst : [SPACE].intercalate (name :: (word :: words).take 1) = name ++ [SPACE] ++ word := by
      simp [List.intercalate_cons_cons]
    have hLater : ∀ j, [SPACE].intercalate (name :: (word :: words).take (j + 1)) =
        [SPACE].intercalate ((name ++ [SPACE] ++ word) :: words.take j) := by
      intro j
      rw [intercalate_merge]
      rfl
    rw [findLonger]
    cases hLookup : lookup (name ++ [SPACE] ++ word) with
    | some found =>
      dsimp only
      constructor
      · rintro ⟨⟩
        refine ⟨1, Nat.one_pos, Nat.le_add_left 1 _, hFirst ▸ hLookup, fun i hPos hLess => ?_⟩
        exact absurd hPos (Nat.not_lt.mpr (Nat.le_of_lt_succ hLess))
      · rintro ⟨j, hPos, -, hFound, hShorter⟩
        rcases Nat.lt_or_ge 1 j with hMore | hOne
        · have hNone := hShorter 1 Nat.one_pos hMore
          rw [hFirst, hLookup] at hNone
          cases hNone
        · obtain rfl : j = 1 := Nat.le_antisymm hOne hPos
          rw [hFirst, hLookup] at hFound
          exact hFound
    | none =>
      dsimp only
      rw [ih]
      constructor
      · rintro ⟨j, hPos, hLength, hFound, hShorter⟩
        refine ⟨j + 1, Nat.succ_pos j, Nat.succ_le_succ hLength, hLater j ▸ hFound, fun i hi hLess => ?_⟩
        cases i with
        | zero => exact absurd hi (lt_irrefl 0)
        | succ i =>
          rw [hLater]
          rcases Nat.eq_zero_or_pos i with rfl | hi
          · rw [List.take_zero]
            simpa using hLookup
          · exact hShorter i hi (Nat.lt_of_succ_lt_succ hLess)
      · rintro ⟨j, hPos, hLength, hFound, hShorter⟩
        cases j with
        | zero => exact absurd hPos (lt_irrefl 0)
        | succ j =>
          rcases Nat.eq_zero_or_pos j with rfl | hj
          · rw [hFirst, hLookup] at hFound
            cases hFound
          · refine ⟨j, hj, Nat.le_of_succ_le_succ hLength, hLater j ▸ hFound, fun i hi hLess => ?_⟩
            rw [← hLater]
            exact hShorter (i + 1) (Nat.succ_pos i) (Nat.succ_lt_succ hLess)

theorem le_count_intercalate (words : List QString) : words.length ≤ ([SPACE].intercalate words).count SPACE + 1 := by
  induction words with
  | nil => exact Nat.zero_le _
  | cons word words ih =>
    cases words with
    | nil => exact Nat.le_add_left 1 _
    | cons next words =>
      rw [List.intercalate_cons_cons, List.count_append, List.count_append, List.count_singleton_self]
      rw [List.length_cons]
      omega

theorem length_firstWords_le {words : List QString} {k : Nat} (hLength : k ≤ words.length) :
    k ≤ (firstWords k words).count SPACE + 1 := by
  have hCount := le_count_intercalate (words.take k)
  rwa [List.length_take_of_le hLength] at hCount

theorem le_maxSpaces_of_indexed (h : Indexed controller) : ∀ item ∈ controller.items, item.name.count SPACE ≤ controller.maxSpaces_ := by
  intro item hMem
  rw [h.maxSpaces, foldl_longerOf]
  exact (le_foldl_max _ 0).2 _ (List.mem_map_of_mem hMem)

theorem findLonger_controller (h : Indexed controller) (commandName : QString) (others : List QString) (command : Command) :
    findLonger controller.userCommands_ commandName (others.take (min controller.maxSpaces_ others.length)) = some command ↔
      ∃ k, 1 < k ∧ k ≤ others.length + 1 ∧ named controller.items (firstWords k (commandName :: others)) = some command ∧
        ∀ j, 1 < j → j < k → named controller.items (firstWords j (commandName :: others)) = none := by
  rw [findLonger_eq_some_iff]
  have hName : ∀ j ≤ min controller.maxSpaces_ others.length,
      controller.userCommands_ ([SPACE].intercalate
        (commandName :: (others.take (min controller.maxSpaces_ others.length)).take j)) =
          named controller.items (firstWords (j + 1) (commandName :: others)) := by
    intro j hj
    rw [List.take_take, min_eq_left hj, h.mapped, firstWords, List.take_succ_cons]
  rw [List.length_take, min_assoc, min_self]
  constructor
  · rintro ⟨j, hPos, hLe, hFound, hShorter⟩
    rw [hName j hLe] at hFound
    refine ⟨j + 1, Nat.succ_lt_succ hPos, Nat.succ_le_succ (hLe.trans (min_le_right _ _)), hFound, fun i hi hLess => ?_⟩
    obtain ⟨i, rfl⟩ := Nat.exists_eq_add_one_of_ne_zero (Nat.ne_of_gt (Nat.lt_trans Nat.one_pos hi))
    have hiLe : i < j := Nat.lt_of_succ_lt_succ hLess
    rw [← hName i (hiLe.le.trans hLe)]
    exact hShorter i (Nat.lt_of_succ_lt_succ hi) hiLe
  · rintro ⟨k, hk, hLength, hFound, hShorter⟩
    obtain ⟨j, rfl⟩ := Nat.exists_eq_add_one_of_ne_zero (Nat.ne_of_gt (Nat.lt_trans Nat.one_pos hk))
    have hItem := List.mem_of_find?_eq_some hFound
    have hSame : command.name = firstWords (j + 1) (commandName :: others) := by simpa using List.find?_some hFound
    have hSpaces := le_maxSpaces_of_indexed h command hItem
    have hWords := @length_firstWords_le (commandName :: others) (j + 1) hLength
    rw [hSame] at hSpaces
    have hjLe : j ≤ min controller.maxSpaces_ others.length := by omega
    refine ⟨j, Nat.lt_of_succ_lt_succ hk, hjLe, (hName j hjLe).trans hFound, fun i hi hLess => ?_⟩
    rw [hName i (hLess.le.trans hjLe)]
    exact hShorter (i + 1) (Nat.succ_lt_succ hi) (Nat.succ_lt_succ hLess)

end

section

variable {controller : CommandController} {execution : Execution}

theorem prefix_execWords (text : QString) (words : List QString) (custom : List (Command × List QString)) :
    custom <+: (execWords execution controller text words custom).custom := by
  cases words with
  | nil => exact List.prefix_rfl
  | cons commandName others =>
    rw [execWords]
    split
    · exact List.prefix_rfl
    · dsimp only
      split
      · exact List.prefix_append _ _
      · split_ifs <;> exact List.prefix_rfl

theorem head_execWords (text commandName : QString) (others : List QString) (command : Command) (words : List QString) :
    (execWords execution controller text (commandName :: others) []).custom.head? = some (command, words) ↔
      words = commandName :: others ∧ (execution.dryRun = true ∨ execution.commands_ commandName = none) ∧
        findLonger controller.userCommands_ commandName (others.take (min controller.maxSpaces_ others.length)) =
          some command := by
  rw [execWords]
  have hProgram : (if execution.dryRun then none else execution.commands_ commandName) = none ↔
      execution.dryRun = true ∨ execution.commands_ commandName = none := by
    cases execution.dryRun with
    | true => exact iff_of_true rfl (.inl rfl)
    | false => exact (or_iff_right Bool.false_ne_true).symm
  rw [← hProgram]
  cases if execution.dryRun then none else execution.commands_ commandName with
  | some _ =>
    refine iff_of_false (by rintro ⟨⟩) ?_
    rintro ⟨-, ⟨⟩, -⟩
  | none =>
    dsimp only
    cases findLonger controller.userCommands_ commandName (others.take (min controller.maxSpaces_ others.length)) with
    | some found =>
      rw [and_iff_right rfl]
      constructor
      · rintro ⟨⟩
        exact ⟨rfl, rfl⟩
      · rintro ⟨rfl, ⟨⟩⟩
        rfl
    | none =>
      refine iff_of_false ?_ ?_
      · dsimp only
        split_ifs <;> rintro ⟨⟩
      · rintro ⟨-, -, ⟨⟩⟩

theorem firstWords_one (commandName : QString) (others : List QString) : firstWords 1 (commandName :: others) = commandName := by
  rw [firstWords, List.take_succ_cons, List.take_zero]
  exact List.append_nil _

theorem executes_of_indexed (h : Indexed controller) (textNoEmoji : QString) (command : Command) (words : List QString) :
    (execCommand execution controller textNoEmoji).custom.head? = some (command, words) ↔
      words = splitWords (Emojis.replaceShortCodes execution.emojiShortCodeToEmoji_ textNoEmoji) ∧
        ∃ k, Shortest controller.items words k command ∧
          (k = 1 ∨ execution.dryRun = true ∨ ∀ commandName ∈ words.head?, execution.commands_ commandName = none) := by
  rw [execCommand]
  dsimp only
  cases splitWords (Emojis.replaceShortCodes execution.emojiShortCodeToEmoji_ textNoEmoji) with
  | nil =>
    refine iff_of_false (by rintro ⟨⟩) ?_
    rintro ⟨rfl, k, hShortest, -⟩
    exact absurd hShortest.pos (Nat.not_lt.mpr hShortest.le_length)
  | cons commandName others =>
    dsimp only
    have hFirst : controller.userCommands_ commandName = named controller.items (firstWords 1 (commandName :: others)) := by
      rw [h.mapped, firstWords_one]
    cases hLookup : controller.userCommands_ commandName with
    | some first =>
      rw [hLookup] at hFirst
      have hHead : ∀ text words, (execWords execution controller text words [(first, commandName :: others)]).custom.head? =
          some (first, commandName :: others) := by
        intro text words
        obtain ⟨tail, hTail⟩ := @prefix_execWords controller execution text words [(first, commandName :: others)]
        rw [← hTail]
        rfl
      dsimp only
      rw [hHead]
      constructor
      · rintro ⟨⟩
        refine ⟨rfl, 1, ⟨Nat.one_pos, Nat.le_add_left 1 _, hFirst.symm, fun j hj hLess => ?_⟩, .inl rfl⟩
        exact absurd hj (Nat.not_lt.mpr (Nat.le_of_lt_succ hLess))
      · rintro ⟨rfl, k, hShortest, -⟩
        have hOne : k = 1 := by
          by_contra hNot
          have hPos := hShortest.pos
          have hNone := hShortest.shorter 1 Nat.one_pos (by omega)
          rw [← hFirst] at hNone
          cases hNone
        subst hOne
        have hSame := hFirst.trans hShortest.named_eq
        cases hSame
        rfl
    | none =>
      rw [hLookup] at hFirst
      dsimp only
      rw [head_execWords, findLonger_controller h]
      apply and_congr_right
      rintro rfl
      have hHead : (∀ c ∈ (commandName :: others).head?, execution.commands_ c = none) ↔
          execution.commands_ commandName = none := by
        constructor
        · intro hAll
          exact hAll commandName rfl
        · rintro hNone _ ⟨⟩
          exact hNone
      rw [hHead]
      constructor
      · rintro ⟨hProgram, k, hk, hLength, hNamed, hShorter⟩
        refine ⟨k, ⟨Nat.lt_trans Nat.one_pos hk, hLength, hNamed, fun j hj hLess => ?_⟩, .inr hProgram⟩
        rcases Nat.lt_or_ge 1 j with hMore | hOne
        · exact hShorter j hMore hLess
        · obtain rfl : j = 1 := Nat.le_antisymm hOne hj
          exact hFirst.symm
      · rintro ⟨k, hShortest, hProgram⟩
        have hMore : 1 < k := by
          by_contra hNot
          obtain rfl : k = 1 := Nat.le_antisymm (Nat.not_lt.mp hNot) hShortest.pos
          have hNamed := hFirst.trans hShortest.named_eq
          cases hNamed
        refine ⟨hProgram.resolve_left (Nat.ne_of_gt hMore), k, hMore, hShortest.le_length, hShortest.named_eq, ?_⟩
        intro j hj hLess
        exact hShortest.shorter j (Nat.lt_trans Nat.one_pos hj) hLess

end

/-- After any edits, the controller follows the list of commands. -/
theorem followsItems_edited (edits : List Edit) : FollowsItems (edited edits) := by
  have hIndexed : Indexed (edited edits) := indexed_foldl indexed_empty edits
  refine ⟨hIndexed.mapped, le_maxSpaces_of_indexed hIndexed, fun hItems => ?_, fun hNil => ?_,
    fun execution => executes_of_indexed hIndexed⟩
  · rw [hIndexed.maxSpaces, foldl_longerOf]
    rcases foldl_max_mem ((edited edits).items.map fun item => item.name.count SPACE) 0 with hZero | hMem
    · obtain ⟨item, hItem⟩ := List.exists_mem_of_ne_nil _ hItems
      refine ⟨item, hItem, ?_⟩
      have hLe := le_maxSpaces_of_indexed hIndexed item hItem
      rw [hIndexed.maxSpaces, foldl_longerOf, hZero] at hLe
      rw [hZero]
      exact Nat.le_zero.mp hLe
    · obtain ⟨item, hItem, hCount⟩ := List.mem_map.mp hMem
      exact ⟨item, hItem, hCount⟩
  · rw [hIndexed.maxSpaces, hNil]
    rfl

/-- A name of two words is not found behind a name that is the first of them. -/
theorem not_executes_longerName :
    ¬∀ (edits : List Edit) (execution : Execution) (textNoEmoji : QString) (k : Nat) (command : Command),
      0 < k → k ≤ (edited edits).maxSpaces_ + 1 →
        k ≤ (splitWords (Emojis.replaceShortCodes execution.emojiShortCodeToEmoji_ textNoEmoji)).length →
          named (edited edits).items (firstWords k
            (splitWords (Emojis.replaceShortCodes execution.emojiShortCodeToEmoji_ textNoEmoji))) = some command →
              command ∈ (execCommand execution (edited edits) textNoEmoji).custom.map Prod.fst := by
  intro hAll
  have hLonger := hAll [.insert ⟨lit "/a", lit "x"⟩ (-1), .insert ⟨lit "/a b", lit "y"⟩ (-1)]
    { env := ⟨⟨[], []⟩, ⟨[], none⟩, none, fun _ => none⟩
      isNewline := fun c => c = 0x0A
      emojiShortCodeToEmoji_ := fun _ => none
      commands_ := fun _ => none
      isWhispers := false
      dryRun := false } (lit "/a b") 2 ⟨lit "/a b", lit "y"⟩ (by decide) (by decide) (by decide) rfl
  exact absurd hLonger (by decide)

end Chatterino.Commands
