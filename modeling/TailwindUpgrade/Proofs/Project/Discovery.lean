/-
TailwindUpgrade/Proofs/Project/Discovery.lean

Which stylesheets are found below a folder, and which of them a migration starts from.  What is
found is said without the search: files below the folder with no hidden name and no folder of
installed modules on the way to them, known by the end of their name (`IsFound`).  The search gives
exactly these, in strictly increasing order of their locations, which are lists of names and
compared as such (`mem_stylesheetsBelow`, `pairwise_stylesheetsBelow`).

A list in strictly increasing order is determined by its members, so the order in which a tree keeps
its files, or in which they were made, does not show.  The first stylesheet of the list that holds a
directive is the least one that does (`firstEntry_of_increasing`).

Main result: the stylesheets found are these in this order, however the tree came about, and the
least one that loads Tailwind is where a migration starts (`stylesheets_found`).
-/
import Mathlib.Data.List.Lex
import Mathlib.Data.List.Sort
import Mathlib.Data.String.Basic
import Mathlib.Order.Bounds.Basic
import TailwindUpgrade.Project.Lookup
import TailwindUpgrade.Proofs.Project.Tree

namespace TailwindUpgrade.Project

variable {disk : Disk} {folder location below : Location} {name : String}

/-! ### What is to be found -/

/-- A name that is neither hidden nor that of the installed modules. -/
structure IsVisible (name : String) : Prop where
  notHidden : ∀ rest, name ≠ "." ++ rest
  notModules : name ≠ "node_modules"

/-- A name that ends like that of a stylesheet, in any case, and does not consist of that end. -/
def EndsAsStylesheet (name : String) : Prop :=
  ∃ stem ending : String, name = stem ++ "." ++ ending ∧ stem ≠ "" ∧
    ending.toLower ∈ ["css", "pcss", "postcss"]

/-- A path below a folder that is one of a stylesheet to be found. -/
def IsStylesheetPath (below : Location) : Prop :=
  (∀ name ∈ below, IsVisible name) ∧ ∃ name ∈ below.getLast?, EndsAsStylesheet name

/-- A stylesheet to be found: a file whose path below the folder is one of a stylesheet. -/
def IsFound (disk : Disk) (folder location : Location) : Prop :=
  disk.isFile location = true ∧ ∃ below, location = folder ++ below ∧ IsStylesheetPath below

/-- A file with a directive of Tailwind in it. -/
def LoadsTailwind (disk : Disk) (location : Location) : Prop :=
  ∃ css, disk.readAt location = .ok css ∧ ∃ directive ∈ directives, directive <:+: css

/-- What a migration starts from, out of some stylesheets: the least one that loads Tailwind, and
nothing only if none does. -/
def IsEntryOf (disk : Disk) (stylesheets : Set Location) : Option Location → Prop
  | some entry => IsLeast {location ∈ stylesheets | LoadsTailwind disk location} entry
  | none => ∀ location ∈ stylesheets, ¬ LoadsTailwind disk location

/-! ### Names -/

theorem isSkipped_eq_false_iff : isSkipped name = false ↔ IsVisible name := by
  have hhidden : name.toList.head? = some '.' ↔ ∃ rest, name = "." ++ rest := by
    rw [List.head?_eq_some_iff]
    constructor
    · rintro ⟨rest, h⟩
      exact ⟨String.ofList rest, String.toList_inj.1 (by simp [h])⟩
    · rintro ⟨rest, h⟩
      exact ⟨rest.toList, by simp [h]⟩
  rw [isSkipped, Bool.or_eq_false_iff, decide_eq_false_iff_not, decide_eq_false_iff_not, hhidden,
    not_exists]
  exact ⟨fun h => ⟨h.1, h.2⟩, fun h => ⟨h.notHidden, h.notModules⟩⟩

/-- A name has no extension, or it has something before a dot and its extension from there. -/
theorem extension_cases (name : List Char) :
    extension name = [] ∨ ∃ stem ending, name = stem ++ '.' :: ending ∧ stem ≠ [] ∧
      extension name = '.' :: ending := by
  rw [extension]
  split
  · rename_i hlong
    set behind := name.reverse.takeWhile (· ≠ '.') with hbehind
    have hname : name = (name.reverse.dropWhile (· ≠ '.')).reverse ++ behind.reverse := by
      rw [← List.reverse_append, hbehind, List.takeWhile_append_dropWhile, List.reverse_reverse]
    cases hfront : name.reverse.dropWhile (· ≠ '.') with
    | nil =>
      rw [hfront, List.reverse_nil, List.nil_append] at hname
      rw [← hname] at hlong
      omega
    | cons c front =>
      have hc : c = '.' := by
        have hnot := List.head?_dropWhile_not (· ≠ '.') name.reverse
        rw [hfront] at hnot
        simpa using hnot
      subst hc
      rw [hfront, List.reverse_cons, List.append_assoc, List.singleton_append] at hname
      refine .inr ⟨front.reverse, behind.reverse, hname, fun hnil => ?_, rfl⟩
      have hlength := congrArg List.length hname
      rw [hnil, List.nil_append, List.length_cons] at hlength
      omega
  · exact .inl rfl

theorem extension_append {stem ending : List Char} (hstem : stem ≠ []) (hne : ending ≠ [])
    (hdot : '.' ∉ ending) : extension (stem ++ '.' :: ending) = '.' :: ending := by
  have hbehind : (stem ++ '.' :: ending).reverse.takeWhile (· ≠ '.') = ending.reverse := by
    rw [List.reverse_append, List.reverse_cons, List.append_assoc, List.singleton_append,
      List.takeWhile_append_of_pos, List.takeWhile_cons_of_neg, List.append_nil]
    · simp
    · intro c hc
      simpa using fun heq : c = '.' => hdot (heq ▸ List.mem_reverse.1 hc)
  have hlong : ending.length + 1 < (stem ++ '.' :: ending).length := by
    have := List.length_pos_iff.2 hstem
    rw [List.length_append, List.length_cons]
    omega
  rw [extension, hbehind, List.reverse_reverse, if_pos ⟨hne, hlong⟩]

theorem toList_toLower (s : String) : s.toLower.toList = s.toList.map Char.toLower :=
  String.toList_map

theorem isStylesheetName_iff : isStylesheetName name = true ↔ EndsAsStylesheet name := by
  have hlist : stylesheetExtensions = ["css", "pcss", "postcss"].map ('.' :: ·.toList) := by decide
  have hlower (ending : List Char) : ('.' :: ending).map Char.toLower ∈ stylesheetExtensions ↔
      (String.ofList ending).toLower ∈ ["css", "pcss", "postcss"] := by
    rw [hlist, List.mem_map, List.map_cons]
    constructor
    · rintro ⟨known, hmem, heq⟩
      have : (String.ofList ending).toLower = known :=
        String.toList_inj.1 (by simpa [toList_toLower] using (List.cons.inj heq).2.symm)
      exact this ▸ hmem
    · intro hmem
      exact ⟨_, hmem, by simp [toList_toLower]⟩
  rw [isStylesheetName, decide_eq_true_iff]
  constructor
  · intro h
    rcases extension_cases name.toList with hnil | ⟨stem, ending, hname, hstem, hext⟩
    · rw [hnil, hlist] at h
      simp at h
    · refine ⟨.ofList stem, .ofList ending, String.toList_inj.1 (by simp [hname]), ?_, ?_⟩
      · simpa using hstem
      · exact (hlower ending).1 (hext ▸ h)
  · rintro ⟨stem, ending, hname, hstem, hmem⟩
    have hdot : '.' ∉ ending.toList := by
      intro hdot
      have hin : '.' ∈ ending.toLower.toList := by
        rw [toList_toLower]
        exact List.mem_map.2 ⟨'.', hdot, rfl⟩
      revert hin
      exact (by decide : ∀ known ∈ ["css", "pcss", "postcss"], '.' ∉ known.toList) _ hmem
    have hne : ending.toList ≠ [] := by
      intro hnil
      have hlower : ending.toLower.toList = [] := by
        rw [toList_toLower, hnil]
        rfl
      exact (by decide : ∀ known ∈ ["css", "pcss", "postcss"], known.toList ≠ []) _ hmem hlower
    have hlist : name.toList = stem.toList ++ '.' :: ending.toList := by simp [hname]
    rw [hlist, extension_append (by simpa using hstem) hne hdot, hlower, String.ofList_toList]
    exact hmem

theorem isStylesheet_iff : isStylesheet below = true ↔ IsStylesheetPath below := by
  rw [isStylesheet, Bool.and_eq_true, Bool.not_eq_true', List.any_eq_false, Option.any_eq_true]
  refine and_congr (forall₂_congr fun name _ => ?_) ?_
  · rw [Bool.not_eq_true, isSkipped_eq_false_iff]
  · simp only [isStylesheetName_iff, Option.mem_def]

/-! ### Order -/

/-- Locations are in the order of the lists of their names. -/
theorem precedes_iff {p q : Location} : precedes p q = true ↔ p ≤ q := by
  rw [← not_lt]
  induction p generalizing q with
  | nil => simp [precedes]
  | cons a p ih =>
    cases q with
    | nil => simp [precedes]
    | cons b q =>
      rw [precedes, List.cons_lt_cons_iff]
      by_cases h : a = b
      · simp [h, ih]
      · simp [h, Ne.symm h, lt_iff_le_and_ne]

/-! ### Stylesheets below a folder -/

theorem below?_eq_some_iff : below? folder location = some below ↔ location = folder ++ below := by
  induction folder generalizing location with
  | nil => simp [below?, eq_comm]
  | cons name folder ih =>
    cases location with
    | nil => simp [below?]
    | cons other location =>
      by_cases h : name = other
      · simp [below?, h, ih]
      · simp [below?, h, Ne.symm h]

theorem isFound_append_iff :
    IsFound disk folder (folder ++ below) ↔
      disk.isFile (folder ++ below) = true ∧ IsStylesheetPath below := by
  refine and_congr_right fun _ => ⟨?_, fun h => ⟨below, rfl, h⟩⟩
  rintro ⟨other, heq, h⟩
  exact List.append_cancel_left heq ▸ h

theorem mem_stylesheetsBelow :
    below ∈ stylesheetsBelow disk folder ↔ IsFound disk folder (folder ++ below) := by
  rw [stylesheetsBelow, List.mem_mergeSort, List.mem_filter, List.mem_filterMap, isStylesheet_iff,
    isFound_append_iff, Disk.isFile_iff, List.mem_map]
  simp only [below?_eq_some_iff]

/-- The paths of the stylesheets below a folder are in strictly increasing order: none is there
twice since no two files have the same location. -/
theorem pairwise_stylesheetsBelow : (stylesheetsBelow disk folder).Pairwise (· < ·) := by
  have hpaths : (disk.files.filterMap fun file => below? folder file.1).Nodup := by
    have hmap : (disk.files.filterMap fun file => below? folder file.1) =
        (disk.files.map (·.1)).filterMap (below? folder) := by
      rw [List.filterMap_map]
      rfl
    rw [hmap]
    refine disk.distinct.filterMap fun one other below hone hother => ?_
    rw [Option.mem_def, below?_eq_some_iff] at hone hother
    rw [hone, hother]
  have hnodup : (stylesheetsBelow disk folder).Nodup :=
    (List.mergeSort_perm _ _).nodup_iff.2 (hpaths.filter _)
  have hsorted : (stylesheetsBelow disk folder).Pairwise (fun p q => precedes p q = true) := by
    apply List.pairwise_mergeSort
    · intro p q r hpq hqr
      rw [precedes_iff] at *
      exact hpq.trans hqr
    · intro p q
      rw [Bool.or_eq_true, precedes_iff, precedes_iff]
      exact le_total p q
  refine hsorted.imp₂ (fun p q hle hne => ?_) hnodup
  exact lt_of_le_of_ne (precedes_iff.1 hle) hne

/-- Looking for stylesheets below a location that can be there gives what is below it; if it is no
folder, that is nothing. -/
theorem findStylesheets_eq (h : folder.CanBe) :
    findStylesheets disk folder = .ok ((stylesheetsBelow disk folder).map (folder ++ ·)) := by
  rw [findStylesheets, Disk.hasAt_isFolder h]
  by_cases hfolder : disk.isFolder folder = true
  · rw [hfolder]
    rfl
  · have hnone : stylesheetsBelow disk folder = [] := by
      rw [List.eq_nil_iff_forall_not_mem]
      intro below hmem
      obtain ⟨hfile, -, name, hlast, -⟩ := isFound_append_iff.1 (mem_stylesheetsBelow.1 hmem)
      cases below with
      | nil => cases hlast
      | cons first rest => exact hfolder (Disk.isFolder_of_isFile hfile)
    rw [Bool.not_eq_true] at hfolder
    rw [hfolder, hnone]
    rfl

theorem mem_map_stylesheetsBelow :
    location ∈ (stylesheetsBelow disk folder).map (folder ++ ·) ↔ IsFound disk folder location := by
  rw [List.mem_map]
  constructor
  · rintro ⟨below, hmem, rfl⟩
    exact mem_stylesheetsBelow.1 hmem
  · intro h
    obtain ⟨-, below, rfl, -⟩ := id h
    exact ⟨below, mem_stylesheetsBelow.2 h, rfl⟩

theorem pairwise_map_stylesheetsBelow :
    ((stylesheetsBelow disk folder).map (folder ++ ·)).Pairwise (· < ·) :=
  pairwise_stylesheetsBelow.map _ fun _ _ h => List.Lex.append_left _ h folder

/-! ### The first stylesheet with a directive -/

theorem loadsTailwind_iff {css : Text} (h : disk.readAt location = .ok css) :
    LoadsTailwind disk location ↔ holdsDirective css = true := by
  have hholds : holdsDirective css = true ↔ ∃ directive ∈ directives, directive <:+: css := by
    simp only [holdsDirective, List.any_eq_true, Text.occursIn_iff]
  rw [hholds]
  constructor
  · rintro ⟨other, hother, hdirective⟩
    rw [h] at hother
    exact Except.ok.inj hother ▸ hdirective
  · exact fun hdirective => ⟨css, h, hdirective⟩

/-- A file before all others that does not load Tailwind is not what a migration starts from. -/
theorem IsEntryOf.cons {first : Location} {rest : List Location} {entry : Option Location}
    (h : IsEntryOf disk {location | location ∈ rest} entry) (hfirst : ¬ LoadsTailwind disk first) :
    IsEntryOf disk {location | location ∈ first :: rest} entry := by
  cases entry with
  | none => exact List.forall_mem_cons.2 ⟨hfirst, h⟩
  | some entry =>
    obtain ⟨⟨hmem, hloads⟩, hleast⟩ := h
    refine ⟨⟨List.mem_cons_of_mem _ hmem, hloads⟩, ?_⟩
    rintro other ⟨hother, hotherLoads⟩
    rcases List.mem_cons.1 hother with rfl | hrest
    · exact absurd hotherLoads hfirst
    · exact hleast ⟨hrest, hotherLoads⟩

/-- Of readable files in strictly increasing order, the first that loads Tailwind is the least one
that does. -/
theorem firstEntry_of_increasing {locations : List Location}
    (hread : ∀ location ∈ locations, ∃ css, disk.readAt location = .ok css)
    (hincreasing : locations.Pairwise (· < ·)) :
    ∃ entry, firstEntry disk locations = .ok entry ∧
      IsEntryOf disk {location | location ∈ locations} entry := by
  induction locations with
  | nil => exact ⟨none, rfl, fun location hmem => by cases hmem⟩
  | cons first rest ih =>
    obtain ⟨⟨css, hcss⟩, hrest⟩ := List.forall_mem_cons.1 hread
    obtain ⟨hbefore, hincreasing⟩ := List.pairwise_cons.1 hincreasing
    rw [firstEntry, hcss]
    by_cases hholds : holdsDirective css = true
    · refine ⟨some first, if_pos hholds, ?_⟩
      refine ⟨⟨List.mem_cons_self, (loadsTailwind_iff hcss).2 hholds⟩, ?_⟩
      rintro other ⟨hother, -⟩
      rcases List.mem_cons.1 hother with rfl | hmem
      · exact le_rfl
      · exact (hbefore other hmem).le
    · obtain ⟨entry, hentry, hleast⟩ := ih hrest hincreasing
      refine ⟨entry, (if_neg hholds).trans hentry, hleast.cons ?_⟩
      exact fun hloads => hholds ((loadsTailwind_iff hcss).1 hloads)

/-! ### The theorem -/

/-- **Stylesheets are found by their names, in order.**  Those found below a location that can be
there are exactly those that are to be found, each of them once and in strictly increasing order.
The same are found in every tree that holds the same, in particular in one whose files were made in
any other order.  If all of them can be read, the least one that loads Tailwind is what a migration
starts from, and if there is none, nothing is. -/
theorem stylesheets_found (disk : Disk) (folder : Location) (h : folder.CanBe) :
    ∃ found, findStylesheets disk folder = .ok found ∧
      (∀ location, location ∈ found ↔ IsFound disk folder location) ∧
      found.Pairwise (· < ·) ∧
      (∀ other : Disk, (∀ location, other.contents? location = disk.contents? location) →
        findStylesheets other folder = .ok found) ∧
      (∀ current folders files, files.Perm disk.files →
        findStylesheets (.ofFiles current folders files) folder = .ok found) ∧
      ((∀ location ∈ found, ∃ css, disk.readAt location = .ok css) →
        ∃ entry, findEntry disk folder = .ok entry ∧
          IsEntryOf disk {location | IsFound disk folder location} entry) := by
  have hsame (other : Disk)
      (hother : ∀ location, other.contents? location = disk.contents? location) :
      findStylesheets other folder =
        .ok ((stylesheetsBelow disk folder).map (folder ++ ·)) := by
    rw [findStylesheets_eq h]
    refine congrArg Except.ok (List.Pairwise.eq_of_mem_iff pairwise_map_stylesheetsBelow
      pairwise_map_stylesheetsBelow fun location => ?_)
    rw [mem_map_stylesheetsBelow, mem_map_stylesheetsBelow, IsFound, IsFound, Disk.isFile,
      Disk.isFile, hother]
  refine ⟨_, findStylesheets_eq h, fun _ => mem_map_stylesheetsBelow, pairwise_map_stylesheetsBelow,
    hsame, fun current folders files hfiles => ?_, fun hread => ?_⟩
  · exact hsame _ fun location => Disk.contents?_ofFiles hfiles current folders
  · obtain ⟨entry, hentry, hleast⟩ := firstEntry_of_increasing hread pairwise_map_stylesheetsBelow
    simp only [mem_map_stylesheetsBelow] at hleast
    refine ⟨entry, ?_, hleast⟩
    rw [findEntry, findStylesheets_eq h]
    exact hentry

/-- A tree with two stylesheets whose paths are in another order than their texts, the first of them
without a directive, and with files that are passed over. -/
def siteTree : Disk :=
  .ofFiles [] [] [
    (["site", "a-b", "Main.CSS"], "@tailwind base;".toUTF8),
    (["site", "a", "reset.pcss"], "a{}".toUTF8),
    (["site", "a", "notes.css.txt"], "@tailwind base;".toUTF8),
    (["site", ".cache", "a.css"], "@tailwind base;".toUTF8),
    (["site", "node_modules", "p", "a.css"], "@tailwind base;".toUTF8)]

theorem stylesheets_found_siteTree :
    Location.CanBe ["site"] ∧
      findStylesheets siteTree ["site"] =
        .ok [["site", "a", "reset.pcss"], ["site", "a-b", "Main.CSS"]] ∧
      (∀ location, location ∈ [["site", "a", "reset.pcss"], ["site", "a-b", "Main.CSS"]] ↔
        IsFound siteTree ["site"] location) ∧
      IsEntryOf siteTree {location | IsFound siteTree ["site"] location}
        (some ["site", "a-b", "Main.CSS"]) := by
  have hcan : Location.CanBe ["site"] := ⟨by decide, by decide, by decide, by decide⟩
  have hlist : findStylesheets siteTree ["site"] =
      .ok [["site", "a", "reset.pcss"], ["site", "a-b", "Main.CSS"]] := by
    have hpaths : (siteTree.files.filterMap fun file => below? ["site"] file.1).filter
        isStylesheet = [["a-b", "Main.CSS"], ["a", "reset.pcss"]] := by decide +kernel
    have hbelow : stylesheetsBelow siteTree ["site"] =
        [["a", "reset.pcss"], ["a-b", "Main.CSS"]] := by
      refine List.Pairwise.eq_of_mem_iff pairwise_stylesheetsBelow (by decide +kernel) fun below => ?_
      rw [stylesheetsBelow, List.mem_mergeSort, hpaths]
      exact (List.Perm.swap _ _ []).mem_iff
    rw [findStylesheets_eq hcan, hbelow]
    rfl
  have hreset : siteTree.readAt ["site", "a", "reset.pcss"] = .ok "a{}" := by decide +kernel
  have hmain : siteTree.readAt ["site", "a-b", "Main.CSS"] = .ok "@tailwind base;" := by
    decide +kernel
  have hfirst : findEntry siteTree ["site"] = .ok (some ["site", "a-b", "Main.CSS"]) := by
    rw [findEntry, hlist]
    simp only [firstEntry, hreset, hmain]
    rw [if_neg (by decide), if_pos (by decide)]
  obtain ⟨found, hfound, hmem, -, -, -, hentry⟩ := stylesheets_found siteTree ["site"] hcan
  cases hfound.symm.trans hlist
  have hread : ∀ location ∈ [["site", "a", "reset.pcss"], ["site", "a-b", "Main.CSS"]],
      ∃ css, siteTree.readAt location = .ok css := by
    rw [List.forall_mem_cons, List.forall_mem_singleton]
    exact ⟨⟨_, hreset⟩, ⟨_, hmain⟩⟩
  obtain ⟨entry, hentry, hleast⟩ := hentry hread
  cases hentry.symm.trans hfirst
  exact ⟨hcan, hlist, hmem, hleast⟩

end TailwindUpgrade.Project
