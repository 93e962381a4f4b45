/-
TailwindUpgrade/Proofs/Project/Tree.lean

The tree of files as a map from locations to contents.  A file is there when its location is among
those that are kept, and what it holds does not depend on the order they are kept in
(`contents?_eq_some_iff`, `contents?_ofFiles`).  What lies on the way to a folder is a folder
(`isFolder_of_append`), so that a location with names that a name can have is either reached, or
something on the way to it is missing (`hasAt_isFolder`).

A path that is followed to its end leads where its components say (`reach_eq_ok`).  Making folders
changes no file, so writing a file changes the one at that place and no other (`write_eq_ok`).
-/
import Mathlib.Data.List.Perm.Basic
import TailwindUpgrade.Project.Disk

namespace TailwindUpgrade.Project

variable {disk : Disk} {location : Location}

/-! ### Contents -/

namespace Files

/-- Of files with distinct locations each is found at its own. -/
theorem contents?_eq_some_iff {files : Files} (h : (files.map (·.1)).Nodup) {contents : ByteArray} :
    contents? location files = some contents ↔ (location, contents) ∈ files := by
  induction files with
  | nil => simp [contents?]
  | cons file rest ih =>
    obtain ⟨here, c⟩ := file
    rw [List.map_cons, List.nodup_cons] at h
    by_cases hhere : location = here
    · subst hhere
      have hnot : (location, contents) ∉ rest := fun hmem =>
        h.1 (List.mem_map.2 ⟨_, hmem, rfl⟩)
      simp [contents?, hnot, eq_comm]
    · have hne : (location == here) = false := by simpa using hhere
      rw [List.mem_cons, Prod.mk.injEq, ← ih h.2, contents?, List.lookup_cons, hne]
      simp [hhere, contents?]

/-- Putting files with distinct locations among others, one after another, gives each of them its
contents and leaves the others as they are. -/
theorem contents?_putAll {added : Files} (h : (added.map (·.1)).Nodup) (files : Files) :
    contents? location (putAll files added) =
      (contents? location added).or (contents? location files) := by
  induction added generalizing files with
  | nil => simp [putAll, contents?]
  | cons file rest ih =>
    obtain ⟨here, c⟩ := file
    rw [List.map_cons, List.nodup_cons] at h
    have hrest : contents? location (putAll files ((here, c) :: rest)) =
        (contents? location rest).or (contents? location (put here c files)) := ih h.2 _
    rw [hrest]
    by_cases hhere : location = here
    · subst hhere
      have hnone : contents? location rest = none := by
        rw [contents?, List.lookup_eq_none_iff]
        intro other hmem
        simpa using fun heq : location = other.1 => h.1 (List.mem_map.2 ⟨other, hmem, heq.symm⟩)
      rw [hnone, contents?_put_self]
      simp [contents?]
    · have hne : (location == here) = false := by simpa using hhere
      rw [contents?_put_of_ne hhere]
      simp [contents?, List.lookup_cons, hne]

end Files

namespace Disk

theorem contents?_eq_some_iff {contents : ByteArray} :
    disk.contents? location = some contents ↔ (location, contents) ∈ disk.files :=
  Files.contents?_eq_some_iff disk.distinct

theorem isFile_iff : disk.isFile location = true ↔ location ∈ disk.files.map (·.1) := by
  rw [isFile, Option.isSome_iff_exists, List.mem_map]
  constructor
  · rintro ⟨contents, h⟩
    exact ⟨_, contents?_eq_some_iff.1 h, rfl⟩
  · rintro ⟨⟨_, contents⟩, hmem, rfl⟩
    exact ⟨contents, contents?_eq_some_iff.2 hmem⟩

/-- The contents of a tree that is made of files do not depend on the order in which they are put
there. -/
theorem contents?_ofFiles {files : Files} (h : files.Perm disk.files) (current : Location)
    (folders : List Location) :
    (Disk.ofFiles current folders files).contents? location = disk.contents? location := by
  have hdistinct : (files.map (·.1)).Nodup := (h.map _).nodup_iff.2 disk.distinct
  show Files.contents? location (Files.putAll [] files) = Files.contents? location disk.files
  rw [Files.contents?_putAll hdistinct]
  apply Option.ext
  intro contents
  rw [Files.contents?_eq_some_iff disk.distinct, ← h.mem_iff,
    ← Files.contents?_eq_some_iff hdistinct]
  simp [Files.contents?]

/-! ### Folders -/

/-- Whatever lies on the way to a folder is a folder. -/
theorem isFolder_of_append {rest : Location} (h : disk.isFolder (location ++ rest) = true) :
    disk.isFolder location = true := by
  have hprefix : location <+: location ++ rest := List.prefix_append _ _
  simp only [isFolder, Bool.or_eq_true, List.any_eq_true, Bool.and_eq_true, decide_eq_true_eq,
    List.isPrefixOf_iff_prefix, List.isEmpty_iff] at h ⊢
  rcases h with (hroot | ⟨folder, hmem, hfolder⟩) | ⟨file, hmem, hfile, hne⟩
  · exact .inl (.inl (List.append_eq_nil_iff.1 hroot).1)
  · exact .inl (.inr ⟨folder, hmem, hprefix.trans hfolder⟩)
  · refine .inr ⟨file, hmem, hprefix.trans hfile, fun heq => hne ?_⟩
    exact hfile.eq_of_length_le (heq ▸ hprefix.length_le)

/-- What has a file below it is a folder. -/
theorem isFolder_of_isFile {name : String} {rest : Location}
    (h : disk.isFile (location ++ name :: rest) = true) : disk.isFolder location = true := by
  obtain ⟨file, hmem, hfile⟩ := List.mem_map.1 (isFile_iff.1 h)
  simp only [isFolder, Bool.or_eq_true, List.any_eq_true, Bool.and_eq_true, decide_eq_true_eq,
    List.isPrefixOf_iff_prefix]
  exact .inr ⟨file, hmem, hfile ▸ List.prefix_append _ _, by simp [hfile]⟩

/-! ### Following paths -/

/-- Following components to the end takes one step for each. -/
theorem follow_eq_ok {parts : List String} {found : Location}
    (h : disk.follow location parts = .ok found) : found = parts.foldl Location.step location := by
  induction parts generalizing location with
  | nil =>
    rw [follow] at h
    exact (Except.ok.inj h).symm
  | cons part rest ih =>
    rw [follow] at h
    split at h
    · split at h
      · cases h
      · exact ih h
    · cases h

/-- A path that is followed to its end leads where its components say. -/
theorem reach_eq_ok {path : Path} (h : disk.reach path = .ok location) :
    location = .resolve disk.current path := by
  rw [reach] at h
  split at h
  · cases h
  split at h
  · cases h
  split at h
  · rename_i found hfollow
    exact Except.ok.inj h ▸ follow_eq_ok hfollow
  · cases h

end Disk

/-- A location that can be there: each of its names may stand in a folder and is not the step up,
and neither they nor the whole of it are too long. -/
structure Location.CanBe (location : Location) : Prop where
  text : location.text.utf8ByteSize ≤ Disk.maxPathBytes
  name : ∀ name ∈ location, name.utf8ByteSize ≤ Disk.maxNameBytes
  noNull : ∀ name ∈ location, '\x00' ∉ name.toList
  noStep : ".." ∉ location

namespace Disk

theorem obstacleAt_ne_nameTooLong : disk.obstacleAt location ≠ .nameTooLong := by
  rw [obstacleAt]
  split
  · exact Obstacle.noConfusion
  · exact Obstacle.noConfusion

/-- Names that may stand in a folder are followed to the end, or where they lead is no folder and
what stands in the way is not their length. -/
theorem follow_cases (disk : Disk) (location : Location) {names : List String}
    (hname : ∀ name ∈ names, name.utf8ByteSize ≤ maxNameBytes) (hstep : ".." ∉ names) :
    disk.follow location names = .ok (location ++ names) ∨
      disk.isFolder (location ++ names) = false ∧
        ∃ obstacle ≠ .nameTooLong, disk.follow location names = .error obstacle := by
  induction names generalizing location with
  | nil => exact .inl (by simp [follow])
  | cons name rest ih =>
    rw [List.forall_mem_cons] at hname
    rw [List.mem_cons, not_or] at hstep
    by_cases hfolder : disk.isFolder location = true
    · have hnext : disk.follow location (name :: rest) =
          disk.follow (location ++ [name]) rest := by
        rw [follow, if_pos hfolder, if_neg (Nat.not_lt.2 hname.1), Location.step,
          if_neg (Ne.symm hstep.1)]
      rw [hnext, List.append_cons location name rest]
      exact ih (location ++ [name]) hname.2 hstep.2
    · refine .inr ⟨?_, _, obstacleAt_ne_nameTooLong, by rw [follow, if_neg hfolder]⟩
      exact Bool.eq_false_iff.2 fun h => hfolder (isFolder_of_append h)

/-- Whether a location that can be there is a folder is told without a failure. -/
theorem hasAt_isFolder (h : location.CanBe) :
    disk.hasAt disk.isFolder location = .ok (disk.isFolder location) := by
  have hnull : location.path.hasNull = false := by
    rw [Path.hasNull, List.any_eq_false]
    intro name hmem
    simpa using h.noNull name hmem
  have htext : ¬ maxPathBytes < location.path.text.utf8ByteSize := Nat.not_lt.2 h.text
  have hstart : disk.follow (.start disk.current location.path) location.path.parts =
      disk.follow [] location := rfl
  rw [hasAt, reach, hnull, if_neg Bool.false_ne_true, if_neg htext, hstart]
  rcases follow_cases disk [] h.name h.noStep with
    hok | ⟨hfolder, obstacle, hne, herror⟩
  · rw [hok]
    rfl
  · rw [herror, show disk.isFolder location = false from hfolder]
    cases obstacle with
    | nameTooLong => exact absurd rfl hne
    | notFound | fileThere | noFolder | isFolder => rfl

/-! ### Writing -/

/-- A tree with the same files as another one, and with the same folder from which relative paths
lead. -/
structure SameFiles (made disk : Disk) : Prop where
  files : made.files = disk.files
  current : made.current = disk.current

theorem SameFiles.refl (disk : Disk) : SameFiles disk disk := ⟨rfl, rfl⟩

theorem SameFiles.trans {last made : Disk} (h : SameFiles last made) (h' : SameFiles made disk) :
    SameFiles last disk :=
  ⟨h.files.trans h'.files, h.current.trans h'.current⟩

theorem makeFolder_sameFiles {path : Path} {made : Disk} (h : disk.makeFolder path = .ok made) :
    SameFiles made disk := by
  rw [makeFolder] at h
  split at h
  · cases h
  · split at h
    · cases h
    · cases h
      exact ⟨rfl, rfl⟩

theorem ensureFolder_sameFiles {path : Path} {made : Disk}
    (h : disk.ensureFolder path = .ok made) : SameFiles made disk := by
  rw [ensureFolder] at h
  cases hmake : disk.makeFolder path with
  | ok other =>
    rw [hmake] at h
    cases h
    exact makeFolder_sameFiles hmake
  | error failure =>
    cases hreach : disk.reach path with
    | error other =>
      rw [hmake, hreach] at h
      cases h
    | ok location =>
      rw [hmake, hreach] at h
      simp only at h
      split at h
      · cases h
        exact .refl disk
      · cases h

/-- The folders on the way to a file are made one inside the other, and none of them is a file. -/
theorem ensureFolders_sameFiles {path : Path} {made : Disk} :
    disk.ensureFolders path = .ok made → SameFiles made disk := by
  fun_induction Disk.ensureFolders disk path generalizing made with
  | case1 path first hfirst =>
    intro h
    cases h
    exact ensureFolder_sameFiles hfirst
  | case2 path failure hfailure hmissing parent hparent ih =>
    exact fun h => (ensureFolder_sameFiles h).trans (ih hparent)
  | case3 | case4 =>
    intro h
    cases h

/-- Writing puts contents where the path leads, and changes no other file. -/
theorem write_eq_ok {path : Path} {contents : ByteArray} {after : Disk}
    (h : disk.write path contents = .ok after) :
    after.contents? (.resolve disk.current path) = some contents ∧
      ∀ location ≠ Location.resolve disk.current path,
        after.contents? location = disk.contents? location := by
  rw [write] at h
  split at h
  · cases h
  rename_i made hmade
  have hsame := ensureFolders_sameFiles hmade
  split at h
  · cases h
  rename_i target hreach
  have htarget := reach_eq_ok hreach
  rw [hsame.current] at htarget
  split at h
  · cases h
  cases h
  rw [← htarget]
  refine ⟨Files.contents?_put_self _ _ _, fun location hne => ?_⟩
  exact (Files.contents?_put_of_ne hne _ _).trans (congrArg (Files.contents? location) hsame.files)

end Disk

end TailwindUpgrade.Project
