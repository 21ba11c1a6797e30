import StagedFormat.Proofs.DiskReplacement
import StagedFormat.Proofs.FileWalk
import StagedFormat.Proofs.PathOrder
import StagedFormat.Proofs.PathSight

/-! Whether targets of a working directory meet on disk. A scope has each path once, but paths are compared
as they are written, and reading and writing follow links. Targets stay apart if no argument leads to a place
that another argument spells in another way. -/

namespace StagedFormat.Proofs.ScopeOverlap
open StagedFormat Disk PathSegments DiskFollowing DiskReplacement PathPlaces PathSight PathOrder FileWalk

def named (resolver : Resolver) (argument : Path) : Path := (resolver.directory.join argument).normalize

/-- Where a path leads, if something stands there. -/
def placeOf (disk : Disk) (path : Path) : Option Location :=
  match disk.find true path with
  | .ok ⟨location, some _⟩ => some location
  | _ => none

theorem placeOf_eq_some {disk : Disk} {path : Path} {location : Location} :
    placeOf disk path = some location ↔ ∃ entry, disk.find true path = .ok ⟨location, some entry⟩ := by
  unfold placeOf
  split
  · rename_i found
    rw [found]
    simp
  · rename_i absent
    refine iff_of_false nofun ?_
    rintro ⟨entry, found⟩
    exact absent location entry found

/-- A source file that an argument leads to, and the path that it gets as a target. -/
structure Yields (resolver : Resolver) (disk : Disk) (argument path : Path) (file : Location) : Prop where
  outside : resolver.insideBuildOutput disk (named resolver argument) = false
  source : resolver.settings.isSourceFile path = true
  walked : ∃ start names, placeOf disk (named resolver argument) = some start ∧
    Walked disk (resolver.settings.isBuildOutput disk) (named resolver argument) start names ∧
    path = spelled (named resolver argument) names ∧ file = start ++ names

/-- An argument that leads to the place of another one, or below it, spells that place as the other one does. -/
def Consistent (resolver : Resolver) (disk : Disk) (arguments : List Path) : Prop :=
  ∀ one ∈ arguments, ∀ other ∈ arguments, ∀ start ∈ placeOf disk (named resolver one),
    ∀ place ∈ placeOf disk (named resolver other), start <+: place →
      named resolver other = spelled (named resolver one) (place.drop start.length)

instance (resolver : Resolver) (disk : Disk) (arguments : List Path) :
    Decidable (Consistent resolver disk arguments) :=
  inferInstanceAs (Decidable (∀ _ ∈ _, ∀ _ ∈ _, ∀ _ ∈ _, ∀ _ ∈ _, _ → _))

/-- Where new content goes once a target has been read: to its file, and first to the temporary one. -/
def Writes (disk : Disk) (path : Path) (location : Location) : Prop :=
  (placeOf disk path).isSome ∧
    ∃ written entry, disk.find true written = .ok ⟨location, entry⟩ ∧
      (written = WorkingFile.destination disk path ∨
        written = WorkingFile.temporary (WorkingFile.destination disk path))

def Spare (disk : Disk) (paths : List Path) (location : Location) : Prop :=
  (∀ target, disk.entry? location ≠ some (.link target)) ∧
    ∀ path ∈ paths, placeOf disk path ≠ some location

theorem leads_spelled {disk : Disk} {path : Path} {start names : Location}
    (reached : Leads disk true [] (steps path) ⟨start, some .directory⟩) (nonempty : names ≠ [])
    (grounded : Grounded disk (start ++ names)) (final : Final true (disk.entry? (start ++ names))) :
    Leads disk true [] (steps (spelled path names)) ⟨start ++ names, disk.entry? (start ++ names)⟩ := by
  induction names generalizing path start with
  | nil => exact (nonempty rfl).elim
  | cons name names ih =>
    have own : Proper name := grounded.proper name (by simp)
    cases names with
    | nil =>
      have joined := leads_join own.clean reached
      rw [segments_proper own] at joined
      exact joined grounded final
    | cons next names =>
      have entered := grounded.entered
      rw [List.append_cons] at grounded final ⊢
      exact ih (leads_enter own reached entered) (List.cons_ne_nil _ _) grounded final

section
variable {disk : Disk} (tree : IsTree disk)
include tree

/-- Names lead on from a directory only. -/
theorem walked_start {skips : Path → Bool} {path : Path} {start names : Location}
    (walked : Walked disk skips path start names) (nonempty : names ≠ []) :
    disk.entry? start = some .directory := by
  obtain ⟨_, _, _, stands⟩ := walked.stands
  exact (tree.grounded stands).above _ (List.prefix_append _ _) (by simpa using nonempty)

/-- What stands for a path: itself if it leads to a file, and else all that the walk from there finds. -/
theorem mem_walked {skips : Path → Bool} {path : Path} {start : Location} {entry : Entry}
    (found : disk.find true path = .ok ⟨start, some entry⟩) {file : Path} :
    file ∈ (if disk.isFile path then [path] else disk.filesBelow skips path) ↔
      ∃ names, Walked disk skips path start names ∧ file = spelled path names := by
  have stands : disk.entry? start = some entry := (find_grounded found).2.symm
  simp only [isFile, inspect_ok.mpr ⟨start, found⟩]
  cases entry with
  | file id mode content =>
    simp only [Entry.isFile, if_true, List.mem_singleton]
    constructor
    · rintro rfl
      exact ⟨[], walked_nil.mpr ⟨id, mode, content, stands⟩, rfl⟩
    · rintro ⟨names, walked, rfl⟩
      by_cases empty : names = []
      · rw [empty]
        rfl
      · rw [walked_start tree walked empty] at stands
        cases stands
  | link target =>
    simp only [Entry.isFile, Bool.false_eq_true, if_false, filesBelow, found, List.not_mem_nil, false_iff]
    rintro ⟨names, walked, _⟩
    by_cases empty : names = []
    · obtain ⟨_, _, _, held⟩ := walked_nil.mp (empty ▸ walked)
      rw [held] at stands
      cases stands
    · rw [walked_start tree walked empty] at stands
      cases stands
  | directory =>
    simp only [Entry.isFile, Bool.false_eq_true, if_false]
    exact mem_filesBelow_spelled tree skips found

theorem mem_filesOf_yields {resolver : Resolver} {argument path : Path} :
    path ∈ resolver.filesOf disk argument ↔ ∃ file, Yields resolver disk argument path file := by
  have taken : resolver.filesOf disk argument =
      if !(disk.inspect (named resolver argument)).isOk ||
        resolver.insideBuildOutput disk (named resolver argument) then []
      else (if disk.isFile (named resolver argument) then [named resolver argument]
        else disk.filesBelow (resolver.settings.isBuildOutput disk) (named resolver argument)).filter
          resolver.settings.isSourceFile := rfl
  rw [taken]
  cases inspected : disk.inspect (named resolver argument) with
  | error cause =>
    refine iff_of_false List.not_mem_nil ?_
    rintro ⟨file, yields⟩
    obtain ⟨start, _, placed, _⟩ := yields.walked
    obtain ⟨entry, found⟩ := placeOf_eq_some.mp placed
    rw [inspect_ok.mpr ⟨start, found⟩] at inspected
    cases inspected
  | ok entry =>
    obtain ⟨start, found⟩ := inspect_ok.mp inspected
    have placed : placeOf disk (named resolver argument) = some start := placeOf_eq_some.mpr ⟨entry, found⟩
    cases outside : resolver.insideBuildOutput disk (named resolver argument) with
    | true =>
      refine iff_of_false List.not_mem_nil ?_
      rintro ⟨file, yields⟩
      exact Bool.false_ne_true (yields.outside.symm.trans outside)
    | false =>
      simp only [Except.isOk, Except.toBool, Bool.not_true, Bool.or_self, Bool.false_eq_true, if_false,
        List.mem_filter]
      rw [mem_walked tree found]
      constructor
      · rintro ⟨⟨names, walked, same⟩, source⟩
        exact ⟨_, outside, source, start, names, placed, walked, same, rfl⟩
      · rintro ⟨file, _, source, other, names, there, walked, same, _⟩
        cases placed.symm.trans there
        exact ⟨⟨names, walked, same⟩, source⟩

variable {resolver : Resolver} {argument path : Path} {file : Location}

/-- A target leads to nothing but the file that its argument led to. -/
theorem Yields.place (yields : Yields resolver disk argument path file) {location : Location}
    (leads : placeOf disk path = some location) : location = file := by
  obtain ⟨start, names, placed, walked, rfl, rfl⟩ := yields.walked
  by_cases empty : names = []
  · subst empty
    rw [List.append_nil]
    exact Option.some.inj (leads.symm.trans placed)
  · obtain ⟨entry, found⟩ := placeOf_eq_some.mp placed
    obtain ⟨_, _, _, held⟩ := walked.stands
    have stands : some entry = some .directory := (find_grounded found).2.trans (walked_start tree walked empty)
    obtain ⟨other, reached⟩ := placeOf_eq_some.mp leads
    rw [stands] at found
    have down := leads_spelled (leads_of_find found) empty (tree.grounded held) (by rw [held]; trivial)
    exact congrArg Place.location ((leads_of_find reached).unique down)

omit tree in
theorem Yields.stands (yields : Yields resolver disk argument path file) :
    ∃ id mode content, disk.entry? file = some (.file id mode content) := by
  obtain ⟨_, _, _, walked, _, rfl⟩ := yields.walked
  exact walked.stands

theorem Yields.grounded (yields : Yields resolver disk argument path file) : Grounded disk file := by
  obtain ⟨_, _, _, stands⟩ := yields.stands
  exact tree.grounded stands

omit tree in
/-- One file has one spelling, whichever of the arguments leads to it. -/
theorem Yields.unique {arguments : List Path} (consistent : Consistent resolver disk arguments)
    (inside : argument ∈ arguments) (yields : Yields resolver disk argument path file)
    {another other : Path} (inside' : another ∈ arguments) (yields' : Yields resolver disk another other file) :
    path = other := by
  have longer {one two : Path} (first : one ∈ arguments) (second : two ∈ arguments)
      {start rest names : Location} (here : placeOf disk (named resolver one) = some start)
      (there : placeOf disk (named resolver two) = some (start ++ rest)) :
      spelled (named resolver two) names = spelled (named resolver one) (rest ++ names) := by
    have same := consistent one first two second start here _ there (List.prefix_append _ _)
    rw [List.drop_left] at same
    rw [same, spelled, spelled, spelled, List.foldl_append]
  obtain ⟨start, names, placed, _, rfl, rfl⟩ := yields.walked
  obtain ⟨start', names', placed', _, rfl, whole⟩ := yields'.walked
  rcases List.append_eq_append_iff.mp whole with ⟨rest, rfl, rfl⟩ | ⟨rest, rfl, rfl⟩
  · exact (longer inside inside' placed placed').symm
  · exact longer inside' inside placed' placed

theorem Yields.writes (yields : Yields resolver disk argument path file)
    (legible : Legible file) (unlinked : ∀ target, disk.entry? (beside file) ≠ some (.link target))
    {location : Location} (writes : Writes disk path location) : location = file ∨ location = beside file := by
  obtain ⟨readable, written, entry, found, destined⟩ := writes
  obtain ⟨place, leads⟩ := Option.isSome_iff_exists.mp readable
  obtain rfl := yields.place tree leads
  obtain ⟨_, reached⟩ := placeOf_eq_some.mp leads
  obtain ⟨id, mode, content, stands⟩ := yields.stands
  have nonempty : place ≠ [] := nonempty_of_file stands
  have destination : WorkingFile.destination disk path = place.path := by
    rw [WorkingFile.destination, canonicalize, reached]
    rfl
  rw [destination, temporary_path nonempty legible] at destined
  rcases destined with rfl | rfl
  · refine .inl (location_of_find (yields.grounded tree) nonempty (fun target link => ?_) found)
    rw [stands] at link
    cases link
  · exact .inr (location_of_find (Grounded.beside (yields.grounded tree) nonempty) (beside_ne_nil _) unlinked found)

end

/-- Two targets that no worker confuses: they lead to different files, and nothing is written for both. -/
structure Apart (disk : Disk) (paths : List Path) (one other : Path) : Prop where
  files : ∀ location, placeOf disk one = some location → placeOf disk other ≠ some location
  writes : (∀ path ∈ paths, ∀ file, placeOf disk path = some file → Legible file ∧ Spare disk paths (beside file)) →
    ∀ location, Writes disk one location → ¬ Writes disk other location

theorem Writes.place {disk : Disk} {path : Path} {location : Location} (writes : Writes disk path location) :
    ∃ file, placeOf disk path = some file := Option.isSome_iff_exists.mp writes.1

/-- Targets that lead to different files write different files, if the temporary ones are spare. -/
theorem apart_of_files {resolver : Resolver} {disk : Disk} (tree : IsTree disk) {paths : List Path}
    {argument argument' one other : Path} {file file' : Location}
    (yields : Yields resolver disk argument one file) (yields' : Yields resolver disk argument' other file')
    (member : one ∈ paths) (member' : other ∈ paths) (different : file ≠ file') : Apart disk paths one other where
  files location leads leads' := different ((yields.place tree leads).symm.trans (yields'.place tree leads'))
  writes spare location writes writes' := by
    obtain ⟨place, leads⟩ := writes.place
    obtain ⟨place', leads'⟩ := writes'.place
    obtain rfl := yields.place tree leads
    obtain rfl := yields'.place tree leads'
    obtain ⟨legible, unlinked, unled⟩ := spare one member place leads
    obtain ⟨legible', unlinked', unled'⟩ := spare other member' place' leads'
    obtain ⟨_, _, _, stands⟩ := yields.stands
    obtain ⟨_, _, _, stands'⟩ := yields'.stands
    rcases yields.writes tree legible unlinked writes with rfl | rfl <;>
      rcases yields'.writes tree legible' unlinked' writes' with same | same
    · exact different same
    · exact unled' one member (same ▸ leads)
    · exact unled other member' (same ▸ leads')
    · exact different (beside_injective (nonempty_of_file stands) (nonempty_of_file stands') same)

/-- A scope has the source files that its arguments lead to, each path once. No two of its targets are one
file, and no two workers write one file, if the arguments spell their places consistently. -/
theorem targets_apart (resolver : Resolver) {disk : Disk} (tree : IsTree disk) (arguments : List Path)
    (dryRun : Bool) :
    ∃ paths : List Path,
      resolver.workingDirectory disk arguments dryRun =
        { targets := paths.map fun path => .file { path, root := some resolver.directory }, dryRun } ∧
      paths.Pairwise (fun a b => a.order b = .lt) ∧
      (∀ path ∈ paths, ∃ argument ∈ arguments, ∃ file, Yields resolver disk argument path file) ∧
      (∀ argument ∈ arguments, ∀ path file, Yields resolver disk argument path file →
        (∃ kept ∈ paths, path.same kept) ∧ ∀ location, placeOf disk path = some location → location = file) ∧
      (Consistent resolver disk arguments → paths.Pairwise (Apart disk paths)) := by
  have yielded (path : Path)
      (member : path ∈ Scope.sortedPaths (arguments.flatMap (resolver.filesOf disk))) :
      ∃ argument ∈ arguments, ∃ file, Yields resolver disk argument path file := by
    obtain ⟨argument, inside, found⟩ := List.mem_flatMap.mp (List.mem_mergeSort.mp (mem_of_mem_distinct member))
    exact ⟨argument, inside, (mem_filesOf_yields tree).mp found⟩
  refine ⟨_, rfl, sortedPaths_ascends _, yielded, ?_, ?_⟩
  · intro argument inside path file yields
    have found : path ∈ arguments.flatMap (resolver.filesOf disk) :=
      List.mem_flatMap.mpr ⟨argument, inside, (mem_filesOf_yields tree).mpr ⟨file, yields⟩⟩
    exact ⟨same_of_mem (List.mem_mergeSort.mpr found), fun _ leads => yields.place tree leads⟩
  · intro consistent
    refine (sortedPaths_ascends _).imp_of_mem fun {one other} member member' ascends => ?_
    obtain ⟨argument, inside, file, yields⟩ := yielded one member
    obtain ⟨argument', inside', file', yields'⟩ := yielded other member'
    refine apart_of_files tree yields yields' member member' ?_
    rintro rfl
    rw [yields.unique consistent inside inside' yields', order_self] at ascends
    cases ascends

theorem workingDirectory_eq {resolver : Resolver} {disk : Disk} {arguments ascending : List Path}
    (ascends : ascending.Pairwise fun a b => a.order b = .lt)
    (kept : ascending ⊆ arguments.flatMap (resolver.filesOf disk))
    (whole : arguments.flatMap (resolver.filesOf disk) ⊆ ascending) (dryRun : Bool) :
    resolver.workingDirectory disk arguments dryRun =
      { targets := ascending.map fun path => .file { path, root := some resolver.directory }, dryRun } := by
  rw [Resolver.workingDirectory, sortedPaths_eq ascends kept whole]

/-- Sources that a link to their directory leads to as well, and a link to one of them. -/
def aliased : Disk where
  entries := [
    (["src"], .directory),
    (["src", "sub"], .directory),
    (["src", "sub", "B.kt"], .file 0 plainMode "b=2".toUTF8),
    (["src", "A.kt"], .file 1 plainMode "a=1".toUTF8),
    (["way"], .link ⟨"src"⟩),
    (["L.kt"], .link ⟨"src/A.kt"⟩)]
  fresh := 2

private theorem isTree_aliased : IsTree aliased := isTree_of_entries (by decide) (by decide) (by decide)

def atTop : Resolver := ⟨{}, ⟨"/"⟩⟩

/-- Links alone do no harm: both arguments pass one here, and spell its place alike. -/
theorem targets_apart_through_link :
    Consistent atTop aliased [⟨"way/sub/B.kt"⟩, ⟨"way"⟩] ∧
      ∃ paths : List Path, paths = [⟨"/way/A.kt"⟩, ⟨"/way/sub/B.kt"⟩] ∧
        atTop.workingDirectory aliased [⟨"way/sub/B.kt"⟩, ⟨"way"⟩] false =
          { targets := paths.map fun path => .file { path, root := some ⟨"/"⟩ }, dryRun := false } ∧
        paths.Pairwise (Apart aliased paths) := by
  have consistent : Consistent atTop aliased [⟨"way/sub/B.kt"⟩, ⟨"way"⟩] := by decide +kernel
  have known := @workingDirectory_eq atTop aliased [⟨"way/sub/B.kt"⟩, ⟨"way"⟩]
    [⟨"/way/A.kt"⟩, ⟨"/way/sub/B.kt"⟩] (by decide +kernel) (by decide +kernel) (by decide +kernel) false
  obtain ⟨paths, scope, _, _, _, apart⟩ := targets_apart atTop isTree_aliased [⟨"way/sub/B.kt"⟩, ⟨"way"⟩] false
  refine ⟨consistent, paths, ?_, scope, apart consistent⟩
  have same := congrArg Scope.targets (scope.symm.trans known)
  refine List.map_injective_iff.mpr (fun one other equal => ?_) same
  exact congrArg WorkingFile.path (Target.file.inj equal)

/-- Two arguments that spell one file differently give two targets, and their workers write one temporary
file: that of the file that both lead to. -/
theorem linked_argument_targeted_twice :
    IsTree aliased ∧
      atTop.workingDirectory aliased [⟨"src/A.kt"⟩, ⟨"L.kt"⟩] false =
        { targets := [⟨"/L.kt"⟩, ⟨"/src/A.kt"⟩].map fun path => .file { path, root := some ⟨"/"⟩ }
          dryRun := false } ∧
      ∀ path ∈ [(⟨"/L.kt"⟩ : Path), ⟨"/src/A.kt"⟩], placeOf aliased path = some (["src", "A.kt"] : Location) ∧
        Writes aliased path ["src", "A.kt"] ∧ Writes aliased path ["src", "A.kt.stagefmt.tmp"] := by
  refine ⟨isTree_aliased, workingDirectory_eq (by decide +kernel) (by decide +kernel) (by decide +kernel) false, ?_⟩
  intro path member
  have destination : WorkingFile.destination aliased path = ⟨"/src/A.kt"⟩ := by
    revert path
    decide +kernel
  have leads : placeOf aliased path = some (["src", "A.kt"] : Location) := by
    revert path
    decide +kernel
  have readable : (placeOf aliased path).isSome := by rw [leads]; rfl
  refine ⟨leads, ⟨readable, ⟨"/src/A.kt"⟩, _, rfl, .inl destination.symm⟩, ?_⟩
  exact ⟨readable, ⟨"/src/A.kt.stagefmt.tmp"⟩, _, rfl, .inr (by rw [destination]; rfl)⟩

end StagedFormat.Proofs.ScopeOverlap
