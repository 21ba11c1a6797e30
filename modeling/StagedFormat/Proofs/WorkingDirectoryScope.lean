import StagedFormat.Proofs.FileWalk
import StagedFormat.Proofs.PathOrder

/-! The scope of a working directory. Build output is left out in two halves, above an argument and
below it; together they leave out every directory on the way to a file. -/

namespace StagedFormat.Proofs.WorkingDirectoryScope
open StagedFormat Disk PathSegments DiskFollowing PathPlaces PathOrder FileWalk

theorem path_injective {one other : Location} (first : ∀ name ∈ one, Proper name)
    (second : ∀ name ∈ other, Proper name) (same : one.path.components = other.path.components) :
    one = other := by
  rw [components_path first, components_path second, List.cons_inj_right] at same
  exact List.map_injective_iff.mpr (fun _ _ => Path.Component.name.inj) same

private theorem parent?_path {front : Location} {name : ByteString}
    (proper : ∀ other ∈ front ++ [name], Proper other) :
    (front ++ [name]).path.parent? = some front.path := by
  have parts := segments_path (by simp) proper
  have own := proper_not_idle (proper name (by simp))
  have above : Path.withoutIdleEnd front = front :=
    withoutIdleEnd_proper fun other member => proper other (List.mem_append_left _ member)
  have body : (front ++ [name]).path.body = (ByteString.ofText "/", front ++ [name]) := by
    rw [Path.body, if_pos (isAbsolute_path _), parts, List.tail_cons]
  simp only [Path.parent?, body, List.reverse_append, List.reverse_singleton, List.singleton_append]
  rw [List.dropWhile_cons_of_neg (by simp [own])]
  simp only [List.reverse_reverse, above]
  exact congrArg some (if_neg (by simp))

private theorem mem_ancestors {location : Location} (proper : ∀ name ∈ location, Proper name) {path : Path} :
    path ∈ location.path.ancestors ↔ ∃ upper : Location, upper <+: location ∧ path = upper.path := by
  rw [Path.ancestors]
  have enough : location.length ≤ location.path.components.length := by
    rw [components_path proper, List.length_cons, List.length_map]
    exact Nat.le_succ _
  generalize location.path.components.length = steps at enough
  induction location using List.reverseRecOn generalizing steps with
  | nil =>
    have top : (Location.path []).parent? = none := by decide
    cases steps <;> simp [Path.ancestors.climb, top]
  | append_singleton front name ih =>
    rw [List.length_append, List.length_singleton] at enough
    obtain ⟨steps, rfl⟩ := Nat.exists_eq_add_of_le' (Nat.le_of_add_left_le enough)
    have front := fun other member => proper other (List.mem_append_left [name] member)
    simp only [Path.ancestors.climb, parent?_path proper, List.mem_cons,
      ih front steps (Nat.le_of_succ_le_succ enough), List.prefix_concat_iff]
    grind

structure Eligible (settings : Settings) (disk : Disk) (file : Location) : Prop where
  stands : ∃ id mode content, disk.entry? file = some (.file id mode content)
  source : settings.isSourceFile file.path = true
  outside : ∀ upper : Location, upper <+: file → upper ≠ file → settings.isBuildOutput disk upper.path = false

/-- What an argument names in normal form is there, and is the file or lies above it. -/
def Reaches (resolver : Resolver) (disk : Disk) (argument : Path) (file : Location) : Prop :=
  ∃ place : Location, (resolver.directory.join argument).normalize = place.path ∧
    disk.pathExists place.path = true ∧ place <+: file

def Chosen (resolver : Resolver) (disk : Disk) (arguments : List Path) (file : Location) : Prop :=
  Eligible resolver.settings disk file ∧ ∃ argument ∈ arguments, Reaches resolver disk argument file

private theorem insideBuildOutput_path {resolver : Resolver} {disk : Disk} {place : Location}
    (proper : ∀ name ∈ place, Proper name) :
    resolver.insideBuildOutput disk place.path = true ↔
      ∃ upper : Location, upper <+: place ∧ resolver.settings.isBuildOutput disk upper.path = true := by
  simp only [Resolver.insideBuildOutput, List.any_eq_true, mem_ancestors proper]
  grind

private theorem isBuildOutput_source {settings : Settings} {disk : Disk} {file : Location}
    (plain : Path.extensionOf settings.buildDirectory ≠ some settings.extension)
    (source : settings.isSourceFile file.path = true) :
    settings.isBuildOutput disk file.path = false := by
  rw [Settings.isBuildOutput, Bool.and_eq_false_iff]
  refine .inl (beq_eq_false_iff_ne.mpr ?_)
  intro named
  rw [Settings.isSourceFile, Path.extension, named, beq_iff_eq] at source
  exact plain source

/-- Below a directory that is not inside build output, the walk's own check is all that is left. -/
theorem eligible_below {resolver : Resolver} {disk : Disk} {place names : Location}
    (proper : ∀ name ∈ place, Proper name)
    (outside : resolver.insideBuildOutput disk place.path = false) :
    Eligible resolver.settings disk (place ++ names) ↔
      Below disk (resolver.settings.isBuildOutput disk) place names ∧
        resolver.settings.isSourceFile (place ++ names).path = true := by
  have above {upper : Location} (leads : upper <+: place) :
      resolver.settings.isBuildOutput disk upper.path = false := by
    rw [Bool.eq_false_iff] at outside ⊢
    exact fun output => outside ((insideBuildOutput_path proper).mpr ⟨upper, leads, output⟩)
  constructor
  · intro eligible
    refine ⟨⟨eligible.stands, ?_⟩, eligible.source⟩
    intro upper leads _ different
    exact eligible.outside _ ((List.prefix_append_right_inj _).mpr leads) (by simpa using different)
  · rintro ⟨below, source⟩
    refine ⟨below.stands, source, ?_⟩
    intro upper leads different
    rcases List.prefix_or_prefix_of_prefix leads (List.prefix_append _ _) with higher | ⟨rest, rfl⟩
    · exact above higher
    · by_cases empty : rest = []
      · subst empty
        exact above (by simp)
      · have inside := (List.prefix_append_right_inj _).mp leads
        exact below.entered rest inside empty (by simpa using different)

section
variable {resolver : Resolver} {disk : Disk} (tree : IsTree disk) (free : LinkFree disk)
include tree

theorem Eligible.proper {file : Location} (eligible : Eligible resolver.settings disk file) :
    ∀ name ∈ file, Proper name := by
  obtain ⟨_, _, _, stands⟩ := eligible.stands
  exact (tree.grounded stands).proper

private theorem reaches_iff {argument : Path} {place file : Location} (proper : ∀ name ∈ place, Proper name)
    (resolved : (resolver.directory.join argument).normalize = place.path)
    (eligible : Eligible resolver.settings disk file) :
    Reaches resolver disk argument file ↔ disk.pathExists place.path = true ∧ place <+: file := by
  constructor
  · rintro ⟨other, same, there, leads⟩
    have names := fun name member => eligible.proper tree name (leads.subset member)
    obtain rfl : other = place := path_injective names proper (by rw [← same, resolved])
    exact ⟨there, leads⟩
  · rintro ⟨there, leads⟩
    exact ⟨place, resolved, there, leads⟩

/-- No eligible file is where the argument is inside build output. -/
theorem outside_of_eligible
    (plain : Path.extensionOf resolver.settings.buildDirectory ≠ some resolver.settings.extension)
    {place file : Location} (eligible : Eligible resolver.settings disk file) (leads : place <+: file) :
    resolver.insideBuildOutput disk place.path = false := by
  rw [Bool.eq_false_iff]
  intro inside
  have proper := fun name member => eligible.proper tree name (leads.subset member)
  obtain ⟨upper, above, output⟩ := (insideBuildOutput_path proper).mp inside
  by_cases whole : upper = file
  · rw [whole, isBuildOutput_source plain eligible.source] at output
    cases output
  · rw [eligible.outside upper (above.trans leads) whole] at output
    cases output

include free

private theorem mem_found {place : Location} (proper : ∀ name ∈ place, Proper name)
    (there : disk.pathExists place.path = true)
    (outside : resolver.insideBuildOutput disk place.path = false) {path : Path} :
    path ∈ (if disk.isFile place.path then [place.path]
        else disk.filesBelow (resolver.settings.isBuildOutput disk) place.path).filter
          resolver.settings.isSourceFile ↔
      ∃ file : Location, path = file.path ∧ Eligible resolver.settings disk file ∧ place <+: file := by
  obtain ⟨entry, inspected⟩ : ∃ entry, disk.inspect place.path = .ok entry := by
    rw [pathExists] at there
    cases inspected : disk.inspect place.path with
    | error cause => rw [inspected] at there; cases there
    | ok entry => exact ⟨entry, rfl⟩
  obtain ⟨location, found⟩ := inspect_ok.mp inspected
  obtain rfl : location = place := find_location free proper found
  have stands := (find_grounded found).2.symm
  simp only at stands
  simp only [isFile, inspected, List.mem_filter]
  cases entry with
  | link target => exact (free _ _ stands).elim
  | file id mode content =>
    simp only [Entry.isFile, if_true, List.mem_singleton]
    constructor
    · rintro ⟨rfl, source⟩
      refine ⟨location, rfl, ?_, List.prefix_refl _⟩
      have eligible := @eligible_below resolver disk location [] proper outside
      rw [List.append_nil] at eligible
      refine eligible.mpr ⟨⟨?_, ?_⟩, source⟩
      · exact ⟨id, mode, content, by rwa [List.append_nil]⟩
      · intro upper leads nonempty _
        exact (nonempty (List.prefix_nil.mp leads)).elim
    · rintro ⟨file, rfl, eligible, leads⟩
      obtain ⟨_, _, _, held⟩ := eligible.stands
      by_cases same : location = file
      · exact ⟨by rw [same], eligible.source⟩
      · rw [(tree.grounded held).above location leads same] at stands
        cases stands
  | directory =>
    simp only [Entry.isFile, Bool.false_eq_true, if_false]
    rw [mem_filesBelow tree _ found]
    constructor
    · rintro ⟨⟨names, below, rfl⟩, source⟩
      exact ⟨_, rfl, (eligible_below proper outside).mpr ⟨below, source⟩, List.prefix_append _ _⟩
    · rintro ⟨_, rfl, eligible, names, rfl⟩
      obtain ⟨below, source⟩ := (eligible_below proper outside).mp eligible
      exact ⟨⟨names, below, rfl⟩, source⟩

/-- One argument stands for the eligible files that it reaches. -/
theorem mem_filesOf
    (plain : Path.extensionOf resolver.settings.buildDirectory ≠ some resolver.settings.extension)
    (absolute : resolver.directory.isAbsolute = true) {argument : Path}
    (below : StaysBelowTop (resolver.directory.join argument)) {path : Path} :
    path ∈ resolver.filesOf disk argument ↔
      ∃ file : Location, path = file.path ∧ Eligible resolver.settings disk file ∧
        Reaches resolver disk argument file := by
  obtain ⟨place, resolved, proper⟩ := normalize_below (join_absolute absolute argument) below
  have reached : (∃ file : Location, path = file.path ∧ Eligible resolver.settings disk file ∧
      Reaches resolver disk argument file) ↔ ∃ file : Location, path = file.path ∧
        Eligible resolver.settings disk file ∧ disk.pathExists place.path = true ∧ place <+: file := by
    refine exists_congr fun file => and_congr_right fun _ => and_congr_right fun eligible => ?_
    exact reaches_iff tree proper resolved eligible
  rw [reached]
  simp only [Resolver.filesOf, resolved]
  split
  · rename_i refused
    refine iff_of_false List.not_mem_nil ?_
    rintro ⟨file, rfl, eligible, there, leads⟩
    rw [outside_of_eligible tree plain eligible leads, there] at refused
    cases refused
  · rename_i taken
    rw [Bool.or_eq_true, not_or, Bool.not_eq_true', Bool.not_eq_false, Bool.not_eq_true] at taken
    obtain ⟨there, outside⟩ := taken
    rw [mem_found tree free proper there outside]
    simp only [there, true_and]

private theorem mem_files
    (plain : Path.extensionOf resolver.settings.buildDirectory ≠ some resolver.settings.extension)
    (absolute : resolver.directory.isAbsolute = true) {arguments : List Path}
    (below : ∀ argument ∈ arguments, StaysBelowTop (resolver.directory.join argument)) {path : Path} :
    path ∈ arguments.flatMap (resolver.filesOf disk) ↔
      ∃ file : Location, path = file.path ∧ Chosen resolver disk arguments file := by
  rw [List.mem_flatMap]
  constructor
  · rintro ⟨argument, inside, found⟩
    obtain ⟨file, same, eligible, reaches⟩ :=
      (mem_filesOf tree free plain absolute (below argument inside)).mp found
    exact ⟨file, same, eligible, argument, inside, reaches⟩
  · rintro ⟨file, same, eligible, argument, inside, reaches⟩
    refine ⟨argument, inside, ?_⟩
    exact (mem_filesOf tree free plain absolute (below argument inside)).mpr ⟨file, same, eligible, reaches⟩

/-- Sorting keeps all the files, since each has one path only. -/
theorem mem_sortedFiles
    (plain : Path.extensionOf resolver.settings.buildDirectory ≠ some resolver.settings.extension)
    (absolute : resolver.directory.isAbsolute = true) {arguments : List Path}
    (below : ∀ argument ∈ arguments, StaysBelowTop (resolver.directory.join argument)) {path : Path} :
    path ∈ Scope.sortedPaths (arguments.flatMap (resolver.filesOf disk)) ↔
      ∃ file : Location, path = file.path ∧ Chosen resolver disk arguments file := by
  have chosen (path : Path) : path ∈ arguments.flatMap (resolver.filesOf disk) ↔ _ :=
    mem_files tree free plain absolute below
  rw [← chosen]
  refine ⟨fun kept => List.mem_mergeSort.mp (mem_of_mem_distinct kept), fun inside => ?_⟩
  refine (mem_sortedPaths ?_).mpr inside
  intro other there same
  obtain ⟨file, rfl, eligible, _⟩ := (chosen path).mp inside
  obtain ⟨another, rfl, standing, _⟩ := (chosen other).mp there
  rw [Path.same, beq_iff_eq] at same
  rw [path_injective (eligible.proper tree) (standing.proper tree) same]

end

end StagedFormat.Proofs.WorkingDirectoryScope
