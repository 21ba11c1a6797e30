import Mathlib.Data.List.Nodup
import StagedFormat.Disk.Walk
import StagedFormat.Proofs.PathPlaces

/-! Walking down a tree of files. The walk finds a file below a directory exactly if it skips no
directory on the way; its bound on the depth never cuts it short. -/

namespace StagedFormat.Proofs.FileWalk
open StagedFormat Disk PathSegments DiskFollowing PathPlaces

/-- The entries make up a tree: a location has one entry, and that is in a directory. -/
structure IsTree (disk : Disk) : Prop where
  single : (disk.entries.map Prod.fst).Nodup
  proper : ∀ item ∈ disk.entries, ∀ name ∈ item.1, Proper name
  above : ∀ item ∈ disk.entries, disk.entry? item.1.dropLast = some .directory

theorem isTree_of_entries {disk : Disk} (single : (disk.entries.map Prod.fst).Nodup)
    (proper : ∀ item ∈ disk.entries, ∀ name ∈ item.1, Proper name)
    (above : ∀ item ∈ disk.entries, (disk.entry? item.1.dropLast).any Entry.isDirectory = true) : IsTree disk where
  single := single
  proper := proper
  above item member := by
    have stands := above item member
    rcases there : disk.entry? item.1.dropLast with _ | _ | _ | _
    case some.directory => rfl
    all_goals
      rw [there] at stands
      cases stands

private theorem lookup_eq_some_of_nodup {entries : List (Location × Entry)}
    (single : (entries.map Prod.fst).Nodup) {location : Location} {entry : Entry} :
    entries.lookup location = some entry ↔ (location, entry) ∈ entries := by
  constructor
  · intro found
    obtain ⟨front, back, rfl, _⟩ := List.lookup_eq_some_iff.mp found
    simp
  · intro member
    obtain ⟨front, back, rfl⟩ := List.append_of_mem member
    refine List.lookup_eq_some_iff.mpr ⟨front, back, rfl, ?_⟩
    intro item inside
    rw [List.map_append, List.nodup_append] at single
    have apart := single.2.2 item.1 (List.mem_map_of_mem inside) location (by simp)
    simpa using Ne.symm apart

section
variable {disk : Disk} (tree : IsTree disk)
include tree

theorem IsTree.mem_iff {location : Location} (nonempty : location ≠ []) {entry : Entry} :
    (location, entry) ∈ disk.entries ↔ disk.entry? location = some entry := by
  rw [Disk.entry?, if_neg nonempty, lookup_eq_some_of_nodup tree.single]

theorem IsTree.grounded {location : Location} {entry : Entry}
    (stands : disk.entry? location = some entry) : Grounded disk location := by
  induction location using List.reverseRecOn generalizing entry with
  | nil => exact .top disk
  | append_singleton front name ih =>
    have member := (tree.mem_iff (by simp)).mpr stands
    have within := tree.above _ member
    rw [List.dropLast_concat] at within
    exact (ih within).below within (tree.proper _ member name (by simp))

/-- A location is not deeper than there are entries. -/
theorem IsTree.depth {location : Location} {entry : Entry}
    (stands : disk.entry? location = some entry) : location.length ≤ disk.entries.length := by
  -- The beginnings of a location are as many entries of their own.
  let beginnings := (List.range location.length).map fun count => location.take (count + 1)
  have apart : beginnings.Nodup := by
    refine List.Nodup.map_on ?_ List.nodup_range
    intro one first other second same
    have lengths := congrArg List.length same
    rw [List.mem_range] at first second
    simp only [List.length_take] at lengths
    omega
  have inside : beginnings ⊆ disk.entries.map Prod.fst := by
    intro upper member
    obtain ⟨count, small, rfl⟩ := List.mem_map.mp member
    have nonempty : location.take (count + 1) ≠ [] := by
      rintro empty
      rw [List.mem_range] at small
      have length := congrArg List.length empty
      simp only [List.length_take, List.length_nil] at length
      omega
    by_cases whole : location.take (count + 1) = location
    · rw [whole] at nonempty ⊢
      exact List.mem_map_of_mem ((tree.mem_iff nonempty).mpr stands)
    · have entered := (tree.grounded stands).above _ (List.take_prefix _ _) whole
      exact List.mem_map_of_mem ((tree.mem_iff nonempty).mpr entered)
  simpa [beginnings] using apart.length_le_of_subset inside

theorem IsTree.mem_children {directory : Location} {name : ByteString} {entry : Entry} :
    (name, entry) ∈ disk.children directory ↔ disk.entry? (directory ++ [name]) = some entry := by
  rw [← tree.mem_iff (by simp), children, List.mem_filterMap]
  constructor
  · rintro ⟨⟨location, held⟩, member, chosen⟩
    simp only at chosen
    split at chosen
    · rename_i last ends
      split at chosen
      · rename_i within
        cases chosen
        obtain ⟨front, rfl⟩ := List.getLast?_eq_some_iff.mp ends
        rw [List.dropLast_concat] at within
        rwa [← within]
      · cases chosen
    · cases chosen
  · intro member
    exact ⟨_, member, by simp⟩

end

theorem path_join {location : Location} (proper : ∀ name ∈ location, Proper name) {name : ByteString}
    (own : Proper name) : location.path.join ⟨name⟩ = (location ++ [name]).path := by
  rw [Path.join, if_neg (Bool.eq_false_iff.mp own.clean.relative)]
  by_cases top : location = []
  · rw [top, if_pos (.inr (by rfl)), List.nil_append, Location.path, Location.path, joined_singleton]
    rfl
  · rw [if_neg (by simpa [path_nonempty] using getLast?_path top proper)]
    simp only [Location.path]
    rw [joined_append top (List.cons_ne_nil _ _), joined_singleton]
    simp only [ByteString.append_assoc]

def spelled (path : Path) (names : Location) : Path :=
  names.foldl (fun upper name => upper.join ⟨name⟩) path

private theorem spelled_path {directory names : Location} (proper : ∀ name ∈ directory ++ names, Proper name) :
    spelled directory.path names = (directory ++ names).path := by
  induction names generalizing directory with
  | nil => exact congrArg Location.path (List.append_nil directory).symm
  | cons name names ih =>
    rw [List.append_cons] at proper ⊢
    rw [← ih proper, ← path_join (fun other member => proper other (by simp [member])) (proper name (by simp))]
    rfl

/-- The file that the names lead to from a directory, which `path` spells, with no directory skipped on
the way. -/
structure Walked (disk : Disk) (skips : Path → Bool) (path : Path) (directory names : Location) : Prop where
  stands : ∃ id mode content, disk.entry? (directory ++ names) = some (.file id mode content)
  entered : ∀ upper, upper <+: names → upper ≠ [] → upper ≠ names → skips (spelled path upper) = false

/-- The file that the names lead to from a directory, with no directory skipped on the way. -/
structure Below (disk : Disk) (skips : Path → Bool) (directory names : Location) : Prop where
  stands : ∃ id mode content, disk.entry? (directory ++ names) = some (.file id mode content)
  entered : ∀ upper, upper <+: names → upper ≠ [] → upper ≠ names →
    skips (directory ++ upper).path = false

private theorem walked_shallow {disk : Disk} {skips : Path → Bool} {path : Path} {directory names : Location}
    (few : ∀ upper, upper <+: names → upper = [] ∨ upper = names) :
    Walked disk skips path directory names ↔
      ∃ id mode content, disk.entry? (directory ++ names) = some (.file id mode content) := by
  refine ⟨Walked.stands, fun stands => ⟨stands, ?_⟩⟩
  intro upper leads nonempty different
  exact ((few upper leads).elim nonempty different).elim

theorem walked_nil {disk : Disk} {skips : Path → Bool} {path : Path} {directory : Location} :
    Walked disk skips path directory [] ↔
      ∃ id mode content, disk.entry? directory = some (.file id mode content) := by
  rw [walked_shallow fun upper leads => .inl (List.prefix_nil.mp leads), List.append_nil]

private theorem walked_single {disk : Disk} {skips : Path → Bool} {path : Path} {directory : Location}
    {name : ByteString} : Walked disk skips path directory [name] ↔
      ∃ id mode content, disk.entry? (directory ++ [name]) = some (.file id mode content) := by
  refine walked_shallow fun upper leads => ?_
  rcases List.prefix_cons_iff.mp leads with rfl | ⟨rest, rfl, inside⟩
  · exact .inl rfl
  · exact .inr (by rw [List.prefix_nil.mp inside])

private theorem walked_cons {disk : Disk} {skips : Path → Bool} {path : Path} {directory names : Location}
    {name : ByteString} (nonempty : names ≠ []) :
    Walked disk skips path directory (name :: names) ↔
      skips (path.join ⟨name⟩) = false ∧
        Walked disk skips (path.join ⟨name⟩) (directory ++ [name]) names := by
  constructor
  · intro walked
    refine ⟨walked.entered [name] (by simp) (by simp) (by simpa using Ne.symm nonempty), ?_, ?_⟩
    · simpa using walked.stands
    · intro upper leads _ different
      exact walked.entered (name :: upper) (by simpa using leads) (by simp) (by simpa using different)
  · rintro ⟨first, walked⟩
    refine ⟨by simpa using walked.stands, ?_⟩
    intro upper leads _ different
    rcases List.prefix_cons_iff.mp leads with rfl | ⟨rest, rfl, inside⟩
    · contradiction
    · by_cases empty : rest = []
      · rw [empty]
        exact first
      · exact walked.entered rest inside empty (by simpa using different)

section
variable {disk : Disk} (tree : IsTree disk) (skips : Path → Bool)
include tree

private theorem walked_path {directory names : Location} :
    Walked disk skips directory.path directory names ↔ Below disk skips directory names := by
  have same (stands : ∃ id mode content, disk.entry? (directory ++ names) = some (.file id mode content))
      {upper : Location} (leads : upper <+: names) :
      spelled directory.path upper = (directory ++ upper).path := by
    obtain ⟨_, _, _, file⟩ := stands
    refine spelled_path fun name member => (tree.grounded file).proper name ?_
    exact ((List.prefix_append_right_inj directory).mpr leads).subset member
  constructor
  · rintro ⟨stands, entered⟩
    exact ⟨stands, fun upper leads nonempty different => same stands leads ▸ entered upper leads nonempty different⟩
  · rintro ⟨stands, entered⟩
    exact ⟨stands, fun upper leads nonempty different =>
      (same stands leads).symm ▸ entered upper leads nonempty different⟩

private theorem mem_filesFrom {depth : Nat} {directory : Location}
    (stands : disk.entry? directory = some .directory) {path file : Path} :
    file ∈ disk.filesFrom skips depth directory path ↔
      ∃ names, names.length ≤ depth ∧ Walked disk skips path directory names ∧ file = spelled path names := by
  induction depth generalizing directory path with
  | zero =>
    simp only [filesFrom, List.not_mem_nil, false_iff]
    rintro ⟨names, short, walked, _⟩
    obtain ⟨id, mode, content, held⟩ := walked.stands
    rw [List.length_eq_zero_iff.mp (Nat.le_zero.mp short), List.append_nil, stands] at held
    cases held
  | succ depth ih =>
    simp only [filesFrom, List.mem_flatMap, Prod.exists]
    constructor
    · rintro ⟨name, entry, member, inside⟩
      have there := tree.mem_children.mp member
      cases entry with
      | file id mode content =>
        exact ⟨[name], by simp, walked_single.mpr ⟨_, _, _, there⟩, List.mem_singleton.mp inside⟩
      | link target => cases inside
      | directory =>
        simp only at inside
        split at inside
        · cases inside
        · rename_i entered
          obtain ⟨names, short, walked, rfl⟩ := (ih there).mp inside
          have nonempty : names ≠ [] := by
            rintro rfl
            obtain ⟨id, mode, content, held⟩ := walked_nil.mp walked
            rw [there] at held
            cases held
          refine ⟨name :: names, by simpa using short, ?_, rfl⟩
          exact (walked_cons nonempty).mpr ⟨by simpa using entered, walked⟩
    · rintro ⟨names, short, walked, rfl⟩
      obtain ⟨id, mode, content, held⟩ := walked.stands
      cases names with
      | nil =>
        rw [List.append_nil, stands] at held
        cases held
      | cons name names =>
        refine ⟨name, ?_⟩
        by_cases last : names = []
        · subst last
          exact ⟨_, tree.mem_children.mpr held, List.mem_singleton_self _⟩
        · obtain ⟨entered, walked⟩ := (walked_cons last).mp walked
          have there : disk.entry? (directory ++ [name]) = some .directory := by
            refine (tree.grounded held).above _ (by simp) ?_
            simpa using Ne.symm last
          refine ⟨.directory, tree.mem_children.mpr there, ?_⟩
          simp only [entered, Bool.false_eq_true, if_false]
          exact (ih there).mpr ⟨names, by simpa using short, walked, rfl⟩

/-- The files below a path to a directory are all that the walk does not skip. -/
theorem mem_filesBelow_spelled {path : Path} {directory : Location}
    (found : disk.find true path = .ok ⟨directory, some .directory⟩) {file : Path} :
    file ∈ disk.filesBelow skips path ↔
      ∃ names, Walked disk skips path directory names ∧ file = spelled path names := by
  simp only [filesBelow, found]
  rw [mem_filesFrom tree skips (find_grounded found).2.symm]
  constructor
  · rintro ⟨names, _, walked, same⟩
    exact ⟨names, walked, same⟩
  · rintro ⟨names, walked, same⟩
    obtain ⟨id, mode, content, held⟩ := walked.stands
    have deep := tree.depth held
    rw [List.length_append] at deep
    exact ⟨names, by omega, walked, same⟩

theorem mem_filesBelow {directory : Location}
    (found : disk.find true directory.path = .ok ⟨directory, some .directory⟩) {path : Path} :
    path ∈ disk.filesBelow skips directory.path ↔
      ∃ names, Below disk skips directory names ∧ path = (directory ++ names).path := by
  rw [mem_filesBelow_spelled tree skips found]
  refine exists_congr fun names => ?_
  rw [walked_path tree skips]
  refine and_congr_right fun below => ?_
  obtain ⟨id, mode, content, held⟩ := below.stands
  rw [spelled_path (tree.grounded held).proper]

end

end StagedFormat.Proofs.FileWalk
