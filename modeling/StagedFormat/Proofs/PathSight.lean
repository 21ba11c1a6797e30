import StagedFormat.Proofs.DiskFollowing

/-! What is looked at while a path is followed. Trees that agree there lead the path to the same
location, or stop it for the same reason. -/

namespace StagedFormat.Proofs.PathSight
open StagedFormat Disk PathSegments DiskFollowing

/-- The locations that are looked at while steps are followed from a directory. -/
inductive Looks (disk : Disk) (follow : Bool) : Location → List Step → Location → Prop where
  | here {directory name rest} : Looks disk follow directory (.down name :: rest) (directory ++ [name])
  | stay {directory rest seen} : Looks disk follow directory rest seen →
      Looks disk follow directory (.stay :: rest) seen
  | up {directory rest seen} : Looks disk follow directory.dropLast rest seen →
      Looks disk follow directory (.up :: rest) seen
  | enter {directory name rest seen} : disk.entry? (directory ++ [name]) = some .directory →
      Looks disk follow (directory ++ [name]) rest seen →
      Looks disk follow directory (.down name :: rest) seen
  | chase {directory name target rest seen} :
      disk.entry? (directory ++ [name]) = some (.link target) → (rest = [] → follow = true) →
      Looks disk follow (if target.isAbsolute then [] else directory) (steps target ++ rest) seen →
      Looks disk follow directory (.down name :: rest) seen

/-- Directories and links decide what is looked at. -/
theorem Looks.transfer {disk other : Disk} {follow : Bool} {directory : Location} {way : List Step}
    {seen : Location}
    (routes : ∀ location entry, entry.isFile = false → disk.entry? location = some entry →
      other.entry? location = some entry)
    (looks : Looks disk follow directory way seen) : Looks other follow directory way seen := by
  induction looks with
  | here => exact .here
  | stay _ ih => exact .stay ih
  | up _ ih => exact .up ih
  | enter stands _ ih => exact .enter (routes _ _ rfl stands) ih
  | chase link goes _ ih => exact .chase (routes _ _ rfl link) goes ih

/-- Two trees have the same kind of thing at a location, and the same link if it is one. -/
def AlikeAt (disk other : Disk) (location : Location) : Prop :=
  (disk.entry? location).map shape = (other.entry? location).map shape

inductive Matched : Option Entry → Option Entry → Prop where
  | vacant : Matched none none
  | directory : Matched (some .directory) (some .directory)
  | link (target : Path) : Matched (some (.link target)) (some (.link target))
  | file (id mode content id' mode' content') :
      Matched (some (.file id mode content)) (some (.file id' mode' content'))

theorem matched_of_shape {one other : Option Entry} (same : one.map shape = other.map shape) :
    Matched one other := by
  rcases one with _ | _ | target | ⟨id, mode, content⟩ <;>
    rcases other with _ | _ | target' | ⟨id', mode', content'⟩ <;>
    simp only [Option.map_none, Option.map_some, shape, reduceCtorEq, Option.some.injEq,
      Entry.link.injEq] at same
  · exact .vacant
  · exact .directory
  · exact same ▸ .link target
  · exact .file ..

theorem AlikeAt.matched {disk other : Disk} {location : Location} (alike : AlikeAt disk other location) :
    Matched (disk.entry? location) (other.entry? location) := matched_of_shape alike

def outline (place : Place) : Location × Option Entry := (place.location, place.entry.map shape)

section
variable {disk other : Disk} {follow : Bool}

private theorem advance_outline {chase chased : Location → Path → List Step → Except IoError Place}
    (onward : ∀ directory target rest,
      (∀ seen, Looks disk follow (if target.isAbsolute then [] else directory) (steps target ++ rest) seen →
        AlikeAt disk other seen) →
      (chase directory target rest).map outline = (chased directory target rest).map outline)
    {directory : Location} {way : List Step}
    (alike : ∀ seen, Looks disk follow directory way seen → AlikeAt disk other seen) :
    (disk.advance follow chase directory way).map outline =
      (other.advance follow chased directory way).map outline := by
  induction way generalizing directory with
  | nil => rfl
  | cons step rest ih =>
    cases step with
    | stay => exact ih fun seen looks => alike seen (.stay looks)
    | up => exact ih fun seen looks => alike seen (.up looks)
    | down name =>
      simp only [advance]
      split
      · rfl
      · have same := (alike _ .here).matched
        generalize stands : disk.entry? (directory ++ [name]) = here at same
        generalize other.entry? (directory ++ [name]) = there at same
        cases same with
        | vacant => rfl
        | directory => exact ih fun seen looks => alike seen (.enter stands looks)
        | link target =>
          simp only
          split
          · rfl
          · rename_i goes
            refine onward _ _ _ fun seen looks => alike seen (.chase stands ?_ looks)
            rintro rfl
            simpa using goes
        | file =>
          simp only
          split <;> rfl

private theorem walk_outline {links : Nat} {directory : Location} {way : List Step}
    (alike : ∀ seen, Looks disk follow directory way seen → AlikeAt disk other seen) :
    (disk.walk follow links directory way).map outline =
      (other.walk follow links directory way).map outline := by
  induction links generalizing directory way with
  | zero => exact advance_outline (fun _ _ _ _ => rfl) alike
  | succ links ih => exact advance_outline (fun _ _ _ later => ih later) alike

variable {path : Path}
  (alike : ∀ seen, Looks disk follow [] (steps path) seen → AlikeAt disk other seen)
include alike

private theorem find_outline : (disk.find follow path).map outline = (other.find follow path).map outline := by
  unfold find
  split
  · rfl
  · split
    · rfl
    · split
      · rfl
      · exact walk_outline alike

/-- A path is stopped for one reason in both trees, or it leads to one location. -/
theorem find_together :
    (∃ cause, disk.find follow path = .error cause ∧ other.find follow path = .error cause) ∨
    ∃ location, disk.find follow path = .ok ⟨location, disk.entry? location⟩ ∧
      other.find follow path = .ok ⟨location, other.entry? location⟩ ∧ AlikeAt disk other location := by
  have same := find_outline alike
  cases here : disk.find follow path with
  | error cause =>
    cases there : other.find follow path with
    | error other =>
      rw [here, there] at same
      cases same
      exact .inl ⟨_, rfl, rfl⟩
    | ok place => rw [here, there] at same; cases same
  | ok place =>
    cases there : other.find follow path with
    | error other => rw [here, there] at same; cases same
    | ok reached =>
      rw [here, there] at same
      obtain ⟨sameLocation, sameShape⟩ := Prod.mk.inj (Except.ok.inj same)
      have stands := (find_grounded here).2
      have found := (find_grounded there).2
      rw [← sameLocation] at found
      rw [stands, found] at sameShape
      refine .inr ⟨place.location, ?_, ?_, sameShape⟩
      · rw [← stands]
      · rw [← found, sameLocation]

end

section
variable {disk : Disk} {follow : Bool}

theorem Looks.down {directory seen : Location} {names : List ByteString}
    (grounded : Grounded disk (directory ++ names))
    (unlinked : ∀ target, disk.entry? (directory ++ names) ≠ some (.link target))
    (looks : Looks disk follow directory (names.map .down) seen) : seen <+: directory ++ names := by
  induction names generalizing directory with
  | nil => cases looks
  | cons name names ih =>
    cases looks with
    | here => exact List.prefix_append_right_inj directory |>.mpr (List.prefix_append [name] names)
    | enter stands looks =>
      rw [List.append_cons] at grounded unlinked ⊢
      exact ih grounded unlinked looks
    | chase link =>
      cases names with
      | nil => exact (unlinked _ link).elim
      | cons next names => rw [grounded.entered] at link; cases link

private theorem location_of_down {directory : Location} {names : List ByteString} {place : Place}
    (grounded : Grounded disk (directory ++ names))
    (unlinked : ∀ target, disk.entry? (directory ++ names) ≠ some (.link target))
    (leads : Leads disk follow directory (names.map .down) place) :
    place.location = directory ++ names := by
  induction names generalizing directory with
  | nil =>
    cases leads
    exact (List.append_nil directory).symm
  | cons name names ih =>
    cases names with
    | nil =>
      cases leads with
      | enter stands leads =>
        cases leads
        rfl
      | chase link => exact (unlinked _ link).elim
      | stop => rfl
    | cons next names =>
      have entered := grounded.entered
      cases leads with
      | enter stands leads =>
        rw [List.append_cons] at grounded unlinked ⊢
        exact ih grounded unlinked leads
      | chase link => rw [entered] at link; cases link

variable {location : Location} (grounded : Grounded disk location) (nonempty : location ≠ [])
  (unlinked : ∀ target, disk.entry? location ≠ some (.link target))
include grounded nonempty unlinked

theorem looks_path {seen : Location} (looks : Looks disk follow [] (steps location.path) seen) :
    seen <+: location := by
  rw [steps_path nonempty grounded.proper] at looks
  exact looks.down grounded unlinked

theorem location_of_find {place : Place} (found : disk.find follow location.path = .ok place) :
    place.location = location := by
  have leads := leads_of_find found
  rw [steps_path nonempty grounded.proper] at leads
  exact location_of_down grounded unlinked leads

end

/-- A path that leads down to a location, through directories only and not to a link. -/
structure Straight (disk : Disk) (path : Path) (location : Location) : Prop where
  path : path = location.path
  nonempty : location ≠ []
  grounded : Grounded disk location
  unlinked : ∀ target, disk.entry? location ≠ some (.link target)

section
variable {disk : Disk} {path : Path} {location : Location} (straight : Straight disk path location)
include straight

theorem Straight.looks {seen : Location} (looks : Looks disk true [] (steps path) seen) : seen <+: location := by
  rw [straight.path] at looks
  exact looks_path straight.grounded straight.nonempty straight.unlinked looks

theorem Straight.leads {place : Place} (found : disk.find true path = .ok place) : place.location = location := by
  rw [straight.path] at found
  exact location_of_find straight.grounded straight.nonempty straight.unlinked found

end

theorem straight_top {disk : Disk} {name : ByteString} (proper : Proper name)
    (unlinked : ∀ target, disk.entry? [name] ≠ some (.link target)) :
    Straight disk (Location.path [name]) [name] :=
  ⟨rfl, List.cons_ne_nil _ _, .below (.top disk) rfl proper, unlinked⟩

theorem not_looks_top {disk : Disk} {seen : Location} : ¬ Looks disk true [] (steps ⟨"/"⟩) seen := by
  rintro (looks | looks)
  cases looks

end StagedFormat.Proofs.PathSight
