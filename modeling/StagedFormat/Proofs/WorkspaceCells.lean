import StagedFormat.Pipeline
import StagedFormat.Proofs.DiskReplacement
import StagedFormat.Proofs.PathSight
import StagedFormat.Proofs.RepositoryEffects

/-! A workspace as a collection of cells that can be read and changed one by one, and what the same
operation does in two workspaces that agree on the cells it looks at. -/

namespace StagedFormat.Proofs.WorkspaceCells
open StagedFormat Git Disk PathSegments DiskFollowing DiskReplacement PathSight RepositoryEffects

def plain : Entry → Entry
  | .file _ mode content => .file 0 mode content
  | entry => entry

private theorem shape_plain (entry : Entry) : shape (plain entry) = shape entry := by cases entry <;> rfl

def EqualAt (disk other : Disk) (location : Location) : Prop :=
  (disk.entry? location).map plain = (other.entry? location).map plain

theorem EqualAt.alike {disk other : Disk} {location : Location} (equal : EqualAt disk other location) :
    AlikeAt disk other location := by
  have shapes := congrArg (Option.map shape) equal
  simp only [Option.map_map, Function.comp_def, shape_plain] at shapes
  exact shapes

theorem EqualAt.file {disk other : Disk} {location : Location} (equal : EqualAt disk other location)
    {id mode : Nat} {content : ByteArray} (stands : disk.entry? location = some (.file id mode content)) :
    ∃ own, other.entry? location = some (.file own mode content) := by
  unfold EqualAt at equal
  rw [stands] at equal
  rcases there : other.entry? location with _ | _ | target | ⟨own, kept, held⟩ <;> rw [there] at equal
  all_goals cases equal
  exact ⟨own, rfl⟩

theorem equalAt_of_files {disk other : Disk} {location : Location} {mode : Nat} {content : ByteArray}
    (one : ∃ id, disk.entry? location = some (.file id mode content))
    (two : ∃ id, other.entry? location = some (.file id mode content)) : EqualAt disk other location := by
  obtain ⟨_, here⟩ := one
  obtain ⟨_, there⟩ := two
  rw [EqualAt, here, there]
  rfl

/-- A part of a workspace: what is at a location, whether that is a file, a link or a directory, the
staged entry of a path, an object, a stream, or all that no target changes. -/
inductive Cell where
  | entry (location : Location)
  | shape (location : Location)
  | index (path : Path)
  | object (hash : String)
  | stream (slot : Nat)
  | settings
  deriving DecidableEq

def Cell.Value : Cell → Type
  | .entry _ | .shape _ => Option Entry
  | .index _ => Index → Option IndexEntry
  | .object _ => Option ByteArray
  | .stream _ => Option Stream
  | .settings => Bool × Repository

/-- A repository without what commands change in it. -/
def settings (repository : Repository) : Repository :=
  { repository with objects := [], updates := [], attempts := 0 }

theorem field_of_settings {α : Type} (field : Repository → α)
    (kept : ∀ repository, field (settings repository) = field repository) {one other : Repository}
    (same : settings one = settings other) : field one = field other := by
  rw [← kept one, same, kept]

/-- What is in a cell; of the index, the entry after its updates. -/
def view (workspace : Workspace) : (cell : Cell) → cell.Value
  | .entry location => (workspace.disk.entry? location).map plain
  | .shape location => (workspace.disk.entry? location).map shape
  | .index path => fun index => index.after workspace.repository.updates path
  | .object hash => workspace.repository.objects.lookup hash
  | .stream slot => workspace.streams[slot]?
  | .settings => (workspace.poisoned, settings workspace.repository)

theorem view_attempts (workspace : Workspace) (attempts : Nat) :
    view { workspace with repository := { workspace.repository with attempts } } = view workspace := by
  funext cell
  cases cell <;> rfl

private theorem inspect_of_find {disk : Disk} {path : Path} {location : Location} {entry : Option Entry}
    (found : disk.find true path = .ok ⟨location, entry⟩) :
    disk.inspect path = entry.elim (.error .notFound) .ok := by
  rw [inspect, found]
  cases entry <;> rfl

/-- What is seen at one path in two trees: the same, or files that differ in their identity only. -/
inductive Seen : Except IoError Entry → Except IoError Entry → Prop where
  | same (answer : Except IoError Entry) : Seen answer answer
  | file (id id' mode : Nat) (content : ByteArray) :
      Seen (.ok (.file id mode content)) (.ok (.file id' mode content))

section
variable {disk other : Disk} {path : Path}
  (alike : ∀ seen, Looks disk true [] (steps path) seen → AlikeAt disk other seen)
include alike

theorem startFault_together (command : Command) :
    Repository.startFault disk path command = Repository.startFault other path command := by
  unfold Repository.startFault
  rcases find_together alike with ⟨cause, here, there⟩ | ⟨location, here, there, same⟩
  · simp only [inspect, here, there]
  · rw [inspect_of_find here, inspect_of_find there]
    cases command.startFault with
    | some fault => rfl
    | none =>
      have same := same.matched
      generalize disk.entry? location = one at same
      generalize other.entry? location = two at same
      cases same <;> rfl

theorem destination_together :
    WorkingFile.destination disk path = WorkingFile.destination other path := by
  rcases find_together alike with ⟨cause, here, there⟩ | ⟨location, here, there, same⟩
  · simp only [WorkingFile.destination, canonicalize, here, there]
  · rw [destination_of_find here, destination_of_find there]
    have same := same.matched
    generalize disk.entry? location = one at same
    generalize other.entry? location = two at same
    cases same <;> rfl

variable (equal : ∀ location id mode content,
  disk.find true path = .ok ⟨location, some (.file id mode content)⟩ → EqualAt disk other location)
include equal

private theorem inspect_together : Seen (disk.inspect path) (other.inspect path) := by
  rcases find_together alike with ⟨cause, here, there⟩ | ⟨location, here, there, same⟩
  · simp only [inspect, here, there]
    exact .same _
  · have contents := equal location
    rw [inspect_of_find here, inspect_of_find there]
    rw [here] at contents
    have same := same.matched
    generalize stands : disk.entry? location = one at same contents
    generalize stands' : other.entry? location = two at same
    cases same with
    | file id mode content id' mode' content' =>
      obtain ⟨own, kept⟩ := (show EqualAt disk other location from contents id mode content rfl).file stands
      cases stands'.symm.trans kept
      exact .file ..
    | _ => exact .same _

theorem shown_together : disk.readText path = other.readText path ∧
    WorkingFile.modeAt disk path = WorkingFile.modeAt other path := by
  have seen := inspect_together alike equal
  unfold readText readBytes WorkingFile.modeAt
  generalize disk.inspect path = one at seen ⊢
  generalize other.inspect path = two at seen ⊢
  cases seen <;> exact ⟨rfl, rfl⟩

end

/-- What a command leaves of two repositories: it was tried only, or it was answered in both. -/
inductive Left (one other : Repository) (command : Command) : Repository → Repository → Prop where
  | tried (attempts attempts' : Nat) : Left one other command { one with attempts }
      { other with attempts := attempts' }
  | answered (attempts attempts' : Nat) : Left one other command
      { (one.answer command).2 with attempts } { (other.answer command).2 with attempts := attempts' }

section
variable {one other : Repository} {command : Command} (same : settings one = settings other)
  (uniform : ∀ first second command, one.refuses first command = one.refuses second command)
  (answers : (one.answer command).1 = (other.answer command).1)
include same uniform answers

private theorem attempt_together :
    (one.attempt command).1 = (other.attempt command).1 ∧
      Left one other command (one.attempt command).2 (other.attempt command).2 := by
  have refuses : other.refuses other.attempts command = one.refuses one.attempts command := by
    rw [← field_of_settings Repository.refuses (fun _ => rfl) same]
    exact uniform _ _ command
  unfold Repository.attempt
  rw [refuses]
  cases one.refuses one.attempts command with
  | some message => exact ⟨rfl, .tried _ _⟩
  | none =>
    simp only [answer_attempts]
    exact ⟨answers, .answered _ _⟩

theorem run_together {disk disk' : Disk} {directory : Path}
    (faults : Repository.startFault disk directory command = Repository.startFault disk' directory command) :
    (one.run disk directory command).1 = (other.run disk' directory command).1 ∧
      Left one other command (one.run disk directory command).2 (other.run disk' directory command).2 := by
  have access := field_of_settings Repository.access (fun _ => rfl) same
  obtain ⟨outcome, left⟩ := attempt_together same uniform answers
  unfold Repository.run
  rw [← access, ← faults]
  cases one.access with
  | direct => exact ⟨by simp only [outcome], left⟩
  | process =>
    simp only
    split
    · exact ⟨rfl, .tried _ _⟩
    · exact ⟨by simp only [outcome], left⟩
  | missing => exact ⟨rfl, .tried _ _⟩

end

private theorem replaced_set (disk : Disk) {location : Location} (nonempty : location ≠ []) (id mode : Nat)
    (content : ByteArray) :
    Replaced disk location mode content (disk.set location (.file id mode content)) := by
  refine ⟨⟨id, by rw [entry?_set _ nonempty, if_pos rfl]⟩, ?_⟩
  intro other different
  rw [entry?_set _ nonempty, if_neg different]

theorem writeFile_together {disk other : Disk} {location : Location} (here : Grounded disk location)
    (there : Grounded other location) (nonempty : location ≠ [])
    (unlinked : ∀ target, disk.entry? location ≠ some (.link target))
    (alike : ∀ seen, seen <+: location → AlikeAt disk other seen) (equal : EqualAt disk other location)
    (content : ByteArray) :
    (∃ cause, disk.writeFile location.path content = .error cause ∧
      other.writeFile location.path content = .error cause) ∨
    ∃ mode next next', disk.writeFile location.path content = .ok next ∧
      other.writeFile location.path content = .ok next' ∧ Fits location ∧
      disk.entry? location ≠ some .directory ∧ Replaced disk location mode content next ∧
      Replaced other location mode content next' := by
  have sights : ∀ seen, Looks disk true [] (steps location.path) seen → AlikeAt disk other seen :=
    fun seen looks => alike seen (looks_path here nonempty unlinked looks)
  simp only [writeFile, findForCreation_path here nonempty, findForCreation_path there nonempty]
  rcases find_together sights with ⟨cause, found, found'⟩ | ⟨reached, found, found', _⟩
  · exact .inl ⟨cause, by rw [found]; rfl, by rw [found']; rfl⟩
  · obtain rfl := (location_of_find here nonempty unlinked found).symm
    have fits := fits_of_find here nonempty found
    rw [found, found']
    rcases stands : disk.entry? location with _ | _ | target | ⟨id, mode, held⟩
    · have vacant : other.entry? location = none := by
        unfold EqualAt at equal
        rw [stands] at equal
        exact Option.map_eq_none_iff.mp equal.symm
      rw [vacant]
      exact .inr ⟨plainMode, _, _, rfl, rfl, fits, by simp,
        ⟨(replaced_set disk nonempty _ _ content).file, (replaced_set disk nonempty _ _ content).others⟩,
        ⟨(replaced_set other nonempty _ _ content).file, (replaced_set other nonempty _ _ content).others⟩⟩
    · have stands' := shape_eq_directory.mp ((equal.alike.symm.trans (by rw [stands]; rfl)))
      rw [stands']
      exact .inl ⟨.isDirectory, rfl, rfl⟩
    · exact (unlinked target stands).elim
    · obtain ⟨own, stands'⟩ := equal.file stands
      rw [stands']
      exact .inr ⟨mode, _, _, rfl, rfl, fits, by simp, replaced_set disk nonempty id mode content,
        replaced_set other nonempty own mode content⟩

structure Moved (disk : Disk) (source destination : Location) (mode : Nat) (content : ByteArray)
    (next : Disk) : Prop where
  file : ∃ id, next.entry? destination = some (.file id mode content)
  vacant : next.entry? source = none
  others : ∀ other, other ≠ source → other ≠ destination → next.entry? other = disk.entry? other

section
variable {disk : Disk} {location : Location} {id mode : Nat} {content : ByteArray}
  (grounded : Grounded disk location) (fits : Fits location)
  (stands : disk.entry? location = some (.file id mode content))
include grounded fits stands

theorem setMode_replaces (next : Nat) :
    ∃ adjusted, disk.setMode location.path next = .ok adjusted ∧
      Replaced disk location next content adjusted :=
  ⟨_, setMode_file grounded fits stands next, replaced_set disk (nonempty_of_file stands) id next content⟩

theorem rename_moves {destination : Location} {other kept : Nat} {held : ByteArray}
    (lands : Grounded disk destination) (room : Fits destination) (apart : location ≠ destination)
    (covered : disk.entry? destination = some (.file other kept held)) :
    ∃ next, disk.rename location.path destination.path = .ok next ∧
      Moved disk location destination mode content next := by
  have source := nonempty_of_file stands
  have target := nonempty_of_file covered
  refine ⟨_, rename_file (find_file grounded fits stands false) lands room covered rfl, ⟨id, ?_⟩, ?_, ?_⟩
  · rw [entry?_set _ target, if_pos rfl]
  · rw [entry?_set _ target, if_neg apart, entry?_erase _ source, if_pos rfl]
  · intro other unmoved different
    rw [entry?_set _ target, if_neg different, entry?_erase _ source, if_neg unmoved]

end

end StagedFormat.Proofs.WorkspaceCells
