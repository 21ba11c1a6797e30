import StagedFormat.Proofs.DryRuns
import StagedFormat.Proofs.WorkerSteps
import StagedFormat.Proofs.WorkspaceCells

/-! What a worker looks at and what it changes. A step goes the same way in a workspace that others are
at work in as in one of its own, if both agree on the cells that the worker looks at. -/

namespace StagedFormat.Proofs.WorkerFootprints
open StagedFormat Git Disk PathSegments DiskFollowing DiskReplacement PathSight RepositoryEffects
open WorkerSteps WorkspaceCells DryRuns

def working? : Target → Option WorkingFile
  | .file file | .pair _ file => some file
  | _ => none

def staged? : Target → Option IndexBlob
  | .blob blob | .pair blob _ => some blob
  | _ => none

/-- The location of a target's file, at the end of all links. -/
def Home (disk : Disk) (target : Target) (location : Location) : Prop :=
  ∃ file id mode content, working? target = some file ∧
    disk.find true file.path = .ok ⟨location, some (.file id mode content)⟩

section
variable {disk : Disk} {target : Target} {home : Location} (at_home : Home disk target home)
include at_home

theorem Home.unique {other : Location} (two : Home disk target other) : home = other := by
  obtain ⟨file, _, _, _, own, found⟩ := at_home
  obtain ⟨file', _, _, _, same, there⟩ := two
  cases own.symm.trans same
  exact (Place.mk.inj (Except.ok.inj (found.symm.trans there))).1

theorem Home.grounded : Grounded disk home := by
  obtain ⟨_, _, _, _, _, found⟩ := at_home
  exact (find_grounded found).1

theorem Home.file : ∃ id mode content, disk.entry? home = some (.file id mode content) := by
  obtain ⟨_, id, mode, content, _, found⟩ := at_home
  exact ⟨id, mode, content, (find_grounded found).2.symm⟩

theorem Home.nonempty : home ≠ [] := by
  obtain ⟨_, _, _, stands⟩ := at_home.file
  exact nonempty_of_file stands

end

/-- What a worker looks at. Of its own files it sees the content, of what it passes on the way to them
only whether that is a file, a link or a directory. -/
def Sees (start : Workspace) (target : Target) : Cell → Prop
  | .entry location => ∃ home, Home start.disk target home ∧ (location = home ∨ location = beside home)
  | .shape location =>
    (∃ file, working? target = some file ∧ Looks start.disk true [] (steps file.path) location) ∨
    (∃ blob, staged? target = some blob ∧ Looks start.disk true [] (steps blob.root) location) ∨
    ∃ home, Home start.disk target home ∧ (location <+: home ∨ location = beside home)
  | .index path => ∃ blob, staged? target = some blob ∧ path = blob.path
  | .object _ => False
  | .stream slot => target = .stream slot
  | .settings => True

/-- The text that a target is written back with, if it is. -/
def Pending (format : Formatter) (dryRun : Bool) (start : Workspace) (target : Target) (text : String) : Prop :=
  dryRun = false ∧ ∃ source, (target.read start).1 = .ok source ∧ format source = .text text ∧ text ≠ source

/-- What a worker may change. -/
def Writes (format : Formatter) (dryRun : Bool) (start : Workspace) (target : Target) : Cell → Prop
  | .entry location => ∃ home text, Home start.disk target home ∧
    Pending format dryRun start target text ∧ (location = home ∨ location = beside home)
  | .shape location => ∃ home text, Home start.disk target home ∧
    Pending format dryRun start target text ∧ location = beside home ∧
    start.disk.entry? location ≠ some .directory
  | .index path => ∃ blob text, staged? target = some blob ∧
    Pending format dryRun start target text ∧ path = blob.path
  | .object _ => True
  | .stream slot => target = .stream slot
  | .settings => False

def Stores (format : Formatter) (dryRun : Bool) (start : Workspace) (target : Target)
    (item : String × ByteArray) : Prop :=
  item.1 = start.repository.hash item.2 ∧ ∃ text, Pending format dryRun start target text ∧ item.2 = text.toUTF8

/-- What is taken for granted of the repository and of the place for a target's temporary file. -/
structure Tame (format : Formatter) (dryRun : Bool) (start : Workspace) (target : Target) : Prop where
  uniform : ∀ first second command,
    start.repository.refuses first command = start.repository.refuses second command
  calm : ∀ attempt, start.repository.crashes attempt = none
  legible : ∀ home text, Home start.disk target home → Pending format dryRun start target text → Legible home
  unlinked : ∀ home text, Home start.disk target home → Pending format dryRun start target text →
    ∀ link, start.disk.entry? (beside home) ≠ some (.link link)
  modes : ∀ blob, staged? target = some blob → ',' ∉ blob.mode.toList
  hashes : ∀ text, Pending format dryRun start target text →
    (start.repository.hash text.toUTF8).trimmed = start.repository.hash text.toUTF8 ∧
      ',' ∉ (start.repository.hash text.toUTF8).toList

def Agrees (start : Workspace) (target : Target) (busy quiet : Workspace) : Prop :=
  ∀ cell, Sees start target cell → view busy cell = view quiet cell

def Routed (disk start : Disk) : Prop :=
  ∀ location entry, entry.isFile = false →
    (disk.entry? location = some entry ↔ start.entry? location = some entry)

/-- What is known of a worker that was left alone, at each stage. -/
def Known (format : Formatter) (dryRun : Bool) (start : Workspace) (target : Target) (quiet : Workspace) :
    Stage → Prop
  | .reading => quiet = start
  | .counting content => quiet.disk = start.disk ∧ (target.read start).1 = .ok content
  | .locating file content => quiet.disk = start.disk ∧ Pending format dryRun start target content ∧
    working? target = some file ∧ ∃ home, Home start.disk target home
  | .measuring destination content | .filling destination _ content =>
    quiet.disk = start.disk ∧ Pending format dryRun start target content ∧
      ∃ home, Home start.disk target home ∧ destination = home.path
  | .adjusting destination _ content | .moving destination content =>
    Pending format dryRun start target content ∧ ∃ home, Home start.disk target home ∧ destination = home.path ∧
      Fits (beside home) ∧ start.disk.entry? (beside home) ≠ some .directory ∧
      ∃ mode, Replaced start.disk (beside home) mode content.toUTF8 quiet.disk
  | .discarding _ _ => False
  | .storing blob content => staged? target = some blob ∧ Pending format dryRun start target content
  | .entering blob hash => staged? target = some blob ∧ ',' ∉ hash.toList ∧
    ∃ text, Pending format dryRun start target text
  | .answering slot content => target = .stream slot ∧ Pending format dryRun start target content
  | .finished _ => True

/-- Two workspaces after the same step of one worker. -/
structure Together (format : Formatter) (dryRun : Bool) (start : Workspace) (target : Target)
    (busy quiet after rest : Workspace) : Prop where
  agrees : Agrees start target after rest
  frame : ∀ cell, ¬ Writes format dryRun start target cell → view after cell = view busy cell
  stored : ∃ stored, after.repository.objects = stored ++ busy.repository.objects ∧
    rest.repository.objects = stored ++ quiet.repository.objects ∧
    ∀ item ∈ stored, Stores format dryRun start target item

/-- One step of a worker in a busy workspace and in a quiet one. -/
structure Advances (format : Formatter) (dryRun : Bool) (start : Workspace) (target : Target) (busy quiet : Shared)
    (one other : Stage × Shared) : Prop where
  stage : one.1 = other.1
  known : Known format dryRun start target other.2.workspace other.1
  routed : Routed other.2.workspace.disk start.disk
  together : Together format dryRun start target busy.workspace quiet.workspace one.2.workspace
    other.2.workspace
  characters : ∃ read, one.2.characters = busy.characters + read ∧
    other.2.characters = quiet.characters + read

section
variable {format : Formatter} {dryRun : Bool} {start : Workspace} {target : Target} {busy quiet : Workspace}
  (agrees : Agrees start target busy quiet)
include agrees

theorem Agrees.settings : settings busy.repository = settings quiet.repository :=
  congrArg (fun held : Bool × Repository => held.2) (agrees .settings trivial)

theorem Agrees.poisoned : busy.poisoned = quiet.poisoned :=
  congrArg (fun held : Bool × Repository => held.1) (agrees .settings trivial)

theorem Together.idle : Together format dryRun start target busy quiet busy quiet :=
  ⟨agrees, fun _ _ => rfl, [], rfl, rfl, List.forall_mem_nil _⟩

theorem Together.tried (attempts attempts' : Nat) :
    Together format dryRun start target busy quiet
      { busy with repository := { busy.repository with attempts } }
      { quiet with repository := { quiet.repository with attempts := attempts' } } := by
  refine ⟨?_, ?_, [], rfl, rfl, List.forall_mem_nil _⟩
  · intro cell sees
    rw [view_attempts, view_attempts]
    exact agrees cell sees
  · intro cell _
    rw [view_attempts]

theorem Together.stores (attempts attempts' : Nat) {content : String}
    (pending : Pending format dryRun start target content)
    (settled : WorkspaceCells.settings quiet.repository = WorkspaceCells.settings start.repository) :
    Together format dryRun start target busy quiet
      { busy with repository :=
        { busy.repository.storeObject content.toUTF8 with attempts } }
      { quiet with repository :=
        { quiet.repository.storeObject content.toUTF8 with attempts := attempts' } } := by
  have hash := field_of_settings Repository.hash (fun _ => rfl) settled
  have hash' := field_of_settings Repository.hash (fun _ => rfl) (agrees.settings.trans settled)
  refine ⟨?_, ?_, [(start.repository.hash content.toUTF8, content.toUTF8)], ?_, ?_, ?_⟩
  · intro cell sees
    cases cell with
    | object hash => exact sees.elim
    | _ => exact agrees _ sees
  · intro cell spared
    cases cell with
    | object hash => exact (spared trivial).elim
    | _ => rfl
  · rw [← hash']
    rfl
  · rw [← hash]
    rfl
  · intro item member
    cases List.mem_singleton.mp member
    exact ⟨rfl, content, pending, rfl⟩

theorem Together.updates (attempts attempts' : Nat) {blob : IndexBlob} (own : staged? target = some blob)
    {text : String} (pending : Pending format dryRun start target text) {hash : String}
    (modes : ',' ∉ blob.mode.toList) (commas : ',' ∉ hash.toList) :
    Together format dryRun start target busy quiet
      { busy with repository := { busy.repository.logUpdate blob.mode hash blob.path with attempts } }
      { quiet with repository :=
        { quiet.repository.logUpdate blob.mode hash blob.path with attempts := attempts' } } := by
  have entered (repository : Repository) (index : Index) (path : Path) :
      index.after (repository.logUpdate blob.mode hash blob.path).updates path =
        if path = blob.path then some ⟨blob.mode, hash⟩ else index.after repository.updates path := by
    have logged : (repository.logUpdate blob.mode hash blob.path).updates =
        repository.updates ++ [recorded ⟨blob.mode, hash, blob.path⟩] := rfl
    rw [logged, recorded_plain modes commas, Index.after_append]
    rfl
  refine ⟨?_, ?_, [], rfl, rfl, List.forall_mem_nil _⟩
  · intro cell sees
    cases cell with
    | index path =>
      funext index
      have same := congrFun (agrees (.index path) sees) index
      simp only [view] at same ⊢
      rw [entered, entered, same]
    | _ => exact agrees _ sees
  · intro cell spared
    cases cell with
    | index path =>
      funext index
      simp only [view]
      rw [entered, if_neg fun same => spared ⟨blob, text, own, pending, same⟩]
    | _ => rfl

theorem Together.streams {slot : Nat} (own : target = .stream slot) (held : Stream) :
    Together format dryRun start target busy quiet { busy with streams := busy.streams.set slot held }
      { quiet with streams := quiet.streams.set slot held } := by
  refine ⟨?_, ?_, [], rfl, rfl, List.forall_mem_nil _⟩
  · intro cell sees
    cases cell with
    | stream other =>
      have same := agrees (.stream other) sees
      cases own.symm.trans sees
      simp only [view] at same ⊢
      rw [List.getElem?_set_self', List.getElem?_set_self', same]
    | _ => exact agrees _ sees
  · intro cell spared
    cases cell with
    | stream other =>
      simp only [view]
      rw [List.getElem?_set_ne]
      rintro rfl
      exact spared own
    | _ => rfl

/-- Both change the target's files alike, and nothing else in the tree. -/
theorem Together.disk {home : Location} (at_home : Home start.disk target home) {text : String}
    (pending : Pending format dryRun start target text)
    (room : start.disk.entry? (beside home) ≠ some .directory) {disk disk' : Disk}
    (others : ∀ location, location ≠ home → location ≠ beside home →
      disk.entry? location = busy.disk.entry? location ∧
      disk'.entry? location = quiet.disk.entry? location)
    (stays : AlikeAt disk busy.disk home) (content : EqualAt disk disk' home)
    (temporary : EqualAt disk disk' (beside home)) :
    Together format dryRun start target busy quiet { busy with disk } { quiet with disk := disk' } := by
  refine ⟨?_, ?_, [], rfl, rfl, List.forall_mem_nil _⟩
  · intro cell sees
    have equal (location : Location) (own : location = home ∨ location = beside home) :
        EqualAt disk disk' location := by
      rcases own with rfl | rfl
      · exact content
      · exact temporary
    cases cell with
    | entry location =>
      obtain ⟨other, there, own⟩ := sees
      cases at_home.unique there
      exact equal location own
    | shape location =>
      by_cases own : location = home ∨ location = beside home
      · exact (equal location own).alike
      · obtain ⟨away, apart⟩ := not_or.mp own
        obtain ⟨kept, kept'⟩ := others location away apart
        have same := agrees (.shape location) sees
        simp only [view] at same ⊢
        rw [kept, kept']
        exact same
    | _ => exact agrees _ sees
  · intro cell spared
    cases cell with
    | entry location =>
      obtain ⟨away, apart⟩ := not_or.mp fun own => spared ⟨home, text, at_home, pending, own⟩
      exact congrArg (Option.map plain) (others location away apart).1
    | shape location =>
      by_cases away : location = home
      · rw [away]
        exact stays
      · have apart : location ≠ beside home := by
          rintro rfl
          exact spared ⟨home, text, at_home, pending, rfl, room⟩
        exact congrArg (Option.map shape) (others location away apart).1
    | _ => rfl

theorem Agrees.path_alike {file : WorkingFile} (own : working? target = some file)
    (fresh : quiet.disk = start.disk) :
    ∀ seen, Looks quiet.disk true [] (steps file.path) seen → AlikeAt quiet.disk busy.disk seen := by
  intro seen looks
  rw [fresh] at looks
  exact (agrees (.shape seen) (.inl ⟨file, own, looks⟩)).symm

theorem Agrees.root_alike {blob : IndexBlob} (own : staged? target = some blob)
    (routed : Routed quiet.disk start.disk) :
    ∀ seen, Looks quiet.disk true [] (steps blob.root) seen → AlikeAt quiet.disk busy.disk seen := by
  intro seen looks
  have looked := looks.transfer fun location entry plain => (routed location entry plain).mp
  exact (agrees (.shape seen) (.inr (.inl ⟨blob, own, looked⟩))).symm

theorem Agrees.above_alike {home seen : Location} (at_home : Home start.disk target home)
    (above : seen <+: home) : AlikeAt quiet.disk busy.disk seen :=
  (agrees (.shape seen) (.inr (.inr ⟨home, at_home, .inl above⟩))).symm

theorem Agrees.home_equal {home : Location} (at_home : Home start.disk target home) :
    EqualAt quiet.disk busy.disk home := (agrees (.entry home) ⟨home, at_home, .inl rfl⟩).symm

theorem Agrees.beside_equal {home : Location} (at_home : Home start.disk target home) :
    EqualAt quiet.disk busy.disk (beside home) := (agrees (.entry _) ⟨home, at_home, .inr rfl⟩).symm

theorem Together.left {command : Command} {next next' : Repository}
    (left : Left busy.repository quiet.repository command next next')
    (answered : ∀ attempts attempts', Together format dryRun start target busy quiet
      { busy with repository := { (busy.repository.answer command).2 with attempts } }
      { quiet with repository := { (quiet.repository.answer command).2 with attempts := attempts' } }) :
    Together format dryRun start target busy quiet { busy with repository := next }
      { quiet with repository := next' } := by
  cases left with
  | tried attempts attempts' => exact .tried agrees attempts attempts'
  | answered attempts attempts' => exact answered attempts attempts'

private theorem onStream_together {α : Type} {slot : Nat} (own : target = .stream slot)
    (act : Stream → Except TargetError α × Stream) :
    (Target.onStream busy slot act).1 = (Target.onStream quiet slot act).1 ∧
      Together format dryRun start target busy quiet (Target.onStream busy slot act).2
        (Target.onStream quiet slot act).2 := by
  have same : busy.streams[slot]? = quiet.streams[slot]? := agrees (.stream slot) own
  unfold Target.onStream
  rw [same]
  cases quiet.streams[slot]? with
  | none => exact ⟨rfl, .idle agrees⟩
  | some held => exact ⟨rfl, .streams agrees own _⟩

variable (tame : Tame format dryRun start target)
  (settled : WorkspaceCells.settings quiet.repository = WorkspaceCells.settings start.repository)
include tame settled

theorem Agrees.uniform (first second : Nat) (command : Command) :
    busy.repository.refuses first command = busy.repository.refuses second command := by
  rw [field_of_settings Repository.refuses (fun _ => rfl) (agrees.settings.trans settled)]
  exact tame.uniform first second command

private theorem git_together {root : Path} {command : Command}
    (alike : ∀ seen, Looks quiet.disk true [] (steps root) seen → AlikeAt quiet.disk busy.disk seen)
    (answers : (busy.repository.answer command).1 = (quiet.repository.answer command).1) :
    (busy.git root command).1 = (quiet.git root command).1 ∧
      Left busy.repository quiet.repository command (busy.git root command).2.repository
        (quiet.git root command).2.repository :=
  run_together agrees.settings (agrees.uniform tame settled) answers
    (startFault_together alike command).symm

private theorem gitText_together {root : Path} {command : Command}
    (alike : ∀ seen, Looks quiet.disk true [] (steps root) seen → AlikeAt quiet.disk busy.disk seen)
    (answers : (busy.repository.answer command).1 = (quiet.repository.answer command).1) :
    (busy.gitText root command).1 = (quiet.gitText root command).1 ∧
      Left busy.repository quiet.repository command (busy.gitText root command).2.repository
        (quiet.gitText root command).2.repository := by
  obtain ⟨outcome, left⟩ := git_together agrees tame settled alike answers
  have access := field_of_settings Repository.access (fun _ => rfl) agrees.settings
  refine ⟨?_, left⟩
  simp only [Workspace.git] at outcome
  simp only [Workspace.gitText, Repository.runText, outcome, access]

private theorem readBlob_together {blob : IndexBlob} (own : staged? target = some blob)
    (routed : Routed quiet.disk start.disk)
    (held : busy.repository.objects.lookup blob.hash = quiet.repository.objects.lookup blob.hash) :
    (blob.read busy).1 = (blob.read quiet).1 ∧
      Together format dryRun start target busy quiet (blob.read busy).2 (blob.read quiet).2 := by
  have answers : (busy.repository.answer (.readBlob blob.hash)).1 =
      (quiet.repository.answer (.readBlob blob.hash)).1 := by
    simp only [Repository.answer, Repository.answer.known, held]
  obtain ⟨outcome, left⟩ := git_together agrees tame settled (agrees.root_alike own routed) answers
  unfold IndexBlob.read
  have left : Left busy.repository quiet.repository _ (busy.git blob.root (.readBlob blob.hash)).2.repository
    (quiet.git blob.root (.readBlob blob.hash)).2.repository := left
  have onward : Together format dryRun start target busy quiet (busy.git blob.root (.readBlob blob.hash)).2
    (quiet.git blob.root (.readBlob blob.hash)).2 := .left agrees left (.tried agrees)
  generalize busy.git blob.root (.readBlob blob.hash) = heard at outcome onward ⊢
  generalize quiet.git blob.root (.readBlob blob.hash) = heard' at outcome onward ⊢
  obtain ⟨answer, next⟩ := heard
  obtain ⟨answer', next'⟩ := heard'
  obtain rfl : answer = answer' := outcome
  cases answer with
  | error fault => exact ⟨rfl, onward⟩
  | ok content =>
    dsimp only at onward ⊢
    split <;> exact ⟨rfl, onward⟩

/-- What a worker reads first, it reads in a busy workspace as in the one it started from. -/
theorem read_together (fresh : quiet = start)
    (held : ∀ blob, target = .blob blob →
      busy.repository.objects.lookup blob.hash = quiet.repository.objects.lookup blob.hash) :
    (target.read busy).1 = (target.read quiet).1 ∧
      Together format dryRun start target busy quiet (target.read busy).2 (target.read quiet).2 := by
  have routed : Routed quiet.disk start.disk := fun _ _ _ => by rw [fresh]
  have file (own : WorkingFile) (working : working? target = some own) :
      own.read busy.disk = own.read quiet.disk := by
    have alike := agrees.path_alike working (by rw [fresh])
    refine congrArg (Except.mapError _) (shown_together alike ?_).1.symm
    intro location id mode content found
    refine agrees.home_equal ⟨own, id, mode, content, working, ?_⟩
    rw [← fresh]
    exact found
  cases target with
  | file own => exact ⟨file own rfl, .idle agrees⟩
  | blob blob => exact readBlob_together agrees tame settled rfl routed (held blob rfl)
  | pair blob own => exact ⟨file own rfl, .idle agrees⟩
  | stream slot => exact onStream_together agrees rfl Stream.read

private theorem storing_together {blob : IndexBlob} {content : String} (own : staged? target = some blob)
    (routed : Routed quiet.disk start.disk) (pending : Pending format dryRun start target content) :
    (busy.gitText blob.root (.writeBlob content.toUTF8)).1 =
        (quiet.gitText blob.root (.writeBlob content.toUTF8)).1 ∧
      Together format dryRun start target busy quiet (busy.gitText blob.root (.writeBlob content.toUTF8)).2
        (quiet.gitText blob.root (.writeBlob content.toUTF8)).2 := by
  have hash := field_of_settings Repository.hash (fun _ => rfl) agrees.settings
  have answers : (busy.repository.answer (.writeBlob content.toUTF8)).1 =
      (quiet.repository.answer (.writeBlob content.toUTF8)).1 := by
    simp only [Repository.answer, hash]
  obtain ⟨outcome, left⟩ := gitText_together agrees tame settled (agrees.root_alike own routed) answers
  exact ⟨outcome, .left agrees left fun attempts attempts' =>
    .stores agrees attempts attempts' pending settled⟩

private theorem entering_together {blob : IndexBlob} {hash : String} (own : staged? target = some blob)
    {text : String} (pending : Pending format dryRun start target text)
    (routed : Routed quiet.disk start.disk) (commas : ',' ∉ hash.toList) :
    (busy.updateIndex blob.root blob.mode hash blob.path).1 =
        (quiet.updateIndex blob.root blob.mode hash blob.path).1 ∧
      Together format dryRun start target busy quiet (busy.updateIndex blob.root blob.mode hash blob.path).2
        (quiet.updateIndex blob.root blob.mode hash blob.path).2 := by
  have crashes := field_of_settings Repository.crashes (fun _ => rfl) settled
  have crashes' := field_of_settings Repository.crashes (fun _ => rfl) (agrees.settings.trans settled)
  have calm (attempt : Nat) : quiet.repository.crashes attempt = none :=
    (congrFun crashes attempt).trans (tame.calm attempt)
  have calm' (attempt : Nat) : busy.repository.crashes attempt = none :=
    (congrFun crashes' attempt).trans (tame.calm attempt)
  obtain ⟨outcome, left⟩ := git_together agrees tame settled (agrees.root_alike own routed)
    (show (busy.repository.answer (.updateIndex blob.mode hash blob.path)).1 =
      (quiet.repository.answer (.updateIndex blob.mode hash blob.path)).1 from rfl)
  have update (workspace : Workspace) (calm : ∀ attempt, workspace.repository.crashes attempt = none) :
      workspace.updateIndex blob.root blob.mode hash blob.path =
        if workspace.poisoned then (.error (.failed .indexLockPoisoned), workspace)
        else (((workspace.git blob.root (.updateIndex blob.mode hash blob.path)).1.mapError
            fun error => .failed (.git error)).map fun _ => (),
          (workspace.git blob.root (.updateIndex blob.mode hash blob.path)).2) := by
    unfold Workspace.updateIndex
    simp only [calm]
    split
    · rfl
    · rcases workspace.git blob.root (.updateIndex blob.mode hash blob.path) with ⟨error | answer, next⟩ <;>
        rfl
  rw [update busy calm', update quiet calm, agrees.poisoned, outcome]
  split
  · exact ⟨rfl, .idle agrees⟩
  · exact ⟨rfl, .left agrees left fun attempts attempts' =>
      .updates agrees attempts attempts' own pending (tame.modes blob own) commas⟩

omit agrees in
private theorem storing_commas {blob : IndexBlob} {content hash : String}
    (pending : Pending format dryRun start target content)
    (stored : (quiet.gitText blob.root (.writeBlob content.toUTF8)).1 = .ok hash) : ',' ∉ hash.toList := by
  have same := field_of_settings Repository.hash (fun _ => rfl) settled
  obtain ⟨trimmed, commas⟩ := tame.hashes content pending
  rw [← same] at trimmed commas
  rcases writeBlob_cases quiet blob.root content.toUTF8 trimmed with
    ⟨fault, next, refused, _, _⟩ | ⟨next, answered, _⟩
  · rw [refused] at stored
    cases stored
  · rw [answered] at stored
    cases stored
    exact commas

end

private theorem updateIndex_disk (workspace : Workspace) (root : Path) (mode hash : String) (path : Path) :
    (workspace.updateIndex root mode hash path).2.disk = workspace.disk := by
  unfold Workspace.updateIndex
  split
  · rfl
  · split
    · rfl
    · rcases asked : workspace.git root (.updateIndex mode hash path) with ⟨error | answer, next⟩ <;>
      · have kept : (workspace.git root (.updateIndex mode hash path)).2.disk = workspace.disk := rfl
        rw [asked] at kept
        exact kept

private theorem onStream_disk {α : Type} (workspace : Workspace) (slot : Nat)
    (act : Stream → Except TargetError α × Stream) :
    (Target.onStream workspace slot act).2.disk = workspace.disk := by
  unfold Target.onStream
  split <;> rfl

private theorem prefix_beside {home seen : Location} (above : seen <+: beside home) :
    seen = beside home ∨ seen <+: home := by
  rcases List.prefix_concat_iff.mp above with same | above
  · exact .inl same
  · exact .inr (above.trans (List.dropLast_prefix home))

private theorem grounded_alike {disk other : Disk} {location : Location} (grounded : Grounded disk location)
    (alike : ∀ seen, seen <+: location → AlikeAt disk other seen) : Grounded other location := by
  refine ⟨grounded.proper, fun upper above different => ?_⟩
  have stands := grounded.above upper above different
  exact shape_eq_directory.mp ((alike upper above).symm.trans (by rw [stands]; rfl))

section
variable {format : Formatter} {dryRun : Bool} {start : Workspace} {target : Target} {busy quiet : Shared}
  (agrees : Agrees start target busy.workspace quiet.workspace)
  (routed : Routed quiet.workspace.disk start.disk)

include agrees routed in
private theorem advances_idle {next : Stage} (known : Known format dryRun start target quiet.workspace next) :
    Advances format dryRun start target busy quiet (next, busy) (next, quiet) :=
  ⟨rfl, known, routed, .idle agrees, 0, rfl, rfl⟩

include routed in
private theorem advances_of_outcome {α : Type} (onward : α → Stage) {one other : α × Workspace}
    (outcome : one.1 = other.1)
    (together : Together format dryRun start target busy.workspace quiet.workspace one.2 other.2)
    (kept : other.2.disk = quiet.workspace.disk)
    (known : Known format dryRun start target other.2 (onward other.1)) :
    Advances format dryRun start target busy quiet (onward one.1, busy.withWorkspace one.2)
      (onward other.1, quiet.withWorkspace other.2) :=
  ⟨congrArg onward outcome, known, fun location entry => kept ▸ routed location entry, together, 0, rfl, rfl⟩

section
variable {home : Location} (at_home : Home start.disk target home)

include routed at_home

private theorem quiet_grounded : Grounded quiet.workspace.disk home := by
  refine ⟨at_home.grounded.proper, fun upper above different => ?_⟩
  exact (routed upper .directory rfl).mpr (at_home.grounded.above upper above different)

include agrees in
private theorem busy_grounded : Grounded busy.workspace.disk home :=
  grounded_alike (quiet_grounded routed at_home) fun _ above => agrees.above_alike at_home above

end

section
variable {home : Location} (at_home : Home start.disk target home) {text : String}
  (pending : Pending format dryRun start target text) (tame : Tame format dryRun start target)
  (room : start.disk.entry? (beside home) ≠ some .directory)
include at_home pending tame room

private theorem routed_of_others {disk : Disk}
    (others : ∀ location, location ≠ home → location ≠ beside home →
      disk.entry? location = start.disk.entry? location)
    (file : ∃ id mode content, disk.entry? home = some (.file id mode content))
    (temporary : disk.entry? (beside home) = none ∨
      ∃ id mode content, disk.entry? (beside home) = some (.file id mode content)) :
    Routed disk start.disk := by
  intro location entry unfiled
  by_cases own : location = home
  · obtain ⟨_, _, _, stands⟩ := file
    obtain ⟨_, _, _, stood⟩ := at_home.file
    rw [own, stands, stood]
    constructor <;>
    · intro same
      cases same
      cases unfiled
  · by_cases apart : location = beside home
    · rw [apart]
      constructor
      · intro same
        rcases temporary with vacant | ⟨_, _, _, stands⟩
        · rw [vacant] at same
          cases same
        · rw [stands] at same
          cases same
          cases unfiled
      · intro stood
        cases entry with
        | directory => exact (room stood).elim
        | link target => exact (tame.unlinked home text at_home pending target stood).elim
        | file id mode content => cases unfiled
    · rw [others location own apart]

private theorem routed_of_replaced {disk : Disk} {mode : Nat} {content : ByteArray}
    (replaced : Replaced start.disk (beside home) mode content disk) : Routed disk start.disk := by
  obtain ⟨id, file⟩ := replaced.file
  refine routed_of_others at_home pending tame room (fun location _ apart => replaced.others location apart) ?_
    (.inr ⟨id, mode, content, file⟩)
  obtain ⟨id, kept, held, stands⟩ := at_home.file
  exact ⟨id, kept, held, (replaced.others home (Ne.symm (beside_ne home))).trans stands⟩

omit tame in
include agrees in
private theorem together_of_replaced {disk disk' : Disk} {mode : Nat} {content : ByteArray}
    (one : Replaced busy.workspace.disk (beside home) mode content disk)
    (other : Replaced quiet.workspace.disk (beside home) mode content disk') :
    Together format dryRun start target busy.workspace quiet.workspace { busy.workspace with disk }
      { quiet.workspace with disk := disk' } := by
  have kept := one.others home (Ne.symm (beside_ne home))
  have kept' := other.others home (Ne.symm (beside_ne home))
  refine .disk agrees at_home pending room
    (fun location _ apart => ⟨one.others location apart, other.others location apart⟩) ?_ ?_
    (equalAt_of_files one.file other.file)
  · rw [AlikeAt, kept]
  · rw [EqualAt, kept, kept']
    exact (agrees.home_equal at_home).symm

end

section
variable (tame : Tame format dryRun start target)
include agrees routed

private theorem locating_advances {file : WorkingFile} {content : String}
    (known : Known format dryRun start target quiet.workspace (.locating file content)) :
    Advances format dryRun start target busy quiet (step format dryRun target busy (.locating file content))
      (step format dryRun target quiet (.locating file content)) := by
  obtain ⟨fresh, pending, own, home, at_home⟩ := known
  have same := destination_together (agrees.path_alike own fresh)
  have leads : WorkingFile.destination quiet.workspace.disk file.path = home.path := by
    obtain ⟨file', _, _, _, own', found⟩ := at_home
    cases own.symm.trans own'
    rw [← fresh] at found
    exact destination_of_find found
  simp only [step, ← same, leads]
  exact advances_idle agrees routed ⟨fresh, pending, home, at_home, rfl⟩

private theorem measuring_advances {destination : Path} {content : String}
    (known : Known format dryRun start target quiet.workspace (.measuring destination content)) :
    Advances format dryRun start target busy quiet
      (step format dryRun target busy (.measuring destination content))
      (step format dryRun target quiet (.measuring destination content)) := by
  obtain ⟨fresh, pending, home, at_home, rfl⟩ := known
  have grounded := quiet_grounded routed at_home
  have unlinked : ∀ target, quiet.workspace.disk.entry? home ≠ some (.link target) := by
    obtain ⟨_, _, _, stands⟩ := at_home.file
    rw [fresh, stands]
    exact nofun
  have same := (shown_together
    (fun seen looks => agrees.above_alike at_home (looks_path grounded at_home.nonempty unlinked looks))
    (fun location _ _ _ found => by
      rw [show location = home from location_of_find grounded at_home.nonempty unlinked found]
      exact agrees.home_equal at_home)).2
  simp only [step, ← same]
  exact advances_idle agrees routed ⟨fresh, pending, home, at_home, rfl⟩

include tame

private theorem filling_advances {destination : Path} {mode : Option Nat} {content : String}
    (known : Known format dryRun start target quiet.workspace (.filling destination mode content)) :
    Advances format dryRun start target busy quiet
      (step format dryRun target busy (.filling destination mode content))
      (step format dryRun target quiet (.filling destination mode content)) := by
  obtain ⟨fresh, pending, home, at_home, rfl⟩ := known
  have nonempty := at_home.nonempty
  have unlinked : ∀ target, quiet.workspace.disk.entry? (beside home) ≠ some (.link target) := by
    rw [fresh]
    exact tame.unlinked home content at_home pending
  have equal := agrees.beside_equal at_home
  have alike : ∀ seen, seen <+: beside home → AlikeAt quiet.workspace.disk busy.workspace.disk seen := by
    intro seen above
    rcases prefix_beside above with rfl | above
    · exact equal.alike
    · exact agrees.above_alike at_home above
  simp only [step, temporary_path nonempty (tame.legible home content at_home pending)]
  rcases writeFile_together (Grounded.beside (quiet_grounded routed at_home) nonempty)
    (Grounded.beside (busy_grounded agrees routed at_home) nonempty) (beside_ne_nil home) unlinked alike
    equal content.toUTF8 with ⟨cause, failed, failed'⟩ | ⟨kept, disk', disk, wrote', wrote, fits, room, other, one⟩
  · rw [failed, failed']
    exact advances_idle agrees routed trivial
  · rw [wrote, wrote']
    rw [fresh] at room
    have replaced := fresh ▸ other
    refine ⟨rfl, ?_, routed_of_replaced at_home pending tame room replaced,
      together_of_replaced agrees at_home pending room one other, 0, rfl, rfl⟩
    have filled : Known format dryRun start target { quiet.workspace with disk := disk' }
        (.moving home.path content) :=
      ⟨pending, home, at_home, rfl, fits, room, kept, replaced⟩
    cases mode <;> exact filled

private theorem adjusting_advances {destination : Path} {mode : Nat} {content : String}
    (known : Known format dryRun start target quiet.workspace (.adjusting destination mode content)) :
    Advances format dryRun start target busy quiet
      (step format dryRun target busy (.adjusting destination mode content))
      (step format dryRun target quiet (.adjusting destination mode content)) := by
  obtain ⟨pending, home, at_home, rfl, fits, room, old, replaced⟩ := known
  have nonempty := at_home.nonempty
  obtain ⟨_, file⟩ := replaced.file
  obtain ⟨_, file'⟩ := (agrees.beside_equal at_home).file file
  obtain ⟨disk', adjusted', other⟩ :=
    setMode_replaces (Grounded.beside (quiet_grounded routed at_home) nonempty) fits file mode
  obtain ⟨disk, adjusted, one⟩ :=
    setMode_replaces (Grounded.beside (busy_grounded agrees routed at_home) nonempty) fits file' mode
  have later : Replaced start.disk (beside home) mode content.toUTF8 disk' :=
    ⟨other.file, fun location apart => (other.others location apart).trans (replaced.others location apart)⟩
  simp only [step, temporary_path nonempty (tame.legible home content at_home pending)]
  rw [adjusted, adjusted']
  exact ⟨rfl, ⟨pending, home, at_home, rfl, fits, room, mode, later⟩,
    routed_of_replaced at_home pending tame room later, together_of_replaced agrees at_home pending room one other,
    0, rfl, rfl⟩

private theorem moving_advances {destination : Path} {content : String}
    (known : Known format dryRun start target quiet.workspace (.moving destination content)) :
    Advances format dryRun start target busy quiet
      (step format dryRun target busy (.moving destination content))
      (step format dryRun target quiet (.moving destination content)) := by
  obtain ⟨pending, home, at_home, rfl, fits, room, mode, replaced⟩ := known
  have nonempty := at_home.nonempty
  have apart := beside_ne home
  obtain ⟨_, file⟩ := replaced.file
  obtain ⟨_, file'⟩ := (agrees.beside_equal at_home).file file
  obtain ⟨_, _, _, stood⟩ := at_home.file
  have covered := (replaced.others home (Ne.symm apart)).trans stood
  obtain ⟨_, covered'⟩ := (agrees.home_equal at_home).file covered
  have lands := quiet_grounded routed at_home
  have lands' := busy_grounded agrees routed at_home
  obtain ⟨disk', moved', other⟩ := rename_moves (Grounded.beside lands nonempty) fits file lands
    (Fits.of_beside fits nonempty) apart covered
  obtain ⟨disk, moved, one⟩ := rename_moves (Grounded.beside lands' nonempty) fits file' lands'
    (Fits.of_beside fits nonempty) apart covered'
  simp only [step, temporary_path nonempty (tame.legible home content at_home pending)]
  rw [moved, moved']
  refine ⟨rfl, ?_, ?_, ?_, 0, rfl, rfl⟩
  · cases target with
    | pair blob file => exact ⟨rfl, pending⟩
    | _ => trivial
  · refine routed_of_others at_home pending tame room (fun location away aside => ?_) ?_ (.inl other.vacant)
    · exact (other.others location aside away).trans (replaced.others location aside)
    · obtain ⟨id, stands⟩ := other.file
      exact ⟨id, _, _, stands⟩
  · refine .disk agrees at_home pending room (fun location away aside =>
      ⟨one.others location aside away, other.others location aside away⟩) ?_
      (equalAt_of_files one.file other.file) ?_
    · obtain ⟨_, stands⟩ := one.file
      rw [AlikeAt, stands, covered']
      rfl
    · rw [EqualAt, one.vacant, other.vacant]

variable (settled : WorkspaceCells.settings quiet.workspace.repository =
  WorkspaceCells.settings start.repository)
include settled

private theorem storing_advances {blob : IndexBlob} {content : String}
    (known : Known format dryRun start target quiet.workspace (.storing blob content)) :
    Advances format dryRun start target busy quiet (step format dryRun target busy (.storing blob content))
      (step format dryRun target quiet (.storing blob content)) := by
  obtain ⟨own, pending⟩ := known
  obtain ⟨outcome, together⟩ := storing_together agrees tame settled own routed pending
  have onward : Known format dryRun start target
      (quiet.workspace.gitText blob.root (.writeBlob content.toUTF8)).2
      (stored target blob (quiet.workspace.gitText blob.root (.writeBlob content.toUTF8)).1) := by
    cases answered : (quiet.workspace.gitText blob.root (.writeBlob content.toUTF8)).1 with
    | error error => trivial
    | ok hash => exact ⟨own, storing_commas tame settled pending answered, content, pending⟩
  exact advances_of_outcome routed (stored target blob) outcome together rfl onward

private theorem entering_advances {blob : IndexBlob} {hash : String}
    (known : Known format dryRun start target quiet.workspace (.entering blob hash)) :
    Advances format dryRun start target busy quiet (step format dryRun target busy (.entering blob hash))
      (step format dryRun target quiet (.entering blob hash)) := by
  obtain ⟨own, commas, text, pending⟩ := known
  obtain ⟨outcome, together⟩ := entering_together agrees tame settled own pending routed commas
  exact advances_of_outcome routed (fun answer => .finished (reported target answer)) outcome together
    (updateIndex_disk ..) trivial

private theorem reading_advances (known : Known format dryRun start target quiet.workspace .reading)
    (held : ∀ blob, target = .blob blob →
      busy.workspace.repository.objects.lookup blob.hash =
        quiet.workspace.repository.objects.lookup blob.hash) :
    Advances format dryRun start target busy quiet (step format dryRun target busy .reading)
      (step format dryRun target quiet .reading) := by
  obtain ⟨outcome, together⟩ := read_together agrees tame settled known held
  have kept := (read_untouched quiet.workspace target).disk
  have onward : Known format dryRun start target (target.read quiet.workspace).2
      (opened target (target.read quiet.workspace).1) := by
    cases read : (target.read quiet.workspace).1 with
    | error error => trivial
    | ok content =>
      have fresh : quiet.workspace = start := known
      exact ⟨kept.trans (by rw [fresh]), by rw [← fresh]; exact read⟩
  exact advances_of_outcome routed (opened target) outcome together kept onward

end

private theorem home_of_read {content : String} (read : (target.read start).1 = .ok content) {file : WorkingFile}
    (own : working? target = some file) : ∃ home, Home start.disk target home := by
  have text : (start.disk.readText file.path).mapError (TargetError.io file.path) = .ok content := by
    cases target with
    | file other => cases own; exact read
    | pair blob other => cases own; exact read
    | _ => cases own
  cases held : start.disk.readText file.path with
  | error cause => rw [held] at text; cases text
  | ok found =>
    obtain ⟨home, id, mode, leads⟩ := readText_iff.mp held
    exact ⟨home, file, id, mode, _, own, leads⟩

private theorem decided_known {content : String}
    (known : Known format dryRun start target quiet.workspace (.counting content)) :
    Known format dryRun start target quiet.workspace (decided format dryRun target content) := by
  obtain ⟨fresh, read⟩ := known
  unfold decided
  cases formats : format content with
  | rejected error => trivial
  | crashed message => trivial
  | text formatted =>
    simp only
    split
    · trivial
    · rename_i differs
      split
      · trivial
      · rename_i real
        have pending : Pending format dryRun start target formatted :=
          ⟨Bool.eq_false_iff.mpr real, content, read, formats, differs⟩
        cases target with
        | file file => exact ⟨fresh, pending, rfl, home_of_read read rfl⟩
        | blob blob => exact ⟨rfl, pending⟩
        | pair blob file => exact ⟨fresh, pending, rfl, home_of_read read rfl⟩
        | stream slot => exact ⟨rfl, pending⟩

/-- One step goes the same way in both workspaces, and leaves them in agreement. -/
theorem step_advances (agrees : Agrees start target busy.workspace quiet.workspace)
    (routed : Routed quiet.workspace.disk start.disk) (tame : Tame format dryRun start target)
    (settled : WorkspaceCells.settings quiet.workspace.repository =
      WorkspaceCells.settings start.repository)
    (held : ∀ blob, target = .blob blob →
      busy.workspace.repository.objects.lookup blob.hash =
        quiet.workspace.repository.objects.lookup blob.hash)
    {stage : Stage} (known : Known format dryRun start target quiet.workspace stage) :
    Advances format dryRun start target busy quiet (step format dryRun target busy stage)
      (step format dryRun target quiet stage) := by
  cases stage with
  | reading => exact reading_advances agrees routed tame settled known held
  | counting content =>
    exact ⟨rfl, decided_known known, routed, .idle agrees, content.length, rfl, rfl⟩
  | locating file content => exact locating_advances agrees routed known
  | measuring destination content => exact measuring_advances agrees routed known
  | filling destination mode content => exact filling_advances agrees routed tame known
  | adjusting destination mode content => exact adjusting_advances agrees routed tame known
  | moving destination content => exact moving_advances agrees routed tame known
  | discarding temporary error => exact known.elim
  | storing blob content => exact storing_advances agrees routed tame settled known
  | entering blob hash => exact entering_advances agrees routed tame settled known
  | answering slot content =>
    obtain ⟨own, _⟩ := known
    obtain ⟨outcome, together⟩ := onStream_together agrees own (·.write content)
    exact advances_of_outcome routed (fun answer => .finished (reported target (answer.mapError .failed)))
      outcome together (onStream_disk ..) trivial
  | finished result => exact advances_idle agrees routed trivial

end

end StagedFormat.Proofs.WorkerFootprints
