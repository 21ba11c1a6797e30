import StagedFormat.Pipeline

/-! A worker that handles one target, step by step. What it reads from the tree, the repository or a
stream, and each change it makes there, is a step of its own; other workers can come in between. Left
alone it does what handling the target as a whole does. -/

namespace StagedFormat.Proofs.WorkerSteps
open StagedFormat Pipeline

/-- What a worker does next, with what it knows by then. -/
inductive Stage where
  | reading
  | counting (content : String)
  | locating (file : WorkingFile) (content : String)
  | measuring (destination : Path) (content : String)
  | filling (destination : Path) (mode : Option Nat) (content : String)
  | adjusting (destination : Path) (mode : Nat) (content : String)
  | moving (destination : Path) (content : String)
  | discarding (temporary : Path) (error : TargetError)
  | storing (blob : IndexBlob) (content : String)
  | entering (blob : IndexBlob) (hash : String)
  | answering (slot : Nat) (content : String)
  | finished (result : Except String Result)

/-- What all workers share: the workspace, and the number of characters read so far. -/
structure Shared where
  workspace : Workspace
  characters : Nat := 0

namespace Shared

def withWorkspace (shared : Shared) (workspace : Workspace) : Shared := { shared with workspace }

def withDisk (shared : Shared) (disk : Disk) : Shared :=
  shared.withWorkspace { shared.workspace with disk }

end Shared

def writing (content : String) : Target → Stage
  | .file file | .pair _ file => .locating file content
  | .blob blob => .storing blob content
  | .stream slot => .answering slot content

def written (target : Target) : Stage := .finished (.ok (.formatted target.name))

def failed (target : Target) (error : TargetError) : Stage := .finished (.ok (ioFailure target.name error))

def reported (target : Target) : Except WriteFault Unit → Except String Result
  | .ok () => .ok (.formatted target.name)
  | .error (.failed error) => .ok (ioFailure target.name error)
  | .error (.crashed message) => .error message

def opened (target : Target) : Except TargetError String → Stage
  | .ok content => .counting content
  | .error error => failed target error

def stored (target : Target) (blob : IndexBlob) : Except Git.GitError String → Stage
  | .ok hash => .entering blob hash
  | .error error => failed target (.git error)

def replaced (content : String) : Target → Stage
  | .pair blob _ => .storing blob content
  | target => written target

def decided (format : Formatter) (dryRun : Bool) (target : Target) (content : String) : Stage :=
  match format content with
  | .rejected error => .finished (.ok (formatFailure target.name error.message .format))
  | .crashed message => .finished (.ok (formatFailure target.name message .crash))
  | .text formatted =>
    if formatted = content then .finished (.ok (.alreadyFormatted target.name))
    else if dryRun then .finished (.ok (.wouldFormat target.name))
    else writing formatted target

def step (format : Formatter) (dryRun : Bool) (target : Target) (shared : Shared) :
    Stage → Stage × Shared
  | .reading =>
    let (answer, next) := target.read shared.workspace
    (opened target answer, shared.withWorkspace next)
  | .counting content =>
    (decided format dryRun target content,
      { shared with characters := shared.characters + content.length })
  | .locating file content =>
    (.measuring (WorkingFile.destination shared.workspace.disk file.path) content, shared)
  | .measuring destination content =>
    (.filling destination (WorkingFile.modeAt shared.workspace.disk destination) content, shared)
  | .filling destination mode content =>
    match shared.workspace.disk.writeFile (WorkingFile.temporary destination) content.toUTF8 with
    | .error cause => (failed target (.io (WorkingFile.temporary destination) cause), shared)
    | .ok disk =>
      (mode.elim (.moving destination content) (.adjusting destination · content), shared.withDisk disk)
  | .adjusting destination mode content =>
    match shared.workspace.disk.setMode (WorkingFile.temporary destination) mode with
    | .error cause =>
      (.discarding (WorkingFile.temporary destination) (.io (WorkingFile.temporary destination) cause),
        shared)
    | .ok disk => (.moving destination content, shared.withDisk disk)
  | .moving destination content =>
    match shared.workspace.disk.rename (WorkingFile.temporary destination) destination with
    | .error cause => (.discarding (WorkingFile.temporary destination) (.io destination cause), shared)
    | .ok disk => (replaced content target, shared.withDisk disk)
  | .discarding temporary error =>
    (failed target error, shared.withDisk (WorkingFile.discard shared.workspace.disk temporary))
  | .storing blob content =>
    let (answer, next) := shared.workspace.gitText blob.root (.writeBlob content.toUTF8)
    (stored target blob answer, shared.withWorkspace next)
  | .entering blob hash =>
    let (answer, next) := shared.workspace.updateIndex blob.root blob.mode hash blob.path
    (.finished (reported target answer), shared.withWorkspace next)
  | .answering slot content =>
    let (answer, next) := Target.onStream shared.workspace slot (·.write content)
    (.finished (reported target (answer.mapError .failed)), shared.withWorkspace next)
  | .finished result => (.finished result, shared)

def Stage.remaining : Stage → Nat
  | .reading => 9
  | .counting _ => 8
  | .locating _ _ => 7
  | .measuring _ _ => 6
  | .filling _ _ _ => 5
  | .adjusting _ _ _ => 4
  | .moving _ _ => 3
  | .storing _ _ => 2
  | .discarding _ _ | .entering _ _ | .answering _ _ => 1
  | .finished _ => 0

def turns : Nat := Stage.reading.remaining

private theorem writing_remaining (content : String) (target : Target) :
    (writing content target).remaining ≤ 7 := by
  cases target <;> simp [writing, Stage.remaining]

private theorem decided_remaining (format : Formatter) (dryRun : Bool) (target : Target) (content : String) :
    (decided format dryRun target content).remaining ≤ 7 := by
  unfold decided
  split
  · exact Nat.zero_le 7
  · exact Nat.zero_le 7
  · split
    · exact Nat.zero_le 7
    · split
      · exact Nat.zero_le 7
      · exact writing_remaining _ target

private theorem replaced_remaining (content : String) (target : Target) :
    (replaced content target).remaining ≤ 2 := by
  cases target <;> simp [replaced, written, Stage.remaining]

private theorem opened_remaining (target : Target) (answer : Except TargetError String) :
    (opened target answer).remaining ≤ 8 := by
  cases answer <;> simp [opened, failed, Stage.remaining]

private theorem stored_remaining (target : Target) (blob : IndexBlob) (answer : Except Git.GitError String) :
    (stored target blob answer).remaining ≤ 1 := by
  cases answer <;> simp [stored, failed, Stage.remaining]

theorem finished_of_remaining {stage : Stage} (none : stage.remaining = 0) :
    ∃ result, stage = .finished result := by
  cases stage <;> first | exact ⟨_, rfl⟩ | cases none

section
variable (format : Formatter) (dryRun : Bool) (target : Target)

theorem step_remaining (shared : Shared) (stage : Stage) :
    (step format dryRun target shared stage).1.remaining ≤ stage.remaining - 1 := by
  cases stage with
  | reading => exact opened_remaining target (target.read shared.workspace).1
  | counting content => exact decided_remaining format dryRun target content
  | locating file content => exact Nat.le_refl 6
  | measuring destination content => exact Nat.le_refl 5
  | filling destination mode content =>
    simp only [step]
    split
    · exact Nat.zero_le _
    · cases mode <;> simp [Stage.remaining]
  | adjusting destination mode content => simp only [step]; split <;> simp [Stage.remaining]
  | moving destination content =>
    simp only [step]
    split
    · exact Nat.le_succ 1
    · exact replaced_remaining content target
  | discarding temporary error => exact Nat.le_refl 0
  | storing blob content =>
    exact stored_remaining target blob (shared.workspace.gitText blob.root (.writeBlob content.toUTF8)).1
  | entering blob hash => exact Nat.le_refl 0
  | answering slot content => exact Nat.le_refl 0
  | finished result => exact Nat.le_refl 0

inductive Ends : Stage → Shared → Except String Result → Shared → Prop where
  | done {result shared} : Ends (.finished result) shared result shared
  | later {stage next : Stage} {shared after last : Shared} {result : Except String Result} :
      step format dryRun target shared stage = (next, after) → Ends next after result last →
      Ends stage shared result last

variable {format dryRun target}

theorem Ends.finished {stage : Stage} {shared after last : Shared} {result final : Except String Result}
    (stepped : step format dryRun target shared stage = (.finished result, after))
    (same : final = result) (stops : last = after) : Ends format dryRun target stage shared final last := by
  subst same stops
  exact .later stepped .done

/-- A finished worker has ended; another one ends as it does after its next step. -/
theorem Ends.next {stage : Stage} {shared last : Shared} {result : Except String Result}
    (ends : Ends format dryRun target stage shared result last) :
    Ends format dryRun target (step format dryRun target shared stage).1
      (step format dryRun target shared stage).2 result last := by
  cases ends with
  | done => exact .done
  | later stepped ends => rwa [stepped]

theorem Ends.stopped {shared last : Shared} {result final : Except String Result}
    (ends : Ends format dryRun target (.finished final) shared result last) :
    result = final ∧ last = shared := by
  generalize stopped : Stage.finished final = stage at ends
  induction ends with
  | done =>
    cases stopped
    exact ⟨rfl, rfl⟩
  | later stepped ends ih =>
    subst stopped
    cases stepped
    exact ih rfl

private theorem ends_storing (shared : Shared) (blob : IndexBlob) (content : String) :
    Ends format dryRun target (.storing blob content) shared
      (reported target (blob.write shared.workspace content).1)
      (shared.withWorkspace (blob.write shared.workspace content).2) := by
  rw [IndexBlob.write, Workspace.stage]
  rcases asked : shared.workspace.gitText blob.root (.writeBlob content.toUTF8) with ⟨answer, next⟩
  have stepped : step format dryRun target shared (.storing blob content) =
      (stored target blob answer, shared.withWorkspace next) := by simp only [step, asked]
  cases answer with
  | error error => exact .later stepped .done
  | ok hash => exact .later stepped (.later rfl .done)

/-- How a worker ends by what came of writing a file: it reports the failure, or it goes on. -/
def EndsBy (format : Formatter) (dryRun : Bool) (target : Target) (content : String) (shared : Shared)
    (stage : Stage) : Except TargetError Unit × Disk → Prop
  | (.error error, disk) =>
    Ends format dryRun target stage shared (.ok (ioFailure target.name error)) (shared.withDisk disk)
  | (.ok (), disk) => ∀ result last,
    Ends format dryRun target (replaced content target) (shared.withDisk disk) result last →
    Ends format dryRun target stage shared result last

theorem EndsBy.later {content : String} {shared after : Shared} {stage next : Stage}
    {outcome : Except TargetError Unit × Disk}
    (stepped : step format dryRun target shared stage = (next, after))
    (kept : ∀ disk, after.withDisk disk = shared.withDisk disk)
    (ends : EndsBy format dryRun target content after next outcome) :
    EndsBy format dryRun target content shared stage outcome := by
  obtain ⟨error | _, disk⟩ := outcome
  · have ends : Ends _ _ _ _ _ _ (after.withDisk disk) := ends
    rw [kept] at ends
    exact Ends.later stepped ends
  · intro result last rest
    rw [← kept] at rest
    exact Ends.later stepped (ends result last rest)

private theorem endsBy_discarding (shared : Shared) (temporary : Path) (error : TargetError) (content : String) :
    EndsBy format dryRun target content shared (.discarding temporary error)
      (.error error, WorkingFile.discard shared.workspace.disk temporary) :=
  .finished rfl rfl rfl

private theorem endsBy_moving (shared : Shared) (destination : Path) (content : String) :
    EndsBy format dryRun target content shared (.moving destination content)
      (WorkingFile.settle shared.workspace.disk none (WorkingFile.temporary destination) destination) := by
  simp only [WorkingFile.settle, Option.elim]
  cases moved : shared.workspace.disk.rename (WorkingFile.temporary destination) destination with
  | error cause =>
    exact .later (by simp only [step, moved]) (fun _ => rfl) (endsBy_discarding ..)
  | ok disk =>
    exact fun result last rest => .later (by simp only [step, moved]) rest

private theorem endsBy_settling (shared : Shared) (destination : Path) (mode : Option Nat) (content : String) :
    EndsBy format dryRun target content shared
      (mode.elim (.moving destination content) (.adjusting destination · content))
      (WorkingFile.settle shared.workspace.disk mode (WorkingFile.temporary destination) destination) := by
  cases mode with
  | none => exact endsBy_moving shared destination content
  | some mode =>
    rw [WorkingFile.settle, Option.elim, Option.elim]
    cases adjusted : shared.workspace.disk.setMode (WorkingFile.temporary destination) mode with
    | error cause =>
      exact .later (by simp only [step, adjusted]) (fun _ => rfl) (endsBy_discarding ..)
    | ok disk =>
      have stepped : step format dryRun target shared (.adjusting destination mode content) =
          (.moving destination content, shared.withDisk disk) := by simp only [step, adjusted]
      exact .later stepped (fun _ => rfl) (endsBy_moving (shared.withDisk disk) destination content)

private theorem endsBy_locating (shared : Shared) (file : WorkingFile) (content : String) :
    EndsBy format dryRun target content shared (.locating file content)
      (file.write shared.workspace.disk content) := by
  refine .later rfl (fun _ => rfl) (.later rfl (fun _ => rfl) ?_)
  simp only [WorkingFile.write]
  generalize WorkingFile.destination shared.workspace.disk file.path = destination
  generalize WorkingFile.modeAt shared.workspace.disk destination = mode
  cases filled : shared.workspace.disk.writeFile (WorkingFile.temporary destination) content.toUTF8 with
  | error cause => exact .finished (by simp only [step, filled]; rfl) rfl rfl
  | ok disk =>
    have stepped : step format dryRun target shared (.filling destination mode content) =
        (mode.elim (.moving destination content) (.adjusting destination · content),
          shared.withDisk disk) := by simp only [step, filled]
    exact .later stepped (fun _ => rfl) (endsBy_settling (shared.withDisk disk) destination mode content)

/-- Writing a target back step by step does what writing it as a whole does. -/
theorem ends_writing (shared : Shared) (content : String) :
    Ends format dryRun target (writing content target) shared
      (reported target (target.write shared.workspace content).1)
      (shared.withWorkspace (target.write shared.workspace content).2) := by
  cases target with
  | file file =>
    have ends : EndsBy format dryRun (.file file) content shared _ _ := endsBy_locating shared file content
    rw [Target.write, Target.writeFile]
    rcases wrote : file.write shared.workspace.disk content with ⟨error | _, disk⟩ <;> rw [wrote] at ends
    · exact ends
    · exact ends _ _ .done
  | blob blob => exact ends_storing shared blob content
  | pair blob file =>
    have ends : EndsBy format dryRun (.pair blob file) content shared _ _ :=
      endsBy_locating shared file content
    rw [Target.write, Target.writeFile]
    rcases wrote : file.write shared.workspace.disk content with ⟨error | _, disk⟩ <;> rw [wrote] at ends
    · exact ends
    · exact ends _ _ (ends_storing (shared.withDisk disk) blob content)
  | stream slot => exact .later rfl .done

private theorem ends_decided (shared : Shared) (content : String) :
    Ends format dryRun target (decided format dryRun target content) shared
      (settle format dryRun shared.workspace target content).1
      (shared.withWorkspace (settle format dryRun shared.workspace target content).2) := by
  unfold decided settle
  cases format content with
  | rejected error => exact .done
  | crashed message => exact .done
  | text formatted =>
    simp only
    split
    · exact .done
    · split
      · exact .done
      · have ends : Ends format dryRun target _ _ _ _ := ends_writing shared formatted
        unfold writeBack
        rcases wrote : target.write shared.workspace formatted with ⟨(error | message) | _, next⟩ <;>
        · rw [wrote] at ends
          exact ends

/-- Left alone, a worker does what handling its target as a whole does. -/
theorem ends_formatTarget (shared : Shared) :
    Ends format dryRun target .reading shared
      (formatTarget format dryRun shared.workspace target).1.result
      { workspace := (formatTarget format dryRun shared.workspace target).2
        characters := shared.characters +
          (formatTarget format dryRun shared.workspace target).1.characters } := by
  unfold formatTarget
  rcases read : target.read shared.workspace with ⟨answer, next⟩
  have stepped : step format dryRun target shared .reading =
      (opened target answer, shared.withWorkspace next) := by simp only [step, read]
  cases answer with
  | error error => exact .later stepped .done
  | ok content =>
    exact .later stepped (.later rfl
      (ends_decided { workspace := next, characters := shared.characters + content.length } content))

end

end StagedFormat.Proofs.WorkerSteps
