import StagedFormat.Disk.Update
import StagedFormat.Git.Repository

/-! What targets are read from and written to: files, a repository, and streams. -/

namespace StagedFormat

/-- Where the text of a stream comes from: its bytes, and the failure after them if there is one. -/
structure StreamInput where
  bytes : ByteArray
  failure : Option IoError := none

/-- A stream that is read once and answered once. -/
structure Stream where
  /-- Taken by the first read. -/
  input : Option StreamInput
  /-- The text that was read, kept so that it can be sent on unchanged. -/
  kept : Option String := none
  /-- Whether a write succeeded. -/
  hasWritten : Bool := false
  /-- How often the output was called. -/
  calls : Nat := 0
  /-- What the output accepted, the latest last. -/
  accepted : List String := []
  /-- The failure of a call of the output, by its number. -/
  refuses : Nat → Option IoError := fun _ => none

structure Workspace where
  disk : Disk
  repository : Git.Repository
  /-- Whether a writer crashed while it held the lock of the index. -/
  poisoned : Bool := false
  streams : List Stream := []

inductive TargetError where
  | io (path : Path) (cause : IoError)
  | git (error : Git.GitError)
  | notText (name : String)
  | indexLockPoisoned
  | stream (name : String) (cause : IoError)
  deriving DecidableEq, Repr

def TargetError.message : TargetError → String
  | .io path cause => "I/O error at " ++ path.text ++ ": " ++ cause.message
  | .git error => error.message
  | .notText name => name ++ " is not valid UTF-8"
  | .indexLockPoisoned => "index update lock poisoned"
  | .stream name cause => "failed to write to " ++ name ++ ": " ++ cause.message

/-- Why a write did not end well: it failed, or it crashed with a message. -/
inductive WriteFault where
  | failed (error : TargetError)
  | crashed (message : String)
  deriving DecidableEq, Repr

namespace Workspace

/-- Runs a version-control command in a directory. -/
def git (workspace : Workspace) (directory : Path) (command : Git.Command) :
    Except Git.GitError ByteArray × Workspace :=
  let (answer, repository) := workspace.repository.run workspace.disk directory command
  (answer, { workspace with repository })

def gitText (workspace : Workspace) (directory : Path) (command : Git.Command) :
    Except Git.GitError String × Workspace :=
  let (answer, repository) := workspace.repository.runText workspace.disk directory command
  (answer, { workspace with repository })

end Workspace

end StagedFormat
