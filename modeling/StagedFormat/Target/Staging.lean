import StagedFormat.Target.Workspace

/-! Staged content as targets: objects of the repository that index entries refer to. -/

namespace StagedFormat

/-- Content at a path relative to the repository's root. -/
structure IndexBlob where
  root : Path
  path : Path
  mode : String
  hash : String
  deriving DecidableEq, Repr

namespace Workspace

/-- Makes an index entry refer to an object. This is done by one writer at a time; after a crash of
one, it is done by none. -/
def updateIndex (workspace : Workspace) (root : Path) (mode hash : String) (path : Path) :
    Except WriteFault Unit × Workspace :=
  if workspace.poisoned then (.error (.failed .indexLockPoisoned), workspace)
  else
    match workspace.repository.crashes workspace.repository.attempts with
    | some message =>
      (.error (.crashed message),
        { workspace with
          poisoned := true
          repository.attempts := workspace.repository.attempts + 1 })
    | none =>
      match workspace.git root (.updateIndex mode hash path) with
      | (.ok _, next) => (.ok (), next)
      | (.error error, next) => (.error (.failed (.git error)), next)

/-- Stores content and makes the index entry of a path refer to it. -/
def stage (workspace : Workspace) (root path : Path) (mode content : String) :
    Except WriteFault Unit × Workspace :=
  match workspace.gitText root (.writeBlob content.toUTF8) with
  | (.error error, next) => (.error (.failed (.git error)), next)
  | (.ok hash, next) => next.updateIndex root mode hash path

end Workspace

namespace IndexBlob

/-- Blobs are the same if their paths are. -/
def same (a b : IndexBlob) : Bool := a.path.same b.path

def name (blob : IndexBlob) : String := blob.path.text

def description (blob : IndexBlob) : String :=
  "Blob at " ++ blob.path.text ++ " (" ++ blob.mode ++ " " ++ blob.hash ++ ")"

def read (workspace : Workspace) (blob : IndexBlob) : Except TargetError String × Workspace :=
  match workspace.git blob.root (.readBlob blob.hash) with
  | (.error error, next) => (.error (.git error), next)
  | (.ok content, next) =>
    match String.fromUTF8? content with
    | some text => (.ok text, next)
    | none => (.error (.notText blob.name), next)

def write (workspace : Workspace) (blob : IndexBlob) (content : String) :
    Except WriteFault Unit × Workspace :=
  workspace.stage blob.root blob.path blob.mode content

end IndexBlob

end StagedFormat
