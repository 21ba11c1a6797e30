import StagedFormat.Target.Workspace

/-! Files of the working tree as targets. -/

namespace StagedFormat

structure WorkingFile where
  path : Path
  /-- The directory that the file's name is relative to. -/
  root : Option Path := none
  deriving DecidableEq, Repr

namespace WorkingFile

def same (a b : WorkingFile) : Bool :=
  a.path.same b.path &&
    match a.root, b.root with
    | none, none => true
    | some a, some b => a.same b
    | _, _ => false

def name (file : WorkingFile) : String :=
  ((file.root.bind file.path.relativeTo?).getD file.path).text

def read (disk : Disk) (file : WorkingFile) : Except TargetError String :=
  (disk.readText file.path).mapError (.io file.path)

/-- Where the content of a file is: at the end of its links, or at its path if they lead nowhere. -/
def destination (disk : Disk) (path : Path) : Path :=
  match disk.canonicalize path with
  | .ok place => place
  | .error _ => path

/-- The file beside the destination that new content is written to first. -/
def temporary (destination : Path) : Path := ⟨destination.text ++ ".stagefmt.tmp"⟩

/-- The mode of what is at a path, if something is. -/
def modeAt (disk : Disk) (path : Path) : Option Nat :=
  match disk.inspect path with
  | .ok (.file _ mode _) => some mode
  | .ok _ => some 0o755
  | .error _ => none

/-- The tree without a temporary file that could not be used. -/
def discard (disk : Disk) (temporary : Path) : Disk :=
  match disk.removeFile temporary with
  | .ok cleaned => cleaned
  | .error _ => disk

/-- Gives the temporary file its mode and puts it in the place of the destination. -/
def settle (disk : Disk) (mode : Option Nat) (temporary destination : Path) :
    Except TargetError Unit × Disk :=
  match mode.elim (.ok disk) (disk.setMode temporary) with
  | .error cause => (.error (.io temporary cause), discard disk temporary)
  | .ok prepared =>
    match prepared.rename temporary destination with
    | .error cause => (.error (.io destination cause), discard prepared temporary)
    | .ok done => (.ok (), done)

/-- Replaces the content through a temporary file. The mode is kept, and links stay links. -/
def write (disk : Disk) (file : WorkingFile) (content : String) : Except TargetError Unit × Disk :=
  let target := destination disk file.path
  let beside := temporary target
  let mode := modeAt disk target
  match disk.writeFile beside content.toUTF8 with
  | .error cause => (.error (.io beside cause), disk)
  | .ok written => settle written mode beside target

end WorkingFile

end StagedFormat
