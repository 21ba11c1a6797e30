import StagedFormat.Target.Staging
import StagedFormat.Target.Stream
import StagedFormat.Target.WorkingFile

/-! Targets: units of content that can be read, formatted and written back. -/

namespace StagedFormat

inductive Target where
  | file (file : WorkingFile)
  | blob (blob : IndexBlob)
  /-- A staged blob and the working file that holds the same content. -/
  | pair (blob : IndexBlob) (file : WorkingFile)
  /-- One of the workspace's streams. -/
  | stream (slot : Nat)
  deriving DecidableEq, Repr

namespace Target

/-- The name in reports. -/
def name : Target → String
  | .file working | .pair _ working => working.name
  | .blob staged => staged.name
  | .stream _ => streamName

/-- Whether writing updates the index. -/
def touchesIndex : Target → Bool
  | .blob _ | .pair _ _ => true
  | _ => false

/-- Whether writing updates a file of the working tree. -/
def touchesWorkingTree : Target → Bool
  | .file _ | .pair _ _ => true
  | _ => false

/-- Whether two targets are known to be the same; streams never are. -/
def same : Target → Target → Bool
  | .file a, .file b => a.same b
  | .blob a, .blob b => a.same b
  | .pair a f, .pair b g => a.same b && f.same g
  | _, _ => false

/-- Does something with one stream of the workspace. -/
def onStream (workspace : Workspace) (slot : Nat) (act : Stream → Except TargetError α × Stream) :
    Except TargetError α × Workspace :=
  match workspace.streams[slot]? with
  | none => (.error (.io ⟨streamName⟩ .notFound), workspace)
  | some held =>
    let (result, next) := act held
    (result, { workspace with streams := workspace.streams.set slot next })

def read (workspace : Workspace) : Target → Except TargetError String × Workspace
  | .file working | .pair _ working => (working.read workspace.disk, workspace)
  | .blob staged => staged.read workspace
  | .stream slot => onStream workspace slot Stream.read

def writeFile (workspace : Workspace) (working : WorkingFile) (content : String) :
    Except WriteFault Unit × Workspace :=
  let (result, disk) := working.write workspace.disk content
  (result.mapError .failed, { workspace with disk })

/-- Writes content back. For a pair the file comes first; if that fails, the index stays as it is. -/
def write (workspace : Workspace) (content : String) : Target → Except WriteFault Unit × Workspace
  | .file working => writeFile workspace working content
  | .blob staged => staged.write workspace content
  | .pair staged working =>
    match writeFile workspace working content with
    | (.error fault, next) => (.error fault, next)
    | (.ok (), next) => staged.write next content
  | .stream slot =>
    let (result, next) := onStream workspace slot (·.write content)
    (result.mapError .failed, next)

/-- Sends the text of a stream on if nothing was written; other targets are left alone. -/
def replay (workspace : Workspace) : Target → Except TargetError Unit × Workspace
  | .stream slot => onStream workspace slot Stream.replay
  | _ => (.ok (), workspace)

end Target

end StagedFormat
