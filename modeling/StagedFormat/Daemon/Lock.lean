import StagedFormat.Daemon.Record
import StagedFormat.Disk.Update

/-! The lock that lets one daemon run at a time. A lock belongs to a file, not to a path: it excludes
others only as long as the path leads to that file. -/

namespace StagedFormat.Daemon

/-- A file tree and the files in it that are locked. -/
structure LockSpace where
  disk : Disk
  held : List FileId

/-- A lock as its owner knows it; once it is released, it has no file. -/
structure Lock where
  path : Path
  file : Option FileId
  deriving DecidableEq, Repr

/-- How often the file is opened anew when it was replaced meanwhile. -/
def attemptLimit : Nat := 3

namespace Lock

/-- Where an attempt to take the lock stands. -/
inductive Attempt where
  | opening (left : Nat)
  | locking (file : FileId) (left : Nat)
  | checking (file : FileId) (left : Nat)
  /-- The file that was locked is not at the path any more. -/
  | stale (file : FileId) (left : Nat)
  | acquired (file : FileId)
  | refused
  | failed (cause : IoError)
  deriving DecidableEq, Repr

/-- Whether a path leads to a file. -/
def isLinked (disk : Disk) (path : Path) (file : FileId) : Bool :=
  match disk.inspect path with
  | .ok (.file id _ _) => id == file
  | _ => false

/-- One step of an attempt: the file is opened, then locked, then looked up again. If it was replaced
meanwhile, it is unlocked before the next one is opened. -/
def Attempt.step (path : Path) : Attempt → LockSpace → Attempt × LockSpace
  | .opening 0, space => (.refused, space)
  | .opening (left + 1), space =>
    match space.disk.openOrCreate path with
    | .ok (file, disk) => (.locking file left, { space with disk })
    | .error cause => (.failed cause, space)
  | .locking file left, space =>
    if space.held.contains file then (.refused, space)
    else (.checking file left, { space with held := file :: space.held })
  | .checking file left, space =>
    if isLinked space.disk path file then (.acquired file, space) else (.stale file left, space)
  | .stale file left, space => (.opening left, { space with held := space.held.erase file })
  | done, space => (done, space)

def Attempt.run (path : Path) : (steps : Nat) → Attempt → LockSpace → Attempt × LockSpace
  | 0, attempt, space => (attempt, space)
  | steps + 1, attempt, space =>
    let (attempt, space) := attempt.step path space
    run path steps attempt space

/-- Tries to take the lock at a path; `none` says that another one holds it. -/
def acquire (path : Path) (space : LockSpace) : Except DaemonError (Option Lock) × LockSpace :=
  let above := (path.parent?).getD ⟨""⟩
  match space.disk.makeDirectories above with
  | .error cause => (.error (.io above.text cause), space)
  | .ok disk =>
    match Attempt.run path (4 * attemptLimit + 1) (.opening attemptLimit) { space with disk } with
    | (.acquired file, space) => (.ok (some { path, file := some file }), space)
    | (.failed cause, space) => (.error (.io path.text cause), space)
    | (_, space) => (.ok none, space)

/-- Replaces the content of the locked file by a record: the file is emptied, then written from its start. -/
def writeRecord (lock : Lock) (record : Record) (space : LockSpace) :
    Except DaemonError Unit × LockSpace :=
  match lock.file with
  | none => (.error (.protocol ("lock on " ++ lock.path.text ++ " already released")), space)
  | some file =>
    let emptied := space.disk.resizeOpened file 0
    (.ok (), { space with disk := emptied.overwriteOpened file 0 record.text.toUTF8 })

/-- Removes the file at the path of a lock; that it is gone already is no error. -/
def unlink (path : Path) (disk : Disk) : Except DaemonError Unit × Disk :=
  match disk.removeFile path with
  | .ok removed => (.ok (), removed)
  | .error .notFound => (.ok (), disk)
  | .error cause => (.error (.io path.text cause), disk)

/-- Removes the lock file, then unlocks it. A lock that was released stays so. -/
def release (lock : Lock) (space : LockSpace) : Except DaemonError Unit × Lock × LockSpace :=
  match lock.file with
  | none => (.ok (), lock, space)
  | some file =>
    let (removed, disk) := unlink lock.path space.disk
    (removed, { lock with file := none }, { disk, held := space.held.erase file })

end Lock

end StagedFormat.Daemon
