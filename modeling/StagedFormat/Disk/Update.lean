import StagedFormat.Disk.Basic

/-! Operations that change a file tree. Each is one step: it happens as a whole, or it fails and
nothing changes. -/

namespace StagedFormat.Disk

/-- The entry at a location is replaced, or added. -/
def set (disk : Disk) (location : Location) (entry : Entry) : Disk :=
  { disk with entries := (location, entry) :: disk.entries.filter (·.1 ≠ location) }

def erase (disk : Disk) (location : Location) : Disk :=
  { disk with entries := disk.entries.filter (·.1 ≠ location) }

/-- The mode of files that are created. -/
def plainMode : Nat := 0o644

/-- A new file at a location. -/
def create (disk : Disk) (location : Location) (content : ByteArray) : Disk :=
  { disk.set location (.file disk.fresh plainMode content) with fresh := disk.fresh + 1 }

/-- Whether a path ends in a slash, so that no file can be created by it. -/
def endsInSlash (path : Path) : Bool := path.written.bytes.getLast? == some Path.slash

/-- The path without slashes at its end. -/
def withoutEndSlash (path : Path) : Path :=
  ⟨⟨(path.written.bytes.reverse.dropWhile (· == Path.slash)).reverse⟩⟩

/-- Finds the place of a file that may still have to be created. -/
def findForCreation (disk : Disk) (path : Path) : Except IoError Place :=
  if endsInSlash path then do
    -- The directories above are looked up first.
    let _ ← disk.find true (withoutEndSlash path)
    throw .isDirectory
  else disk.find true path

/-- Writes a whole file; one that exists keeps its identity and its mode. -/
def writeFile (disk : Disk) (path : Path) (content : ByteArray) : Except IoError Disk := do
  let place ← disk.findForCreation path
  match place.entry with
  | some (.file id mode _) => return disk.set place.location (.file id mode content)
  | some _ => throw .isDirectory
  | none => return disk.create place.location content

/-- The identity of the file at a path; it is created empty if it is missing. -/
def openOrCreate (disk : Disk) (path : Path) : Except IoError (FileId × Disk) := do
  let place ← disk.findForCreation path
  match place.entry with
  | some (.file id _ _) => return (id, disk)
  | some _ => throw .isDirectory
  | none => return (disk.fresh, disk.create place.location ByteArray.empty)

/-- Changes the content of an open file; once the file was removed, nobody sees it. -/
def changeOpened (disk : Disk) (id : FileId) (change : ByteArray → ByteArray) : Disk :=
  { disk with entries := disk.entries.map fun (location, entry) =>
      match entry with
      | .file other mode old => (location, .file other mode (if other = id then change old else old))
      | entry => (location, entry) }

/-- Replaces the content of an open file. -/
def writeOpened (disk : Disk) (id : FileId) (content : ByteArray) : Disk :=
  disk.changeOpened id fun _ => content

/-- A content that is cut off at a length, or filled up to it with zero bytes. -/
def resized (content : ByteArray) (length : Nat) : ByteArray :=
  content.extract 0 length ++ ⟨Array.replicate (length - content.size) 0⟩

/-- A content with bytes put over what it holds from a position on; the rest of it stays. -/
def overwritten (content : ByteArray) (position : Nat) (bytes : ByteArray) : ByteArray :=
  resized content position ++ bytes ++ content.extract (position + bytes.size) content.size

/-- Sets the length of an open file. -/
def resizeOpened (disk : Disk) (id : FileId) (length : Nat) : Disk :=
  disk.changeOpened id (resized · length)

/-- Writes bytes to an open file from a position on. -/
def overwriteOpened (disk : Disk) (id : FileId) (position : Nat) (bytes : ByteArray) : Disk :=
  disk.changeOpened id (overwritten · position bytes)

def setMode (disk : Disk) (path : Path) (mode : Nat) : Except IoError Disk := do
  let place ← disk.find true path
  match place.entry with
  | some (.file id _ content) => return disk.set place.location (.file id mode content)
  | some _ => return disk
  | none => throw .notFound

/-- Removes a file or a link. -/
def removeFile (disk : Disk) (path : Path) : Except IoError Disk := do
  let place ← disk.find false path
  match place.entry with
  | some .directory => throw .isDirectory
  | some _ => return disk.erase place.location
  | none => throw .notFound

/-- Moves a file or a link; what was at the new place before, a directory excepted, is replaced. -/
def rename (disk : Disk) (source destination : Path) : Except IoError Disk := do
  let origin ← disk.find false source
  let place ← disk.find false destination
  match origin.entry, place.entry with
  | none, _ => throw .notFound
  | some .directory, _ => throw .alreadyExists
  | some _, some .directory => throw .isDirectory
  | some moved, _ =>
    if endsInSlash destination then throw .notDirectory
    else return (disk.erase origin.location).set place.location moved

def makeDirectory (disk : Disk) (path : Path) : Except IoError Disk := do
  let place ← disk.find false (withoutEndSlash path)
  match place.entry with
  | some _ => throw .alreadyExists
  | none => return disk.set place.location .directory

/-- Makes a directory after those above it. A directory that is there already is no error. -/
def makeDirectories (disk : Disk) (path : Path) : Except IoError Disk :=
  build path.components.length path
where
  settle (disk : Disk) (path : Path) : Except IoError Disk :=
    match disk.makeDirectory path with
    | .ok made => .ok made
    | .error fault => if disk.isDirectory path then .ok disk else .error fault
  build : Nat → Path → Except IoError Disk
    | steps, path =>
      if path.written = "" then .ok disk
      else
        match disk.makeDirectory path, steps, path.parent? with
        | .error .notFound, steps + 1, some above => do settle (← build steps above) path
        | _, _, _ => settle disk path

def makeLink (disk : Disk) (path target : Path) : Except IoError Disk := do
  let place ← disk.find false path
  match place.entry with
  | some _ => throw .alreadyExists
  | none => return disk.set place.location (.link target)

/-- Removes what a path names, and all below it. -/
def removeAll (disk : Disk) (path : Path) : Disk :=
  match disk.find false path with
  | .ok place =>
    { disk with entries := disk.entries.filter fun (location, _) => !place.location.isPrefixOf location }
  | .error _ => disk

end StagedFormat.Disk
