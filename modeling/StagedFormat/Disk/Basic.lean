import StagedFormat.Path.Basic

/-! A file tree: directories, links and regular files at locations, and how a path is followed to
a location. -/

namespace StagedFormat

/-- Why an operation on files or connections failed. -/
inductive IoError where
  | notFound
  | notDirectory
  | isDirectory
  | alreadyExists
  | tooManyLinks
  | nameTooLong
  | nulInName
  | notText
  | unreachable
  | other (description : String)
  deriving DecidableEq, Repr

def IoError.message : IoError → String
  | .notFound => "No such file or directory (os error 2)"
  | .notDirectory => "Not a directory (os error 20)"
  | .isDirectory => "Is a directory (os error 21)"
  | .alreadyExists => "File exists (os error 17)"
  | .tooManyLinks => "Too many levels of symbolic links (os error 40)"
  | .nameTooLong => "File name too long (os error 36)"
  | .nulInName => "file name contained an unexpected NUL byte"
  | .notText => "stream did not contain valid UTF-8"
  | .unreachable => "Network is unreachable (os error 101)"
  | .other description => description

/-- The identity of a regular file; it stays the same when the file is renamed or written. -/
abbrev FileId := Nat

inductive Entry where
  | directory
  | link (target : Path)
  | file (id : FileId) (mode : Nat) (content : ByteArray)

namespace Entry

def isDirectory : Entry → Bool
  | .directory => true
  | _ => false

def isFile : Entry → Bool
  | .file _ _ _ => true
  | _ => false

end Entry

/-- The names on the way from the top of the tree. -/
abbrev Location := List ByteString

def Location.path (location : Location) : Path := ⟨"/" ++ Path.joined location⟩

/-- The entries below the top, which is a directory itself. Files get ascending identities. -/
structure Disk where
  entries : List (Location × Entry)
  fresh : FileId

namespace Disk

def entry? (disk : Disk) (location : Location) : Option Entry :=
  if location = [] then some .directory else disk.entries.lookup location

/-- One step of following a path. -/
inductive Step where
  | stay
  | up
  | down (name : ByteString)
  deriving DecidableEq, Repr

def Step.ofSegment (segment : ByteString) : Option Step :=
  if segment = "" then none
  else if segment = "." then some .stay
  else if segment = ".." then some .up
  else some (.down segment)

/-- The steps of a path. A slash at the end asks for a directory, as a dot would. -/
def steps (path : Path) : List Step :=
  path.segments.filterMap Step.ofSegment ++
    (if path.written.bytes.getLast? = some Path.slash then [.stay] else [])

/-- Where a path leads; the last name on the way may be vacant. -/
structure Place where
  location : Location
  entry : Option Entry

/-- How many links may be followed on the way. -/
def linkLimit : Nat := 40

/-- The longest name, in bytes. -/
def nameLimit : Nat := 255

/-- The longest path that is followed, in bytes; what links add does not count. -/
def pathLimit : Nat := 4095

/-- Follows steps from a directory. A link on the way, or at the end if `follow`, is left to `chase`
with the directory it is in, its target and the steps after it. -/
def advance (disk : Disk) (follow : Bool)
    (chase : Location → Path → List Step → Except IoError Place) (directory : Location) :
    List Step → Except IoError Place
  | [] => .ok { location := directory, entry := some .directory }
  | .stay :: rest => advance disk follow chase directory rest
  | .up :: rest => advance disk follow chase directory.dropLast rest
  | .down name :: rest =>
    let location := directory ++ [name]
    if nameLimit < name.bytes.length then .error .nameTooLong
    else
      match disk.entry? location with
      | some .directory => advance disk follow chase location rest
      | some (.link target) =>
        if rest.isEmpty && !follow then .ok { location, entry := some (.link target) }
        else chase directory target rest
      | some file => if rest.isEmpty then .ok { location, entry := some file } else .error .notDirectory
      | none => if rest.isEmpty then .ok { location, entry := none } else .error .notFound

/-- Follows steps through at most `links` links. -/
def walk (disk : Disk) (follow : Bool) : (links : Nat) → Location → List Step → Except IoError Place
  | 0 => advance disk follow fun _ _ _ => .error .tooManyLinks
  | links + 1 => advance disk follow fun directory target rest =>
    walk disk follow links (if target.isAbsolute then [] else directory) (steps target ++ rest)

/-- Where a path leads; `follow` says whether a link at its end is followed. -/
def find (disk : Disk) (follow : Bool) (path : Path) : Except IoError Place :=
  if path.written = "" then .error .notFound
  else if path.written.bytes.contains 0 then .error .nulInName
  else if pathLimit < path.written.bytes.length then .error .nameTooLong
  else disk.walk follow linkLimit [] (steps path)

/-- The entry at the end of a path, links followed. -/
def inspect (disk : Disk) (path : Path) : Except IoError Entry := do
  match (← disk.find true path).entry with
  | some entry => return entry
  | none => throw .notFound

def pathExists (disk : Disk) (path : Path) : Bool := (disk.inspect path).isOk

def isFile (disk : Disk) (path : Path) : Bool :=
  match disk.inspect path with
  | .ok entry => entry.isFile
  | .error _ => false

def isDirectory (disk : Disk) (path : Path) : Bool :=
  match disk.inspect path with
  | .ok entry => entry.isDirectory
  | .error _ => false

/-- The same place without links, dots and repeated slashes. -/
def canonicalize (disk : Disk) (path : Path) : Except IoError Path := do
  let place ← disk.find true path
  match place.entry with
  | some _ => return place.location.path
  | none => throw .notFound

def readBytes (disk : Disk) (path : Path) : Except IoError ByteArray := do
  match ← disk.inspect path with
  | .file _ _ content => return content
  | _ => throw .isDirectory

def readText (disk : Disk) (path : Path) : Except IoError String := do
  match String.fromUTF8? (← disk.readBytes path) with
  | some text => return text
  | none => throw .notText

/-- What a directory holds. -/
def children (disk : Disk) (directory : Location) : List (ByteString × Entry) :=
  disk.entries.filterMap fun (location, entry) =>
    match location.getLast? with
    | some name => if location.dropLast = directory then some (name, entry) else none
    | none => none

end Disk

end StagedFormat
