import StagedFormat.Git.Process
import StagedFormat.Text.Split

/-! A repository: its listings, its objects, and the updates made to its index. -/

namespace StagedFormat.Git

structure IndexUpdate where
  mode : String
  hash : String
  path : Path
  deriving DecidableEq, Repr

/-- How commands reach the repository. -/
inductive Access where
  /-- Messages and answers come back as they are. -/
  | direct
  /-- A process is started in the directory of the command. -/
  | process
  /-- There is no program to start. -/
  | missing
  deriving DecidableEq, Repr

/-- The FNV-1a hash of 64 bits. -/
def fnv1a (content : ByteArray) : UInt64 :=
  content.data.toList.foldl (fun hash byte => (hash ^^^ byte.toUInt64) * 0x100000001b3) 0xcbf29ce484222325

def hexHash (content : ByteArray) : String :=
  let digits := Nat.toDigits 16 (fnv1a content).toNat
  String.ofList (List.replicate (16 - digits.length) '0' ++ digits)

structure Repository where
  root : Path
  access : Access := .direct
  status : ByteArray := ByteArray.empty
  trees : List (String × ByteArray) := []
  /-- The newest object of a hash comes first. -/
  objects : List (String × ByteArray) := []
  hash : ByteArray → String := hexHash
  /-- The updates of the index, the latest last. -/
  updates : List IndexUpdate := []
  /-- How many commands were run. -/
  attempts : Nat := 0
  /-- The message of a command that is refused, by its number. -/
  refuses : Nat → Command → Option String := fun _ _ => none
  /-- The message of an update of the index that crashes, by its number. -/
  crashes : Nat → Option String := fun _ => none

namespace Repository

def storeObject (repository : Repository) (content : ByteArray) : Repository :=
  { repository with objects := (repository.hash content, content) :: repository.objects }

/-- The byte between the parts of an update. -/
def comma : UInt8 := 0x2C

/-- What stands after `--cacheinfo`; it is divided at its first two commas. -/
def updateOf (argument : ByteString) : IndexUpdate :=
  match Text.splitInto comma 3 argument.bytes with
  | [mode, hash, path] => { mode := ByteString.text ⟨mode⟩, hash := ByteString.text ⟨hash⟩, path := ⟨⟨path⟩⟩ }
  | _ => { mode := argument.text, hash := "", path := ⟨""⟩ }

def logUpdate (repository : Repository) (mode hash : String) (path : Path) : Repository :=
  { repository with
    updates := repository.updates ++ [updateOf (ByteString.ofText (mode ++ "," ++ hash ++ ",") ++ path.written)] }

/-- What the repository answers, or its error text, if it does not refuse the command. -/
def answer (repository : Repository) : Command → Except String ByteArray × Repository
  | .showToplevel => (.ok repository.root.written.packed, repository)
  | .status => (.ok repository.status, repository)
  | .listTree commit => (known repository.trees commit, repository)
  | .readBlob hash => (known repository.objects hash, repository)
  | .writeBlob content => (.ok (repository.hash content).toUTF8, repository.storeObject content)
  | .updateIndex mode hash path => (.ok ByteArray.empty, repository.logUpdate mode hash path)
where
  known (all : List (String × ByteArray)) (name : String) : Except String ByteArray :=
    match all.lookup name with
    | some content => .ok content
    | none => .error ("fatal: Not a valid object name " ++ name)

/-- One command, with its number used up. -/
def attempt (repository : Repository) (command : Command) : Except String ByteArray × Repository :=
  let next := { repository with attempts := repository.attempts + 1 }
  match repository.refuses repository.attempts command with
  | some message => (.error message, next)
  | none => next.answer command

def failureStatus : Ending := .exited 128

/-- Why a process could not be started for a command. -/
def startFault (disk : Disk) (directory : Path) (command : Command) : Option IoError :=
  match command.startFault, disk.inspect directory with
  | some fault, _ => some fault
  | none, .error fault => some fault
  | none, .ok .directory => none
  | none, .ok _ => some .notDirectory

/-- Runs a command in a directory. -/
def run (repository : Repository) (disk : Disk) (directory : Path) (command : Command) :
    Except GitError ByteArray × Repository :=
  match repository.access with
  | .direct =>
    let (answer, next) := repository.attempt command
    (answer.mapError (.failed command.line failureStatus.description), next)
  | .process =>
    match startFault disk directory command with
    | some cause => (.error (.notStarted command.line cause), repository)
    | none =>
      let (answer, next) := repository.attempt command
      let completion : Completion :=
        match answer with
        | .ok output => { output, errors := ByteArray.empty, ending := .exited 0 }
        | .error errors => { output := ByteArray.empty, errors := errors.toUTF8, ending := failureStatus }
      (command.outputOf (.ok completion), next)
  | .missing => (command.outputOf (.error .notFound), repository)

/-- Runs a command whose answer is text. -/
def runText (repository : Repository) (disk : Disk) (directory : Path) (command : Command) :
    Except GitError String × Repository :=
  let (answer, next) := repository.run disk directory command
  let text := answer.bind command.textOf
  (if repository.access = .process then text.map command.tidy else text, next)

end Repository

end StagedFormat.Git
