import Std.Data.HashMap
import StagedFormat.CommandLine.Run

/-! The program: it reads the files that an invocation can reach into a file tree, runs the invocation on
that tree, writes what changed back, and prints. It starts no processes, so to it version control is
missing, and with it daemons. -/

namespace StagedFormat.Program

open CommandLine

/-- The version control of a machine that has none. -/
def missingRepository (directory : Path) : Git.Repository := { root := directory, access := .missing }

def locate (path : Path) : Location := path.segments.filter (· ≠ ↑"")

/-- The entries that were found so far. -/
abbrev Found := Std.HashMap Location Entry

def diskOf (found : Found) : Disk := { entries := found.toList, fresh := found.size }

/-- Adds what is at a location, and below it if `deep`. Only files that `wanted` names are read with
their content; what cannot be looked at is left out. -/
partial def scan (wanted : Path → Bool) (deep : Bool) (found : Found) (location : Location) : IO Found := do
  let path := (IO.FS.DirEntry.mk "/" (Path.joined location).text).path
  let .ok metadata ← path.symlinkMetadata.toBaseIO | return found
  match metadata.type with
  | .dir =>
    let found := found.insertIfNew location .directory
    let .ok names ← path.readDir.toBaseIO | return found
    names.foldlM (fun found name => do
      if deep || !(← name.path.isDir) then scan wanted deep found (location ++ [ByteString.ofText name.fileName])
      else return found) found
  | .symlink =>
    match ← (IO.FS.realPath path).toBaseIO with
    | .ok target => return found.insertIfNew location (.link ⟨target.toString⟩)
    | .error _ => return found.insertIfNew location (.link location.path)
  | .file =>
    if found.contains location then return found
    let .ok content ← (if wanted location.path then IO.FS.readBinFile path else pure ByteArray.empty).toBaseIO
      | return found
    return found.insert location (.file found.size Disk.plainMode content)
  | .other => return found

/-- Adds what is at a location, all below it, and the files beside the directories on the way. -/
def scanAround (wanted : Path → Bool) (found : Found) (location : Location) : IO Found := do
  let found ← scan wanted true found location
  ((List.range location.length).map location.take).foldlM (scan wanted false) found

/-- Writes to the machine what differs from the entries that were found. -/
def save (found : Found) (disk : Disk) : IO Unit := do
  for (location, entry) in disk.entries do
    match entry, found[location]? with
    | .directory, none => IO.FS.createDirAll location.path.text
    | .file _ _ content, some (.file _ _ old) =>
      if content != old then IO.FS.writeBinFile location.path.text content
    | .file _ _ content, _ => IO.FS.writeBinFile location.path.text content
    | _, _ => pure ()
  let kept := Std.HashMap.ofList disk.entries
  for (location, entry) in found.toList do
    if entry.isFile && !kept.contains location then IO.FS.removeFile location.path.text

partial def readAll (stream : IO.FS.Stream) (read : ByteArray) : IO ByteArray := do
  let more ← stream.read 65536
  if more.isEmpty then return read else readAll stream (read ++ more)

def milliseconds (first last : Nat) : Float := (last - first).toFloat / 1000000

/-- One invocation on this machine. -/
def perform (words : List String) : IO ExitStatus := do
  let first ← IO.monoNanosNow
  let directory : Path := ⟨(← IO.FS.realPath (← IO.currentDir)).toString⟩
  let home := (← IO.getEnv "HOME").map fun home => Path.mk home
  let parsed := Arguments.parse words
  let arguments := parsed.toOption.getD {}
  let input ← if arguments.isStream then readAll (← IO.getStdin) ByteArray.empty else pure ByteArray.empty
  let state := home.map fun home => locate (home.join ⟨stateDirectory⟩)
  let found ← state.toList.foldlM (scanAround fun _ => true) {}
  let settings := (Settings.load (diskOf found) home none).toOption.getD {}
  let places := (directory :: arguments.files.map (directory.join · |>.normalize)).map locate
  let used := if parsed.isOk && !arguments.isStream then places else []
  let found ← used.foldlM (scanAround settings.isSourceFile) found
  let host : Daemon.Host :=
    { workspace := { disk := diskOf found, repository := missingRepository directory }, loopback := false }
  let second ← IO.monoNanosNow
  let (outcome, host) := run
    { words, directory, home, statistics := ← IO.getEnv "STAGEFMT_STATS", input := { bytes := input } } host
  let (ended, host) := outcome.await host
  save found host.workspace.disk
  let third ← IO.monoNanosNow
  IO.print ended.output
  (← IO.getStdout).flush
  IO.eprint (ended.errorText
    { configure := milliseconds first second, format := milliseconds second third, report := 0 })
  return ended.status

end StagedFormat.Program

def main (words : List String) : IO UInt32 := do
  return (← StagedFormat.Program.perform words).code.toUInt32
