import StagedFormat.Daemon.Error
import StagedFormat.Text.Number
import StagedFormat.Text.Quoted
import StagedFormat.Text.WhiteSpace

/-! The record in a daemon's lock file: the version it speaks and the port it listens on. -/

namespace StagedFormat.Daemon

structure Record where
  version : UInt32
  port : UInt16
  deriving DecidableEq, Repr

namespace Record

def text (record : Record) : String := toString record.version.toNat ++ " " ++ toString record.port.toNat

def readField (field : String) (limit : Nat) (word : String) : Except String Nat :=
  match Text.readNat limit word.toList with
  | .ok value => .ok value
  | .error fault => .error ("bad " ++ field ++ " " ++ word.quoted ++ ": " ++ fault.message)

/-- Two numbers separated by white space. -/
def parse (text : String) : Except String Record :=
  match text.words with
  | [version, port] => do
    let version ← readField "version" (UInt32.size - 1) version
    let port ← readField "port" (UInt16.size - 1) port
    return { version := version.toUInt32, port := port.toUInt16 }
  | _ => .error ("expected \"<version> <port>\", got " ++ text.quoted)

/-- The record in a lock file. A file that is missing, or holds no record yet, has none. -/
def read (disk : Disk) (path : Path) : Except DaemonError (Option Record) :=
  match disk.readText path with
  | .ok text => .ok (parse text).toOption
  | .error .notFound => .ok none
  | .error cause => .error (.io path.text cause)

end Record

end StagedFormat.Daemon
