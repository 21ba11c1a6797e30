import StagedFormat.Disk.Basic
import StagedFormat.Text.Utf8

/-! The version-control commands that are used, and what a finished process says about them. -/

namespace StagedFormat.Git

inductive Command where
  /-- Where the top of the working tree is. -/
  | showToplevel
  | status
  | listTree (commit : String)
  | readBlob (hash : String)
  /-- Stores a new object; the answer is its hash. -/
  | writeBlob (content : ByteArray)
  /-- Makes the index entry of a path refer to an object. -/
  | updateIndex (mode hash : String) (path : Path)

namespace Command

/-- The first argument, which names the command. -/
def name : Command → String
  | .showToplevel => "rev-parse"
  | .status => "status"
  | .listTree _ => "ls-tree"
  | .readBlob _ => "cat-file"
  | .writeBlob _ => "hash-object"
  | .updateIndex _ _ _ => "update-index"

def arguments : Command → List String
  | .showToplevel => ["rev-parse", "--show-toplevel"]
  | .status => ["status", "--porcelain=v2", "-z", "--untracked-files=no"]
  | .listTree commit => ["ls-tree", "-r", "-z", commit]
  | .readBlob hash => ["cat-file", "blob", hash]
  | .writeBlob _ => ["hash-object", "-w", "--stdin"]
  | .updateIndex mode hash path => ["update-index", "--cacheinfo", mode ++ "," ++ hash ++ "," ++ path.text]

/-- What the process gets to read. -/
def input : Command → ByteArray
  | .writeBlob content => content
  | _ => ByteArray.empty

/-- The arguments as messages show them. -/
def line (command : Command) : String := " ".intercalate command.arguments

end Command

inductive GitError where
  | notStarted (command : String) (cause : IoError)
  | failed (command status errors : String)
  | notText (command : String)
  deriving DecidableEq, Repr

def GitError.message : GitError → String
  | .notStarted command cause => "failed to run git " ++ command ++ ": " ++ cause.message
  | .failed command status errors => "git " ++ command ++ " failed with " ++ status ++ ": " ++ errors
  | .notText command => "git " ++ command ++ " produced output that is not valid UTF-8"

end StagedFormat.Git
