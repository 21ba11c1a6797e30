import StagedFormat.Text.WhiteSpace

/-! The commands a daemon understands, and the lines that carry them. -/

namespace StagedFormat.Daemon

inductive Command where
  | exit
  | status
  | preCommit (files : List String)
  | prePush (commit : String) (files : List String)
  /-- A command that is known, with arguments it cannot use. -/
  | invalid (command reason : String)
  | unknown (command : String)
  deriving DecidableEq, Repr

namespace Command

/-- The command of a line; its words are separated by white space. -/
def parse (line : String) : Command :=
  match line.words with
  | [] => .unknown ""
  | "exit" :: _ => .exit
  | "status" :: _ => .status
  | "pre-commit" :: files => .preCommit files
  | "pre-push" :: commit :: files => .prePush commit files
  | ["pre-push"] => .invalid "pre-push" "pre-push requires a commit reference"
  | command :: _ => .unknown command

/-- The line of a command, without its end. -/
def line : Command → String
  | .exit => "exit"
  | .status => "status"
  | .preCommit files => " ".intercalate ("pre-commit" :: files)
  | .prePush commit files => " ".intercalate ("pre-push" :: commit :: files)
  | .invalid command _ => command
  | .unknown command => command

end Command

end StagedFormat.Daemon
