import StagedFormat.CommandLine.Arguments

/-! What is printed about the command line itself. -/

namespace StagedFormat.CommandLine

def programName : String := "stagefmt"

def versionLine : String := programName ++ " 0.1.11\n"

def usageLine : String := "Usage: " ++ programName ++ " [OPTIONS] [FILES]...\n"

def usageText (error : UsageError) : String :=
  "error: " ++ error.message ++ "\n\n" ++ usageLine ++ "\nFor more information, try '--help'.\n"

/-- The options, with what they are for. -/
def options : List (String × String) := [
  ("    --dry-run", "Report what would change without writing anything"),
  ("    --set-exit-if-changed", "Exit with status 3 when any file changed or would change"),
  ("    --pre-commit", "Format staged files, updating the index (and clean working copies)"),
  ("    --pre-push", "Check the files of a commit; requires \x60--dry-run\x60"),
  ("    --push-commit <REF>", "Commit checked by \x60--pre-push\x60 [default: HEAD]"),
  ("    --print-stats", "Print timing and volume statistics to stderr [env: STAGEFMT_STATS=]"),
  ("    --use-daemon", "Send \x60--pre-commit\x60/\x60--pre-push\x60 to a running daemon, " ++
    "formatting in-process when none answers"),
  ("    --daemon", "Run the formatting daemon for this repository in the foreground"),
  ("    --stop-daemon", "Ask the repository's daemon to exit"),
  ("    --daemon-status", "Print the repository daemon's status"),
  ("-h, --help", "Print help"),
  ("-V, --version", "Print version")]

def optionLine (left right : String) : String :=
  "  " ++ left ++ String.ofList (List.replicate (27 - left.length) ' ') ++ right ++ "\n"

def helpText : String :=
  "Format source files in the working tree, the git index or a commit\n\n" ++ usageLine ++
  "\nArguments:\n" ++
  "  [FILES]...  Files or directories to format; a lone \x60-\x60 formats stdin to stdout\n" ++
  "\nOptions:\n" ++ String.join (options.map fun (left, right) => optionLine left right)

end StagedFormat.CommandLine
