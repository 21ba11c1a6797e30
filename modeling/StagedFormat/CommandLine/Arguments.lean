import StagedFormat.Path.Basic
import StagedFormat.Pipeline
import StagedFormat.Text.Split

/-! The arguments of the command line: how words become flags and files, and which combinations make
sense. -/

namespace StagedFormat.CommandLine

inductive Flag where
  | dryRun
  | failOnChange
  | preCommit
  | prePush
  | statistics
  | useDaemon
  | daemon
  | stopDaemon
  | daemonStatus
  deriving DecidableEq, Repr

namespace Flag

def all : List Flag :=
  [.dryRun, .failOnChange, .preCommit, .prePush, .statistics, .useDaemon, .daemon, .stopDaemon,
    .daemonStatus]

def name : Flag → String
  | .dryRun => "dry-run"
  | .failOnChange => "set-exit-if-changed"
  | .preCommit => "pre-commit"
  | .prePush => "pre-push"
  | .statistics => "print-stats"
  | .useDaemon => "use-daemon"
  | .daemon => "daemon"
  | .stopDaemon => "stop-daemon"
  | .daemonStatus => "daemon-status"

def ofName? (name : String) : Option Flag := all.find? (·.name = name)

theorem ofName?_name (flag : Flag) : ofName? flag.name = some flag := by
  cases flag <;> decide

end Flag

/-- The words of a command line. -/
structure Words where
  list : List ByteString
  deriving DecidableEq, Repr

instance : Coe (List String) Words := ⟨fun texts => ⟨texts.map ByteString.ofText⟩⟩

/-- The option that takes a value: the commit that a push is checked for. -/
def commitOption : String := "push-commit"

/-- Why words are no arguments. -/
inductive UsageError where
  | unknown (word : String)
  | repeated (option : String)
  | missingValue
  | unexpectedValue (option value : String)
  | emptyFile
  | conflict (flag other : Flag)
  | notText
  deriving DecidableEq, Repr

def UsageError.message : UsageError → String
  | .unknown word => "unexpected argument '" ++ word ++ "' found"
  | .repeated option => "the argument '--" ++ option ++ "' cannot be used multiple times"
  | .missingValue => "a value is required for '--push-commit <REF>' but none was supplied"
  | .unexpectedValue option value =>
    "unexpected value '" ++ value ++ "' for '--" ++ option ++ "' found; no more were expected"
  | .emptyFile => "a value is required for '[FILES]...' but none was supplied"
  | .conflict flag other =>
    "the argument '--" ++ flag.name ++ "' cannot be used with '--" ++ other.name ++ "'"
  | .notText => "invalid UTF-8 was detected in one or more arguments"

/-- Why the words are not followed. -/
inductive Stop where
  | version
  | help
  | usage (error : UsageError)
  deriving DecidableEq, Repr

/-- One word before the end of the options. -/
inductive Word where
  | endOfOptions
  | flag (flag : Flag)
  /-- The value is attached, or it is the next word. -/
  | commit (attached : Option ByteString)
  | file (name : ByteString)
  | stop (reason : Stop)
  deriving DecidableEq, Repr

namespace Word

/-- A word that starts with two dashes: the name after them, and the value after `=`. -/
def ofOption (name : String) (value : Option ByteString) : Word :=
  if name = commitOption then .commit value
  else
    match plain, value with
    | none, _ => .stop (.usage (.unknown ("--" ++ name)))
    | some word, none => word
    | some _, some value => .stop (.usage (.unexpectedValue name value.text))
where
  plain : Option Word :=
    if name = "version" then some (.stop .version)
    else if name = "help" then some (.stop .help)
    else (Flag.ofName? name).map .flag

/-- The byte between an option and its value. -/
def equals : UInt8 := 0x3D

/-- A lone dash is a file: it stands for standard input. -/
def ofBytes (word : ByteString) : Word :=
  match word.text.toList with
  | ['-'] => .file word
  | ['-', '-'] => .endOfOptions
  | '-' :: '-' :: _ =>
    let option := word.bytes.drop 2
    match Text.splitOnce equals option with
    | some (name, value) => ofOption (ByteString.text ⟨name⟩) (some ⟨value⟩)
    | none => ofOption (ByteString.text ⟨option⟩) none
  | '-' :: 'V' :: _ => .stop .version
  | '-' :: 'h' :: _ => .stop .help
  | '-' :: _ => .stop (.usage (.unknown word.text))
  | _ => .file word

/-- Whether a word can be the value of an option before it. -/
def isValue (word : ByteString) : Bool := word = "-" || word.text.toList.head? != some '-'

end Word

structure Arguments where
  flags : List Flag := []
  commit : Option String := none
  files : List Path := []
  deriving DecidableEq, Repr

namespace Arguments

def has (arguments : Arguments) (flag : Flag) : Bool := arguments.flags.contains flag

def addFlag (arguments : Arguments) (flag : Flag) : Except Stop Arguments :=
  if arguments.has flag then .error (.usage (.repeated flag.name))
  else .ok { arguments with flags := flag :: arguments.flags }

def setCommit (arguments : Arguments) (commit : ByteString) : Except Stop Arguments :=
  if arguments.commit.isSome then .error (.usage (.repeated commitOption))
  else
    match commit.text? with
    | some commit => .ok { arguments with commit := some commit }
    | none => .error (.usage .notText)

def addFile (arguments : Arguments) (name : ByteString) : Except Stop Arguments :=
  if name = "" then .error (.usage .emptyFile)
  else .ok { arguments with files := arguments.files ++ [⟨name⟩] }

/-- Takes in words from left to right. The first one that is no argument, or that asks for help or the
version, ends this. -/
def read (arguments : Arguments) : List ByteString → Except Stop Arguments
  | [] => .ok arguments
  | word :: rest =>
    match Word.ofBytes word with
    | .endOfOptions => rest.foldlM addFile arguments
    | .flag flag => do read (← arguments.addFlag flag) rest
    | .commit (some value) => do read (← arguments.setCommit value) rest
    | .commit none =>
      match rest with
      | [] => .error (.usage .missingValue)
      | value :: rest =>
        if Word.isValue value then do read (← arguments.setCommit value) rest
        else .error (.usage .missingValue)
    | .file name => do read (← arguments.addFile name) rest
    | .stop reason => .error reason

/-- The flags that exclude each other. -/
def conflicts : List (Flag × Flag) :=
  [(.daemon, .stopDaemon), (.daemon, .daemonStatus), (.stopDaemon, .daemonStatus)]

def parse (words : Words) : Except Stop Arguments := do
  let arguments ← read {} words.list
  match conflicts.find? fun (flag, other) => arguments.has flag && arguments.has other with
  | some (flag, other) => throw (.usage (.conflict flag other))
  | none => return arguments

/-- Whether the daemon itself is meant. -/
def concernsDaemon (arguments : Arguments) : Bool :=
  arguments.has .daemon || arguments.has .stopDaemon || arguments.has .daemonStatus

/-- Whether standard input is formatted. -/
def isStream (arguments : Arguments) : Bool := arguments.files = [⟨"-"⟩]

def mode (arguments : Arguments) : Mode :=
  if arguments.has .preCommit then .preCommit
  else if arguments.has .prePush then .prePush (arguments.commit.getD "HEAD")
  else .workingDirectory

/-- Whether a change is told by the exit status. -/
def failsOnChange (arguments : Arguments) : Bool :=
  arguments.has .failOnChange || arguments.has .prePush

/-- What is wrong with arguments for formatting. -/
def objection (arguments : Arguments) : Option String :=
  let hook := arguments.has .preCommit || arguments.has .prePush
  if arguments.has .preCommit && arguments.has .prePush then
    some "--pre-commit and --pre-push cannot be combined"
  else if arguments.has .prePush && !arguments.has .dryRun then
    some "--pre-push only checks committed files; add --dry-run"
  else if arguments.isStream && hook then
    some "stdin cannot be combined with --pre-commit or --pre-push"
  else if arguments.files.isEmpty && !hook then
    some "no files given; pass paths, \x60-\x60 for stdin, or a hook mode"
  else none

end Arguments

/-- The values of a variable that switch statistics off. -/
def offWords : List String := ["", "n", "no", "f", "false", "off", "0"]

/-- Whether the value of the variable for statistics asks for them. -/
def asksForStatistics (value : String) : Bool := !offWords.contains value.toLower

end StagedFormat.CommandLine
