import StagedFormat.Git.Command
import StagedFormat.Text.WhiteSpace

/-! Commands that run as processes of their own: how a process ended, and the answer it gave. -/

namespace StagedFormat.Git

inductive Ending where
  | exited (code : Nat)
  | killed (signal : Nat)
  deriving DecidableEq, Repr

def signalNames : List (Nat × String) :=
  [(1, "SIGHUP"), (2, "SIGINT"), (3, "SIGQUIT"), (4, "SIGILL"), (5, "SIGTRAP"), (6, "SIGABRT"),
    (7, "SIGBUS"), (8, "SIGFPE"), (9, "SIGKILL"), (10, "SIGUSR1"), (11, "SIGSEGV"), (12, "SIGUSR2"),
    (13, "SIGPIPE"), (14, "SIGALRM"), (15, "SIGTERM"), (16, "SIGSTKFLT"), (17, "SIGCHLD"),
    (18, "SIGCONT"), (19, "SIGSTOP"), (20, "SIGTSTP"), (21, "SIGTTIN"), (22, "SIGTTOU"),
    (23, "SIGURG"), (24, "SIGXCPU"), (25, "SIGXFSZ"), (26, "SIGVTALRM"), (27, "SIGPROF"),
    (28, "SIGWINCH"), (29, "SIGIO"), (30, "SIGPWR"), (31, "SIGSYS")]

def Ending.description : Ending → String
  | .exited code => "exit status: " ++ toString code
  | .killed signal =>
    "signal: " ++ toString signal ++
      match signalNames.lookup signal with
      | some name => " (" ++ name ++ ")"
      | none => ""

/-- What a process wrote, and how it ended. -/
structure Completion where
  output : ByteArray
  errors : ByteArray
  ending : Ending

/-- The output of a process that ended well. Error text is shown without white space around it. -/
def Command.outputOf (command : Command) : Except IoError Completion → Except GitError ByteArray
  | .error cause => .error (.notStarted command.line cause)
  | .ok completion =>
    if completion.ending = .exited 0 then .ok completion.output
    else
      .error (.failed command.line completion.ending.description
        (Text.decodeLossy completion.errors).trimmed)

/-- The text that a process wrote as an answer: a path ends where its white space at the end starts,
and a hash stands between white space. -/
def Command.tidy : Command → String → String
  | .showToplevel, text => text.trimmedEnd
  | .writeBlob _, text => text.trimmed
  | _, text => text

/-- Output that has to be text. -/
def Command.textOf (command : Command) (output : ByteArray) : Except GitError String :=
  match String.fromUTF8? output with
  | some text => .ok text
  | none => .error (.notText command.line)

/-- Why a command cannot be handed to a process. -/
def Command.startFault (command : Command) : Option IoError :=
  if command.arguments.any (·.toList.contains '\x00') then
    some (.other "nul byte found in provided data")
  else none

end StagedFormat.Git
