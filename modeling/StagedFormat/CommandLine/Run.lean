import StagedFormat.CommandLine.Failure
import StagedFormat.CommandLine.Help
import StagedFormat.Daemon.Host

/-! One invocation of the command line: it formats by itself, or through a daemon, or it starts, stops
or asks a daemon. -/

namespace StagedFormat.CommandLine

/-- What an invocation is given. -/
structure Invocation where
  words : Words
  /-- The directory that it works in, without links. -/
  directory : Path
  home : Option Path := none
  /-- The value of the variable that asks for statistics. -/
  statistics : Option String := none
  input : StreamInput := { bytes := ByteArray.empty }

/-- What an invocation printed, and its exit status. -/
structure Ended where
  status : ExitStatus := .success
  output : String := ""
  errors : String := ""
  /-- The counts of the statistics, which are printed last. -/
  counts : Option Counts := none
  deriving DecidableEq, Repr

inductive Outcome where
  | ended (result : Ended)
  /-- It goes on as a daemon that listens on a port. -/
  | serving (port : UInt16)
  deriving DecidableEq, Repr

namespace Ended

def ofLine (line : String) : Ended := { output := line ++ "\n" }

/-- An invocation that ends with an error message. -/
def rejected (status : ExitStatus) (message : String) : Ended :=
  { status, errors := "error: " ++ message ++ "\n" }

def ofStop : Stop → Ended
  | .version => { output := versionLine }
  | .help => { output := helpText }
  | .usage error => { status := .badArguments, errors := usageText error }

/-- The end of a daemon that served. -/
def ofShutdown (reason : Daemon.Shutdown) : Ended :=
  ofLine <| "daemon stopped: " ++
    match reason with
    | .exitCommand => "exit requested"
    | .idleTimeout => "idle timeout"
    | .maxRuntime => "maximum runtime reached"

/-- All that was printed on standard error. -/
def errorText (ended : Ended) (times : Times) : String :=
  match ended.counts with
  | some counts => ended.errors ++ statisticsText times counts ++ "\n"
  | none => ended.errors

end Ended

/-- The lines of a report as they are printed. -/
def reportText (report : String) : String :=
  Report.ofLines ((Text.lines report.toList).map String.ofList)

/-- A part of an invocation: it works on the host, and a failure ends all of it. -/
abbrev Session := ExceptT Failure (StateM Daemon.Host)

/-- Does something that may fail. -/
def attempt (explain : ε → Failure) (act : Daemon.Host → Except ε α × Daemon.Host) : Session α := do
  match ← modifyGet act with
  | .ok value => return value
  | .error error => throw (explain error)

/-- Does something with the workspace of the host. -/
def onWorkspace (act : Workspace → α × Workspace) (host : Daemon.Host) : α × Daemon.Host :=
  let (answer, workspace) := act host.workspace
  (answer, { host with workspace })

/-- The root of the repository around a directory. -/
def toplevel (directory : Path) : Daemon.Host → Except Git.GitError Path × Daemon.Host :=
  onWorkspace fun workspace =>
    let (answer, next) := workspace.gitText directory .showToplevel
    (answer.map fun root => ⟨root⟩, next)

def repositoryRoot (directory : Path) : Session Path :=
  attempt (fun error => ⟨directory.text ++ " is not inside a git repository", error.trace⟩)
    (toplevel directory)

def loadSettings (home root : Option Path) : Session Settings :=
  attempt (fun error => ⟨"failed to load settings", error.trace⟩)
    fun host => (Settings.load host.workspace.disk home root, host)

/-! Formatting -/

/-- The same work as a command for a daemon, with absolute paths. Only hooks are sent to daemons. -/
def daemonCommand (mode : Mode) (files : List Path) : Option Daemon.Command :=
  match mode with
  | .workingDirectory => none
  | .preCommit => some (.preCommit (files.map Path.text))
  | .prePush commit => some (.prePush commit (files.map Path.text))

/-- Lets a running daemon do the work. If none runs, there is no result. -/
def delegate (root : Path) (command : Daemon.Command) : Session (Option Ended) := do
  match ← modifyGet (Daemon.Client.send Daemon.Host.surroundings root command) with
  | .ok reply =>
    return some { status := reply.status.getD .failure, output := reportText reply.body }
  | .error (.notRunning _) => return none
  | .error error => throw ⟨"daemon request failed", error.trace⟩

def formattingFailure (fault : PipelineFault) : Failure := ⟨"formatting failed", fault.trace⟩

/-- Formats the targets of a mode and prints the report. -/
def formatFiles (resolver : Resolver) (arguments : Arguments) : Session Ended := do
  let request : Request :=
    { mode := arguments.mode
      files := arguments.files
      dryRun := arguments.has .dryRun
      collectCounts := arguments.has .statistics }
  let report ← attempt formattingFailure <| onWorkspace fun workspace =>
    let (report, _, next) := Pipeline.run spacing resolver workspace request
    (report, next)
  return {
    status := report.exitStatus arguments.failsOnChange
    output := reportText report.output
    counts := report.counts }

/-- Formats standard input to standard output. The report is only printed for a dry run, or as an error
message. -/
def formatStream (input : StreamInput) (arguments : Arguments) : Session Ended := do
  let scope : Scope := { targets := [.stream 0], dryRun := arguments.has .dryRun }
  let report ← attempt formattingFailure <| onWorkspace fun workspace =>
    let opened := { workspace with streams := [{ input := some input }] }
    let (report, _, next) := Pipeline.runScope spacing opened scope false (arguments.has .statistics)
    (report, next)
  let ended : Ended :=
    { status := report.exitStatus arguments.failsOnChange, counts := report.counts }
  if scope.dryRun then return { ended with output := reportText report.output }
  else
    attempt (fun error => ⟨"failed to write stdout", error.trace⟩) <| onWorkspace fun workspace =>
      Target.replay workspace (.stream 0)
    let written := (← get).workspace.streams.flatMap Stream.accepted
    return { ended with
      output := String.join written
      errors := if report.hasFailure then report.output else "" }

def format (invocation : Invocation) (arguments : Arguments) : Session Ended := do
  let mode := arguments.mode
  let root ←
    if mode = .workingDirectory then
      Except.toOption <$> modifyGet (toplevel invocation.directory)
    else some <$> repositoryRoot invocation.directory
  let settings ← loadSettings invocation.home root
  let disk := (← get).workspace.disk
  let files := arguments.files.map (absolutize disk invocation.directory)
  let delegated ←
    match arguments.has .useDaemon, root, daemonCommand mode files with
    | true, some root, some command => delegate root command
    | _, _, _ => pure none
  match delegated with
  | some ended => return ended
  | none =>
    if arguments.isStream then formatStream invocation.input arguments
    else formatFiles { settings, directory := invocation.directory } arguments

/-! Daemons -/

/-- Starts the daemon of a repository. -/
def serve (home : Option Path) (root : Path) : Session Outcome := do
  let settings ← loadSettings home (some root)
  let started ← attempt (fun error => ⟨"daemon exited with error", Daemon.DaemonError.trace error⟩)
    (·.start (Daemon.Config.standard root settings))
  match started with
  | .listening port => return .serving port
  | .alreadyRunning => return .ended (.ofLine "daemon is already running")
  | .stopped reason => return .ended (.ofShutdown reason)

def stopDaemon (root : Path) : Session Ended := do
  let answer ← attempt (fun error => ⟨"failed to stop daemon", Daemon.DaemonError.trace error⟩)
    (Daemon.Client.stop Daemon.Host.surroundings root)
  match answer with
  | .notRunning => return .ofLine "daemon is not running"
  | .stopped => return .ofLine "daemon stop requested"
  | .staleLockRemoved => return .ofLine "daemon was not answering; removed stale lock file"

def daemonStatus (root : Path) : Session Ended := do
  match ← modifyGet (Daemon.Client.status Daemon.Host.surroundings root) with
  | .ok status => return .ofLine status
  | .error (.notRunning _) => return .ofLine "daemon is not running"
  | .error error => throw ⟨"failed to query daemon status", error.trace⟩

def manageDaemon (invocation : Invocation) (arguments : Arguments) : Session Outcome := do
  let root ← repositoryRoot invocation.directory
  if arguments.has .daemon then serve invocation.home root
  else if arguments.has .stopDaemon then .ended <$> stopDaemon root
  else .ended <$> daemonStatus root

/-! Invocations -/

/-- Follows arguments that were understood. -/
def follow (invocation : Invocation) (arguments : Arguments) : Session Outcome :=
  if arguments.concernsDaemon then manageDaemon invocation arguments
  else
    match arguments.objection with
    | some message => return .ended (.rejected .badArguments message)
    | none => .ended <$> format invocation arguments

/-- Statistics are asked for by the flag or by the variable. -/
def withVariable (arguments : Arguments) (statistics : Option String) : Arguments :=
  if arguments.has .statistics || !statistics.any asksForStatistics then arguments
  else { arguments with flags := .statistics :: arguments.flags }

def run (invocation : Invocation) (host : Daemon.Host) : Outcome × Daemon.Host :=
  match Arguments.parse invocation.words with
  | .error stop => (.ended (.ofStop stop), host)
  | .ok arguments =>
    match (follow invocation (withVariable arguments invocation.statistics)).run.run host with
    | (.ok outcome, host) => (outcome, host)
    | (.error failure, host) => (.ended (.rejected .failure failure.message), host)

/-- Waits until an invocation ended; a daemon serves until then. -/
def Outcome.await (outcome : Outcome) (host : Daemon.Host) : Ended × Daemon.Host :=
  match outcome with
  | .ended result => (result, host)
  | .serving port =>
    let host := host.awaitEnd port (host.checksLeft port)
    (((host.outcome? port).map Ended.ofShutdown).getD {}, host)

end StagedFormat.CommandLine
