import StagedFormat.Daemon.Command
import StagedFormat.Daemon.Lock
import StagedFormat.Daemon.Reply

/-! A daemon at work: it serves connections one after the other, and a supervisor ends it when it was
idle, or has run, for too long. Times are in milliseconds. -/

namespace StagedFormat.Daemon

/-- Why a daemon ended. -/
inductive Shutdown where
  | exitCommand
  | idleTimeout
  | maxRuntime
  deriving DecidableEq, Repr

structure Limits where
  idle : Nat
  runtime : Nat
  /-- The time between two checks of the supervisor. -/
  interval : Nat
  deriving DecidableEq, Repr

namespace Limits

def ofSettings (settings : DaemonLimits) : Limits :=
  { idle := 1000 * settings.idleTimeout
    runtime := 1000 * settings.maxRuntime
    interval := 1000 * settings.checkInterval }

/-- Whether a limit is reached; being idle counts first. -/
def expiry (limits : Limits) (idle runtime : Nat) : Option Shutdown :=
  if limits.idle ≤ idle then some .idleTimeout
  else if limits.runtime ≤ runtime then some .maxRuntime
  else none

end Limits

/-- How long a connection may stay silent. -/
def readTimeout : Nat := 10000

/-- How late a check may be so that the next one keeps its time. -/
def tolerance : Nat := 5

/-- What every command of a daemon uses. -/
structure Services where
  resolver : Resolver
  format : Formatter

inductive Connection where
  /-- The client sends nothing. -/
  | silent
  /-- The client sent these bytes and no more. -/
  | sent (bytes : ByteArray)

def Connection.isSilent : Connection → Bool
  | .silent => true
  | .sent _ => false

structure Server where
  version : UInt32
  port : UInt16
  limits : Limits
  lock : Lock
  /-- The time of day when it started. -/
  startedAt : String
  started : Nat
  lastCommand : Nat
  nextCheck : Nat
  /-- Why the supervisor wants the daemon to end. -/
  signal : Option Shutdown := none
  /-- Until when a silent connection is waited for. -/
  waiting : Option Nat := none
  queue : List Connection := []
  /-- How many commands ran the pipeline. -/
  tasks : Nat := 0

/-- What a connection gets. -/
inductive Service where
  | reply (reply : Reply)
  /-- The connection is closed without a reply. -/
  | nothing
  | shutdown
  deriving DecidableEq, Repr

def Service.bytes : Service → ByteArray
  | .reply answer => answer.wire.toUTF8
  | _ => ByteArray.empty

namespace Server

def statusText (server : Server) (now : Nat) : String :=
  let idle := (now - server.lastCommand) / 1000
  let runtime := (now - server.started) / 1000
  "Daemon Status:\n" ++
  "Started at: " ++ server.startedAt ++ "\n" ++
  "Idle time: " ++ toString idle ++ "s\n" ++
  "Total runtime: " ++ toString runtime ++ "s\n" ++
  "Time until idle timeout: " ++ toString (server.limits.idle / 1000 - idle) ++ "s\n" ++
  "Time until max runtime timeout: " ++ toString (server.limits.runtime / 1000 - runtime) ++ "s"

/-- The reply to a command that runs the pipeline. -/
def replyOf (failOnChange : Bool) (task : Nat) : Except PipelineFault Report → Reply
  | .ok report => .of (report.exitStatus failOnChange) report.output
  | .error (.crashed message) =>
    .of .failure (DaemonError.protocol
      ("pipeline join error: task " ++ toString task ++ " panicked with message " ++ message.quoted)).message
  | .error fault => .of .failure (DaemonError.pipeline fault).message

/-- Runs the pipeline. Only a run that comes to an end resets the idle time. -/
def runPipeline (services : Services) (now : Nat) (request : Request) (failOnChange : Bool)
    (server : Server) (workspace : Workspace) : Service × Server × Workspace :=
  let (outcome, _, workspace) := Pipeline.run services.format services.resolver workspace request
  let server := { server with tasks := server.tasks + 1 }
  let server := if outcome.isOk then { server with lastCommand := now } else server
  (.reply (replyOf failOnChange server.tasks outcome), server, workspace)

def hookRequest (mode : Mode) (files : List String) (dryRun : Bool) : Request :=
  { mode, files := files.map fun (file : String) => ⟨file⟩, dryRun, collectCounts := false }

def obey (services : Services) (now : Nat) (server : Server) (workspace : Workspace) :
    Command → Service × Server × Workspace
  | .exit => (.shutdown, server, workspace)
  | .status =>
    (.reply (.of .success (server.statusText now)), { server with lastCommand := now }, workspace)
  | .preCommit files => runPipeline services now (hookRequest .preCommit files false) false server workspace
  | .prePush commit files =>
    runPipeline services now (hookRequest (.prePush commit) files true) true server workspace
  | .invalid _ reason => (.reply (.of .badArguments reason), server, workspace)
  | .unknown command => (.reply (.of .failure ("Unknown command: " ++ command)), server, workspace)

/-- The bytes up to the first line end, which is kept. -/
def firstLine (bytes : ByteArray) : ByteArray :=
  let line := bytes.data.toList.takeWhile (· != 10)
  if line.length < bytes.size then (line ++ [10]).toByteArray else line.toByteArray

/-- Serves the bytes of a connection: its first line is the command. No line, or one that is no text,
gets no reply. -/
def serve (services : Services) (now : Nat) (bytes : ByteArray) (server : Server)
    (workspace : Workspace) : Service × Server × Workspace :=
  match String.fromUTF8? (firstLine bytes) with
  | none | some "" => (.nothing, server, workspace)
  | some line => obey services now server workspace (Command.parse line)

/-- Serves what waits, until the daemon ends or has to wait for a silent connection. -/
def serveQueue (services : Services) (now : Nat) (queue : List Connection) (server : Server)
    (workspace : Workspace) : Option Shutdown × Server × Workspace :=
  match server.signal, queue with
  | some reason, _ => (some reason, server, workspace)
  | none, [] => (none, { server with queue := [] }, workspace)
  | none, .silent :: rest =>
    (none, { server with waiting := some (now + readTimeout), queue := rest }, workspace)
  | none, .sent bytes :: rest =>
    match serve services now bytes server workspace with
    | (.shutdown, server, workspace) => (some .exitCommand, server, workspace)
    | (_, server, workspace) => serveQueue services now rest server workspace

/-- Goes on serving after the connection that was waited for is done. -/
def resume (services : Services) (now : Nat) (server : Server) (workspace : Workspace) :
    Option Shutdown × Server × Workspace :=
  serveQueue services now server.queue { server with waiting := none } workspace

/-- The check that is due, if one is. A signal is given once, and without an interval there are no
checks. -/
def check (now : Nat) (server : Server) : Server :=
  if server.signal.isSome || now < server.nextCheck || server.limits.interval = 0 then server
  else
    { server with
      signal := server.limits.expiry (now - server.lastCommand) (now - server.started)
      nextCheck :=
        if now ≤ server.nextCheck + tolerance then server.nextCheck + server.limits.interval
        else now + server.limits.interval }

/-- Whether the silent connection has had its time. -/
def waitedEnough (now : Nat) (server : Server) : Bool := server.waiting.any (· ≤ now)

/-- Lets everything happen that is due: of the check and the end of a wait, the earlier comes first. -/
def tick (services : Services) (now : Nat) (server : Server) (workspace : Workspace) :
    Option Shutdown × Server × Workspace :=
  if server.waitedEnough now && server.waiting.any (· < server.nextCheck) then
    match resume services now server workspace with
    | (none, server, workspace) =>
      let server := server.check now
      if server.waiting.isNone then (server.signal, server, workspace) else (none, server, workspace)
    | ended => ended
  else
    let server := server.check now
    if server.waiting.isNone then (server.signal, server, workspace)
    else if server.waitedEnough now then resume services now server workspace
    else (none, server, workspace)

/-- The silent connections are closed by their clients. -/
def hangUp (services : Services) (now : Nat) (server : Server) (workspace : Workspace) :
    Option Shutdown × Server × Workspace :=
  resume services now { server with queue := server.queue.filter (!·.isSilent) } workspace

end Server

end StagedFormat.Daemon
