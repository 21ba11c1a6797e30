import StagedFormat.Daemon.Client
import StagedFormat.Daemon.Server

/-! A host on which daemons run: its files and locks, its clock, and the loopback network between
daemons and clients. -/

namespace StagedFormat.Daemon

/-- A program that is no daemon and has a port. -/
structure Stranger where
  /-- What becomes of connecting to it. -/
  dial : Dial := .accepted
  /-- What it sends before it closes, or why that cannot be read. -/
  answer : Except IoError ByteArray := .ok ByteArray.empty

structure Host where
  workspace : Workspace
  held : List FileId := []
  /-- Whether ports of this host can be connected to. -/
  loopback : Bool := true
  /-- The programs at ports that no daemon has. -/
  strangers : UInt16 → Option Stranger := fun _ => none
  now : Nat := 0
  /-- The time of day that daemons note when they start. -/
  timeOfDay : String := ""
  /-- The daemons that run, the newest first. -/
  servers : List (Services × Server) := []
  /-- The daemons that ended, the latest first. -/
  ended : List (UInt16 × Shutdown) := []
  freshPort : UInt16 := 40000

/-- What became of starting a daemon. -/
inductive StartOutcome where
  /-- It listens on this port. -/
  | listening (port : UInt16)
  /-- Another daemon holds the lock. -/
  | alreadyRunning
  /-- A limit was reached at once. -/
  | stopped (reason : Shutdown)
  deriving DecidableEq, Repr

structure Config where
  root : Path
  version : UInt32
  limits : Limits
  services : Services

/-- The version of the protocol that daemons speak here. A daemon gives way to one of a later version. -/
def protocolVersion : UInt32 := 1

/-- The daemon for a repository and its settings; it works at the root. -/
def Config.standard (root : Path) (settings : Settings) : Config :=
  { root
    version := protocolVersion
    limits := Limits.ofSettings settings.daemon
    services := { resolver := { settings, directory := root }, format := spacing } }

/-- How long an older daemon is given to let go of the lock. -/
def handoffWait : Nat := 100

namespace Host

def space (host : Host) : LockSpace := { disk := host.workspace.disk, held := host.held }

def withSpace (host : Host) (space : LockSpace) : Host :=
  { host with workspace := { host.workspace with disk := space.disk }, held := space.held }

def server? (host : Host) (port : UInt16) : Option (Services × Server) :=
  host.servers.find? (·.2.port == port)

/-- Takes in what became of a daemon: it goes on, or it ends and releases its lock. -/
def settle (host : Host) (services : Services) (outcome : Option Shutdown × Server × Workspace) : Host :=
  let (shutdown, server, workspace) := outcome
  let host := { host with workspace }
  match shutdown with
  | none =>
    { host with
      servers := host.servers.map fun other =>
        if other.2.port == server.port then (services, server) else other }
  | some reason =>
    let (_, _, space) := server.lock.release host.space
    { host.withSpace space with
      servers := host.servers.filter (·.2.port != server.port)
      ended := (server.port, reason) :: host.ended }

/-- Lets every daemon do something. -/
def eachServer (host : Host)
    (act : Services → Server → Workspace → Option Shutdown × Server × Workspace) : Host :=
  host.servers.foldl
    (fun host (services, server) => host.settle services (act services server host.workspace)) host

/-- Moves the clock in one jump, then lets everything happen that is due. -/
def advance (host : Host) (duration : Nat) : Host :=
  let host := { host with now := host.now + duration }
  host.eachServer fun services server workspace => server.tick services host.now workspace

/-- The clients of silent connections close them. -/
def hangUp (host : Host) : Host :=
  host.eachServer fun services server workspace => server.hangUp services host.now workspace

/-- Whether a daemon is between two connections. -/
def isFree (server : Server) : Bool := server.waiting.isNone && server.signal.isNone

/-- A connection that sends bytes. A daemon that waits for another connection leaves it in its queue,
and the client gets nothing for now. -/
def deliver (host : Host) (port : UInt16) (bytes : ByteArray) : ByteArray × Host :=
  match host.server? port with
  | none =>
    let sent := (host.strangers port).bind fun stranger => stranger.answer.toOption
    (sent.getD ByteArray.empty, host)
  | some (services, server) =>
    if isFree server then
      let (service, server, workspace) := server.serve services host.now bytes host.workspace
      let shutdown := if service = .shutdown then some .exitCommand else none
      (service.bytes, host.settle services (shutdown, server, workspace))
    else
      let server := { server with queue := server.queue ++ [.sent bytes] }
      (ByteArray.empty, host.settle services (none, server, host.workspace))

/-- A connection that sends nothing. -/
def openSilent (host : Host) (port : UInt16) : Host :=
  match host.server? port with
  | none => host
  | some (services, server) =>
    let queue := server.queue ++ [.silent]
    if isFree server then
      host.settle services (server.serveQueue services host.now queue host.workspace)
    else host.settle services (none, { server with queue }, host.workspace)

def dial (host : Host) (port : UInt16) : Dial :=
  if !host.loopback then .unreachable
  else if (host.server? port).isSome then .accepted
  else ((host.strangers port).map Stranger.dial).getD .refused

/-- Why what is sent from a port cannot be read. Daemons send all that they have to say. -/
def breaks (host : Host) (port : UInt16) : Option IoError :=
  if (host.server? port).isSome then none
  else
    match host.strangers port with
    | some { answer := .error cause, .. } => some cause
    | _ => none

/-- The host as its clients see it. -/
def surroundings : Surroundings Host where
  disk host := host.workspace.disk
  setDisk host disk := { host with workspace := { host.workspace with disk } }
  dial := dial
  exchange := deliver
  breaks := breaks

/-- Asks a running daemon of an older version to exit, and gives it a moment. -/
def displaceOlder (host : Host) (config : Config) : Except DaemonError Unit × Host :=
  match Record.read host.workspace.disk (lockPath config.root) with
  | .error error => (.error error, host)
  | .ok none => (.ok (), host)
  | .ok (some record) =>
    if config.version ≤ record.version then (.ok (), host)
    else
      match Client.stop surroundings config.root host with
      | (.error error, host) => (.error error, host)
      | (.ok _, host) => (.ok (), host.advance handoffWait)

/-- Listens with a lock that was taken: the record is published, and a first check is made. -/
def listen (host : Host) (config : Config) (lock : Lock) : Except DaemonError StartOutcome × Host :=
  let port := host.freshPort
  let host := { host with freshPort := port + 1 }
  match lock.writeRecord { version := config.version, port } host.space with
  | (.error error, space) =>
    let (_, _, space) := lock.release space
    (.error error, host.withSpace space)
  | (.ok (), space) =>
    let host := host.withSpace space
    let server : Server :=
      { version := config.version, port, limits := config.limits, lock, startedAt := host.timeOfDay
        started := host.now, lastCommand := host.now, nextCheck := host.now }
    let host := { host with servers := (config.services, server) :: host.servers }
    let checked := server.check host.now
    let host := host.settle config.services (checked.signal, checked, host.workspace)
    match checked.signal with
    | some reason => (.ok (.stopped reason), host)
    | none => (.ok (.listening port), host)

/-- Starts a daemon; only one that gets the lock listens. -/
def start (host : Host) (config : Config) : Except DaemonError StartOutcome × Host :=
  match host.displaceOlder config with
  | (.error error, host) => (.error error, host)
  | (.ok (), host) =>
    match Lock.acquire (lockPath config.root) host.space with
    | (.error error, space) => (.error error, host.withSpace space)
    | (.ok none, space) => (.ok .alreadyRunning, host.withSpace space)
    | (.ok (some lock), space) => (host.withSpace space).listen config lock

/-- How a daemon ended. -/
def outcome? (host : Host) (port : UInt16) : Option Shutdown := host.ended.lookup port

/-- A number of checks after which a daemon that is left alone has ended. -/
def checksLeft (host : Host) (port : UInt16) : Nat :=
  match host.server? port with
  | some (_, server) => min server.limits.idle server.limits.runtime / server.limits.interval + 2
  | none => 0

/-- Lets time pass until a daemon ends; at most `checks` checks are waited for. -/
def awaitEnd (port : UInt16) : (checks : Nat) → Host → Host
  | 0, host => host
  | checks + 1, host =>
    match host.server? port with
    | none => host
    | some (_, server) => awaitEnd port checks (host.advance (max 1 (server.nextCheck - host.now)))

end Host

end StagedFormat.Daemon
