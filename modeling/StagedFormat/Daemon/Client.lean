import StagedFormat.Daemon.Command
import StagedFormat.Daemon.Lock
import StagedFormat.Daemon.Reply
import StagedFormat.Settings.Load

/-! Clients of a daemon: they find its port in the lock file, send one line, and read the reply. -/

namespace StagedFormat.Daemon

/-- The lock file of the daemon for a repository. -/
def lockPath (root : Path) : Path := (root.join ⟨stateDirectory⟩).join ⟨"daemon.lock"⟩

/-- What becomes of connecting to a port. -/
inductive Dial where
  | accepted
  | refused
  | reset
  | timedOut
  | unreachable
  deriving DecidableEq, Repr

/-- The surroundings of a client: a file tree, and peers that listen on ports. -/
structure Surroundings (σ : Type) where
  disk : σ → Disk
  setDisk : σ → Disk → σ
  dial : σ → UInt16 → Dial
  /-- Sends bytes to a peer that accepted, and gives back what it sends until it closes. -/
  exchange : σ → UInt16 → ByteArray → ByteArray × σ
  /-- Why what a peer sends cannot be read. -/
  breaks : σ → UInt16 → Option IoError := fun _ _ => none

inductive StopOutcome where
  | notRunning
  | stopped
  /-- Nobody could be asked; the lock file was removed. -/
  | staleLockRemoved
  deriving DecidableEq, Repr

namespace Client

variable {σ : Type}

/-- Connects to the daemon of a repository. -/
def connect (around : Surroundings σ) (state : σ) (root : Path) : Except DaemonError UInt16 := do
  match ← Record.read (around.disk state) (lockPath root) with
  | none => throw (.notRunning (lockPath root))
  | some record =>
    match around.dial state record.port with
    | .accepted => return record.port
    | .refused | .reset | .timedOut => throw (.notRunning (lockPath root))
    | .unreachable => throw (.io ("127.0.0.1:" ++ toString record.port.toNat) .unreachable)

/-- The bytes that carry a command. -/
def request (command : Command) : ByteArray := (command.line ++ "\n").toUTF8

/-- Reads the bytes that a daemon sent. -/
def decode (received : ByteArray) : Except DaemonError Reply :=
  match String.fromUTF8? received with
  | none => .error (.io "daemon socket read" .notText)
  | some "" => .error (.protocol "daemon closed connection before responding")
  | some raw => (Reply.parse raw).mapError .protocol

/-- Sends a command and waits for the reply. -/
def send (around : Surroundings σ) (root : Path) (command : Command) (state : σ) :
    Except DaemonError Reply × σ :=
  match connect around state root with
  | .error error => (.error error, state)
  | .ok port =>
    let broken := around.breaks state port
    let (received, state) := around.exchange state port (request command)
    match broken with
    | some cause => (.error (.io "daemon socket read" cause), state)
    | none => (decode received, state)

/-- The status text of the daemon. -/
def status (around : Surroundings σ) (root : Path) (state : σ) : Except DaemonError String × σ :=
  let (reply, state) := send around root .status state
  (do
    let reply ← reply
    if reply.status = some .success then return reply.body else throw (.protocol reply.body), state)

/-- Asks the daemon to exit. If it cannot be reached, it is taken for gone and its lock file is
removed. -/
def stop (around : Surroundings σ) (root : Path) (state : σ) : Except DaemonError StopOutcome × σ :=
  match Record.read (around.disk state) (lockPath root) with
  | .error error => (.error error, state)
  | .ok none => (.ok .notRunning, state)
  | .ok (some _) =>
    match connect around state root with
    | .ok port =>
      let (_, state) := around.exchange state port (request .exit)
      (.ok .stopped, state)
    | .error _ =>
      let (removed, disk) := Lock.unlink (lockPath root) (around.disk state)
      (removed.map fun _ => .staleLockRemoved, around.setDisk state disk)

end Client

end StagedFormat.Daemon
