import StagedFormat.Proofs.DaemonCourse
import StagedFormat.Proofs.HookInvocations

/-! The service of a daemon: whatever happens on a host, its daemon serves the connections one after
the other, each as a run of its own, until an exit or a limit ends it. -/

namespace StagedFormat.Proofs.DaemonService
open StagedFormat Daemon DaemonTurns DaemonCourse HookInvocations

inductive Happening where
  /-- A client connects and sends bytes. -/
  | sends (bytes : ByteArray)
  /-- A client connects and sends nothing. -/
  | opens
  /-- The clients of silent connections close them. -/
  | hangsUp
  | passes (duration : Nat)

def happen (port : UInt16) (host : Host) : Happening → Host
  | .sends bytes => (host.deliver port bytes).2
  | .opens => host.openSilent port
  | .hangsUp => host.hangUp
  | .passes duration => host.advance duration

def Happening.connection : Happening → Option Connection
  | .sends bytes => some (.sent bytes)
  | .opens => some .silent
  | .hangsUp | .passes _ => none

def released (lock : Lock) (workspace : Workspace) : Workspace :=
  { workspace with disk := (lock.release { disk := workspace.disk, held := [] }).2.2.disk }

/-- How a host looks on which a daemon came this far. -/
def Shows (services : Services) (now : Nat) (host : Host) : Option Shutdown × Server × Workspace → Prop
  | (none, server, workspace) =>
    host.now = now ∧ host.servers = [(services, server)] ∧ host.workspace = workspace
  | (some reason, server, workspace) =>
    host.servers = [] ∧ host.outcome? server.port = some reason ∧
      host.workspace = released server.lock workspace

private theorem released_release (lock : Lock) (workspace : Workspace) (held : List FileId) :
    { workspace with disk := (lock.release { disk := workspace.disk, held }).2.2.disk } =
      released lock workspace := by
  unfold released Lock.release
  cases lock.file <;> rfl

section
variable {host : Host} {services : Services} {server : Server}
  (only : host.servers = [(services, server)])
include only

private theorem server_only : host.server? server.port = some (services, server) := by
  rw [Host.server?, only]
  exact List.find?_cons_of_pos (beq_self_eq_true server.port)

private theorem settle_shows {daemon : Server} (since : Since daemon server) {now : Nat}
    {start : Stand} {arrived : List Connection} {outcome : Option Shutdown × Server × Workspace}
    (course : Course services daemon now start arrived outcome) :
    Shows services host.now (host.settle services outcome) outcome := by
  have same : outcome.2.1.port = server.port := course.since.port.trans since.port.symm
  obtain ⟨ended, next, workspace⟩ := outcome
  simp only at same
  cases ended with
  | none =>
    refine ⟨rfl, ?_, rfl⟩
    simp [Host.settle, only, same]
  | some reason =>
    refine ⟨?_, ?_, released_release next.lock workspace host.held⟩
    · simp [Host.settle, only, same]
    · simp [Host.settle, Host.outcome?]

private theorem eachServer_only (act : Services → Server → Workspace → Option Shutdown × Server × Workspace) :
    host.eachServer act = host.settle services (act services server host.workspace) := by
  rw [Host.eachServer, only]
  rfl

private theorem deliver_free (free : Host.isFree server = true) (bytes : ByteArray) :
    host.deliver server.port bytes =
      ((server.serve services host.now bytes host.workspace).1.bytes,
        host.settle services
          (if (server.serve services host.now bytes host.workspace).1 = .shutdown then some .exitCommand
            else none, (server.serve services host.now bytes host.workspace).2)) := by
  rw [Host.deliver, server_only only]
  simp only [free, if_true]

/-- Whatever happens to a daemon that runs, its course goes on. -/
theorem happen_course {daemon : Server} (since : Since daemon server) (settled : Settled host.now server)
    (happening : Happening) :
    ∃ now outcome, Course services daemon now (stand host.now server host.workspace)
        (pending server ++ happening.connection.toList) outcome ∧
      Shows services now (happen server.port host happening) outcome := by
  cases happening with
  | sends bytes =>
    cases waits : server.waiting with
    | none =>
      have course := served_course services since host.now settled waits bytes host.workspace
      obtain ⟨done, quiet⟩ := settled.free waits
      have free : Host.isFree server = true := by rw [Host.isFree, waits, quiet]; rfl
      rw [pending_free waits, done, happen, deliver_free only free]
      exact ⟨host.now, _, course, settle_shows only since course⟩
    | some deadline =>
      have course := queued_course services since host.now settled (by simp [waits])
        (.sent bytes) host.workspace
      have busy : Host.isFree server = false := by rw [Host.isFree, waits]; rfl
      rw [happen, Host.deliver, server_only only]
      simp only [busy]
      exact ⟨host.now, _, course, settle_shows only since course⟩
  | opens =>
    cases waits : server.waiting with
    | none =>
      have course := serveQueue_course services since host.now waits
        (server.queue ++ [.silent]) host.workspace
      have free : Host.isFree server = true := by rw [Host.isFree, waits, (settled.free waits).2]; rfl
      rw [pending_free waits, happen, Host.openSilent, server_only only]
      simp only [free, if_true]
      exact ⟨host.now, _, course, settle_shows only since course⟩
    | some deadline =>
      have course := queued_course services since host.now settled (by simp [waits])
        .silent host.workspace
      have busy : Host.isFree server = false := by rw [Host.isFree, waits]; rfl
      rw [happen, Host.openSilent, server_only only]
      simp only [busy]
      exact ⟨host.now, _, course, settle_shows only since course⟩
  | hangsUp =>
    have course := hangUp_course services since host.now host.workspace
    rw [Happening.connection, Option.toList_none, List.append_nil, happen, Host.hangUp,
      eachServer_only only]
    exact ⟨host.now, _, course, settle_shows only since course⟩
  | passes duration =>
    have course := tick_course services since (host.now + duration) settled
      (Nat.le_add_right _ _) host.workspace
    have passed : Serves services daemon (stand host.now server host.workspace) []
        (stand (host.now + duration) server host.workspace) :=
      .wait (host.now + duration) (Nat.le_add_right _ _) .none
    have later : ({ host with now := host.now + duration } : Host).servers = [(services, server)] := only
    rw [Happening.connection, Option.toList_none, List.append_nil, happen, Host.advance]
    simp only
    rw [eachServer_only later]
    exact ⟨host.now + duration, _, course.after passed, settle_shows later since course⟩

end

private theorem happen_alone {host : Host} (alone : host.servers = []) (port : UInt16) (happening : Happening) :
    (happen port host happening).servers = [] ∧ (happen port host happening).ended = host.ended ∧
      (happen port host happening).workspace = host.workspace := by
  have absent : host.server? port = none := by rw [Host.server?, alone]; rfl
  cases happening with
  | sends bytes =>
    rw [happen, Host.deliver, absent]
    exact ⟨alone, rfl, rfl⟩
  | opens =>
    rw [happen, Host.openSilent, absent]
    exact ⟨alone, rfl, rfl⟩
  | hangsUp =>
    rw [happen, Host.hangUp, Host.eachServer, alone]
    exact ⟨alone, rfl, rfl⟩
  | passes duration =>
    simp only [happen, Host.advance, Host.eachServer, alone, List.foldl_nil]
    exact ⟨trivial, trivial, trivial⟩

section
variable {services : Services} {daemon : Server} {start : Stand}

/-- One happening more: a daemon that runs goes on with its course, and one that ended is gone. -/
theorem course_happen {host : Host} {now : Nat} {arrived : List Connection}
    {outcome : Option Shutdown × Server × Workspace}
    (course : Course services daemon now start arrived outcome) (shows : Shows services now host outcome)
    (happening : Happening) :
    ∃ later next, Course services daemon later start (arrived ++ happening.connection.toList) next ∧
      Shows services later (happen daemon.port host happening) next := by
  obtain ⟨ended, server, workspace⟩ := outcome
  cases ended with
  | some reason =>
    obtain ⟨alone, told, left⟩ := shows
    obtain ⟨stays, same, kept⟩ := happen_alone alone daemon.port happening
    refine ⟨now, _, course.ignores _, stays, ?_, kept.trans left⟩
    rw [Host.outcome?, same]
    exact told
  | none =>
    obtain ⟨rfl, only, rfl⟩ := shows
    cases course with
    | serving serves order since settled =>
      obtain ⟨later, next, more, shown⟩ := happen_course only since settled happening
      rw [since.port] at shown
      refine ⟨later, next, ?_, shown⟩
      rw [order, List.append_assoc]
      exact more.after serves

theorem course_happenings {host : Host} {now : Nat} {arrived : List Connection}
    {outcome : Option Shutdown × Server × Workspace}
    (course : Course services daemon now start arrived outcome) (shows : Shows services now host outcome)
    (happenings : List Happening) :
    ∃ later next,
      Course services daemon later start (arrived ++ happenings.filterMap Happening.connection) next ∧
      Shows services later (happenings.foldl (happen daemon.port) host) next := by
  induction happenings generalizing host now arrived outcome with
  | nil => exact ⟨now, outcome, by simpa using course, shows⟩
  | cons happening rest ih =>
    obtain ⟨later, next, more, shown⟩ := course_happen course shows happening
    obtain ⟨last, final, whole, seen⟩ := ih more shown
    refine ⟨last, final, ?_, seen⟩
    have order : arrived ++ (happening :: rest).filterMap Happening.connection =
        arrived ++ happening.connection.toList ++ rest.filterMap Happening.connection := by
      cases connection : happening.connection <;> simp [connection]
    rw [order]
    exact whole

end

/-- A daemon that is alone on its host serves the connections in turn, whatever happens, until the
first exit or a limit. A client of a free daemon gets what its connection is to get, and nothing is left
of a connection but what the next one may know of it. -/
theorem daemon_serves {host : Host} {services : Services} {daemon : Server}
    (only : host.servers = [(services, daemon)]) (free : Host.isFree daemon = true)
    (served : daemon.queue = []) (happenings : List Happening) :
    (∃ now outcome,
      Course services daemon now (stand host.now daemon host.workspace)
        (happenings.filterMap Happening.connection) outcome ∧
      Shows services now (happenings.foldl (happen daemon.port) host) outcome) ∧
    (∀ after server, happenings.foldl (happen daemon.port) host = after →
      after.servers = [(services, server)] → Host.isFree server = true → ∀ bytes,
      (after.deliver daemon.port bytes).1 =
        (attend services after.now server after.workspace (.sent bytes)).1.bytes) ∧
    ∀ now one other here there connection, Since daemon one → Since daemon other →
      stand now one here = stand now other there → ¬ Exits connection →
      (attend services now one here connection).1 = (attend services now other there connection).1 ∧
        stand now (attend services now one here connection).2.1
            (attend services now one here connection).2.2 =
          stand now (attend services now other there connection).2.1
            (attend services now other there connection).2.2 := by
  obtain ⟨waiting, signal⟩ : daemon.waiting = none ∧ daemon.signal = none := by
    simpa [Host.isFree] using free
  have since : Since daemon daemon := ⟨rfl, rfl, rfl, rfl, rfl⟩
  have settled : Settled host.now daemon := by
    refine ⟨fun _ => ⟨served, signal⟩, ?_⟩
    intro deadline waits
    cases waiting.symm.trans waits
  have idle : pending daemon = [] := (pending_free waiting).trans served
  have begun : Course services daemon host.now (stand host.now daemon host.workspace) []
      (none, daemon, host.workspace) := .serving .none idle.symm since settled
  obtain ⟨now, outcome, course, shows⟩ := course_happenings begun ⟨rfl, only, rfl⟩ happenings
  refine ⟨⟨now, outcome, course, shows⟩, ?_, ?_⟩
  · rintro after server rfl alone ready bytes
    obtain ⟨ended, next, workspace⟩ := outcome
    cases ended with
    | some reason => cases shows.1.symm.trans alone
    | none =>
      cases shows.2.1.symm.trans alone
      have port : server.port = daemon.port := course.since.port
      have answered := deliver_free alone ready bytes
      rw [port] at answered
      rw [answered]
      rfl
  · intro _ _ _ _ _ _ one other alike going
    exact attend_alike one other alike going

def session : List Happening :=
  [.sends "status\n".toUTF8, .sends "pre-commit\n".toUTF8, .opens, .sends "pre-push\n".toUTF8, .hangsUp,
    .passes 3000, .sends " exit later\n".toUTF8]

theorem daemon_serves_session :
    (∃ now outcome,
      Course (Config.standard ⟨"/repo"⟩ {}).services listening now (stand 0 listening recorded)
        (session.filterMap Happening.connection) outcome ∧
      Shows (Config.standard ⟨"/repo"⟩ {}).services now
        (session.foldl (happen listening.port) running) outcome) ∧
    (session.foldl (happen listening.port) running).outcome? 40000 = some .exitCommand := by
  have only : running.servers = [((Config.standard ⟨"/repo"⟩ {}).services, listening)] := rfl
  have free : Host.isFree listening = true := rfl
  constructor
  · exact (daemon_serves only free rfl session).1
  · decide +kernel

def asked : Host :=
  happen 40000 (happen 40000 (happen 40000 running (.passes 3000)) (.sends "status\n".toUTF8)) (.passes 2000)

def unasked : Host := happen 40000 running (.passes 5000)

/-- An earlier command shows in a status, though the files and the repository are the same. A daemon that
nobody asks to exit ends as well. -/
theorem status_shows_earlier_command :
    asked.workspace = unasked.workspace ∧
      (asked.deliver 40000 "status\n".toUTF8).1 ≠ (unasked.deliver 40000 "status\n".toUTF8).1 ∧
      (happen 40000 running (.passes 86400000)).outcome? 40000 = some .idleTimeout := by
  refine ⟨rfl, ?_, ?_⟩
  · decide +kernel
  · decide +kernel

end StagedFormat.Proofs.DaemonService
