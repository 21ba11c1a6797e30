import StagedFormat.Proofs.DaemonAnswers
import StagedFormat.Proofs.FreshRuns

/-! What one connection after the other gets from a daemon. Each is served as if the daemon were new,
with the files and the repository as the ones before left them; apart from these, only the time of the
last command and the number of runs are left of a connection. -/

namespace StagedFormat.Proofs.DaemonTurns
open StagedFormat Daemon DaemonAnswers DryRuns FreshRuns

/-- The first line of a connection, if it is a text and not empty. -/
def heard : Connection → Option String
  | .silent => none
  | .sent bytes => (String.fromUTF8? (Server.firstLine bytes)).filter (· ≠ "")

def asks (connection : Connection) : Option Command := (heard connection).map Command.parse

/-- The first word of the first line asks the daemon to exit. -/
def Exits (connection : Connection) : Prop :=
  ∃ line, heard connection = some line ∧ line.words.head? = some "exit"

/-- What a connection gets from a daemon that takes it up. -/
def attend (services : Services) (now : Nat) (server : Server) (workspace : Workspace) :
    Connection → Service × Server × Workspace
  | .silent => (.nothing, server, workspace)
  | .sent bytes => server.serve services now bytes workspace

/-- A daemon between two connections, in so far as the next one can tell. -/
structure Stand where
  now : Nat
  lastCommand : Nat
  runs : Nat
  /-- The limit that the supervisor found to be reached. -/
  signal : Option Shutdown
  files : Disk
  repository : Git.Repository

def Stand.workspace (stand : Stand) : Workspace := { disk := stand.files, repository := stand.repository }

def stand (now : Nat) (server : Server) (workspace : Workspace) : Stand where
  now := now
  lastCommand := server.lastCommand
  runs := server.tasks
  signal := server.signal
  files := workspace.disk
  repository := workspace.repository

private theorem stand_eq {now : Nat} {server : Server} {workspace : Workspace} {files : Disk}
    {repository : Git.Repository} (disk : workspace.disk = files)
    (same : workspace.repository = repository) :
    stand now server workspace = { stand now server workspace with files, repository } := by
  rw [stand, disk, same]

def tells (daemon : Server) (stand : Stand) : String :=
  { daemon with lastCommand := stand.lastCommand }.statusText stand.now

def crashText (run : Nat) (message : String) : String :=
  (DaemonError.protocol
    ("pipeline join error: task " ++ toString run ++ " panicked with message " ++ message.quoted)).message

/-- What a connection that is no exit gets, and what it leaves. -/
inductive Done (services : Services) (daemon : Server) (before : Stand) (connection : Connection) :
    Service → Stand → Prop
  /-- Nothing was sent, or no text. -/
  | unheard : heard connection = none → Done services daemon before connection .nothing before
  | status : asks connection = some .status →
      Done services daemon before connection (.reply (.of .success (tells daemon before)))
        { before with lastCommand := before.now }
  | invalid {command reason} : asks connection = some (.invalid command reason) →
      Done services daemon before connection (.reply (.of .badArguments reason)) before
  | unknown {command} : asks connection = some (.unknown command) →
      Done services daemon before connection (.reply (.of .failure ("Unknown command: " ++ command))) before
  /-- The scope cannot be resolved, so nothing is changed. -/
  | unresolved {request failOnChange error after attempts} :
      (asks connection).bind work = some (request, failOnChange) →
      Pipeline.resolve services.resolver before.workspace request = (.error error, after) →
      after.repository = { before.repository with attempts } →
      Done services daemon before connection
        (.reply (.of .failure (DaemonError.pipeline (.scope error)).message))
        { before with runs := before.runs + 1, repository := after.repository }
  | reported {request failOnChange scope report characters after} :
      (asks connection).bind work = some (request, failOnChange) →
      (Pipeline.resolve services.resolver before.workspace request).1 = .ok scope →
      Pipeline.run services.format services.resolver before.workspace request =
        (.ok report, characters, after) →
      Done services daemon before connection
        (.reply (.of (report.exitStatus failOnChange) report.output))
        { before with
          lastCommand := before.now
          runs := before.runs + 1
          files := after.disk
          repository := after.repository }
  | crashed {request failOnChange scope message characters after} :
      (asks connection).bind work = some (request, failOnChange) →
      (Pipeline.resolve services.resolver before.workspace request).1 = .ok scope →
      Pipeline.run services.format services.resolver before.workspace request =
        (.error (.crashed message), characters, after) →
      Done services daemon before connection
        (.reply (.of .failure (crashText (before.runs + 1) message)))
        { before with runs := before.runs + 1, files := after.disk, repository := after.repository }

private theorem parse_eq_exit {line : String} :
    Command.parse line = .exit ↔ line.words.head? = some "exit" := by
  unfold Command.parse
  split <;> simp_all

theorem exits_iff {connection : Connection} : Exits connection ↔ asks connection = some .exit := by
  rw [asks, Option.map_eq_some_iff]
  constructor
  · rintro ⟨line, first, word⟩
    exact ⟨line, first, parse_eq_exit.mpr word⟩
  · rintro ⟨line, first, exit⟩
    exact ⟨line, first, parse_eq_exit.mp exit⟩

section
variable (services : Services) (now : Nat) (server : Server) (workspace : Workspace)

theorem attend_unheard {connection : Connection} (unheard : heard connection = none) :
    attend services now server workspace connection = (.nothing, server, workspace) := by
  cases connection with
  | silent => rfl
  | sent bytes =>
    rw [attend, Server.serve]
    rw [heard, Option.filter_eq_none_iff] at unheard
    split
    · rfl
    · rfl
    · rename_i line nonempty read
      exact (unheard line read (decide_eq_true nonempty)).elim

theorem attend_asked {connection : Connection} {command : Command} (asked : asks connection = some command) :
    attend services now server workspace connection = server.obey services now workspace command := by
  obtain ⟨line, listens, rfl⟩ := Option.map_eq_some_iff.mp asked
  cases connection with
  | silent => cases listens
  | sent bytes =>
    obtain ⟨read, nonempty⟩ := Option.filter_eq_some_iff.mp listens
    rw [attend, Server.serve, read]
    split
    · rename_i absent
      cases absent
    · rename_i empty
      cases empty
      exact absurd rfl (of_decide_eq_true nonempty)
    · rename_i other same
      cases same
      rfl

theorem attend_exits {connection : Connection} (exits : Exits connection) :
    attend services now server workspace connection = (.shutdown, server, workspace) :=
  attend_asked services now server workspace (exits_iff.mp exits)

end

/-- What stays the same of a daemon as long as it runs. -/
structure Since (daemon server : Server) : Prop where
  port : server.port = daemon.port
  lock : server.lock = daemon.lock
  limits : server.limits = daemon.limits
  startedAt : server.startedAt = daemon.startedAt
  started : server.started = daemon.started

theorem Since.trans {daemon middle server : Server} (one : Since daemon middle) (two : Since middle server) :
    Since daemon server where
  port := two.port.trans one.port
  lock := two.lock.trans one.lock
  limits := two.limits.trans one.limits
  startedAt := two.startedAt.trans one.startedAt
  started := two.started.trans one.started

theorem Since.kept {daemon server : Server} (since : Since daemon server) (lastCommand tasks : Nat) :
    Since daemon { server with lastCommand, tasks } := since.trans ⟨rfl, rfl, rfl, rfl, rfl⟩

private theorem tells_stand {daemon server : Server} (since : Since daemon server) (now : Nat)
    (workspace : Workspace) : tells daemon (stand now server workspace) = server.statusText now := by
  unfold tells Server.statusText
  rw [since.limits, since.startedAt, since.started]
  rfl

private theorem work_mode {command : Command} {request : Request} {failOnChange : Bool}
    (works : work command = some (request, failOnChange)) : request.mode ≠ .workingDirectory := by
  cases command with
  | preCommit files => cases works; nofun
  | prePush commit files => cases works; nofun
  | exit => cases works
  | status => cases works
  | invalid command reason => cases works
  | unknown command => cases works

theorem run_unresolved {format : Formatter} {resolver : Resolver} {workspace after : Workspace}
    {request : Request} {error : ScopeError}
    (failed : Pipeline.resolve resolver workspace request = (.error error, after)) :
    Pipeline.run format resolver workspace request = (.error (.scope error), 0, after) := by
  rw [Pipeline.run, failed]

theorem run_resolved (format : Formatter) {resolver : Resolver} {workspace : Workspace}
    {request : Request} {scope : Scope}
    (resolved : (Pipeline.resolve resolver workspace request).1 = .ok scope) :
    (∃ report, (Pipeline.run format resolver workspace request).1 = .ok report) ∨
      ∃ message, (Pipeline.run format resolver workspace request).1 = .error (.crashed message) := by
  rcases found : Pipeline.resolve resolver workspace request with ⟨answer, next⟩
  rw [found] at resolved
  cases resolved
  rw [Pipeline.run, found]
  simp only [Pipeline.runScope, Pipeline.dispatch]
  cases (Pipeline.formatAll format scope.dryRun next scope.targets).1.mapM Pipeline.Handled.result with
  | ok results => exact .inl ⟨_, rfl⟩
  | error message => exact .inr ⟨message, rfl⟩

section
variable {services : Services} {server : Server} {now : Nat} {request : Request} {failOnChange : Bool}
  {workspace after : Workspace} {characters : Nat}

theorem runPipeline_ok {report : Report}
    (ran : Pipeline.run services.format services.resolver workspace request = (.ok report, characters, after)) :
    server.runPipeline services now request failOnChange workspace =
      (.reply (.of (report.exitStatus failOnChange) report.output),
        { server with lastCommand := now, tasks := server.tasks + 1 }, after) := by
  rw [Server.runPipeline, ran]
  rfl

theorem runPipeline_error {fault : PipelineFault}
    (ran : Pipeline.run services.format services.resolver workspace request =
      (.error fault, characters, after)) :
    server.runPipeline services now request failOnChange workspace =
      (.reply (Server.replyOf failOnChange (server.tasks + 1) (.error fault)),
        { server with tasks := server.tasks + 1 }, after) := by
  rw [Server.runPipeline, ran]
  rfl

end

/-- A run of the pipeline is the one that a daemon without a past would have made. -/
theorem runPipeline_done {services : Services} {daemon : Server} {connection : Connection}
    {request : Request} {failOnChange : Bool}
    (asked : (asks connection).bind work = some (request, failOnChange))
    (hook : request.mode ≠ .workingDirectory) (now : Nat) (server : Server) (workspace : Workspace) :
    ∃ reply lastCommand tasks after,
      server.runPipeline services now request failOnChange workspace =
        (.reply reply, { server with lastCommand, tasks }, after) ∧
      Done services daemon (stand now server workspace) connection (.reply reply)
        (stand now { server with lastCommand, tasks } after) := by
  obtain ⟨outcome, characters, fresh, after, alone, ran, files, repository⟩ :=
    run_anew workspace services.format services.resolver hook
  rcases found : Pipeline.resolve services.resolver (anew workspace) request with ⟨answer, next⟩
  cases answer with
  | error error =>
    have untouched := resolve_untouched services.resolver (anew workspace) request
    rw [found] at untouched
    obtain ⟨attempts, idle⟩ := untouched.repository
    cases (run_unresolved found).symm.trans alone
    refine ⟨_, _, _, after, runPipeline_error ran, ?_⟩
    rw [stand_eq (files.trans untouched.disk) repository]
    exact .unresolved asked found idle
  | ok scope =>
    have resolved := congrArg Prod.fst found
    have ends := run_resolved services.format resolved
    rw [alone] at ends
    rcases ends with ⟨report, same⟩ | ⟨message, same⟩
    · cases same
      refine ⟨_, _, _, after, runPipeline_ok ran, ?_⟩
      rw [stand_eq files repository]
      exact .reported asked resolved alone
    · cases same
      refine ⟨_, _, _, after, runPipeline_error ran, ?_⟩
      rw [stand_eq files repository]
      exact .crashed asked resolved alone

private theorem reply_continues (reply : Reply) : Service.reply reply ≠ .shutdown := nofun

/-- A connection that is no exit is done with: it gets what a new daemon would give it, and only the
time of the last command, the number of runs, the files and the repository may be others after it. -/
theorem attend_done (services : Services) {daemon server : Server} {connection : Connection}
    (since : Since daemon server) (going : ¬ Exits connection) (now : Nat) (workspace : Workspace) :
    ∃ service lastCommand tasks after,
      attend services now server workspace connection =
        (service, { server with lastCommand, tasks }, after) ∧ service ≠ .shutdown ∧
      Done services daemon (stand now server workspace) connection service
        (stand now { server with lastCommand, tasks } after) := by
  cases asked : asks connection with
  | none =>
    have unheard : heard connection = none := Option.map_eq_none_iff.mp asked
    exact ⟨_, _, _, _, attend_unheard services now server workspace unheard, by decide, .unheard unheard⟩
  | some command =>
    rw [attend_asked services now server workspace asked]
    cases works : work command with
    | some run =>
      obtain ⟨request, failOnChange⟩ := run
      have hook : (asks connection).bind work = some (request, failOnChange) := by
        rw [asked]
        exact works
      obtain ⟨reply, lastCommand, tasks, after, ran, done⟩ :=
        runPipeline_done hook (work_mode works) now server workspace
      exact ⟨_, _, _, _, (obey_works works services now server workspace).trans ran,
        reply_continues reply, done⟩
    | none =>
      cases command with
      | exit => exact (going (exits_iff.mpr asked)).elim
      | status =>
        refine ⟨_, now, server.tasks, workspace, rfl, reply_continues _, ?_⟩
        rw [← tells_stand since now workspace]
        exact .status asked
      | invalid command reason => exact ⟨_, _, _, _, rfl, reply_continues _, .invalid asked⟩
      | unknown command => exact ⟨_, _, _, _, rfl, reply_continues _, .unknown asked⟩
      | preCommit files => cases works
      | prePush commit files => cases works

/-- A daemon that has this stand and no other past. -/
def Stand.server (daemon : Server) (stand : Stand) : Server :=
  { daemon with lastCommand := stand.lastCommand, tasks := stand.runs, signal := stand.signal }

/-- What a connection gets, and what it leaves, is what a daemon with no other past would make of it. -/
theorem Done.fresh {services : Services} {daemon : Server} {before after : Stand} {connection : Connection}
    {service : Service} (done : Done services daemon before connection service after) :
    ∃ server workspace,
      attend services before.now (before.server daemon) before.workspace connection =
        (service, server, workspace) ∧ stand before.now server workspace = after := by
  have ran {request : Request} {failOnChange : Bool}
      (asked : (asks connection).bind work = some (request, failOnChange)) :
      attend services before.now (before.server daemon) before.workspace connection =
        (before.server daemon).runPipeline services before.now request failOnChange before.workspace := by
    obtain ⟨command, asked, works⟩ := Option.bind_eq_some_iff.mp asked
    rw [attend_asked services before.now _ before.workspace asked, obey_works works]
  cases done with
  | unheard unheard => exact ⟨_, _, attend_unheard _ _ _ _ unheard, rfl⟩
  | status asked => exact ⟨_, _, attend_asked _ _ _ _ asked, rfl⟩
  | invalid asked => exact ⟨_, _, attend_asked _ _ _ _ asked, rfl⟩
  | unknown asked => exact ⟨_, _, attend_asked _ _ _ _ asked, rfl⟩
  | @unresolved request _ _ _ _ asked unresolved _ =>
    have untouched := resolve_untouched services.resolver before.workspace request
    rw [unresolved] at untouched
    refine ⟨_, _, (ran asked).trans (runPipeline_error (run_unresolved unresolved)), ?_⟩
    rw [stand_eq untouched.disk rfl]
    rfl
  | reported asked _ done => exact ⟨_, _, (ran asked).trans (runPipeline_ok done), rfl⟩
  | crashed asked _ done => exact ⟨_, _, (ran asked).trans (runPipeline_error done), rfl⟩

theorem Done.unique {services : Services} {daemon : Server} {before one other : Stand}
    {connection : Connection} {service answer : Service}
    (first : Done services daemon before connection service one)
    (second : Done services daemon before connection answer other) : service = answer ∧ one = other := by
  obtain ⟨_, _, attended, rfl⟩ := first.fresh
  obtain ⟨_, _, again, rfl⟩ := second.fresh
  cases attended.symm.trans again
  exact ⟨rfl, rfl⟩

/-- Daemons that stand alike give a connection the same, and stand alike after it. -/
theorem attend_alike {services : Services} {daemon one other : Server} {here there : Workspace} {now : Nat}
    (first : Since daemon one) (second : Since daemon other)
    (alike : stand now one here = stand now other there) {connection : Connection}
    (going : ¬ Exits connection) :
    (attend services now one here connection).1 = (attend services now other there connection).1 ∧
      stand now (attend services now one here connection).2.1
          (attend services now one here connection).2.2 =
        stand now (attend services now other there connection).2.1
          (attend services now other there connection).2.2 := by
  obtain ⟨_, _, _, _, attended, _, done⟩ := attend_done services first going now here
  obtain ⟨_, _, _, _, again, _, same⟩ := attend_done services second going now there
  rw [← alike] at same
  rw [attended, again]
  exact done.unique same

end StagedFormat.Proofs.DaemonTurns
