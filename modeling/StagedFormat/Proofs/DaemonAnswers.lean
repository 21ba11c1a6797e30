import StagedFormat.Daemon.Host
import StagedFormat.Proofs.CommandTransmission
import StagedFormat.Proofs.ReplyTexts

/-! What a client gets from a daemon that is free to serve it: the reply arrives as it was sent, and the
workspace is what the daemon's run made of it. A client that no daemon serves changes nothing. -/

namespace StagedFormat.Proofs.DaemonAnswers
open StagedFormat Daemon ByteTexts CommandTransmission

theorem status_of (status : ExitStatus) (body : String) : (Reply.of status body).status = some status := by
  cases status <;> rfl

private theorem decode_reply (status : ExitStatus) (body : String) :
    Client.decode (Service.reply (.of status body)).bytes = .ok (.of status body) := by
  have nonempty : (Reply.of status body).wire ≠ "" := by
    intro empty
    have length := congrArg String.length empty
    simp [Reply.wire] at length
  rw [Service.bytes, Client.decode, fromUTF8?_eq_some.mpr rfl]
  split
  · rename_i absent
    cases absent
  · rename_i empty
    exact (nonempty (Option.some.inj empty)).elim
  · rename_i raw same
    cases same
    rw [ReplyTexts.parse_wire]
    rfl

private theorem replyOf_cases (failOnChange : Bool) (task : Nat) (outcome : Except PipelineFault Report) :
    ∃ status body, Server.replyOf failOnChange task outcome = .of status body := by
  cases outcome with
  | ok report => exact ⟨_, _, rfl⟩
  | error fault => cases fault <;> exact ⟨_, _, rfl⟩

/-- The request that a command makes of the pipeline, and whether changes are failures for it. -/
def work : Command → Option (Request × Bool)
  | .preCommit files => some (Server.hookRequest .preCommit files false, false)
  | .prePush commit files => some (Server.hookRequest (.prePush commit) files true, true)
  | _ => none

theorem obey_works {command : Command} {request : Request} {failOnChange : Bool}
    (works : work command = some (request, failOnChange)) (services : Services) (now : Nat)
    (server : Server) (workspace : Workspace) :
    server.obey services now workspace command =
      server.runPipeline services now request failOnChange workspace := by
  cases command <;> cases works <;> rfl

private theorem runPipeline_replies (services : Services) (now : Nat) (request : Request) (failOnChange : Bool)
    (server : Server) (workspace : Workspace) :
    ∃ later, server.runPipeline services now request failOnChange workspace =
      (.reply (Server.replyOf failOnChange (server.tasks + 1)
        (Pipeline.run services.format services.resolver workspace request).1), later,
        (Pipeline.run services.format services.resolver workspace request).2.2) := by
  rw [Server.runPipeline]
  rcases Pipeline.run services.format services.resolver workspace request with
    ⟨outcome, characters, next⟩
  cases outcome <;> exact ⟨_, rfl⟩

private theorem serve_received {sent command : Command} (arrives : received sent = some command)
    (known : command ≠ .unknown "") (services : Services) (now : Nat) (server : Server)
    (workspace : Workspace) :
    server.serve services now (Client.request sent) workspace =
      server.obey services now workspace command := by
  obtain ⟨line, read, rfl⟩ := Option.map_eq_some_iff.mp arrives
  rw [Server.serve, read]
  split
  · rename_i absent
    cases absent
  · rename_i empty
    cases empty
    exact (known rfl).elim
  · rename_i other same
    cases same
    rfl

/-- A daemon that a client at the root connects to, and that serves it at once. -/
structure Answering (host : Host) (root : Path) (services : Services) (server : Server) : Prop where
  connects : Client.connect Host.surroundings host root = .ok server.port
  listens : host.server? server.port = some (services, server)
  free : Host.isFree server = true

private theorem settle_workspace (host : Host) (services : Services) (server : Server) (workspace : Workspace) :
    (host.settle services (none, server, workspace)).workspace = workspace := rfl

section
variable {host : Host} {root : Path}

theorem send_unconnected {error : DaemonError} {command : Command}
    (failed : Client.connect Host.surroundings host root = .error error) :
    Client.send Host.surroundings root command host = (.error error, host) := by
  rw [Client.send, failed]

theorem send_connected {port : UInt16} {command : Command}
    (connects : Client.connect Host.surroundings host root = .ok port) :
    Client.send Host.surroundings root command host =
      ((host.breaks port).elim (Client.decode (host.deliver port (Client.request command)).1)
          fun cause => .error (.io "daemon socket read" cause),
        (host.deliver port (Client.request command)).2) := by
  have broken : Host.surroundings.breaks host port = host.breaks port := rfl
  rw [Client.send, connects]
  simp only [broken]
  cases host.breaks port <;> rfl

private theorem breaks_daemon {port : UInt16} {found : Services × Server} (listens : host.server? port = some found) :
    host.breaks port = none := by
  rw [Host.breaks, listens]
  rfl

private theorem deliver_works {services : Services} {server : Server} {sent command : Command}
    {request : Request} {failOnChange : Bool}
    (listens : host.server? server.port = some (services, server)) (free : Host.isFree server = true)
    (arrives : received sent = some command) (works : work command = some (request, failOnChange)) :
    ∃ after, host.deliver server.port (Client.request sent) =
        ((Service.reply (Server.replyOf failOnChange (server.tasks + 1)
          (Pipeline.run services.format services.resolver host.workspace request).1)).bytes, after) ∧
      after.workspace = (Pipeline.run services.format services.resolver host.workspace request).2.2 := by
  have known : command ≠ .unknown "" := by
    rintro rfl
    cases works
  have served := serve_received arrives known services host.now server host.workspace
  obtain ⟨later, ran⟩ :=
    runPipeline_replies services host.now request failOnChange server host.workspace
  rw [obey_works works, ran] at served
  simp only [Host.deliver, listens, free, if_true, served, reduceCtorEq, if_false]
  exact ⟨_, rfl, settle_workspace host services later _⟩

theorem send_answered {services : Services} {server : Server} {sent command : Command}
    {request : Request} {failOnChange : Bool} (answering : Answering host root services server)
    (arrives : received sent = some command) (works : work command = some (request, failOnChange)) :
    ∃ after, Client.send Host.surroundings root sent host =
        (.ok (Server.replyOf failOnChange (server.tasks + 1)
          (Pipeline.run services.format services.resolver host.workspace request).1), after) ∧
      after.workspace = (Pipeline.run services.format services.resolver host.workspace request).2.2 := by
  obtain ⟨after, delivered, workspace⟩ :=
    deliver_works answering.listens answering.free arrives works
  obtain ⟨status, body, reply⟩ := replyOf_cases failOnChange (server.tasks + 1)
    (Pipeline.run services.format services.resolver host.workspace request).1
  rw [reply] at delivered ⊢
  refine ⟨after, ?_, workspace⟩
  rw [send_connected answering.connects, breaks_daemon answering.listens, delivered]
  exact congrArg (·, after) (decode_reply status body)

/-- Without such a daemon, sending a command changes nothing. -/
theorem send_unanswered (unanswered : ∀ services server, ¬ Answering host root services server)
    (command : Command) :
    (Client.send Host.surroundings root command host).2.workspace = host.workspace := by
  cases connects : Client.connect Host.surroundings host root with
  | error error => rw [send_unconnected connects]
  | ok port =>
    rw [send_connected connects]
    unfold Host.deliver
    cases listens : host.server? port with
    | none => rfl
    | some found =>
      obtain ⟨services, server⟩ := found
      by_cases free : Host.isFree server = true
      · have same : server.port = port := by
          simpa using List.find?_some listens
        subst same
        exact (unanswered services server ⟨connects, listens, free⟩).elim
      · -- A daemon that waits for another connection only queues the bytes.
        simp only [if_neg free]
        exact settle_workspace host services _ _

end

end StagedFormat.Proofs.DaemonAnswers
