import StagedFormat.Proofs.DaemonTurns

/-! The course of a daemon: connections are taken up in the order in which they came, one after the
other, until one of them is an exit or the supervisor has found a limit to be reached. -/

namespace StagedFormat.Proofs.DaemonCourse
open StagedFormat Daemon DaemonTurns

structure Turn where
  now : Nat
  server : Server
  workspace : Workspace
  connection : Connection

def Turn.start (turn : Turn) : Stand := stand turn.now turn.server turn.workspace

def Turn.service (services : Services) (turn : Turn) : Service :=
  (attend services turn.now turn.server turn.workspace turn.connection).1

/-- Time passes, the supervisor checks the limits, and connections are served; the supervisor and the
daemon have stopped once a limit is found to be reached. -/
inductive Serves (services : Services) (daemon : Server) : Stand → List Turn → Stand → Prop
  | none {stand} : Serves services daemon stand [] stand
  | wait {start turns last} (later : Nat) : start.now ≤ later →
      Serves services daemon { start with now := later } turns last →
      Serves services daemon start turns last
  | check {start turns last} : start.signal = none →
      Serves services daemon
        { start with signal := daemon.limits.expiry (start.now - start.lastCommand) (start.now - daemon.started) }
        turns last →
      Serves services daemon start turns last
  | turn (turn : Turn) {next turns last} : turn.start.signal = none → ¬ Exits turn.connection →
      Done services daemon turn.start turn.connection (turn.service services) next →
      Serves services daemon next turns last → Serves services daemon turn.start (turn :: turns) last

def pending (server : Server) : List Connection :=
  (if server.waiting.isSome then [.silent] else []) ++ server.queue

private theorem pending_waiting {server : Server} {deadline : Nat} (waits : server.waiting = some deadline) :
    pending server = .silent :: server.queue := by
  rw [pending, waits]
  rfl

theorem pending_free {server : Server} (free : server.waiting = none) : pending server = server.queue := by
  rw [pending, free]
  rfl

private theorem waiting_of_waitedEnough {now : Nat} {server : Server} (waited : server.waitedEnough now = true) :
    ∃ deadline, server.waiting = some deadline := by
  rw [Server.waitedEnough, Option.any_eq_true] at waited
  obtain ⟨deadline, waits, _⟩ := waited
  exact ⟨deadline, waits⟩

/-- A daemon that waits for no connection has served all, and none is waited for too long. -/
structure Settled (now : Nat) (server : Server) : Prop where
  free : server.waiting = none → server.queue = [] ∧ server.signal = none
  waits : ∀ deadline, server.waiting = some deadline → now < deadline ∧ deadline ≤ now + readTimeout

/-- What becomes of a daemon to which these connections come. -/
inductive Course (services : Services) (daemon : Server) (now : Nat) (start : Stand)
    (arrived : List Connection) : Option Shutdown × Server × Workspace → Prop
  | serving {turns server workspace} : Serves services daemon start turns (stand now server workspace) →
      arrived = turns.map Turn.connection ++ pending server → Since daemon server → Settled now server →
      Course services daemon now start arrived (none, server, workspace)
  /-- The first exit ends it, without a reply. -/
  | exited {turns connection rest server workspace} :
      Serves services daemon start turns (stand now server workspace) → server.signal = none →
      Exits connection → (attend services now server workspace connection).1 = .shutdown →
      arrived = turns.map Turn.connection ++ connection :: rest → Since daemon server →
      Course services daemon now start arrived (some .exitCommand, server, workspace)
  /-- So does a limit, before the next connection is taken up. -/
  | expired {turns rest reason server workspace} :
      Serves services daemon start turns (stand now server workspace) → server.signal = some reason →
      arrived = turns.map Turn.connection ++ rest → Since daemon server →
      Course services daemon now start arrived (some reason, server, workspace)

variable {services : Services} {daemon : Server}

theorem Serves.trans {first second third : Stand} {turns later : List Turn}
    (one : Serves services daemon first turns second) (two : Serves services daemon second later third) :
    Serves services daemon first (turns ++ later) third := by
  induction one with
  | none => exact two
  | wait later passes _ ih => exact .wait later passes (ih two)
  | check quiet _ ih => exact .check quiet (ih two)
  | turn turn quiet going done _ ih => exact .turn turn quiet going done (ih two)

theorem Course.since {now : Nat} {start : Stand} {arrived : List Connection}
    {outcome : Option Shutdown × Server × Workspace}
    (course : Course services daemon now start arrived outcome) : Since daemon outcome.2.1 := by
  cases course with
  | serving _ _ since _ => exact since
  | exited _ _ _ _ _ since => exact since
  | expired _ _ _ since => exact since

theorem Course.after {now : Nat} {first second : Stand} {turns : List Turn} {arrived : List Connection}
    {outcome : Option Shutdown × Server × Workspace} (serves : Serves services daemon first turns second)
    (course : Course services daemon now second arrived outcome) :
    Course services daemon now first (turns.map Turn.connection ++ arrived) outcome := by
  cases course with
  | serving later order since settled =>
    exact .serving (serves.trans later) (by rw [order, List.map_append, List.append_assoc]) since settled
  | exited later quiet exits silent order since =>
    exact .exited (serves.trans later) quiet exits silent
      (by rw [order, List.map_append, List.append_assoc]) since
  | expired later reached order since =>
    exact .expired (serves.trans later) reached
      (by rw [order, List.map_append, List.append_assoc]) since

theorem Course.ignores {now : Nat} {start : Stand} {arrived : List Connection} {reason : Shutdown}
    {server : Server} {workspace : Workspace}
    (course : Course services daemon now start arrived (some reason, server, workspace))
    (more : List Connection) :
    Course services daemon now start (arrived ++ more) (some reason, server, workspace) := by
  cases course with
  | @exited turns connection rest _ _ serves quiet exits silent order since =>
    have extended : arrived ++ more = turns.map Turn.connection ++ connection :: (rest ++ more) := by
      rw [order, List.append_assoc, List.cons_append]
    exact .exited serves quiet exits silent extended since
  | @expired turns rest _ _ _ serves reached order since =>
    have extended : arrived ++ more = turns.map Turn.connection ++ (rest ++ more) := by
      rw [order, List.append_assoc]
    exact .expired serves reached extended since

variable (services)

section
variable {server : Server} (now : Nat) (workspace : Workspace)

private theorem serveQueue_signal {reason : Shutdown} (reached : server.signal = some reason)
    (queue : List Connection) :
    server.serveQueue services now queue workspace = (some reason, server, workspace) := by
  unfold Server.serveQueue
  rw [reached]

private theorem serveQueue_nil (quiet : server.signal = none) :
    server.serveQueue services now [] workspace = (none, { server with queue := [] }, workspace) := by
  unfold Server.serveQueue
  rw [quiet]

private theorem silent_continues : ¬ Exits .silent := by
  rintro ⟨line, first, _⟩
  cases first

private theorem silent_serves (quiet : server.signal = none) :
    Serves services daemon (stand now server workspace) [⟨now, server, workspace, .silent⟩]
      (stand now server workspace) :=
  .turn ⟨now, server, workspace, .silent⟩ quiet silent_continues (.unheard rfl) .none

private theorem serveQueue_silent (quiet : server.signal = none) (rest : List Connection) :
    server.serveQueue services now (.silent :: rest) workspace =
      (none, { server with waiting := some (now + readTimeout), queue := rest }, workspace) := by
  unfold Server.serveQueue
  rw [quiet]

end

section
variable {server : Server} (since : Since daemon server) (now : Nat)
include since

private theorem expired_course {reason : Shutdown} (reached : server.signal = some reason)
    (arrived : List Connection) (workspace : Workspace) :
    Course services daemon now (stand now server workspace) arrived (some reason, server, workspace) :=
  .expired .none reached rfl since

/-- It is enough to look at a daemon that the supervisor lets run on. -/
theorem course_of_quiet {queue arrived : List Connection} (workspace : Workspace)
    (course : server.signal = none →
      Course services daemon now (stand now server workspace) arrived
        (server.serveQueue services now queue workspace)) :
    Course services daemon now (stand now server workspace) arrived
      (server.serveQueue services now queue workspace) := by
  cases signal : server.signal with
  | none => exact course signal
  | some reason =>
    rw [serveQueue_signal services now workspace signal]
    exact expired_course services since now signal arrived workspace

private theorem serve_serves (quiet : server.signal = none) (bytes : ByteArray) (workspace : Workspace) :
    (Exits (.sent bytes) ∧
      server.serve services now bytes workspace = (.shutdown, server, workspace)) ∨
    ∃ service lastCommand tasks after,
      server.serve services now bytes workspace =
        (service, { server with lastCommand, tasks }, after) ∧ service ≠ .shutdown ∧
      Serves services daemon (stand now server workspace) [⟨now, server, workspace, .sent bytes⟩]
        (stand now { server with lastCommand, tasks } after) := by
  by_cases exits : Exits (.sent bytes)
  · exact .inl ⟨exits, attend_exits services now server workspace exits⟩
  · obtain ⟨service, lastCommand, tasks, after, attended, continues, done⟩ :=
      attend_done services since exits now workspace
    refine .inr ⟨service, lastCommand, tasks, after, attended, continues, ?_⟩
    refine .turn ⟨now, server, workspace, .sent bytes⟩ quiet exits ?_ .none
    rw [Turn.service, attended]
    exact done

private theorem sent_course {rest arrived : List Connection} (bytes : ByteArray) (workspace : Workspace)
    (others : ∀ lastCommand tasks after,
      Course services daemon now (stand now { server with lastCommand, tasks } after) arrived
        (Server.serveQueue services now rest { server with lastCommand, tasks } after)) :
    Course services daemon now (stand now server workspace) (.sent bytes :: arrived)
      (server.serveQueue services now (.sent bytes :: rest) workspace) := by
  refine course_of_quiet services since now workspace ?_
  intro quiet
  unfold Server.serveQueue
  rw [quiet]
  rcases serve_serves services since now quiet bytes workspace with
    ⟨exits, served⟩ | ⟨service, lastCommand, tasks, after, served, continues, serves⟩
  · simp only [served]
    exact .exited .none quiet exits (congrArg Prod.fst served) rfl since
  · simp only [served]
    exact (others lastCommand tasks after).after serves

/-- What follows if a silent connection was there first. -/
theorem silent_course {queue arrived : List Connection} (workspace : Workspace)
    (course : Course services daemon now (stand now server workspace) arrived
      (server.serveQueue services now queue workspace)) :
    Course services daemon now (stand now server workspace) (.silent :: arrived)
      (server.serveQueue services now queue workspace) := by
  refine course_of_quiet services since now workspace ?_
  intro quiet
  exact course.after (silent_serves services now workspace quiet)

theorem serveQueue_course (free : server.waiting = none) (queue : List Connection) (workspace : Workspace) :
    Course services daemon now (stand now server workspace) queue
      (server.serveQueue services now queue workspace) := by
  induction queue generalizing server workspace with
  | nil =>
    refine course_of_quiet services since now workspace ?_
    intro quiet
    rw [serveQueue_nil services now workspace quiet]
    refine .serving .none ?_ (since.trans ⟨rfl, rfl, rfl, rfl, rfl⟩) ⟨fun _ => ⟨rfl, quiet⟩, ?_⟩
    · rw [pending, free]
      rfl
    · intro deadline waits
      cases free.symm.trans waits
  | cons connection rest ih =>
    cases connection with
    | sent bytes =>
      refine sent_course services since now bytes workspace ?_
      intro lastCommand tasks after
      exact ih (since.kept lastCommand tasks) free after
    | silent =>
      refine course_of_quiet services since now workspace ?_
      intro quiet
      rw [serveQueue_silent services now workspace quiet]
      refine .serving .none rfl (since.trans ⟨rfl, rfl, rfl, rfl, rfl⟩) ⟨nofun, ?_⟩
      intro deadline waits
      cases waits
      exact ⟨Nat.lt_add_of_pos_right (by decide), Nat.le_refl _⟩

/-- Silent connections that are closed by their clients are served as well; they get nothing. -/
theorem closed_course (free : server.waiting = none) (queue : List Connection) (workspace : Workspace) :
    Course services daemon now (stand now server workspace) queue
      (server.serveQueue services now (queue.filter (!·.isSilent)) workspace) := by
  induction queue generalizing server workspace with
  | nil => exact serveQueue_course services since now free [] workspace
  | cons connection rest ih =>
    cases connection with
    | sent bytes =>
      refine sent_course services since now bytes workspace ?_
      intro lastCommand tasks after
      exact ih (since.kept lastCommand tasks) free after
    | silent => exact silent_course services since now workspace (ih since free workspace)

/-- A daemon that is free serves what is sent at once. -/
theorem served_course (settled : Settled now server) (free : server.waiting = none) (bytes : ByteArray)
    (workspace : Workspace) :
    Course services daemon now (stand now server workspace) [.sent bytes]
      (if (server.serve services now bytes workspace).1 = .shutdown then some .exitCommand else none,
        (server.serve services now bytes workspace).2) := by
  obtain ⟨done, quiet⟩ := settled.free free
  rcases serve_serves services since now quiet bytes workspace with
    ⟨exits, served⟩ | ⟨service, lastCommand, tasks, after, served, continues, serves⟩
  · rw [served, if_pos rfl]
    exact .exited .none quiet exits (congrArg Prod.fst served) rfl since
  · rw [served, if_neg continues]
    refine .serving serves ?_ (since.kept lastCommand tasks) ⟨settled.free, settled.waits⟩
    rw [pending, free, done]
    rfl

theorem queued_course (settled : Settled now server) (busy : server.waiting ≠ none)
    (connection : Connection) (workspace : Workspace) :
    Course services daemon now (stand now server workspace) (pending server ++ [connection])
      (none, { server with queue := server.queue ++ [connection] }, workspace) := by
  refine .serving .none ?_ (since.trans ⟨rfl, rfl, rfl, rfl, rfl⟩) ⟨?_, settled.waits⟩
  · rw [pending, List.append_assoc]
    rfl
  · intro free
    exact (busy free).elim

/-- Once the connection that was waited for is done, the others are served. -/
theorem resume_course {deadline : Nat} (waits : server.waiting = some deadline) (workspace : Workspace) :
    Course services daemon now (stand now server workspace) (pending server)
      (server.resume services now workspace) := by
  have renewed : Since daemon { server with waiting := none } := since.trans ⟨rfl, rfl, rfl, rfl, rfl⟩
  rw [pending_waiting waits]
  exact silent_course services renewed now workspace (serveQueue_course services renewed now rfl server.queue workspace)

theorem hangUp_course (workspace : Workspace) :
    Course services daemon now (stand now server workspace) (pending server)
      (server.hangUp services now workspace) := by
  have renewed : Since daemon
      { server with queue := server.queue.filter (!·.isSilent), waiting := none } :=
    since.trans ⟨rfl, rfl, rfl, rfl, rfl⟩
  have closed := closed_course services renewed now rfl server.queue workspace
  cases waits : server.waiting with
  | none =>
    rw [pending_free waits]
    exact closed
  | some deadline =>
    rw [pending_waiting waits]
    exact silent_course services renewed now workspace closed

private theorem check_serves (workspace : Workspace) :
    Serves services daemon (stand now server workspace) [] (stand now (server.check now) workspace) ∧
      Since daemon (server.check now) ∧ (server.check now).waiting = server.waiting ∧
      (server.check now).queue = server.queue := by
  unfold Server.check
  split
  · exact ⟨.none, since, rfl, rfl⟩
  · rename_i due
    have quiet : server.signal = none := by
      cases signal : server.signal with
      | none => rfl
      | some reason => simp [signal] at due
    refine ⟨.check quiet ?_, since.trans ⟨rfl, rfl, rfl, rfl, rfl⟩, rfl, rfl⟩
    rw [← since.limits, ← since.started]
    exact .none

/-- A daemon that is found to have reached a limit ends if it is not waiting. -/
theorem check_course (settled : Settled now server) (workspace : Workspace) :
    Course services daemon now (stand now server workspace) (pending server)
      (if (server.check now).waiting.isNone then ((server.check now).signal, server.check now, workspace)
        else (none, server.check now, workspace)) := by
  obtain ⟨serves, later, waiting, queue⟩ := check_serves services since now workspace
  have same : pending (server.check now) = pending server := by rw [pending, waiting, queue, pending]
  rw [← same]
  suffices course : Course services daemon now (stand now (server.check now) workspace)
      (pending (server.check now)) (if (server.check now).waiting.isNone then
        ((server.check now).signal, server.check now, workspace)
        else (none, server.check now, workspace)) from course.after serves
  have going : Settled now (server.check now) → Course services daemon now
      (stand now (server.check now) workspace) (pending (server.check now)) (none, server.check now, workspace) :=
    .serving .none rfl later
  cases waits : (server.check now).waiting with
  | some deadline =>
    simp only [Option.isNone_some, Bool.false_eq_true, if_false]
    refine going ⟨?_, ?_⟩
    · intro free
      cases waits.symm.trans free
    · intro other same
      exact settled.waits other (waiting.symm.trans same)
  | none =>
    simp only [Option.isNone_none, if_true]
    cases signal : (server.check now).signal with
    | some reason => exact expired_course services later now signal _ workspace
    | none =>
      refine going ⟨?_, ?_⟩
      · intro _
        exact ⟨queue.trans (settled.free (waiting.symm.trans waits)).1, signal⟩
      · intro deadline same
        cases waits.symm.trans same

/-- After some time, the check and the end of the wait happen if they are due. -/
theorem tick_course {before : Nat} (settled : Settled before server) (later : before ≤ now)
    (workspace : Workspace) :
    Course services daemon now (stand now server workspace) (pending server)
      (server.tick services now workspace) := by
  have unhurried : server.waitedEnough now = false → Settled now server := by
    intro early
    refine ⟨settled.free, ?_⟩
    intro deadline waits
    rw [Server.waitedEnough, waits] at early
    have bound := (settled.waits deadline waits).2
    simp only [Option.any_some, decide_eq_false_iff_not] at early
    omega
  by_cases first : (server.waitedEnough now && server.waiting.any (· < server.nextCheck)) = true
  · -- The wait ends first; the check follows if the daemon still runs.
    obtain ⟨deadline, waits⟩ := waiting_of_waitedEnough (Bool.and_eq_true_iff.mp first).1
    have course := resume_course services since now waits workspace
    unfold Server.tick
    rw [if_pos first]
    revert course
    rcases server.resume services now workspace with ⟨ended, next, after⟩
    intro course
    cases ended with
    | some reason => exact course
    | none =>
      cases course with
      | serving serves order later still =>
        rw [order]
        exact (check_course services later now still after).after serves
  · obtain ⟨serves, checked, waiting, queue⟩ := check_serves services since now workspace
    have same : (server.check now).waitedEnough now = server.waitedEnough now := by
      rw [Server.waitedEnough, waiting, Server.waitedEnough]
    unfold Server.tick
    rw [if_neg first]
    cases waited : server.waitedEnough now with
    | false =>
      simp only [same, waited, Bool.false_eq_true, if_false]
      exact check_course services since now (unhurried waited) workspace
    | true =>
      obtain ⟨deadline, waits⟩ := waiting_of_waitedEnough waited
      have course := resume_course services checked now (waiting.trans waits) workspace
      simp only [same, waited, waiting.trans waits, Option.isNone_some, Bool.false_eq_true, if_false,
        if_true]
      rw [pending_waiting (waiting.trans waits), queue, ← pending_waiting waits] at course
      exact course.after serves

end

end StagedFormat.Proofs.DaemonCourse
