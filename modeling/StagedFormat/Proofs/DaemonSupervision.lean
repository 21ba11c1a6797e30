import StagedFormat.Proofs.DaemonService

/-! A daemon and its supervisor, one event after the other. A command takes its time, the supervisor
looks at the clock meanwhile, and only a command that comes to an end counts as use of the daemon. -/

namespace StagedFormat.Proofs.DaemonSupervision
open StagedFormat Daemon DaemonAnswers DaemonTurns DaemonCourse

/-- A daemon, and who is connected to it. -/
structure State where
  now : Nat
  server : Server
  workspace : Workspace
  /-- The connection that the daemon has taken up. -/
  current : Option Connection := none
  /-- The connections that it has not taken up. -/
  backlog : List Connection := []
  ended : Option Shutdown := none

inductive Event where
  | arrives (connection : Connection)
  | passes (duration : Nat)
  /-- Somebody else works on the files and in the repository. -/
  | changes (workspace : Workspace)
  | takes (connection : Connection)
  /-- The daemon is done with a connection, for which it found this workspace. -/
  | finishes (now : Nat) (workspace : Workspace) (connection : Connection)
  /-- The daemon is done because of a connection. -/
  | exits (connection : Connection)
  /-- The supervisor looks at the clock, and may find a limit to be reached. -/
  | ticks (now : Nat) (signal : Option Shutdown)
  | stops (reason : Shutdown)

/-- What can happen. Before the daemon takes up a connection it looks for a signal, and the supervisor
gives one once. -/
inductive Step (services : Services) (state : State) : Event → State → Prop where
  | arrives (connection : Connection) :
      Step services state (.arrives connection)
        { state with backlog := state.backlog ++ [connection] }
  | passes (duration : Nat) :
      Step services state (.passes duration) { state with now := state.now + duration }
  | changes (workspace : Workspace) : Step services state (.changes workspace) { state with workspace }
  | takes {connection backlog} : state.ended = none → state.current = none →
      state.server.signal = none → state.backlog = connection :: backlog →
      Step services state (.takes connection) { state with current := some connection, backlog }
  | finishes {connection service server workspace} : state.ended = none →
      state.current = some connection →
      attend services state.now state.server state.workspace connection = (service, server, workspace) →
      service ≠ .shutdown →
      Step services state (.finishes state.now state.workspace connection)
        { state with server, workspace, current := none }
  | exits {connection server workspace} : state.ended = none → state.current = some connection →
      attend services state.now state.server state.workspace connection =
        (.shutdown, server, workspace) →
      Step services state (.exits connection)
        { state with server, workspace, current := none, ended := some .exitCommand }
  | ticks {signal} : state.ended = none → state.server.signal = none →
      signal = state.server.limits.expiry (state.now - state.server.lastCommand)
        (state.now - state.server.started) →
      Step services state (.ticks state.now signal) { state with server := { state.server with signal } }
  | stops {reason} : state.ended = none → state.current = none → state.server.signal = some reason →
      Step services state (.stops reason) { state with ended := some reason }

inductive Runs (services : Services) (start : State) : List Event → State → Prop where
  | start : Runs services start [] start
  | next {trace event middle final} : Runs services start trace middle →
      Step services middle event final → Runs services start (trace ++ [event]) final

/-- A daemon that has just begun to listen. -/
structure Fresh (state : State) : Prop where
  started : state.server.started = state.now
  lastCommand : state.server.lastCommand = state.now
  quiet : state.server.signal = none
  free : state.current = none
  runs : state.ended = none

/-! ### What counts as use -/

/-- A status is told, or a hook's scope is resolved and its run comes to an end. -/
inductive Completes (services : Services) (workspace : Workspace) (connection : Connection) : Prop where
  | status : asks connection = some .status → Completes services workspace connection
  | hook {request failOnChange scope} : (asks connection).bind work = some (request, failOnChange) →
      (Pipeline.resolve services.resolver workspace request).1 = .ok scope →
      (∀ message, (Pipeline.run services.format services.resolver workspace request).1 ≠
        .error (.crashed message)) →
      Completes services workspace connection

/-- A connection that is of no use. -/
inductive Fruitless (services : Services) (workspace : Workspace) (connection : Connection) : Prop where
  /-- Nothing was sent, or no text. -/
  | unheard : heard connection = none → Fruitless services workspace connection
  | unknown {command} : asks connection = some (.unknown command) →
      Fruitless services workspace connection
  | invalid {command reason} : asks connection = some (.invalid command reason) →
      Fruitless services workspace connection
  | unresolved {request failOnChange error} :
      (asks connection).bind work = some (request, failOnChange) →
      (Pipeline.resolve services.resolver workspace request).1 = .error error →
      Fruitless services workspace connection
  | crashed {request failOnChange message} :
      (asks connection).bind work = some (request, failOnChange) →
      (Pipeline.run services.format services.resolver workspace request).1 = .error (.crashed message) →
      Fruitless services workspace connection

def Event.Counts (services : Services) : Event → Prop
  | .finishes _ workspace connection => Completes services workspace connection
  | _ => False

/-- When the daemon was used last: the latest command that completed, or else the start. -/
inductive LastUse (services : Services) (start : Nat) (trace : List Event) (last : Nat) : Prop where
  | never : last = start → (∀ event ∈ trace, ¬ event.Counts services) →
      LastUse services start trace last
  | latest {front workspace connection back} :
      trace = front ++ .finishes last workspace connection :: back →
      Completes services workspace connection → (∀ event ∈ back, ¬ event.Counts services) →
      LastUse services start trace last

variable {services : Services}

theorem Fruitless.not_completes {workspace : Workspace} {connection : Connection}
    (fruitless : Fruitless services workspace connection) : ¬ Completes services workspace connection := by
  intro completes
  cases completes with
  | status asked =>
    cases fruitless with
    | unheard unheard => simp [asks, unheard] at asked
    | unknown other | invalid other => cases asked.symm.trans other
    | unresolved works | crashed works => simp [asked, work] at works
  | hook works resolved ended =>
    cases fruitless with
    | unheard unheard => simp [asks, unheard] at works
    | unknown other | invalid other => simp [other, work] at works
    | unresolved other failed =>
      cases works.symm.trans other
      cases resolved.symm.trans failed
    | crashed other crashed =>
      cases works.symm.trans other
      exact ended _ crashed

/-- A connection that is no exit completes a command, or is of no use. -/
theorem completes_or_fruitless (services : Services) (workspace : Workspace) {connection : Connection}
    (going : ¬ Exits connection) :
    Completes services workspace connection ∨ Fruitless services workspace connection := by
  have hook {request : Request} {failOnChange : Bool}
      (works : (asks connection).bind work = some (request, failOnChange)) :
      Completes services workspace connection ∨ Fruitless services workspace connection := by
    cases resolved : (Pipeline.resolve services.resolver workspace request).1 with
    | error error => exact .inr (.unresolved works resolved)
    | ok scope =>
      rcases run_resolved services.format resolved with ⟨report, ran⟩ | ⟨message, crashed⟩
      · refine .inl (.hook works resolved ?_)
        rw [ran]
        nofun
      · exact .inr (.crashed works crashed)
  cases asked : asks connection with
  | none => exact .inr (.unheard (Option.map_eq_none_iff.mp asked))
  | some command =>
    cases command with
    | exit => exact absurd (exits_iff.mpr asked) going
    | status => exact .inl (.status asked)
    | invalid => exact .inr (.invalid asked)
    | unknown => exact .inr (.unknown asked)
    | preCommit files => exact hook (by rw [asked]; rfl)
    | prePush commit files => exact hook (by rw [asked]; rfl)

/-- What a daemon is after a connection that is no exit. -/
structure Served (services : Services) (now : Nat) (workspace : Workspace) (connection : Connection)
    (before after : Server) : Prop where
  since : Since before after
  signal : after.signal = before.signal
  used : Completes services workspace connection → after.lastCommand = now
  unused : ¬ Completes services workspace connection → after.lastCommand = before.lastCommand

theorem not_exits {now : Nat} {server after : Server} {workspace left : Workspace}
    {connection : Connection} {service : Service}
    (attended : attend services now server workspace connection = (service, after, left))
    (continues : service ≠ .shutdown) : ¬ Exits connection := by
  intro exits
  rw [attend_exits services now server workspace exits] at attended
  cases attended
  exact continues rfl

/-- Only a command that completes moves the time of the last command, and it does so always. -/
theorem attend_served {now : Nat} {server after : Server} {workspace left : Workspace}
    {connection : Connection} {service : Service}
    (attended : attend services now server workspace connection = (service, after, left))
    (continues : service ≠ .shutdown) : Served services now workspace connection server after := by
  have kept (tasks : Nat) : Since server { server with tasks } := ⟨rfl, rfl, rfl, rfl, rfl⟩
  have moved (tasks : Nat) : Since server { server with lastCommand := now, tasks } :=
    ⟨rfl, rfl, rfl, rfl, rfl⟩
  have going := not_exits attended continues
  have ran {request : Request} {failOnChange : Bool}
      (works : (asks connection).bind work = some (request, failOnChange)) :
      server.runPipeline services now request failOnChange workspace = (service, after, left) := by
    obtain ⟨command, asked, works⟩ := Option.bind_eq_some_iff.mp works
    rw [← attended, attend_asked services now server workspace asked, obey_works works]
  rcases completes_or_fruitless services workspace going with completes | fruitless
  · have used := completes
    cases completes with
    | status asked =>
      rw [attend_asked services now server workspace asked] at attended
      cases attended
      exact ⟨moved _, rfl, fun _ => rfl, fun unused => absurd used unused⟩
    | @hook request failOnChange scope works resolved ended =>
      rcases found : Pipeline.run services.format services.resolver workspace request with
        ⟨outcome, characters, next⟩
      rcases run_resolved services.format resolved with ⟨report, reported⟩ | ⟨message, crashed⟩
      · obtain rfl : outcome = .ok report := by rw [← reported, found]
        cases (ran works).symm.trans (runPipeline_ok found)
        exact ⟨moved _, rfl, fun _ => rfl, fun unused => absurd used unused⟩
      · exact absurd crashed (ended message)
  · have unused := fruitless.not_completes
    cases fruitless with
    | unheard unheard =>
      rw [attend_unheard services now server workspace unheard] at attended
      cases attended
      exact ⟨kept _, rfl, fun used => absurd used unused, fun _ => rfl⟩
    | unknown asked | invalid asked =>
      rw [attend_asked services now server workspace asked] at attended
      cases attended
      exact ⟨kept _, rfl, fun used => absurd used unused, fun _ => rfl⟩
    | @unresolved request failOnChange error works failed =>
      rcases found : Pipeline.resolve services.resolver workspace request with ⟨answer, next⟩
      obtain rfl : answer = .error error := by rw [← failed, found]
      cases (ran works).symm.trans (runPipeline_error (run_unresolved found))
      exact ⟨kept _, rfl, fun used => absurd used unused, fun _ => rfl⟩
    | @crashed request failOnChange message works crashed =>
      rcases found : Pipeline.run services.format services.resolver workspace request with
        ⟨outcome, characters, next⟩
      obtain rfl : outcome = .error (.crashed message) := by rw [← crashed, found]
      cases (ran works).symm.trans (runPipeline_error found)
      exact ⟨kept _, rfl, fun used => absurd used unused, fun _ => rfl⟩

theorem attend_shutdown {now : Nat} {server after : Server} {workspace left : Workspace}
    {connection : Connection}
    (attended : attend services now server workspace connection = (.shutdown, after, left)) :
    Exits connection ∧ after = server ∧ left = workspace := by
  by_cases exits : Exits connection
  · rw [attend_exits services now server workspace exits] at attended
    cases attended
    exact ⟨exits, rfl, rfl⟩
  · obtain ⟨service, lastCommand, tasks, next, same, continues, _⟩ :=
      attend_done services ⟨rfl, rfl, rfl, rfl, rfl⟩ exits now workspace
    rw [same] at attended
    cases attended
    exact absurd rfl continues

/-! ### The time of the last use -/

section
variable {start last : Nat} {trace : List Event} {event : Event}

theorem LastUse.idle (use : LastUse services start trace last) (idle : ¬ event.Counts services) :
    LastUse services start (trace ++ [event]) last := by
  have none {events : List Event} (before : ∀ event ∈ events, ¬ event.Counts services) :
      ∀ other ∈ events ++ [event], ¬ other.Counts services := by
    intro other member
    rcases List.mem_append.mp member with member | here
    · exact before other member
    · rwa [List.mem_singleton.mp here]
  cases use with
  | never same before => exact .never same (none before)
  | @latest front workspace connection back split completes after =>
    have extended : trace ++ [event] = front ++ .finishes last workspace connection :: (back ++ [event]) := by
      rw [split, List.append_assoc, List.cons_append]
    exact .latest extended completes (none after)

theorem LastUse.used {workspace : Workspace} {connection : Connection} (start now : Nat)
    (trace : List Event) (completes : Completes services workspace connection) :
    LastUse services start (trace ++ [.finishes now workspace connection]) now :=
  .latest rfl completes (by simp)

theorem LastUse.unique {other : Nat} (one : LastUse services start trace last)
    (two : LastUse services start trace other) : last = other := by
  have absent {front back : List Event} {t : Nat} {workspace : Workspace} {connection : Connection}
      {events : List Event} (split : events = front ++ .finishes t workspace connection :: back)
      (completes : Completes services workspace connection)
      (none : ∀ event ∈ events, ¬ event.Counts services) : False := by
    refine none (.finishes t workspace connection) ?_ completes
    rw [split]
    exact List.mem_append_right front List.mem_cons_self
  cases one with
  | never same none =>
    cases two with
    | never again => rw [same, again]
    | latest split completes => exact (absent split completes none).elim
  | latest split completes after =>
    cases two with
    | never _ none => exact (absent split completes none).elim
    | latest again other later =>
      rw [split] at again
      rcases List.append_eq_append_iff.mp again with ⟨more, rfl, rest⟩ | ⟨more, rfl, rest⟩
      · cases more with
        | nil =>
          cases rest
          rfl
        | cons event more => exact (absent (List.cons.inj rest).2 other after).elim
      · cases more with
        | nil =>
          cases rest
          rfl
        | cons event more => exact (absent (List.cons.inj rest).2 completes later).elim

end

/-! ### What the supervisor knows -/

/-- What holds of a daemon all the time: the supervisor's clock shows its last use. -/
structure Kept (services : Services) (start : State) (trace : List Event) (state : State) : Prop where
  since : Since start.server state.server
  later : start.now ≤ state.now
  past : state.server.lastCommand ≤ state.now
  use : LastUse services start.now trace state.server.lastCommand

theorem Kept.start {state : State} (fresh : Fresh state) : Kept services state [] state where
  since := ⟨rfl, rfl, rfl, rfl, rfl⟩
  later := Nat.le_refl _
  past := Nat.le_of_eq fresh.lastCommand
  use := .never fresh.lastCommand nofun

theorem Kept.step {start state next : State} {trace : List Event} {event : Event}
    (kept : Kept services start trace state) (step : Step services state event next) :
    Kept services start (trace ++ [event]) next := by
  obtain ⟨since, later, past, use⟩ := kept
  cases step with
  | arrives | changes | takes | stops => exact ⟨since, later, past, use.idle id⟩
  | passes duration =>
    exact ⟨since, Nat.le_add_right_of_le later, Nat.le_add_right_of_le past, use.idle id⟩
  | ticks => exact ⟨since.trans ⟨rfl, rfl, rfl, rfl, rfl⟩, later, past, use.idle id⟩
  | exits _ _ attended =>
    obtain ⟨_, rfl, rfl⟩ := attend_shutdown attended
    exact ⟨since, later, past, use.idle id⟩
  | @finishes connection service server workspace _ taken attended continues =>
    obtain ⟨more, signal, used, unused⟩ := attend_served attended continues
    by_cases completes : Completes services state.workspace connection
    · refine ⟨since.trans more, later, Nat.le_of_eq (used completes), ?_⟩
      rw [used completes]
      exact .used _ _ _ completes
    · refine ⟨since.trans more, later, ?_, ?_⟩
      · rw [unused completes]
        exact past
      · rw [unused completes]
        exact use.idle completes

theorem Runs.kept {start state : State} {trace : List Event} (fresh : Fresh start)
    (runs : Runs services start trace state) : Kept services start trace state := by
  induction runs with
  | start => exact .start fresh
  | next _ step ih => exact ih.step step

/-- A run can be cut at any of its events. -/
theorem Runs.cut {start state : State} {front back : List Event}
    (runs : Runs services start (front ++ back) state) :
    ∃ middle, Runs services start front middle ∧ Runs services middle back state := by
  generalize whole : front ++ back = trace at runs
  induction runs generalizing back with
  | start =>
    obtain ⟨rfl, rfl⟩ := List.append_eq_nil_iff.mp whole
    exact ⟨start, .start, .start⟩
  | @next trace event middle final runs step ih =>
    rcases back.eq_nil_or_concat' with rfl | ⟨back, last, rfl⟩
    · rw [List.append_nil] at whole
      rw [whole]
      exact ⟨final, runs.next step, .start⟩
    · rw [← List.append_assoc, List.append_singleton_inj] at whole
      obtain ⟨rfl, rfl⟩ := whole
      obtain ⟨state, first, second⟩ := ih rfl
      exact ⟨state, first, second.next step⟩

theorem Runs.single {start state : State} {event : Event} (runs : Runs services start [event] state) :
    Step services start event state := by
  generalize whole : [event] = trace at runs
  cases runs with
  | start => cases whole
  | @next trace last middle _ runs step =>
    rw [← List.nil_append [event], List.append_singleton_inj] at whole
    obtain ⟨rfl, rfl⟩ := whole
    generalize none : [] = trace at runs
    cases runs with
    | start => exact step
    | next => simp at none

/-! ### After a signal -/

def Event.served : Event → Option Connection
  | .finishes _ _ connection | .exits connection => some connection
  | _ => none

def served (trace : List Event) : List Connection := trace.filterMap Event.served

private theorem served_append (front back : List Event) : served (front ++ back) = served front ++ served back :=
  List.filterMap_append

theorem served_next (trace : List Event) (event : Event) :
    served (trace ++ [event]) = served trace ++ event.served.toList := by
  rw [served_append]
  cases event <;> rfl

/-- Why a daemon ends that was given this signal while it was busy with this connection, or with none. -/
inductive Ends (reason : Shutdown) : Option Connection → Shutdown → Prop where
  | signal {current} : (∀ connection, current = some connection → ¬ Exits connection) →
      Ends reason current reason
  | exit {connection} : Exits connection → Ends reason (some connection) .exitCommand

/-- The way of a daemon after a signal, with what it was busy with and what it was done with since. -/
inductive Leaving (reason : Shutdown) (current : Option Connection) : List Connection → State → Prop where
  | busy {state} : state.ended = none → state.server.signal = some reason → state.current = current →
      Leaving reason current [] state
  | free {state connection} : state.ended = none → state.server.signal = some reason →
      state.current = none → current = some connection → ¬ Exits connection →
      Leaving reason current [connection] state
  | gone {state shutdown} : state.ended = some shutdown → Ends reason current shutdown →
      Leaving reason current current.toList state

/-- One event after a signal. No connection is taken up. -/
theorem Leaving.step {reason : Shutdown} {current : Option Connection} {done : List Connection}
    {state next : State} {event : Event} (leaving : Leaving reason current done state)
    (step : Step services state event next) :
    (∀ connection, event ≠ .takes connection) ∧
      Leaving reason current (done ++ event.served.toList) next := by
  cases step with
  | arrives | passes | changes =>
    refine ⟨nofun, ?_⟩
    change Leaving reason current (done ++ []) _
    rw [List.append_nil]
    cases leaving with
    | busy running signal busy => exact .busy running signal busy
    | free running signal free was going => exact .free running signal free was going
    | gone ended ends => exact .gone ended ends
  | takes running _ quiet =>
    cases leaving with
    | busy _ signal | free _ signal => cases quiet.symm.trans signal
    | gone ended => cases running.symm.trans ended
  | ticks running quiet =>
    cases leaving with
    | busy _ signal | free _ signal => cases quiet.symm.trans signal
    | gone ended => cases running.symm.trans ended
  | @finishes connection _ _ _ running taken attended continues =>
    refine ⟨nofun, ?_⟩
    cases leaving with
    | busy _ signal busy =>
      have kept := (attend_served attended continues).signal
      exact .free running (kept.trans signal) rfl (busy.symm.trans taken) (not_exits attended continues)
    | free _ _ free => cases taken.symm.trans free
    | gone ended => cases running.symm.trans ended
  | @exits connection _ _ running taken attended =>
    refine ⟨nofun, ?_⟩
    cases leaving with
    | busy _ _ busy =>
      obtain rfl := busy.symm.trans taken
      exact .gone rfl (.exit (attend_shutdown attended).1)
    | free _ _ free => cases taken.symm.trans free
    | gone ended => cases running.symm.trans ended
  | stops running free signal =>
    refine ⟨nofun, ?_⟩
    change Leaving reason current (done ++ []) _
    rw [List.append_nil]
    cases leaving with
    | busy _ given busy =>
      obtain rfl := busy.symm.trans free
      cases signal.symm.trans given
      exact .gone rfl (.signal nofun)
    | @free _ connection _ given _ was going =>
      cases signal.symm.trans given
      obtain rfl := was
      refine .gone rfl (.signal ?_)
      rintro other same
      cases same
      exact going
    | gone ended => cases running.symm.trans ended

theorem Runs.leaving {reason : Shutdown} {current : Option Connection} {start state : State}
    {trace : List Event} (runs : Runs services start trace state)
    (leaving : Leaving reason current [] start) :
    (∀ connection, .takes connection ∉ trace) ∧ Leaving reason current (served trace) state := by
  induction runs with
  | start => exact ⟨nofun, leaving⟩
  | @next trace event middle final _ step ih =>
    obtain ⟨none, leaving⟩ := ih
    obtain ⟨other, leaving⟩ := leaving.step step
    constructor
    · intro connection member
      rcases List.mem_append.mp member with member | last
      · exact none connection member
      · exact other connection (List.mem_singleton.mp last).symm
    · rw [served_next]
      exact leaving

/-- The daemon can always come to its end, and nothing else can come of it. -/
theorem Leaving.finally {reason : Shutdown} {current : Option Connection} {done : List Connection}
    {state : State} (services : Services) (leaving : Leaving reason current done state) :
    ∃ more final shutdown, Runs services state more final ∧ final.ended = some shutdown ∧
      Ends reason current shutdown := by
  have stopped {state : State} (running : state.ended = none) (free : state.current = none)
      (signal : state.server.signal = some reason) :
      Runs services state [.stops reason] { state with ended := some reason } :=
    Runs.start.next (.stops running free signal)
  cases leaving with
  | gone ended ends => exact ⟨[], state, _, .start, ended, ends⟩
  | free running signal free was going =>
    refine ⟨_, _, reason, stopped running free signal, rfl, .signal ?_⟩
    rintro other same
    cases was.symm.trans same
    exact going
  | busy running signal busy =>
    cases current with
    | none => exact ⟨_, _, reason, stopped running busy signal, rfl, .signal nofun⟩
    | some connection =>
      rcases attended : attend services state.now state.server state.workspace connection with
        ⟨service, server, workspace⟩
      by_cases shutdown : service = .shutdown
      · rw [shutdown] at attended
        exact ⟨_, _, .exitCommand, Runs.start.next (.exits running busy attended), rfl,
          .exit (attend_shutdown attended).1⟩
      · have going : ¬ Exits connection := by
          intro exits
          rw [attend_exits services _ _ _ exits] at attended
          exact shutdown (congrArg Prod.fst attended).symm
        have kept := (attend_served attended shutdown).signal
        refine ⟨_, _, reason, (Runs.start.next (.finishes running busy attended shutdown)).next
          (.stops running rfl (kept.trans signal)), rfl, .signal ?_⟩
        rintro other same
        cases same
        exact going

theorem Leaving.served_one {reason : Shutdown} {current : Option Connection} {done : List Connection}
    {state : State} (leaving : Leaving reason current done state) : done <+: current.toList := by
  cases leaving with
  | busy => exact List.nil_prefix
  | free _ _ _ was =>
    rw [was]
    exact List.prefix_rfl
  | gone => exact List.prefix_rfl

theorem Leaving.ended {reason shutdown : Shutdown} {current : Option Connection} {done : List Connection}
    {state : State} (leaving : Leaving reason current done state) (ended : state.ended = some shutdown) :
    Ends reason current shutdown := by
  cases leaving with
  | busy running | free running => cases running.symm.trans ended
  | gone other ends =>
    cases other.symm.trans ended
    exact ends

/-- The supervisor goes by the last command that completed, whatever else was connected, and signals the
first limit that it finds to be reached. After that, the daemon is done with no connection but the one
it was busy with, and ends for that reason, or for the exit that it was busy with. -/
theorem supervision_goes_by_use {start state : State} {trace : List Event} (fresh : Fresh start)
    (runs : Runs services start trace state) :
    (∀ front t signal back, trace = front ++ .ticks t signal :: back →
      ∃ last, (∀ other, LastUse services start.now front other ↔ other = last) ∧
        last ≤ t ∧ start.now ≤ t ∧
        signal =
          if start.server.limits.idle ≤ t - last then some .idleTimeout
          else if start.server.limits.runtime ≤ t - start.now then some .maxRuntime
          else none) ∧
    (∀ front t workspace connection back, trace = front ++ .finishes t workspace connection :: back →
      Fruitless services workspace connection → ∀ last, LastUse services start.now front last →
        LastUse services start.now (front ++ [.finishes t workspace connection]) last) ∧
    ∀ front t reason back, trace = front ++ .ticks t (some reason) :: back →
      ∃ signalled, Runs services start (front ++ [.ticks t (some reason)]) signalled ∧
        Runs services signalled back state ∧
        (∀ connection, .takes connection ∉ back) ∧ served back <+: signalled.current.toList ∧
        (∀ shutdown, state.ended = some shutdown → Ends reason signalled.current shutdown) ∧
        ∃ more final shutdown, Runs services state more final ∧ final.ended = some shutdown ∧
          Ends reason signalled.current shutdown := by
  refine ⟨?ticks, ?fruitless, ?signal⟩
  case ticks =>
    rintro front t signal back rfl
    obtain ⟨middle, first, rest⟩ := runs.cut
    obtain ⟨since, later, past, use⟩ := first.kept fresh
    rw [← List.singleton_append] at rest
    obtain ⟨next, step, _⟩ := rest.cut
    cases step.single with
    | ticks _ _ signal =>
      refine ⟨middle.server.lastCommand, ?_, past, later, ?_⟩
      · intro other
        exact ⟨fun found => found.unique use, fun same => same ▸ use⟩
      · rw [signal, since.limits, since.started, fresh.started]
        rfl
  case fruitless =>
    rintro front t workspace connection back - fruitless last use
    exact use.idle fruitless.not_completes
  case signal =>
    rintro front t reason back rfl
    rw [List.append_cons] at runs
    obtain ⟨signalled, first, rest⟩ := runs.cut
    obtain ⟨middle, _, step⟩ := first.cut
    have leaving : Leaving reason signalled.current [] signalled := by
      cases step.single with
      | ticks running => exact .busy running rfl rfl
    obtain ⟨none, leaving⟩ := rest.leaving leaving
    exact ⟨signalled, first, rest, none, leaving.served_one, fun _ => leaving.ended, leaving.finally services⟩

def idleDay : List Event :=
  [.passes 3000, .arrives (.sent "status\n".toUTF8), .takes (.sent "status\n".toUTF8),
    .finishes 3000 HookInvocations.recorded (.sent "status\n".toUTF8), .passes 86399999,
    .ticks 86402999 none, .arrives (.sent "reload\n".toUTF8), .takes (.sent "reload\n".toUTF8),
    .passes 1, .ticks 86403000 (some .idleTimeout),
    .finishes 86403000 HookInvocations.recorded (.sent "reload\n".toUTF8), .stops .idleTimeout]

def justListening : State where
  now := 0
  server := HookInvocations.listening
  workspace := HookInvocations.recorded

theorem supervision_goes_by_use_idleDay :
    ∃ state signalled, Runs (Config.standard ⟨"/repo"⟩ {}).services justListening idleDay state ∧
      (∃ last, (∀ other, LastUse (Config.standard ⟨"/repo"⟩ {}).services 0 (idleDay.take 9) other ↔
        other = last) ∧ 86400000 ≤ 86403000 - last) ∧
      Runs (Config.standard ⟨"/repo"⟩ {}).services justListening (idleDay.take 10) signalled ∧
      served (idleDay.drop 10) <+: signalled.current.toList ∧
      Ends .idleTimeout signalled.current .idleTimeout := by
  have status : asks (.sent "status\n".toUTF8) = some .status := by decide +kernel
  have unknown : asks (.sent "reload\n".toUTF8) = some (.unknown "reload") := by decide +kernel
  have fresh : Fresh justListening := ⟨rfl, rfl, rfl, rfl, rfl⟩
  have begun : Runs (Config.standard ⟨"/repo"⟩ {}).services justListening [] justListening := .start
  have used := (((begun.next (.passes 3000)).next (.arrives (.sent "status\n".toUTF8))).next
    (.takes rfl rfl rfl rfl)).next (.finishes rfl rfl (attend_asked _ _ _ _ status) nofun)
  have late := (((used.next (.passes 86399999)).next (.ticks rfl rfl rfl)).next
    (.arrives (.sent "reload\n".toUTF8))).next (.takes rfl rfl rfl rfl)
  have finished := (((late.next (.passes 1)).next (.ticks rfl rfl rfl)).next
    (.finishes rfl rfl (attend_asked _ _ _ _ unknown) nofun)).next (.stops rfl rfl rfl)
  obtain ⟨ticks, _, signal⟩ := supervision_goes_by_use fresh finished
  obtain ⟨last, use, _, _, reached⟩ :=
    ticks (idleDay.take 9) 86403000 (some .idleTimeout) (idleDay.drop 10) rfl
  obtain ⟨signalled, first, _, _, one, ended, _⟩ :=
    signal (idleDay.take 9) 86403000 .idleTimeout (idleDay.drop 10) rfl
  refine ⟨_, signalled, finished, ⟨last, use, ?_⟩, first, one, ended _ rfl⟩
  split at reached
  · assumption
  · split at reached <;> cases reached

/-! ### The daemons of a host -/

structure Rests (daemon : Server) (stand : Stand) (state : State) : Prop where
  since : Since daemon state.server
  stand : DaemonTurns.stand state.now state.server state.workspace = stand
  free : state.current = none
  alone : state.backlog = []
  runs : state.ended = none

theorem Rests.turn {daemon : Server} {before after : Stand} {state : State} {connection : Connection}
    {service : Service} (rests : Rests daemon before state) (quiet : before.signal = none)
    (going : ¬ Exits connection) (done : Done services daemon before connection service after) :
    ∃ trace next, Runs services state trace next ∧ served trace = [connection] ∧ Rests daemon after next := by
  obtain ⟨since, rfl, free, alone, running⟩ := rests
  obtain ⟨_, lastCommand, tasks, left, attended, continues, again⟩ :=
    attend_done services since going state.now state.workspace
  let taken : State := { state with current := some connection, backlog := [] }
  have takes : Step services { state with backlog := state.backlog ++ [connection] } (.takes connection) taken :=
    .takes running free quiet (by rw [alone]; rfl)
  have finishes : Step services taken (.finishes state.now state.workspace connection)
      { taken with
        server := { state.server with lastCommand, tasks }
        workspace := left
        current := none } :=
    .finishes running rfl attended continues
  refine ⟨_, _, ((Runs.start.next (.arrives connection)).next takes).next finishes, rfl, ?_⟩
  exact ⟨since.kept lastCommand tasks, (again.unique done).2, rfl, rfl, running⟩

theorem Runs.append {start middle final : State} {front back : List Event}
    (first : Runs services start front middle) (second : Runs services middle back final) :
    Runs services start (front ++ back) final := by
  induction second with
  | start => rwa [List.append_nil]
  | next _ step ih =>
    rw [← List.append_assoc]
    exact ih.next step

/-- What a daemon serves on a host, it serves in a run. -/
theorem serves_run {daemon : Server} {first last : Stand} {turns : List Turn} {state : State}
    (serves : Serves services daemon first turns last) (rests : Rests daemon first state) :
    ∃ trace final, Runs services state trace final ∧ served trace = turns.map Turn.connection ∧
      Rests daemon last final := by
  induction serves generalizing state with
  | none => exact ⟨[], state, .start, rfl, rests⟩
  | @wait start turns last later passes _ ih =>
    obtain ⟨since, rfl, free, alone, running⟩ := rests
    have passed : Step services state (.passes (later - state.now)) { state with now := later } := by
      have step : Step services state (.passes (later - state.now)) _ := .passes (later - state.now)
      have later : state.now + (later - state.now) = later := Nat.add_sub_cancel' passes
      rwa [later] at step
    have rests : Rests daemon (stand later state.server state.workspace) { state with now := later } :=
      ⟨since, rfl, free, alone, running⟩
    obtain ⟨trace, final, runs, order, rests⟩ := ih rests
    exact ⟨_, final, (Runs.start.next passed).append runs, order, rests⟩
  | @check start turns last quiet _ ih =>
    obtain ⟨since, rfl, free, alone, running⟩ := rests
    obtain ⟨signal, same⟩ : ∃ signal, signal =
        daemon.limits.expiry (state.now - state.server.lastCommand) (state.now - daemon.started) := ⟨_, rfl⟩
    have rests : Rests daemon { stand state.now state.server state.workspace with signal }
        { state with server := { state.server with signal } } :=
      ⟨since.trans ⟨rfl, rfl, rfl, rfl, rfl⟩, rfl, free, alone, running⟩
    have checked : Step services state (.ticks state.now signal)
        { state with server := { state.server with signal } } :=
      .ticks running quiet (by rw [same, since.limits, since.started])
    rw [same] at rests
    obtain ⟨trace, final, runs, order, rests⟩ := ih rests
    rw [same] at checked
    exact ⟨_, final, (Runs.start.next checked).append runs, order, rests⟩
  | @turn turn next turns last quiet going done _ ih =>
    obtain ⟨trace, middle, runs, one, rests⟩ := rests.turn quiet going done
    obtain ⟨more, final, others, order, rests⟩ := ih rests
    refine ⟨_, final, runs.append others, ?_, rests⟩
    rw [served_append, one, order]
    rfl

/-- Whatever happens on the host of a daemon is a run of it, with the same connections served, and the
daemon of the host ends as that of the run does. -/
theorem happenings_run {host : Host} {daemon : Server} (only : host.servers = [(services, daemon)])
    (free : Host.isFree daemon = true) (empty : daemon.queue = []) (happenings : List DaemonService.Happening) :
    ∃ trace final shutdown server left,
      Runs services { now := host.now, server := daemon, workspace := host.workspace } trace final ∧
      served trace <+: happenings.filterMap DaemonService.Happening.connection ∧
      final.ended = shutdown ∧ stand final.now final.server final.workspace = stand final.now server left ∧
      DaemonService.Shows services final.now (happenings.foldl (DaemonService.happen daemon.port) host)
        (shutdown, server, left) := by
  obtain ⟨waiting, signal⟩ : daemon.waiting = none ∧ daemon.signal = none := by
    simpa [Host.isFree] using free
  have since : Since daemon daemon := ⟨rfl, rfl, rfl, rfl, rfl⟩
  have settled : Settled host.now daemon :=
    ⟨fun _ => ⟨empty, signal⟩, fun deadline waits => by cases waiting.symm.trans waits⟩
  have begun : Course services daemon host.now (stand host.now daemon host.workspace) []
      (none, daemon, host.workspace) :=
    .serving .none ((pending_free waiting).trans empty).symm since settled
  obtain ⟨now, ⟨shutdown, server, left⟩, course, shows⟩ :=
    DaemonService.course_happenings begun ⟨rfl, only, rfl⟩ happenings
  have rests : Rests daemon (stand host.now daemon host.workspace)
      { now := host.now, server := daemon, workspace := host.workspace } := ⟨since, rfl, rfl, rfl, rfl⟩
  rw [List.nil_append] at course
  cases course with
  | serving serves order =>
    obtain ⟨trace, final, runs, turns, rests⟩ := serves_run serves rests
    obtain ⟨_, same, _, _, running⟩ := rests
    have time : final.now = now := congrArg Stand.now same
    rw [← time] at same shows
    refine ⟨trace, final, none, server, left, runs, ?_, running, same, shows⟩
    rw [turns, order]
    exact List.prefix_append _ _
  | @exited turns connection _ _ _ serves quiet exits _ order =>
    obtain ⟨trace, state, runs, turns_served, rests⟩ := serves_run serves rests
    obtain ⟨_, same, idle, alone, running⟩ := rests
    have time : state.now = now := congrArg Stand.now same
    have signal : state.server.signal = server.signal := congrArg Stand.signal same
    rw [← time] at same shows
    have taken : Step services { state with backlog := state.backlog ++ [connection] } (.takes connection)
        { state with current := some connection, backlog := [] } :=
      .takes running idle (signal.trans quiet) (by rw [alone]; rfl)
    have ended : Step services { state with current := some connection, backlog := [] } (.exits connection)
        { state with current := none, backlog := [], ended := some .exitCommand } :=
      .exits running rfl (attend_exits services _ _ _ exits)
    refine ⟨_, _, _, server, left, ((runs.next (.arrives connection)).next taken).next ended, ?_, rfl,
      same, shows⟩
    have whole : served (trace ++ [.arrives connection] ++ [.takes connection] ++ [.exits connection]) =
        turns.map Turn.connection ++ [connection] := by
      rw [served_next, served_next, served_next, turns_served]
      change turns.map Turn.connection ++ [] ++ [] ++ [connection] = _
      rw [List.append_nil, List.append_nil]
    rw [order, whole]
    exact List.prefix_append_right_inj _ |>.mpr (List.cons_prefix_cons.mpr ⟨rfl, List.nil_prefix⟩)
  | @expired turns _ reason _ _ serves reached order =>
    obtain ⟨trace, state, runs, turns_served, rests⟩ := serves_run serves rests
    obtain ⟨_, same, idle, alone, running⟩ := rests
    have time : state.now = now := congrArg Stand.now same
    have signal : state.server.signal = server.signal := congrArg Stand.signal same
    rw [← time] at same shows
    refine ⟨_, _, _, server, left, runs.next (.stops running idle (signal.trans reached)), ?_, rfl,
      same, shows⟩
    rw [order, served_append, turns_served]
    exact List.prefix_append_right_inj _ |>.mpr List.nil_prefix

end StagedFormat.Proofs.DaemonSupervision
