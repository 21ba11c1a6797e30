import StagedFormat.Proofs.DaemonSupervision

/-! A daemon that was asked to exit. It gets to the request after what came before, whoever else connects
and whatever the supervisor finds. -/

namespace StagedFormat.Proofs.DaemonDeparture
open StagedFormat Daemon DaemonTurns DaemonSupervision

def pending (daemon : State) : List Connection := daemon.current.toList ++ daemon.backlog

private theorem pending_free {daemon : State} (free : daemon.current = none) : pending daemon = daemon.backlog := by
  rw [pending, free]
  rfl

private theorem pending_taken {daemon : State} {connection : Connection} (taken : daemon.current = some connection) :
    pending daemon = connection :: daemon.backlog := by
  rw [pending, taken]
  rfl

private theorem pending_arrives (daemon : State) (connection : Connection) :
    pending { daemon with backlog := daemon.backlog ++ [connection] } = pending daemon ++ [connection] :=
  (List.append_assoc ..).symm

/-- A daemon has ended, or has a connection that makes it exit. -/
def Leaves (daemon : State) : Prop :=
  daemon.ended ≠ none ∨ ∃ connection ∈ pending daemon, Exits connection

theorem Leaves.step {services : Services} {daemon next : State} {event : Event} (leaves : Leaves daemon)
    (step : Step services daemon event next) : Leaves next := by
  cases step with
  | arrives connection =>
    refine leaves.imp_right ?_
    rintro ⟨other, waits, exits⟩
    exact ⟨other, by rw [pending_arrives]; exact List.mem_append_left _ waits, exits⟩
  | passes | changes | ticks => exact leaves
  | exits | stops => exact .inl nofun
  | takes _ free _ first =>
    refine leaves.imp_right ?_
    rintro ⟨other, waits, exits⟩
    rw [pending_free free, first] at waits
    exact ⟨other, waits, exits⟩
  | finishes running taken attended continues =>
    rcases leaves with ended | ⟨other, waits, exits⟩
    · exact absurd running ended
    · rw [pending_taken taken] at waits
      refine .inr ⟨other, (List.mem_cons.mp waits).resolve_left ?_, exits⟩
      rintro rfl
      exact not_exits attended continues exits

def recordOf (server : Server) : Record := { version := server.version, port := server.port }

theorem step_record {services : Services} {daemon next : State} {event : Event}
    (step : Step services daemon event next) :
    daemon.now ≤ next.now ∧ recordOf next.server = recordOf daemon.server := by
  cases step with
  | arrives | changes | takes | ticks | stops => exact ⟨Nat.le_refl _, rfl⟩
  | passes => exact ⟨Nat.le_add_right _ _, rfl⟩
  | exits _ _ attended =>
    obtain ⟨_, rfl, rfl⟩ := attend_shutdown attended
    exact ⟨Nat.le_refl _, rfl⟩
  | finishes _ _ attended continues =>
    obtain ⟨_, _, _, _, same, _⟩ :=
      attend_done services ⟨rfl, rfl, rfl, rfl, rfl⟩ (not_exits attended continues) daemon.now daemon.workspace
    rw [same] at attended
    cases attended
    exact ⟨Nat.le_refl _, rfl⟩

def exitRequest : Connection := .sent (Client.request .exit)

theorem exitRequest_exits : Exits exitRequest := exits_iff.mpr (by decide +kernel)

/-- A daemon that will not stay: as long as it runs it is done with fewer connections than wait for it now,
and it can end whatever happens meanwhile. -/
structure Departing (services : Services) (daemon : State) : Prop where
  soon : ∀ trace later, Runs services daemon trace later → later.ended = none →
    (served trace).length < (pending daemon).length
  ends : ∀ trace later, Runs services daemon trace later →
    ∃ more final, Runs services later more final ∧ final.ended ≠ none

section
variable {services : Services} {daemon final : State} {trace : List Event}

/-- A daemon that has not ended was done with connections in their order, and none of them was an exit. -/
theorem served_pending (runs : Runs services daemon trace final) (running : final.ended = none) :
    daemon.ended = none ∧ (∀ connection ∈ served trace, ¬ Exits connection) ∧
      ∃ arrived, pending daemon ++ arrived = served trace ++ pending final := by
  induction runs with
  | start => exact ⟨running, nofun, [], List.append_nil _⟩
  | @next trace event middle final runs step ih =>
    rw [served_next]
    cases step with
    | arrives connection =>
      obtain ⟨before, going, arrived, same⟩ := ih running
      refine ⟨before, by simpa [Event.served] using going, arrived ++ [connection], ?_⟩
      rw [pending_arrives, ← List.append_assoc, same]
      simp [Event.served]
    | passes | changes | ticks =>
      obtain ⟨before, going, order⟩ := ih running
      exact ⟨before, by simpa [Event.served] using going,
        by simpa [Event.served, pending] using order⟩
    | takes _ free _ first =>
      obtain ⟨before, going, arrived, same⟩ := ih running
      refine ⟨before, by simpa [Event.served] using going, arrived, ?_⟩
      rw [same, pending_free free, first]
      simp [Event.served, pending]
    | @finishes connection service server workspace alive taken attended continues =>
      obtain ⟨before, going, arrived, same⟩ := ih alive
      refine ⟨before, ?_, arrived, ?_⟩
      · intro other member
        rcases List.mem_append.mp member with member | here
        · exact going other member
        · rw [List.mem_singleton.mp here]
          exact not_exits attended continues
      · rw [same, pending_taken taken]
        simp [Event.served, pending]
    | exits | stops => cases running

private theorem taken_ends (running : daemon.ended = none) {connection : Connection}
    (taken : daemon.current = some connection) :
    ∃ trace next, Runs services daemon trace next ∧
      (next.ended ≠ none ∨
        next.ended = none ∧ next.current = none ∧ next.backlog = daemon.backlog ∧ ¬ Exits connection) := by
  rcases served : attend services daemon.now daemon.server daemon.workspace connection with
    ⟨service, server, workspace⟩
  by_cases shuts : service = .shutdown
  · subst shuts
    exact ⟨_, _, Runs.start.next (.exits running taken served), .inl nofun⟩
  · refine ⟨_, _, Runs.start.next (.finishes running taken served shuts), .inr ?_⟩
    exact ⟨running, rfl, rfl, not_exits served shuts⟩

/-- A daemon that is busy with no connection ends once it gets to an exit. -/
theorem backlog_ends {backlog : List Connection} (waits : daemon.backlog = backlog) (running : daemon.ended = none)
    (free : daemon.current = none) (leaves : ∃ connection ∈ backlog, Exits connection) :
    ∃ trace final, Runs services daemon trace final ∧ final.ended ≠ none := by
  induction backlog generalizing daemon with
  | nil =>
    obtain ⟨_, member, _⟩ := leaves
    cases member
  | cons connection backlog ih =>
    cases signal : daemon.server.signal with
    | some reason => exact ⟨_, _, Runs.start.next (.stops running free signal), nofun⟩
    | none =>
      have takes : Step services daemon (.takes connection) { daemon with current := some connection, backlog } :=
        .takes running free signal waits
      obtain ⟨first, next, runs, ended | ⟨alive, idle, left, going⟩⟩ :=
        @taken_ends services { daemon with current := some connection, backlog } running connection rfl
      · exact ⟨_, _, (Runs.start.next takes).append runs, ended⟩
      · obtain ⟨other, member, exits⟩ := leaves
        have later : other ∈ backlog := by
          rcases List.mem_cons.mp member with rfl | later
          · exact absurd exits going
          · exact later
        obtain ⟨rest, final, more, ended⟩ := ih left alive idle ⟨other, later, exits⟩
        exact ⟨_, _, ((Runs.start.next takes).append runs).append more, ended⟩

theorem Leaves.ends (services : Services) (leaves : Leaves daemon) :
    ∃ trace final, Runs services daemon trace final ∧ final.ended ≠ none := by
  by_cases running : daemon.ended = none
  · obtain ⟨connection, member, exits⟩ := leaves.resolve_left (not_not_intro running)
    cases taken : daemon.current with
    | none =>
      rw [pending_free taken] at member
      exact backlog_ends rfl running taken ⟨connection, member, exits⟩
    | some first =>
      rw [pending_taken taken] at member
      obtain ⟨trace, next, runs, ended | ⟨alive, idle, left, going⟩⟩ :=
        @taken_ends services daemon running first taken
      · exact ⟨trace, next, runs, ended⟩
      · have later : connection ∈ daemon.backlog := by
          rcases List.mem_cons.mp member with rfl | later
          · exact absurd exits going
          · exact later
        obtain ⟨rest, final, more, ended⟩ := backlog_ends left alive idle ⟨connection, later, exits⟩
        exact ⟨_, _, runs.append more, ended⟩
  · exact ⟨[], daemon, .start, running⟩

theorem Leaves.runs (leaves : Leaves daemon) (runs : Runs services daemon trace final) : Leaves final := by
  induction runs with
  | start => exact leaves
  | next _ step ih => exact ih.step step

theorem Leaves.departing (services : Services) (leaves : Leaves daemon) : Departing services daemon := by
  constructor
  case soon =>
    intro trace later runs running
    obtain ⟨before, going, arrived, same⟩ := served_pending runs running
    rcases leaves with ended | ⟨connection, member, exits⟩
    · exact absurd before ended
    · by_contra enough
      obtain ⟨more, served⟩ : pending daemon <+: served trace :=
        List.prefix_of_prefix_length_le ⟨arrived, same⟩ (List.prefix_append _ _) (Nat.le_of_not_lt enough)
      exact going connection (served ▸ List.mem_append_left _ member) exits
  case ends =>
    intro trace later runs
    exact (leaves.runs runs).ends services

end

end StagedFormat.Proofs.DaemonDeparture
