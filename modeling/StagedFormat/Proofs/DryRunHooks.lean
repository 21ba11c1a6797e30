import StagedFormat.Proofs.DryRuns
import StagedFormat.Proofs.HookInvocations

/-! Dry runs of the pre-commit hook. An invocation that works by itself writes nothing. The command for
a daemon has no place for the flag, so a daemon that answers formats the staged files. -/

namespace StagedFormat.Proofs.DryRunHooks
open StagedFormat Daemon CommandLine CommandTransmission DaemonAnswers HookInvocations DryRuns

/-- The invocation sends its command to a daemon, and that one answers. -/
structure Served (invocation : Invocation) (arguments : Arguments) (host asked : Host) (root : Path)
    (services : Services) (server : Server) : Prop where
  chosen : arguments.has .useDaemon = true
  sound : arguments.objection = none
  prepared : ∃ settings, Prepared invocation host root settings asked
  answering : Answering asked root services server

/-- What a daemon is asked for instead: a run over the files that arrive, which is no dry run. -/
def arrivingRequest (invocation : Invocation) (arguments : Arguments) (disk : Disk) : Request :=
  Server.hookRequest .preCommit
    (carried ((arguments.files.map (absolutize disk invocation.directory)).map Path.text)) false

variable {invocation : Invocation} {arguments : Arguments} {host asked : Host} {root : Path}

theorem toplevel_untouched (directory : Path) (host : Host) :
    Untouched host.workspace (toplevel directory host).2.workspace := by
  obtain ⟨answer, next, top, grows⟩ := toplevel_reads directory host
  rw [top]
  exact .of_grows grows

private theorem formatFiles_untouched (dry : arguments.has .dryRun = true) (resolver : Resolver) (host : Host) :
    Untouched host.workspace (ends host (formatFiles resolver arguments)).2.workspace := by
  have request : (ownRequest arguments).dryRun = true := dry
  obtain ⟨answer, characters, last, ran, untouched, _⟩ :=
    run_checks spacing resolver host.workspace (.inl request)
  rw [ends_formatFiles, ran]
  exact untouched

private theorem unserved_untouched (asks : Asks invocation arguments) (hook : IsHook arguments)
    (dry : arguments.has .dryRun = true)
    (unserved : ∀ asked root services server,
      ¬ Served invocation arguments host asked root services server) :
    Untouched host.workspace (run invocation host).2.workspace := by
  have topmost := toplevel_untouched invocation.directory host
  rw [run_host asks hook.plain host hook.sound]
  by_cases ready : ∃ root settings asked, Prepared invocation host root settings asked
  · obtain ⟨root, settings, asked, prepared⟩ := ready
    rw [prepared.top] at topmost
    obtain ⟨command, sent⟩ := hook.sends invocation asked
    rw [format_prepared hook prepared sent]
    by_cases chosen : arguments.has .useDaemon = true
    · have unanswered : ∀ services server, ¬ Answering asked root services server := by
        intro services server answering
        exact unserved asked root services server ⟨chosen, hook.sound, ⟨settings, prepared⟩, answering⟩
      have kept := delegate_unanswered unanswered command
      simp only [if_pos chosen]
      rcases delegated : ends asked (delegate root command) with ⟨answer, after⟩
      rw [delegated] at kept
      have ended : Untouched host.workspace after.workspace := by
        rw [kept]
        exact topmost
      -- Only if no daemon runs, the invocation goes on by itself.
      cases answer with
      | error failure => exact ended
      | ok result =>
        cases result with
        | some result => exact ended
        | none => exact ended.trans (formatFiles_untouched dry _ after)
    · simp only [if_neg chosen]
      exact topmost.trans (formatFiles_untouched dry _ asked)
  · have unprepared : ∀ root settings asked, ¬ Prepared invocation host root settings asked := by
      intro root settings asked prepared
      exact ready ⟨root, settings, asked, prepared⟩
    obtain ⟨failure, ended⟩ := format_unprepared hook.mode unprepared
    rw [ended]
    exact topmost

private theorem served_formats (asks : Asks invocation arguments) (hook : IsHook arguments)
    (preCommit : arguments.mode = .preCommit) {services : Services} {server : Server}
    (served : Served invocation arguments host asked root services server) :
    (run invocation host).2.workspace = (Pipeline.run services.format services.resolver asked.workspace
      (arrivingRequest invocation arguments asked.workspace.disk)).2.2 := by
  obtain ⟨settings, prepared⟩ := served.prepared
  have sent : hookCommand invocation arguments asked = some (.preCommit
      ((arguments.files.map (absolutize asked.workspace.disk invocation.directory)).map Path.text)) := by
    rw [hookCommand, preCommit]
    rfl
  obtain ⟨after, ran, workspace⟩ := run_served asks hook prepared served.chosen sent served.answering
    (received_preCommit _) rfl
  rw [ran, workspace]
  rfl

/-- A dry run of the pre-commit hook writes nothing unless a daemon answers. Then it leaves what the
daemon's run leaves, which writes. -/
theorem dryRun_hook_writes (asks : Asks invocation arguments)
    (plain : arguments.concernsDaemon = false) (preCommit : arguments.has .preCommit = true)
    (dry : arguments.has .dryRun = true) :
    (∀ asked root services server, Served invocation arguments host asked root services server →
      (run invocation host).2.workspace = (Pipeline.run services.format services.resolver
        asked.workspace (arrivingRequest invocation arguments asked.workspace.disk)).2.2) ∧
    ((∀ asked root services server, ¬ Served invocation arguments host asked root services server) →
      Untouched host.workspace (run invocation host).2.workspace) := by
  have mode : arguments.mode = .preCommit := if_pos preCommit
  have hookMode : arguments.mode ≠ .workingDirectory := by
    rw [mode]
    exact nofun
  constructor
  · intro asked root services server served
    exact served_formats asks ⟨plain, served.sound, hookMode⟩ mode served
  · intro unserved
    cases sound : arguments.objection with
    | none => exact unserved_untouched asks ⟨plain, sound, hookMode⟩ dry unserved
    | some message =>
      rw [run_rejects asks plain host sound]
      exact .refl host.workspace

def abandoned : Host := { workspace := recorded }

def dryCommit : Invocation where
  words := ["--pre-commit", "--dry-run", "--use-daemon"]
  directory := ⟨"/repo"⟩

def dryFlags : Arguments := { flags := [.useDaemon, .dryRun, .preCommit] }

private theorem dryCommit_asks : Asks dryCommit dryFlags := ⟨dryFlags, rfl, rfl⟩

private theorem running_serves : Served dryCommit dryFlags running (toplevel ⟨"/repo"⟩ running).2 ⟨"/repo"⟩
    (Config.standard ⟨"/repo"⟩ {}).services listening where
  chosen := rfl
  sound := rfl
  prepared := ⟨{}, rfl, rfl⟩
  answering := ⟨rfl, rfl, rfl⟩

theorem dryRun_hook_writes_staged :
    (run dryCommit running).2.workspace.repository.updates =
        [⟨"100644", Git.hexHash "a = 1".toUTF8, ⟨"A.kt"⟩⟩] ∧
      Untouched abandoned.workspace (run dryCommit abandoned).2.workspace := by
  constructor
  · rw [(dryRun_hook_writes dryCommit_asks rfl rfl rfl).1 _ _ _ _ running_serves]
    decide +kernel
  · apply (dryRun_hook_writes dryCommit_asks rfl rfl rfl).2
    intro asked root services server served
    obtain ⟨settings, prepared⟩ := served.prepared
    have listens := served.answering.listens
    cases prepared.top
    cases listens

/-- With a running daemon, a dry run of the hook stages a formatted file. -/
theorem daemon_formats_on_dryRun :
    ¬ ∀ (invocation : Invocation) (arguments : Arguments) (host : Host),
      Asks invocation arguments → arguments.concernsDaemon = false →
      arguments.has .preCommit = true → arguments.has .dryRun = true →
      (run invocation host).2.workspace.disk.entries = host.workspace.disk.entries ∧
        (run invocation host).2.workspace.repository.updates = host.workspace.repository.updates := by
  intro untouched
  have staged := (untouched dryCommit dryFlags running dryCommit_asks rfl rfl rfl).2
  have changes : (run dryCommit running).2.workspace.repository.updates ≠ [] := by decide +kernel
  exact changes staged

end StagedFormat.Proofs.DryRunHooks
