import StagedFormat.CommandLine.Run
import StagedFormat.Proofs.DaemonAnswers
import StagedFormat.Proofs.RepositoryEffects

/-! What the invocation of a hook does: it finds the root and the settings, lets a daemon work if it is
told to, and works by itself if it is not, or if no daemon runs. -/

namespace StagedFormat.Proofs.HookInvocations
open StagedFormat Git Daemon CommandLine RepositoryEffects CommandTransmission DaemonAnswers

section
variable {α β ε : Type} (host : Host)

/-- How a part of an invocation ends, and the host after it. -/
def ends (session : Session α) : Except Failure α × Host := session.run.run host

theorem ends_bind (first : Session α) (next : α → Session β) :
    ends host (first >>= next) =
      match ends host first with
      | (.ok value, after) => ends after (next value)
      | (.error failure, after) => (.error failure, after) := by
  simp only [ends, ExceptT.run_bind, StateT.run_bind]
  change Id.run _ = _
  cases first.run.run host with
  | mk answer after => cases answer <;> rfl

theorem ends_map (change : α → β) (session : Session α) :
    ends host (change <$> session) = ((ends host session).1.map change, (ends host session).2) := by
  simp only [ends, ExceptT.run_map, StateT.run_map]
  rfl

theorem ends_get : ends host (get : Session Host) = (.ok host, host) := by
  rw [ends]
  rfl

theorem ends_modifyGet (act : Host → α × Host) :
    ends host (modifyGet act : Session α) = (.ok (act host).1, (act host).2) := rfl

theorem ends_attempt (explain : ε → Failure) (act : Host → Except ε α × Host) :
    ends host (attempt explain act) = ((act host).1.mapError explain, (act host).2) := by
  rw [attempt, ends_bind, ends_modifyGet]
  cases (act host).1 <;> rfl

variable {host : Host} {explain : ε → Failure} {act : Host → Except ε α × Host} {after : Host}

theorem ends_attempt_ok {value : α} (done : act host = (.ok value, after)) :
    ends host (attempt explain act) = (.ok value, after) := by
  rw [ends_attempt, done]
  rfl

theorem ends_attempt_error {error : ε} (failed : act host = (.error error, after)) :
    ends host (attempt explain act) = (.error (explain error), after) := by
  rw [ends_attempt, failed]
  rfl

end

theorem toplevel_reads (directory : Path) (host : Host) :
    ∃ answer next, toplevel directory host =
        (answer, { host with workspace := { host.workspace with repository := next } }) ∧
      Grows host.workspace.repository next [] [] := by
  obtain ⟨answer, next, asked, grows⟩ :=
    gitText_reads host.workspace directory .showToplevel fun _ => rfl
  exact ⟨answer.map Path.mk, next, by rw [toplevel, onWorkspace, asked], grows⟩

theorem ends_repositoryRoot {directory root : Path} {host asked : Host}
    (top : toplevel directory host = (.ok root, asked)) :
    ends host (repositoryRoot directory) = (.ok root, asked) := ends_attempt_ok top

theorem ends_loadSettings {home root : Option Path} {settings : Settings} {host : Host}
    (loaded : Settings.load host.workspace.disk home root = .ok settings) :
    ends host (loadSettings home root) = (.ok settings, host) :=
  ends_attempt_ok (congrArg (·, host) loaded)

theorem ends_delegate (root : Path) (command : Daemon.Command) (host : Host) :
    ends host (delegate root command) =
      match Client.send Host.surroundings root command host with
      | (.ok reply, after) =>
        (.ok (some { status := reply.status.getD .failure, output := reportText reply.body }), after)
      | (.error (.notRunning _), after) => (.ok none, after)
      | (.error error, after) => (.error ⟨"daemon request failed", error.trace⟩, after) := by
  rw [delegate, ends_bind, ends_modifyGet]
  cases Client.send Host.surroundings root command host with
  | mk answer after =>
    cases answer with
    | ok reply => rfl
    | error error => cases error <;> rfl

/-- Without a daemon that answers, asking for one changes nothing. -/
theorem delegate_unanswered {root : Path} {host : Host}
    (unanswered : ∀ services server, ¬ Answering host root services server)
    (command : Daemon.Command) :
    (ends host (delegate root command)).2.workspace = host.workspace := by
  have kept := send_unanswered unanswered command
  rw [ends_delegate]
  rcases answered : Client.send Host.surroundings root command host with ⟨answer, after⟩
  rw [answered] at kept
  cases answer with
  | ok reply => exact kept
  | error error => cases error <;> exact kept

def ownRequest (arguments : Arguments) : Request where
  mode := arguments.mode
  files := arguments.files
  dryRun := arguments.has .dryRun
  collectCounts := arguments.has .statistics

def reported (arguments : Arguments) (report : Report) : Ended where
  status := report.exitStatus arguments.failsOnChange
  output := reportText report.output
  counts := report.counts

theorem ends_formatFiles (resolver : Resolver) (arguments : Arguments) (host : Host) :
    ends host (formatFiles resolver arguments) =
      let (report, _, workspace) := Pipeline.run spacing resolver host.workspace (ownRequest arguments)
      ((report.map (reported arguments)).mapError formattingFailure, { host with workspace }) := by
  rw [formatFiles, ends_bind, ends_attempt]
  rcases ran : Pipeline.run spacing resolver host.workspace (ownRequest arguments) with
    ⟨report, characters, next⟩
  unfold ownRequest at ran
  simp only [onWorkspace, ran]
  cases report <;> rfl

/-- What is understood of the words of an invocation. -/
def Asks (invocation : Invocation) (arguments : Arguments) : Prop :=
  ∃ words, Arguments.parse invocation.words = .ok words ∧
    arguments = withVariable words invocation.statistics

section
variable {invocation : Invocation} {arguments : Arguments} (asks : Asks invocation arguments)
  (plain : arguments.concernsDaemon = false) (host : Host)
include asks plain

theorem run_rejects {message : String} (objection : arguments.objection = some message) :
    run invocation host = (.ended (.rejected .badArguments message), host) := by
  obtain ⟨words, parsed, rfl⟩ := asks
  simp only [run, parsed, follow, plain, objection]
  rfl

theorem run_formats (sound : arguments.objection = none) :
    run invocation host =
      match ends host (format invocation arguments) with
      | (.ok ended, after) => (.ended ended, after)
      | (.error failure, after) => (.ended (.rejected .failure failure.message), after) := by
  obtain ⟨words, parsed, rfl⟩ := asks
  have formats : follow invocation (withVariable words invocation.statistics) =
      Outcome.ended <$> format invocation (withVariable words invocation.statistics) := by
    simp only [follow, plain, sound]
    rfl
  have ended := ends_map host Outcome.ended
    (format invocation (withVariable words invocation.statistics))
  rw [ends] at ended
  simp only [run, parsed, formats, ended]
  cases ends host (format invocation (withVariable words invocation.statistics)) with
  | mk answer after => cases answer <;> rfl

theorem run_host (sound : arguments.objection = none) :
    (run invocation host).2 = (ends host (format invocation arguments)).2 := by
  rw [run_formats asks plain host sound]
  rcases ends host (format invocation arguments) with ⟨answer, after⟩
  cases answer <;> rfl

end

structure IsHook (arguments : Arguments) : Prop where
  plain : arguments.concernsDaemon = false
  sound : arguments.objection = none
  mode : arguments.mode ≠ .workingDirectory

theorem IsHook.chosen {arguments : Arguments} (hook : IsHook arguments) :
    (arguments.has .preCommit || arguments.has .prePush) = true := by
  have mode := hook.mode
  unfold Arguments.mode at mode
  split at mode
  · rename_i preCommit
    rw [preCommit, Bool.true_or]
  · split at mode
    · rename_i prePush
      rw [prePush, Bool.or_true]
    · exact (mode rfl).elim

theorem IsHook.files {arguments : Arguments} (hook : IsHook arguments) : arguments.isStream = false := by
  rw [Bool.eq_false_iff]
  intro stream
  have sound := hook.sound
  simp only [Arguments.objection, hook.chosen, stream] at sound
  split at sound
  · cases sound
  · split at sound <;> cases sound

theorem IsHook.exclusive {arguments : Arguments} (hook : IsHook arguments)
    (preCommit : arguments.has .preCommit = true) : arguments.has .prePush = false := by
  rw [Bool.eq_false_iff]
  intro prePush
  have sound := hook.sound
  simp only [Arguments.objection, preCommit, prePush] at sound
  cases sound

/-- What an invocation finds before it formats anything. -/
structure Prepared (invocation : Invocation) (host : Host) (root : Path) (settings : Settings)
    (asked : Host) : Prop where
  top : toplevel invocation.directory host = (.ok root, asked)
  loaded : Settings.load asked.workspace.disk invocation.home (some root) = .ok settings

def hookCommand (invocation : Invocation) (arguments : Arguments) (host : Host) : Option Daemon.Command :=
  daemonCommand arguments.mode
    (arguments.files.map (absolutize host.workspace.disk invocation.directory))

theorem IsHook.sends {arguments : Arguments} (hook : IsHook arguments) (invocation : Invocation)
    (host : Host) : ∃ command, hookCommand invocation arguments host = some command := by
  unfold hookCommand
  cases mode : arguments.mode with
  | workingDirectory => exact (hook.mode mode).elim
  | preCommit => exact ⟨_, rfl⟩
  | prePush commit => exact ⟨_, rfl⟩

section
variable {invocation : Invocation} {arguments : Arguments} {host asked : Host} {root : Path}
  {settings : Settings}

theorem format_prepared (hook : IsHook arguments) {command : Daemon.Command}
    (prepared : Prepared invocation host root settings asked)
    (sent : hookCommand invocation arguments asked = some command) :
    ends host (format invocation arguments) =
      let alone := formatFiles { settings, directory := invocation.directory } arguments
      if arguments.has .useDaemon then
        match ends asked (delegate root command) with
        | (.ok (some ended), after) => (.ok ended, after)
        | (.ok none, after) => ends after alone
        | (.error failure, after) => (.error failure, after)
      else ends asked alone := by
  unfold hookCommand at sent
  unfold format
  simp only [if_neg hook.mode, ends_bind, ends_map, ends_repositoryRoot prepared.top,
    ends_loadSettings prepared.loaded, Except.map, ends_get, sent, hook.files]
  cases arguments.has .useDaemon with
  | false => rfl
  | true =>
    simp only [if_true, ends_bind]
    cases ends asked (delegate root command) with
    | mk answer after =>
      cases answer with
      | error failure => rfl
      | ok delegated => cases delegated <;> rfl

theorem format_unprepared (mode : arguments.mode ≠ .workingDirectory)
    (unprepared : ∀ root settings asked, ¬ Prepared invocation host root settings asked) :
    ∃ failure, ends host (format invocation arguments) =
      (.error failure, (toplevel invocation.directory host).2) := by
  unfold format
  rcases top : toplevel invocation.directory host with ⟨answer, asked⟩
  cases answer with
  | error fault =>
    simp only [if_neg mode, ends_bind, ends_map, repositoryRoot, ends_attempt_error top]
    exact ⟨_, rfl⟩
  | ok root =>
    cases loaded : Settings.load asked.workspace.disk invocation.home (some root) with
    | ok settings => exact (unprepared root settings asked ⟨top, loaded⟩).elim
    | error fault =>
      simp only [if_neg mode, ends_bind, ends_map, ends_repositoryRoot top, Except.map, loadSettings,
        ends_attempt, loaded]
      exact ⟨_, rfl⟩

section
variable (asks : Asks invocation arguments) (hook : IsHook arguments)
  (prepared : Prepared invocation host root settings asked)
include asks hook prepared

/-- A hook that a daemon answers prints what the daemon's run came to. -/
theorem run_served {services : Services} {server : Server} {sent command : Daemon.Command}
    {request : Request} {failOnChange : Bool} (chosen : arguments.has .useDaemon = true)
    (sends : hookCommand invocation arguments asked = some sent)
    (answering : Answering asked root services server)
    (arrives : received sent = some command) (works : work command = some (request, failOnChange)) :
    ∃ after, run invocation host =
        (.ended {
          status := (Server.replyOf failOnChange (server.tasks + 1)
            (Pipeline.run services.format services.resolver asked.workspace request).1).status.getD .failure
          output := reportText (Server.replyOf failOnChange (server.tasks + 1)
            (Pipeline.run services.format services.resolver asked.workspace request).1).body }, after) ∧
      after.workspace = (Pipeline.run services.format services.resolver asked.workspace request).2.2 := by
  obtain ⟨after, answered, workspace⟩ := send_answered answering arrives works
  refine ⟨after, ?_, workspace⟩
  rw [run_formats asks hook.plain host hook.sound, format_prepared hook prepared sends]
  simp only [chosen, if_true, ends_delegate, answered]

end

end

def recorded : Workspace where
  disk := {
    entries := [(["repo"], .directory), (["repo", "A.kt"], .file 0 0o644 "a=1".toUTF8),
      (["repo", "src"], .directory), (["repo", ".stagefmt"], .directory),
      (["repo", ".stagefmt", "daemon.lock"], .file 1 0o644 "1 40000".toUTF8)]
    fresh := 2 }
  repository := {
    root := ⟨"/repo"⟩
    access := .process
    status := "1 A. N... 000000 100644 100644 0000 beef A.kt\x00".toUTF8
    objects := [("beef", "a=1".toUTF8)] }

def listening : Server where
  version := 1
  port := 40000
  limits := .ofSettings {}
  lock := { path := lockPath ⟨"/repo"⟩, file := some 1 }
  startedAt := ""
  started := 0
  lastCommand := 0
  nextCheck := 60000

def running : Host where
  workspace := recorded
  servers := [((Config.standard ⟨"/repo"⟩ {}).services, listening)]

end StagedFormat.Proofs.HookInvocations
