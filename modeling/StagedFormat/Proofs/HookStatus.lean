import StagedFormat.Proofs.HookFallback
import StagedFormat.Proofs.ResultOrder

/-! The exit status of the pre-commit hook that fails on changes. An invocation that formats by itself tells
failures and changes apart. The command for a daemon has no place for the flag, so a daemon tells failures
only. -/

namespace StagedFormat.Proofs.HookStatus
open StagedFormat Daemon CommandLine CommandTransmission DaemonAnswers HookInvocations CalmRuns DryRunHooks
open DaemonRoute HookFallback ResultOrder

private theorem statusOf_lenient {results : List Result} :
    statusOf false results = statusOf true results ↔
      results.any Result.isError = true ∨ results.any Result.isChange = false := by
  simp only [statusOf, ← List.any_eq_true]
  cases results.any Result.isError <;> cases results.any Result.isChange <;> decide

section
variable {invocation : Invocation} {arguments : Arguments} {host asked : Host} {root : Path}

/-- An invocation that formats by itself tells failures and changes. -/
theorem undelegated_status (asks : Asks invocation arguments) (hook : IsHook arguments) {settings : Settings}
    (prepared : Prepared invocation host root settings asked) (strict : arguments.failsOnChange = true)
    (calm : Calm asked.workspace) (undelegated : arguments.has .useDaemon = false ∨ Absent asked root)
    {scope : Scope} {next : Workspace}
    (resolved : Pipeline.resolve { settings, directory := invocation.directory } asked.workspace
      (ownRequest arguments) = (.ok scope, next)) :
    ∃ results characters after ended, Pipeline.dispatch spacing next scope = (.ok results, characters, after) ∧
      run invocation host = (.ended ended, { asked with workspace := after }) ∧
      ended.status = statusOf true results := by
  obtain ⟨results, characters, after, dispatched, outcome⟩ := ownOutcome_reports calm resolved
  refine ⟨results, characters, after, _, dispatched,
    (run_undelegated asks hook prepared undelegated).trans outcome, ?_⟩
  rw [reported, strict]
  exact exitStatus_render results arguments.mode.isPrePush true

/-- A daemon that answers tells failures only, whatever the flags of the invocation. -/
theorem delegated_status (asks : Asks invocation arguments) (hook : IsHook arguments)
    (preCommit : arguments.mode = .preCommit) {services : Services} {server : Server}
    (served : Served invocation arguments host asked root services server) (calm : Calm asked.workspace)
    {scope : Scope} {next : Workspace}
    (resolved : Pipeline.resolve services.resolver asked.workspace
      (arrivingRequest invocation arguments asked.workspace.disk) = (.ok scope, next)) :
    ∃ results characters last ended after,
      Pipeline.dispatch services.format next scope = (.ok results, characters, last) ∧
      run invocation host = (.ended ended, after) ∧ after.workspace = last ∧
      ended.status = statusOf false results := by
  obtain ⟨settings, prepared⟩ := served.prepared
  have sent : hookCommand invocation arguments asked = some (.preCommit
      ((arguments.files.map (absolutize asked.workspace.disk invocation.directory)).map Path.text)) := by
    rw [hookCommand, preCommit]
    rfl
  obtain ⟨results, characters, last, dispatched, ran⟩ := run_results calm services.format resolved
  obtain ⟨after, told, workspace⟩ := run_served asks hook prepared served.chosen sent served.answering
    (received_preCommit _) rfl
  refine ⟨results, characters, last, _, after, dispatched, told, ?_, ?_⟩
  · rw [workspace]
    exact congrArg (fun run => run.2.2) ran
  · have reply := congrArg (fun run => (Server.replyOf false (server.tasks + 1) run.1).status.getD .failure) ran
    refine Eq.trans reply ?_
    simp only [Server.replyOf, status_of]
    exact exitStatus_render results _ false

end

/-- The status of the pre-commit hook that fails on changes. Without a daemon, a failure comes first and then
a change. A daemon that answers does not know of the flag, so its status is the right one only if a target
failed or none changed. -/
theorem strict_hook_status {invocation : Invocation} {arguments : Arguments}
    (asks : Asks invocation arguments) (plain : arguments.concernsDaemon = false)
    (sound : arguments.objection = none) (preCommit : arguments.has .preCommit = true)
    (strict : arguments.has .failOnChange = true) {host asked : Host} {root : Path} {settings : Settings}
    (prepared : Prepared invocation host root settings asked) (calm : Calm host.workspace) :
    (arguments.has .useDaemon = false ∨ Absent asked root → ∀ scope next,
      Pipeline.resolve { settings, directory := invocation.directory } asked.workspace (ownRequest arguments) =
        (.ok scope, next) →
      ∃ results characters after ended, Pipeline.dispatch spacing next scope = (.ok results, characters, after) ∧
        run invocation host = (.ended ended, { asked with workspace := after }) ∧
        ended.status = statusOf true results) ∧
    (arguments.has .useDaemon = true → ∀ services server, Answering asked root services server → ∀ scope next,
      Pipeline.resolve services.resolver asked.workspace
        (arrivingRequest invocation arguments asked.workspace.disk) = (.ok scope, next) →
      ∃ results characters last ended after,
        Pipeline.dispatch services.format next scope = (.ok results, characters, last) ∧
        run invocation host = (.ended ended, after) ∧ after.workspace = last ∧
        (ended.status = statusOf true results ↔
          results.any Result.isError = true ∨ results.any Result.isChange = false) ∧
        (results.any Result.isError = false → ended.status = .success)) ∧
    (arguments.has .useDaemon = true → ¬ Absent asked root → Unanswered asked root →
      ∃ ended, run invocation host = (.ended ended, asked) ∧ ended.status = .failure) := by
  have mode : arguments.mode = .preCommit := if_pos preCommit
  have hook : IsHook arguments := ⟨plain, sound, mode ▸ nofun⟩
  have quiet : Calm asked.workspace := by
    have untouched := toplevel_untouched invocation.directory host
    rw [prepared.top] at untouched
    exact untouched_calm untouched calm
  refine ⟨?_, ?_, ?_⟩
  · intro undelegated scope next resolved
    have fails : arguments.failsOnChange = true := by rw [Arguments.failsOnChange, strict, Bool.true_or]
    exact undelegated_status asks hook prepared fails quiet undelegated resolved
  · intro chosen services server answering scope next resolved
    obtain ⟨results, characters, last, ended, after, dispatched, told, workspace, status⟩ :=
      delegated_status asks hook mode ⟨chosen, sound, ⟨settings, prepared⟩, answering⟩ quiet resolved
    refine ⟨results, characters, last, ended, after, dispatched, told, workspace, ?_, fun clean => ?_⟩
    · rw [status, statusOf_lenient]
    · simp [status, statusOf, ← List.any_eq_true, clean]
  · intro chosen present unanswered
    obtain ⟨message, failed⟩ := run_stranded asks hook prepared chosen present unanswered
    exact ⟨_, failed, rfl⟩

def strictCommit : Invocation where
  words := ["--pre-commit", "--set-exit-if-changed"]
  directory := ⟨"/repo"⟩

def strictThroughDaemon : Invocation := delegated strictCommit

def strictFlags : Arguments := { flags := [.failOnChange, .preCommit] }

/-- With and without the running daemon, the hook formats one file. -/
theorem strict_hook_status_running :
    (∃ ended after, run strictCommit running = (.ended ended, after) ∧ ended.status = .fileChanged) ∧
      ∃ ended after, run strictThroughDaemon running = (.ended ended, after) ∧ ended.status = .success := by
  have here : Prepared strictCommit running ⟨"/repo"⟩ {} (toplevel ⟨"/repo"⟩ running).2 := ⟨rfl, rfl⟩
  have there : Prepared strictThroughDaemon running ⟨"/repo"⟩ {} (toplevel ⟨"/repo"⟩ running).2 := ⟨rfl, rfl⟩
  constructor
  · obtain ⟨results, characters, after, ended, dispatched, ran, status⟩ :=
      (strict_hook_status ⟨strictFlags, rfl, rfl⟩ rfl rfl rfl rfl here (fun _ => rfl)).1 (.inl rfl) _ _ rfl
    have told := congrArg (fun outcome => outcome.1.map (statusOf true)) dispatched
    exact ⟨ended, _, ran, status.trans (Except.ok.inj (told.symm.trans (by decide +kernel)))⟩
  · obtain ⟨results, characters, last, ended, after, dispatched, ran, _, _, clean⟩ :=
      (strict_hook_status ⟨{ strictFlags with flags := [.failOnChange, .preCommit, .useDaemon] }, rfl, rfl⟩
        rfl rfl rfl rfl there (fun _ => rfl)).2.1 rfl _ listening ⟨rfl, rfl, rfl⟩ _ _ rfl
    have told := congrArg (fun outcome => outcome.1.map (List.any · Result.isError)) dispatched
    exact ⟨ended, after, ran, clean (Except.ok.inj (told.symm.trans (by decide +kernel)))⟩

/-- The same change ends the hook with another status when a daemon makes it. -/
theorem daemon_hides_change :
    (run strictCommit running).1 = .ended { status := .fileChanged, output := "✅ Formatted A.kt\n" } ∧
      (run strictThroughDaemon running).1 = .ended { status := .success, output := "✅ Formatted A.kt\n" } := by
  constructor <;> decide +kernel

end StagedFormat.Proofs.HookStatus
