import StagedFormat.Proofs.DryRuns

/-! Runs over a repository in which no command crashes. Whatever fails on the way, a scope that was
resolved is reported on. -/

namespace StagedFormat.Proofs.CalmRuns
open StagedFormat Git RepositoryEffects DryRuns

/-- No update of the index crashes. One that is a process of its own can fail, but not do that. -/
def Calm (workspace : Workspace) : Prop := ∀ attempt, workspace.repository.crashes attempt = none

theorem untouched_calm {before after : Workspace} (untouched : Untouched before after)
    (calm : Calm before) : Calm after := by
  obtain ⟨attempts, same⟩ := untouched.repository
  rw [Calm, same]
  exact calm

structure Steady (outcome : Except WriteFault Unit × Workspace) : Prop where
  answer : ∀ message, outcome.1 ≠ .error (.crashed message)
  calm : Calm outcome.2

private theorem run_crashes (repository : Repository) (disk : Disk) (directory : Path) (command : Command) :
    (repository.run disk directory command).2.crashes = repository.crashes := by
  rcases run_cases repository disk directory command with
    ⟨fault, failed, _, grows⟩ | ⟨output, attempts, answered, done⟩
  · obtain ⟨_, same⟩ := grows
    rw [same]
  · rw [done]
    cases command <;> rfl

section
variable {workspace : Workspace} (calm : Calm workspace)
include calm

private theorem git_calm (directory : Path) (command : Command) : Calm (workspace.git directory command).2 := by
  intro attempt
  rw [← calm attempt]
  exact congrFun (run_crashes workspace.repository workspace.disk directory command) attempt

private theorem gitText_calm (directory : Path) (command : Command) :
    Calm (workspace.gitText directory command).2 := git_calm calm directory command

private theorem updateIndex_steady (root : Path) (mode hash : String) (path : Path) :
    Steady (workspace.updateIndex root mode hash path) := by
  unfold Workspace.updateIndex
  split
  · exact ⟨nofun, calm⟩
  · rw [calm]
    simp only
    have later := git_calm calm root (.updateIndex mode hash path)
    rcases asked : workspace.git root (.updateIndex mode hash path) with ⟨answer, next⟩
    rw [asked] at later
    cases answer with
    | ok output => exact ⟨nofun, later⟩
    | error fault => exact ⟨nofun, later⟩

private theorem stage_steady (root path : Path) (mode content : String) :
    Steady (workspace.stage root path mode content) := by
  unfold Workspace.stage
  have later := gitText_calm calm root (.writeBlob content.toUTF8)
  rcases asked : workspace.gitText root (.writeBlob content.toUTF8) with ⟨answer, next⟩
  rw [asked] at later
  cases answer with
  | error fault => exact ⟨nofun, later⟩
  | ok hash => exact updateIndex_steady later root mode hash path

private theorem writeFile_steady (working : WorkingFile) (content : String) :
    Steady (Target.writeFile workspace working content) := by
  refine ⟨?_, calm⟩
  intro message
  unfold Target.writeFile
  rcases working.write workspace.disk content with ⟨answer, disk⟩
  cases answer <;> exact nofun

private theorem onStream_calm {α : Type} (slot : Nat) (act : Stream → Except TargetError α × Stream) :
    Calm (Target.onStream workspace slot act).2 := by
  unfold Target.onStream
  split <;> exact calm

private theorem write_steady (target : Target) (content : String) : Steady (target.write workspace content) := by
  cases target with
  | file working => exact writeFile_steady calm working content
  | blob staged => exact stage_steady calm staged.root staged.path staged.mode content
  | pair staged working =>
    have file := writeFile_steady calm working content
    rw [Target.write]
    rcases written : Target.writeFile workspace working content with ⟨answer, next⟩
    rw [written] at file
    cases answer with
    | error fault => exact file
    | ok done => exact stage_steady file.calm staged.root staged.path staged.mode content
  | stream slot =>
    have later := onStream_calm calm slot (·.write content)
    refine ⟨?_, later⟩
    intro message
    rw [Target.write]
    rcases Target.onStream workspace slot (·.write content) with ⟨answer, next⟩
    cases answer <;> exact nofun

private theorem settle_calm (format : Formatter) (dryRun : Bool) (target : Target) (content : String) :
    ∃ result next, Pipeline.settle format dryRun workspace target content = (.ok result, next) ∧
      Calm next := by
  unfold Pipeline.settle
  cases format content with
  | rejected error => exact ⟨_, workspace, rfl, calm⟩
  | crashed message => exact ⟨_, workspace, rfl, calm⟩
  | text formatted =>
    simp only
    split
    · exact ⟨_, workspace, rfl, calm⟩
    · split
      · exact ⟨_, workspace, rfl, calm⟩
      · have steady := write_steady calm target formatted
        unfold Pipeline.writeBack
        rcases written : target.write workspace formatted with ⟨answer, next⟩
        rw [written] at steady
        cases answer with
        | ok done => exact ⟨_, next, rfl, steady.calm⟩
        | error fault =>
          cases fault with
          | failed error => exact ⟨_, next, rfl, steady.calm⟩
          | crashed message => exact (steady.answer message rfl).elim

theorem formatTarget_calm (format : Formatter) (dryRun : Bool) (target : Target) :
    ∃ result characters next, Pipeline.formatTarget format dryRun workspace target =
        ({ result := .ok result, characters }, next) ∧ Calm next := by
  have later := untouched_calm (read_untouched workspace target) calm
  unfold Pipeline.formatTarget
  rcases read : target.read workspace with ⟨answer, next⟩
  rw [read] at later
  cases answer with
  | error error => exact ⟨_, _, next, rfl, later⟩
  | ok content =>
    obtain ⟨result, last, settled, stays⟩ := settle_calm later format dryRun target content
    refine ⟨result, content.length, last, ?_, stays⟩
    simp only [settled]

private theorem formatAll_calm (format : Formatter) (dryRun : Bool) (targets : List Target) :
    ∃ results handled last, Pipeline.formatAll format dryRun workspace targets = (handled, last) ∧
      handled.mapM Pipeline.Handled.result = .ok results := by
  induction targets generalizing workspace with
  | nil => exact ⟨[], [], workspace, rfl, rfl⟩
  | cons target rest ih =>
    obtain ⟨result, characters, next, handled, stays⟩ := formatTarget_calm calm format dryRun target
    obtain ⟨results, others, last, all, outcomes⟩ := ih stays
    refine ⟨result :: results, { result := .ok result, characters } :: others, last, ?_, ?_⟩
    · simp only [Pipeline.formatAll, handled, all]
    · rw [List.mapM_cons, outcomes]
      rfl

private theorem dispatch_calm (format : Formatter) (scope : Scope) :
    ∃ results characters after, Pipeline.dispatch format workspace scope = (.ok results, characters, after) := by
  obtain ⟨results, handled, last, all, outcomes⟩ :=
    formatAll_calm calm format scope.dryRun scope.targets
  unfold Pipeline.dispatch
  simp only [all, outcomes]
  exact ⟨_, _, _, rfl⟩

theorem run_results (format : Formatter) {resolver : Resolver} {request : Request} {scope : Scope}
    {next : Workspace} (resolved : Pipeline.resolve resolver workspace request = (.ok scope, next)) :
    ∃ results characters after, Pipeline.dispatch format next scope = (.ok results, characters, after) ∧
      Pipeline.run format resolver workspace request =
        (.ok { Report.render results request.mode.isPrePush with
            counts := if request.collectCounts then some (Pipeline.countsOf scope characters) else none },
          characters, after) := by
  have later := untouched_calm (resolve_untouched resolver workspace request) calm
  rw [resolved] at later
  obtain ⟨results, characters, after, dispatched⟩ := dispatch_calm later format scope
  refine ⟨results, characters, after, dispatched, ?_⟩
  rw [Pipeline.run, resolved]
  simp only [Pipeline.runScope, dispatched]
  rfl

theorem run_reports (format : Formatter) {resolver : Resolver} {request : Request} {scope : Scope}
    {next : Workspace} (resolved : Pipeline.resolve resolver workspace request = (.ok scope, next)) :
    ∃ report characters after,
      Pipeline.run format resolver workspace request = (.ok report, characters, after) := by
  obtain ⟨results, characters, after, _, ran⟩ := run_results calm format resolved
  exact ⟨_, characters, after, ran⟩

end

end StagedFormat.Proofs.CalmRuns
