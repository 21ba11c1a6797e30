import StagedFormat.Proofs.DryRuns

/-! Runs of hooks in a workspace that others ran in before: a new staging area starts with a free lock,
and the streams are left alone, so all that a run has from earlier ones is the files and the repository. -/

namespace StagedFormat.Proofs.FreshRuns
open StagedFormat Git RepositoryEffects PreCommitScope DryRuns

/-- A workspace with these files and this repository in which nothing ran before. -/
def anew (workspace : Workspace) : Workspace :=
  { disk := workspace.disk, repository := workspace.repository }

def streamless (workspace : Workspace) : Workspace := { workspace with streams := [] }

/-- The targets that a hook has. -/
def Stored : Target → Prop
  | .stream _ => False
  | _ => True

section
variable (workspace : Workspace)

private theorem git_streamless (directory : Path) (command : Command) :
    (streamless workspace).git directory command =
      ((workspace.git directory command).1, streamless (workspace.git directory command).2) := rfl

private theorem gitText_streamless (directory : Path) (command : Command) :
    (streamless workspace).gitText directory command =
      ((workspace.gitText directory command).1, streamless (workspace.gitText directory command).2) := rfl

private theorem updateIndex_streamless (root : Path) (mode hash : String) (path : Path) :
    (streamless workspace).updateIndex root mode hash path =
      ((workspace.updateIndex root mode hash path).1,
        streamless (workspace.updateIndex root mode hash path).2) := by
  have poisoned : (streamless workspace).poisoned = workspace.poisoned := rfl
  have repository : (streamless workspace).repository = workspace.repository := rfl
  unfold Workspace.updateIndex
  rw [poisoned, repository, git_streamless]
  by_cases locked : workspace.poisoned = true
  · simp only [if_pos locked]
  · simp only [if_neg locked]
    cases workspace.repository.crashes workspace.repository.attempts with
    | some message => rfl
    | none =>
      rcases workspace.git root (.updateIndex mode hash path) with ⟨answer, next⟩
      cases answer <;> rfl

private theorem stage_streamless (root path : Path) (mode content : String) :
    (streamless workspace).stage root path mode content =
      ((workspace.stage root path mode content).1,
        streamless (workspace.stage root path mode content).2) := by
  rw [Workspace.stage, Workspace.stage, gitText_streamless]
  rcases workspace.gitText root (.writeBlob content.toUTF8) with ⟨answer, next⟩
  cases answer with
  | error fault => rfl
  | ok hash => exact updateIndex_streamless next root mode hash path

private theorem writeFile_streamless (working : WorkingFile) (content : String) :
    Target.writeFile (streamless workspace) working content =
      ((Target.writeFile workspace working content).1,
        streamless (Target.writeFile workspace working content).2) := rfl

private theorem readBlob_streamless (blob : IndexBlob) :
    blob.read (streamless workspace) =
      ((blob.read workspace).1, streamless (blob.read workspace).2) := by
  rw [IndexBlob.read, IndexBlob.read, git_streamless]
  rcases workspace.git blob.root (.readBlob blob.hash) with ⟨answer, next⟩
  cases answer with
  | error fault => rfl
  | ok content => simp only; split <;> rfl

section
variable {target : Target} (stored : Stored target)
include stored

private theorem read_streamless :
    target.read (streamless workspace) =
      ((target.read workspace).1, streamless (target.read workspace).2) := by
  cases target with
  | file working => rfl
  | pair staged working => rfl
  | blob staged => exact readBlob_streamless workspace staged
  | stream slot => exact stored.elim

private theorem write_streamless (content : String) :
    target.write (streamless workspace) content =
      ((target.write workspace content).1, streamless (target.write workspace content).2) := by
  cases target with
  | file working => exact writeFile_streamless workspace working content
  | blob staged => exact stage_streamless workspace staged.root staged.path staged.mode content
  | pair staged working =>
    rw [Target.write, Target.write, writeFile_streamless]
    rcases Target.writeFile workspace working content with ⟨answer, next⟩
    cases answer with
    | error fault => rfl
    | ok done => exact stage_streamless next staged.root staged.path staged.mode content
  | stream slot => exact stored.elim

private theorem settle_streamless (format : Formatter) (dryRun : Bool) (content : String) :
    Pipeline.settle format dryRun (streamless workspace) target content =
      ((Pipeline.settle format dryRun workspace target content).1,
        streamless (Pipeline.settle format dryRun workspace target content).2) := by
  unfold Pipeline.settle
  cases format content with
  | rejected error => rfl
  | crashed message => rfl
  | text formatted =>
    simp only
    split
    · rfl
    · split
      · rfl
      · unfold Pipeline.writeBack
        rw [write_streamless workspace stored formatted]
        rcases target.write workspace formatted with ⟨answer, next⟩
        cases answer with
        | ok done => rfl
        | error fault => cases fault <;> rfl

private theorem formatTarget_streamless (format : Formatter) (dryRun : Bool) :
    Pipeline.formatTarget format dryRun (streamless workspace) target =
      ((Pipeline.formatTarget format dryRun workspace target).1,
        streamless (Pipeline.formatTarget format dryRun workspace target).2) := by
  unfold Pipeline.formatTarget
  rw [read_streamless workspace stored]
  rcases target.read workspace with ⟨answer, next⟩
  cases answer with
  | error error => rfl
  | ok content =>
    simp only
    rw [settle_streamless next stored format dryRun content]

end

private theorem formatAll_streamless (format : Formatter) (dryRun : Bool) {targets : List Target}
    (stored : ∀ target ∈ targets, Stored target) :
    Pipeline.formatAll format dryRun (streamless workspace) targets =
      ((Pipeline.formatAll format dryRun workspace targets).1,
        streamless (Pipeline.formatAll format dryRun workspace targets).2) := by
  induction targets generalizing workspace with
  | nil => rfl
  | cons target rest ih =>
    obtain ⟨first, others⟩ := List.forall_mem_cons.mp stored
    rw [Pipeline.formatAll, Pipeline.formatAll, formatTarget_streamless workspace first format dryRun]
    simp only
    rw [ih _ others]

private theorem runScope_streamless (format : Formatter) {scope : Scope}
    (stored : ∀ target ∈ scope.targets, Stored target) (prePush collectCounts : Bool) :
    Pipeline.runScope format (streamless workspace) scope prePush collectCounts =
      ((Pipeline.runScope format workspace scope prePush collectCounts).1,
        (Pipeline.runScope format workspace scope prePush collectCounts).2.1,
        streamless (Pipeline.runScope format workspace scope prePush collectCounts).2.2) := by
  rw [Pipeline.runScope, Pipeline.dispatch, formatAll_streamless workspace format scope.dryRun stored]
  rfl

/-- What was found out depends on the files and the repository alone, and leaves the lock free. -/
def FromFiles {α : Type} (find : Workspace → Except ScopeError α × Workspace) : Prop :=
  ∃ answer repository poisoned renewed,
    find workspace = (answer, { workspace with repository, poisoned }) ∧
    find (anew workspace) = (answer, { anew workspace with repository, poisoned := renewed }) ∧
    (answer.isOk → poisoned = false ∧ renewed = false)

private theorem consult_anew (resolver : Resolver) (command : Command) :
    FromFiles workspace (resolver.consult · command) := by
  unfold FromFiles Resolver.consult Workspace.gitText Workspace.git anew
  simp only
  rcases workspace.repository.runText workspace.disk resolver.directory .showToplevel with
    ⟨top, asked⟩
  cases top with
  | error fault => exact ⟨_, _, _, _, rfl, rfl, nofun⟩
  | ok root =>
    simp only
    rcases asked.run workspace.disk ⟨root⟩ command with ⟨listing, listed⟩
    cases listing with
    | error fault => exact ⟨_, _, _, _, rfl, rfl, nofun⟩
    | ok listing => exact ⟨_, _, _, _, rfl, rfl, fun _ => ⟨rfl, rfl⟩⟩

private theorem survey_anew (resolver : Resolver) (command : Command) (arguments : List Path)
    (scope : Path → List Path → ByteArray → Except ScopeError Scope) :
    FromFiles workspace (resolver.survey · command arguments scope) := by
  obtain ⟨answer, repository, poisoned, renewed, here, there, free⟩ := consult_anew workspace resolver command
  simp only at here there
  simp only [FromFiles, Resolver.survey, here, there]
  refine ⟨_, repository, poisoned, renewed, rfl, rfl, ?_⟩
  intro done
  cases answer with
  | error fault => cases done
  | ok found => exact free rfl

private theorem stored_staged (root : Path) (change : Listing.Change) :
    Stored (Resolver.stagedTarget root change) := by
  unfold Resolver.stagedTarget
  split <;> trivial

private theorem resolve_stored (resolver : Resolver) {request : Request} {scope : Scope}
    (hook : request.mode ≠ .workingDirectory)
    (resolved : (Pipeline.resolve resolver workspace request).1 = .ok scope) :
    ∀ target ∈ scope.targets, Stored target := by
  unfold Pipeline.resolve at resolved
  cases mode : request.mode with
  | workingDirectory => exact (hook mode).elim
  | preCommit =>
    obtain ⟨answer, next, poisoned, asked, _, spec⟩ :=
      preCommit_cases resolver workspace request.files request.dryRun
    simp only [mode, asked] at resolved
    obtain ⟨_, root, listing, changes, _, _, rfl⟩ := spec scope resolved
    intro target member
    obtain ⟨change, _, rfl⟩ := List.mem_map.mp member
    exact stored_staged root change
  | prePush commit =>
    simp only [mode, Resolver.prePush, Resolver.survey] at resolved
    cases answer : (resolver.consult workspace (.listTree commit)).1 with
    | error fault =>
      rw [answer] at resolved
      cases resolved
    | ok found =>
      rw [answer] at resolved
      simp only [Except.bind, Resolver.committedScope, bind] at resolved
      split at resolved
      · cases resolved
      · cases resolved
        intro target member
        obtain ⟨entry, _, rfl⟩ := List.mem_map.mp member
        trivial

/-- Of earlier runs, a hook's run finds only what they left in the files and the repository. -/
theorem run_anew (format : Formatter) (resolver : Resolver) {request : Request}
    (hook : request.mode ≠ .workingDirectory) :
    ∃ outcome characters fresh after,
      Pipeline.run format resolver (anew workspace) request = (outcome, characters, fresh) ∧
      Pipeline.run format resolver workspace request = (outcome, characters, after) ∧
      after.disk = fresh.disk ∧ after.repository = fresh.repository := by
  have found : FromFiles workspace (Pipeline.resolve resolver · request) := by
    unfold Pipeline.resolve
    cases mode : request.mode with
    | workingDirectory => exact (hook mode).elim
    | preCommit => exact survey_anew workspace resolver .status request.files (resolver.stagedScope request.dryRun)
    | prePush commit => exact survey_anew workspace resolver (.listTree commit) request.files resolver.committedScope
  obtain ⟨answer, repository, poisoned, renewed, here, there, free⟩ := found
  simp only at here there
  rw [Pipeline.run, Pipeline.run, here, there]
  cases answer with
  | error fault => exact ⟨_, _, _, _, rfl, rfl, rfl, rfl⟩
  | ok scope =>
    obtain ⟨rfl, rfl⟩ := free rfl
    have stored := resolve_stored workspace resolver hook (congrArg Prod.fst here)
    have shared := runScope_streamless { workspace with repository, poisoned := false } format stored
      request.mode.isPrePush request.collectCounts
    have alone := runScope_streamless { anew workspace with repository, poisoned := false } format
      stored request.mode.isPrePush request.collectCounts
    -- Without their streams, the two workspaces are one.
    have same := alone.symm.trans shared
    simp only
    revert same
    rcases Pipeline.runScope format { anew workspace with repository, poisoned := false } scope
      request.mode.isPrePush request.collectCounts with ⟨outcome, characters, fresh⟩
    rcases Pipeline.runScope format { workspace with repository, poisoned := false } scope
      request.mode.isPrePush request.collectCounts with ⟨_, _, after⟩
    intro same
    simp only [Prod.mk.injEq] at same
    obtain ⟨rfl, rfl, left⟩ := same
    refine ⟨outcome, characters, fresh, after, rfl, rfl, ?_, ?_⟩
    · exact (congrArg Workspace.disk left).symm
    · exact (congrArg Workspace.repository left).symm

end

end StagedFormat.Proofs.FreshRuns
