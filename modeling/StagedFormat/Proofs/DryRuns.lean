import Mathlib.Data.List.Forall2
import StagedFormat.Pipeline
import StagedFormat.Proofs.PreCommitScope

/-! Runs that only check: a dry run, and every run over a commit, leaves files, index, objects and
outputs as they were, whatever the formatter does, and reports no target as formatted. -/

namespace StagedFormat.Proofs.DryRuns
open StagedFormat Git RepositoryEffects PreCommitScope

def output (stream : Stream) : Nat × List String × Bool :=
  (stream.calls, stream.accepted, stream.hasWritten)

/-- Nothing was written. Inputs may have been read, and commands that only ask may have been run. -/
structure Untouched (before after : Workspace) : Prop where
  disk : after.disk = before.disk
  repository : ∃ attempts, after.repository = { before.repository with attempts }
  outputs : after.streams.map output = before.streams.map output

theorem Untouched.refl (workspace : Workspace) : Untouched workspace workspace := ⟨rfl, ⟨_, rfl⟩, rfl⟩

theorem Untouched.trans {before middle after : Workspace} (first : Untouched before middle)
    (last : Untouched middle after) : Untouched before after := by
  obtain ⟨attempts, stays⟩ := first.repository
  obtain ⟨later, kept⟩ := last.repository
  exact ⟨last.disk.trans first.disk, ⟨later, by rw [kept, stays]⟩, last.outputs.trans first.outputs⟩

theorem Untouched.of_grows {workspace : Workspace} {next : Repository} {poisoned : Bool}
    (grows : Grows workspace.repository next [] []) :
    Untouched workspace { workspace with repository := next, poisoned } :=
  ⟨rfl, grows.idle_cases, rfl⟩

private theorem stream_read_output (stream : Stream) : output stream.read.2 = output stream := by
  unfold Stream.read
  split
  · rfl
  · split
    · rfl
    · simp only
      split <;> rfl

private theorem onStream_untouched {α : Type} (workspace : Workspace) (slot : Nat)
    (act : Stream → Except TargetError α × Stream)
    (silent : ∀ stream, output (act stream).2 = output stream) :
    Untouched workspace (Target.onStream workspace slot act).2 := by
  unfold Target.onStream
  split
  · exact .refl workspace
  · rename_i held found
    refine ⟨rfl, ⟨_, rfl⟩, ?_⟩
    obtain ⟨inside, rfl⟩ := List.getElem?_eq_some_iff.mp found
    simp only [List.map_set, silent]
    apply List.ext_getElem
    · simp
    · intro index _ bound
      by_cases same : slot = index <;> simp [same]

theorem read_untouched (workspace : Workspace) (target : Target) :
    Untouched workspace (target.read workspace).2 := by
  cases target with
  | file working => exact .refl workspace
  | pair staged working => exact .refl workspace
  | stream slot => exact onStream_untouched workspace slot Stream.read stream_read_output
  | blob staged =>
    obtain ⟨answer, next, asked, grows⟩ :=
      git_reads workspace staged.root (.readBlob staged.hash) fun _ => rfl
    have untouched : Untouched workspace { workspace with repository := next } := .of_grows grows
    simp only [Target.read, IndexBlob.read, asked]
    cases answer with
    | error fault => exact untouched
    | ok content => simp only; split <;> exact untouched

variable (format : Formatter)

/-- A result of a target that was not written. -/
def Unwritten (target : Target) (result : Result) : Prop :=
  result.name = target.name ∧ ∀ name, result ≠ .formatted name

private theorem settle_checks (workspace : Workspace) (target : Target) (content : String) :
    ∃ result, Pipeline.settle format true workspace target content = (.ok result, workspace) ∧
      Unwritten target result := by
  unfold Pipeline.settle
  cases format content with
  | rejected error => exact ⟨_, rfl, rfl, nofun⟩
  | crashed message => exact ⟨_, rfl, rfl, nofun⟩
  | text formatted =>
    by_cases same : formatted = content
    · exact ⟨.alreadyFormatted target.name, by simp only [if_pos same], rfl, nofun⟩
    · exact ⟨.wouldFormat target.name, by simp only [if_neg same, if_true], rfl, nofun⟩

private theorem formatTarget_checks (workspace : Workspace) (target : Target) :
    ∃ result characters next, Pipeline.formatTarget format true workspace target =
        ({ result := .ok result, characters }, next) ∧
      Unwritten target result ∧ Untouched workspace next := by
  have untouched := read_untouched workspace target
  unfold Pipeline.formatTarget
  cases read : target.read workspace with
  | mk answer next =>
    rw [read] at untouched
    cases answer with
    | error error => exact ⟨_, _, next, rfl, ⟨rfl, nofun⟩, untouched⟩
    | ok content =>
      obtain ⟨result, settled, unwritten⟩ := settle_checks format next target content
      exact ⟨result, content.length, next, by simp only [settled], unwritten, untouched⟩

private theorem formatAll_checks (workspace : Workspace) (targets : List Target) :
    ∃ results handled last, Pipeline.formatAll format true workspace targets = (handled, last) ∧
      handled.mapM Pipeline.Handled.result = .ok results ∧
      List.Forall₂ Unwritten targets results ∧ Untouched workspace last := by
  -- Each target is read in the state that the one before left, so the workspace stays general.
  induction targets generalizing workspace with
  | nil => exact ⟨[], [], workspace, rfl, rfl, .nil, .refl workspace⟩
  | cons target rest ih =>
    obtain ⟨result, characters, next, handled, unwritten, first⟩ :=
      formatTarget_checks format workspace target
    obtain ⟨results, others, last, all, outcomes, checked, later⟩ := ih next
    refine ⟨result :: results, { result := .ok result, characters } :: others, last, ?_, ?_,
      .cons unwritten checked, first.trans later⟩
    · simp only [Pipeline.formatAll, handled, all]
    · rw [List.mapM_cons, outcomes]
      rfl

/-- A report that has one result for each target, and for none that it was written. -/
def Checked (targets : List Target) (prePush : Bool) (report : Report) : Prop :=
  ∃ results counts, List.Forall₂ Unwritten targets results ∧
    report = { Report.render (Result.sorted results) prePush with counts }

private theorem runScope_checks (workspace : Workspace) {scope : Scope} (dry : scope.dryRun = true)
    (prePush collectCounts : Bool) :
    ∃ report characters after,
      Pipeline.runScope format workspace scope prePush collectCounts = (.ok report, characters, after) ∧
      Checked scope.targets prePush report ∧ Untouched workspace after := by
  obtain ⟨results, handled, last, all, outcomes, checked, untouched⟩ :=
    formatAll_checks format workspace scope.targets
  let characters := Pipeline.totalCharacters handled
  let counts := if collectCounts then some (Pipeline.countsOf scope characters) else none
  refine ⟨_, characters, last, ?_, ⟨results, counts, checked, rfl⟩, untouched⟩
  simp only [Pipeline.runScope, Pipeline.dispatch, dry, all, outcomes]
  rfl

private theorem preCommit_checks (resolver : Resolver) (workspace : Workspace) (arguments : List Path)
    (dryRun : Bool) :
    ∃ answer next, resolver.preCommit workspace arguments dryRun = (answer, next) ∧
      Untouched workspace next ∧ ∀ scope, answer = .ok scope → scope.dryRun = dryRun := by
  obtain ⟨answer, next, poisoned, resolved, grows, spec⟩ :=
    preCommit_cases resolver workspace arguments dryRun
  refine ⟨answer, _, resolved, .of_grows grows, ?_⟩
  intro scope same
  obtain ⟨_, _, _, _, _, _, rfl⟩ := spec scope same
  rfl

private theorem prePush_checks (resolver : Resolver) (workspace : Workspace) (arguments : List Path)
    (commit : String) :
    ∃ answer next, resolver.prePush workspace arguments commit = (answer, next) ∧
      Untouched workspace next ∧ ∀ scope, answer = .ok scope → scope.dryRun = true := by
  obtain ⟨answer, next, poisoned, consulted, grows, _⟩ :=
    consult_reads resolver workspace (.listTree commit) fun _ => rfl
  rw [Resolver.prePush, Resolver.survey, consulted]
  refine ⟨_, _, rfl, .of_grows grows, ?_⟩
  intro scope same
  cases answer with
  | error fault => cases same
  | ok found =>
    simp only [Except.bind, Resolver.committedScope, bind] at same
    split at same
    · cases same
    · cases same
      rfl

theorem resolve_untouched (resolver : Resolver) (workspace : Workspace) (request : Request) :
    Untouched workspace (Pipeline.resolve resolver workspace request).2 := by
  unfold Pipeline.resolve
  split
  · exact .refl workspace
  · obtain ⟨answer, next, resolved, untouched, _⟩ :=
      preCommit_checks resolver workspace request.files request.dryRun
    rw [resolved]
    exact untouched
  · rename_i commit _
    obtain ⟨answer, next, resolved, untouched, _⟩ :=
      prePush_checks resolver workspace request.files commit
    rw [resolved]
    exact untouched

private theorem resolve_dry (resolver : Resolver) (workspace : Workspace) {request : Request} {scope : Scope}
    (dry : request.dryRun = true ∨ request.mode.isPrePush = true)
    (found : (Pipeline.resolve resolver workspace request).1 = .ok scope) : scope.dryRun = true := by
  unfold Pipeline.resolve at found
  cases mode : request.mode with
  | prePush commit =>
    obtain ⟨answer, next, resolved, _, checks⟩ :=
      prePush_checks resolver workspace request.files commit
    rw [mode] at found
    simp only [resolved] at found
    exact checks scope found
  | workingDirectory =>
    have asked : request.dryRun = true := by simpa [mode, Mode.isPrePush] using dry
    rw [mode] at found
    cases found
    exact asked
  | preCommit =>
    have asked : request.dryRun = true := by simpa [mode, Mode.isPrePush] using dry
    obtain ⟨answer, next, resolved, _, keeps⟩ :=
      preCommit_checks resolver workspace request.files request.dryRun
    rw [mode] at found
    simp only [resolved] at found
    rw [keeps scope found, asked]

theorem run_checks (resolver : Resolver) (workspace : Workspace) {request : Request}
    (dry : request.dryRun = true ∨ request.mode.isPrePush = true) :
    ∃ answer characters after, Pipeline.run format resolver workspace request =
        (answer, characters, after) ∧ Untouched workspace after ∧
      match (Pipeline.resolve resolver workspace request).1 with
      | .error fault => answer = .error (.scope fault)
      | .ok scope => ∃ report, answer = .ok report ∧
          Checked scope.targets request.mode.isPrePush report := by
  have first := resolve_untouched resolver workspace request
  rcases resolved : Pipeline.resolve resolver workspace request with ⟨answer, next⟩
  rw [resolved] at first
  rw [Pipeline.run, resolved]
  cases answer with
  | error fault => exact ⟨_, _, next, rfl, first, rfl⟩
  | ok scope =>
    have checks := resolve_dry resolver workspace dry (congrArg Prod.fst resolved)
    obtain ⟨report, characters, after, ran, checked, later⟩ :=
      runScope_checks format next checks request.mode.isPrePush request.collectCounts
    exact ⟨_, characters, after, ran, first.trans later, report, rfl, checked⟩

/-- Runs over a commit, dry runs of any mode and dry runs over any scope write nothing. -/
theorem checks_leave_everything (workspace : Workspace) :
    (∀ (resolver : Resolver) (request : Request),
      request.dryRun = true ∨ request.mode.isPrePush = true →
      ∃ answer characters after, Pipeline.run format resolver workspace request =
          (answer, characters, after) ∧ Untouched workspace after ∧
        match (Pipeline.resolve resolver workspace request).1 with
        | .error fault => answer = .error (.scope fault)
        | .ok scope => ∃ report, answer = .ok report ∧
            Checked scope.targets request.mode.isPrePush report) ∧
    ∀ (scope : Scope) (prePush collectCounts : Bool), scope.dryRun = true →
      ∃ report characters after,
        Pipeline.runScope format workspace scope prePush collectCounts =
          (.ok report, characters, after) ∧
        Untouched workspace after ∧ Checked scope.targets prePush report := by
  constructor
  · intro resolver request dry
    exact run_checks format resolver workspace dry
  · intro scope prePush collectCounts dry
    obtain ⟨report, characters, after, ran, checked, untouched⟩ :=
      runScope_checks format workspace dry prePush collectCounts
    exact ⟨report, characters, after, ran, untouched, checked⟩

def waiting : Workspace where
  disk := {
    entries := [(["repo"], .directory), (["repo", "A.kt"], .file 0 0o644 "a=1".toUTF8)]
    fresh := 1 }
  repository := {
    root := ⟨"/repo"⟩
    trees := [("HEAD", "100644 blob aa\tA.kt\x00".toUTF8)]
    objects := [("aa", "a=1".toUTF8)] }
  streams := [{ input := some { bytes := "b=2".toUTF8 } }]

theorem check_leaves_commit_and_stream :
    (∃ report characters after,
      Pipeline.run spacing inRepo waiting ⟨.prePush "HEAD", [], false, false⟩ =
        (.ok report, characters, after) ∧ Untouched waiting after ∧
      Checked [.blob ⟨⟨"/repo"⟩, ⟨"A.kt"⟩, "100644", "aa"⟩] true report) ∧
    ∃ report characters after,
      Pipeline.runScope spacing waiting ⟨[.stream 0, .file ⟨⟨"/repo/A.kt"⟩, none⟩], true⟩ false true =
        (.ok report, characters, after) ∧ Untouched waiting after ∧
      Checked [.stream 0, .file ⟨⟨"/repo/A.kt"⟩, none⟩] false report := by
  have ⟨overRequests, overScopes⟩ := checks_leave_everything spacing waiting
  have resolved : (Pipeline.resolve inRepo waiting ⟨.prePush "HEAD", [], false, false⟩).1 =
      .ok ⟨[.blob ⟨⟨"/repo"⟩, ⟨"A.kt"⟩, "100644", "aa"⟩], true⟩ := by decide +kernel
  constructor
  · obtain ⟨answer, characters, after, ran, untouched, told⟩ :=
      overRequests inRepo ⟨.prePush "HEAD", [], false, false⟩ (.inr rfl)
    rw [resolved] at told
    obtain ⟨report, rfl, checked⟩ := told
    exact ⟨report, characters, after, ran, untouched, checked⟩
  · exact overScopes ⟨[.stream 0, .file ⟨⟨"/repo/A.kt"⟩, none⟩], true⟩ false true rfl

end StagedFormat.Proofs.DryRuns
