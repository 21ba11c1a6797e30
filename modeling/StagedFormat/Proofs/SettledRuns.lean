import StagedFormat.Proofs.DispatchDecomposition
import StagedFormat.Proofs.FileVerdicts
import StagedFormat.Proofs.ScopeRepetition

/-! A working directory that is formatted twice. After the first run each file is formatted or fails for a
reason that lasts, so the second run has the same targets and nothing to write. -/

namespace StagedFormat.Proofs.SettledRuns
open StagedFormat Disk DiskFollowing PathPlaces FileWalk ScopeOverlap TidiedTrees ScopeRepetition FileVerdicts
open WorkerSteps DispatchSchedules DispatchDecomposition

def Idempotent (format : Formatter) : Prop :=
  ∀ source text, format source = .text text → format text = .text text

/-- Nothing is written for any of the files, and this is what becomes of them. -/
def Settled (extension : String) (format : Formatter) (disk : Disk) (files : List WorkingFile)
    (results : List Result) : Prop :=
  List.Forall₂ (fun file result => ∃ home, Rests extension format disk file home result) files results

section
variable {extension : String} {format : Formatter} (idempotent : Idempotent format) {workspace : Workspace}

/-- The tree after a target or some of them, and what that means for the targets. -/
structure Turned (extension : String) (format : Formatter) (disk next : Disk) : Prop where
  tidied : Tidied extension disk next
  tree : IsTree next
  due : ∀ path home, Aims extension disk path home → Due format next path → Due format disk path
  rests : ∀ file home result, Rests extension format disk file home result →
    Rests extension format next file home result

theorem Turned.trans {disk next last : Disk} (first : Turned extension format disk next)
    (second : Turned extension format next last) : Turned extension format disk last :=
  ⟨first.tidied.trans second.tidied, second.tree,
    fun path home aims due => first.due path home aims (second.due path home (aims.tidied first.tidied) due),
    fun file home result rests => second.rests file home result (first.rests file home result rests)⟩

include idempotent

/-- A target is settled once it had its turn, and the others that are settled stay so. -/
theorem formatTarget_turns (tree : IsTree workspace.disk) (free : LinkFree workspace.disk) {file : WorkingFile}
    {home : Location} (aims : Aims extension workspace.disk file.path home)
    (legible : Due format workspace.disk file.path → Legible home) :
    ∃ result next, (Pipeline.formatTarget format false workspace (.file file)).1.result = .ok result ∧
      (Pipeline.formatTarget format false workspace (.file file)).2 = { workspace with disk := next } ∧
      Turned extension format workspace.disk next ∧ Rests extension format next file home (again result) := by
  have ends := @formatTarget_verdict extension format workspace file home aims tree free legible
  cases judged : verdict format workspace.disk file home with
  | mk result written =>
    rw [judged] at ends
    obtain ⟨outcome, left⟩ := ends
    cases written with
    | none =>
      refine ⟨result, workspace.disk, outcome, left, ⟨.refl _ _, tree, fun _ _ _ => id, fun _ _ _ => id⟩,
        aims, legible, ?_⟩
      rw [judged, again_calm (calm_of_judge judged)]
    | some content =>
      obtain ⟨next, left, put, tree'⟩ := left
      refine ⟨result, next, outcome, left, ⟨put.tidied aims, tree', ?_, ?_⟩,
        rests_written aims judged put idempotent⟩
      · exact fun other place aimed => due_before aims judged put idempotent free aimed
      · exact fun other place outcome => rests_kept aims judged put idempotent free

omit idempotent in
private theorem formatAll_cons (target : Target) (targets : List Target) :
    Pipeline.formatAll format false workspace (target :: targets) =
      ((Pipeline.formatTarget format false workspace target).1 ::
        (Pipeline.formatAll format false (Pipeline.formatTarget format false workspace target).2 targets).1,
        (Pipeline.formatAll format false (Pipeline.formatTarget format false workspace target).2 targets).2) := rfl

/-- After all targets had their turn, each of them is settled. -/
theorem formatAll_turns (tree : IsTree workspace.disk) (free : LinkFree workspace.disk) {files : List WorkingFile}
    (aimed : ∀ file ∈ files, ∃ home, Aims extension workspace.disk file.path home ∧
      (Due format workspace.disk file.path → Legible home)) :
    ∃ (results : List Result) (next : Disk),
      (Pipeline.formatAll format false workspace (files.map .file)).1.map Pipeline.Handled.result =
        results.map .ok ∧
      (Pipeline.formatAll format false workspace (files.map .file)).2 = { workspace with disk := next } ∧
      Turned extension format workspace.disk next ∧
      Settled extension format next files (results.map again) := by
  induction files generalizing workspace with
  | nil => exact ⟨[], workspace.disk, rfl, rfl, ⟨.refl _ _, tree, fun _ _ _ => id, fun _ _ _ => id⟩, .nil⟩
  | cons file files ih =>
    obtain ⟨home, aims, legible⟩ := aimed file List.mem_cons_self
    obtain ⟨result, between, outcome, left, turned, rests⟩ := formatTarget_turns idempotent tree free aims legible
    obtain ⟨results, next, outcomes, last, turned', settled⟩ := @ih { workspace with disk := between } turned.tree
      (turned.tidied.linkFree free) fun other member => by
        obtain ⟨place, aims, legible⟩ := aimed other (.tail _ member)
        exact ⟨place, aims.tidied turned.tidied, fun due => legible (turned.due _ _ aims due)⟩
    refine ⟨result :: results, next, ?_, ?_, turned.trans turned', .cons ⟨home, turned'.rests _ _ _ rests⟩ settled⟩
    · rw [List.map_cons, formatAll_cons, List.map_cons, List.map_cons, outcome, left, outcomes]
    · rw [List.map_cons, formatAll_cons, left, last]

omit idempotent in
/-- Where all targets are settled, a run changes nothing. -/
theorem formatAll_rests (tree : IsTree workspace.disk) (free : LinkFree workspace.disk) {files : List WorkingFile}
    {results : List Result} (settled : Settled extension format workspace.disk files results) :
    (Pipeline.formatAll format false workspace (files.map .file)).1.map Pipeline.Handled.result = results.map .ok ∧
      (Pipeline.formatAll format false workspace (files.map .file)).2 = workspace := by
  induction settled with
  | nil => exact ⟨rfl, rfl⟩
  | cons rests _ ih =>
    obtain ⟨home, aims, legible, judged⟩ := rests
    have ends := @formatTarget_verdict extension format workspace _ home aims tree free legible
    rw [judged] at ends
    obtain ⟨outcome, left⟩ := ends
    rw [List.map_cons, formatAll_cons, List.map_cons, List.map_cons, outcome, left]
    exact ⟨by rw [ih.1], ih.2⟩

end

def outcomes (format : Formatter) (workspace : Workspace) (scope : Scope) : List (Except String Result) :=
  (Pipeline.formatAll format scope.dryRun workspace scope.targets).1.map Pipeline.Handled.result

section
variable {format : Formatter} {resolver : Resolver} {workspace : Workspace} {request : Request}
  (mode : request.mode = .workingDirectory)
include mode

private theorem run_left : (Pipeline.run format resolver workspace request).2.2 =
    (Pipeline.formatAll format request.dryRun workspace
      (resolver.workingDirectory workspace.disk request.files request.dryRun).targets).2 := by
  simp only [Pipeline.run, Pipeline.resolve, mode]
  rfl

private theorem run_reports {results : List Result}
    (done : outcomes format workspace (resolver.workingDirectory workspace.disk request.files request.dryRun) =
      results.map .ok) : ∃ report, (Pipeline.run format resolver workspace request).1 = .ok report ∧
        report.hasChange = (Result.sorted results).any Result.isChange := by
  have all := mapM_result.mpr done
  simp only [Pipeline.run, Pipeline.resolve, mode, Pipeline.runScope, Pipeline.dispatch]
  rw [show (Pipeline.formatAll format
    (resolver.workingDirectory workspace.disk request.files request.dryRun).dryRun workspace
    (resolver.workingDirectory workspace.disk request.files request.dryRun).targets).1.mapM Pipeline.Handled.result
      = _ from all]
  exact ⟨_, rfl, rfl⟩

end

theorem Settled.calm {extension : String} {format : Formatter} {disk : Disk} {files : List WorkingFile}
    {results : List Result} (settled : Settled extension format disk files results) :
    (Result.sorted results).any Result.isChange = false := by
  have calm : ∀ result ∈ results, result.isChange = false := by
    induction settled with
    | nil => nofun
    | cons rests _ ih =>
      obtain ⟨home, rests⟩ := rests
      intro result member
      rcases List.mem_cons.mp member with rfl | member
      · exact calm_of_judge rests.verdict
      · exact ih result member
  rw [List.any_eq_false]
  intro result member
  rw [calm result (List.mem_mergeSort.mp member)]
  decide

/-- A working directory without links is settled by one run: a second one has the same targets, finds formatted
what the first one formatted, fails where that failed and with the same messages, and changes nothing. -/
theorem second_run_settles {format : Formatter} {resolver : Resolver} {workspace : Workspace} {request : Request}
    (tree : IsTree workspace.disk) (free : LinkFree workspace.disk)
    (plain : resolver.settings.extension ≠ "tmp")
    (steady : ∀ descriptor ∈ resolver.settings.buildDescriptors, ¬ Temporary resolver.settings.extension descriptor)
    (legible : ∀ file, .file file ∈ (resolver.workingDirectory workspace.disk request.files false).targets →
      Due format workspace.disk file.path → ∀ home, placeOf workspace.disk file.path = some home → Legible home)
    (idempotent : Idempotent format) (mode : request.mode = .workingDirectory) (wet : request.dryRun = false) :
    let scope := resolver.workingDirectory workspace.disk request.files false
    let after := (Pipeline.run format resolver workspace request).2.2
    resolver.workingDirectory after.disk request.files false = scope ∧
      (∃ results : List Result, outcomes format workspace scope = results.map .ok ∧
        outcomes format after scope = (results.map again).map .ok) ∧
      (∃ report, (Pipeline.run format resolver after request).1 = .ok report ∧ report.hasChange = false) ∧
      (Pipeline.run format resolver after request).2.2 = after := by
  intro scope after
  let files : List WorkingFile := (Scope.sortedPaths (request.files.flatMap (resolver.filesOf workspace.disk))).map
    fun path => { path, root := some resolver.directory }
  have targets : scope.targets = files.map .file := (List.map_map ..).symm
  have aimed : ∀ file ∈ files, ∃ home, Aims resolver.settings.extension workspace.disk file.path home ∧
      (Due format workspace.disk file.path → Legible home) := by
    intro file member
    have chosen : .file file ∈ scope.targets := targets ▸ List.mem_map_of_mem member
    obtain ⟨path, inside, rfl⟩ := List.mem_map.mp member
    obtain ⟨_, _, home, yields⟩ := (mem_sortedFiles tree).mp inside
    have source : ∀ name, home.getLast? = some name → Path.extensionOf name = some ↑resolver.settings.extension :=
      fun _ => Yields.extensionOf tree yields free
    have aims : Aims resolver.settings.extension workspace.disk path home :=
      ⟨Yields.leads tree yields, yields.stands, source, fun name last => lasting_of_source plain (source name last)⟩
    refine ⟨home, aims, fun due => legible _ chosen due home ?_⟩
    obtain ⟨text, _, read, _⟩ := due
    obtain ⟨location, _, _, found⟩ := readText_iff.mp read
    obtain rfl : location = home := congrArg Place.location (aims.place found)
    exact placeOf_eq_some.mpr ⟨_, found⟩
  obtain ⟨results, next, first, left, turned, settled⟩ := formatAll_turns idempotent tree free aimed
  have ended : after = { workspace with disk := next } := by
    rw [← left, ← targets]
    exact (run_left mode).trans (by rw [wet])
  have same : resolver.workingDirectory after.disk request.files false = scope := by
    rw [ended]
    exact workingDirectory_tidied turned.tidied free tree turned.tree plain steady _ _
  have repeated := @formatAll_rests resolver.settings.extension format after (by rw [ended]; exact turned.tree)
    (by rw [ended]; exact turned.tidied.linkFree free) files (results.map again) (by rw [ended]; exact settled)
  rw [← targets] at first repeated
  refine ⟨same, ⟨results, first, repeated.1⟩, ?_, ?_⟩
  · obtain ⟨report, reported, changes⟩ := @run_reports format resolver after request mode (results.map again) (by
      rw [wet, same]
      exact repeated.1)
    exact ⟨report, reported, changes.trans settled.calm⟩
  · rw [run_left mode, wet, same]
    exact repeated.2

def curt : Formatter := fun source => if source = "?" then .rejected (.rejected "no name") else .text "a"

private theorem idempotent_curt : Idempotent curt := by
  intro source text made
  unfold curt at made
  split at made
  · cases made
  · cases made
    rfl

def unsettled : Workspace where
  disk :=
    { entries := [(["A.kt"], .file 0 plainMode "a;".toUTF8), (["B.kt"], .file 1 plainMode "?".toUTF8)]
      fresh := 2 }
  repository := { root := ⟨"/"⟩ }

private theorem isTree_unsettled : IsTree unsettled.disk := isTree_of_entries (by decide) (by decide) (by decide)

def everything : Request := ⟨.workingDirectory, [⟨"."⟩], false, false⟩

/-- One file is formatted and stays so, and the other fails twice for the same reason. -/
theorem unsettled_settles :
    LinkFree unsettled.disk ∧ Idempotent curt ∧
      let failed : Except String Result := .ok (.error "B.kt" "Unexpected error formatting B.kt: no name" .format)
      let scope := atTop.workingDirectory unsettled.disk [⟨"."⟩] false
      let after := (Pipeline.run curt atTop unsettled everything).2.2
      outcomes curt unsettled scope = [.ok (.formatted "A.kt"), failed] ∧
        outcomes curt after scope = [.ok (.alreadyFormatted "A.kt"), failed] ∧
        (Pipeline.run curt atTop after everything).2.2 = after := by
  have free : LinkFree unsettled.disk := linkFree_of_entries (by decide)
  have scope := @workingDirectory_eq atTop unsettled.disk [⟨"."⟩] [⟨"/A.kt"⟩, ⟨"/B.kt"⟩] (by decide +kernel)
    (by decide +kernel) (by decide +kernel) false
  have legible : ∀ file, .file file ∈ (atTop.workingDirectory unsettled.disk everything.files false).targets →
      ∀ home, placeOf unsettled.disk file.path = some home → Legible home := by
    rw [show everything.files = [⟨"."⟩] from rfl, scope]
    intro file inside home place
    simp only [List.map_cons, List.map_nil, List.mem_cons, Target.file.injEq, List.not_mem_nil, or_false] at inside
    rcases inside with rfl | rfl <;> cases place <;> decide
  obtain ⟨_, ⟨results, first, second⟩, _, rests⟩ := @second_run_settles curt atTop unsettled everything
    isTree_unsettled free (by decide) (by decide) (fun file inside _ => legible file inside) idempotent_curt rfl rfl
  have known : outcomes curt unsettled (atTop.workingDirectory unsettled.disk [⟨"."⟩] false) =
      [.formatted "A.kt", .error "B.kt" "Unexpected error formatting B.kt: no name" .format].map .ok := by
    rw [scope]
    decide +kernel
  obtain rfl := (List.map_injective_iff.mpr fun _ _ => Except.ok.inj) (first.symm.trans known)
  exact ⟨free, idempotent_curt, known, second, rests⟩

/-- A build descriptor that a write takes for its temporary file. -/
def consumed : Workspace where
  disk :=
    { entries := [
        (["A.kt"], .file 0 plainMode "a;".toUTF8),
        (["A.kt.stagefmt.tmp"], .file 1 plainMode "".toUTF8),
        (["build"], .directory),
        (["build", "G.kt"], .file 2 plainMode "g;".toUTF8)]
      fresh := 3 }
  repository := { root := ⟨"/"⟩ }

private theorem isTree_consumed : IsTree consumed.disk := isTree_of_entries (by decide) (by decide) (by decide)

def described : Resolver := ⟨{ buildDescriptors := ["A.kt.stagefmt.tmp"] }, ⟨"/"⟩⟩

private theorem isTree_lookalikes : IsTree lookalikes.disk := isTree_of_entries (by decide) (by decide) (by decide)

private theorem lookalikes_scope (disk : Disk)
    (kept : [⟨"/" ++ unprintable 0xFE⟩, ⟨"/" ++ unprintable 0xFF⟩] ⊆ [⟨"."⟩].flatMap (atTop.filesOf disk))
    (whole : [⟨"."⟩].flatMap (atTop.filesOf disk) ⊆ [⟨"/" ++ unprintable 0xFE⟩, ⟨"/" ++ unprintable 0xFF⟩]) :
    atTop.workingDirectory disk [⟨"."⟩] false =
      { targets := [⟨"/" ++ unprintable 0xFE⟩, ⟨"/" ++ unprintable 0xFF⟩].map fun path =>
          .file { path, root := some ⟨"/"⟩ }
        dryRun := false } :=
  workingDirectory_eq (by decide +kernel) kept whole false

/-- Descriptors must not be named like temporary files: where one is, the first run uses it up, and what it kept
out of the scope as build output is a target of the second run. Nor must files look alike that are written: two
workers of the first run meet in one temporary file, and what one of them fails at is left to the second run. -/
theorem unsettled_by_first_run :
    (IsTree consumed.disk ∧ LinkFree consumed.disk ∧ described.settings.extension ≠ "tmp" ∧ Idempotent curt ∧
      let after := (Pipeline.run curt described consumed everything).2.2
      (described.workingDirectory consumed.disk [⟨"."⟩] false).targets.map Target.name = ["A.kt"] ∧
        (described.workingDirectory after.disk [⟨"."⟩] false).targets.map Target.name = ["A.kt", "build/G.kt"] ∧
        outcomes curt after (described.workingDirectory after.disk [⟨"."⟩] false) =
          [.ok (.alreadyFormatted "A.kt"), .ok (.formatted "build/G.kt")]) ∧
    (IsTree lookalikes.disk ∧ LinkFree lookalikes.disk ∧ Idempotent curt ∧
      let scope := atTop.workingDirectory lookalikes.disk [⟨"."⟩] false
      ∃ schedule : List (Fin scope.targets.length),
        let first := (Pool.start lookalikes scope.targets).run curt false schedule
        first.Done ∧
          outcomes curt first.shared.workspace (atTop.workingDirectory first.shared.workspace.disk [⟨"."⟩] false) =
            [.ok (.alreadyFormatted "\uFFFD.kt"), .ok (.formatted "\uFFFD.kt")]) := by
  refine ⟨⟨isTree_consumed, linkFree_of_entries (by decide), by decide, idempotent_curt, ?_⟩,
    isTree_lookalikes, linkFree_of_entries (by decide), idempotent_curt, ?_⟩
  · have scope := @workingDirectory_eq described consumed.disk [⟨"."⟩] [⟨"/A.kt"⟩] (by decide +kernel)
      (by decide +kernel) (by decide +kernel) false
    have after : (Pipeline.run curt described consumed everything).2.2 = _ := run_left rfl
    rw [show everything.files = [⟨"."⟩] from rfl, show everything.dryRun = false from rfl, scope] at after
    dsimp only
    rw [after, scope, @workingDirectory_eq _ _ _ [⟨"/A.kt"⟩, ⟨"/build/G.kt"⟩] (by decide +kernel)
      (by decide +kernel) (by decide +kernel) false]
    exact ⟨rfl, rfl, by decide +kernel⟩
  · dsimp only
    rw [lookalikes_scope lookalikes.disk (by decide +kernel) (by decide +kernel)]
    refine ⟨inTurn ⟨0, by decide⟩ ⟨1, by decide⟩, run_finished curt false (by decide), ?_⟩
    rw [lookalikes_scope _ (by decide +kernel) (by decide +kernel)]
    decide +kernel

end StagedFormat.Proofs.SettledRuns
