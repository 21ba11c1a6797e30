import Mathlib.Data.List.Basic
import StagedFormat.Proofs.PreCommitTargets

/-! What a pre-commit run guarantees, whichever of its writes version control refuses: files with
unstaged changes are not touched, index and working tree stay in step where the run reports success,
and a failure leaves the index entry as it was. -/

namespace StagedFormat.Proofs.PreCommitContract
open StagedFormat Git Listing PathSegments DiskFollowing DiskReplacement RepositoryEffects PreCommitScope
  PreCommitTargets

/-- The contents that a formatter makes of staged ones. -/
def Output (format : Formatter) (repository : Repository) (changes : List Change) (content : ByteArray) :
    Prop :=
  ∃ change ∈ changes, ∃ source formatted,
    repository.objects.lookup change.hash = some source.toUTF8 ∧ format source = .text formatted ∧
    content = formatted.toUTF8

/-- What a run may count on: the listing tells what is staged, for distinct paths; the files without
unstaged changes are checked out; and version control addresses objects by their content. -/
structure Prepared (format : Formatter) (resolver : Resolver) (workspace : Workspace)
    (arguments : List Path) (index : Index) (root : Path) (top : Location) (changes : List Change) :
    Prop where
  clean : ∀ change ∈ changes, Clean change.path
  modes : ∀ change ∈ changes, ',' ∉ change.mode.toList
  distinct : changes.Pairwise fun one other => one.path ≠ other.path
  listed : ∀ change ∈ changes,
    index.after workspace.repository.updates change.path = some ⟨change.mode, change.hash⟩
  reached : workspace.disk.find true root = .ok ⟨top, some .directory⟩
  files : ∀ change ∈ chosen resolver workspace.disk root arguments changes, change.isClean →
    CheckedOut workspace.disk workspace.repository top change
  addressed : Addressed workspace.repository (chosen resolver workspace.disk root arguments changes)
    (Output format workspace.repository (chosen resolver workspace.disk root arguments changes))

/-- The file has its formatted content already, but version control failed before its index entry
was changed. -/
def Halfway (format : Formatter) (top : Location) (before after : Workspace) (change : Change)
    (result : Result) : Prop :=
  change.isClean ∧ ∃ source formatted id new mode fault,
    before.disk.entry? (site top change) = some (.file id mode source.toUTF8) ∧
    format source = .text formatted ∧
    after.disk.entry? (site top change) = some (.file new mode formatted.toUTF8) ∧
    result = Pipeline.ioFailure change.path.text (.git fault) ∧
    (commandOf fault = (Command.writeBlob formatted.toUTF8).line ∨
      ∃ hash, commandOf fault = (Command.updateIndex change.mode hash change.path).line)

/-- What the result of a change says about its file and its index entry. -/
structure Contract (format : Formatter) (index : Index) (top : Location) (before after : Workspace)
    (change : Change) (result : Result) : Prop where
  named : result.name = change.path.text
  settled : result = .alreadyFormatted change.path.text ∨ result = .formatted change.path.text ∨
    result.isError
  agrees : change.isClean → ¬ result.isError → ∃ id mode content,
    after.disk.entry? (site top change) = some (.file id mode content) ∧
    staged (index.after after.repository.updates) after.repository change.path = some content
  formatted : result = .formatted change.path.text → ∃ source formatted hash,
    before.repository.objects.lookup change.hash = some source.toUTF8 ∧
    format source = .text formatted ∧
    index.after after.repository.updates change.path = some ⟨change.mode, hash⟩ ∧
    after.repository.objects.lookup hash = some formatted.toUTF8
  failed : result.isError →
    index.after after.repository.updates change.path =
      index.after before.repository.updates change.path ∧
    (after.disk.entry? (site top change) = before.disk.entry? (site top change) ∨
      Halfway format top before after change result)

section
variable {format : Formatter} {index : Index} {root : Path} {top : Location}
  {contents : ByteArray → Prop} {workspace : Workspace} {changes : List Change}

private theorem handles (change : Change) {rest : List Change}
    (ready : Ready format index root top contents workspace (change :: rest)) :
    Handles format index root top contents workspace change := by
  by_cases clean : change.isClean
  · exact pair_fate ready clean
  · exact blob_fate ready clean

/-- Each change of a run meets its fate, whatever becomes of the others. -/
theorem formatAll_fates (ready : Ready format index root top contents workspace changes) :
    ∃ (outcomes : List (Change × Result)) (handled : List Pipeline.Handled) (last : Workspace),
      Pipeline.formatAll format false workspace (changes.map (Resolver.stagedTarget root)) =
        (handled, last) ∧
      outcomes.map Prod.fst = changes ∧
      handled.mapM Pipeline.Handled.result = .ok (outcomes.map Prod.snd) ∧
      (∀ outcome ∈ outcomes, Fate format index top workspace last outcome.1 outcome.2) ∧
      Effect top contents changes workspace last := by
  induction changes generalizing workspace with
  | nil => exact ⟨[], [], workspace, rfl, rfl, rfl, nofun, .refl _ _ _ _⟩
  | cons change rest ih =>
    obtain ⟨result, characters, next, handled, fate, effect⟩ := handles change ready
    obtain ⟨outcomes, others, last, all, listed, results, fates, later⟩ := ih (ready.step effect)
    have apart := ready.head
    refine ⟨(change, result) :: outcomes, { result := .ok result, characters } :: others, last, ?_,
      congrArg (change :: ·) listed, ?_, ?_, effect.trans later⟩
    · rw [List.map_cons, Pipeline.formatAll, handled]
      simp only [all]
    · rw [List.mapM_cons, results]
      rfl
    · intro outcome member
      -- The later changes leave what the first one got; the first one leaves what they start from.
      rcases List.mem_cons.mp member with rfl | member
      · refine fate.later later (fun other inside => Ne.symm (apart other inside)) ?_
        intro source formatted object output stored
        have own := ready.outputs change List.mem_cons_self source formatted object output
        exact later.stored (ready.step effect).addressed own stored
      · have inside : outcome.1 ∈ rest := listed ▸ List.mem_map_of_mem member
        refine (fates outcome member).earlier effect ?_ ?_
        · intro other single
          cases List.mem_singleton.mp single
          exact apart outcome.1 inside
        · exact effect.known ready.addressed (.tail _ inside)

private theorem contract_of_fate {last : Workspace} {change : Change} {result : Result}
    (ready : Ready format index root top contents workspace changes) (member : change ∈ changes)
    (effect : Effect top contents changes workspace last)
    (fate : Fate format index top workspace last change result) :
    Contract format index top workspace last change result := by
  cases fate with
  | kept named harmless file listed =>
    refine ⟨named, harmless.elim (.inr ∘ .inr) .inl, ?_, ?_, fun _ => ⟨listed, .inl file⟩⟩
    · intro clean _
      obtain ⟨id, mode, content, stands, object⟩ := (ready.files change member clean).stands
      refine ⟨id, mode, content, file.trans stands, ?_⟩
      rw [staged, listed, ready.listed change member, Option.bind_some, effect.known ready.addressed member]
      exact object
    · rintro rfl
      rcases harmless with error | same
      · cases error
      · cases same
  | @formatted source formatted object output listed stored file =>
    refine ⟨rfl, .inr (.inl rfl), ?_, fun _ => ⟨source, formatted, _, object, output, listed, stored⟩, nofun⟩
    intro clean _
    obtain ⟨id, mode, stands⟩ := file clean
    exact ⟨id, mode, _, stands, by rw [staged, listed, Option.bind_some, stored]⟩
  | halfway clean object output file listed line =>
    exact ⟨rfl, .inr (.inr rfl), fun _ success => (success rfl).elim, nofun,
      fun _ => ⟨listed, .inr ⟨clean, _, _, _, _, _, _, object, output, file, rfl, line⟩⟩⟩

end

theorem Prepared.ready {format : Formatter} {resolver : Resolver} {workspace : Workspace}
    {arguments : List Path} {index : Index} {root : Path} {top : Location} {changes : List Change}
    (prepared : Prepared format resolver workspace arguments index root top changes)
    (calm : ∀ attempt, workspace.repository.crashes attempt = none) {next : Repository}
    (grows : Grows workspace.repository next [] []) :
    Ready format index root top
      (Output format workspace.repository (chosen resolver workspace.disk root arguments changes))
      { workspace with repository := next, poisoned := false }
      (chosen resolver workspace.disk root arguments changes) := by
  obtain ⟨attempts, rfl⟩ := grows.idle_cases
  refine ⟨rfl, calm, fun change member => prepared.clean change (chosen_subset member),
    fun change member => prepared.modes change (chosen_subset member), prepared.distinct.filter _,
    fun change member => prepared.listed change (chosen_subset member), leads_of_find prepared.reached, ?_,
    ⟨prepared.addressed.kept, prepared.addressed.apart, prepared.addressed.plain⟩, ?_⟩
  · intro change member clean
    have out := prepared.files change member clean
    exact ⟨out.above, out.stands, out.free⟩
  · intro change member source formatted object output
    exact ⟨change, member, source, formatted, object, output, rfl⟩

private theorem same_change {changes : List Change}
    (distinct : changes.Pairwise fun one other => one.path ≠ other.path) {one other : Change}
    (first : one ∈ changes) (second : other ∈ changes) (same : one.path = other.path) : one = other := by
  -- A list compares each change with the later ones only.
  let Agree (one other : Change) := one.path = other.path → one = other
  have ahead : changes.Pairwise Agree := distinct.imp fun apart same => (apart same).elim
  have back : changes.Pairwise (flip Agree) := distinct.imp fun apart same => (apart same.symm).elim
  exact ahead.forall_of_forall_of_flip (fun _ _ _ => rfl) back first second same

private theorem run_of_formatAll {format : Formatter} {resolver : Resolver} {workspace next last : Workspace}
    {request : Request} {targets : List Target} {handled : List Pipeline.Handled} {results : List Result}
    (mode : request.mode = .preCommit)
    (resolved : resolver.preCommit workspace request.files request.dryRun =
      (.ok { targets, dryRun := false }, next))
    (all : Pipeline.formatAll format false next targets = (handled, last))
    (each : handled.mapM Pipeline.Handled.result = .ok results) :
    ∃ counts, Pipeline.run format resolver workspace request =
      (.ok { Report.render (Result.sorted results) false with counts }, Pipeline.totalCharacters handled,
        last) := by
  refine ⟨if request.collectCounts then
    some (Pipeline.countsOf ⟨targets, false⟩ (Pipeline.totalCharacters handled)) else none, ?_⟩
  rw [Pipeline.run, Pipeline.resolve, mode]
  simp only [resolved, Pipeline.runScope, Pipeline.dispatch, all, each]
  rfl

/-- A pre-commit run reports an outcome for each chosen change. Files with unstaged changes are as
before, and the outcomes keep the contract. -/
theorem run_keeps_contract {format : Formatter} {resolver : Resolver} {workspace : Workspace}
    {request : Request} {index : Index} {root : Path} {top : Location} {listing : ByteArray}
    {changes : List Change} (mode : request.mode = .preCommit) (real : request.dryRun = false)
    (calm : ∀ attempt, workspace.repository.crashes attempt = none)
    (consulted : (resolver.consult workspace .status).1 = .ok (root, listing))
    (listed : Change.ofListing listing = .ok changes)
    (prepared : Prepared format resolver workspace request.files index root top changes) :
    ∃ (outcomes : List (Change × Result)) (counts : Option Counts) (characters : Nat) (after : Workspace),
      Pipeline.run format resolver workspace request =
        (.ok { Report.render (Result.sorted (outcomes.map Prod.snd)) false with counts }, characters,
          after) ∧
      outcomes.map Prod.fst = chosen resolver workspace.disk root request.files changes ∧
      (∀ change ∈ changes, ¬ change.isClean →
        after.disk.entry? (site top change) = workspace.disk.entry? (site top change)) ∧
      ∀ outcome ∈ outcomes, Contract format index top workspace after outcome.1 outcome.2 := by
  obtain ⟨next, resolved, grows⟩ := preCommit_ok consulted listed request.files request.dryRun
  have ready := prepared.ready calm grows
  obtain ⟨outcomes, handled, last, all, handledAll, results, fates, effect⟩ := formatAll_fates ready
  rw [real] at resolved
  obtain ⟨counts, ran⟩ := run_of_formatAll mode (by rw [real]; exact resolved) all results
  refine ⟨outcomes, counts, _, last, ran, handledAll, ?_, ?_⟩
  · intro change member unclean
    refine effect.others _ fun other inside clean same => unclean ?_
    rw [same_change prepared.distinct member (chosen_subset inside) (site_injective same)]
    exact clean
  · intro outcome member
    have inside := handledAll ▸ List.mem_map_of_mem member
    obtain ⟨attempts, rfl⟩ := grows.idle_cases
    obtain ⟨named, settled, agrees, formatted, failed⟩ :=
      contract_of_fate ready inside effect (fates outcome member)
    exact ⟨named, settled, agrees, formatted, failed⟩

def mixed : Workspace where
  disk := {
    entries := [(["repo"], .directory), (["repo", "A.kt"], .file 0 0o644 "a=1".toUTF8),
      (["repo", "B.kt"], .file 1 0o644 "b=3".toUTF8)]
    fresh := 2 }
  repository := {
    root := ⟨"/repo"⟩
    status := ("1 M. N... 100644 100644 100644 00 aa A.kt\x00" ++
      "1 MM N... 100644 100644 100644 00 bb B.kt\x00").toUTF8
    objects := [("aa", "a=1".toUTF8), ("bb", "b=2".toUTF8)] }

def mixedIndex : Index := fun path =>
  if path = ⟨"A.kt"⟩ then some ⟨"100644", "aa"⟩
  else if path = ⟨"B.kt"⟩ then some ⟨"100644", "bb"⟩
  else none

def changeA : Change := ⟨⟨"A.kt"⟩, "100644", "aa", 'M', '.'⟩

def changeB : Change := ⟨⟨"B.kt"⟩, "100644", "bb", 'M', 'M'⟩

private theorem mixed_consulted :
    (inRepo.consult mixed .status).1 = .ok (⟨"/repo"⟩, mixed.repository.status) :=
  consult_direct inRepo rfl (fun _ _ => rfl) ⟨"/repo", rfl⟩

private theorem mixed_listed : Change.ofListing mixed.repository.status = .ok [changeA, changeB] := by
  rw [mixed, ofListing_toUTF8]
  simp only [String.toList_append, String.reduceToList, List.cons_append, List.nil_append]
  rfl

private theorem mixed_output {content : ByteArray}
    (output : Output spacing mixed.repository [changeA, changeB] content) :
    content = "a = 1".toUTF8 ∨ content = "b = 2".toUTF8 := by
  obtain ⟨change, member, source, formatted, object, output, rfl⟩ := output
  rcases List.mem_cons.mp member with rfl | member
  · have same : "a=1" = source := String.toByteArray_inj.mp (Option.some.inj object)
    rw [← same, show spacing "a=1" = .text "a = 1" by cbv] at output
    cases output
    exact .inl rfl
  · cases List.mem_singleton.mp member
    have same : "b=2" = source := String.toByteArray_inj.mp (Option.some.inj object)
    rw [← same, show spacing "b=2" = .text "b = 2" by cbv] at output
    cases output
    exact .inr rfl

private theorem mixed_prepared :
    Prepared spacing inRepo mixed [] mixedIndex ⟨"/repo"⟩ ["repo"] [changeA, changeB] := by
  have all : chosen inRepo mixed.disk ⟨"/repo"⟩ [] [changeA, changeB] = [changeA, changeB] := by
    decide +kernel
  have first : hexHash "a = 1".toUTF8 = "38c2b90a1ce5cbd0" := by decide +kernel
  have second : hexHash "b = 2".toUTF8 = "83d1b971d75c0f80" := by decide +kernel
  have hash : mixed.repository.hash = hexHash := rfl
  refine ⟨by decide, by decide, by decide, ?_, rfl, ?_, ?_, ?_, ?_⟩
  · intro change member
    rcases List.mem_cons.mp member with rfl | member
    · rfl
    · cases List.mem_singleton.mp member
      rfl
  · rw [all]
    intro change member clean
    rcases List.mem_cons.mp member with rfl | member
    · refine ⟨?_, ⟨0, 0o644, "a=1".toUTF8, rfl, rfl⟩, by decide +kernel⟩
      intro upper leads different
      have whole : changeA.path.segments = [ByteString.ofText "A.kt"] := by decide
      rw [whole] at leads different
      rcases List.prefix_cons_iff.mp leads with rfl | ⟨rest, rfl, below⟩
      · rfl
      · exact (different (by rw [List.prefix_nil.mp below])).elim
    · cases List.mem_singleton.mp member
      cases clean
  · rw [all, hash]
    intro change member content output same
    have hashes : hexHash content ∉ ["aa", "bb"] := by
      rcases mixed_output output with rfl | rfl
      · rw [first]
        decide
      · rw [second]
        decide
    refine (hashes ?_).elim
    rw [same]
    rcases List.mem_cons.mp member with rfl | member
    · decide
    · cases List.mem_singleton.mp member
      decide
  · rw [all, hash]
    intro one other output output' same
    rcases mixed_output output with rfl | rfl <;> rcases mixed_output output' with rfl | rfl
    · rfl
    · rw [first, second] at same
      exact absurd same (by decide)
    · rw [first, second] at same
      exact absurd same (by decide)
    · rfl
  · rw [all, hash]
    intro content output
    rcases mixed_output output with rfl | rfl
    · rw [first]
      decide
    · rw [second]
      decide

theorem mixed_run_keeps_contract :
    ∃ (outcomes : List (Change × Result)) (counts : Option Counts) (characters : Nat) (after : Workspace),
      Pipeline.run spacing inRepo mixed ⟨.preCommit, [], false, false⟩ =
        (.ok { Report.render (Result.sorted (outcomes.map Prod.snd)) false with counts }, characters,
          after) ∧
      outcomes.map Prod.fst = chosen inRepo mixed.disk ⟨"/repo"⟩ [] [changeA, changeB] ∧
      (∀ change ∈ [changeA, changeB], ¬ change.isClean →
        after.disk.entry? (site ["repo"] change) = mixed.disk.entry? (site ["repo"] change)) ∧
      ∀ outcome ∈ outcomes, Contract spacing mixedIndex ["repo"] mixed after outcome.1 outcome.2 :=
  run_keeps_contract rfl rfl (fun _ => rfl) mixed_consulted mixed_listed mixed_prepared

end StagedFormat.Proofs.PreCommitContract
