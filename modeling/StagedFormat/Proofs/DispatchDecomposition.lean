import StagedFormat.Proofs.CalmRuns
import StagedFormat.Proofs.DispatchSchedules
import StagedFormat.Proofs.PathPlaces
import StagedFormat.Proofs.ResultOrder

/-! Handling the targets of a scope one after the other is one of the schedules of its workers. So is every
other order of the targets, and any number of workers at once: all end with the same results and leave the
same behind. -/

namespace StagedFormat.Proofs.DispatchDecomposition
open StagedFormat Pipeline Git Disk PathSegments DiskFollowing DiskReplacement PathSight
open WorkerSteps WorkspaceCells WorkerFootprints DispatchSchedules ResultOrder

def alone (format : Formatter) (dryRun : Bool) (start : Workspace) (target : Target) : Except String Result :=
  (formatTarget format dryRun start target).1.result

def readLength (start : Workspace) (target : Target) : Nat :=
  match (target.read start).1 with
  | .ok content => content.length
  | .error _ => 0

private theorem formatTarget_characters (format : Formatter) (dryRun : Bool) (start : Workspace) (target : Target) :
    (formatTarget format dryRun start target).1.characters = readLength start target := by
  unfold formatTarget readLength
  rcases target.read start with ⟨error | content, next⟩ <;> rfl

section
variable {format : Formatter} {dryRun : Bool} {start : Workspace} {targets : List Target}

/-- A worker can take all its steps in a row. -/
theorem run_replicate (pool : Pool targets) {worker : Fin targets.length} {result : Except String Result}
    {last : Shared} (ends : Ends format dryRun (targets.get worker) (pool.stages worker) pool.shared result last) :
    ∃ count, pool.run format dryRun (List.replicate count worker) =
      { shared := last, stages := Function.update pool.stages worker (.finished result) } := by
  generalize standing : pool.stages worker = stage at ends
  generalize sharing : pool.shared = shared at ends
  induction ends generalizing pool with
  | done =>
    refine ⟨0, ?_⟩
    rw [← standing, Function.update_eq_self, ← sharing]
    rfl
  | later stepped _ ih =>
    have turned : pool.turn format dryRun worker =
        { shared := (step format dryRun (targets.get worker) pool.shared (pool.stages worker)).2
          stages := Function.update pool.stages worker
            (step format dryRun (targets.get worker) pool.shared (pool.stages worker)).1 } := rfl
    rw [standing, sharing, stepped] at turned
    obtain ⟨count, onward⟩ := ih (pool.turn format dryRun worker)
      (by rw [turned]; exact Function.update_self ..) (by rw [turned])
    refine ⟨count + 1, onward.trans ?_⟩
    rw [turned, Function.update_idem]

private theorem run_waiting (pool : Pool targets) {worker : Fin targets.length}
    (waiting : pool.stages worker = .reading) :
    ∃ count, pool.run format dryRun (List.replicate count worker) =
      { shared :=
          { workspace := (formatTarget format dryRun pool.shared.workspace (targets.get worker)).2
            characters := pool.shared.characters +
              (formatTarget format dryRun pool.shared.workspace (targets.get worker)).1.characters }
        stages := Function.update pool.stages worker
          (.finished (formatTarget format dryRun pool.shared.workspace (targets.get worker)).1.result) } :=
  run_replicate pool (waiting ▸ ends_formatTarget pool.shared)

private theorem run_append (pool : Pool targets) (one other : List (Fin targets.length)) :
    pool.run format dryRun (one ++ other) = (pool.run format dryRun one).run format dryRun other :=
  List.foldl_append

variable (format dryRun) in
/-- Handling the targets from one on, one after the other. -/
theorem run_formatAll (first : Nat) (pool : Pool targets)
    (waiting : ∀ worker, first ≤ worker.val → pool.stages worker = .reading) :
    ∃ schedule,
      (pool.run format dryRun schedule).shared =
        { workspace := (formatAll format dryRun pool.shared.workspace (targets.drop first)).2
          characters := pool.shared.characters +
            totalCharacters (formatAll format dryRun pool.shared.workspace (targets.drop first)).1 } ∧
      (∀ worker, worker.val < first → (pool.run format dryRun schedule).stages worker = pool.stages worker) ∧
      ∀ worker, first ≤ worker.val → ∃ handled,
        (formatAll format dryRun pool.shared.workspace (targets.drop first)).1[worker.val - first]? =
          some handled ∧
        (pool.run format dryRun schedule).stages worker = .finished handled.result := by
  generalize left : targets.drop first = rest
  induction rest generalizing first pool with
  | nil =>
    refine ⟨[], rfl, fun _ _ => rfl, fun worker after => ?_⟩
    have bound := worker.isLt
    have none := List.drop_eq_nil_iff.mp left
    omega
  | cons target rest ih =>
    have bound : first < targets.length := by
      by_contra beyond
      rw [List.drop_eq_nil_of_le (Nat.le_of_not_lt beyond)] at left
      cases left
    obtain ⟨own, onward⟩ := List.cons.inj ((List.drop_eq_getElem_cons bound).symm.trans left)
    obtain ⟨count, moved⟩ := run_waiting pool (waiting ⟨first, bound⟩ (Nat.le_refl first))
    have own : targets.get ⟨first, bound⟩ = target := own
    rw [own] at moved
    generalize entered : pool.run format dryRun (List.replicate count ⟨first, bound⟩) = next at moved
    have others (worker : Fin targets.length) (different : worker.val ≠ first) :
        next.stages worker = pool.stages worker := by
      rw [moved]
      exact Function.update_of_ne (Fin.ne_of_val_ne different) _ _
    obtain ⟨schedule, shared, before, after⟩ := ih (first + 1) next
      (fun worker beyond => (others worker (by omega)).trans (waiting worker (by omega))) onward
    refine ⟨List.replicate count ⟨first, bound⟩ ++ schedule, ?_, ?_, ?_⟩
    · rw [run_append, entered, shared, moved]
      simp only [formatAll, totalCharacters, Nat.add_assoc]
    · intro worker earlier
      rw [run_append, entered, before worker (by omega)]
      exact others worker (by omega)
    · intro worker later
      rw [run_append, entered]
      rcases Nat.eq_or_lt_of_le later with same | beyond
      · refine ⟨_, by rw [← same, Nat.sub_self]; rfl, ?_⟩
        have here : worker = ⟨first, bound⟩ := Fin.ext same.symm
        rw [before worker (by omega), moved, here]
        exact Function.update_self ..
      · obtain ⟨handled, listed, finished⟩ := after worker beyond
        refine ⟨handled, ?_, finished⟩
        rw [moved] at listed
        rw [show worker.val - first = worker.val - (first + 1) + 1 by omega]
        exact listed

/-- What all workers of isolated targets have done together. -/
theorem run_settled (isolated : Isolated format dryRun start targets) {schedule : List (Fin targets.length)}
    (done : ((Pool.start start targets).run format dryRun schedule).Done) :
    (∀ worker, ((Pool.start start targets).run format dryRun schedule).stages worker =
        .finished (alone format dryRun start (targets.get worker))) ∧
      ((Pool.start start targets).run format dryRun schedule).shared.characters =
        (targets.map (readLength start)).sum ∧
      Decomposes format dryRun start targets
        ((Pool.start start targets).run format dryRun schedule).shared.workspace := by
  obtain ⟨_, _, tracks⟩ := tracks_run isolated (tracks_start targets) schedule
  obtain ⟨stages, characters, decomposes⟩ := tracks.settled isolated done
  refine ⟨stages, ?_, decomposes⟩
  rw [characters, ← Fin.sum_univ_fun_getElem]
  exact Finset.sum_congr rfl fun worker _ => formatTarget_characters format dryRun start targets[worker]

private theorem formatAll_length (workspace : Workspace) :
    (formatAll format dryRun workspace targets).1.length = targets.length := by
  induction targets generalizing workspace with
  | nil => rfl
  | cons target rest ih => exact congrArg Nat.succ (ih _)

private theorem formatAll_settled (isolated : Isolated format dryRun start targets) :
    (formatAll format dryRun start targets).1.map Handled.result = targets.map (alone format dryRun start) ∧
      totalCharacters (formatAll format dryRun start targets).1 = (targets.map (readLength start)).sum ∧
      Decomposes format dryRun start targets (formatAll format dryRun start targets).2 := by
  obtain ⟨schedule, shared, _, each⟩ :=
    run_formatAll format dryRun 0 (Pool.start start targets) fun _ _ => rfl
  simp only [List.drop_zero, Nat.sub_zero, Nat.zero_le, true_imp_iff, Pool.start, Nat.zero_add] at shared each
  have done : ((Pool.start start targets).run format dryRun schedule).Done := fun worker => by
    obtain ⟨handled, _, finished⟩ := each worker
    exact ⟨handled.result, finished⟩
  obtain ⟨stages, characters, decomposes⟩ := run_settled isolated done
  have shared : ((Pool.start start targets).run format dryRun schedule).shared = _ := shared
  rw [shared] at characters decomposes
  refine ⟨List.ext_getElem ?_ ?_, characters, decomposes⟩
  · rw [List.length_map, List.length_map, formatAll_length]
  · intro index _ bound
    rw [List.length_map] at bound
    obtain ⟨handled, listed, finished⟩ := each ⟨index, bound⟩
    obtain ⟨_, same⟩ := List.getElem?_eq_some_iff.mp listed
    have result := Stage.finished.inj (finished.symm.trans (stages ⟨index, bound⟩))
    rw [List.getElem_map, List.getElem_map, same, result]
    rfl

private theorem alone_results (calm : ∀ target ∈ targets, ∃ result, alone format dryRun start target = .ok result) :
    ∃ results : List Result, targets.map (alone format dryRun start) = results.map .ok := by
  induction targets with
  | nil => exact ⟨[], rfl⟩
  | cons target rest ih =>
    obtain ⟨result, here⟩ := calm target List.mem_cons_self
    obtain ⟨results, others⟩ := ih fun other inside => calm other (.tail _ inside)
    exact ⟨result :: results, by rw [List.map_cons, List.map_cons, here, others]⟩

theorem mapM_result {handled : List Handled} {results : List Result} :
    handled.mapM Handled.result = .ok results ↔ handled.map Handled.result = results.map .ok := by
  induction handled generalizing results with
  | nil =>
    constructor
    · rintro ⟨⟩
      rfl
    · intro each
      cases List.map_eq_nil_iff.mp each.symm
      rfl
  | cons first rest ih =>
    rw [List.mapM_cons, List.map_cons]
    constructor
    · intro all
      cases here : first.result with
      | error message => rw [here] at all; cases all
      | ok result =>
        cases there : rest.mapM Handled.result with
        | error message => rw [here, there] at all; cases all
        | ok others =>
          rw [here, there] at all
          cases all
          rw [ih.mp there, List.map_cons]
    · intro each
      obtain ⟨result, others, rfl, here, there⟩ := List.map_eq_cons_iff.mp each.symm
      rw [← here, ih.mpr there.symm]
      rfl

end

/-- A pool that is done: each worker has the result that its target has alone, and in the order of reports
these are the same results; the same number of characters was read, and the same workspace is left. -/
structure Concludes (format : Formatter) (dryRun : Bool) (start : Workspace) {order : List Target}
    (pool : Pool order) (report : List Result) (characters : Nat) (last : Workspace) : Prop where
  results : ∃ outcomes : List Result, order.map (alone format dryRun start) = outcomes.map .ok ∧
    List.ofFn pool.stages = outcomes.map (fun outcome => .finished (.ok outcome)) ∧
    SameReport (Result.sorted outcomes) report
  characters : pool.shared.characters = characters
  view : view pool.shared.workspace = view last

/-- A scope of isolated targets decomposes: whatever becomes of one target, including a crash of the
formatter, each has the result and the effect that it has alone. This holds for the targets one after the
other and for all schedules of workers for them in any order. -/
theorem dispatch_decomposes {format : Formatter} {start : Workspace} {scope : Scope}
    (isolated : Isolated format scope.dryRun start scope.targets) :
    ∃ (results : List Result) (last : Workspace),
      scope.targets.map (alone format scope.dryRun start) = results.map .ok ∧
      dispatch format start scope =
        (.ok (Result.sorted results), (scope.targets.map (readLength start)).sum, last) ∧
      Decomposes format scope.dryRun start scope.targets last ∧
      ∀ (order : List Target) (schedule : List (Fin order.length)), order.Perm scope.targets →
        ((∀ worker, turns ≤ schedule.count worker) →
          ((Pool.start start order).run format scope.dryRun schedule).Done) ∧
        (((Pool.start start order).run format scope.dryRun schedule).Done →
          Concludes format scope.dryRun start ((Pool.start start order).run format scope.dryRun schedule)
            (Result.sorted results) (scope.targets.map (readLength start)).sum last) := by
  have calm (target : Target) (inside : target ∈ scope.targets) :
      ∃ result, alone format scope.dryRun start target = .ok result := by
    obtain ⟨result, _, _, handled, _⟩ :=
      CalmRuns.formatTarget_calm (isolated.tame target inside).calm format scope.dryRun target
    exact ⟨result, by rw [alone, handled]⟩
  obtain ⟨results, each⟩ := alone_results calm
  obtain ⟨handled, characters, decomposes⟩ := formatAll_settled isolated
  refine ⟨results, _, each, ?_, decomposes, fun order schedule same => ⟨run_finished _ _, fun done => ?_⟩⟩
  · simp only [dispatch, mapM_result.mpr (handled.trans each), characters]
    rfl
  · obtain ⟨outcomes, each'⟩ := alone_results fun target inside => calm target (same.mem_iff.mp inside)
    obtain ⟨stages, characters', decomposes'⟩ := run_settled (isolated.of_perm same) done
    refine ⟨⟨outcomes, each', ?_, sorted_of_perm ?_⟩, ?_, ?_⟩
    · calc List.ofFn ((Pool.start start order).run format scope.dryRun schedule).stages
          = order.map fun target => Stage.finished (alone format scope.dryRun start target) := by
            rw [funext stages]
            exact List.ofFn_getElem_eq_map order fun target => Stage.finished (alone format scope.dryRun start target)
        _ = (order.map (alone format scope.dryRun start)).map Stage.finished := List.map_map.symm
        _ = outcomes.map fun outcome => Stage.finished (.ok outcome) := by rw [each', List.map_map]; rfl
    · have perm := same.map (alone format scope.dryRun start)
      rw [each, each'] at perm
      exact (List.map_perm_map_iff fun _ _ => Except.ok.inj).mp perm
    · rw [characters']
      exact (same.map (readLength start)).sum_eq
    · exact (decomposes.view_eq decomposes' same).symm

private theorem pending_unique {format : Formatter} {dryRun : Bool} {start : Workspace} {target : Target}
    {source formatted text : String} (read : (target.read start).1 = .ok source)
    (formats : format source = .text formatted) (pending : Pending format dryRun start target text) :
    text = formatted := by
  obtain ⟨_, _, again, made, _⟩ := pending
  cases read.symm.trans again
  exact (Verdict.text.inj (formats.symm.trans made)).symm

def fileAt (name : ByteString) : Target := .file { path := Location.path [name] }

def blobAt (name : ByteString) (hash : String) : Target := .blob ⟨⟨"/"⟩, ⟨name⟩, "100644", hash⟩

def shelf (entries : List (String × Entry)) : Disk where
  entries := entries.map fun item => ([item.1], item.2)
  fresh := entries.length

section
variable {start : Workspace} {name name' : ByteString} {hash hash' : String}

private theorem home_fileAt {home : Location} (straight : Straight start.disk (Location.path [name]) [name])
    (at_home : Home start.disk (fileAt name) home) : home = [name] :=
  home_of_straight straight rfl at_home

private theorem distinct_files (one : Straight start.disk (Location.path [name]) [name])
    (two : Straight start.disk (Location.path [name']) [name'])
    (apart : [name] ≠ [name'] ∧ [name] ≠ beside [name'] ∧ [name'] ≠ beside [name]) :
    Distinct start (fileAt name) (fileAt name') where
  files home home' here there := by
    rw [home_fileAt one here, home_fileAt two there]
    exact apart
  index _ _ own := by cases own
  streams _ own := by cases own

private theorem distinct_file_blob : Distinct start (fileAt name) (blobAt name' hash') where
  files _ _ _ there := by
    obtain ⟨_, _, _, _, own, _⟩ := there
    cases own
  index _ _ own := by cases own
  streams _ own := by cases own

private theorem distinct_blobs (apart : (⟨name⟩ : Path) ≠ ⟨name'⟩) :
    Distinct start (blobAt name hash) (blobAt name' hash') where
  files _ _ here := by
    obtain ⟨_, _, _, _, own, _⟩ := here
    cases own
  index _ _ own own' := by
    cases own
    cases own'
    exact apart
  streams _ own := by cases own

private theorem not_home_blobAt {disk : Disk} {home : Location} : ¬ Home disk (blobAt name hash) home := by
  rintro ⟨_, _, _, _, own, _⟩
  cases own

variable {format : Formatter} {dryRun : Bool} {other : Target}

private theorem spares_file (straight : Straight start.disk (Location.path [name]) [name])
    (distinct : Distinct start (fileAt name) other)
    (apart : ∀ home, Home start.disk other home → [name] ≠ beside home) :
    Spares format dryRun start other (fileAt name) := by
  refine .of_straight distinct ?_ ?_
  · intro file own
    cases own
    exact ⟨[name], straight, apart⟩
  · intro blob own
    cases own

private theorem spares_blob (distinct : Distinct start (blobAt name hash) other) :
    Spares format dryRun start other (blobAt name hash) := by
  refine .of_straight distinct ?_ ?_
  · intro file own
    cases own
  · intro blob own
    cases own
    exact .inl rfl

private theorem spares_file_blob (straight : Straight start.disk (Location.path [name]) [name]) :
    Spares format dryRun start (blobAt name' hash') (fileAt name) ∧
      Spares format dryRun start (fileAt name) (blobAt name' hash') :=
  ⟨spares_file straight distinct_file_blob fun _ there => (not_home_blobAt there).elim,
    spares_blob distinct_file_blob.symm⟩

end

def brittle : Formatter := fun source => if source = "b=2" then .crashed "no layout" else spacing source

def mixed : Workspace where
  disk := shelf [("A.kt", .file 0 plainMode "a=1".toUTF8), ("B.kt", .file 1 plainMode "b=2".toUTF8)]
  repository := { root := ⟨"/"⟩, objects := [(hexHash "c=3".toUTF8, "c=3".toUTF8)] }

def mixedScope : Scope where
  targets := [fileAt "A.kt", fileAt "B.kt", blobAt "C.kt" (hexHash "c=3".toUTF8)]
  dryRun := false

private theorem mixed_unlinked : ∀ location link, mixed.disk.entry? location ≠ some (.link link) :=
  PathPlaces.linkFree_of_entries (by decide)

private theorem mixed_pending {target : Target} (inside : target ∈ mixedScope.targets) {text : String}
    (pending : Pending brittle false mixed target text) : text = "a = 1" ∨ text = "c = 3" := by
  simp only [mixedScope, List.mem_cons, List.not_mem_nil, or_false] at inside
  rcases inside with rfl | rfl | rfl
  · have held : ((fileAt "A.kt").read mixed).1 = .ok "a=1" := by decide +kernel
    exact .inl (pending_unique held (by decide +kernel) pending)
  · obtain ⟨_, _, read, formats, _⟩ := pending
    have held : ((fileAt "B.kt").read mixed).1 = .ok "b=2" := by decide +kernel
    cases held.symm.trans read
    cases formats
  · have held : ((blobAt "C.kt" (hexHash "c=3".toUTF8)).read mixed).1 = .ok "c=3" := by decide +kernel
    exact .inr (pending_unique held (by decide +kernel) pending)

private theorem mixed_straight {name : ByteString} (proper : Proper name) :
    Straight mixed.disk (Location.path [name]) [name] :=
  straight_top proper (mixed_unlinked _)

private theorem mixed_tame {target : Target} (inside : target ∈ mixedScope.targets) :
    Tame brittle mixedScope.dryRun mixed target where
  uniform _ _ _ := rfl
  calm _ := rfl
  legible home _ there _ := by
    simp only [mixedScope, List.mem_cons, List.not_mem_nil, or_false] at inside
    rcases inside with rfl | rfl | rfl
    · rw [home_fileAt (mixed_straight (by decide)) there]
      decide
    · rw [home_fileAt (mixed_straight (by decide)) there]
      decide
    · exact (not_home_blobAt there).elim
  unlinked home _ _ _ := mixed_unlinked (beside home)
  modes blob own := by
    simp only [mixedScope, List.mem_cons, List.not_mem_nil, or_false] at inside
    rcases inside with rfl | rfl | rfl <;> cases own
    decide
  hashes text pending := by
    rcases mixed_pending inside pending with rfl | rfl <;> decide +kernel

private theorem mixed_isolated : Isolated brittle mixedScope.dryRun mixed mixedScope.targets where
  tame _ := mixed_tame
  apart := by
    have a : Straight mixed.disk (Location.path ["A.kt"]) ["A.kt"] := mixed_straight (by decide)
    have b : Straight mixed.disk (Location.path ["B.kt"]) ["B.kt"] := mixed_straight (by decide)
    have both := distinct_files a b (by decide)
    refine .cons ?_ (.cons ?_ (.cons nofun .nil))
    · intro other inside
      rcases List.mem_cons.mp inside with rfl | inside
      · exact ⟨spares_file a both fun home there => home_fileAt b there ▸ by decide,
          spares_file b both.symm fun home there => home_fileAt a there ▸ by decide⟩
      · cases List.mem_singleton.mp inside
        exact spares_file_blob a
    · intro other inside
      cases List.mem_singleton.mp inside
      exact spares_file_blob b
  kept := by
    intro blob own other inside content stores
    obtain ⟨same, text, pending, held⟩ := stores
    simp only [mixedScope, List.mem_cons, List.not_mem_nil, or_false] at own
    rcases own with own | own | own <;> cases own
    rcases mixed_pending inside pending with rfl | rfl <;>
    · cases held
      exact absurd same (by decide +kernel)
  unique := by
    rintro one inside other inside' hash content content' ⟨same, text, pending, held⟩ ⟨same', text', pending', held'⟩
    cases held
    cases held'
    have different : hexHash "a = 1".toUTF8 ≠ hexHash "c = 3".toUTF8 := by decide +kernel
    rcases mixed_pending inside pending with rfl | rfl <;>
      rcases mixed_pending inside' pending' with rfl | rfl
    · rfl
    · exact (different (same.symm.trans same')).elim
    · exact (different (same'.symm.trans same)).elim
    · rfl

/-- One of three targets crashes the formatter. However the workers interleave, the other two are formatted. -/
theorem mixed_decomposes : Isolated brittle mixedScope.dryRun mixed mixedScope.targets ∧
    ∀ schedule : List (Fin mixedScope.targets.length), (∀ worker, turns ≤ schedule.count worker) →
      let pool := (Pool.start mixed mixedScope.targets).run brittle mixedScope.dryRun schedule
      List.ofFn pool.stages = [.formatted "/A.kt",
          .error "/B.kt" "Unexpected error formatting /B.kt: no layout" .crash, .formatted "C.kt"].map
            (fun outcome => Stage.finished (.ok outcome)) ∧
        pool.shared.characters = 9 ∧
        view pool.shared.workspace = view (dispatch brittle mixed mixedScope).2.2 := by
  refine ⟨mixed_isolated, fun schedule fair => ?_⟩
  obtain ⟨results, last, each, ran, _, all⟩ := dispatch_decomposes mixed_isolated
  obtain ⟨done, concludes⟩ := all mixedScope.targets schedule (.refl _)
  obtain ⟨⟨outcomes, same, stages, _⟩, characters, left⟩ := concludes (done fair)
  have known : mixedScope.targets.map (alone brittle mixedScope.dryRun mixed) = [.formatted "/A.kt",
      .error "/B.kt" "Unexpected error formatting /B.kt: no layout" .crash, .formatted "C.kt"].map .ok := by
    decide +kernel
  rw [(List.map_injective_iff.mpr fun _ _ => Except.ok.inj) (same.symm.trans known)] at stages
  refine ⟨stages, characters.trans (by decide +kernel), ?_⟩
  rw [left, ran]

/-- What is reported of a scope is what its targets come to alone. -/
def ReportsAlone (format : Formatter) (start : Workspace) (scope : Scope) : Prop :=
  ∃ results report, scope.targets.map (alone format scope.dryRun start) = results.map .ok ∧
    (dispatch format start scope).1 = .ok report ∧ SameReport report (Result.sorted results)

theorem ReportsAlone.perm {format : Formatter} {start : Workspace} {scope : Scope}
    (reports : ReportsAlone format start scope) :
    ((formatAll format scope.dryRun start scope.targets).1.map Handled.result).Perm
      (scope.targets.map (alone format scope.dryRun start)) := by
  obtain ⟨results, report, each, ran, same⟩ := reports
  have ran : (((formatAll format scope.dryRun start scope.targets).1.mapM Handled.result).mapError
      PipelineFault.crashed).map Result.sorted = .ok report := ran
  cases all : (formatAll format scope.dryRun start scope.targets).1.mapM Handled.result with
  | error message => rw [all] at ran; cases ran
  | ok outcomes =>
    rw [all] at ran
    cases ran
    rw [mapM_result.mp all, each]
    have perm := (List.mergeSort_perm outcomes _).symm.trans (same.results.trans (List.mergeSort_perm results _))
    exact perm.map Except.ok

/-- A link that leads through what stands where the temporary file of another target goes. -/
def passing : Workspace where
  disk := shelf [("A.kt", .file 0 plainMode "a=1".toUTF8), ("Z.kt", .file 1 plainMode "z = 1".toUTF8),
    ("A.kt.stagefmt.tmp", .link ⟨"Z.kt"⟩), ("L.kt", .link ⟨"A.kt.stagefmt.tmp"⟩)]
  repository := { root := ⟨"/"⟩ }

def passingScope : Scope where
  targets := [fileAt "A.kt", fileAt "L.kt"]
  dryRun := false

def linked : Workspace where
  disk := shelf [("A.kt", .file 0 plainMode "a=1".toUTF8), ("B.kt", .file 1 plainMode "b=2".toUTF8),
    ("C.kt", .file 2 plainMode "".toUTF8), ("A.kt.stagefmt.tmp", .link ⟨"C.kt"⟩),
    ("B.kt.stagefmt.tmp", .link ⟨"C.kt"⟩)]
  repository := { root := ⟨"/"⟩ }

def staged : Workspace where
  disk := shelf []
  repository := { root := ⟨"/"⟩, objects := [(hexHash "a=1".toUTF8, "a=1".toUTF8)] }

/-- The second object is missing until the first target is formatted. -/
def missingScope : Scope where
  targets := [blobAt "A.kt" (hexHash "a=1".toUTF8), blobAt "B.kt" (hexHash "a = 1".toUTF8)]
  dryRun := false

def refusing : Workspace :=
  { staged with repository.refuses := fun attempt _ => if attempt = 0 then some "busy" else none }

def twinScope : Scope where
  targets := [blobAt "A.kt" (hexHash "a=1".toUTF8), blobAt "B.kt" (hexHash "a=1".toUTF8)]
  dryRun := false

def unprintable (byte : UInt8) : ByteString := ⟨[byte]⟩ ++ ".kt"

/-- Two files with one temporary file, since their names look alike. -/
def lookalikes : Workspace where
  disk :=
    { entries := [([unprintable 0xFE], .file 0 plainMode "a=1".toUTF8),
        ([unprintable 0xFF], .file 1 plainMode "b=2".toUTF8)]
      fresh := 2 }
  repository := { root := ⟨"/"⟩ }

def lookalikeScope : Scope where
  targets := [fileAt (unprintable 0xFE), fileAt (unprintable 0xFF)]
  dryRun := false

def oneByOne (one other : Fin lookalikeScope.targets.length) : List (Fin lookalikeScope.targets.length) :=
  List.replicate turns one ++ List.replicate turns other

def inTurn (one other : Fin lookalikeScope.targets.length) : List (Fin lookalikeScope.targets.length) :=
  (List.replicate turns [one, other]).flatten

/-- What the first of two files that look alike holds in the end. -/
def firstLeft (schedule : List (Fin lookalikeScope.targets.length)) : Except IoError String :=
  ((Pool.start lookalikes lookalikeScope.targets).run spacing false schedule).shared.workspace.disk.readText
    (Location.path [unprintable 0xFE])

/-- Distinct targets can still meet: on the way through a temporary file, where temporary files are links, in
an object that one refers to and another stores, in a repository that refuses commands by their number, and
where names that are no texts look alike. -/
theorem distinct_targets_meet :
    (passingScope.targets.Pairwise (Distinct passing) ∧ ¬ ReportsAlone spacing passing passingScope) ∧
    (Distinct linked (fileAt "A.kt") (fileAt "B.kt") ∧
      (dispatch spacing linked ⟨[fileAt "A.kt", fileAt "B.kt"], false⟩).2.2.disk.readText ⟨"/A.kt"⟩ =
        .ok "b = 2" ∧
      (dispatch spacing linked ⟨[fileAt "B.kt", fileAt "A.kt"], false⟩).2.2.disk.readText ⟨"/A.kt"⟩ =
        .ok "a = 1") ∧
    (missingScope.targets.Pairwise (Distinct staged) ∧ ¬ ReportsAlone spacing staged missingScope) ∧
    (twinScope.targets.Pairwise (Distinct refusing) ∧ ¬ ReportsAlone spacing refusing twinScope) ∧
    lookalikeScope.targets.Pairwise (Distinct lookalikes) ∧
      firstLeft (oneByOne ⟨0, by decide⟩ ⟨1, by decide⟩) = .ok "a = 1" ∧
      firstLeft (inTurn ⟨0, by decide⟩ ⟨1, by decide⟩) = .ok "b = 2" := by
  refine ⟨⟨?_, fun same => absurd same.perm (by decide +kernel)⟩, ⟨?_, by decide +kernel, by decide +kernel⟩,
    ⟨?_, fun same => absurd same.perm (by decide +kernel)⟩,
    ⟨?_, fun same => absurd same.perm (by decide +kernel)⟩, ?_, by decide +kernel, by decide +kernel⟩
  · have ends (name : String) (location : Location)
        (leads : (passing.disk.find true (Location.path [name])).map Place.location = .ok location)
        (home : Location) (at_home : Home passing.disk (fileAt name) home) : home = location := by
      obtain ⟨_, _, _, _, own, found⟩ := at_home
      cases own
      rw [found] at leads
      cases leads
      rfl
    refine List.pairwise_pair.mpr ⟨fun home home' here there => ?_, nofun, nofun⟩
    rw [ends "A.kt" ["A.kt"] (by decide +kernel) home here, ends "L.kt" ["Z.kt"] (by decide +kernel) home' there]
    decide
  · have file (name : String) (proper : Proper name)
        (stands : (linked.disk.entry? [name]).any Entry.isFile) :
        Straight linked.disk (Location.path [name]) [name] :=
      straight_top proper fun link found => by rw [found] at stands; cases stands
    exact distinct_files (file "A.kt" (by decide) (by decide)) (file "B.kt" (by decide) (by decide)) (by decide)
  · exact List.pairwise_pair.mpr (distinct_blobs (by decide))
  · exact List.pairwise_pair.mpr (distinct_blobs (by decide))
  · have unlinked : ∀ location link, lookalikes.disk.entry? location ≠ some (.link link) :=
      PathPlaces.linkFree_of_entries (by decide)
    exact List.pairwise_pair.mpr (distinct_files (straight_top (by decide) (unlinked _))
      (straight_top (by decide) (unlinked _)) (by decide))

end StagedFormat.Proofs.DispatchDecomposition
