import Mathlib.Algebra.BigOperators.Fin
import StagedFormat.Proofs.WorkerFootprints

/-! Workers for all targets of a scope, one for each, whose steps interleave in any order. Where no
target disturbs another one, each worker goes the way that it would go alone. -/

namespace StagedFormat.Proofs.DispatchSchedules
open StagedFormat Pipeline Git Disk PathSegments DiskFollowing DiskReplacement PathSight
open WorkerSteps WorkspaceCells WorkerFootprints

/-- What the workers share, and where each of them is. -/
structure Pool (targets : List Target) where
  shared : Shared
  stages : Fin targets.length → Stage

namespace Pool

def start (workspace : Workspace) (targets : List Target) : Pool targets where
  shared := { workspace }
  stages _ := .reading

def turn {targets : List Target} (format : Formatter) (dryRun : Bool) (pool : Pool targets)
    (worker : Fin targets.length) : Pool targets :=
  let (stage, shared) := step format dryRun targets[worker] pool.shared (pool.stages worker)
  { shared, stages := Function.update pool.stages worker stage }

private theorem turn_eq {targets : List Target} (format : Formatter) (dryRun : Bool) (pool : Pool targets)
    (worker : Fin targets.length) :
    pool.turn format dryRun worker =
      { shared := (step format dryRun targets[worker] pool.shared (pool.stages worker)).2
        stages := Function.update pool.stages worker
          (step format dryRun targets[worker] pool.shared (pool.stages worker)).1 } := rfl

def run {targets : List Target} (format : Formatter) (dryRun : Bool) (pool : Pool targets)
    (schedule : List (Fin targets.length)) : Pool targets :=
  schedule.foldl (turn format dryRun) pool

def Done {targets : List Target} (pool : Pool targets) : Prop :=
  ∀ worker, ∃ result, pool.stages worker = .finished result

end Pool

/-- Different files, neither of which is the temporary file of the other, and different entries of the
index. -/
structure Distinct (start : Workspace) (one other : Target) : Prop where
  files : ∀ home home', Home start.disk one home → Home start.disk other home' →
    home ≠ home' ∧ home ≠ beside home' ∧ home' ≠ beside home
  index : ∀ blob blob', staged? one = some blob → staged? other = some blob' →
    blob.path ≠ blob'.path
  streams : ∀ slot, one = .stream slot → other ≠ .stream slot

theorem Distinct.symm {start : Workspace} {one other : Target} (distinct : Distinct start one other) :
    Distinct start other one where
  files home home' here there := by
    obtain ⟨away, first, second⟩ := distinct.files home' home there here
    exact ⟨away.symm, second, first⟩
  index blob blob' here there := (distinct.index blob' blob there here).symm
  streams slot here there := distinct.streams slot there here

/-- What is written for one target is not looked at for another one. Where a directory stands, no
temporary file can be written. -/
structure Spares (format : Formatter) (dryRun : Bool) (start : Workspace) (other one : Target) : Prop
    extends Distinct start one other where
  ways : ∀ home text, Home start.disk other home → Pending format dryRun start other text →
    start.disk.entry? (beside home) ≠ some .directory →
      (∀ file, working? one = some file → ¬ Looks start.disk true [] (steps file.path) (beside home)) ∧
      ∀ blob, staged? one = some blob → ¬ Looks start.disk true [] (steps blob.root) (beside home)

theorem home_of_straight {disk : Disk} {target : Target} {file : WorkingFile} {location home : Location}
    (straight : Straight disk file.path location) (own : working? target = some file)
    (at_home : Home disk target home) : home = location := by
  obtain ⟨_, _, _, _, own', found⟩ := at_home
  cases own.symm.trans own'
  exact straight.leads found

/-- Where no path passes a link, distinct targets leave each other alone. -/
theorem Spares.of_straight {format : Formatter} {dryRun : Bool} {start : Workspace} {one other : Target}
    (distinct : Distinct start one other)
    (straight : ∀ file, working? one = some file → ∃ location, Straight start.disk file.path location ∧
      ∀ home, Home start.disk other home → location ≠ beside home)
    (roots : ∀ blob, staged? one = some blob → blob.root = ⟨"/"⟩ ∨ ∃ location,
      Straight start.disk blob.root location ∧ start.disk.entry? location = some .directory) :
    Spares format dryRun start other one where
  toDistinct := distinct
  ways home _ there _ room := by
    constructor
    · intro file own looks
      obtain ⟨location, straight, apart⟩ := straight file own
      exact room (straight.grounded.above _ (straight.looks looks) (apart home there).symm)
    · intro blob own looks
      rcases roots blob own with top | ⟨location, straight, stands⟩
      · rw [top] at looks
        exact not_looks_top looks
      · by_cases same : beside home = location
        · exact room (same ▸ stands)
        · exact room (straight.grounded.above _ (straight.looks looks) same)

/-- The targets of a scope have nothing to do with each other, and objects are addressed by content as
far as the targets refer to them or store them. -/
structure Isolated (format : Formatter) (dryRun : Bool) (start : Workspace) (targets : List Target) :
    Prop where
  apart : targets.Pairwise fun one other =>
    Spares format dryRun start other one ∧ Spares format dryRun start one other
  tame : ∀ target ∈ targets, Tame format dryRun start target
  kept : ∀ blob, Target.blob blob ∈ targets → ∀ other ∈ targets, ∀ content,
    Stores format dryRun start other (blob.hash, content) →
      start.repository.objects.lookup blob.hash = some content
  unique : ∀ one ∈ targets, ∀ other ∈ targets, ∀ hash content content',
    Stores format dryRun start one (hash, content) → Stores format dryRun start other (hash, content') →
      content = content'

/-- What is written for one target is in no cell that another worker looks at. -/
theorem Spares.disjoint {format : Formatter} {dryRun : Bool} {start : Workspace} {one other : Target}
    (spares : Spares format dryRun start other one) {cell : Cell} (sees : Sees start one cell) :
    ¬ Writes format dryRun start other cell := by
  intro writes
  cases cell with
  | entry location =>
    obtain ⟨home, here, own⟩ := sees
    obtain ⟨home', text, there, _, changed⟩ := writes
    obtain ⟨away, first, second⟩ := spares.files home home' here there
    rcases own with rfl | rfl <;> rcases changed with same | same
    · exact away same
    · exact first same
    · exact second same.symm
    · exact away (beside_injective here.nonempty there.nonempty same)
  | shape location =>
    obtain ⟨home', text, there, pending, rfl, room⟩ := writes
    have ways := spares.ways home' text there pending room
    rcases sees with ⟨file, own, looks⟩ | ⟨blob, own, looks⟩ | ⟨home, here, above | same⟩
    · exact ways.1 file own looks
    · exact ways.2 blob own looks
    · obtain ⟨_, first, _⟩ := spares.files home home' here there
      exact room (here.grounded.above _ above first.symm)
    · obtain ⟨away, _, _⟩ := spares.files home home' here there
      exact away (beside_injective here.nonempty there.nonempty same.symm)
  | index path =>
    obtain ⟨blob, own, rfl⟩ := sees
    obtain ⟨blob', text, there, _, same⟩ := writes
    exact spares.index blob blob' own there same
  | object hash => exact sees.elim
  | stream slot => exact spares.streams slot sees writes
  | settings => exact writes.elim

private theorem sees_of_writes {format : Formatter} {dryRun : Bool} {start : Workspace} {target : Target}
    {cell : Cell} (shared : ∀ hash, cell ≠ .object hash) (writes : Writes format dryRun start target cell) :
    Sees start target cell := by
  cases cell with
  | entry location =>
    obtain ⟨home, _, here, _, own⟩ := writes
    exact ⟨home, here, own⟩
  | shape location =>
    obtain ⟨home, _, here, _, own, _⟩ := writes
    exact .inr (.inr ⟨home, here, .inr own⟩)
  | index path =>
    obtain ⟨blob, _, own, _, same⟩ := writes
    exact ⟨blob, own, same⟩
  | object hash => exact (shared hash rfl).elim
  | stream slot => exact writes
  | settings => exact writes.elim

private theorem mem_of_lookup {α β : Type} [BEq α] [LawfulBEq α] {items : List (α × β)} {key : α} {value : β}
    (found : items.lookup key = some value) : (key, value) ∈ items := by
  obtain ⟨front, back, rfl, _⟩ := List.lookup_eq_some_iff.mp found
  exact List.mem_append_right _ List.mem_cons_self

/-- A worker is where it would be if it had taken its steps alone, from the start to a workspace of its
own. -/
structure Track (format : Formatter) (dryRun : Bool) (start : Workspace) (target : Target)
    (busy : Workspace) (stage : Stage) (solo : Shared) (stored : List (String × ByteArray)) : Prop where
  known : Known format dryRun start target solo.workspace stage
  routed : Routed solo.workspace.disk start.disk
  ends : Ends format dryRun target stage solo (formatTarget format dryRun start target).1.result
    { workspace := (formatTarget format dryRun start target).2
      characters := (formatTarget format dryRun start target).1.characters }
  agrees : Agrees start target busy solo.workspace
  frame : ∀ cell, ¬ Writes format dryRun start target cell → view solo.workspace cell = view start cell
  objects : solo.workspace.repository.objects = stored ++ start.repository.objects
  stores : ∀ item ∈ stored, Stores format dryRun start target item

/-- All workers of a pool are where they would be alone, and the pool is what all have changed. -/
structure Tracks (format : Formatter) (dryRun : Bool) (start : Workspace) {targets : List Target}
    (pool : Pool targets) (solo : Fin targets.length → Shared)
    (stored : Fin targets.length → List (String × ByteArray)) : Prop where
  each : ∀ worker, Track format dryRun start targets[worker] pool.shared.workspace (pool.stages worker)
    (solo worker) (stored worker)
  rest : ∀ cell, (∀ worker : Fin targets.length, ¬ Writes format dryRun start targets[worker] cell) →
    view pool.shared.workspace cell = view start cell
  pooled : ∃ all, pool.shared.workspace.repository.objects = all ++ start.repository.objects ∧
    ∀ item, item ∈ all ↔ ∃ worker, item ∈ stored worker
  characters : pool.shared.characters = ∑ worker, (solo worker).characters

section
variable {format : Formatter} {dryRun : Bool} {start : Workspace} {targets : List Target}

private theorem track_start (target : Target) :
    Track format dryRun start target start .reading { workspace := start } [] where
  known := rfl
  routed _ _ _ := Iff.rfl
  ends := by
    have ends : Ends format dryRun target .reading { workspace := start } _ _ :=
      ends_formatTarget { workspace := start }
    simp only [Nat.zero_add] at ends
    exact ends
  agrees _ _ := rfl
  frame _ _ := rfl
  objects := rfl
  stores := nofun

theorem tracks_start (targets : List Target) :
    Tracks format dryRun start (Pool.start start targets) (fun _ => { workspace := start }) (fun _ => []) where
  each worker := track_start targets[worker]
  rest _ _ := rfl
  pooled := ⟨[], rfl, by simp⟩
  characters := by simp [Pool.start]

theorem Isolated.of_perm {order : List Target} (isolated : Isolated format dryRun start targets)
    (same : order.Perm targets) : Isolated format dryRun start order where
  apart := (same.pairwise_iff fun both => ⟨both.2, both.1⟩).mpr isolated.apart
  tame target inside := isolated.tame target (same.mem_iff.mp inside)
  kept blob inside other within :=
    isolated.kept blob (same.mem_iff.mp inside) other (same.mem_iff.mp within)
  unique one inside other within :=
    isolated.unique one (same.mem_iff.mp inside) other (same.mem_iff.mp within)

private theorem exists_mem_update {workers : Nat} (stored : Fin workers → List (String × ByteArray))
    (worker : Fin workers)
    (new : List (String × ByteArray)) (item : String × ByteArray) :
    (∃ other, item ∈ Function.update stored worker (new ++ stored worker) other) ↔
      item ∈ new ∨ ∃ other, item ∈ stored other := by
  constructor
  · rintro ⟨other, inside⟩
    by_cases same : other = worker
    · subst same
      rw [Function.update_self, List.mem_append] at inside
      exact inside.imp id fun inside => ⟨other, inside⟩
    · rw [Function.update_of_ne same] at inside
      exact .inr ⟨other, inside⟩
  · rintro (inside | ⟨other, inside⟩)
    · exact ⟨worker, by rw [Function.update_self]; exact List.mem_append_left _ inside⟩
    · refine ⟨other, ?_⟩
      by_cases same : other = worker
      · subst same
        rw [Function.update_self]
        exact List.mem_append_right _ inside
      · rwa [Function.update_of_ne same]

private theorem sum_update {workers : Nat} (solo : Fin workers → Shared) (worker : Fin workers) (next : Shared) :
    (∑ other, (Function.update solo worker next other).characters) + (solo worker).characters =
      (∑ other, (solo other).characters) + next.characters := by
  have split (shares : Fin workers → Shared) :=
    Finset.add_sum_erase Finset.univ (fun other => (shares other).characters) (Finset.mem_univ worker)
  have others : ∑ other ∈ Finset.univ.erase worker, (Function.update solo worker next other).characters =
      ∑ other ∈ Finset.univ.erase worker, (solo other).characters :=
    Finset.sum_congr rfl fun other member => by
      rw [Function.update_of_ne (Finset.ne_of_mem_erase member)]
  rw [← split (Function.update solo worker next), ← split solo, Function.update_self, others]
  omega

variable (isolated : Isolated format dryRun start targets)
include isolated

theorem Isolated.disjoint {worker other : Fin targets.length} (different : worker ≠ other) {cell : Cell}
    (sees : Sees start targets[other] cell) : ¬ Writes format dryRun start targets[worker] cell := by
  have apart := List.pairwise_iff_get.mp isolated.apart
  rcases lt_or_gt_of_ne different with before | after
  · exact (apart worker other before).2.disjoint sees
  · exact (apart other worker after).1.disjoint sees

theorem Isolated.lookup_kept {worker : Fin targets.length} {blob : IndexBlob}
    (own : targets[worker] = .blob blob) {stored : List (String × ByteArray)}
    (stores : ∀ item ∈ stored, ∃ other : Fin targets.length, Stores format dryRun start targets[other] item) :
    (stored ++ start.repository.objects).lookup blob.hash = start.repository.objects.lookup blob.hash := by
  rw [List.lookup_append]
  cases found : stored.lookup blob.hash with
  | none => exact Option.none_or
  | some content =>
    obtain ⟨other, item⟩ := stores _ (mem_of_lookup found)
    have inside : Target.blob blob ∈ targets := own ▸ List.getElem_mem worker.isLt
    rw [isolated.kept blob inside targets[other] (List.getElem_mem other.isLt) content item]
    rfl

/-- A step from where a worker would be alone is the step that it takes alone. -/
theorem Track.advances {worker : Fin targets.length} {busy solo : Shared} {stage : Stage}
    {stored : List (String × ByteArray)}
    (track : Track format dryRun start targets[worker] busy.workspace stage solo stored)
    (held : ∀ blob, targets[worker] = .blob blob → busy.workspace.repository.objects.lookup blob.hash =
      solo.workspace.repository.objects.lookup blob.hash) :
    Advances format dryRun start targets[worker] busy solo (step format dryRun targets[worker] busy stage)
      (step format dryRun targets[worker] solo stage) := by
  have unchanged : view solo.workspace .settings = view start .settings := track.frame .settings id
  exact step_advances track.agrees track.routed (isolated.tame _ (List.getElem_mem worker.isLt))
    (congrArg (fun held : Bool × Repository => held.2) unchanged) held track.known

variable {pool : Pool targets} {solo : Fin targets.length → Shared}
  {stored : Fin targets.length → List (String × ByteArray)}
  (tracks : Tracks format dryRun start pool solo stored)
include tracks

theorem Tracks.held {worker : Fin targets.length} {blob : IndexBlob} (own : targets[worker] = .blob blob) :
    pool.shared.workspace.repository.objects.lookup blob.hash =
      (solo worker).workspace.repository.objects.lookup blob.hash := by
  obtain ⟨all, pooled, members⟩ := tracks.pooled
  rw [pooled, (tracks.each worker).objects]
  refine (isolated.lookup_kept own fun item member => ?_).trans
    (isolated.lookup_kept own fun item member => ⟨worker, (tracks.each worker).stores item member⟩).symm
  obtain ⟨other, inside⟩ := (members item).mp member
  exact ⟨other, (tracks.each other).stores item inside⟩

theorem Tracks.turn (worker : Fin targets.length) :
    ∃ solo' stored', Tracks format dryRun start (pool.turn format dryRun worker) solo' stored' := by
  -- The step is compared twice with the one that the worker takes alone: from the pool, for what it does
  -- there, and from the worker's own workspace, for what it leaves as it was at the start.
  have track := tracks.each worker
  have pooled := track.advances isolated fun _ => tracks.held isolated
  have quiet := Track.advances isolated { track with agrees := fun _ _ => rfl } fun _ _ => rfl
  have onward := track.ends.next
  generalize step format dryRun targets[worker] (solo worker) (pool.stages worker) = next at pooled quiet onward
  generalize turned : step format dryRun targets[worker] pool.shared (pool.stages worker) = busy at pooled
  obtain ⟨new, grown, grownAlone, stores⟩ := pooled.together.stored
  obtain ⟨read, counted, countedAlone⟩ := pooled.characters
  have moved : pool.turn format dryRun worker =
      { shared := busy.2, stages := Function.update pool.stages worker next.1 } := by
    rw [Pool.turn_eq, turned, ← pooled.stage]
  refine ⟨Function.update solo worker next.2, Function.update stored worker (new ++ stored worker), ?_⟩
  rw [moved]
  constructor
  case each =>
    intro other
    by_cases same : other = worker
    · subst same
      simp only [Function.update_self]
      refine ⟨pooled.known, pooled.routed, onward, pooled.together.agrees, ?_, ?_, ?_⟩
      · exact fun cell spared => (quiet.together.frame cell spared).trans (track.frame cell spared)
      · rw [grownAlone, track.objects, List.append_assoc]
      · exact fun item member => (List.mem_append.mp member).elim (stores item) (track.stores item)
    · simp only [Function.update_of_ne same]
      have agrees : Agrees start targets[other] busy.2.workspace (solo other).workspace := fun cell sees =>
        (pooled.together.frame cell (isolated.disjoint (Ne.symm same) sees)).trans
          ((tracks.each other).agrees cell sees)
      exact { tracks.each other with agrees }
  case rest =>
    intro cell spared
    exact (pooled.together.frame cell (spared worker)).trans (tracks.rest cell spared)
  case pooled =>
    obtain ⟨all, pooledAll, members⟩ := tracks.pooled
    refine ⟨new ++ all, by rw [grown, pooledAll, List.append_assoc], fun item => ?_⟩
    rw [List.mem_append, members, exists_mem_update]
  case characters =>
    have total := sum_update solo worker next.2
    rw [counted, tracks.characters]
    rw [countedAlone] at total
    omega

theorem tracks_run (schedule : List (Fin targets.length)) :
    ∃ solo' stored', Tracks format dryRun start (pool.run format dryRun schedule) solo' stored' := by
  induction schedule generalizing pool solo stored with
  | nil => exact ⟨solo, stored, tracks⟩
  | cons worker schedule ih =>
    obtain ⟨_, _, next⟩ := tracks.turn isolated worker
    exact ih next

end

/-- A workspace is made of what each target changes when it is handled alone, and nothing else. -/
structure Decomposes (format : Formatter) (dryRun : Bool) (start : Workspace) (targets : List Target)
    (last : Workspace) : Prop where
  own : ∀ target ∈ targets, ∀ cell,
    view (formatTarget format dryRun start target).2 cell ≠ view start cell →
      view last cell = view (formatTarget format dryRun start target).2 cell
  rest : ∀ cell, (∀ target ∈ targets, view (formatTarget format dryRun start target).2 cell = view start cell) →
    view last cell = view start cell

section
variable {format : Formatter} {dryRun : Bool} {start : Workspace} {targets : List Target}

/-- There is one such workspace only, whatever the order of the targets. -/
theorem Decomposes.view_eq {order : List Target} {last other : Workspace}
    (one : Decomposes format dryRun start targets last) (two : Decomposes format dryRun start order other)
    (same : order.Perm targets) : view last = view other := by
  funext cell
  by_cases changed : ∃ target ∈ targets,
      view (formatTarget format dryRun start target).2 cell ≠ view start cell
  · obtain ⟨target, inside, differs⟩ := changed
    rw [one.own target inside cell differs, two.own target (same.mem_iff.mpr inside) cell differs]
  · have still : ∀ target ∈ targets,
        view (formatTarget format dryRun start target).2 cell = view start cell :=
      fun target inside => Classical.not_not.mp fun differs => changed ⟨target, inside, differs⟩
    rw [one.rest cell still, two.rest cell fun target inside => still target (same.mem_iff.mp inside)]

private theorem lookup_stored {stored base : List (String × ByteArray)} {hash : String} {content : ByteArray}
    (member : (hash, content) ∈ stored) (unique : ∀ other, (hash, other) ∈ stored → other = content) :
    (stored ++ base).lookup hash = some content := by
  rw [List.lookup_append]
  cases found : stored.lookup hash with
  | none => exact (bne_iff_ne.mp (List.lookup_eq_none_iff.mp found _ member) rfl).elim
  | some other => rw [unique other (mem_of_lookup found)]; rfl

private theorem lookup_unstored {stored base : List (String × ByteArray)} {hash : String}
    (absent : ∀ content, (hash, content) ∉ stored) :
    (stored ++ base).lookup hash = base.lookup hash := by
  rw [List.lookup_append]
  cases found : stored.lookup hash with
  | none => exact Option.none_or
  | some content => exact (absent content (mem_of_lookup found)).elim

variable {pool : Pool targets} {solo : Fin targets.length → Shared}
  {stored : Fin targets.length → List (String × ByteArray)}
  (isolated : Isolated format dryRun start targets)
  (tracks : Tracks format dryRun start pool solo stored)
include isolated tracks

theorem Tracks.object {worker : Fin targets.length} {hash : String} {content : ByteArray}
    (member : (hash, content) ∈ stored worker) :
    pool.shared.workspace.repository.objects.lookup hash = some content ∧
      (solo worker).workspace.repository.objects.lookup hash = some content := by
  obtain ⟨all, pooled, members⟩ := tracks.pooled
  have unique (other : Fin targets.length) (content' : ByteArray) (inside : (hash, content') ∈ stored other) :
      content' = content :=
    isolated.unique _ (List.getElem_mem other.isLt) _ (List.getElem_mem worker.isLt) hash content' content
      ((tracks.each other).stores _ inside) ((tracks.each worker).stores _ member)
  constructor
  · rw [pooled]
    refine lookup_stored ((members _).mpr ⟨worker, member⟩) fun content' inside => ?_
    obtain ⟨other, inside⟩ := (members _).mp inside
    exact unique other content' inside
  · rw [(tracks.each worker).objects]
    exact lookup_stored member (unique worker)

/-- What a worker changed in its own workspace, it changed in the pool. -/
theorem Tracks.own (worker : Fin targets.length) {cell : Cell}
    (changed : view (solo worker).workspace cell ≠ view start cell) :
    view pool.shared.workspace cell = view (solo worker).workspace cell := by
  have track := tracks.each worker
  -- All workers may store objects, so that frames say nothing about them; equal hashes mean equal content.
  by_cases object : ∃ hash, cell = .object hash
  · obtain ⟨hash, rfl⟩ := object
    by_cases stores : ∃ content, (hash, content) ∈ stored worker
    · obtain ⟨content, member⟩ := stores
      obtain ⟨pooled, alone⟩ := tracks.object isolated member
      exact pooled.trans alone.symm
    · refine (changed ?_).elim
      simp only [view]
      rw [track.objects]
      exact lookup_unstored (not_exists.mp stores)
  · have writes : Writes format dryRun start targets[worker] cell :=
      Classical.not_not.mp fun spared => changed (track.frame cell spared)
    exact track.agrees cell (sees_of_writes (not_exists.mp object) writes)

theorem Tracks.unchanged {cell : Cell}
    (still : ∀ worker, view (solo worker).workspace cell = view start cell) :
    view pool.shared.workspace cell = view start cell := by
  by_cases object : ∃ hash, cell = .object hash
  · obtain ⟨hash, rfl⟩ := object
    obtain ⟨all, pooled, members⟩ := tracks.pooled
    by_cases stores : ∃ content, (hash, content) ∈ all
    · obtain ⟨content, member⟩ := stores
      obtain ⟨worker, inside⟩ := (members _).mp member
      obtain ⟨pooled, alone⟩ := tracks.object isolated inside
      exact pooled.trans (alone.symm.trans (still worker))
    · simp only [view]
      rw [pooled]
      exact lookup_unstored (not_exists.mp stores)
  · by_cases writes : ∃ worker : Fin targets.length, Writes format dryRun start targets[worker] cell
    · obtain ⟨worker, writes⟩ := writes
      have sees := sees_of_writes (not_exists.mp object) writes
      exact ((tracks.each worker).agrees cell sees).trans (still worker)
    · exact tracks.rest cell (not_exists.mp writes)

omit isolated in
theorem Tracks.ended {worker : Fin targets.length} {result : Except String Result}
    (finished : pool.stages worker = .finished result) :
    result = (formatTarget format dryRun start targets[worker]).1.result ∧
      solo worker = { workspace := (formatTarget format dryRun start targets[worker]).2
                      characters := (formatTarget format dryRun start targets[worker]).1.characters } := by
  have ends := (tracks.each worker).ends
  rw [finished] at ends
  exact ⟨ends.stopped.1.symm, ends.stopped.2.symm⟩

theorem Tracks.settled (finished : pool.Done) :
    (∀ worker, pool.stages worker =
      .finished (formatTarget format dryRun start targets[worker]).1.result) ∧
    pool.shared.characters =
      ∑ worker : Fin targets.length, (formatTarget format dryRun start targets[worker]).1.characters ∧
    Decomposes format dryRun start targets pool.shared.workspace := by
  have ended (worker : Fin targets.length) : pool.stages worker =
      .finished (formatTarget format dryRun start targets[worker]).1.result ∧
      solo worker = { workspace := (formatTarget format dryRun start targets[worker]).2
                      characters := (formatTarget format dryRun start targets[worker]).1.characters } := by
    obtain ⟨result, stands⟩ := finished worker
    obtain ⟨same, last⟩ := tracks.ended stands
    exact ⟨same ▸ stands, last⟩
  refine ⟨fun worker => (ended worker).1, ?_, ?_, ?_⟩
  · rw [tracks.characters]
    exact Finset.sum_congr rfl fun worker _ => by rw [(ended worker).2]
  · intro target inside cell changed
    obtain ⟨index, bound, rfl⟩ := List.getElem_of_mem inside
    have own := @Tracks.own _ _ _ _ _ _ _ isolated tracks ⟨index, bound⟩ cell
    rw [(ended ⟨index, bound⟩).2] at own
    exact own changed
  · intro cell still
    refine tracks.unchanged isolated fun worker => ?_
    rw [(ended worker).2]
    exact still _ (List.getElem_mem worker.isLt)

end

section
variable (format : Formatter) (dryRun : Bool) {targets : List Target}

private theorem turn_remaining (pool : Pool targets) (worker other : Fin targets.length) :
    ((pool.turn format dryRun worker).stages other).remaining ≤
      (pool.stages other).remaining - if worker = other then 1 else 0 := by
  by_cases same : worker = other
  · subst same
    rw [if_pos rfl]
    simp only [Pool.turn_eq, Function.update_self]
    exact step_remaining format dryRun targets[worker] pool.shared (pool.stages worker)
  · simp only [if_neg same, Pool.turn_eq, Function.update_of_ne (Ne.symm same)]
    exact Nat.le_refl _

/-- Each turn of a worker leaves it with fewer steps, and no turn of another one delays it. -/
theorem run_remaining (pool : Pool targets) (schedule : List (Fin targets.length))
    (worker : Fin targets.length) :
    ((pool.run format dryRun schedule).stages worker).remaining ≤
      (pool.stages worker).remaining - schedule.count worker := by
  induction schedule generalizing pool with
  | nil => exact Nat.le_refl _
  | cons next schedule ih =>
    have later := ih (pool.turn format dryRun next)
    have turned := turn_remaining format dryRun pool next worker
    rw [List.count_cons]
    simp only [beq_iff_eq]
    exact later.trans (by omega)

theorem run_finished {start : Workspace} {schedule : List (Fin targets.length)}
    (fair : ∀ worker, turns ≤ schedule.count worker) :
    ((Pool.start start targets).run format dryRun schedule).Done := by
  intro worker
  refine finished_of_remaining (Nat.le_zero.mp ?_)
  have left := run_remaining format dryRun (Pool.start start targets) schedule worker
  have first : (Pool.start start targets).stages worker = .reading := rfl
  rw [first] at left
  exact left.trans (Nat.sub_eq_zero_of_le (fair worker)).le

end

end StagedFormat.Proofs.DispatchSchedules
