import StagedFormat.Proofs.StartupLeftovers

/-! What the release of a lock takes away. It removes by path, so it takes whatever is there: the file
that its owner locked only as long as nobody outside has put another one in that file's place. -/

namespace StagedFormat.Proofs.LockRelease
open StagedFormat Disk Daemon DiskFollowing DiskReplacement DiskGrowth DiskSkeleton LockExclusion StartupLeftovers

/-- What may happen next when others, too, change the files as far as they are allowed to. -/
inductive Turn (path : Path) (allowed : State → Disk → Prop) : State → State → Prop where
  | handle {event state next} : LockExclusion.Step path event state next → Turn path allowed state next
  | outside {state disk} : allowed state disk → Turn path allowed state (state.onDisk disk)

def Runs (path : Path) (allowed : State → Disk → Prop) : State → State → Prop :=
  Relation.ReflTransGen (Turn path allowed)

def Anything (_ : State) (_ : Disk) : Prop := True

/-- The file of an owner is left at the path. -/
def Sparing (path : Path) (state : State) (disk : Disk) : Prop :=
  ∀ process file, Owns state process file → Lock.isLinked state.space.disk path file = true →
    Lock.isLinked disk path file = true

/-- The release of a lock takes away an entry. -/
def Removes (lock : Lock) (space : LockSpace) (location : Location) (entry : Entry) : Prop :=
  space.disk.entry? location = some entry ∧ Disk.entry? (lock.release space).2.2.disk location = none

section
variable {path : Path} {allowed : State → Disk → Prop} {start state : State}

private theorem runs_reaches (reached : Reaches path start state) : Runs path allowed start state :=
  Relation.ReflTransGen.mono (fun _ _ ⟨_, step⟩ => .handle step) _ _ reached

/-- Whatever is done to the files, each of them stays locked by one process at most. -/
theorem exclusive_runs (idle : ∀ process, start.phase process = .idle)
    (ran : Runs path allowed start state) : Exclusive state := by
  induction ran with
  | refl => exact (safe_idle path idle).1
  | tail _ turn exclusive =>
    cases turn with
    | handle step => exact exclusive_preserves step exclusive
    | outside _ => exact exclusive.onDisk _

private theorem linked_runs (idle : ∀ process, start.phase process = .idle)
    (ran : Runs path (Sparing path) start state) : Linked path state := by
  induction ran with
  | refl => exact (safe_idle path idle).2
  | tail before turn linked =>
    cases turn with
    | handle step => exact linked_preserves step (exclusive_runs idle before) linked
    | outside spares => exact fun process file owns => spares process file owns (linked process file owns)

/-- Only the first step of a release takes anything away, and it takes what the whole release takes. -/
theorem stays_or_releases {event : LockExclusion.Event} {process : Nat} {next : State}
    (step : LockExclusion.Step path event state next) (own : event.process? = some process) :
    Stays state.space.disk next.space.disk ∨ ∃ file, Owns state process file ∧
      next.space.disk = (Lock.release { path, file := some file } state.space).2.2.disk := by
  by_cases acquires : event.acquires = true
  · exact .inl (acquires_grows step acquires).stays
  · cases step with
    | begin | makeDirectory | prepared | attempt => exact absurd rfl acquires
    | record content _ => exact .inl (writeOpened_stays _ _ _)
    | @unlink _ _ file owns =>
      cases own
      exact .inr ⟨file, owns, rfl⟩
    | unlock _ => exact .inl (Grows.refl _).stays
    | crash => exact .inl (Grows.refl _).stays
    | elsewhere _ => cases own

end

section
variable {path : Path} {file : FileId} {space : LockSpace}

private theorem entry?_unlink {disk : Disk} {location : Location} {entry : Entry}
    (found : disk.find false path = .ok ⟨location, some entry⟩) (removable : entry ≠ .directory)
    (other : Location) :
    Disk.entry? (Lock.unlink path disk).2 other = if other = location then none else disk.entry? other := by
  have stands : disk.entry? location = some entry := (find_grounded found).2.symm
  rw [unlink_entry found removable]
  exact entry?_erase other (nonempty_of_entry stands removable)

/-- A release removes what the path names, a directory excepted, or nothing at all. -/
theorem unlink_cases (path : Path) (disk : Disk) :
    (∃ location entry, disk.find false path = .ok ⟨location, some entry⟩ ∧ entry ≠ .directory) ∨
      (Lock.unlink path disk).2 = disk := by
  cases found : disk.find false path with
  | error cause =>
    have failed : disk.removeFile path = .error cause := by rw [removeFile, found]; rfl
    right
    rw [Lock.unlink, failed]
    cases cause <;> rfl
  | ok place =>
    obtain ⟨location, stands⟩ := place
    cases stands with
    | none =>
      have failed : disk.removeFile path = .error .notFound := by rw [removeFile, found]; rfl
      right
      rw [Lock.unlink, failed]
    | some entry =>
      by_cases directory : entry = .directory
      · have failed : disk.removeFile path = .error .isDirectory := by rw [removeFile, found, directory]; rfl
        right
        rw [Lock.unlink, failed]
      · exact .inl ⟨location, entry, rfl, directory⟩

private theorem removes_iff {location : Location} {entry : Entry} :
    Removes { path, file := some file } space location entry ↔
      space.disk.find false path = .ok ⟨location, some entry⟩ ∧ entry ≠ .directory := by
  constructor
  · rintro ⟨stands, gone⟩
    change Disk.entry? (Lock.unlink path space.disk).2 location = none at gone
    rcases unlink_cases path space.disk with ⟨other, there, found, removable⟩ | same
    · rw [entry?_unlink found removable] at gone
      split at gone
      · rename_i here
        subst here
        cases stands.symm.trans (find_grounded found).2.symm
        exact ⟨found, removable⟩
      · cases stands.symm.trans gone
    · rw [same, stands] at gone
      cases gone
  · rintro ⟨found, removable⟩
    refine ⟨(find_grounded found).2.symm, ?_⟩
    change Disk.entry? (Lock.unlink path space.disk).2 location = none
    rw [entry?_unlink found removable, if_pos rfl]

private theorem entry?_release {location : Location}
    (spared : ∀ entry, ¬ Removes { path, file := some file } space location entry) :
    Disk.entry? (Lock.release { path, file := some file } space).2.2.disk location =
      space.disk.entry? location := by
  change Disk.entry? (Lock.unlink path space.disk).2 location = _
  rcases unlink_cases path space.disk with ⟨other, there, found, removable⟩ | same
  · have different : location ≠ other := by
      rintro rfl
      exact spared there (removes_iff.mpr ⟨found, removable⟩)
    rw [entry?_unlink found removable, if_neg different]
  · rw [same]

/-- With its own file at the path, a release removes that file, or a link to it. -/
theorem own_of_linked {location : Location} {entry : Entry}
    (linked : Lock.isLinked space.disk path file = true)
    (removes : Removes { path, file := some file } space location entry) :
    (∃ target, entry = .link target) ∨ ∃ mode content, entry = .file file mode content := by
  obtain ⟨_, mode, content, followed⟩ := isLinked_iff.mp linked
  obtain ⟨place, unfollowed, kind⟩ := find_unfollowed followed
  cases unfollowed.symm.trans (removes_iff.mp removes).1
  rcases kind with ⟨target, link⟩ | same
  · exact .inl ⟨target, Option.some.inj link⟩
  · cases same
    exact .inr ⟨mode, content, rfl⟩

end

/-- A release removes what is at the path, whoever has it locked, and nothing else; no other step of a
handle takes anything away. What it removes is its own file if that is at the path. It always is, and there
is no other owner, if those outside leave the files of owners where they are. -/
theorem release_removes {path : Path} {start state : State} (idle : ∀ process, start.phase process = .idle)
    (ran : Runs path Anything start state) {process : Nat} {file : FileId} (owns : Owns state process file) :
    (∀ location entry, Removes { path, file := some file } state.space location entry ↔
      state.space.disk.find false path = .ok ⟨location, some entry⟩ ∧ entry ≠ .directory) ∧
    (∀ location, (∀ entry, ¬ Removes { path, file := some file } state.space location entry) →
      Disk.entry? (Lock.release { path, file := some file } state.space).2.2.disk location =
        state.space.disk.entry? location) ∧
    (∀ event other next, event.process? = some other → LockExclusion.Step path event state next →
      Stays state.space.disk next.space.disk ∨ ∃ another, Owns state other another ∧
        next.space.disk = (Lock.release { path, file := some another } state.space).2.2.disk) ∧
    (Lock.isLinked state.space.disk path file = true →
      ∀ location entry, Removes { path, file := some file } state.space location entry →
        ((∃ target, entry = .link target) ∨ ∃ mode content, entry = .file file mode content) ∧
        ∀ other, Holds state other file → other = process) ∧
    (Runs path (Sparing path) start state →
      Lock.isLinked state.space.disk path file = true ∧
      ∀ other another, Owns state other another → other = process) := by
  have exclusive := exclusive_runs idle ran
  refine ⟨fun _ _ => removes_iff, fun _ => entry?_release, ?_, ?_, ?_⟩
  · exact fun _ _ _ own step => stays_or_releases step own
  · intro linked location entry removes
    exact ⟨own_of_linked linked removes, fun other holds => exclusive.alone other process file holds owns.holds⟩
  · intro spared
    have linked := linked_runs idle spared
    refine ⟨linked process file owns, fun other another owner => ?_⟩
    exact owner_unique exclusive owner owns (linked other another owner) (linked process file owns)

private theorem runs_owner {path : Path} {allowed : State → Disk → Prop} {state : State} {process : Nat}
    {file : FileId}
    (idle : state.phase process = .idle)
    (taken : (Lock.acquire path state.space).1 = .ok (some { path, file := some file })) :
    Runs path allowed state
      (state.move process (.attempting (.acquired file)) (Lock.acquire path state.space).2) := by
  obtain ⟨phase, attempts, acquired⟩ := attempts_acquire idle
  cases (acquired file).mpr taken
  exact runs_reaches attempts.reaches

/-- Someone outside removes the lock file, as a stop call that reaches no daemon does. -/
theorem runs_unlink {path : Path} {start state : State} (ran : Runs path Anything start state) :
    Runs path Anything start (state.onDisk (Lock.unlink path state.space.disk).2) :=
  ran.tail (.outside trivial)

def place : Location := ["r", ".stagefmt", "daemon.lock"]

theorem release_removes_own : ∃ state,
    Runs (lockPath ⟨"/r"⟩) (Sparing (lockPath ⟨"/r"⟩)) blank state ∧ Owns state 0 0 ∧
      Removes { path := lockPath ⟨"/r"⟩, file := some 0 } state.space place (.file 0 plainMode ByteArray.empty) ∧
      ∀ other another, Owns state other another → other = 0 := by
  have ran {allowed : State → Disk → Prop} := @runs_owner (lockPath ⟨"/r"⟩) allowed blank 0 0 rfl (by rfl)
  have owns := move_phase_self blank 0 (.attempting (.acquired 0)) (Lock.acquire (lockPath ⟨"/r"⟩) blank.space).2
  obtain ⟨exactly, _, _, _, spared⟩ := release_removes (fun _ => rfl) ran owns
  exact ⟨_, ran, owns, (exactly _ _).mpr ⟨by rfl, nofun⟩, (spared ran).2⟩

/-- The lock file is removed, and another process makes a new one and locks it. The first process releases
its lock then: it removes the new file, and a third process takes the lock that the second one owns. -/
theorem release_removes_another : ∃ state,
    Runs (lockPath ⟨"/r"⟩) Anything blank state ∧ Owns state 0 0 ∧ Owns state 1 1 ∧
      Removes { path := lockPath ⟨"/r"⟩, file := some 0 } state.space place (.file 1 plainMode ByteArray.empty) ∧
      (Lock.acquire (lockPath ⟨"/r"⟩)
        (Lock.release { path := lockPath ⟨"/r"⟩, file := some 0 } state.space).2.2).1 =
          .ok (some { path := lockPath ⟨"/r"⟩, file := some 2 }) := by
  have first := @runs_owner (lockPath ⟨"/r"⟩) Anything blank 0 0 rfl (by rfl)
  have second := (runs_unlink first).trans (@runs_owner (lockPath ⟨"/r"⟩) Anything _ 1 1 rfl (by rfl))
  exact ⟨_, second, rfl, rfl, removes_iff.mpr ⟨by rfl, nofun⟩, by rfl⟩

end StagedFormat.Proofs.LockRelease
