import StagedFormat.Proofs.StartupLeftovers

/-! The place of a lock file. What the file's owner locked is gone from there for good once it is removed:
whoever opens the lock file later gets another one. -/

namespace StagedFormat.Proofs.LockSite
open StagedFormat Disk Daemon DiskFollowing DiskReplacement DiskGrowth DiskSkeleton LockExclusion StartupLeftovers

/-- What makes no difference to where the lock file is. -/
structure Apart (path : Path) (disk next : Disk) : Prop where
  found : ∀ follow, next.find follow path = disk.find follow path
  fresh : disk.fresh ≤ next.fresh

theorem apart_refl (path : Path) (disk : Disk) : Apart path disk disk := ⟨fun _ => rfl, Nat.le_refl _⟩

/-- What is at the place of the lock file; it is no link. -/
def Site (root : Path) (disk : Disk) (location : Location) (entry : Option Entry) : Prop :=
  ∀ follow, disk.find follow (lockPath root) = .ok ⟨location, entry⟩

section
variable {root : Path} {disk : Disk} {location : Location}

theorem Site.apart {next : Disk} {entry : Option Entry} (site : Site root disk location entry)
    (apart : Apart (lockPath root) disk next) : Site root next location entry :=
  fun follow => (apart.found follow).trans (site follow)

theorem Site.isLinked_iff {entry : Option Entry} (site : Site root disk location entry) {file : FileId} :
    Lock.isLinked disk (lockPath root) file = true ↔ ∃ mode content, entry = some (.file file mode content) := by
  rw [LockExclusion.isLinked_iff, site true]
  constructor
  · rintro ⟨_, mode, content, same⟩
    cases same
    exact ⟨mode, content, rfl⟩
  · rintro ⟨mode, content, rfl⟩
    exact ⟨location, mode, content, rfl⟩

theorem Site.erase {id mode : Nat} {content : ByteArray}
    (site : Site root disk location (some (.file id mode content))) :
    Site root (disk.erase location) location none := by
  intro follow
  have stands := (find_grounded (site follow)).2.symm
  have found := find_framed (erase_framed stands) (site follow)
  rwa [entry?_erase _ (nonempty_of_file stands), if_pos rfl] at found

theorem Site.create (site : Site root disk location none) :
    Site root (disk.create location ByteArray.empty) location
      (some (.file disk.fresh plainMode ByteArray.empty)) := by
  intro follow
  have vacant := (find_grounded (site follow)).2.symm
  have found := find_framed (create_framed ByteArray.empty vacant) (site follow)
  rwa [entry?_create _ (nonempty_of_vacant vacant), if_pos rfl] at found

theorem Site.unlink_none (site : Site root disk location none) :
    Lock.unlink (lockPath root) disk = (.ok (), disk) := by
  have missing : disk.removeFile (lockPath root) = .error .notFound := by
    rw [removeFile, site false]
    rfl
  rw [Lock.unlink, missing]

/-- The place is vacant, or has another file. -/
inductive Foreign (file : FileId) : Option Entry → Prop where
  | vacant : Foreign file none
  | other {id mode content} : id ≠ file → Foreign file (some (.file id mode content))

section
variable {file : FileId}

def Gone (root : Path) (disk : Disk) (location : Location) (file : FileId) : Prop :=
  ∃ entry, Site root disk location entry ∧ Foreign file entry

theorem Gone.apart {next : Disk} (gone : Gone root disk location file)
    (apart : Apart (lockPath root) disk next) : Gone root next location file := by
  obtain ⟨entry, site, foreign⟩ := gone
  exact ⟨entry, site.apart apart, foreign⟩

theorem Gone.not_linked (gone : Gone root disk location file) :
    Lock.isLinked disk (lockPath root) file ≠ true := by
  obtain ⟨entry, site, foreign⟩ := gone
  rw [Ne, site.isLinked_iff]
  rintro ⟨mode, content, rfl⟩
  cases foreign with
  | other different => exact different rfl

theorem Site.unlinked {id mode : Nat} {content : ByteArray}
    (site : Site root disk location (some (.file id mode content))) :
    Gone root (Lock.unlink (lockPath root) disk).2 location file := by
  rw [unlink_entry (site false) nofun]
  exact ⟨none, site.erase, .vacant⟩

theorem Gone.unlinked (gone : Gone root disk location file) :
    Gone root (Lock.unlink (lockPath root) disk).2 location file := by
  obtain ⟨entry, site, foreign⟩ := gone
  cases foreign with
  | vacant =>
    rw [site.unlink_none]
    exact ⟨none, site, .vacant⟩
  | other => exact site.unlinked

theorem unlink_fresh (path : Path) (disk : Disk) : (Lock.unlink path disk).2.fresh = disk.fresh := by
  unfold Lock.unlink
  split
  · rename_i next removed
    unfold removeFile at removed
    cases found : disk.find false path with
    | error cause => rw [found] at removed; cases removed
    | ok place =>
      rw [found] at removed
      obtain ⟨_, stands⟩ := place
      rcases stands with _ | (_ | _ | _) <;> cases removed <;> rfl
  · rfl
  · rfl

/-- Opening the lock file gives another file then, which is the one at the place. -/
theorem Gone.opened {next : Disk} {other : FileId} (gone : Gone root disk location file)
    (issued : file < disk.fresh) (opened : disk.openOrCreate (lockPath root) = .ok (other, next)) :
    other ≠ file ∧ disk.fresh ≤ next.fresh ∧ Gone root next location file ∧
      Lock.isLinked next (lockPath root) other = true := by
  have linked : Lock.isLinked next (lockPath root) other = true := isLinked_iff.mpr (find_opened opened)
  obtain ⟨entry, site, foreign⟩ := gone
  cases foreign with
  | vacant =>
    cases (openOrCreate_vacant (slashless_lockPath root) (site true)).symm.trans opened
    have different : disk.fresh ≠ file := fun same => Nat.lt_irrefl _ (same ▸ issued)
    exact ⟨different, Nat.le_succ _, ⟨_, site.create, .other different⟩, linked⟩
  | other different =>
    cases (openOrCreate_file (slashless_lockPath root) (site true)).symm.trans opened
    exact ⟨different, Nat.le_refl _, ⟨_, site, .other different⟩, linked⟩

end

end

end StagedFormat.Proofs.LockSite
