import StagedFormat.Disk.Update
import StagedFormat.Proofs.DiskFollowing
import StagedFormat.Proofs.DiskReplacement

/-! Changes of a file tree that take nothing away. Where a path led to something, it still leads to
the same file, link or directory. -/

namespace StagedFormat.Proofs.DiskGrowth
open StagedFormat Disk DiskFollowing DiskReplacement

/-- An entry without what is written to a file: which file it is stays the same. -/
def identity : Entry → Entry
  | .file id _ _ => .file id 0 ByteArray.empty
  | entry => entry

private theorem identity_eq_directory {entry : Entry} : identity entry = .directory ↔ entry = .directory := by
  cases entry <;> simp [identity]

private theorem identity_eq_link {entry : Entry} {target : Path} :
    identity entry = .link target ↔ entry = .link target := by
  cases entry <;> simp [identity]

def Grows (disk next : Disk) : Prop :=
  ∀ location entry, disk.entry? location = some entry → next.entry? location = some entry

/-- What is in one tree is in the next, though files may have been written to. -/
def Stays (disk next : Disk) : Prop :=
  ∀ location entry, disk.entry? location = some entry →
    ∃ later, next.entry? location = some later ∧ identity later = identity entry

theorem Grows.refl (disk : Disk) : Grows disk disk := fun _ _ stands => stands

theorem Grows.stays {disk next : Disk} (grows : Grows disk next) : Stays disk next :=
  fun _ entry stands => ⟨entry, grows _ _ stands, rfl⟩

section
variable {disk next : Disk} (stays : Stays disk next)
include stays

private theorem advance_stays {follow : Bool} {chase chased : Location → Path → List Step → Except IoError Place}
    (onward : ∀ directory target rest location entry,
      chase directory target rest = .ok ⟨location, some entry⟩ →
        ∃ later, chased directory target rest = .ok ⟨location, some later⟩ ∧ identity later = identity entry)
    {directory : Location} {way : List Step} {location : Location} {entry : Entry}
    (found : disk.advance follow chase directory way = .ok ⟨location, some entry⟩) :
    ∃ later, next.advance follow chased directory way = .ok ⟨location, some later⟩ ∧
      identity later = identity entry := by
  induction way generalizing directory with
  | nil =>
    cases found
    exact ⟨_, rfl, rfl⟩
  | cons step rest ih =>
    cases step with
    | stay => exact ih found
    | up => exact ih found
    | down name =>
      simp only [advance] at found ⊢
      split at found
      · cases found
      · rename_i short
        rw [if_neg short]
        cases stands : disk.entry? (directory ++ [name]) with
        | none =>
          simp only [stands] at found
          split at found <;> cases found
        | some here =>
          obtain ⟨later, there, same⟩ := stays _ _ stands
          simp only [stands, there] at found ⊢
          cases here with
          | directory =>
            cases identity_eq_directory.mp same
            exact ih found
          | link target =>
            cases identity_eq_link.mp same
            simp only at found ⊢
            split at found
            · rename_i ends
              rw [if_pos ends]
              cases found
              exact ⟨_, rfl, rfl⟩
            · rename_i goes
              rw [if_neg goes]
              exact onward _ _ _ _ _ found
          | file id mode content =>
            cases later with
            | directory => cases same
            | link target => cases same
            | file other mode content =>
              simp only at found ⊢
              split at found
              · rename_i ends
                rw [if_pos ends]
                cases found
                exact ⟨_, rfl, same⟩
              · cases found

private theorem walk_stays {follow : Bool} {links : Nat} {directory : Location} {way : List Step}
    {location : Location} {entry : Entry}
    (found : disk.walk follow links directory way = .ok ⟨location, some entry⟩) :
    ∃ later, next.walk follow links directory way = .ok ⟨location, some later⟩ ∧
      identity later = identity entry := by
  induction links generalizing directory way location entry with
  | zero => exact advance_stays stays (fun _ _ _ _ _ none => by cases none) found
  | succ links ih => exact advance_stays stays (fun _ _ _ _ _ chased => ih chased) found

theorem find_stays {follow : Bool} {path : Path} {location : Location} {entry : Entry}
    (found : disk.find follow path = .ok ⟨location, some entry⟩) :
    ∃ later, next.find follow path = .ok ⟨location, some later⟩ ∧ identity later = identity entry := by
  unfold find at found ⊢
  split at found
  · cases found
  · rename_i nonempty
    split at found
    · cases found
    · rename_i plain
      split at found
      · cases found
      · rename_i short
        rw [if_neg nonempty, if_neg plain, if_neg short]
        exact walk_stays stays found

end

theorem find_grows {disk next : Disk} (grows : Grows disk next) {follow : Bool} {path : Path}
    {location : Location} {entry : Entry} (found : disk.find follow path = .ok ⟨location, some entry⟩) :
    next.find follow path = .ok ⟨location, some entry⟩ := by
  obtain ⟨later, there, _⟩ := find_stays grows.stays found
  have held := grows location entry (find_grounded found).2.symm
  cases Option.some.inj ((find_grounded there).2.trans held)
  exact there

private theorem grows_set {disk next : Disk} {location : Location} {entry : Entry}
    (vacant : disk.entry? location = none)
    (filled : ∀ other, next.entry? other = Disk.entry? (disk.set location entry) other) : Grows disk next := by
  intro other held stands
  have nonempty : location ≠ [] := by
    rintro rfl
    cases vacant
  rw [filled, entry?_set other nonempty, if_neg]
  · exact stands
  · rintro rfl
    rw [vacant] at stands
    cases stands

theorem makeDirectory_grows {disk next : Disk} {path : Path} (made : disk.makeDirectory path = .ok next) :
    Grows disk next := by
  unfold makeDirectory at made
  cases found : disk.find false (withoutEndSlash path) with
  | error cause => rw [found] at made; cases made
  | ok place =>
    rw [found] at made
    obtain ⟨location, stands⟩ := place
    cases stands with
    | some entry => cases made
    | none =>
      cases made
      exact grows_set (find_grounded found).2.symm fun _ => rfl

theorem find_of_findForCreation {disk : Disk} {path : Path} {place : Place}
    (found : disk.findForCreation path = .ok place) : disk.find true path = .ok place := by
  unfold findForCreation at found
  split at found
  · cases looked : disk.find true (withoutEndSlash path) with
    | error cause => rw [looked] at found; cases found
    | ok above => rw [looked] at found; cases found
  · exact found

theorem openOrCreate_grows {disk next : Disk} {path : Path} {file : FileId}
    (opened : disk.openOrCreate path = .ok (file, next)) : Grows disk next := by
  unfold openOrCreate at opened
  cases found : disk.findForCreation path with
  | error cause => rw [found] at opened; cases opened
  | ok place =>
    rw [found] at opened
    obtain ⟨location, stands⟩ := place
    rcases stands with _ | (_ | target | ⟨id, mode, content⟩)
    · cases opened
      exact grows_set (find_grounded (find_of_findForCreation found)).2.symm fun _ => rfl
    · cases opened
    · cases opened
    · cases opened
      exact .refl disk

private theorem lookup_map {entries : List (Location × Entry)} (change : Entry → Entry) (location : Location) :
    (entries.map fun item => (item.1, change item.2)).lookup location =
      (entries.lookup location).map change := by
  induction entries with
  | nil => rfl
  | cons head entries ih =>
    rw [List.map_cons, List.lookup_cons, List.lookup_cons, ih]
    split <;> rfl

/-- What an entry is after a file was written to. -/
def rewritten (id : FileId) (content : ByteArray) : Entry → Entry
  | .file other mode old => .file other mode (if other = id then content else old)
  | entry => entry

theorem entry?_writeOpened (disk : Disk) (id : FileId) (content : ByteArray) (location : Location) :
    Disk.entry? (disk.writeOpened id content) location =
      (disk.entry? location).map (rewritten id content) := by
  unfold Disk.entry?
  split
  · rfl
  · rw [← lookup_map]
    refine congrArg (List.lookup location) (List.map_congr_left ?_)
    rintro ⟨other, entry⟩ _
    cases entry <;> rfl

private theorem resized_zero (content : ByteArray) : resized content 0 = ByteArray.empty := by
  rw [resized, ByteArray.extract_same, ByteArray.empty_append, Nat.zero_sub]
  rfl

private theorem overwritten_empty (bytes : ByteArray) : overwritten ByteArray.empty 0 bytes = bytes := by
  have ended : ByteArray.empty.extract (0 + bytes.size) ByteArray.empty.size = ByteArray.empty :=
    ByteArray.extract_eq_empty_iff.mpr (Nat.le_trans (Nat.min_le_left _ _) (Nat.zero_le _))
  rw [overwritten, resized_zero, ByteArray.empty_append, ended, ByteArray.append_empty]

private theorem changeOpened_changeOpened (disk : Disk) (id : FileId) (first second : ByteArray → ByteArray) :
    (disk.changeOpened id first).changeOpened id second = disk.changeOpened id (second ∘ first) := by
  simp only [changeOpened, List.map_map]
  congr 1
  refine List.map_congr_left ?_
  rintro ⟨location, entry⟩ _
  cases entry with
  | directory | link => rfl
  | file other mode old => by_cases same : other = id <;> simp [same]

/-- An open file that is emptied, then written from its start, holds what was written: nothing is left of
what it held. -/
theorem overwriteOpened_emptied (disk : Disk) (id : FileId) (content : ByteArray) :
    (disk.resizeOpened id 0).overwriteOpened id 0 content = disk.writeOpened id content := by
  rw [resizeOpened, overwriteOpened, changeOpened_changeOpened, writeOpened]
  refine congrArg (disk.changeOpened id) (funext fun old => ?_)
  rw [Function.comp_apply, resized_zero, overwritten_empty]

theorem writeOpened_stays (disk : Disk) (id : FileId) (content : ByteArray) :
    Stays disk (disk.writeOpened id content) := by
  intro location entry stands
  rw [entry?_writeOpened, stands]
  exact ⟨_, rfl, by cases entry <;> rfl⟩

end StagedFormat.Proofs.DiskGrowth
