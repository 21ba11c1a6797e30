import StagedFormat.Proofs.DiskSkeleton

/-! Replacing the content of a file is all or nothing. The temporary file is the only one that is new when
a step fails, and taking it away gives back the tree that was there before. -/

namespace StagedFormat.Proofs.FileRestoration
open StagedFormat Disk DiskFollowing DiskReplacement DiskGrowth DiskSkeleton

def Unoccupied (disk : Disk) (path : Path) : Prop :=
  ∀ location entry, disk.find false path ≠ .ok ⟨location, some entry⟩

theorem Unoccupied.vacant {disk : Disk} {path : Path} {place : Place} (free : Unoccupied disk path)
    (found : disk.find true path = .ok place) : place.entry = none ∧ disk.find false path = .ok place := by
  obtain ⟨own, reached, unfollowed⟩ := find_unfollowed found
  obtain ⟨location, entry⟩ := own
  cases entry with
  | some entry => exact (free location entry reached).elim
  | none =>
    obtain ⟨target, link⟩ | rfl := unfollowed
    · cases link
    · exact ⟨rfl, reached⟩

/-- A tree with one more file, at a location that was vacant. -/
structure Extended (disk : Disk) (location : Location) (content : ByteArray) (next : Disk) : Prop where
  vacant : disk.entry? location = none
  entries : ∃ id mode, next.entries = (location, .file id mode content) :: disk.entries

private theorem filter_vacant {disk : Disk} {location : Location} (vacant : disk.entry? location = none) :
    disk.entries.filter (·.1 ≠ location) = disk.entries := by
  have nowhere : disk.entries.lookup location = none := by
    rw [← vacant, Disk.entry?, if_neg (nonempty_of_vacant vacant)]
  apply List.filter_eq_self.mpr
  intro pair member
  have different := bne_iff_ne.mp (List.lookup_eq_none_iff.mp nowhere pair member)
  exact decide_eq_true (Ne.symm different)

private theorem extended_create {disk : Disk} {location : Location} (content : ByteArray)
    (vacant : disk.entry? location = none) : Extended disk location content (disk.create location content) := by
  refine ⟨vacant, disk.fresh, plainMode, ?_⟩
  rw [create, Disk.set, filter_vacant vacant]

section
variable {disk next : Disk} {location : Location} {content : ByteArray}
  (extended : Extended disk location content next)
include extended

theorem Extended.stands : ∃ id mode, next.entry? location = some (.file id mode content) := by
  obtain ⟨id, mode, entries⟩ := extended.entries
  refine ⟨id, mode, ?_⟩
  rw [Disk.entry?, if_neg (nonempty_of_vacant extended.vacant), entries, List.lookup_cons_self]

theorem Extended.others (other : Location) (different : other ≠ location) :
    next.entry? other = disk.entry? other := by
  obtain ⟨_, _, entries⟩ := extended.entries
  have elsewhere : (other == location) = false := beq_eq_false_iff_ne.mpr different
  simp only [Disk.entry?, entries, List.lookup_cons, elsewhere]

theorem Extended.framed : Framed disk next := by
  obtain ⟨id, mode, stands⟩ := extended.stands
  apply framed_at location _ _ extended.others
  · rw [passage, extended.vacant]
    rfl
  · rw [passage, stands]
    rfl

theorem Extended.cleared : (next.erase location).entries = disk.entries := by
  obtain ⟨_, _, entries⟩ := extended.entries
  have kept := filter_vacant extended.vacant
  simp only [erase, entries]
  rw [List.filter_cons_of_neg (by simp)]
  exact kept

theorem Extended.set (id mode : Nat) : Extended disk location content (next.set location (.file id mode content)) := by
  refine ⟨extended.vacant, id, mode, ?_⟩
  rw [← extended.cleared]
  rfl

variable {path : Path} (found : disk.find true path = .ok ⟨location, none⟩)
  (own : disk.find false path = .ok ⟨location, none⟩)

include found in
theorem Extended.prepares (mode : Option Nat) :
    ∃ prepared, mode.elim (.ok next) (next.setMode path) = .ok prepared ∧
      Extended disk location content prepared ∧
      ∀ kept ∈ mode, ∃ id, prepared.entry? location = some (.file id kept content) := by
  cases mode with
  | none => exact ⟨next, rfl, extended, nofun⟩
  | some mode =>
    obtain ⟨id, kept, stands⟩ := extended.stands
    have there := find_framed extended.framed found
    rw [stands] at there
    refine ⟨_, ?_, extended.set id mode, ?_⟩
    · rw [Option.elim_some, setMode, there]
      rfl
    · rintro _ ⟨⟩
      exact ⟨id, by rw [entry?_set _ (nonempty_of_vacant extended.vacant), if_pos rfl]⟩

include own in
theorem Extended.discard : (WorkingFile.discard next path).entries = disk.entries := by
  obtain ⟨id, mode, stands⟩ := extended.stands
  have there := find_framed extended.framed own
  rw [stands] at there
  have removed : next.removeFile path = .ok (next.erase location) := by
    rw [removeFile, there]
    rfl
  rw [WorkingFile.discard, removed]
  exact extended.cleared

include found own in
/-- Only the last step may fail, and then the new file is taken away again. -/
theorem Extended.settle_cases (mode : Option Nat) (destination : Path) :
    (∃ cause final, WorkingFile.settle next mode path destination = (.error cause, final) ∧
      final.entries = disk.entries) ∨
    ∃ prepared final, WorkingFile.settle next mode path destination = (.ok (), final) ∧
      prepared.rename path destination = .ok final ∧ Extended disk location content prepared ∧
      ∀ kept ∈ mode, ∃ id, prepared.entry? location = some (.file id kept content) := by
  obtain ⟨prepared, ready, still, kept⟩ := extended.prepares found mode
  simp only [WorkingFile.settle, ready]
  cases moved : prepared.rename path destination with
  | error fault => exact .inl ⟨_, _, rfl, still.discard own⟩
  | ok done => exact .inr ⟨prepared, done, rfl, moved, still, kept⟩

end

private theorem writeFile_extends {disk next : Disk} {path : Path} {content : ByteArray} (free : Unoccupied disk path)
    (written : disk.writeFile path content = .ok next) :
    ∃ location, disk.find true path = .ok ⟨location, none⟩ ∧ disk.find false path = .ok ⟨location, none⟩ ∧
      Extended disk location content next := by
  unfold writeFile at written
  cases found : disk.findForCreation path with
  | error cause =>
    rw [found] at written
    cases written
  | ok place =>
    have reached := find_of_findForCreation found
    obtain ⟨none, own⟩ := free.vacant reached
    obtain ⟨location, entry⟩ := place
    cases none
    rw [found] at written
    cases written
    have vacant := (find_grounded reached).2
    exact ⟨location, reached, own, extended_create content vacant.symm⟩

private theorem fits_of_rename {disk next : Disk} {source : Path} {destination : Location}
    (lands : Grounded disk destination) (nonempty : destination ≠ [])
    (moved : disk.rename source destination.path = .ok next) : Fits destination := by
  unfold rename at moved
  cases origin : disk.find false source with
  | error cause => rw [origin] at moved; cases moved
  | ok place =>
    cases found : disk.find false destination.path with
    | error cause => rw [origin, found] at moved; cases moved
    | ok place => exact fits_of_find lands nonempty found

section
variable {disk next : Disk} {file : WorkingFile} {content : String}
  (free : Unoccupied disk (WorkingFile.temporary (WorkingFile.destination disk file.path)))
include free

/-- If a write fails, at whatever step, the tree has the same entries as before. -/
theorem write_failed {cause : TargetError} (failed : file.write disk content = (.error cause, next)) :
    next.entries = disk.entries := by
  unfold WorkingFile.write at failed
  cases written : disk.writeFile (WorkingFile.temporary (WorkingFile.destination disk file.path))
      content.toUTF8 with
  | error fault =>
    simp only [written] at failed
    cases failed
    rfl
  | ok filled =>
    simp only [written] at failed
    obtain ⟨location, followed, own, extended⟩ := writeFile_extends free written
    rcases extended.settle_cases followed own _ _ with ⟨_, _, settled, kept⟩ | ⟨_, _, settled, _⟩
    · rw [settled] at failed
      cases failed
      exact kept
    · rw [settled] at failed
      cases failed

variable {location : Location} {id mode : Nat} {old : ByteArray}
  (found : disk.find true file.path = .ok ⟨location, some (.file id mode old)⟩)
include found

/-- If a write does not fail, the new content is where the old one was, and nothing else is different. The
temporary file may have been anywhere. -/
theorem write_done (done : file.write disk content = (.ok (), next)) :
    Replaced disk location mode content.toUTF8 next := by
  obtain ⟨grounded, stands⟩ := find_grounded found
  have nonempty := nonempty_of_file stands.symm
  have destination : WorkingFile.destination disk file.path = location.path := destination_of_find found
  rw [destination] at free
  simp only [WorkingFile.write, destination] at done
  cases written : disk.writeFile (WorkingFile.temporary location.path) content.toUTF8 with
  | error fault =>
    simp only [written] at done
    cases done
  | ok filled =>
    simp only [written] at done
    obtain ⟨spot, followed, own, extended⟩ := writeFile_extends free written
    rcases extended.settle_cases followed own _ _ with
      ⟨_, _, settled, _⟩ | ⟨prepared, _, settled, moved, still, kept⟩
    · rw [settled] at done
      cases done
    rw [settled] at done
    cases done
    have apart : location ≠ spot := by
      rintro rfl
      cases stands.trans extended.vacant
    have lands := grounded_framed still.framed grounded
    have room := fits_of_rename lands nonempty moved
    obtain ⟨id, filled⟩ := kept mode (modeAt_file grounded room stands.symm)
    have there := find_framed still.framed own
    rw [filled] at there
    have replaced := rename_file there lands room ((still.others location apart).trans stands.symm) rfl
    cases moved.symm.trans replaced
    refine ⟨⟨id, by rw [entry?_set _ nonempty, if_pos rfl]⟩, ?_⟩
    intro other different
    rw [entry?_set _ nonempty, if_neg different, entry?_erase _ (nonempty_of_vacant still.vacant)]
    split
    · rename_i same
      rw [same, still.vacant]
    · rename_i away
      exact still.others other away

/-- Writing a file fails without a trace, or replaces the content at the end of its links. -/
theorem write_cases (content : String) :
    (∃ cause next, file.write disk content = (.error cause, next) ∧ next.entries = disk.entries) ∨
      ∃ next, file.write disk content = (.ok (), next) ∧ Replaced disk location mode content.toUTF8 next := by
  cases written : file.write disk content with
  | mk answer next =>
    cases answer with
    | error cause => exact .inl ⟨cause, next, rfl, write_failed free written⟩
    | ok done => exact .inr ⟨next, rfl, write_done free found written⟩

private theorem beside_vacant (legible : Legible location) (fits : Fits (beside location)) :
    disk.entry? (beside location) = none := by
  obtain ⟨grounded, stands⟩ := find_grounded found
  have nonempty := nonempty_of_file stands.symm
  have lands := Grounded.beside grounded nonempty
  have reached := find_path false lands (beside_ne_nil location) (fun _ _ => rfl) fits
  have destination : WorkingFile.destination disk file.path = location.path := destination_of_find found
  rw [destination, temporary_path nonempty legible] at free
  cases here : disk.entry? (beside location) with
  | none => rfl
  | some entry =>
    rw [here] at reached
    exact (free _ _ reached).elim

end

private theorem framed_of_alike {disk next : Disk} (alike : Alike disk next) : Framed disk next := by
  have filtered (entry : Option Entry) : (entry.map shape).filter (!·.isFile) = entry.filter (!·.isFile) := by
    rcases entry with _ | _ | _ | _ <;> rfl
  intro location
  rw [passage, passage, ← filtered, ← alike location, filtered]

theorem Unoccupied.transfer {disk next : Disk} (alike : Alike disk next) {path : Path}
    (free : Unoccupied disk path) : Unoccupied next path := by
  intro location entry reached
  have before := find_framed (framed_of_alike alike).symm reached
  cases stands : disk.entry? location with
  | none => cases (find_grounded reached).2.trans (alike.vacant stands)
  | some held =>
    rw [stands] at before
    exact free _ _ before

private theorem read_replaced {disk next : Disk} {file : WorkingFile} {location : Location} {id mode : Nat}
    {old : ByteArray} {content : String}
    (found : disk.find true file.path = .ok ⟨location, some (.file id mode old)⟩)
    (replaced : Replaced disk location mode content.toUTF8 next) : file.read next = .ok content := by
  obtain ⟨own, written⟩ := replaced.file
  have alike := replaced.alike (find_grounded found).2.symm
  have again := find_framed (framed_of_alike alike) found
  rw [written] at again
  have held : next.readText file.path = .ok content := readText_iff.mpr ⟨location, own, mode, again⟩
  rw [WorkingFile.read, held]
  rfl

/-- With nothing at the temporary path, a write that fails leaves every entry of the tree as it was. One
of a file that does not fail gives it the new content and its old mode; everything else is as before, and the
temporary path is free again. It does not fail where the destination's path is text, and the temporary path is
not too long for the system. -/
theorem write_whole (disk : Disk) (file : WorkingFile) (content : String)
    (free : Unoccupied disk (WorkingFile.temporary (WorkingFile.destination disk file.path))) :
    (∀ cause next, file.write disk content = (.error cause, next) → next.entries = disk.entries) ∧
    ∀ location id mode old, disk.find true file.path = .ok ⟨location, some (.file id mode old)⟩ →
      WorkingFile.destination disk file.path = location.path ∧
      (∀ next, file.write disk content = (.ok (), next) →
        Replaced disk location mode content.toUTF8 next ∧ file.read next = .ok content ∧
          Unoccupied next (WorkingFile.temporary location.path)) ∧
      (Legible location → Fits (beside location) → ∃ next, file.write disk content = (.ok (), next)) := by
  refine ⟨fun cause next failed => write_failed free failed, ?_⟩
  intro location id mode old found
  have destination : WorkingFile.destination disk file.path = location.path := destination_of_find found
  refine ⟨destination, ?_, ?_⟩
  · intro next done
    have replaced := write_done free found done
    rw [destination] at free
    exact ⟨replaced, read_replaced found replaced, free.transfer (replaced.alike (find_grounded found).2.symm)⟩
  · intro legible fits
    have vacant := beside_vacant free found legible fits
    obtain ⟨next, written, _⟩ := write_fits file found legible vacant content fits
    exact ⟨next, written⟩

def runnable : Disk where
  entries := [
    (["repo"], .directory),
    (["repo", "run.kt"], .file 0 0o755 "a=1".toUTF8),
    (["repo", "way.kt"], .link ⟨"run.kt"⟩),
    (["repo", "src"], .directory)]
  fresh := 1

private theorem unoccupied_iff {disk : Disk} {path : Path} :
    Unoccupied disk path ↔ ((disk.find false path).toOption.bind Place.entry).isNone = true := by
  unfold Unoccupied
  cases disk.find false path with
  | error cause => simp [Except.toOption]
  | ok place =>
    obtain ⟨location, entry⟩ := place
    cases entry with
    | none => simp [Except.toOption]
    | some entry => simp [Except.toOption]

instance (disk : Disk) (path : Path) : Decidable (Unoccupied disk path) :=
  decidable_of_iff _ unoccupied_iff.symm

theorem write_whole_runnable :
    (∃ next, (⟨⟨"/repo/way.kt"⟩, none⟩ : WorkingFile).write runnable "a = 1" = (.ok (), next) ∧
      Replaced runnable ["repo", "run.kt"] 0o755 "a = 1".toUTF8 next) ∧
    ∃ cause next, (⟨⟨"/repo/src"⟩, none⟩ : WorkingFile).write runnable "a = 1" = (.error cause, next) ∧
      next.entries = runnable.entries := by
  constructor
  · have found : runnable.find true ⟨"/repo/way.kt"⟩ =
        .ok ⟨["repo", "run.kt"], some (.file 0 0o755 "a=1".toUTF8)⟩ := rfl
    obtain ⟨_, whole⟩ := write_whole runnable ⟨⟨"/repo/way.kt"⟩, none⟩ "a = 1" (by decide +kernel)
    obtain ⟨_, replaces, succeeds⟩ := whole _ _ _ _ found
    obtain ⟨next, written⟩ := succeeds ⟨"/repo/run.kt", by decide⟩ ⟨by decide, by decide, by decide⟩
    exact ⟨next, written, (replaces next written).1⟩
  · obtain ⟨kept, _⟩ := write_whole runnable ⟨⟨"/repo/src"⟩, none⟩ "a = 1" (by decide +kernel)
    cases written : (⟨⟨"/repo/src"⟩, none⟩ : WorkingFile).write runnable "a = 1" with
    | mk answer next =>
      cases answer with
      | error cause => exact ⟨cause, next, rfl, kept cause next written⟩
      | ok done =>
        have refused : ((⟨⟨"/repo/src"⟩, none⟩ : WorkingFile).write runnable "a = 1").1.isOk = false := by
          decide +kernel
        rw [written] at refused
        cases refused

def unprintable : Disk where
  entries := [
    (["tmp"], .directory),
    (["tmp", ⟨[0xFF]⟩], .directory),
    (["tmp", ⟨[0xFF]⟩, "A.kt"], .file 0 0o644 "a=1".toUTF8)]
  fresh := 1

/-- The directory whose name is how the other one's is shown. -/
def lookalike : Disk where
  entries := [
    (["tmp"], .directory),
    (["tmp", "\uFFFD"], .directory),
    (["tmp", "\uFFFD", "A.kt.stagefmt.tmp"], .file 0 0o644 "kept".toUTF8)]
  fresh := 1

/-- Nothing is beside the destination in these trees. In the first one a file is not replaced; in the other one,
where the path leads nowhere, the write that fails takes away a file. -/
theorem unprintable_destination_fails :
    let file : WorkingFile := ⟨Location.path ["tmp", ⟨[0xFF]⟩, "A.kt"], none⟩
    let beside (disk : Disk) : Path := ⟨(WorkingFile.destination disk file.path).written ++ ".stagefmt.tmp"⟩
    (unprintable.find true file.path =
        .ok ⟨["tmp", ⟨[0xFF]⟩, "A.kt"], some (.file 0 0o644 "a=1".toUTF8)⟩ ∧
      Unoccupied unprintable (beside unprintable) ∧
      (file.write unprintable "a = 1").1 = .error (.io ⟨"/tmp/\uFFFD/A.kt.stagefmt.tmp"⟩ .notFound)) ∧
    Unoccupied lookalike (beside lookalike) ∧
      (file.write lookalike "a = 1").1 = .error (.io file.path .notFound) ∧
      ∃ other, lookalike.entry? other = some (.file 0 0o644 "kept".toUTF8) ∧
        Disk.entry? (file.write lookalike "a = 1").2 other = none := by
  refine ⟨⟨rfl, by decide +kernel, by decide +kernel⟩, by decide +kernel, by decide +kernel,
    ["tmp", "\uFFFD", "A.kt.stagefmt.tmp"], rfl, rfl⟩

end StagedFormat.Proofs.FileRestoration
