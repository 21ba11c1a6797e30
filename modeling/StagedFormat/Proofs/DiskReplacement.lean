import StagedFormat.Proofs.DiskFollowing
import StagedFormat.Target.WorkingFile

/-! Replacing the content of a file through a temporary file beside it: either nothing changes, or the
file has the new content and nothing else is different. -/

namespace StagedFormat.Proofs.DiskReplacement
open StagedFormat Disk ByteTexts PathSegments DiskFollowing

theorem entry?_of_entries {disk next : Disk} (same : next.entries = disk.entries) (location : Location) :
    next.entry? location = disk.entry? location := by
  rw [Disk.entry?, Disk.entry?, same]

private theorem lookup_filter (entries : List (Location × Entry)) (location other : Location) :
    (entries.filter (·.1 ≠ location)).lookup other =
      if other = location then none else entries.lookup other := by
  induction entries with
  | nil => split <;> rfl
  | cons head entries ih =>
    obtain ⟨key, entry⟩ := head
    by_cases dropped : key = location
    · rw [List.filter_cons_of_neg (by simpa using dropped), ih, List.lookup_cons, dropped]
      split
      · rfl
      · rename_i different
        rw [beq_eq_false_iff_ne.mpr different]
    · rw [List.filter_cons_of_pos (by simpa using dropped), List.lookup_cons, List.lookup_cons, ih]
      by_cases same : other = key
      · simp only [same, beq_self_eq_true, if_neg dropped]
      · rw [beq_eq_false_iff_ne.mpr same]

@[simp] theorem entry?_set {disk : Disk} {location : Location} {entry : Entry} (other : Location)
    (nonempty : location ≠ []) :
    Disk.entry? (disk.set location entry) other = if other = location then some entry else disk.entry? other := by
  simp only [Disk.entry?, Disk.set, List.lookup_cons, lookup_filter]
  by_cases same : other = location
  · simp [same, nonempty]
  · rw [beq_eq_false_iff_ne.mpr same, if_neg same, if_neg same]

@[simp] theorem entry?_erase {disk : Disk} {location : Location} (other : Location)
    (nonempty : location ≠ []) :
    Disk.entry? (disk.erase location) other = if other = location then none else disk.entry? other := by
  simp only [Disk.entry?, Disk.erase, lookup_filter]
  by_cases same : other = location
  · simp [same, nonempty]
  · simp [same]

@[simp] theorem entry?_create {disk : Disk} {location : Location} {content : ByteArray} (other : Location)
    (nonempty : location ≠ []) :
    Disk.entry? (disk.create location content) other =
      if other = location then some (.file disk.fresh plainMode content) else disk.entry? other :=
  entry?_set other nonempty

theorem Grounded.set {disk next : Disk} {location changed : Location} (grounded : Grounded disk location)
    (noDirectory : disk.entry? changed ≠ some .directory)
    (others : ∀ other, other ≠ changed → next.entry? other = disk.entry? other) : Grounded next location := by
  refine ⟨grounded.proper, ?_⟩
  intro upper leads different
  have stands := grounded.above upper leads different
  rw [others upper fun same => noDirectory (same ▸ stands), stands]

theorem nonempty_of_entry {disk : Disk} {location : Location} {entry : Entry}
    (stands : disk.entry? location = some entry) (other : entry ≠ .directory) : location ≠ [] := by
  rintro rfl
  cases stands
  exact other rfl

theorem nonempty_of_file {disk : Disk} {location : Location} {id mode : Nat} {content : ByteArray}
    (stands : disk.entry? location = some (.file id mode content)) : location ≠ [] :=
  nonempty_of_entry stands nofun

section
variable {disk : Disk} {location : Location} (grounded : Grounded disk location)
include grounded

theorem findForCreation_path (nonempty : location ≠ []) :
    disk.findForCreation location.path = disk.find true location.path := by
  rw [findForCreation, endsInSlash, if_neg]
  simpa using getLast?_path nonempty grounded.proper

private theorem writeFile_vacant {content : ByteArray} (nonempty : location ≠ []) (fits : Fits location)
    (vacant : disk.entry? location = none) :
    disk.writeFile location.path content = .ok (disk.create location content) := by
  have found := find_path true grounded nonempty (by rw [vacant]; nofun) fits
  rw [writeFile, findForCreation_path grounded nonempty, found, vacant]
  rfl

variable {id mode : Nat} {content : ByteArray} (fits : Fits location)
  (stands : disk.entry? location = some (.file id mode content))
include fits stands

theorem find_file (follow : Bool) :
    disk.find follow location.path = .ok ⟨location, some (.file id mode content)⟩ := by
  rw [← stands]
  exact find_path follow grounded (nonempty_of_file stands) (by rw [stands]; nofun) fits

theorem setMode_file (next : Nat) :
    disk.setMode location.path next = .ok (disk.set location (.file id next content)) := by
  rw [setMode, find_file grounded fits stands]
  rfl

theorem modeAt_file : WorkingFile.modeAt disk location.path = some mode := by
  rw [WorkingFile.modeAt, inspect, find_file grounded fits stands]
  rfl

end

theorem rename_file {disk : Disk} {source : Path} {location destination : Location} {id mode : Nat}
    {content : ByteArray} {old : Entry}
    (found : disk.find false source = .ok ⟨location, some (.file id mode content)⟩)
    (lands : Grounded disk destination) (room : Fits destination)
    (replaced : disk.entry? destination = some old) (plain : old.isFile) :
    disk.rename source destination.path = .ok ((disk.erase location).set destination (.file id mode content)) := by
  cases old with
  | directory => cases plain
  | link target => cases plain
  | file other kept held =>
    have slash : endsInSlash destination.path = false := by
      simpa [endsInSlash] using getLast?_path (nonempty_of_file replaced) lands.proper
    rw [rename, found, find_file lands room replaced]
    simp [slash, bind, Except.bind, pure, Except.pure]

def beside (location : Location) : Location :=
  location.dropLast ++ [location.getLast?.getD "" ++ ".stagefmt.tmp"]

theorem beside_concat (front : Location) (name : ByteString) :
    beside (front ++ [name]) = front ++ [name ++ ".stagefmt.tmp"] := by
  simp [beside]

private theorem path_beside {location : Location} (nonempty : location ≠ []) :
    (beside location).path.written = location.path.written ++ ".stagefmt.tmp" := by
  obtain ⟨front, name, rfl⟩ := (List.eq_nil_or_concat location).resolve_left nonempty
  rw [List.concat_eq_append, beside_concat]
  simp only [Location.path]
  by_cases alone : front = []
  · simp only [alone, List.nil_append, joined_singleton, ByteString.append_assoc]
  · rw [joined_append alone (by simp), joined_append alone (by simp), joined_singleton, joined_singleton]
    simp only [ByteString.append_assoc]

/-- The temporary file is beside the file, if the text that shows its path is the path. -/
theorem temporary_path {location : Location} (nonempty : location ≠ []) (legible : Legible location) :
    WorkingFile.temporary location.path = (beside location).path := by
  have shown : ByteString.ofText location.path.text = location.path.written := legible.shown
  rw [WorkingFile.temporary, shown, ← path_beside nonempty]

theorem beside_ne_nil (location : Location) : beside location ≠ [] := by simp [beside]

theorem beside_ne (location : Location) : beside location ≠ location := by
  intro same
  have nonempty : location ≠ [] := fun empty => beside_ne_nil location (same.trans empty)
  obtain ⟨front, name, rfl⟩ := (List.eq_nil_or_concat location).resolve_left nonempty
  rw [List.concat_eq_append, beside_concat] at same
  have sizes := congrArg (·.bytes.length) (List.singleton_inj.mp (List.append_cancel_left same))
  simp only [ByteString.bytes_append, List.length_append] at sizes
  exact absurd (Nat.add_eq_left.mp sizes) (by decide)

theorem beside_injective {one other : Location} (here : one ≠ []) (there : other ≠ [])
    (same : beside one = beside other) : one = other := by
  obtain ⟨front, name, rfl⟩ := (List.eq_nil_or_concat one).resolve_left here
  obtain ⟨front', name', rfl⟩ := (List.eq_nil_or_concat other).resolve_left there
  simp only [List.concat_eq_append, beside_concat] at same ⊢
  obtain ⟨fronts, names⟩ := List.append_inj' same rfl
  have bytes := congrArg ByteString.bytes (List.singleton_inj.mp names)
  rw [ByteString.bytes_append, ByteString.bytes_append] at bytes
  rw [fronts, ByteString.bytes_inj.mp (List.append_cancel_right bytes)]

theorem Proper.temporary {name : ByteString} (proper : Proper name) : Proper (name ++ ".stagefmt.tmp") := by
  obtain ⟨_, _, _, whole⟩ := proper
  have long : 2 < (name ++ ".stagefmt.tmp").bytes.length := by
    rw [ByteString.bytes_append, List.length_append]
    exact Nat.lt_of_lt_of_le (by decide : 2 < (ByteString.ofText ".stagefmt.tmp").bytes.length) (Nat.le_add_left _ _)
  have plain : Path.slash ∉ (ByteString.ofText ".stagefmt.tmp").bytes := by decide
  refine ⟨?_, ?_, ?_, by simp [whole, plain]⟩ <;>
    · intro short
      rw [short] at long
      exact absurd long (by decide)

theorem Grounded.beside {disk : Disk} {location : Location} (grounded : Grounded disk location)
    (nonempty : location ≠ []) : Grounded disk (beside location) := by
  obtain ⟨front, name, rfl⟩ := (List.eq_nil_or_concat location).resolve_left nonempty
  rw [List.concat_eq_append] at grounded ⊢
  rw [beside_concat]
  constructor
  · intro other member
    rcases List.mem_append.mp member with member | member
    · exact grounded.proper other (List.mem_append_left _ member)
    · have proper := grounded.proper name (List.mem_append_right _ List.mem_cons_self)
      exact List.mem_singleton.mp member ▸ Proper.temporary proper
  · intro upper leads different
    have above := (List.prefix_concat_iff.mp leads).resolve_left different
    refine grounded.above upper (above.trans (List.prefix_append _ _)) ?_
    rintro rfl
    have sizes := above.length_le
    rw [List.length_append, List.length_singleton] at sizes
    omega

theorem Fits.of_beside {location : Location} (fits : Fits (beside location)) (nonempty : location ≠ []) :
    Fits location := by
  obtain ⟨plain, path, names⟩ := fits
  -- The temporary file has the longer path.
  rw [path_beside nonempty, ByteString.bytes_append] at plain path
  refine ⟨?_, ?_, ?_⟩
  · intro inside
    exact plain (List.mem_append_left _ inside)
  · rw [List.length_append] at path
    omega
  · obtain ⟨front, name, rfl⟩ := (List.eq_nil_or_concat location).resolve_left nonempty
    rw [List.concat_eq_append] at names ⊢
    rw [beside_concat] at names
    intro other member
    rcases List.mem_append.mp member with member | member
    · exact names other (List.mem_append_left _ member)
    · cases List.mem_singleton.mp member
      have long := names (name ++ ".stagefmt.tmp") (List.mem_append_right _ List.mem_cons_self)
      rw [ByteString.bytes_append, List.length_append] at long
      omega

/-- One location has a file with this content and this mode now; all else is as before. -/
structure Replaced (disk : Disk) (location : Location) (mode : Nat) (content : ByteArray) (next : Disk) :
    Prop where
  file : ∃ id, next.entry? location = some (.file id mode content)
  others : ∀ other, other ≠ location → next.entry? other = disk.entry? other

theorem Replaced.alike {disk next : Disk} {location : Location} {id kept mode : Nat}
    {old content : ByteArray} (replaced : Replaced disk location mode content next)
    (stands : disk.entry? location = some (.file id kept old)) : Alike disk next := by
  intro other
  by_cases same : other = location
  · obtain ⟨new, file⟩ := replaced.file
    rw [same, stands, file]
    rfl
  · rw [replaced.others other same]

private theorem settle_ok {disk prepared done : Disk} {mode : Nat} {temporary destination : Path}
    (ready : disk.setMode temporary mode = .ok prepared)
    (moved : prepared.rename temporary destination = .ok done) :
    WorkingFile.settle disk (some mode) temporary destination = (.ok (), done) := by
  rw [WorkingFile.settle, Option.elim, ready]
  simp only [moved]

def moved (disk : Disk) (location : Location) (own mode : Nat) (content : ByteArray) : Disk :=
  ((disk.set (beside location) (.file own mode content)).erase (beside location)).set location
    (.file own mode content)

theorem entry?_moved {disk : Disk} {location : Location} {own mode : Nat} {content : ByteArray}
    (nonempty : location ≠ []) (other : Location) :
    Disk.entry? (moved disk location own mode content) other =
      if other = location then some (.file own mode content)
      else if other = beside location then none
      else disk.entry? other := by
  rw [moved, entry?_set _ nonempty, entry?_erase _ (beside_ne_nil location)]
  split
  · rfl
  · split
    · rfl
    · rename_i away
      rw [entry?_set _ (beside_ne_nil location), if_neg away]

section
variable {disk : Disk} {location : Location} {id mode : Nat} {old : ByteArray}
  (grounded : Grounded disk location) (fits : Fits (beside location))
  (stands : disk.entry? location = some (.file id mode old))
include grounded fits stands

/-- With the new content in the temporary file, and no directory where that is, no step fails. -/
theorem settle_moves {filling : Disk} {own kept : Nat} {content : ByteArray}
    (noDirectory : disk.entry? (beside location) ≠ some .directory)
    (filled : filling.entry? (beside location) = some (.file own kept content))
    (written : ∀ other, other ≠ beside location → filling.entry? other = disk.entry? other) :
    WorkingFile.settle filling (some mode) (beside location).path location.path =
      (.ok (), moved filling location own mode content) := by
  have nonempty := nonempty_of_file stands
  have lands := Grounded.beside grounded nonempty
  have prepared : ∀ other, other ≠ beside location →
      Disk.entry? (filling.set (beside location) (.file own mode content)) other = disk.entry? other := by
    intro other different
    rw [entry?_set _ (beside_ne_nil location), if_neg different, written other different]
  have ready := setMode_file (Grounded.set lands noDirectory written) fits filled mode
  have filled := find_file (Grounded.set lands noDirectory prepared) fits
    (by rw [entry?_set _ (beside_ne_nil location), if_pos rfl]) false
  have done := rename_file filled (Grounded.set grounded noDirectory prepared) (Fits.of_beside fits nonempty)
    ((prepared location (Ne.symm (beside_ne location))).trans stands) rfl
  exact settle_ok ready done

private theorem settle_replaces {content : ByteArray} (vacant : disk.entry? (beside location) = none) :
    ∃ next, WorkingFile.settle (disk.create (beside location) content) (some mode)
        (beside location).path location.path = (.ok (), next) ∧
      Replaced disk location mode content next := by
  have nonempty := nonempty_of_file stands
  have created : ∀ other, other ≠ beside location →
      Disk.entry? (disk.create (beside location) content) other = disk.entry? other := by
    intro other different
    rw [entry?_create _ (beside_ne_nil location), if_neg different]
  have settled := settle_moves grounded fits stands (by rw [vacant]; nofun)
    (by rw [entry?_create _ (beside_ne_nil location), if_pos rfl]) created
  refine ⟨_, settled, ⟨disk.fresh, ?_⟩, ?_⟩
  · rw [entry?_moved nonempty, if_pos rfl]
  · intro other different
    rw [entry?_moved nonempty, if_neg different]
    split
    · rename_i same
      rw [same, vacant]
    · rename_i away
      exact created other away

end

theorem destination_of_find {disk : Disk} {path : Path} {location : Location} {entry : Option Entry}
    (found : disk.find true path = .ok ⟨location, entry⟩) :
    WorkingFile.destination disk path = entry.elim path fun _ => location.path := by
  rw [WorkingFile.destination, canonicalize, found]
  cases entry <;> rfl

/-- Where there is room for the temporary file, no step fails: its name is the longer one. -/
theorem write_fits {disk : Disk} (file : WorkingFile) {location : Location} {id mode : Nat} {old : ByteArray}
    (found : disk.find true file.path = .ok ⟨location, some (.file id mode old)⟩) (legible : Legible location)
    (vacant : disk.entry? (beside location) = none) (content : String) (fits : Fits (beside location)) :
    ∃ next, file.write disk content = (.ok (), next) ∧ Replaced disk location mode content.toUTF8 next := by
  obtain ⟨grounded, stands⟩ := find_grounded found
  have nonempty := nonempty_of_file stands.symm
  have lands := Grounded.beside grounded nonempty
  have destination : WorkingFile.destination disk file.path = location.path := destination_of_find found
  simp only [WorkingFile.write, destination, temporary_path nonempty legible,
    writeFile_vacant lands (beside_ne_nil location) fits vacant,
    modeAt_file grounded (Fits.of_beside fits nonempty) stands.symm]
  exact settle_replaces grounded fits stands.symm vacant

end StagedFormat.Proofs.DiskReplacement
