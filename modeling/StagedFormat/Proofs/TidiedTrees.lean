import StagedFormat.Proofs.DiskSkeleton
import StagedFormat.Proofs.FileWalk
import StagedFormat.Proofs.PathSight

/-! Trees in which files were rewritten through temporary ones: nothing came, and nothing went but temporary
files. Directories and what may be below them are the same. -/

namespace StagedFormat.Proofs.TidiedTrees
open StagedFormat Disk ByteTexts PathSegments DiskFollowing DiskReplacement DiskSkeleton PathPlaces PathSight FileWalk

/-- The end of the names of the temporary files that files with an extension are written through. -/
def mark (extension : String) : String := "." ++ extension ++ ".stagefmt.tmp"

def Temporary (extension : String) (name : ByteString) : Prop :=
  (ByteString.ofText (mark extension)).bytes <:+ name.bytes

instance (extension : String) (name : ByteString) : Decidable (Temporary extension name) :=
  inferInstanceAs (Decidable (_ <:+ _))

private theorem suffix_of_extensionOf {extension name : ByteString}
    (source : Path.extensionOf name = some extension) :
    Path.dot :: extension.bytes <:+ name.bytes := by
  have halves := List.takeWhile_append_dropWhile (p := (· != Path.dot)) (l := name.bytes.reverse)
  have first := @List.head_dropWhile_not _ (· != Path.dot) name.bytes.reverse
  simp only [Path.extensionOf] at source
  generalize name.bytes.reverse.takeWhile (· != Path.dot) = back at halves source
  generalize name.bytes.reverse.dropWhile (· != Path.dot) = rest at halves source first
  cases rest with
  | nil => cases source
  | cons dot front =>
    have isDot := first (List.cons_ne_nil dot front)
    rw [List.head_cons] at isDot
    obtain rfl : dot = Path.dot := by simpa using isDot
    split at source
    · cases source
    · cases source
    · obtain rfl := Option.some.inj source
      refine ⟨front.reverse, ?_⟩
      rw [← List.reverse_inj, ← halves]
      simp

theorem temporary_of_extensionOf {extension : String} {name : ByteString}
    (source : Path.extensionOf name = some ↑extension) : Temporary extension (name ++ ".stagefmt.tmp") := by
  obtain ⟨front, whole⟩ := suffix_of_extensionOf source
  refine ⟨front, ?_⟩
  simp only [mark, ofText_append, ByteString.bytes_append, ← whole, Path.bytes_dot, List.append_assoc,
    List.cons_append, List.nil_append]

/-- A location is there as it was, but for what its file holds, or a temporary file is gone from it. -/
inductive Kept (extension : String) (disk next : Disk) (location : Location) : Prop where
  | alike : (next.entry? location).map shape = (disk.entry? location).map shape → Kept extension disk next location
  | gone {name} : location.getLast? = some name → Temporary extension name → passage disk location = none →
      next.entry? location = none → Kept extension disk next location

/-- Nothing is different but the content of files, and temporary files that are gone. -/
def Tidied (extension : String) (disk next : Disk) : Prop := ∀ location, Kept extension disk next location

private theorem file_of_shape {one other : Option Entry} (same : one.map shape = other.map shape)
    (stands : ∃ id mode content, one = some (.file id mode content)) :
    ∃ id mode content, other = some (.file id mode content) := by
  obtain ⟨_, _, _, rfl⟩ := stands
  cases matched_of_shape same
  exact ⟨_, _, _, rfl⟩

theorem Tidied.refl (extension : String) (disk : Disk) : Tidied extension disk disk := fun _ => .alike rfl

private theorem passage_of_shape {disk next : Disk} {location : Location}
    (same : (next.entry? location).map shape = (disk.entry? location).map shape) :
    passage next location = passage disk location := by
  unfold passage
  have matched := matched_of_shape same
  generalize next.entry? location = one at matched
  generalize disk.entry? location = two at matched
  cases matched <;> rfl

section
variable {extension : String} {disk next : Disk} (tidied : Tidied extension disk next)
include tidied

theorem Tidied.framed : Framed disk next := by
  intro location
  cases tidied location with
  | alike same => exact passage_of_shape same
  | gone _ _ blocked vacant =>
    rw [blocked]
    refine passage_eq_none.mpr ?_
    rw [vacant]
    nofun

theorem Tidied.trans {last : Disk} (later : Tidied extension next last) : Tidied extension disk last := by
  intro location
  cases later location with
  | gone named temporary blocked vacant =>
    exact .gone named temporary ((tidied.framed location).symm.trans blocked) vacant
  | alike same =>
    cases tidied location with
    | alike before => exact .alike (same.trans before)
    | gone named temporary blocked vacant =>
      refine .gone named temporary blocked ?_
      rw [vacant] at same
      exact Option.map_eq_none_iff.mp same

theorem Tidied.file {location : Location}
    (lasting : ∀ name, location.getLast? = some name → ¬ Temporary extension name)
    (stands : ∃ id mode content, disk.entry? location = some (.file id mode content)) :
    ∃ id mode content, next.entry? location = some (.file id mode content) := by
  cases tidied location with
  | gone named temporary => exact (lasting _ named temporary).elim
  | alike same => exact file_of_shape same.symm stands

theorem Tidied.file_before {location : Location}
    (stands : ∃ id mode content, next.entry? location = some (.file id mode content)) :
    ∃ id mode content, disk.entry? location = some (.file id mode content) := by
  cases tidied location with
  | gone _ _ _ vacant =>
    obtain ⟨_, _, _, stands⟩ := stands
    rw [stands] at vacant
    cases vacant
  | alike same => exact file_of_shape same stands

theorem Tidied.entry_before {location : Location} {entry : Entry} (stands : next.entry? location = some entry) :
    ∃ stood, disk.entry? location = some stood := by
  cases tidied location with
  | gone _ _ _ vacant =>
    rw [stands] at vacant
    cases vacant
  | alike same =>
    rw [stands] at same
    cases here : disk.entry? location with
    | none =>
      rw [here] at same
      cases same
    | some stood => exact ⟨stood, rfl⟩

theorem Tidied.linkFree (free : LinkFree disk) : LinkFree next :=
  fun location target link => free location target (tidied.framed.symm.passes rfl link)

end

/-- Without links, a way to a place looks at directories and at that place. -/
theorem looks_of_leads {disk : Disk} (free : LinkFree disk) {follow : Bool} {directory : Location}
    {way : List Step} {place : Place} (leads : Leads disk follow directory way place) {seen : Location}
    (looks : Looks disk follow directory way seen) :
    disk.entry? seen = some .directory ∨ seen = place.location := by
  induction leads with
  | done => cases looks
  | stay _ ih =>
    cases looks with
    | stay looks => exact ih looks
  | up _ ih =>
    cases looks with
    | up looks => exact ih looks
  | enter stands _ ih =>
    cases looks with
    | here => exact .inl stands
    | enter _ looks => exact ih looks
    | chase link => exact (free _ _ link).elim
  | chase link => exact (free _ _ link).elim
  | stop =>
    cases looks with
    | here => exact .inr rfl
    | enter _ looks => cases looks
    | chase link => exact (free _ _ link).elim

section
variable {disk : Disk} (tree : IsTree disk) {location : Location}
include tree

theorem IsTree.fresh {fresh : FileId} : IsTree { disk with fresh } := ⟨tree.single, tree.proper, tree.above⟩

/-- A tree stays one when an entry is put where there is no directory. -/
theorem IsTree.set {entry : Entry} (lands : Grounded disk location) (nonempty : location ≠ [])
    (noDirectory : disk.entry? location ≠ some .directory) : IsTree (disk.set location entry) := by
  constructor
  case single =>
    simp only [Disk.set, List.map_cons, List.nodup_cons]
    refine ⟨fun member => ?_, tree.single.sublist (List.filter_sublist.map _)⟩
    obtain ⟨item, inside, same⟩ := List.mem_map.mp member
    exact absurd same (by simpa using (List.mem_filter.mp inside).2)
  case proper =>
    rintro item member name
    rcases List.mem_cons.mp member with rfl | member
    · exact lands.proper name
    · exact tree.proper item (List.mem_filter.mp member).1 name
  case above =>
    have kept {upper : Location} (stands : disk.entry? upper = some .directory) :
        Disk.entry? (disk.set location entry) upper = some .directory := by
      rw [entry?_set _ nonempty, if_neg]
      · exact stands
      · rintro rfl
        exact noDirectory stands
    rintro item member
    rcases List.mem_cons.mp member with rfl | member
    · refine kept (lands.above _ (List.dropLast_prefix _) fun same => ?_)
      have sizes : location.dropLast.length = location.length := congrArg List.length same
      have longer := List.length_pos_iff.mpr nonempty
      rw [List.length_dropLast] at sizes
      omega
    · exact kept (tree.above item (List.mem_filter.mp member).1)

theorem IsTree.erase (nonempty : location ≠ []) (noDirectory : disk.entry? location ≠ some .directory) :
    IsTree (disk.erase location) := by
  constructor
  case single => exact tree.single.sublist (List.filter_sublist.map _)
  case proper => exact fun item member => tree.proper item (List.mem_filter.mp member).1
  case above =>
    intro item member
    have stands := tree.above item (List.mem_filter.mp member).1
    rw [entry?_erase _ nonempty, if_neg]
    · exact stands
    · rintro same
      exact noDirectory (by rw [← same, stands])

end

end StagedFormat.Proofs.TidiedTrees
