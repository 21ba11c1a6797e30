import StagedFormat.Proofs.DiskGrowth

/-! Files come and go while the directories and links of a tree stay. They are its skeleton: they decide
where a path leads. -/

namespace StagedFormat.Proofs.DiskSkeleton
open StagedFormat Disk DiskFollowing DiskReplacement DiskGrowth

/-- What a path may go through at a location. -/
def passage (disk : Disk) (location : Location) : Option Entry :=
  (disk.entry? location).filter (!·.isFile)

/-- Two trees have the same directories and links. -/
def Framed (disk next : Disk) : Prop := ∀ location, passage next location = passage disk location

theorem Framed.symm {disk next : Disk} (framed : Framed disk next) : Framed next disk :=
  fun location => (framed location).symm

private theorem passage_eq_some {disk : Disk} {location : Location} {entry : Entry} :
    passage disk location = some entry ↔ disk.entry? location = some entry ∧ entry.isFile = false := by
  simp [passage, Option.filter_eq_some_iff]

theorem passage_eq_none {disk : Disk} {location : Location} :
    passage disk location = none ↔ ∀ entry, disk.entry? location = some entry → entry.isFile = true := by
  simp [passage]

/-- A change at one place, where a file was or nothing, and is one or nothing now. -/
theorem framed_at {disk next : Disk} (location : Location) (before : passage disk location = none)
    (after : passage next location = none)
    (others : ∀ other, other ≠ location → next.entry? other = disk.entry? other) : Framed disk next := by
  intro other
  by_cases same : other = location
  · rw [same, before, after]
  · rw [passage, passage, others other same]

private theorem advance_last {disk : Disk} {follow : Bool}
    {chase : Location → Path → List Step → Except IoError Place} {directory : Location} {name : ByteString}
    (short : ¬ nameLimit < name.bytes.length) (blocked : passage disk (directory ++ [name]) = none) :
    disk.advance follow chase directory [.down name] =
      .ok ⟨directory ++ [name], disk.entry? (directory ++ [name])⟩ := by
  rw [advance]
  simp only [if_neg short]
  cases stands : disk.entry? (directory ++ [name]) with
  | none => rfl
  | some entry =>
    have plain := passage_eq_none.mp blocked entry stands
    cases entry with
    | directory => cases plain
    | link target => cases plain
    | file => rfl

section
variable {disk next : Disk} (framed : Framed disk next)
include framed

theorem Framed.passes {location : Location} {entry : Entry} (passable : entry.isFile = false)
    (stands : disk.entry? location = some entry) : next.entry? location = some entry :=
  (passage_eq_some.mp ((framed location).trans (passage_eq_some.mpr ⟨stands, passable⟩))).1

theorem grounded_framed {location : Location} (grounded : Grounded disk location) : Grounded next location :=
  ⟨grounded.proper, fun upper leads different => framed.passes rfl (grounded.above upper leads different)⟩

private theorem advance_framed {follow : Bool} {chase chased : Location → Path → List Step → Except IoError Place}
    (onward : ∀ directory target rest place, chase directory target rest = .ok place →
      ∃ entry, chased directory target rest = .ok ⟨place.location, entry⟩)
    {directory : Location} {way : List Step} {place : Place}
    (found : disk.advance follow chase directory way = .ok place) :
    ∃ entry, next.advance follow chased directory way = .ok ⟨place.location, entry⟩ := by
  induction way generalizing directory with
  | nil =>
    cases found
    exact ⟨_, rfl⟩
  | cons step rest ih =>
    cases step with
    | stay => exact ih found
    | up => exact ih found
    | down name =>
      rw [advance] at found
      split at found
      · cases found
      · rename_i short
        have last (blocked : passage disk (directory ++ [name]) = none) :
            next.advance follow chased directory [.down name] = .ok ⟨directory ++ [name], _⟩ :=
          advance_last short ((framed _).trans blocked)
        split at found
        · rename_i stands
          rw [advance]
          simp only [if_neg short, framed.passes rfl stands]
          exact ih found
        · rename_i target stands
          rw [advance]
          simp only [if_neg short, framed.passes rfl stands]
          split at found
          · rename_i ends
            rw [if_pos ends]
            cases found
            exact ⟨_, rfl⟩
          · rename_i goes
            rw [if_neg goes]
            exact onward _ _ _ _ found
        · rename_i file noDirectory noLink stands
          split at found
          · rename_i ends
            cases found
            cases List.isEmpty_iff.mp ends
            refine ⟨_, last (passage_eq_none.mpr ?_)⟩
            intro entry here
            cases stands.symm.trans here
            cases file with
            | directory => exact (noDirectory rfl).elim
            | link target => exact (noLink target rfl).elim
            | file => rfl
          · cases found
        · rename_i stands
          split at found
          · rename_i ends
            cases found
            cases List.isEmpty_iff.mp ends
            refine ⟨_, last (passage_eq_none.mpr ?_)⟩
            rw [stands]
            rintro _ ⟨⟩
          · cases found

private theorem walk_framed {follow : Bool} {links : Nat} {directory : Location} {way : List Step} {place : Place}
    (found : disk.walk follow links directory way = .ok place) :
    ∃ entry, next.walk follow links directory way = .ok ⟨place.location, entry⟩ := by
  induction links generalizing directory way place with
  | zero => exact advance_framed framed (fun _ _ _ _ none => by cases none) found
  | succ links ih => exact advance_framed framed (fun _ _ _ _ chased => ih chased) found

/-- A path leads to the same location, and to what is there now. -/
theorem find_framed {follow : Bool} {path : Path} {place : Place}
    (found : disk.find follow path = .ok place) :
    next.find follow path = .ok ⟨place.location, next.entry? place.location⟩ := by
  have there : ∃ entry, next.find follow path = .ok ⟨place.location, entry⟩ := by
    unfold find at found ⊢
    split at found
    · cases found
    · rename_i nonempty
      split at found
      · cases found
      · rename_i plain
        split at found
        · cases found
        · rename_i short
          rw [if_neg nonempty, if_neg plain, if_neg short]
          exact walk_framed framed found
  obtain ⟨entry, again⟩ := there
  rw [again, ← (find_grounded again).2]

omit framed in
private theorem final_of_blocked {location : Location} (follow : Bool) (blocked : passage disk location = none) :
    Final follow (disk.entry? location) := by
  have plain := passage_eq_none.mp blocked
  rcases stands : disk.entry? location with _ | _ | target | ⟨id, mode, content⟩
  · trivial
  · cases plain _ stands
  · cases plain _ stands
  · trivial

/-- So does a path that is followed without a bound on links. -/
theorem leads_framed {follow : Bool} {directory : Location} {way : List Step} {place : Place}
    (leads : Leads disk follow directory way place) :
    ∃ entry, Leads next follow directory way ⟨place.location, entry⟩ := by
  induction leads with
  | done => exact ⟨_, .done⟩
  | stay _ ih =>
    obtain ⟨entry, leads⟩ := ih
    exact ⟨entry, .stay leads⟩
  | up _ ih =>
    obtain ⟨entry, leads⟩ := ih
    exact ⟨entry, .up leads⟩
  | enter stands _ ih =>
    obtain ⟨entry, leads⟩ := ih
    exact ⟨entry, .enter (framed.passes rfl stands) leads⟩
  | chase link goes _ ih =>
    obtain ⟨entry, leads⟩ := ih
    exact ⟨entry, .chase (framed.passes rfl link) goes leads⟩
  | @stop directory name final =>
    refine ⟨_, .stop ?_⟩
    by_cases blocked : passage disk (directory ++ [name]) = none
    · exact final_of_blocked follow ((framed _).trans blocked)
    · obtain ⟨entry, passes⟩ := Option.ne_none_iff_exists'.mp blocked
      obtain ⟨stands, passable⟩ := passage_eq_some.mp passes
      rw [framed.passes passable stands, ← stands]
      exact final

end

theorem nonempty_of_vacant {disk : Disk} {location : Location} (vacant : disk.entry? location = none) :
    location ≠ [] := by
  rintro rfl
  cases vacant

theorem create_framed {disk : Disk} {location : Location} (content : ByteArray)
    (vacant : disk.entry? location = none) : Framed disk (disk.create location content) := by
  have nonempty := nonempty_of_vacant vacant
  refine framed_at location (passage_eq_none.mpr ?_) (passage_eq_none.mpr ?_) fun other different => ?_
  · rw [vacant]
    nofun
  · rw [entry?_create _ nonempty, if_pos rfl]
    rintro _ ⟨⟩
    rfl
  · rw [entry?_create _ nonempty, if_neg different]

theorem erase_framed {disk : Disk} {location : Location} {id mode : Nat} {content : ByteArray}
    (stands : disk.entry? location = some (.file id mode content)) : Framed disk (disk.erase location) := by
  have nonempty := nonempty_of_file stands
  refine framed_at location (passage_eq_none.mpr ?_) (passage_eq_none.mpr ?_) fun other different => ?_
  · rw [stands]
    rintro _ ⟨⟩
    rfl
  · rw [entry?_erase _ nonempty, if_pos rfl]
    nofun
  · rw [entry?_erase _ nonempty, if_neg different]

/-! What is found through a link at the end of a path is one thing; that the link is there is another. -/

/-- A link is found, or what is found if links are followed. -/
def Unfollowed (followed place : Place) : Prop :=
  (∃ target, place.entry = some (.link target)) ∨ place = followed

private theorem advance_unfollowed {disk : Disk} {chase chased : Location → Path → List Step → Except IoError Place}
    (onward : ∀ directory target rest place, chase directory target rest = .ok place →
      ∃ other, chased directory target rest = .ok other ∧ Unfollowed place other)
    {directory : Location} {way : List Step} {place : Place}
    (found : disk.advance true chase directory way = .ok place) :
    ∃ other, disk.advance false chased directory way = .ok other ∧ Unfollowed place other := by
  induction way generalizing directory with
  | nil => exact ⟨place, found, .inr rfl⟩
  | cons step rest ih =>
    cases step with
    | stay => exact ih found
    | up => exact ih found
    | down name =>
      rw [advance] at found ⊢
      split at found
      · cases found
      · rename_i short
        rw [if_neg short]
        cases stands : disk.entry? (directory ++ [name]) with
        | none =>
          simp only [stands] at found ⊢
          exact ⟨place, found, .inr rfl⟩
        | some here =>
          cases here with
          | directory =>
            simp only [stands] at found ⊢
            exact ih found
          | link target =>
            simp only [stands, Bool.not_true, Bool.and_false, Bool.false_eq_true, if_false] at found ⊢
            split
            · exact ⟨_, rfl, .inl ⟨target, rfl⟩⟩
            · exact onward _ _ _ _ found
          | file id mode content =>
            simp only [stands] at found ⊢
            exact ⟨place, found, .inr rfl⟩

private theorem walk_unfollowed {disk : Disk} {links : Nat} {directory : Location} {way : List Step} {place : Place}
    (found : disk.walk true links directory way = .ok place) :
    ∃ other, disk.walk false links directory way = .ok other ∧ Unfollowed place other := by
  induction links generalizing directory way place with
  | zero => exact advance_unfollowed (fun _ _ _ _ none => by cases none) found
  | succ links ih => exact advance_unfollowed (fun _ _ _ _ chased => ih chased) found

theorem find_unfollowed {disk : Disk} {path : Path} {place : Place}
    (found : disk.find true path = .ok place) :
    ∃ other, disk.find false path = .ok other ∧ Unfollowed place other := by
  unfold find at found ⊢
  split at found
  · cases found
  · rename_i nonempty
    split at found
    · cases found
    · rename_i plain
      split at found
      · cases found
      · rename_i short
        rw [if_neg nonempty, if_neg plain, if_neg short]
        exact walk_unfollowed found

private theorem withoutEndSlash_slashless {path : Path} (slashless : endsInSlash path = false) :
    withoutEndSlash path = path := by
  have same : (path.written.bytes.reverse.dropWhile (· == Path.slash)).reverse = path.written.bytes := by
    cases backwards : path.written.bytes.reverse with
    | nil => rw [List.reverse_eq_nil_iff.mp backwards]; rfl
    | cons last front =>
      have ends : path.written.bytes.getLast? = some last := by
        rw [← List.head?_reverse, backwards, List.head?_cons]
      rw [List.dropWhile_cons_of_neg (by simpa [endsInSlash, ends] using slashless), ← backwards,
        List.reverse_reverse]
  rw [withoutEndSlash, same]

theorem makeDirectories_there {disk : Disk} {path : Path} (slashless : endsInSlash path = false)
    {location : Location} (found : disk.find true path = .ok ⟨location, some .directory⟩) :
    disk.makeDirectories path = .ok disk := by
  obtain ⟨own, reached, unfollowed⟩ := find_unfollowed found
  have taken : disk.makeDirectory path = .error .alreadyExists := by
    rw [makeDirectory, withoutEndSlash_slashless slashless, reached]
    obtain ⟨target, link⟩ | rfl := unfollowed
    · simp only [bind, Except.bind, link]
      rfl
    · rfl
  have there : disk.isDirectory path = true := by
    rw [isDirectory, inspect_ok.mpr ⟨_, found⟩]
    rfl
  have settled : makeDirectories.settle disk path = .ok disk := by
    rw [makeDirectories.settle, taken]
    exact if_pos there
  unfold makeDirectories makeDirectories.build
  split
  · rfl
  · rw [taken]
    exact settled

section
variable {disk : Disk} {path : Path} (slashless : endsInSlash path = false) {location : Location}
include slashless

theorem openOrCreate_file {id mode : Nat} {content : ByteArray}
    (found : disk.find true path = .ok ⟨location, some (.file id mode content)⟩) :
    disk.openOrCreate path = .ok (id, disk) := by
  rw [openOrCreate, findForCreation, slashless, if_neg Bool.false_ne_true, found]
  rfl

theorem openOrCreate_vacant (found : disk.find true path = .ok ⟨location, none⟩) :
    disk.openOrCreate path = .ok (disk.fresh, disk.create location ByteArray.empty) := by
  rw [openOrCreate, findForCreation, slashless, if_neg Bool.false_ne_true, found]
  rfl

end

theorem find_opened {disk next : Disk} {path : Path} {file : FileId}
    (opened : disk.openOrCreate path = .ok (file, next)) :
    ∃ location mode content, next.find true path = .ok ⟨location, some (.file file mode content)⟩ := by
  unfold openOrCreate at opened
  cases found : disk.findForCreation path with
  | error cause => rw [found] at opened; cases opened
  | ok place =>
    rw [found] at opened
    have led := find_of_findForCreation found
    obtain ⟨location, stands⟩ := place
    rcases stands with _ | (_ | target | ⟨id, mode, content⟩)
    · cases opened
      have vacant := (find_grounded led).2.symm
      have nonempty := nonempty_of_vacant vacant
      have there := find_framed (create_framed ByteArray.empty vacant) led
      rw [entry?_create _ nonempty, if_pos rfl] at there
      exact ⟨_, _, _, there⟩
    · cases opened
    · cases opened
    · cases opened
      exact ⟨_, _, _, led⟩

end StagedFormat.Proofs.DiskSkeleton
