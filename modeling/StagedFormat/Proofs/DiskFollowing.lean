import StagedFormat.Proofs.ByteTexts
import StagedFormat.Proofs.PathSegments

/-! Where paths lead, said without the bound on links: each place has one way of following it, the
directories above it stand, and following a longer path starts with following the shorter one. -/

namespace StagedFormat.Proofs.DiskFollowing
open StagedFormat Disk ByteTexts PathSegments

/-- What may be at the end of a path. -/
def Final (follow : Bool) : Option Entry → Prop
  | some .directory => False
  | some (.link _) => follow = false
  | _ => True

/-- Where steps from a directory lead. -/
inductive Leads (disk : Disk) (follow : Bool) : Location → List Step → Place → Prop where
  | done {directory} : Leads disk follow directory [] ⟨directory, some .directory⟩
  | stay {directory rest place} : Leads disk follow directory rest place →
      Leads disk follow directory (.stay :: rest) place
  | up {directory rest place} : Leads disk follow directory.dropLast rest place →
      Leads disk follow directory (.up :: rest) place
  | enter {directory name rest place} : disk.entry? (directory ++ [name]) = some .directory →
      Leads disk follow (directory ++ [name]) rest place →
      Leads disk follow directory (.down name :: rest) place
  | chase {directory name target rest place} :
      disk.entry? (directory ++ [name]) = some (.link target) → (rest = [] → follow = true) →
      Leads disk follow (if target.isAbsolute then [] else directory) (steps target ++ rest) place →
      Leads disk follow directory (.down name :: rest) place
  | stop {directory name} : Final follow (disk.entry? (directory ++ [name])) →
      Leads disk follow directory [.down name] ⟨directory ++ [name], disk.entry? (directory ++ [name])⟩

private theorem leads_of_advance {disk : Disk} {follow : Bool}
    {chase : Location → Path → List Step → Except IoError Place}
    (chased : ∀ directory target rest place, chase directory target rest = .ok place →
      Leads disk follow (if target.isAbsolute then [] else directory) (steps target ++ rest) place)
    {directory : Location} {way : List Step} {place : Place}
    (found : disk.advance follow chase directory way = .ok place) :
    Leads disk follow directory way place := by
  induction way generalizing directory with
  | nil =>
    cases found
    exact .done
  | cons step rest ih =>
    cases step with
    | stay => exact .stay (ih found)
    | up => exact .up (ih found)
    | down name =>
      simp only [advance] at found
      split at found
      · cases found
      · split at found
        · rename_i stands
          exact .enter stands (ih found)
        · rename_i target link
          split at found
          · rename_i ends
            cases found
            obtain ⟨empty, stays⟩ := Bool.and_eq_true_iff.mp ends
            cases List.isEmpty_iff.mp empty
            rw [← link]
            exact .stop (by simpa [link, Final] using stays)
          · rename_i goes
            refine .chase link ?_ (chased _ _ _ _ found)
            rintro rfl
            simpa using goes
        · rename_i file noDirectory noLink stands
          split at found
          · rename_i empty
            cases found
            cases List.isEmpty_iff.mp empty
            rw [← stands]
            refine .stop ?_
            rw [stands]
            cases file with
            | directory => exact noDirectory rfl
            | link target => exact (noLink target rfl).elim
            | file id mode content => trivial
          · cases found
        · rename_i vacant
          split at found
          · rename_i empty
            cases found
            cases List.isEmpty_iff.mp empty
            rw [← vacant]
            exact .stop (by rw [vacant]; trivial)
          · cases found

/-- The bound on links only decides whether a walk ends. -/
theorem leads_of_walk {disk : Disk} {follow : Bool} {links : Nat} {directory : Location}
    {way : List Step} {place : Place} (found : disk.walk follow links directory way = .ok place) :
    Leads disk follow directory way place := by
  induction links generalizing directory way place with
  | zero => exact leads_of_advance (fun _ _ _ _ none => by cases none) found
  | succ links ih => exact leads_of_advance (fun _ _ _ _ chased => ih chased) found

theorem leads_of_find {disk : Disk} {follow : Bool} {path : Path} {place : Place}
    (found : disk.find follow path = .ok place) : Leads disk follow [] (steps path) place := by
  unfold find at found
  split at found
  · cases found
  · split at found
    · cases found
    · split at found
      · cases found
      · exact leads_of_walk found

theorem Leads.unique {disk : Disk} {follow : Bool} {directory : Location} {way : List Step}
    {first second : Place} (one : Leads disk follow directory way first)
    (other : Leads disk follow directory way second) : first = second := by
  induction one with
  | done =>
    cases other
    rfl
  | stay _ ih =>
    cases other with
    | stay other => exact ih other
  | up _ ih =>
    cases other with
    | up other => exact ih other
  | enter stands _ ih =>
    cases other with
    | enter _ other => exact ih other
    | chase link => rw [stands] at link; cases link
    | stop final => rw [stands] at final; exact final.elim
  | chase link goes _ ih =>
    cases other with
    | enter stands => rw [link] at stands; cases stands
    | chase same _ other =>
      rw [link] at same
      cases same
      exact ih other
    | stop final => rw [link] at final; simp [Final, goes] at final
  | stop final =>
    cases other with
    | enter stands => rw [stands] at final; exact final.elim
    | chase link goes => rw [link] at final; simp [Final, goes] at final
    | stop => rfl

/-- The names on the way are proper, and what is above the location is a directory. -/
structure Grounded (disk : Disk) (location : Location) : Prop where
  proper : ∀ name ∈ location, Proper name
  above : ∀ upper, upper <+: location → upper ≠ location → disk.entry? upper = some .directory

theorem Grounded.top (disk : Disk) : Grounded disk [] := by
  refine ⟨nofun, ?_⟩
  intro upper leads different
  exact (different (List.prefix_nil.mp leads)).elim

theorem Grounded.below {disk : Disk} {location : Location} (grounded : Grounded disk location)
    (stands : disk.entry? location = some .directory) {name : ByteString} (proper : Proper name) :
    Grounded disk (location ++ [name]) := by
  constructor
  · intro other member
    rcases List.mem_append.mp member with member | member
    · exact grounded.proper other member
    · exact List.mem_singleton.mp member ▸ proper
  · intro upper leads different
    rcases List.prefix_concat_iff.mp leads with same | leads
    · exact (different same).elim
    · by_cases same : upper = location
      · exact same ▸ stands
      · exact grounded.above upper leads same

theorem Grounded.dropLast {disk : Disk} {location : Location} (grounded : Grounded disk location)
    (stands : disk.entry? location = some .directory) :
    Grounded disk location.dropLast ∧ disk.entry? location.dropLast = some .directory := by
  have leads := List.dropLast_prefix location
  refine ⟨⟨fun name member => grounded.proper name (leads.subset member), ?_⟩, ?_⟩
  · intro upper above different
    refine grounded.above upper (above.trans leads) ?_
    rintro rfl
    exact different (above.eq_of_length_le leads.length_le)
  · by_cases same : location.dropLast = location
    · rw [same, stands]
    · exact grounded.above _ leads same

theorem proper_of_steps {path : Path} {name : ByteString} (member : .down name ∈ steps path) :
    Proper name := by
  have stepped : Step.down name ∈ path.segments.filterMap Step.ofSegment := by
    unfold steps at member
    split at member <;> simpa using member
  obtain ⟨segment, inside, leads⟩ := List.mem_filterMap.mp stepped
  unfold Step.ofSegment at leads
  split at leads
  · cases leads
  split at leads
  · cases leads
  split at leads
  · cases leads
  · rename_i nonempty noDot noParent
    cases leads
    exact ⟨nonempty, noDot, noParent, segments_slashless inside⟩

theorem Leads.grounded {disk : Disk} {follow : Bool} {directory : Location} {way : List Step}
    {place : Place} (leads : Leads disk follow directory way place)
    (proper : ∀ name, .down name ∈ way → Proper name) (grounded : Grounded disk directory)
    (stands : disk.entry? directory = some .directory) :
    Grounded disk place.location ∧ place.entry = disk.entry? place.location := by
  induction leads with
  | done => exact ⟨grounded, stands.symm⟩
  | stay _ ih => exact ih (fun name member => proper name (.tail _ member)) grounded stands
  | up _ ih =>
    have ⟨above, stays⟩ := grounded.dropLast stands
    exact ih (fun name member => proper name (.tail _ member)) above stays
  | enter below _ ih =>
    exact ih (fun name member => proper name (.tail _ member))
      (grounded.below stands (proper _ List.mem_cons_self)) below
  | @chase directory name target rest place link goes _ ih =>
    have names : ∀ name, .down name ∈ steps target ++ rest → Proper name := by
      intro name member
      rcases List.mem_append.mp member with member | member
      · exact proper_of_steps member
      · exact proper name (.tail _ member)
    by_cases absolute : target.isAbsolute
    · rw [if_pos absolute] at ih
      exact ih names (.top disk) rfl
    · rw [if_neg absolute] at ih
      exact ih names grounded stands
  | stop => exact ⟨grounded.below stands (proper _ List.mem_cons_self), rfl⟩

theorem find_grounded {disk : Disk} {follow : Bool} {path : Path} {place : Place}
    (found : disk.find follow path = .ok place) :
    Grounded disk place.location ∧ place.entry = disk.entry? place.location :=
  (leads_of_find found).grounded (fun _ => proper_of_steps) (.top disk) rfl

theorem Leads.append {disk : Disk} {directory middle : Location} {front back : List Step}
    {place : Place} (first : Leads disk true directory front ⟨middle, some .directory⟩)
    (second : Leads disk true middle back place) :
    Leads disk true directory (front ++ back) place := by
  generalize reached : (⟨middle, some .directory⟩ : Place) = stop at first
  induction first with
  | done =>
    cases reached
    exact second
  | stay _ ih => exact .stay (ih reached)
  | up _ ih => exact .up (ih reached)
  | enter stands _ ih => exact .enter stands (ih reached)
  | chase link _ _ ih =>
    refine .chase link (fun _ => rfl) ?_
    have onward := ih reached
    rwa [List.append_assoc] at onward
  | stop final =>
    rw [← (Place.mk.inj reached).2] at final
    exact final.elim

/-- A dot at the end makes no difference to what follows it. -/
theorem Leads.unstay {disk : Disk} {directory middle : Location} {front : List Step}
    (leads : Leads disk true directory (front ++ [.stay]) ⟨middle, some .directory⟩) :
    Leads disk true directory front ⟨middle, some .directory⟩ := by
  -- A link puts its own steps in front of the dot, so the induction is on the whole way.
  generalize split : front ++ [.stay] = way at leads
  generalize reached : (⟨middle, some .directory⟩ : Place) = place at leads
  induction leads generalizing front with
  | done => simp at split
  | stay leads ih =>
    cases front with
    | nil =>
      cases split
      subst reached
      exact leads
    | cons step front =>
      cases split
      exact .stay (ih rfl reached)
  | up _ ih =>
    cases front with
    | nil => cases split
    | cons step front =>
      cases split
      exact .up (ih rfl reached)
  | enter stands _ ih =>
    cases front with
    | nil => cases split
    | cons step front =>
      cases split
      exact .enter stands (ih rfl reached)
  | chase link _ _ ih =>
    cases front with
    | nil => cases split
    | cons step front =>
      cases split
      exact .chase link (fun _ => rfl) (ih (List.append_assoc ..) reached)
  | stop => cases front <;> simp at split

/-- What a path leads to without following a link at its end is found with following it too, unless
it is such a link. -/
theorem Leads.follows {disk : Disk} {directory : Location} {way : List Step} {place : Place}
    (leads : Leads disk false directory way place) (final : ∀ target, place.entry ≠ some (.link target)) :
    Leads disk true directory way place := by
  induction leads with
  | done => exact .done
  | stay _ ih => exact .stay (ih final)
  | up _ ih => exact .up (ih final)
  | enter stands _ ih => exact .enter stands (ih final)
  | chase link goes _ ih => exact .chase link (fun _ => rfl) (ih final)
  | @stop directory name ends =>
    refine .stop ?_
    cases stands : disk.entry? (directory ++ [name]) with
    | none => trivial
    | some entry =>
      cases entry with
      | directory => rwa [stands] at ends
      | link target => exact (final target stands).elim
      | file id mode content => trivial

theorem Grounded.entered {disk : Disk} {directory : Location} {name next : ByteString} {names : List ByteString}
    (grounded : Grounded disk (directory ++ name :: next :: names)) :
    disk.entry? (directory ++ [name]) = some .directory := by
  rw [List.append_cons] at grounded
  exact grounded.above _ (List.prefix_append _ _) (by simp)

/-- Names that stand below a directory lead down one after the other. -/
theorem leads_down {disk : Disk} {follow : Bool} {directory : Location} {names : List ByteString}
    (grounded : Grounded disk (directory ++ names)) (nonempty : names ≠ [])
    (final : Final follow (disk.entry? (directory ++ names))) :
    Leads disk follow directory (names.map .down)
      ⟨directory ++ names, disk.entry? (directory ++ names)⟩ := by
  induction names generalizing directory with
  | nil => exact (nonempty rfl).elim
  | cons name names ih =>
    cases names with
    | nil => exact .stop final
    | cons next names =>
      have entered := grounded.entered
      rw [List.append_cons] at grounded final ⊢
      exact .enter entered (ih grounded (List.cons_ne_nil _ _) final)

/-- The way down is found if no name on it is too long, and no link at its end is followed. -/
theorem advance_down {disk : Disk} {follow : Bool}
    {chase : Location → Path → List Step → Except IoError Place} (directory : Location)
    {names : List ByteString} (grounded : Grounded disk (directory ++ names)) (nonempty : names ≠ [])
    (ends : ∀ target, disk.entry? (directory ++ names) = some (.link target) → follow = false)
    (short : ∀ name ∈ names, name.bytes.length ≤ nameLimit) :
    disk.advance follow chase directory (names.map .down) =
      .ok ⟨directory ++ names, disk.entry? (directory ++ names)⟩ := by
  induction names generalizing directory with
  | nil => exact (nonempty rfl).elim
  | cons name names ih =>
    have fits : ¬ nameLimit < name.bytes.length := Nat.not_lt.mpr (short name List.mem_cons_self)
    cases names with
    | nil =>
      simp only [List.map_cons, List.map_nil, advance, if_neg fits]
      cases stands : disk.entry? (directory ++ [name]) with
      | none => rfl
      | some entry =>
        cases entry with
        | directory => rfl
        | link target =>
          cases ends target stands
          rfl
        | file id mode content => rfl
    | cons next names =>
      have entered := grounded.entered
      rw [List.append_cons] at grounded ends ⊢
      have onward := ih _ grounded (List.cons_ne_nil _ _) ends fun other member => short other (.tail _ member)
      rw [List.map_cons, advance]
      simp only [if_neg fits, entered]
      exact onward

/-- The way down is found only if no name on it is too long. -/
theorem short_of_advance {disk : Disk} {follow : Bool}
    {chase : Location → Path → List Step → Except IoError Place} (directory : Location)
    {names : List ByteString} {place : Place} (grounded : Grounded disk (directory ++ names))
    (found : disk.advance follow chase directory (names.map .down) = .ok place) :
    ∀ name ∈ names, name.bytes.length ≤ nameLimit := by
  induction names generalizing directory with
  | nil => exact nofun
  | cons name names ih =>
    rw [List.map_cons, advance] at found
    split at found
    · cases found
    · rename_i fits
      intro other member
      rcases List.mem_cons.mp member with rfl | member
      · exact Nat.not_lt.mp fits
      · obtain ⟨next, later, rfl⟩ := List.exists_cons_of_ne_nil (List.ne_nil_of_mem member)
        rw [grounded.entered] at found
        rw [List.append_cons] at grounded
        exact ih _ grounded found other member

/-- A location whose path the system takes: no name and no path is too long. -/
structure Fits (location : Location) : Prop where
  plain : 0 ∉ location.path.written.bytes
  path : location.path.written.bytes.length ≤ pathLimit
  names : ∀ name ∈ location, name.bytes.length ≤ nameLimit

def Legible (location : Location) : Prop := IsText location.path.written

instance (location : Location) : Decidable (Legible location) := inferInstanceAs (Decidable (IsText _))

theorem path_nonempty (location : Location) : location.path.written ≠ "" := by
  simp [Location.path]

theorem find_path {disk : Disk} (follow : Bool) {location : Location}
    (grounded : Grounded disk location) (nonempty : location ≠ [])
    (ends : ∀ target, disk.entry? location = some (.link target) → follow = false)
    (fits : Fits location) :
    disk.find follow location.path = .ok ⟨location, disk.entry? location⟩ := by
  rw [find, if_neg (path_nonempty location), if_neg (by simpa using fits.plain),
    if_neg (Nat.not_lt.mpr fits.path), steps_path nonempty grounded.proper]
  exact advance_down [] grounded nonempty ends fits.names

theorem fits_of_find {disk : Disk} {follow : Bool} {location : Location} {place : Place}
    (grounded : Grounded disk location) (nonempty : location ≠ [])
    (found : disk.find follow location.path = .ok place) : Fits location := by
  unfold find at found
  rw [if_neg (path_nonempty location)] at found
  split at found
  · cases found
  · split at found
    · cases found
    · rename_i plain short
      refine ⟨by simpa using plain, Nat.not_lt.mp short, ?_⟩
      rw [steps_path nonempty grounded.proper] at found
      exact short_of_advance [] grounded found

theorem inspect_ok {disk : Disk} {path : Path} {entry : Entry} :
    disk.inspect path = .ok entry ↔ ∃ location, disk.find true path = .ok ⟨location, some entry⟩ := by
  unfold inspect
  cases found : disk.find true path with
  | error cause => simp [bind, Except.bind]
  | ok place =>
    obtain ⟨location, stands⟩ := place
    cases stands <;>
      simp [bind, Except.bind, pure, Except.pure, throw, throwThe, MonadExceptOf.throw]

theorem readBytes_ok {disk : Disk} {path : Path} {content : ByteArray} :
    disk.readBytes path = .ok content ↔
      ∃ location id mode, disk.find true path = .ok ⟨location, some (.file id mode content)⟩ := by
  constructor
  · intro read
    unfold readBytes at read
    cases inspected : disk.inspect path with
    | error cause => rw [inspected] at read; cases read
    | ok entry =>
      obtain ⟨location, found⟩ := inspect_ok.mp inspected
      rw [inspected] at read
      cases entry with
      | directory => cases read
      | link target => cases read
      | file id mode held =>
        cases read
        exact ⟨location, id, mode, found⟩
  · rintro ⟨location, id, mode, found⟩
    rw [readBytes, inspect_ok.mpr ⟨location, found⟩]
    rfl

/-- A text is read where a path leads to a file with its bytes. -/
theorem readText_iff {disk : Disk} {path : Path} {text : String} :
    disk.readText path = .ok text ↔
      ∃ location id mode, disk.find true path = .ok ⟨location, some (.file id mode text.toUTF8)⟩ := by
  rw [← readBytes_ok]
  constructor
  · intro read
    unfold readText at read
    cases held : disk.readBytes path with
    | error cause => rw [held] at read; cases read
    | ok content =>
      simp only [held, bind, Except.bind] at read
      split at read
      · rename_i decoded
        cases read
        rw [fromUTF8?_eq_some.mp decoded]
      · cases read
  · intro held
    simp only [readText, held, bind, Except.bind, fromUTF8?_eq_some.mpr rfl]
    rfl

private theorem leads_base {disk : Disk} {base : Path} {top : Location}
    (reached : Leads disk true [] (steps base) ⟨top, some .directory⟩) :
    Leads disk true [] (base.segments.filterMap Step.ofSegment) ⟨top, some .directory⟩ := by
  unfold steps at reached
  split at reached
  · exact reached.unstay
  · rwa [List.append_nil] at reached

/-- A path below a base leads to the location below the one that the base leads to. -/
theorem leads_join {disk : Disk} {base path : Path} {top : Location} (clean : Clean path)
    (reached : Leads disk true [] (steps base) ⟨top, some .directory⟩)
    (grounded : Grounded disk (top ++ path.segments))
    (final : Final true (disk.entry? (top ++ path.segments))) :
    Leads disk true [] (steps (base.join path))
      ⟨top ++ path.segments, disk.entry? (top ++ path.segments)⟩ := by
  rw [steps_join base clean]
  exact (leads_base reached).append (leads_down grounded (segments_ne_nil path) final)

theorem leads_enter {disk : Disk} {base : Path} {top : Location} {name : ByteString} (proper : Proper name)
    (reached : Leads disk true [] (steps base) ⟨top, some .directory⟩)
    (stands : disk.entry? (top ++ [name]) = some .directory) :
    Leads disk true [] (steps (base.join ⟨name⟩)) ⟨top ++ [name], some .directory⟩ := by
  rw [steps_join base proper.clean, segments_proper proper]
  exact (leads_base reached).append (.enter stands .done)

/-- What following a path sees of an entry: not which file it is, nor what it holds. -/
def shape : Entry → Entry
  | .file _ _ _ => .file 0 0 ByteArray.empty
  | entry => entry

/-- Two trees with files, links and directories at the same locations. -/
def Alike (disk other : Disk) : Prop :=
  ∀ location, (disk.entry? location).map shape = (other.entry? location).map shape

theorem Alike.refl (disk : Disk) : Alike disk disk := fun _ => rfl

theorem Alike.trans {first second third : Disk} (one : Alike first second) (two : Alike second third) :
    Alike first third := fun location => (one location).trans (two location)

theorem shape_eq_directory {entry : Option Entry} :
    entry.map shape = some .directory ↔ entry = some .directory := by
  rcases entry with _ | _ | _ | _ <;> simp [shape]

private theorem shape_eq_link {entry : Option Entry} {target : Path} :
    entry.map shape = some (.link target) ↔ entry = some (.link target) := by
  rcases entry with _ | _ | _ | _ <;> simp [shape]

private theorem final_shape {follow : Bool} {entry : Option Entry} :
    Final follow (entry.map shape) ↔ Final follow entry := by
  rcases entry with _ | _ | _ | _ <;> rfl

variable {disk other : Disk} (alike : Alike disk other)
include alike

theorem Alike.directory {location : Location} (stands : disk.entry? location = some .directory) :
    other.entry? location = some .directory := by
  rw [← shape_eq_directory, ← alike location, stands]
  rfl

theorem Alike.vacant {location : Location} (vacant : disk.entry? location = none) :
    other.entry? location = none := by
  have same := alike location
  rw [vacant] at same
  exact Option.map_eq_none_iff.mp same.symm

theorem Leads.transfer {follow : Bool} {directory : Location} {way : List Step} {place : Place}
    (leads : Leads disk follow directory way place) :
    ∃ entry, entry.map shape = place.entry.map shape ∧
      Leads other follow directory way ⟨place.location, entry⟩ := by
  induction leads with
  | done => exact ⟨_, rfl, .done⟩
  | stay _ ih =>
    obtain ⟨entry, same, leads⟩ := ih
    exact ⟨entry, same, .stay leads⟩
  | up _ ih =>
    obtain ⟨entry, same, leads⟩ := ih
    exact ⟨entry, same, .up leads⟩
  | enter stands _ ih =>
    obtain ⟨entry, same, leads⟩ := ih
    exact ⟨entry, same, .enter (alike.directory stands) leads⟩
  | chase link goes _ ih =>
    obtain ⟨entry, same, leads⟩ := ih
    refine ⟨entry, same, .chase ?_ goes leads⟩
    rw [← shape_eq_link, ← alike, link]
    rfl
  | @stop directory name final =>
    refine ⟨other.entry? (directory ++ [name]), (alike _).symm, .stop ?_⟩
    rwa [← final_shape, ← alike, final_shape]

theorem Leads.transfer_directory {follow : Bool} {directory location : Location} {way : List Step}
    (leads : Leads disk follow directory way ⟨location, some .directory⟩) :
    Leads other follow directory way ⟨location, some .directory⟩ := by
  obtain ⟨entry, same, leads⟩ := leads.transfer alike
  rwa [shape_eq_directory.mp same] at leads

end StagedFormat.Proofs.DiskFollowing
