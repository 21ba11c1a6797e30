import StagedFormat.Proofs.TidiedTrees
import StagedFormat.Proofs.WorkspaceCells

/-! What becomes of one working file. It follows from the text that is read and from what stands in the way of
the temporary file; so it stays the same until the file itself gets new content. -/

namespace StagedFormat.Proofs.FileVerdicts
open StagedFormat Disk PathSegments DiskFollowing DiskReplacement DiskSkeleton PathPlaces PathSight FileWalk
  WorkspaceCells TidiedTrees

/-- A target's path leads to its file, and that is a source file and no temporary one. -/
structure Aims (extension : String) (disk : Disk) (path : Path) (home : Location) : Prop where
  leads : Leads disk true [] (steps path) ⟨home, disk.entry? home⟩
  stands : ∃ id mode content, disk.entry? home = some (.file id mode content)
  source : ∀ name, home.getLast? = some name → Path.extensionOf name = some ↑extension
  lasting : ∀ name, home.getLast? = some name → ¬ Temporary extension name

theorem Aims.tidied {extension : String} {disk next : Disk} {path : Path} {home : Location}
    (aims : Aims extension disk path home) (tidied : Tidied extension disk next) :
    Aims extension next path home := by
  obtain ⟨entry, leads⟩ := leads_framed tidied.framed aims.leads
  have held := (leads.grounded (fun _ => proper_of_steps) (.top next) rfl).2
  rw [show entry = next.entry? home from held] at leads
  exact ⟨leads, tidied.file aims.lasting aims.stands, aims.source, aims.lasting⟩

/-- Why the temporary file beside a location cannot be written, if it cannot. -/
def obstacle (disk : Disk) (home : Location) : Option IoError :=
  match disk.writeFile (beside home).path ByteArray.empty with
  | .error cause => some cause
  | .ok _ => none

/-- What becomes of a file, and the content that it gets if it gets any. -/
def judge (format : Formatter) (file : WorkingFile) (temporary : Path) :
    Except IoError String → Option IoError → Result × Option String
  | .error cause, _ => (Pipeline.ioFailure file.name (.io file.path cause), none)
  | .ok text, obstacle =>
    match format text, obstacle with
    | .rejected error, _ => (Pipeline.formatFailure file.name error.message .format, none)
    | .crashed message, _ => (Pipeline.formatFailure file.name message .crash, none)
    | .text formatted, obstacle =>
      if formatted = text then (.alreadyFormatted file.name, none)
      else
        match obstacle with
        | some cause => (Pipeline.ioFailure file.name (.io temporary cause), none)
        | none => (.formatted file.name, some formatted)

def verdict (format : Formatter) (disk : Disk) (file : WorkingFile) (home : Location) : Result × Option String :=
  judge format file (beside home).path (disk.readText file.path) (obstacle disk home)

/-- The text of a file is not the one that the formatter makes of it. -/
def Due (format : Formatter) (disk : Disk) (path : Path) : Prop :=
  ∃ text formatted, disk.readText path = .ok text ∧ format text = .text formatted ∧ formatted ≠ text

/-- A file got new content, and the temporary file is not there any more. -/
structure Put (disk : Disk) (home : Location) (content : ByteArray) (next : Disk) : Prop where
  file : ∃ id mode, next.entry? home = some (.file id mode content)
  covered : passage disk (beside home) = none
  gone : next.entry? (beside home) = none
  others : ∀ other, other ≠ home → other ≠ beside home → next.entry? other = disk.entry? other

theorem Aims.temporary {extension : String} {disk : Disk} {path : Path} {home : Location}
    (aims : Aims extension disk path home) :
    ∃ name, (beside home).getLast? = some name ∧ Temporary extension name := by
  obtain ⟨_, _, _, stands⟩ := aims.stands
  obtain ⟨front, name, rfl⟩ := (List.eq_nil_or_concat home).resolve_left (nonempty_of_file stands)
  rw [List.concat_eq_append] at aims ⊢
  rw [beside_concat]
  exact ⟨_, List.getLast?_concat, temporary_of_extensionOf (aims.source name List.getLast?_concat)⟩

theorem Aims.aside {extension : String} {disk : Disk} {one other : Path} {here there : Location}
    (kept : Aims extension disk one here) (written : Aims extension disk other there) : here ≠ beside there := by
  rintro rfl
  obtain ⟨name, last, temporary⟩ := written.temporary
  exact kept.lasting name last temporary

theorem Put.tidied {extension : String} {disk next : Disk} {path : Path} {home : Location} {content : ByteArray}
    (put : Put disk home content next) (aims : Aims extension disk path home) : Tidied extension disk next := by
  intro location
  by_cases own : location = home
  · obtain ⟨_, _, _, stood⟩ := aims.stands
    obtain ⟨_, _, held⟩ := put.file
    refine .alike ?_
    rw [own, stood, held]
    rfl
  · by_cases aside : location = beside home
    · obtain ⟨name, last, temporary⟩ := aims.temporary
      rw [aside]
      exact .gone last temporary put.covered put.gone
    · exact .alike (congrArg _ (put.others location own aside))

/-- The temporary file can be written whatever its content is, or never. -/
theorem writeFile_either {disk : Disk} {location : Location} (lands : Grounded disk location)
    (nonempty : location ≠ []) (free : LinkFree disk) :
    (∃ cause, ∀ content, disk.writeFile location.path content = .error cause) ∨
    Fits location ∧ passage disk location = none ∧ ∃ id mode fresh, ∀ content,
      disk.writeFile location.path content =
        .ok { disk.set location (.file id mode content) with fresh } := by
  simp only [writeFile, findForCreation_path lands nonempty]
  cases found : disk.find true location.path with
  | error cause => exact .inl ⟨cause, fun _ => rfl⟩
  | ok place =>
    have same := location_of_find lands nonempty (free location) found
    have held := (find_grounded found).2
    have fits := fits_of_find lands nonempty found
    obtain ⟨place, entry⟩ := place
    cases same
    rcases entry with _ | _ | target | ⟨id, mode, old⟩
    · refine .inr ⟨fits, passage_eq_none.mpr ?_, disk.fresh, plainMode, disk.fresh + 1, fun _ => rfl⟩
      rw [← held]
      rintro _ ⟨⟩
    · exact .inl ⟨.isDirectory, fun _ => rfl⟩
    · exact (free _ _ held.symm).elim
    · refine .inr ⟨fits, passage_eq_none.mpr ?_, id, mode, disk.fresh, fun _ => rfl⟩
      rw [← held]
      rintro _ ⟨⟩
      rfl

section
variable {disk : Disk} {home : Location} {id mode : Nat} {old : ByteArray} (grounded : Grounded disk home)
  (stands : disk.entry? home = some (.file id mode old))
include grounded stands

private theorem isTree_moved {own kept : Nat} {content : ByteArray} {filling : Disk} (treed : IsTree filling)
    (noDirectory : disk.entry? (beside home) ≠ some .directory)
    (filled : filling.entry? (beside home) = some (.file own kept content))
    (written : ∀ other, other ≠ beside home → filling.entry? other = disk.entry? other) :
    IsTree (moved filling home own mode content) := by
  have nonempty := nonempty_of_file stands
  have aside := beside_ne_nil home
  have lands := Grounded.set (Grounded.beside grounded nonempty) noDirectory written
  have adjusted : IsTree (filling.set (beside home) (.file own mode content)) :=
    IsTree.set treed lands aside (by rw [filled]; simp)
  have cleared := IsTree.erase adjusted aside (by rw [entry?_set _ aside, if_pos rfl]; simp)
  have kept : ∀ other, other ≠ beside home → Disk.entry?
      ((filling.set (beside home) (.file own mode content)).erase (beside home)) other = disk.entry? other := by
    intro other different
    rw [entry?_erase _ aside, if_neg different, entry?_set _ aside, if_neg different, written other different]
  apply IsTree.set cleared (Grounded.set grounded noDirectory kept) nonempty
  rw [kept home (Ne.symm (beside_ne home)), stands]
  simp

variable (tree : IsTree disk)
include tree

private theorem settle_puts (fits : Fits (beside home)) (covered : passage disk (beside home) = none)
    (own kept fresh : Nat) (content : ByteArray) :
    ∃ next, WorkingFile.settle { disk.set (beside home) (.file own kept content) with fresh } (some mode)
        (beside home).path home.path = (.ok (), next) ∧ Put disk home content next ∧ IsTree next := by
  have nonempty := nonempty_of_file stands
  have aside := beside_ne_nil home
  have noDirectory : disk.entry? (beside home) ≠ some .directory := by
    intro directory
    cases passage_eq_none.mp covered _ directory
  have written : ∀ other, other ≠ beside home → Disk.entry? { disk.set (beside home) (.file own kept content)
      with fresh } other = disk.entry? other := by
    intro other different
    exact (entry?_set other aside).trans (if_neg different)
  have filled : Disk.entry? { disk.set (beside home) (.file own kept content) with fresh } (beside home) =
      some (.file own kept content) := (entry?_set _ aside).trans (if_pos rfl)
  have treed : IsTree { disk.set (beside home) (.file own kept content) with fresh } :=
    IsTree.fresh (IsTree.set tree (Grounded.beside grounded nonempty) aside noDirectory)
  refine ⟨_, settle_moves grounded fits stands noDirectory filled written, ⟨⟨own, mode, ?_⟩, covered, ?_, ?_⟩,
    isTree_moved grounded stands treed noDirectory filled written⟩
  · rw [entry?_moved nonempty, if_pos rfl]
  · rw [entry?_moved nonempty, if_neg (beside_ne home), if_pos rfl]
  · intro other away aslant
    rw [entry?_moved nonempty, if_neg away, if_neg aslant]
    exact written other aslant

/-- Writing a file fails for what stands in the way of the temporary file, or it gets its new content. -/
theorem write_puts (free : LinkFree disk) (legible : Legible home) (file : WorkingFile)
    (found : disk.find true file.path = .ok ⟨home, some (.file id mode old)⟩) (content : String) :
    (∃ cause, obstacle disk home = some cause ∧
      file.write disk content = (.error (.io (beside home).path cause), disk)) ∨
    obstacle disk home = none ∧ ∃ next, file.write disk content = (.ok (), next) ∧
      Put disk home content.toUTF8 next ∧ IsTree next := by
  have nonempty := nonempty_of_file stands
  have destination : WorkingFile.destination disk file.path = home.path := destination_of_find found
  simp only [WorkingFile.write, destination, temporary_path nonempty legible]
  rcases writeFile_either (Grounded.beside grounded nonempty) (beside_ne_nil home) free with
    ⟨cause, refused⟩ | ⟨fits, covered, own, kept, fresh, written⟩
  · exact .inl ⟨cause, by rw [obstacle, refused], by rw [refused]⟩
  · rw [written, modeAt_file grounded (Fits.of_beside fits nonempty) stands]
    exact .inr ⟨by rw [obstacle, written], settle_puts grounded stands tree fits covered own kept fresh _⟩

end

section
variable {extension : String} {format : Formatter} {workspace : Workspace} {file : WorkingFile} {home : Location}

theorem Aims.place {disk : Disk} {path : Path} {place : Place} (aims : Aims extension disk path home)
    (found : disk.find true path = .ok place) : place = ⟨home, disk.entry? home⟩ :=
  (leads_of_find found).unique aims.leads

private theorem formatFile_unread {cause : IoError} (read : workspace.disk.readText file.path = .error cause) :
    Pipeline.formatTarget format false workspace (.file file) =
      ({ result := .ok (Pipeline.ioFailure file.name (.io file.path cause)), characters := 0 }, workspace) := by
  have failed : file.read workspace.disk = .error (.io file.path cause) := by
    rw [WorkingFile.read, read]
    rfl
  simp only [Pipeline.formatTarget, Target.read, failed]
  rfl

private theorem formatFile_read {text : String} (read : workspace.disk.readText file.path = .ok text) :
    Pipeline.formatTarget format false workspace (.file file) =
      ({ result := (Pipeline.settle format false workspace (.file file) text).1, characters := text.length },
        (Pipeline.settle format false workspace (.file file) text).2) := by
  have whole : file.read workspace.disk = .ok text := by
    rw [WorkingFile.read, read]
    rfl
  simp only [Pipeline.formatTarget, Target.read, whole]

private theorem writeBack_puts (grounded : Grounded workspace.disk home) (tree : IsTree workspace.disk)
    (free : LinkFree workspace.disk) (legible : Legible home) {id mode : Nat} {old : ByteArray}
    (found : workspace.disk.find true file.path = .ok ⟨home, some (.file id mode old)⟩) (content : String) :
    (∃ cause, obstacle workspace.disk home = some cause ∧
      Pipeline.writeBack workspace (.file file) content =
        (.ok (Pipeline.ioFailure file.name (.io (beside home).path cause)), workspace)) ∨
    obstacle workspace.disk home = none ∧ ∃ next, Pipeline.writeBack workspace (.file file) content =
        (.ok (.formatted file.name), { workspace with disk := next }) ∧
      Put workspace.disk home content.toUTF8 next ∧ IsTree next := by
  rcases write_puts grounded (find_grounded found).2.symm tree free legible file found content with
    ⟨cause, blocked, failed⟩ | ⟨clear, next, written, put, tree'⟩
  · refine .inl ⟨cause, blocked, ?_⟩
    simp only [Pipeline.writeBack, Target.write, Target.writeFile, failed]
    rfl
  · refine .inr ⟨clear, next, ?_, put, tree'⟩
    simp only [Pipeline.writeBack, Target.write, Target.writeFile, written]
    rfl

/-- A target ends as its verdict says, and only its new content is written. -/
theorem formatTarget_verdict (aims : Aims extension workspace.disk file.path home) (tree : IsTree workspace.disk)
    (free : LinkFree workspace.disk) (legible : Due format workspace.disk file.path → Legible home) :
    (Pipeline.formatTarget format false workspace (.file file)).1.result =
        .ok (verdict format workspace.disk file home).1 ∧
      match (verdict format workspace.disk file home).2 with
      | none => (Pipeline.formatTarget format false workspace (.file file)).2 = workspace
      | some content => ∃ next, (Pipeline.formatTarget format false workspace (.file file)).2 =
          { workspace with disk := next } ∧ Put workspace.disk home content.toUTF8 next ∧ IsTree next := by
  unfold verdict
  cases read : workspace.disk.readText file.path with
  | error cause =>
    rw [formatFile_unread read]
    exact ⟨rfl, rfl⟩
  | ok text =>
    rw [formatFile_read read]
    dsimp only [judge, Pipeline.settle]
    cases made : format text with
    | rejected error => exact ⟨rfl, rfl⟩
    | crashed message => exact ⟨rfl, rfl⟩
    | text formatted =>
      dsimp only
      by_cases same : formatted = text
      · rw [if_pos same, if_pos same]
        exact ⟨rfl, rfl⟩
      · rw [if_neg same, if_neg same, if_neg Bool.false_ne_true]
        obtain ⟨location, id, mode, found⟩ := readText_iff.mp read
        obtain rfl : location = home := congrArg Place.location (aims.place found)
        have shown := legible ⟨text, formatted, read, made, same⟩
        rcases @writeBack_puts workspace file location (find_grounded found).1 tree free shown _ _ _ found
            formatted with
          ⟨cause, blocked, failed⟩ | ⟨clear, next, written, put, tree'⟩
        · rw [blocked, failed]
          exact ⟨rfl, rfl⟩
        · rw [clear, written]
          exact ⟨rfl, next, rfl, put, tree'⟩

end

/-! A verdict holds on until the file gets new content, and then it is that of a formatted file. -/

/-- What a result is the next time. -/
def again : Result → Result
  | .formatted name => .alreadyFormatted name
  | result => result

theorem again_calm {result : Result} (calm : result.isChange = false) : again result = result := by
  cases result with
  | formatted name => cases calm
  | _ => rfl

/-- Nothing is written for a target, and this is what becomes of it. -/
structure Rests (extension : String) (format : Formatter) (disk : Disk) (file : WorkingFile) (home : Location)
    (result : Result) : Prop where
  aims : Aims extension disk file.path home
  legible : Due format disk file.path → Legible home
  verdict : verdict format disk file home = (result, none)

private theorem judge_content (format : Formatter) (one other : WorkingFile) (temporary temporary' : Path)
    (read : Except IoError String) (obstacle : Option IoError) :
    (judge format one temporary read obstacle).2 = (judge format other temporary' read obstacle).2 := by
  cases read with
  | error cause => rfl
  | ok text =>
    simp only [judge]
    cases format text with
    | rejected error => rfl
    | crashed message => rfl
    | text formatted =>
      dsimp only
      split
      · rfl
      · cases obstacle <;> rfl

/-- Either nothing is written, and the result is no change, or the file gets its formatted text. -/
theorem judge_cases (format : Formatter) (file : WorkingFile) (temporary : Path) (read : Except IoError String)
    (obstacle : Option IoError) :
    (∃ result, judge format file temporary read obstacle = (result, none) ∧ result.isChange = false) ∨
    ∃ text content, read = .ok text ∧ format text = .text content ∧
      judge format file temporary read obstacle = (.formatted file.name, some content) := by
  cases read with
  | error cause => exact .inl ⟨_, rfl, rfl⟩
  | ok text =>
    simp only [judge]
    cases made : format text with
    | rejected error => exact .inl ⟨_, rfl, rfl⟩
    | crashed message => exact .inl ⟨_, rfl, rfl⟩
    | text formatted =>
      dsimp only
      split
      · exact .inl ⟨_, rfl, rfl⟩
      · cases obstacle with
        | some cause => exact .inl ⟨_, rfl, rfl⟩
        | none => exact .inr ⟨text, formatted, rfl, made, rfl⟩

section
variable {format : Formatter} {file : WorkingFile} {temporary : Path} {read : Except IoError String}
  {obstacle : Option IoError} {result : Result}

private theorem judge_writes {content : String}
    (judged : judge format file temporary read obstacle = (result, some content)) :
    result = .formatted file.name ∧ ∃ text, read = .ok text ∧ format text = .text content := by
  rcases judge_cases format file temporary read obstacle with ⟨_, same, _⟩ | ⟨text, _, reads, made, same⟩
  · rw [judged] at same
    cases same
  · rw [judged] at same
    cases same
    exact ⟨rfl, text, reads, made⟩

theorem calm_of_judge (judged : judge format file temporary read obstacle = (result, none)) :
    result.isChange = false := by
  rcases judge_cases format file temporary read obstacle with ⟨_, same, calm⟩ | ⟨_, _, _, _, same⟩
  · rw [judged] at same
    cases same
    exact calm
  · rw [judged] at same
    cases same

end

private theorem readText_of_find {disk other : Disk} {path path' : Path}
    (same : disk.find true path = other.find true path') : disk.readText path = other.readText path' := by
  unfold readText readBytes inspect
  rw [same]

section
variable {extension : String} {disk next : Disk} (free : LinkFree disk) (tidied : Tidied extension disk next)
include free tidied

private theorem readText_kept {path : Path} {home : Location} (aims : Aims extension disk path home)
    (same : ∀ place, disk.find true path = .ok place → next.entry? home = disk.entry? home) :
    next.readText path = disk.readText path := by
  obtain ⟨_, _, _, stood⟩ := aims.stands
  obtain ⟨_, _, _, stands⟩ := tidied.file aims.lasting aims.stands
  refine (shown_together (fun seen looks => ?_) fun location id mode content found => ?_).1.symm
  · rcases looks_of_leads free aims.leads looks with directory | rfl
    · rw [AlikeAt, directory, tidied.framed.passes rfl directory]
    · rw [AlikeAt, stood, stands]
      rfl
  · obtain rfl : location = home := congrArg Place.location (aims.place found)
    rw [EqualAt, same _ found]

private theorem obstacle_kept {home : Location} (grounded : Grounded disk home) (nonempty : home ≠ [])
    (same : next.entry? (beside home) = disk.entry? (beside home)) : obstacle next home = obstacle disk home := by
  have here := Grounded.beside grounded nonempty
  have there := grounded_framed tidied.framed here
  have alike : ∀ seen, seen <+: beside home → AlikeAt disk next seen := by
    intro seen above
    by_cases whole : seen = beside home
    · rw [whole, AlikeAt, same]
    · have directory := here.above seen above whole
      rw [AlikeAt, directory, tidied.framed.passes rfl directory]
  have equal : EqualAt disk next (beside home) := by rw [EqualAt, same]
  rcases writeFile_together here there (beside_ne_nil home) (free _) alike equal ByteArray.empty with
    ⟨cause, one, two⟩ | ⟨_, _, _, one, two, _⟩
  · rw [obstacle, obstacle, one, two]
  · rw [obstacle, obstacle, one, two]

end

section
variable {extension : String} {format : Formatter} {disk next : Disk} {file : WorkingFile} {home : Location}
  {result : Result} {content : String} (aims : Aims extension disk file.path home)
  (writes : verdict format disk file home = (result, some content)) (put : Put disk home content.toUTF8 next)
include aims writes put

section
variable (idempotent : ∀ source text, format source = .text text → format text = .text text)
include idempotent

/-- Formatting changes no more files than before; not the one that was formatted, whatever path leads to it. -/
theorem due_before (free : LinkFree disk) {other : Path} {place : Location} (aimed : Aims extension disk other place)
    (due : Due format next other) : Due format disk other := by
  have tidied := put.tidied aims
  obtain ⟨text, formatted, read, made, different⟩ := due
  by_cases own : place = home
  · subst own
    obtain ⟨location, _, _, found⟩ := readText_iff.mp read
    obtain rfl : location = place := congrArg Place.location ((aimed.tidied tidied).place found)
    obtain ⟨_, _, held⟩ := put.file
    have same := (find_grounded found).2.trans held
    simp only [Option.some.injEq, Entry.file.injEq] at same
    obtain rfl : text = content := String.toByteArray_inj.mp same.2.2
    obtain ⟨_, _, _, written⟩ := judge_writes writes
    rw [idempotent _ _ written] at made
    exact (different (Verdict.text.inj made).symm).elim
  · have reads := readText_kept free tidied aimed fun _ _ => put.others place own (aimed.aside aims)
    exact ⟨text, formatted, reads.symm.trans read, made, different⟩

/-- What was formatted is found formatted. -/
theorem rests_written : Rests extension format next file home (again result) := by
  obtain ⟨rfl, text, read, made⟩ := judge_writes writes
  have tidied := put.tidied aims
  have settled := idempotent _ _ made
  have reads : next.readText file.path = .ok content := by
    obtain ⟨location, _, _, found⟩ := readText_iff.mp read
    have after := find_framed tidied.framed found
    obtain rfl : location = home := congrArg Place.location (aims.place found)
    obtain ⟨id, mode, held⟩ := put.file
    rw [held] at after
    exact readText_iff.mpr ⟨_, _, _, after⟩
  refine ⟨aims.tidied tidied, ?_, ?_⟩
  · rintro ⟨_, _, again, formatted, different⟩
    cases reads.symm.trans again
    exact (different (Verdict.text.inj (settled.symm.trans formatted)).symm).elim
  · simp only [FileVerdicts.verdict, reads, judge, settled, if_true]
    rfl

/-- What becomes of another file, or of the same one by another path, is settled still. -/
theorem rests_kept (free : LinkFree disk) {other : WorkingFile} {place : Location} {outcome : Result}
    (rests : Rests extension format disk other place outcome) : Rests extension format next other place outcome := by
  have tidied := put.tidied aims
  refine ⟨rests.aims.tidied tidied,
    fun due => rests.legible (due_before aims writes put idempotent free rests.aims due), ?_⟩
  obtain ⟨_, text, read, _⟩ := judge_writes writes
  by_cases own : place = home
  · subst own
    cases found : disk.find true other.path with
    | error cause =>
      -- A path that is too long stays so, whatever the file holds.
      have failed : disk.readText other.path = .error cause := by
        simp only [readText, readBytes, inspect, found, bind, Except.bind]
      have still := readText_kept free tidied rests.aims fun reached led => by
        rw [found] at led
        cases led
      have before := rests.verdict
      rw [FileVerdicts.verdict, failed, judge] at before
      rw [FileVerdicts.verdict, still, failed, judge]
      exact before
    | ok reached =>
      obtain ⟨_, _, _, led⟩ := readText_iff.mp read
      have together : disk.readText other.path = disk.readText file.path :=
        readText_of_find (found.trans (by rw [rests.aims.place found, led, aims.place led]))
      have contents := judge_content format other file (beside place).path (beside place).path
        (disk.readText file.path) (obstacle disk place)
      have none := congrArg Prod.snd rests.verdict
      have some := congrArg Prod.snd writes
      rw [FileVerdicts.verdict, together, contents] at none
      cases none.symm.trans some
  · obtain ⟨_, _, _, stood⟩ := rests.aims.stands
    obtain ⟨_, _, _, stands⟩ := aims.stands
    have nonempty := nonempty_of_file stood
    have reads := readText_kept free tidied rests.aims fun _ _ => put.others place own (rests.aims.aside aims)
    have blocks : obstacle next place = obstacle disk place := by
      refine obstacle_kept free tidied ?_ nonempty (put.others _ (Ne.symm (aims.aside rests.aims)) ?_)
      · exact (rests.aims.leads.grounded (fun _ => proper_of_steps) (.top disk) rfl).1
      · exact fun same => own (beside_injective nonempty (nonempty_of_file stands) same)
    rw [FileVerdicts.verdict, reads, blocks]
    exact rests.verdict

end

end

end StagedFormat.Proofs.FileVerdicts
