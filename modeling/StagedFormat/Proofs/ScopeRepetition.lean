import StagedFormat.Proofs.PathNormalForm
import StagedFormat.Proofs.ScopeOverlap
import StagedFormat.Proofs.TidiedTrees

/-! The scope of a working directory once more, over the tree that a run has left. It is the same scope: no
source file came or went, and no directory is build output that was none before, or the other way round. -/

namespace StagedFormat.Proofs.ScopeRepetition
open StagedFormat Disk ByteTexts PathSegments DiskFollowing DiskSkeleton PathPlaces PathOrder FileWalk PathNormalForm
  ScopeOverlap TidiedTrees

private theorem last_segment_join (base path : Path) :
    (base.join path).segments.getLast? = path.segments.getLast? := by
  have ends (front : List ByteString) : (front ++ path.segments).getLast? = path.segments.getLast? := by
    rw [List.getLast?_append]
    cases last : path.segments.getLast? with
    | none => exact (segments_ne_nil path (List.getLast?_eq_none_iff.mp last)).elim
    | some => rfl
  unfold Path.join
  split
  · rfl
  · split
    · rename_i bare
      rcases bare with empty | slash
      · rw [empty, ByteString.empty_append]
      · obtain ⟨front, shape⟩ := List.getLast?_eq_some_iff.mp slash
        have whole : base.written ++ path.written = ByteString.mk front ++ "/" ++ path.written := by
          simp [← ByteString.bytes_inj, shape]
        rw [whole, segments_append_slash]
        exact ends _
    · rw [segments_append_slash]
      exact ends _

private theorem temporary_of_segment {extension : String} {path : Path} {last : ByteString}
    (ends : path.segments.getLast? = some last) (temporary : Temporary extension last) :
    Temporary extension path.written := by
  obtain ⟨front, parts⟩ := List.getLast?_eq_some_iff.mp ends
  refine temporary.trans ?_
  rw [written_of_segments, parts]
  by_cases alone : front = []
  · rw [alone, List.nil_append, joined_singleton]
  · rw [joined_append alone (by simp), joined_singleton, ByteString.bytes_append]
    exact List.suffix_append _ _

/-- The name of a temporary file has another extension than the name of a source file. -/
theorem extensionOf_temporary {extension : String} {name : ByteString} (temporary : Temporary extension name) :
    Path.extensionOf name = some (ByteString.ofText "tmp") := by
  obtain ⟨front, whole⟩ := temporary
  have backwards : name.bytes.reverse = (ByteString.ofText ".stagefmt.tmp").bytes.reverse ++
      (front ++ (ByteString.ofText ("." ++ extension)).bytes).reverse := by
    rw [← whole, mark, ofText_append, ByteString.bytes_append, ← List.reverse_append, List.append_assoc]
  have reversed : (ByteString.ofText ".stagefmt.tmp").bytes.reverse =
      (ByteString.ofText "tmp").bytes.reverse ++ Path.dot :: (ByteString.ofText ".stagefmt").bytes.reverse := by decide
  have short : (ByteString.ofText ".stagefmt").bytes.reverse =
      0x74 :: (ByteString.ofText ".stagefm").bytes.reverse := by
    decide
  have plain : ∀ byte ∈ (ByteString.ofText "tmp").bytes.reverse, (byte != Path.dot) = true :=
    List.all_eq_true.mp (by decide)
  rw [reversed, short, List.append_assoc, List.cons_append, List.cons_append] at backwards
  simp only [Path.extensionOf, backwards, List.dropWhile_append_of_pos plain, List.takeWhile_append_of_pos plain]
  simp

private theorem last_of_leads {disk : Disk} (free : LinkFree disk) {follow : Bool} {directory : Location}
    {way : List Step} {place : Place} (leads : Leads disk follow directory way place)
    (plain : place.entry ≠ some .directory) :
    ∃ name, way.getLast? = some (.down name) ∧ place.location.getLast? = some name := by
  have behind (step : Step) {rest : List Step} {name : ByteString} (last : rest.getLast? = some (.down name)) :
      (step :: rest).getLast? = some (.down name) := by
    rw [List.getLast?_cons, last]
    rfl
  induction leads with
  | done => exact (plain rfl).elim
  | stay _ ih | up _ ih | enter _ _ ih =>
    obtain ⟨name, last, named⟩ := ih plain
    exact ⟨name, behind _ last, named⟩
  | chase link => exact (free _ _ link).elim
  | @stop _ name => exact ⟨name, rfl, List.getLast?_concat⟩

private theorem last_segment {path : Path} {name : ByteString} (last : (steps path).getLast? = some (.down name)) :
    path.segments.getLast? = some name := by
  have slashless : path.written.bytes.getLast? ≠ some Path.slash := by
    intro slash
    rw [steps, if_pos slash, List.getLast?_concat] at last
    cases last
  rw [steps, if_neg slashless, List.append_nil] at last
  obtain ⟨front, final, parts⟩ := (List.eq_nil_or_concat path.segments).resolve_left (segments_ne_nil path)
  rw [List.concat_eq_append] at parts
  rw [parts, List.getLast?_concat]
  have inner : final ≠ "" := by
    rintro rfl
    by_cases alone : front = []
    · rw [parts, alone] at last
      cases last
    · refine slashless ?_
      rw [written_of_segments, parts, joined_append alone (by simp), joined_singleton]
      simp
  obtain ⟨step, made, own⟩ : ∃ step, Step.ofSegment final = some step ∧ (step = .down name → final = name) := by
    rw [Step.ofSegment, if_neg inner]
    split
    · exact ⟨.stay, rfl, fun same => by cases same⟩
    split
    · exact ⟨.up, rfl, fun same => by cases same⟩
    · exact ⟨_, rfl, Step.down.inj⟩
  rw [parts, List.filterMap_append, List.filterMap_cons_some made, List.filterMap_nil, List.getLast?_concat] at last
  rw [own (Option.some.inj last)]

private theorem fileName_of_segment {path : Path} {name : ByteString} (last : path.segments.getLast? = some name)
    (proper : Proper name) : path.fileName = some name := by
  obtain ⟨front, parts⟩ := List.getLast?_eq_some_iff.mp last
  have named : Path.Component.ofSegment name = some (.name name) := by
    rw [Path.Component.ofSegment, proper_not_idle proper, if_neg Bool.false_ne_true, if_neg proper.2.2.1]
  have body : path.segments.filterMap Path.Component.ofSegment =
      front.filterMap Path.Component.ofSegment ++ [.name name] := by
    rw [parts, List.filterMap_append, List.filterMap_cons_some named, List.filterMap_nil]
  have ends (lead : List Path.Component) :
      (lead ++ (front.filterMap Path.Component.ofSegment ++ [Path.Component.name name])).getLast? =
        some (.name name) := by
    rw [← List.append_assoc, List.getLast?_concat]
  have final : path.components.getLast? = some (.name name) := by
    unfold Path.components
    rw [body]
    split
    · exact ends [.top]
    · split
      · exact ends [.current]
      · exact ends []
  rw [Path.fileName, final]

private theorem extensionOf_source {settings : Settings} {path : Path} (source : settings.isSourceFile path = true)
    {name : ByteString} (last : path.segments.getLast? = some name) (proper : Proper name) :
    Path.extensionOf name = some ↑settings.extension := by
  rw [Settings.isSourceFile, Path.extension, fileName_of_segment last proper, beq_iff_eq] at source
  exact source

/-- A file with the extension of source files is no temporary one. -/
theorem lasting_of_source {extension : String} {name : ByteString} (plain : extension ≠ "tmp")
    (source : Path.extensionOf name = some ↑extension) : ¬ Temporary extension name := fun temporary =>
  plain (ByteString.ofText_inj.mp (Option.some.inj (source.symm.trans (extensionOf_temporary temporary))))

private theorem isFile_iff {disk : Disk} {path : Path} : disk.isFile path = true ↔
    ∃ location id mode content, disk.find true path = .ok ⟨location, some (.file id mode content)⟩ := by
  unfold isFile
  constructor
  · intro file
    split at file
    · rename_i entry inspected
      obtain ⟨location, found⟩ := inspect_ok.mp inspected
      cases entry with
      | directory => cases file
      | link target => cases file
      | file id mode content => exact ⟨location, id, mode, content, found⟩
    · cases file
  · rintro ⟨location, id, mode, content, found⟩
    rw [inspect_ok.mpr ⟨location, found⟩]
    rfl

section
variable {extension : String} {disk next : Disk} (tidied : Tidied extension disk next) (free : LinkFree disk)
include tidied free

/-- What leads to a file still does, unless it names a temporary one. -/
theorem isFile_tidied {path : Path}
    (lasting : ∀ name, path.segments.getLast? = some name → ¬ Temporary extension name) :
    next.isFile path = disk.isFile path := by
  rw [Bool.eq_iff_iff, isFile_iff, isFile_iff]
  constructor
  · rintro ⟨location, id, mode, content, found⟩
    have before := find_framed tidied.framed.symm found
    obtain ⟨_, _, _, stood⟩ := tidied.file_before ⟨_, _, _, (find_grounded found).2.symm⟩
    rw [stood] at before
    exact ⟨location, _, _, _, before⟩
  · rintro ⟨location, id, mode, content, found⟩
    have after := find_framed tidied.framed found
    obtain ⟨name, last, named⟩ := last_of_leads free (leads_of_find found) (by simp)
    obtain ⟨_, _, _, stands⟩ := tidied.file (fun other same => by
      rw [named] at same
      cases same
      exact lasting name (last_segment last)) ⟨_, _, _, (find_grounded found).2.symm⟩
    rw [stands] at after
    exact ⟨location, _, _, _, after⟩

private theorem isBuildOutput_tidied {settings : Settings}
    (steady : ∀ descriptor ∈ settings.buildDescriptors, ¬ Temporary extension descriptor) :
    settings.isBuildOutput next = settings.isBuildOutput disk := by
  funext directory
  unfold Settings.isBuildOutput
  cases directory.parent? with
  | none => rfl
  | some above =>
    have same : (settings.buildDescriptors.any fun name => next.isFile (above.join ⟨name⟩)) =
        settings.buildDescriptors.any fun name => disk.isFile (above.join ⟨name⟩) := by
      rw [Bool.eq_iff_iff, List.any_eq_true, List.any_eq_true]
      refine exists_congr fun name => and_congr_right fun member => ?_
      rw [isFile_tidied tidied free]
      intro last ends
      rw [last_segment_join] at ends
      exact fun temporary => steady name member (temporary_of_segment ends temporary)
    simp only [same]

end

section
variable {resolver : Resolver} {disk : Disk} (tree : IsTree disk) {argument path : Path} {file : Location}
  (yields : Yields resolver disk argument path file)
include tree yields

theorem Yields.last (free : LinkFree disk) :
    ∃ name, file.getLast? = some name ∧ path.segments.getLast? = some name ∧ Proper name := by
  obtain ⟨id, mode, content, stands⟩ := yields.stands
  have proper := (tree.grounded stands).proper
  obtain ⟨start, names, placed, walked, rfl, rfl⟩ := yields.walked
  rcases List.eq_nil_or_concat names with rfl | ⟨front, name, rfl⟩
  · obtain ⟨entry, found⟩ := placeOf_eq_some.mp placed
    rw [List.append_nil] at stands proper ⊢
    have same : some entry = some (.file id mode content) := (find_grounded found).2.trans stands
    obtain ⟨name, last, ends⟩ := last_of_leads free (leads_of_find found) (by simp [same])
    exact ⟨name, ends, last_segment last, proper name (List.mem_of_getLast? ends)⟩
  · rw [List.concat_eq_append] at proper ⊢
    have own : Proper name := proper name (by simp)
    refine ⟨name, by rw [← List.append_assoc, List.getLast?_concat], ?_, own⟩
    rw [spelled, List.foldl_append, List.foldl_cons, List.foldl_nil, last_segment_join, segments_proper own]
    rfl

theorem Yields.extensionOf (free : LinkFree disk) {name : ByteString} (last : file.getLast? = some name) :
    Path.extensionOf name = some ↑resolver.settings.extension := by
  obtain ⟨other, ends, last', proper⟩ := Yields.last tree yields free
  cases last.symm.trans ends
  exact extensionOf_source yields.source last' proper

theorem Yields.leads : Leads disk true [] (steps path) ⟨file, disk.entry? file⟩ := by
  obtain ⟨id, mode, content, stands⟩ := yields.stands
  obtain ⟨start, names, placed, walked, rfl, rfl⟩ := yields.walked
  obtain ⟨entry, found⟩ := placeOf_eq_some.mp placed
  have held : some entry = disk.entry? start := (find_grounded found).2
  by_cases empty : names = []
  · subst empty
    rw [List.append_nil, ← held]
    exact leads_of_find found
  · rw [held, walked_start tree walked empty] at found
    exact leads_spelled (leads_of_find found) empty (tree.grounded stands) (by rw [stands]; trivial)

theorem Yields.canonical : Canonical path := by
  obtain ⟨id, mode, content, stands⟩ := yields.stands
  obtain ⟨start, names, placed, _, rfl, rfl⟩ := yields.walked
  obtain ⟨entry, found⟩ := placeOf_eq_some.mp placed
  have nonempty : (named resolver argument).written ≠ "" := by
    intro bare
    rw [find, if_pos bare] at found
    cases found
  refine canonical_spelled (canonical_normalize _) nonempty fun name member => ?_
  exact (tree.grounded stands).proper name (List.mem_append_right _ member)

end

section
variable {resolver : Resolver} {disk next : Disk} (tidied : Tidied resolver.settings.extension disk next)
  (free : LinkFree disk)
  (steady : ∀ descriptor ∈ resolver.settings.buildDescriptors, ¬ Temporary resolver.settings.extension descriptor)
include tidied free steady

private theorem insideBuildOutput_tidied (path : Path) :
    resolver.insideBuildOutput next path = resolver.insideBuildOutput disk path := by
  rw [Resolver.insideBuildOutput, Resolver.insideBuildOutput, isBuildOutput_tidied tidied free steady]

/-- What an argument leads to in one tree, it leads to in the other. -/
theorem yields_tidied (tree : IsTree disk) (plain : resolver.settings.extension ≠ "tmp") {argument path : Path}
    {file : Location} : Yields resolver next argument path file ↔ Yields resolver disk argument path file := by
  have outputs := isBuildOutput_tidied tidied free steady
  constructor
  · rintro ⟨outside, source, start, names, placed, ⟨stands, entered⟩, same, whole⟩
    rw [insideBuildOutput_tidied tidied free steady] at outside
    rw [outputs] at entered
    obtain ⟨entry, found⟩ := placeOf_eq_some.mp placed
    have before := find_framed tidied.framed.symm found
    obtain ⟨stood, there⟩ := tidied.entry_before (find_grounded found).2.symm
    refine ⟨outside, source, start, names, ?_, ⟨tidied.file_before stands, entered⟩, same, whole⟩
    exact placeOf_eq_some.mpr ⟨stood, by rw [before, there]⟩
  · intro yields
    have stays := tidied.file (fun name last => lasting_of_source plain (Yields.extensionOf tree yields free last))
      yields.stands
    obtain ⟨outside, source, start, names, placed, walked, same, whole⟩ := yields
    obtain ⟨entry, found⟩ := placeOf_eq_some.mp placed
    have after := find_framed tidied.framed found
    refine ⟨?_, source, start, names, ?_, ⟨whole ▸ stays, ?_⟩, same, whole⟩
    · rw [insideBuildOutput_tidied tidied free steady]
      exact outside
    · obtain ⟨later, there⟩ : ∃ later, next.entry? start = some later := by
        by_cases empty : names = []
        · obtain ⟨_, _, _, there⟩ := stays
          rw [whole, empty, List.append_nil] at there
          exact ⟨_, there⟩
        · exact ⟨_, tidied.framed.passes rfl (walked_start tree walked empty)⟩
      exact placeOf_eq_some.mpr ⟨later, by rw [after, there]⟩
    · rw [outputs]
      exact walked.entered

end

/-- The targets of a working directory are what its arguments yield, since each place has one spelling in normal
form. -/
theorem mem_sortedFiles {resolver : Resolver} {disk : Disk} (tree : IsTree disk) {arguments : List Path}
    {path : Path} : path ∈ Scope.sortedPaths (arguments.flatMap (resolver.filesOf disk)) ↔
      ∃ argument ∈ arguments, ∃ file, Yields resolver disk argument path file := by
  have yielded {path : Path} : path ∈ arguments.flatMap (resolver.filesOf disk) ↔
      ∃ argument ∈ arguments, ∃ file, Yields resolver disk argument path file := by
    rw [List.mem_flatMap]
    exact exists_congr fun argument => and_congr_right fun _ => mem_filesOf_yields tree
  constructor
  · exact fun kept => yielded.mp (List.mem_mergeSort.mp (mem_of_mem_distinct kept))
  · intro made
    refine (mem_sortedPaths fun other member same => ?_).mpr (yielded.mpr made)
    obtain ⟨_, _, _, yields⟩ := made
    obtain ⟨_, _, _, yields'⟩ := yielded.mp member
    exact eq_of_canonical (Yields.canonical tree yields) (Yields.canonical tree yields') same

/-- A working directory has the same scope as before. -/
theorem workingDirectory_tidied {resolver : Resolver} {disk next : Disk}
    (tidied : Tidied resolver.settings.extension disk next) (free : LinkFree disk) (tree : IsTree disk)
    (tree' : IsTree next) (plain : resolver.settings.extension ≠ "tmp")
    (steady : ∀ descriptor ∈ resolver.settings.buildDescriptors, ¬ Temporary resolver.settings.extension descriptor)
    (arguments : List Path) (dryRun : Bool) :
    resolver.workingDirectory next arguments dryRun = resolver.workingDirectory disk arguments dryRun := by
  have same : Scope.sortedPaths (arguments.flatMap (resolver.filesOf next)) =
      Scope.sortedPaths (arguments.flatMap (resolver.filesOf disk)) := by
    refine eq_of_ascending (sortedPaths_ascends _) (sortedPaths_ascends _) fun path => ?_
    rw [mem_sortedFiles tree', mem_sortedFiles tree]
    refine exists_congr fun argument => and_congr_right fun _ => exists_congr fun file => ?_
    exact yields_tidied tidied free steady tree plain
  simp only [Resolver.workingDirectory, same]

end StagedFormat.Proofs.ScopeRepetition
