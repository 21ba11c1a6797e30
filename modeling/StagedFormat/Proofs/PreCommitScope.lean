import StagedFormat.Proofs.DecodedText
import StagedFormat.Proofs.DiskFollowing
import StagedFormat.Proofs.RepositoryEffects
import StagedFormat.Scope.Basic

/-! The targets of staged changes. A target that pairs a blob with a working file is read through the
file, and links are followed on the way; so it is only the blob's own content if the path is no link,
or leads to a file that holds the text of the link. -/

namespace StagedFormat.Proofs.PreCommitScope
open StagedFormat Git Listing ByteTexts DecodedText DiskFollowing RepositoryEffects

/-- Asking for a listing changes no file and no index entry; with an answer the lock of the index is
free. -/
theorem consult_reads (resolver : Resolver) (workspace : Workspace) (command : Command)
    (reads : Reads command) :
    ∃ answer next poisoned, resolver.consult workspace command =
        (answer, { workspace with repository := next, poisoned }) ∧
      Grows workspace.repository next [] [] ∧ (answer.isOk → poisoned = false) := by
  obtain ⟨top, middle, asked, first⟩ :=
    gitText_reads workspace resolver.directory .showToplevel fun _ => rfl
  rw [Resolver.consult, asked]
  cases top with
  | error fault => exact ⟨_, middle, workspace.poisoned, rfl, first, nofun⟩
  | ok root =>
    obtain ⟨listing, last, listed, second⟩ :=
      git_reads { workspace with repository := middle } ⟨root⟩ command reads
    simp only [listed]
    cases listing with
    | error fault => exact ⟨_, last, workspace.poisoned, rfl, first.trans second, nofun⟩
    | ok listing => exact ⟨_, last, false, rfl, first.trans second, fun _ => rfl⟩

/-- A repository that is asked directly, and refuses nothing, gives its root and its listing. -/
theorem consult_answered (resolver : Resolver) {workspace : Workspace} {command : Command}
    {listing : ByteArray} (direct : workspace.repository.access = .direct)
    (willing : ∀ attempt command, workspace.repository.refuses attempt command = none)
    (legible : IsText workspace.repository.root.written)
    (answered : (workspace.repository.answer command).1 = .ok listing) :
    (resolver.consult workspace command).1 = .ok (workspace.repository.root, listing) := by
  obtain ⟨attempts, first⟩ := run_direct workspace.repository .showToplevel direct (willing · _) rfl
    workspace.disk resolver.directory
  have later : ({ workspace.repository with attempts }.answer command).1 = .ok listing := by
    rw [answer_attempts, answered]
  obtain ⟨_, second⟩ := run_direct { workspace.repository with attempts } command direct
    (willing · _) later workspace.disk workspace.repository.root
  have asked : workspace.gitText resolver.directory .showToplevel =
      (.ok workspace.repository.root.text, tried workspace attempts) := by
    rw [Workspace.gitText, Repository.runText, first]
    simp only [direct, Except.bind, textOf_packed _ legible]
    rfl
  have shown : (⟨workspace.repository.root.text⟩ : Path) = workspace.repository.root := congrArg Path.mk legible.shown
  rw [Resolver.consult, asked]
  simp only [Workspace.git, tried, shown, second]

theorem consult_direct (resolver : Resolver) {workspace : Workspace}
    (direct : workspace.repository.access = .direct)
    (willing : ∀ attempt command, workspace.repository.refuses attempt command = none)
    (legible : IsText workspace.repository.root.written) :
    (resolver.consult workspace .status).1 =
      .ok (workspace.repository.root, workspace.repository.status) :=
  consult_answered resolver direct willing legible rfl

theorem ofListing_toUTF8 (text : String) :
    Change.ofListing text.toUTF8 = Change.ofEntries (Text.pieces '\x00' text.toList) := by
  rw [Change.ofListing, decodeLossy_toUTF8]

/-- The changes that a pre-commit run works on. -/
def chosen (resolver : Resolver) (disk : Disk) (root : Path) (arguments : List Path)
    (changes : List Change) : List Change :=
  changes.filter fun change => change.isStagedContent &&
    resolver.selects (Scope.filters disk root resolver.directory arguments) change.path

theorem chosen_subset {resolver : Resolver} {disk : Disk} {root : Path} {arguments : List Path}
    {changes : List Change} : chosen resolver disk root arguments changes ⊆ changes :=
  List.filter_sublist.subset

/-- A scope is what the repository's listing says about the chosen changes. -/
theorem preCommit_cases (resolver : Resolver) (workspace : Workspace) (arguments : List Path)
    (dryRun : Bool) :
    ∃ answer next poisoned, resolver.preCommit workspace arguments dryRun =
        (answer, { workspace with repository := next, poisoned }) ∧
      Grows workspace.repository next [] [] ∧
      ∀ scope, answer = .ok scope → poisoned = false ∧ ∃ root listing changes,
        (resolver.consult workspace .status).1 = .ok (root, listing) ∧
        Change.ofListing listing = .ok changes ∧
        scope = {
          targets := (chosen resolver workspace.disk root arguments changes).map
            (Resolver.stagedTarget root)
          dryRun } := by
  obtain ⟨answer, next, poisoned, consulted, grows, free⟩ :=
    consult_reads resolver workspace .status fun _ => rfl
  rw [Resolver.preCommit, Resolver.survey, consulted]
  refine ⟨_, next, poisoned, rfl, grows, ?_⟩
  intro scope resolved
  cases answer with
  | error fault => cases resolved
  | ok found =>
    obtain ⟨root, listing⟩ := found
    refine ⟨free rfl, root, listing, ?_⟩
    simp only [Except.bind, Resolver.stagedScope, bind] at resolved
    cases listed : Change.ofListing listing with
    | error fault =>
      rw [listed] at resolved
      cases resolved
    | ok changes =>
      rw [listed] at resolved
      cases resolved
      exact ⟨changes, rfl, rfl, rfl⟩

theorem preCommit_ok {resolver : Resolver} {workspace : Workspace} {root : Path} {listing : ByteArray}
    {changes : List Change} (consulted : (resolver.consult workspace .status).1 = .ok (root, listing))
    (listed : Change.ofListing listing = .ok changes) (arguments : List Path) (dryRun : Bool) :
    ∃ next, resolver.preCommit workspace arguments dryRun =
        (.ok {
          targets := (chosen resolver workspace.disk root arguments changes).map
            (Resolver.stagedTarget root)
          dryRun },
          { workspace with repository := next, poisoned := false }) ∧
      Grows workspace.repository next [] [] := by
  obtain ⟨answer, next, poisoned, asked, grows, free⟩ :=
    consult_reads resolver workspace .status fun _ => rfl
  rw [asked] at consulted
  cases consulted
  cases free rfl
  refine ⟨next, ?_, grows⟩
  simp only [Resolver.preCommit, Resolver.survey, asked, Except.bind, Resolver.stagedScope, bind, listed]
  rfl

def linkMode : String := "120000"

/-- The working tree has the staged content of a change: a file with its bytes, or a link whose text
they are. -/
inductive Mirrored (disk : Disk) (repository : Repository) (root : Path) (change : Change) : Prop where
  | file {location id mode content} : change.mode ≠ linkMode →
      disk.find false (root.join change.path) = .ok ⟨location, some (.file id mode content)⟩ →
      repository.objects.lookup change.hash = some content → Mirrored disk repository root change
  | link {location target} : change.mode = linkMode →
      disk.find false (root.join change.path) = .ok ⟨location, some (.link target)⟩ →
      repository.objects.lookup change.hash = some target.written.packed →
      Mirrored disk repository root change

/-- If a path is a link, the file that it leads to holds what is written in the link. -/
def Echoes (disk : Disk) (path : Path) : Prop :=
  ∀ location target, disk.find false path = .ok ⟨location, some (.link target)⟩ →
    disk.readBytes path = .ok target.written.packed

private theorem pair_target {root : Path} {change : Change} {blob : IndexBlob} {file : WorkingFile}
    (paired : Resolver.stagedTarget root change = .pair blob file) :
    change.isClean ∧ blob.hash = change.hash ∧ file.path = root.join change.path := by
  unfold Resolver.stagedTarget at paired
  split at paired
  · rename_i clean
    cases paired
    exact ⟨clean, rfl, rfl⟩
  · cases paired

private theorem readText_file {disk : Disk} {path : Path} {location : Location} {id mode : Nat}
    {content : ByteArray} (stands : disk.find false path = .ok ⟨location, some (.file id mode content)⟩)
    {text : String} (read : disk.readText path = .ok text) : content = text.toUTF8 := by
  obtain ⟨_, _, _, found⟩ := readText_iff.mp read
  have same := (leads_of_find found).unique ((leads_of_find stands).follows nofun)
  cases same
  rfl

/-- In a working tree that has the staged content, reading a path gives it unless a link is in the way. -/
theorem Mirrored.reads_iff {disk : Disk} {repository : Repository} {root : Path} {change : Change}
    (mirrored : Mirrored disk repository root change) {held text : String}
    (stored : repository.objects.lookup change.hash = some held.toUTF8)
    (read : disk.readText (root.join change.path) = .ok text) :
    text = held ↔ Echoes disk (root.join change.path) := by
  cases mirrored with
  | file _ stands object =>
    have bytes := readText_file stands read
    rw [object] at stored
    have same : held = text := String.toByteArray_inj.mp ((Option.some.inj stored).symm.trans bytes)
    constructor
    · intro _ location target link
      rw [stands] at link
      cases link
    · intro _
      exact same.symm
  | @link location target _ stands object =>
    have same : target.written.packed = held.toUTF8 := Option.some.inj (object.symm.trans stored)
    have bytes := readBytes_ok.mpr (readText_iff.mp read)
    constructor
    · rintro rfl other link leads
      rw [stands] at leads
      cases leads
      rw [bytes, same]
    · intro echoes
      have whole := echoes location target stands
      rw [bytes, same] at whole
      exact String.toByteArray_inj.mp (Except.ok.inj whole)

private theorem readText_of_read {blob : IndexBlob} {file : WorkingFile} {workspace : Workspace} {text : String}
    (read : ((Target.pair blob file).read workspace).1 = .ok text) :
    workspace.disk.readText file.path = .ok text := by
  simp only [Target.read, WorkingFile.read] at read
  cases found : workspace.disk.readText file.path with
  | error cause => rw [found] at read; cases read
  | ok other => rw [found] at read; cases read; rfl

/-- Reading a pair gives its own blob exactly if its path is no link, or one that leads to a file with
the text of the link. -/
theorem pair_reads_blob_iff {resolver : Resolver} {workspace next : Workspace} {arguments : List Path}
    {dryRun : Bool} {scope : Scope}
    (resolved : resolver.preCommit workspace arguments dryRun = (.ok scope, next))
    (mirrored : ∀ root listing changes, (resolver.consult workspace .status).1 = .ok (root, listing) →
      Change.ofListing listing = .ok changes → ∀ change ∈ changes, change.isClean →
      Mirrored workspace.disk workspace.repository root change)
    {blob : IndexBlob} {file : WorkingFile} (paired : .pair blob file ∈ scope.targets)
    {held text : String} (stored : next.repository.objects.lookup blob.hash = some held.toUTF8)
    (read : ((Target.pair blob file).read next).1 = .ok text) :
    text = held ↔ Echoes next.disk file.path := by
  obtain ⟨answer, repository, poisoned, same, grows, spec⟩ :=
    preCommit_cases resolver workspace arguments dryRun
  rw [resolved] at same
  cases same
  obtain ⟨_, root, listing, changes, consulted, listed, rfl⟩ := spec scope rfl
  obtain ⟨change, member, target⟩ := List.mem_map.mp paired
  obtain ⟨clean, hash, path⟩ := pair_target target
  obtain ⟨_, rfl⟩ := grows
  have content := readText_of_read read
  simp only [hash, List.nil_append] at stored
  rw [path] at content ⊢
  exact (mirrored root listing changes consulted listed change (chosen_subset member) clean).reads_iff
    stored content

def linked : Workspace where
  disk := {
    entries := [(["repo"], .directory), (["repo", "Real.kt"], .file 0 0o644 "a=1".toUTF8),
      (["repo", "L.kt"], .link ⟨"Real.kt"⟩)]
    fresh := 1 }
  repository := {
    root := ⟨"/repo"⟩
    status := ("1 A. N... 000000 100644 100644 0000 beef Real.kt\x00" ++
      "1 A. N... 000000 120000 120000 0000 feed L.kt\x00").toUTF8
    objects := [("beef", "a=1".toUTF8), ("feed", "Real.kt".toUTF8)] }

def inRepo : Resolver := { settings := {}, directory := ⟨"/repo"⟩ }

def linkedChanges : List Change :=
  [⟨⟨"Real.kt"⟩, "100644", "beef", 'A', '.'⟩, ⟨⟨"L.kt"⟩, "120000", "feed", 'A', '.'⟩]

private theorem linked_consulted :
    (inRepo.consult linked .status).1 = .ok (⟨"/repo"⟩, linked.repository.status) :=
  consult_direct inRepo rfl (fun _ _ => rfl) ⟨"/repo", rfl⟩

private theorem linked_listed : Change.ofListing linked.repository.status = .ok linkedChanges := by
  rw [linked, ofListing_toUTF8]
  simp only [String.toList_append, String.reduceToList, List.cons_append, List.nil_append]
  rfl

private theorem linked_mirrored (root : Path) (listing : ByteArray) (changes : List Change)
    (consulted : (inRepo.consult linked .status).1 = .ok (root, listing))
    (listed : Change.ofListing listing = .ok changes) :
    ∀ change ∈ changes, change.isClean → Mirrored linked.disk linked.repository root change := by
  rw [linked_consulted] at consulted
  cases consulted
  rw [linked_listed] at listed
  cases listed
  intro change member _
  rcases List.mem_cons.mp member with rfl | member
  · have stands : linked.disk.find false ⟨"/repo/Real.kt"⟩ =
        .ok ⟨["repo", "Real.kt"], some (.file 0 0o644 "a=1".toUTF8)⟩ := rfl
    exact .file (by decide) stands rfl
  · cases List.mem_singleton.mp member
    have stands : linked.disk.find false ⟨"/repo/L.kt"⟩ =
        .ok ⟨["repo", "L.kt"], some (.link ⟨"Real.kt"⟩)⟩ := rfl
    exact .link rfl stands rfl

private theorem linked_resolved : ∃ next, inRepo.preCommit linked [] false = (.ok {
      targets := linkedChanges.map (Resolver.stagedTarget ⟨"/repo"⟩), dryRun := false }, next) ∧
    next.disk = linked.disk ∧ next.repository.objects = linked.repository.objects := by
  obtain ⟨next, resolved, _, rfl⟩ := preCommit_ok linked_consulted linked_listed [] false
  have all : chosen inRepo linked.disk ⟨"/repo"⟩ [] linkedChanges = linkedChanges := by decide +kernel
  rw [all] at resolved
  exact ⟨_, resolved, rfl, rfl⟩

theorem pair_reads_blob_of_file :
    ∃ scope next, inRepo.preCommit linked [] false = (.ok scope, next) ∧
      ∃ blob file, .pair blob file ∈ scope.targets ∧ next.disk.readText file.path = .ok "a=1" ∧
        ("a=1" = "a=1" ↔ Echoes next.disk file.path) := by
  obtain ⟨next, resolved, disk, objects⟩ := linked_resolved
  refine ⟨_, next, resolved, ⟨⟨"/repo"⟩, ⟨"Real.kt"⟩, "100644", "beef"⟩,
    ⟨⟨"/repo/Real.kt"⟩, some ⟨"/repo"⟩⟩, List.mem_cons_self, ?_, ?_⟩
  · rw [disk]
    exact readText_iff.mpr ⟨["repo", "Real.kt"], 0, 0o644, rfl⟩
  · refine pair_reads_blob_iff resolved linked_mirrored List.mem_cons_self (by rw [objects]; rfl) ?_
    simp only [Target.read, WorkingFile.read, disk]
    rw [readText_iff.mpr ⟨["repo", "Real.kt"], 0, 0o644, rfl⟩]
    rfl

/-- A pair for a link may be read as another file. -/
theorem pair_reads_other_file :
    ¬ ∀ (resolver : Resolver) (workspace next : Workspace) (arguments : List Path) (dryRun : Bool)
      (scope : Scope), resolver.preCommit workspace arguments dryRun = (.ok scope, next) →
      (∀ root listing changes, (resolver.consult workspace .status).1 = .ok (root, listing) →
        Change.ofListing listing = .ok changes → ∀ change ∈ changes, change.isClean →
        Mirrored workspace.disk workspace.repository root change) →
      ∀ blob file held text, .pair blob file ∈ scope.targets →
        next.repository.objects.lookup blob.hash = some held.toUTF8 →
        ((Target.pair blob file).read next).1 = .ok text → text = held := by
  intro agree
  obtain ⟨next, resolved, disk, objects⟩ := linked_resolved
  have same := agree _ _ _ _ _ _ resolved linked_mirrored
    ⟨⟨"/repo"⟩, ⟨"L.kt"⟩, "120000", "feed"⟩ ⟨⟨"/repo/L.kt"⟩, some ⟨"/repo"⟩⟩ "Real.kt" "a=1"
    (.tail _ List.mem_cons_self) (by rw [objects]; rfl) (by
      simp only [Target.read, WorkingFile.read, disk]
      rw [readText_iff.mpr ⟨["repo", "Real.kt"], 0, 0o644, rfl⟩]
      rfl)
  exact absurd same (by decide)

end StagedFormat.Proofs.PreCommitScope
