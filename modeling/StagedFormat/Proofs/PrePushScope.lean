import StagedFormat.Proofs.PreCommitScope
import StagedFormat.Proofs.StatusListing

/-! The scope of a push: the entries of a commit's listing that are chosen, or the first entry that is
malformed. The words of an entry end at separators that its path may hold, so that only the first tab
divides it. -/

namespace StagedFormat.Proofs.PrePushScope
open StagedFormat Listing ByteTexts TextPieces DecodedText RepositoryEffects PreCommitScope

structure Word where
  text : List Char
  plain : ∀ separator ∈ [' ', '\t', '\x00'], separator ∉ text

/-- A path may be empty, and it may hold spaces, tabs and line feeds. -/
structure Entry where
  mode : Word
  kind : Word
  hash : Word
  name : List Char
  closed : '\x00' ∉ name

namespace Entry
variable (entry : Entry)

def words : List Char := entry.mode.text ++ ' ' :: (entry.kind.text ++ ' ' :: entry.hash.text)

def text : List Char := entry.words ++ '\t' :: entry.name

def path : Path := ⟨String.ofList entry.name⟩

def blob (root : Path) : IndexBlob where
  root := root
  path := entry.path
  mode := String.ofList entry.mode.text
  hash := String.ofList entry.hash.text

def read : TreeEntry where
  mode := String.ofList entry.mode.text
  kind := String.ofList entry.kind.text
  hash := String.ofList entry.hash.text
  path := entry.path

end Entry

def listing (entries : List Entry) : String :=
  String.ofList ((entries.map Entry.text).flatMap (· ++ ['\x00']))

/-- A text that is no entry. Nothing between two NULs is no text. -/
inductive Malformed (text : List Char) : Prop where
  | tabless : text ≠ [] → '\t' ∉ text → Malformed text
  | miscounted {words name} : text = words ++ '\t' :: name → '\t' ∉ words →
      (words.splitOn ' ').length ≠ 3 → Malformed text

theorem Malformed.nonempty {text : List Char} (malformed : Malformed text) : text ≠ [] := by
  cases malformed with
  | tabless nonempty _ => exact nonempty
  | miscounted divided _ _ =>
    intro empty
    rw [divided] at empty
    exact List.append_ne_nil_of_right_ne_nil _ (List.cons_ne_nil _ _) empty

/-- The entries that a push works on. -/
def Chosen (resolver : Resolver) (disk : Disk) (root : Path) (arguments : List Path) (entry : Entry) :
    Prop :=
  entry.kind.text = "blob".toList ∧ entry.path.extension = some resolver.settings.extension ∧
    Scope.passes (Scope.filters disk root resolver.directory arguments) entry.path

instance (resolver : Resolver) (disk : Disk) (root : Path) (arguments : List Path) :
    DecidablePred (Chosen resolver disk root arguments) := fun _ => inferInstanceAs (Decidable (_ ∧ _))

/-! ### One entry -/

private theorem not_mem_separated {c separator : Char} {front back : List Char} (different : c ≠ separator)
    (first : c ∉ front) (second : c ∉ back) : c ∉ front ++ separator :: back := by
  intro member
  rcases List.mem_append.mp member with inside | inside
  · exact first inside
  · rcases List.mem_cons.mp inside with same | inside
    · exact different same
    · exact second inside

private theorem not_mem_words (entry : Entry) {c : Char} (separates : c ∈ [' ', '\t', '\x00'])
    (different : c ≠ ' ') : c ∉ entry.words := by
  apply not_mem_separated different (entry.mode.plain c separates)
  exact not_mem_separated different (entry.kind.plain c separates) (entry.hash.plain c separates)

private theorem text_whole (entry : Entry) : '\x00' ∉ entry.text ∧ entry.text ≠ [] := by
  constructor
  · exact not_mem_separated (by decide) (not_mem_words entry (by decide) (by decide)) entry.closed
  · exact List.append_ne_nil_of_right_ne_nil _ (List.cons_ne_nil _ _)

private theorem splitOn_words (entry : Entry) :
    entry.words.splitOn ' ' = [entry.mode.text, entry.kind.text, entry.hash.text] := by
  have one (word : Word) : word.text.splitOn ' ' = [word.text] :=
    List.splitOn_eq_singleton (word.plain ' ' (by decide))
  rw [Entry.words, List.splitOn_append_cons_self, List.splitOn_append_cons_self, one, one, one]
  rfl

/-- The separators of the path are behind the tab, where they divide nothing. -/
theorem ofEntry_text (entry : Entry) : TreeEntry.ofEntry entry.text = .ok entry.read := by
  have divided : Text.splitOnce '\t' entry.text = some (entry.words, entry.name) :=
    splitOnce_append (not_mem_words entry (by decide) (by decide))
  simp only [TreeEntry.ofEntry, divided, splitOn_words]
  rfl

private theorem ofEntry_malformed {text : List Char} (malformed : Malformed text) :
    TreeEntry.ofEntry text = .error (.malformedTree (String.ofList text)) := by
  cases malformed with
  | tabless _ absent => simp only [TreeEntry.ofEntry, splitOnce_absent absent]
  | miscounted divided absent count =>
    subst divided
    simp only [TreeEntry.ofEntry, splitOnce_append absent]
    split
    · rename_i three
      rw [three] at count
      exact absurd rfl count
    · rfl

/-! ### The whole listing -/

private theorem mapM_texts (entries : List Entry) :
    (entries.map Entry.text).mapM TreeEntry.ofEntry = .ok (entries.map Entry.read) := by
  induction entries with
  | nil => rfl
  | cons entry entries ih =>
    rw [List.map_cons, List.mapM_cons, ofEntry_text, ih]
    rfl

/-- A malformed text ends the reading, whatever is listed after it. -/
theorem mapM_malformed (entries : List Entry) {text : List Char} (malformed : Malformed text)
    (later : List (List Char)) :
    (entries.map Entry.text ++ text :: later).mapM TreeEntry.ofEntry =
      .error (.malformedTree (String.ofList text)) := by
  rw [List.mapM_append, mapM_texts, List.mapM_cons, ofEntry_malformed malformed]
  rfl

private theorem pieces_listing (entries : List Entry) (rest : List Char) :
    Text.pieces '\x00' ((listing entries).toList ++ rest) =
      entries.map Entry.text ++ Text.pieces '\x00' rest := by
  rw [listing, String.toList_ofList]
  apply pieces_terminated
  intro text member
  obtain ⟨entry, _, rfl⟩ := List.mem_map.mp member
  exact text_whole entry

private theorem ofListing_listing (entries : List Entry) :
    TreeEntry.ofListing (listing entries).toUTF8 = .ok (entries.map Entry.read) := by
  have pieces := pieces_listing entries []
  rw [List.append_nil] at pieces
  rw [TreeEntry.ofListing, decodeLossy_toUTF8, pieces]
  have all : entries.map Entry.text ++ Text.pieces '\x00' [] = entries.map Entry.text := List.append_nil _
  rw [all, mapM_texts]

private theorem ofListing_malformed (entries : List Entry) {bad : String} (malformed : Malformed bad.toList)
    (closed : '\x00' ∉ bad.toList) {after : ByteArray} (ends : ∀ byte ∈ after.data.toList.head?, byte = 0) :
    TreeEntry.ofListing ((listing entries ++ bad).toUTF8 ++ after) = .error (.malformedTree bad) := by
  obtain ⟨later, pieces⟩ := pieces_first closed malformed.nonempty (head_decodeLossy ends)
  rw [TreeEntry.ofListing, decodeLossy_append, String.toList_append, List.append_assoc, pieces_listing,
    pieces, mapM_malformed entries malformed, String.ofList_toList]

/-! ### The scope -/

private theorem selects_iff (resolver : Resolver) (disk : Disk) (root : Path) (arguments : List Path)
    (entry : Entry) :
    (entry.read.isBlob && resolver.selects (Scope.filters disk root resolver.directory arguments)
      entry.path) = true ↔ Chosen resolver disk root arguments entry := by
  have kind : entry.read.isBlob = true ↔ entry.kind.text = "blob".toList := by
    rw [TreeEntry.isBlob, beq_iff_eq, ← String.toList_inj]
    exact Iff.of_eq (congrArg (· = _) String.toList_ofList)
  rw [Bool.and_eq_true, kind, Resolver.selects, Bool.and_eq_true, Settings.isSourceFile, beq_iff_eq]
  exact Iff.rfl

private theorem targets_read (resolver : Resolver) (disk : Disk) (root : Path) (arguments : List Path)
    (entries : List Entry) :
    ((entries.map Entry.read).filter fun entry => entry.isBlob &&
        resolver.selects (Scope.filters disk root resolver.directory arguments) entry.path).map
          (fun entry => Target.blob { root, path := entry.path, mode := entry.mode, hash := entry.hash }) =
      (entries.filter (Chosen resolver disk root arguments)).map fun entry => .blob (entry.blob root) := by
  rw [List.filter_map, List.map_map]
  apply congrArg
  apply List.filter_congr
  intro entry _
  rw [Bool.eq_iff_iff, decide_eq_true_iff]
  exact selects_iff resolver disk root arguments entry

variable {resolver : Resolver} {workspace : Workspace} {commit : String} {root : Path}

/-- A push checks the listed blobs that have the extension of source files and that the arguments choose,
in the order of the listing, and it is a dry run. If an entry of the listing is malformed, the first such
entry is the error, whatever bytes come after it. -/
theorem prePush_exact {raw : ByteArray}
    (consulted : (resolver.consult workspace (.listTree commit)).1 = .ok (root, raw))
    (arguments : List Path) :
    (∀ entries, raw = (listing entries).toUTF8 →
      (resolver.prePush workspace arguments commit).1 = .ok {
        targets := (entries.filter (Chosen resolver workspace.disk root arguments)).map fun entry =>
          .blob (entry.blob root)
        dryRun := true }) ∧
    ∀ (entries : List Entry) (bad : String) (after : ByteArray), Malformed bad.toList →
      '\x00' ∉ bad.toList → (∀ byte ∈ after.data.toList.head?, byte = 0) →
      raw = (listing entries ++ bad).toUTF8 ++ after →
      (resolver.prePush workspace arguments commit).1 = .error (.listing (.malformedTree bad)) := by
  obtain ⟨answer, next, poisoned, asked, _, _⟩ :=
    consult_reads resolver workspace (.listTree commit) fun _ => rfl
  rw [asked] at consulted
  cases consulted
  constructor
  · rintro entries rfl
    simp only [Resolver.prePush, Resolver.survey, asked, Except.bind, Resolver.committedScope, bind,
      ofListing_listing, Except.mapError, targets_read]
    rfl
  · intro entries bad after malformed closed ends same
    have failed := ofListing_malformed entries malformed closed ends
    rw [← same] at failed
    simp only [Resolver.prePush, Resolver.survey, asked, Except.bind, Resolver.committedScope, bind, failed]
    rfl

/-- A path with a space, a tab and a line feed; one that is no blob but the commit of another repository; a
file that is no source; and one that is not below `src`. -/
def pushed : List Entry :=
  let word (text : String) (plain : [' ', '\t', '\x00'].all (!text.toList.contains ·) = true) : Word :=
    ⟨text.toList, by simpa using plain⟩
  let mode := word "100644" rfl
  let blob := word "blob" rfl
  let hash := word "a1" rfl
  [{ mode, kind := blob, hash, name := "src/A b\tc\n.kt".toList, closed := by decide },
    { mode := word "160000" rfl, kind := word "commit" rfl, hash,
      name := "src/B.kt".toList, closed := by decide },
    { mode, kind := blob, hash, name := "src/notes".toList, closed := by decide },
    { mode, kind := blob, hash, name := "lib/C.kt".toList, closed := by decide }]

/-- The listing of the second commit has an entry with one word, and bytes behind it that are no text. -/
def pushing : Workspace where
  disk := { entries := [(["repo"], .directory), (["repo", "src"], .directory)], fresh := 0 }
  repository := {
    root := ⟨"/repo"⟩
    trees := [("first", (listing pushed).toUTF8),
      ("second", (listing pushed ++ "blob\tsrc/D.kt").toUTF8 ++ ⟨#[0, 255]⟩)] }

theorem prePush_exact_separators :
    (inRepo.prePush pushing [⟨"src"⟩] "first").1 = .ok {
      targets := [.blob ⟨⟨"/repo"⟩, ⟨"src/A b\tc\n.kt"⟩, "100644", "a1"⟩], dryRun := true } ∧
    (inRepo.prePush pushing [⟨"src"⟩] "second").1 =
      .error (.listing (.malformedTree "blob\tsrc/D.kt")) := by
  have first : (inRepo.consult pushing (.listTree "first")).1 = .ok (⟨"/repo"⟩, (listing pushed).toUTF8) :=
    consult_answered inRepo rfl (fun _ _ => rfl) ⟨"/repo", rfl⟩ rfl
  have second : (inRepo.consult pushing (.listTree "second")).1 =
      .ok (⟨"/repo"⟩, (listing pushed ++ "blob\tsrc/D.kt").toUTF8 ++ ⟨#[0, 255]⟩) :=
    consult_answered inRepo rfl (fun _ _ => rfl) ⟨"/repo", rfl⟩ rfl
  obtain ⟨whole, _⟩ := prePush_exact first [⟨"src"⟩]
  obtain ⟨_, broken⟩ := prePush_exact second [⟨"src"⟩]
  have chosen : (pushed.filter (Chosen inRepo pushing.disk ⟨"/repo"⟩ [⟨"src"⟩])).map
      (fun entry => Target.blob (entry.blob ⟨"/repo"⟩)) =
        [.blob ⟨⟨"/repo"⟩, ⟨"src/A b\tc\n.kt"⟩, "100644", "a1"⟩] := by
    decide +kernel
  constructor
  · rw [whole pushed rfl, chosen]
  · have counted : Malformed "blob\tsrc/D.kt".toList :=
      .miscounted (show _ = "blob".toList ++ '\t' :: "src/D.kt".toList from rfl) (by decide) (by decide)
    apply broken pushed _ ⟨#[0, 255]⟩ counted (by decide) _ rfl
    intro byte zero
    cases zero
    rfl

end StagedFormat.Proofs.PrePushScope
