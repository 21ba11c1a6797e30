import StagedFormat.Listing.Status
import StagedFormat.Proofs.DecodedText
import StagedFormat.Proofs.RepositoryEffects

/-! Reading the listing of changed paths: each record of a listing gives its change, in their order,
and the first entry that is none ends the reading. -/

namespace StagedFormat.Proofs.StatusListing
open StagedFormat Listing ByteTexts TextPieces DecodedText

structure Field where
  text : List Char
  spaceless : ' ' ∉ text
  closed : '\x00' ∉ text

/-- A path may hold spaces and line feeds, and it may look like a record. -/
structure Name where
  text : List Char
  nonempty : text ≠ []
  closed : '\x00' ∉ text

/-- The fields that ordinary records and those of renames and copies have in common. -/
structure Record where
  staged : Char
  unstaged : Char
  codes : Field
  coded : codes.text = [staged, unstaged]
  submodule : Field
  headMode : Field
  mode : Field
  worktreeMode : Field
  headHash : Field
  hash : Field
  path : Name

def Record.change (record : Record) : Change where
  path := ⟨String.ofList record.path.text⟩
  mode := String.ofList record.mode.text
  hash := String.ofList record.hash.text
  staged := record.staged
  unstaged := record.unstaged

inductive Kind where
  | ordinary
  | renamed

def Kind.mark : Kind → Char
  | .ordinary => '1'
  | .renamed => '2'

def Kind.width : Kind → Nat
  | .ordinary => 9
  | .renamed => 10

def Kind.field (kind : Kind) : Field where
  text := [kind.mark]
  spaceless := by cases kind <;> decide
  closed := by cases kind <;> decide

/-- The fields in front of the path; `score` is there in the records of renames and copies only. -/
def Record.fields (record : Record) (kind : Kind) (score : List Field) : List Field :=
  [kind.field, record.codes, record.submodule, record.headMode, record.mode, record.worktreeMode,
    record.headHash, record.hash] ++ score

inductive Entry where
  | ordinary (record : Record)
  /-- The old path is an entry of its own. -/
  | renamed (record : Record) (score : Field) (original : Name)
  /-- An unmerged, untracked or ignored path, or a header. -/
  | skipped (mark : Char) (rest : List Char) (known : mark ∈ ['u', '?', '!', '#']) (closed : '\x00' ∉ rest)

def joined (fields : List Field) (path : Name) : List Char :=
  fields.flatMap (fun field => field.text ++ [' ']) ++ path.text

def Entry.texts : Entry → List (List Char)
  | .ordinary record => [joined (record.fields .ordinary []) record.path]
  | .renamed record score original =>
    [joined (record.fields .renamed [score]) record.path, original.text]
  | .skipped mark rest _ _ => [mark :: rest]

def Entry.change? : Entry → Option Change
  | .ordinary record => some record.change
  | .renamed record _ _ => some record.change
  | .skipped .. => none

def listing (entries : List Entry) : String :=
  String.ofList ((entries.flatMap Entry.texts).flatMap (· ++ ['\x00']))

/-- An entry that no listing has in the place of a record. -/
inductive Malformed (entry : List Char) : Prop where
  | unknown {mark} : entry.head? = some mark → mark ∉ ['1', '2', 'u', '?', '!', '#'] → Malformed entry
  | short {kind : Kind} : entry.head? = some kind.mark → (entry.splitOn ' ').length < kind.width →
      Malformed entry
  | uncoded {kind : Kind} {codes} : entry.head? = some kind.mark → (entry.splitOn ' ')[1]? = some codes →
      codes.length ≠ 2 → Malformed entry

theorem Malformed.nonempty {entry : List Char} (malformed : Malformed entry) : entry ≠ [] := by
  rintro rfl
  cases malformed with
  | unknown marked _ => cases marked
  | short marked _ => cases marked
  | uncoded marked _ _ => cases marked

/-! ### The entries of a listing -/

private theorem joined_whole (fields : List Field) (path : Name) :
    '\x00' ∉ joined fields path ∧ joined fields path ≠ [] := by
  constructor
  · intro member
    rcases List.mem_append.mp member with member | member
    · obtain ⟨field, _, inside⟩ := List.mem_flatMap.mp member
      rcases List.mem_append.mp inside with inside | inside
      · exact field.closed inside
      · exact absurd (List.mem_singleton.mp inside) (by decide)
    · exact path.closed member
  · exact List.append_ne_nil_of_right_ne_nil _ path.nonempty

private theorem texts_whole {entries : List Entry} :
    ∀ text ∈ entries.flatMap Entry.texts, '\x00' ∉ text ∧ text ≠ [] := by
  intro text member
  obtain ⟨entry, _, inside⟩ := List.mem_flatMap.mp member
  cases entry with
  | ordinary record =>
    obtain rfl := List.mem_singleton.mp inside
    exact joined_whole _ _
  | renamed record score original =>
    rcases List.mem_cons.mp inside with rfl | inside
    · exact joined_whole _ _
    · obtain rfl := List.mem_singleton.mp inside
      exact ⟨original.closed, original.nonempty⟩
  | skipped mark rest known closed =>
    obtain rfl := List.mem_singleton.mp inside
    refine ⟨?_, List.cons_ne_nil _ _⟩
    intro member
    rcases List.mem_cons.mp member with rfl | member
    · exact absurd known (by decide)
    · exact closed member

/-! ### The fields of an entry -/

/-- Only as many spaces divide as there are fields, so that those of the path stay. -/
theorem splitInto_joined (fields : List Field) (path : Name) :
    Text.splitInto ' ' (fields.length + 1) (joined fields path) =
      fields.map Field.text ++ [path.text] := by
  induction fields with
  | nil => rfl
  | cons field fields ih =>
    have divided : Text.splitOnce ' ' (joined (field :: fields) path) =
        some (field.text, joined fields path) := by
      rw [joined, List.flatMap_cons, List.append_assoc, List.append_assoc, List.singleton_append]
      exact splitOnce_append field.spaceless
    rw [List.length_cons, Text.splitInto, divided]
    exact congrArg _ ih

private theorem ofRecord_joined (record : Record) (kind : Kind) (score : List Field) :
    Change.ofRecord (score.length + 9) (joined (record.fields kind score) record.path) =
      .ok record.change := by
  have length : (record.fields kind score).length = score.length + 8 := by
    rw [Record.fields, List.length_append, Nat.add_comm]
    rfl
  have parts := splitInto_joined (record.fields kind score) record.path
  rw [length] at parts
  rw [Change.ofRecord, parts]
  simp [Record.fields, Record.change, record.coded]

private theorem ofRecord_cases (fields : Nat) (entry : List Char) :
    Change.ofRecord fields entry = .error (.malformedStatus (String.ofList entry)) ∨
      (Text.splitInto ' ' fields entry).length = fields ∧
        ∃ codes, (Text.splitInto ' ' fields entry)[1]? = some codes ∧ codes.length = 2 := by
  unfold Change.ofRecord
  split
  case h_2 => exact .inl rfl
  case h_1 parts =>
    split
    case isFalse => exact .inl rfl
    case isTrue length =>
      split
      case h_2 => exact .inl rfl
      case h_1 =>
        right
        rw [parts]
        exact ⟨by simpa using length, _, rfl, rfl⟩

private theorem ofRecord_malformed {entry : List Char} {kind : Kind}
    (broken : (entry.splitOn ' ').length < kind.width ∨
      ∃ codes, (entry.splitOn ' ')[1]? = some codes ∧ codes.length ≠ 2) :
    Change.ofRecord kind.width entry = .error (.malformedStatus (String.ofList entry)) := by
  obtain ⟨count, width⟩ : ∃ count, kind.width = count + 2 + 1 := by
    cases kind with
    | ordinary => exact ⟨6, rfl⟩
    | renamed => exact ⟨7, rfl⟩
  rw [width] at broken ⊢
  obtain ⟨length, parts⟩ := splitInto_splitOn ' ' (count + 2) entry
  refine (ofRecord_cases (count + 2 + 1) entry).resolve_right ?_
  rintro ⟨all, codes, found, pair⟩
  rcases broken with few | ⟨other, second, odd⟩
  · omega
  · have same := congrArg (·[1]?) parts
    simp only [List.getElem?_take_of_lt (Nat.lt_add_left count Nat.one_lt_two), found, second] at same
    exact odd (Option.some.inj same ▸ pair)

/-! ### The whole listing -/

private theorem ofEntries_malformed {entry : List Char} (malformed : Malformed entry) (rest : List (List Char)) :
    Change.ofEntries (entry :: rest) = .error (.malformedStatus (String.ofList entry)) := by
  have record {kind : Kind} (marked : entry.head? = some kind.mark)
      (broken : (entry.splitOn ' ').length < kind.width ∨
        ∃ codes, (entry.splitOn ' ')[1]? = some codes ∧ codes.length ≠ 2) :
      Change.ofEntries (entry :: rest) = .error (.malformedStatus (String.ofList entry)) := by
    have failed := ofRecord_malformed broken
    cases kind with
    | ordinary =>
      change Change.ofRecord 9 entry = _ at failed
      simp only [Change.ofEntries, marked, Kind.mark, failed]
      rfl
    | renamed =>
      change Change.ofRecord 10 entry = _ at failed
      simp only [Change.ofEntries, marked, Kind.mark, failed]
      rfl
  cases malformed with
  | unknown marked strange =>
    simp only [List.mem_cons, List.not_mem_nil, or_false, not_or] at strange
    simp [Change.ofEntries, marked, strange]
  | short marked few => exact record marked (.inl few)
  | uncoded marked second odd => exact record marked (.inr ⟨_, second, odd⟩)

private theorem ofEntries_texts (entry : Entry) (rest : List (List Char)) :
    Change.ofEntries (entry.texts ++ rest) =
      (Change.ofEntries rest).map (entry.change?.toList ++ ·) := by
  cases entry with
  | ordinary record =>
    have marked : (joined (record.fields .ordinary []) record.path).head? = some '1' := rfl
    have read : Change.ofRecord 9 _ = _ := ofRecord_joined record .ordinary []
    simp only [Entry.texts, List.cons_append, List.nil_append, Change.ofEntries, marked, read]
    rfl
  | renamed record score original =>
    have marked : (joined (record.fields .renamed [score]) record.path).head? = some '2' := rfl
    have read : Change.ofRecord 10 _ = _ := ofRecord_joined record .renamed [score]
    simp only [Entry.texts, List.cons_append, List.nil_append, Change.ofEntries, marked, read]
    rfl
  | skipped mark text known _ =>
    have skip : Change.ofEntries ((mark :: text) :: rest) = Change.ofEntries rest := by
      simp only [List.mem_cons, List.not_mem_nil, or_false] at known
      rcases known with rfl | rfl | rfl | rfl <;> rfl
    change Change.ofEntries ((mark :: text) :: rest) = (Change.ofEntries rest).map fun changes => changes
    rw [skip]
    cases Change.ofEntries rest <;> rfl

private theorem ofEntries_append (entries : List Entry) (rest : List (List Char)) :
    Change.ofEntries (entries.flatMap Entry.texts ++ rest) =
      (Change.ofEntries rest).map (entries.filterMap Entry.change? ++ ·) := by
  induction entries with
  | nil =>
    change Change.ofEntries rest = (Change.ofEntries rest).map fun changes => changes
    cases Change.ofEntries rest <;> rfl
  | cons entry entries ih =>
    have changes : (entry :: entries).filterMap Entry.change? =
        entry.change?.toList ++ entries.filterMap Entry.change? := by
      rw [List.filterMap_cons]
      cases entry.change? <;> rfl
    rw [List.flatMap_cons, List.append_assoc, ofEntries_texts, ih, changes]
    cases Change.ofEntries rest with
    | error fault => rfl
    | ok later => exact congrArg Except.ok (List.append_assoc _ _ _).symm

theorem pieces_listing (entries : List Entry) (rest : List Char) :
    Text.pieces '\x00' ((listing entries).toList ++ rest) =
      entries.flatMap Entry.texts ++ Text.pieces '\x00' rest := by
  rw [listing, String.toList_ofList]
  exact pieces_terminated texts_whole rest

/-- A listing gives the change of each of its records in order, with nothing for old paths and other
entries. Behind any listing, an entry that is malformed ends the reading with the error that names it,
whatever bytes come after it. -/
theorem ofListing_entries (entries : List Entry) :
    Change.ofListing (listing entries).toUTF8 = .ok (entries.filterMap Entry.change?) ∧
      ∀ (bad : String) (after : ByteArray), Malformed bad.toList → '\x00' ∉ bad.toList →
        (∀ byte ∈ after.data.toList.head?, byte = 0) →
        Change.ofListing ((listing entries ++ bad).toUTF8 ++ after) = .error (.malformedStatus bad) := by
  constructor
  · have pieces := pieces_listing entries []
    rw [List.append_nil] at pieces
    rw [Change.ofListing, decodeLossy_toUTF8, pieces, ofEntries_append]
    exact congrArg Except.ok (List.append_nil _)
  · intro bad after malformed closed ends
    obtain ⟨later, pieces⟩ := pieces_first closed malformed.nonempty (head_decodeLossy ends)
    rw [Change.ofListing, decodeLossy_append, String.toList_append, List.append_assoc, pieces_listing,
      pieces, ofEntries_append, ofEntries_malformed malformed, String.ofList_toList]
    rfl

/-- A rename whose old path looks like a record, and whose new path has a space and a line feed. -/
def lookalike : Entry :=
  let field (text : List Char) (spaceless : ' ' ∉ text) (closed : '\x00' ∉ text) : Field :=
    { text, spaceless, closed }
  let mode := field ['1', '0', '0', '6', '4', '4'] (by decide) (by decide)
  let hash := field ['a', '1'] (by decide) (by decide)
  .renamed
    { staged := 'R', unstaged := 'M', codes := field ['R', 'M'] (by decide) (by decide), coded := rfl,
      submodule := field ['N', '.', '.', '.'] (by decide) (by decide), headMode := mode, mode,
      worktreeMode := mode, headHash := hash, hash := field ['b', '2'] (by decide) (by decide),
      path := { text := ['A', ' ', '\n', 'B'], nonempty := by decide, closed := by decide } }
    (field ['R', '9', '0'] (by decide) (by decide))
    { text := ['1', ' ', 'M'], nonempty := by decide, closed := by decide }

theorem ofListing_entries_lookalike :
    listing [lookalike] = "2 RM N... 100644 100644 100644 a1 b2 R90 A \nB\x001 M\x00" ∧
    Change.ofListing (listing [lookalike]).toUTF8 =
        .ok [{ path := ⟨"A \nB"⟩, mode := "100644", hash := "b2", staged := 'R', unstaged := 'M' }] ∧
      Change.ofListing ((listing [lookalike] ++ "1 M").toUTF8 ++ ⟨#[0, 255]⟩) =
        .error (.malformedStatus "1 M") := by
  obtain ⟨read, broken⟩ := ofListing_entries [lookalike]
  have short : Malformed "1 M".toList := @Malformed.short _ .ordinary rfl (by decide)
  refine ⟨rfl, read.trans rfl, broken "1 M" ⟨#[0, 255]⟩ short (by decide) ?_⟩
  rintro _ ⟨⟩
  rfl

end StagedFormat.Proofs.StatusListing
