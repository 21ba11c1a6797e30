import StagedFormat.CommandLine.Run
import StagedFormat.Proofs.DiskFollowing

/-! What a daemon understands of the commands that invocations send. Arguments are joined by spaces
and divided at white space, and the line ends at its first line feed, so a command arrives as it was
sent exactly if each of its arguments is one word. -/

namespace StagedFormat.Proofs.CommandTransmission
open StagedFormat Daemon CommandLine ByteTexts TextPieces PathSegments DiskFollowing

/-- A text that division at white space keeps as it is. -/
def IsWord (text : String) : Prop := text ≠ "" ∧ ∀ c ∈ text.toList, Text.isWhiteSpace c = false

instance (text : String) : Decidable (IsWord text) :=
  decidable_of_iff (text ≠ "" ∧ text.toList.all fun c => !Text.isWhiteSpace c) (by simp [IsWord])

private theorem isWord_of_mem_words {text word : String} (member : word ∈ text.words) : IsWord word := by
  obtain ⟨part, inside, rfl⟩ := List.mem_map.mp member
  obtain ⟨found, nonempty⟩ := List.mem_filter.mp inside
  constructor
  · intro empty
    simp [String.ofList_eq_empty_iff.mp empty] at nonempty
  · rw [String.toList_ofList]
    exact mem_splitOnP found

theorem words_append_blank (front back : List Char) {blank : Char} (separates : Text.isWhiteSpace blank) :
    Text.words (front ++ blank :: back) = Text.words front ++ Text.words back := by
  rw [Text.words, List.splitOnP_append_cons _ _ separates, List.filter_append]
  rfl

theorem words_nil : Text.words [] = [] := rfl

theorem words_word {word : String} (whole : IsWord word) : Text.words word.toList = [word.toList] := by
  obtain ⟨nonempty, solid⟩ := whole
  have visible : word.toList ≠ [] := mt String.toList_eq_nil_iff.mp nonempty
  rw [Text.words, List.splitOnP_eq_singleton solid]
  simp [visible]

private theorem words_intercalate {arguments : List String} (whole : ∀ argument ∈ arguments, IsWord argument) :
    (" ".intercalate arguments).words = arguments := by
  have divided : Text.words (" ".intercalate arguments).toList = arguments.map String.toList := by
    induction arguments with
    | nil => rfl
    | cons first rest ih =>
      have head := words_word (whole first List.mem_cons_self)
      have tail := ih fun argument member => whole argument (.tail _ member)
      cases rest with
      | nil => rwa [String.intercalate_singleton]
      | cons second rest =>
        rw [String.intercalate_cons_cons, List.map_cons, ← tail, String.toList_append,
          String.toList_append, List.append_assoc]
        change Text.words (first.toList ++ ' ' :: (" ".intercalate (second :: rest)).toList) = _
        rw [words_append_blank _ _ (by decide), head, List.singleton_append]
  rw [String.words, divided]
  simp

/-! The line of a command -/

def beforeLineFeed (text : String) : String := String.ofList (text.toList.takeWhile (· != '\n'))

private theorem ofNat_ne_lineFeed {value : Nat} (small : value < 256) (different : value ≠ 10) :
    (10 : UInt8) ≠ UInt8.ofNat value := by
  intro same
  have number := congrArg UInt8.toNat same
  rw [UInt8.toNat_ofNat'] at number
  change 10 = value % 256 at number
  omega

/-- The byte of a line feed is part of no other character: the bytes of longer characters are above
all those of single ones. -/
theorem lineFeed_not_mem {c : Char} (different : c ≠ '\n') : (10 : UInt8) ∉ String.utf8EncodeChar c := by
  have value : c.val.toNat ≠ 10 := by
    intro same
    apply different
    apply Char.ext
    exact UInt32.toNat_inj.mp same
  intro member
  rw [String.utf8EncodeChar.eq_1] at member
  split at member
  · exact ofNat_ne_lineFeed (by omega) value (List.mem_singleton.mp member)
  · split at member
    · simp only [List.mem_cons, List.not_mem_nil, or_false] at member
      rcases member with same | same <;> exact ofNat_ne_lineFeed (by omega) (by omega) same
    · split at member
      · simp only [List.mem_cons, List.not_mem_nil, or_false] at member
        rcases member with same | same | same <;> exact ofNat_ne_lineFeed (by omega) (by omega) same
      · simp only [List.mem_cons, List.not_mem_nil, or_false] at member
        rcases member with same | same | same | same <;>
          exact ofNat_ne_lineFeed (by omega) (by omega) same

private theorem takeWhile_bytes (text : List Char) :
    (text.flatMap String.utf8EncodeChar ++ [10]).takeWhile (· != 10) =
      (text.takeWhile (· != '\n')).flatMap String.utf8EncodeChar := by
  induction text with
  | nil => rfl
  | cons c text ih =>
    by_cases lineFeed : c = '\n'
    · subst c
      rfl
    · have bytes : ∀ byte ∈ String.utf8EncodeChar c, (byte != 10) = true := by
        intro byte member
        rw [bne_iff_ne]
        rintro rfl
        exact lineFeed_not_mem lineFeed member
      rw [List.flatMap_cons, List.append_assoc, List.takeWhile_append_of_pos bytes, ih,
        List.takeWhile_cons_of_pos (by simpa using lineFeed), List.flatMap_cons]

private theorem toList_line (text : String) :
    (text ++ "\n").toUTF8.data.toList = text.toList.flatMap String.utf8EncodeChar ++ [10] := by
  rw [toList_toUTF8, String.toList_append, List.flatMap_append]
  rfl

private theorem firstLine_toUTF8 (text : String) :
    Server.firstLine (text ++ "\n").toUTF8 = (beforeLineFeed text ++ "\n").toUTF8 := by
  have read : (text ++ "\n").toUTF8.data.toList.takeWhile (· != 10) =
      (beforeLineFeed text).toList.flatMap String.utf8EncodeChar := by
    rw [toList_line, takeWhile_bytes, beforeLineFeed, String.toList_ofList]
  -- The text ends with a line feed, so what stands before the first one is not all of it.
  have short : ((beforeLineFeed text).toList.flatMap String.utf8EncodeChar).length <
      (text ++ "\n").toUTF8.size := by
    obtain ⟨rest, whole⟩ := List.takeWhile_prefix (l := text.toList) (p := (· != '\n'))
    have bytes := congrArg List.length (toList_line text)
    rw [← whole, List.flatMap_append, List.length_append, List.length_append] at bytes
    rw [beforeLineFeed, String.toList_ofList]
    change _ < (text ++ "\n").toUTF8.data.toList.length
    simp only [List.length_singleton] at bytes
    omega
  rw [Server.firstLine, read, if_pos short]
  apply ByteArray.ext
  rw [List.data_toByteArray, ← toList_line]

private theorem beforeLineFeed_append {front : String} (back : String) (solid : '\n' ∉ front.toList) :
    beforeLineFeed (front ++ back) = front ++ beforeLineFeed back := by
  have whole : ∀ c ∈ front.toList, (c != '\n') = true := by
    intro c member
    rw [bne_iff_ne]
    rintro rfl
    exact solid member
  rw [beforeLineFeed, String.toList_append, List.takeWhile_append_of_pos whole, String.ofList_append,
    String.ofList_toList]
  rfl

theorem IsWord.solid {word : String} (whole : IsWord word) : '\n' ∉ word.toList := by
  intro member
  exact absurd (whole.2 '\n' member) (by decide)

/-- The arguments that arrive if these are sent. -/
def carried (arguments : List String) : List String :=
  (beforeLineFeed (" ".intercalate arguments)).words

private theorem beforeLineFeed_intercalate {arguments : List String}
    (whole : ∀ argument ∈ arguments, IsWord argument) :
    beforeLineFeed (" ".intercalate arguments) = " ".intercalate arguments := by
  induction arguments with
  | nil => rfl
  | cons first rest ih =>
    have head := (whole first List.mem_cons_self).solid
    cases rest with
    | nil =>
      have alone := beforeLineFeed_append "" head
      rwa [String.append_empty, show beforeLineFeed "" = "" from rfl, String.append_empty] at alone
    | cons second rest =>
      rw [String.intercalate_cons_cons, String.append_assoc, beforeLineFeed_append _ head,
        beforeLineFeed_append _ (by decide), ih fun argument member => whole argument (.tail _ member)]

private theorem carried_eq_iff {arguments : List String} :
    carried arguments = arguments ↔ ∀ argument ∈ arguments, IsWord argument := by
  constructor
  · intro same argument member
    rw [← same] at member
    exact isWord_of_mem_words member
  · intro whole
    rw [carried, beforeLineFeed_intercalate whole, words_intercalate whole]

private theorem words_line {head : String} (arguments : List String) (whole : IsWord head) :
    (beforeLineFeed (" ".intercalate (head :: arguments)) ++ "\n").words = head :: carried arguments := by
  have ends : ∀ text : String, (text ++ "\n").words = text.words := by
    intro text
    rw [String.words, String.toList_append]
    change (Text.words (text.toList ++ '\n' :: [])).map String.ofList = _
    rw [words_append_blank _ _ (by decide), words_nil, List.append_nil]
    rfl
  rw [ends]
  cases arguments with
  | nil =>
    rw [beforeLineFeed_intercalate (by simpa using whole), words_intercalate (by simpa using whole)]
    rfl
  | cons first rest =>
    rw [String.intercalate_cons_cons, String.append_assoc, beforeLineFeed_append _ whole.solid,
      beforeLineFeed_append _ (by decide), String.words, String.toList_append, String.toList_append]
    change (Text.words (head.toList ++ ' ' :: _)).map String.ofList = _
    rw [words_append_blank _ _ (by decide), words_word whole]
    simp [carried, String.words]

/-- What a daemon understands when a command is sent. -/
def received (command : Command) : Option Command :=
  (String.fromUTF8? (Server.firstLine (Client.request command))).map Command.parse

private theorem received_line (command : Command) :
    received command = some (Command.parse (beforeLineFeed command.line ++ "\n")) := by
  rw [received, Client.request, firstLine_toUTF8, fromUTF8?_eq_some.mpr rfl]
  rfl

theorem received_preCommit (files : List String) :
    received (.preCommit files) = some (.preCommit (carried files)) := by
  rw [received_line, Command.line, Command.parse, words_line files (by decide)]
  rfl

private theorem received_prePush (commit : String) (files : List String) :
    received (.prePush commit files) =
      some (match carried (commit :: files) with
        | [] => .invalid "pre-push" "pre-push requires a commit reference"
        | commit :: files => .prePush commit files) := by
  rw [received_line, Command.line, Command.parse, words_line (commit :: files) (by decide)]
  cases carried (commit :: files) <;> rfl

theorem received_prePush_iff {commit : String} {files : List String} :
    received (.prePush commit files) = some (.prePush commit files) ↔
      ∀ argument ∈ commit :: files, IsWord argument := by
  rw [← carried_eq_iff, received_prePush]
  cases carried (commit :: files) <;> simp

theorem received_preCommit_iff {files : List String} :
    received (.preCommit files) = some (.preCommit files) ↔ ∀ file ∈ files, IsWord file := by
  rw [← carried_eq_iff, received_preCommit]
  simp

/-- The command of a hook arrives as it was sent exactly if the places of its files are words, and so
is the commit that it names. -/
theorem received_eq_iff {disk : Disk} {directory : Path} {mode : Mode} {files : List Path}
    {command : Command} (sent : daemonCommand mode (files.map (absolutize disk directory)) = some command) :
    received command = some command ↔
      (∀ file ∈ files, IsWord (absolutize disk directory file).text) ∧
        ∀ commit, mode = .prePush commit → IsWord commit := by
  cases mode with
  | workingDirectory => cases sent
  | preCommit =>
    cases sent
    rw [received_preCommit_iff]
    simp
  | prePush commit =>
    cases sent
    rw [received_prePush_iff]
    simp [and_comm]

theorem received_commit_and_file :
    daemonCommand (.prePush "HEAD~1") ([⟨"src//A.kt"⟩].map (absolutize ⟨[], 0⟩ ⟨"/repo"⟩)) =
        some (.prePush "HEAD~1" ["/repo/src/A.kt"]) ∧
      (received (.prePush "HEAD~1" ["/repo/src/A.kt"]) = some (.prePush "HEAD~1" ["/repo/src/A.kt"]) ↔
        (∀ file ∈ [⟨"src//A.kt"⟩], IsWord (absolutize ⟨[], 0⟩ ⟨"/repo"⟩ file).text) ∧
          ∀ commit, Mode.prePush "HEAD~1" = .prePush commit → IsWord commit) := by
  have sent : daemonCommand (.prePush "HEAD~1") ([⟨"src//A.kt"⟩].map (absolutize ⟨[], 0⟩ ⟨"/repo"⟩)) =
      some (.prePush "HEAD~1" ["/repo/src/A.kt"]) := by decide +kernel
  exact ⟨sent, received_eq_iff sent⟩

/-- A file with a blank in its name arrives as two. -/
theorem blank_divides_argument :
    ¬ ∀ (disk : Disk) (directory : Path) (mode : Mode) (files : List Path) (command : Command),
      daemonCommand mode (files.map (absolutize disk directory)) = some command →
        received command = some command := by
  intro faithful
  have sent : daemonCommand .preCommit ([⟨"my file.kt"⟩].map (absolutize ⟨[], 0⟩ ⟨"/repo"⟩)) =
      some (.preCommit ["/repo/my file.kt"]) := by decide +kernel
  have whole := received_preCommit_iff.mp (faithful _ _ _ _ _ sent) _ List.mem_cons_self
  exact absurd whole (by decide)

end StagedFormat.Proofs.CommandTransmission
