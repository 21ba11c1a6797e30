import StagedFormat.Daemon.Record
import StagedFormat.Proofs.CommandTransmission
import StagedFormat.Proofs.NumberTexts
import StagedFormat.Proofs.ReplyTexts

/-! Records as text. A text is read as a record exactly if it has two words and they are numbers that fit;
so a record is read back from the two numbers that it is written as. -/

namespace StagedFormat.Proofs.RecordTexts
open StagedFormat Daemon TextPieces NumberTexts CommandTransmission ReplyTexts

def Solid (word : List Char) : Prop := word ≠ [] ∧ ∀ c ∈ word, Text.isWhiteSpace c = false

/-- A text and its words: the parts without white space, between white space or the ends of the text. -/
inductive Divides : List Char → List (List Char) → Prop where
  | blank {text} : Blank text → Divides text []
  | word {before word rest words} : Blank before → Solid word → (∀ c ∈ rest.head?, Text.isWhiteSpace c) →
      Divides rest words → Divides (before ++ word ++ rest) (word :: words)

def Shows (text : String) (version port : Nat) : Prop :=
  ∃ first second, Divides text.toList [first, second] ∧ Unsigned first version ∧ Unsigned second port

private theorem words_blank_append {before : List Char} (blank : Blank before) (text : List Char) :
    Text.words (before ++ text) = Text.words text := by
  induction before with
  | nil => rfl
  | cons c before ih =>
    obtain ⟨first, rest⟩ := List.forall_mem_cons.mp blank
    exact (words_append_blank [] (before ++ text) first).trans (ih rest)

private theorem words_blank {text : List Char} (blank : Blank text) : Text.words text = [] := by
  rw [← List.append_nil text, words_blank_append blank, words_nil]

private theorem words_leading {before word rest : List Char} (blank : Blank before) (solid : Solid word)
    (ended : ∀ c ∈ rest.head?, Text.isWhiteSpace c) :
    Text.words (before ++ word ++ rest) = word :: Text.words rest := by
  have alone : Text.words word = [word] := by
    have whole : IsWord (String.ofList word) :=
      ⟨mt String.ofList_eq_empty_iff.mp solid.1, String.toList_ofList ▸ solid.2⟩
    have divided := words_word whole
    rwa [String.toList_ofList] at divided
  rw [List.append_assoc, words_blank_append blank]
  cases rest with
  | nil => rw [List.append_nil, alone, words_nil]
  | cons c rest =>
    have white := ended c rfl
    have onward : Text.words (c :: rest) = Text.words rest := words_append_blank [] rest white
    rw [words_append_blank word rest white, alone, onward, List.singleton_append]

theorem Divides.eq_words {text : List Char} {words : List (List Char)} (divides : Divides text words) :
    Text.words text = words := by
  induction divides with
  | blank blank => exact words_blank blank
  | word blank solid ended _ ih => rw [words_leading blank solid ended, ih]

private theorem leading_word {text : List Char} (visible : ¬ Blank text) :
    ∃ before word rest, text = before ++ word ++ rest ∧ Blank before ∧ Solid word ∧
      ∀ c ∈ rest.head?, Text.isWhiteSpace c := by
  let solid (c : Char) : Bool := !Text.isWhiteSpace c
  have opened := List.takeWhile_append_dropWhile (p := Text.isWhiteSpace) (l := text)
  have blank : Blank (text.takeWhile Text.isWhiteSpace) := fun _ => List.mem_takeWhile_imp
  obtain ⟨c, rest, left⟩ : ∃ c rest, text.dropWhile Text.isWhiteSpace = c :: rest := by
    refine List.exists_cons_of_ne_nil fun none => visible ?_
    rw [none, List.append_nil] at opened
    exact opened ▸ blank
  have first : Text.isWhiteSpace c = false := head?_dropWhile (by rw [left]; rfl)
  refine ⟨_, (c :: rest).takeWhile solid, (c :: rest).dropWhile solid, ?_, blank, ⟨?_, ?_⟩, ?_⟩
  · rw [List.append_assoc, List.takeWhile_append_dropWhile, ← left, opened]
  · simp [solid, first]
  · exact fun c member => by simpa [solid] using List.mem_takeWhile_imp member
  · exact fun c ended => by simpa [solid] using head?_dropWhile ended

private theorem divides_words (text : List Char) : Divides text (Text.words text) := by
  by_cases blank : Blank text
  · exact words_blank blank ▸ .blank blank
  · obtain ⟨before, word, rest, rfl, first, solid, ended⟩ := leading_word blank
    have shorter : rest.length < (before ++ word ++ rest).length := by
      have visible := List.length_pos_of_ne_nil solid.1
      simp only [List.length_append]
      omega
    rw [words_leading first solid ended]
    exact .word first solid ended (divides_words rest)
termination_by text.length

private theorem divides_iff {text : List Char} {words : List (List Char)} :
    Divides text words ↔ Text.words text = words :=
  ⟨Divides.eq_words, fun same => same ▸ divides_words text⟩

private theorem readField_ok {field word : String} {limit number : Nat} :
    Record.readField field limit word = .ok number ↔ Unsigned word.toList number ∧ number ≤ limit := by
  rw [← readNat_iff]
  unfold Record.readField
  cases Text.readNat limit word.toList with
  | ok value => simp only [Except.ok.injEq]
  | error fault => exact ⟨nofun, nofun⟩

private theorem words_pair {text first second : String} :
    text.words = [first, second] ↔ Divides text.toList [first.toList, second.toList] := by
  rw [divides_iff, String.words]
  constructor
  · intro divided
    have parts := congrArg (List.map String.toList) divided
    simpa using parts
  · intro divided
    simp [divided]

/-- A text is read as the record whose numbers it shows. -/
theorem parse_iff {text : String} {record : Record} :
    Record.parse text = .ok record ↔ Shows text record.version.toNat record.port.toNat := by
  constructor
  · intro parsed
    unfold Record.parse at parsed
    split at parsed
    · rename_i first second divided
      cases version : Record.readField "version" (UInt32.size - 1) first with
      | error fault => rw [version] at parsed; cases parsed
      | ok one =>
        cases port : Record.readField "port" (UInt16.size - 1) second with
        | error fault => rw [version, port] at parsed; cases parsed
        | ok other =>
          rw [version, port] at parsed
          cases parsed
          obtain ⟨written, fits⟩ := readField_ok.mp version
          obtain ⟨behind, within⟩ := readField_ok.mp port
          refine ⟨_, _, words_pair.mp divided, ?_, ?_⟩
          · rwa [UInt32.toNat_ofNat_of_lt' (Nat.lt_of_le_pred (by decide) fits)]
          · rwa [UInt16.toNat_ofNat_of_lt' (Nat.lt_of_le_pred (by decide) within)]
    · cases parsed
  · rintro ⟨first, second, divides, written, behind⟩
    have divided : text.words = [String.ofList first, String.ofList second] := by
      rw [words_pair, String.toList_ofList, String.toList_ofList]
      exact divides
    have version : Record.readField "version" (UInt32.size - 1) (String.ofList first) = .ok record.version.toNat :=
      readField_ok.mpr ⟨String.toList_ofList ▸ written, Nat.le_pred_of_lt record.version.toNat_lt⟩
    have port : Record.readField "port" (UInt16.size - 1) (String.ofList second) = .ok record.port.toNat :=
      readField_ok.mpr ⟨String.toList_ofList ▸ behind, Nat.le_pred_of_lt record.port.toNat_lt⟩
    rw [Record.parse, divided]
    simp only [version, port]
    simp [bind, Except.bind, pure, Except.pure]

theorem parse_text (record : Record) : Record.parse record.text = .ok record := by
  have version := unsigned_toString record.version.toNat
  have port := unsigned_toString record.port.toNat
  have gap : Blank [' '] := List.forall_mem_singleton.mpr (by decide)
  have last : Divides ([' '] ++ (toString record.port.toNat).toList ++ []) [(toString record.port.toNat).toList] :=
    .word gap port.solid nofun (.blank nofun)
  have whole : Divides record.text.toList
      [(toString record.version.toNat).toList, (toString record.port.toNat).toList] := by
    have apart : ∀ c ∈ ([' '] ++ (toString record.port.toNat).toList ++ []).head?, Text.isWhiteSpace c := by
      rintro _ ⟨⟩
      exact gap ' ' List.mem_cons_self
    have unindented : Blank [] := nofun
    simpa [Record.text] using Divides.word unindented version.solid apart last
  exact parse_iff.mpr ⟨_, _, whole, version, port⟩

end StagedFormat.Proofs.RecordTexts
