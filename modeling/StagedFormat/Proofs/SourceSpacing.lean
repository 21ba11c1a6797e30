import Mathlib.Data.List.Permutation
import StagedFormat.Proofs.SourceReading
import StagedFormat.Proofs.TextPieces
import StagedFormat.Source.Layout

/-! The standard layout writes the tokens of the source in their order and decides only on the
blanks between them. -/

namespace StagedFormat.Proofs.SourceSpacing
open StagedFormat.Source TextPieces SourceReading

/-- The characters of a token that every layout keeps. -/
def kept : Token → List Char
  | .lineComment text => Text.dropEndWhile isBlank text
  | token => token.spelling

/-- A text that consists of tokens and of blanks in front of them. -/
inductive Spaced : List Token → List Char → Prop where
  | done : Spaced [] []
  | blanks {run tokens text} : Spaced tokens text → Spaced (.blanks run :: tokens) text
  | token {gap token tokens text} : (∀ c ∈ gap, isBlank c) → (∀ run, token ≠ .blanks run) →
      Spaced tokens text → Spaced (token :: tokens) (gap ++ (kept token ++ text))

def visible (text : List Char) : List Char := text.filter (!isBlank ·)

/-- What the layout writes in front of a token. -/
def lead (gap : Gap) : Token → List Char
  | .newline | .crlf => []
  | .assign => gap.beforeAssign
  | _ => gap.text

def following : Token → Gap
  | .newline | .crlf => .lineStart []
  | .assign => .inLine true
  | _ => .inLine false

theorem layout_cons (gap : Gap) {token : Token} (solid : ∀ run, token ≠ .blanks run)
    (rest : List Token) :
    layout gap (token :: rest) = lead gap token ++ (kept token ++ layout (following token) rest) := by
  cases token with
  | blanks run => exact absurd rfl (solid run)
  | newline | crlf => rfl
  | assign | other | quoted | raw | blockComment | lineComment =>
    simp [layout, lead, kept, following, Token.spelling]

def Blank (gap : Gap) : Prop := ∀ c ∈ gap.text, isBlank c

theorem Blank.widen {gap : Gap} (blank : Blank gap) {run : List Char} (more : ∀ c ∈ run, isBlank c) :
    Blank (gap.widen run) := by
  cases gap with
  | lineStart indent =>
    intro c member
    rcases List.mem_append.mp member with member | member
    · exact blank c member
    · exact more c member
  | inLine spaced => simp [Blank, Gap.widen, Gap.text, isBlank]

theorem Blank.following (token : Token) : Blank (following token) := by
  cases token <;> simp [Blank, SourceSpacing.following, Gap.text, isBlank]

theorem Blank.lead {gap : Gap} (blank : Blank gap) (token : Token) :
    ∀ c ∈ lead gap token, isBlank c := by
  cases token with
  | newline | crlf => simp [SourceSpacing.lead]
  | assign =>
    cases gap with
    | lineStart indent => exact blank
    | inLine spaced => simp [SourceSpacing.lead, Gap.beforeAssign, isBlank]
  | blanks | quoted | raw | lineComment | blockComment | other => exact blank

theorem blanks_split (text : List Char) :
    ∃ run rest, text = run ++ rest ∧ (∀ c ∈ run, isBlank c) ∧ ∀ c ∈ rest.head?, ¬ isBlank c := by
  refine ⟨text.takeWhile isBlank, text.dropWhile isBlank, ?_, fun _ => List.mem_takeWhile_imp, ?_⟩
  · rw [List.takeWhile_append_dropWhile]
  · intro c head
    have stop := List.head?_dropWhile_not isBlank text
    rw [Option.mem_def.mp head] at stop
    simpa using stop

private theorem layout_spaced {before : Option Char} {text : List Char} {tokens : List Token} {gap : Gap}
    (reads : Reads before text tokens) (blank : Blank gap) : Spaced tokens (layout gap tokens) := by
  induction reads generalizing gap with
  | done => exact .done
  | @next before text token tokens stands _ ih =>
    by_cases solid : ∀ run, token ≠ .blanks run
    · rw [layout_cons gap solid]
      exact .token (blank.lead token) solid (ih (.following token))
    · obtain ⟨run, rfl⟩ := not_forall_not.mp solid
      exact .blanks (ih (blank.widen stands.2.1))

theorem visible_append (front back : List Char) :
    visible (front ++ back) = visible front ++ visible back :=
  List.filter_append ..

theorem visible_blanks {run : List Char} (blank : ∀ c ∈ run, isBlank c) : visible run = [] := by
  simpa [visible] using blank

theorem visible_kept (token : Token) : visible (kept token) = visible token.spelling := by
  cases token with
  | lineComment text =>
    obtain ⟨dropped, split, blank⟩ := dropEndWhile_split isBlank text
    calc visible (Text.dropEndWhile isBlank text)
        = visible (Text.dropEndWhile isBlank text) ++ visible dropped := by
          rw [visible_blanks blank, List.append_nil]
      _ = visible text := by rw [← visible_append, ← split]
  | blanks | newline | crlf | quoted | raw | blockComment | assign | other => rfl

theorem Spaced.visible {before : Option Char} {source formatted : List Char} {tokens : List Token}
    (spaced : Spaced tokens formatted) (reads : Reads before source tokens) :
    visible formatted = visible source := by
  induction reads generalizing formatted with
  | done =>
    cases spaced
    rfl
  | next stands _ ih =>
    cases spaced with
    | blanks spaced =>
      rw [ih spaced, visible_append, Token.spelling, visible_blanks stands.2.1, List.nil_append]
    | token blank _ spaced =>
      rw [visible_append, visible_append, visible_append, visible_blanks blank, visible_kept,
        ih spaced, List.nil_append]

theorem format_eq_ok_iff {source formatted : String} : format source = .ok formatted ↔
    ∃ tokens, Reads none source.toList tokens ∧ formatted.toList = layout (.lineStart []) tokens := by
  constructor
  · intro done
    cases read : lex source.toList with
    | error fault => simp [format, formatChars, read, Except.map] at done
    | ok tokens =>
      refine ⟨tokens, lex_iff.mp read, ?_⟩
      simp only [format, formatChars, read, Except.map, Except.ok.injEq] at done
      rw [← done, String.toList_ofList]
  · rintro ⟨tokens, reads, laid⟩
    simp [format, formatChars, lex_iff.mpr reads, Except.map, ← laid]

/-- Formatting writes the tokens of the source in order, literals and block comments as they stand
and line comments up to the blanks at their end, with nothing but blanks between them. Without
blanks, the source and the result are the same text. -/
theorem format_spaces_tokens {source formatted : String} (done : format source = .ok formatted) :
    ∃ tokens, Reads none source.toList tokens ∧ Spaced tokens formatted.toList ∧
      visible formatted.toList = visible source.toList := by
  obtain ⟨tokens, reads, laid⟩ := format_eq_ok_iff.mp done
  have spaced : Spaced tokens formatted.toList := by
    rw [laid]
    exact layout_spaced reads (by simp [Blank, Gap.text])
  exact ⟨tokens, reads, spaced, spaced.visible reads⟩

theorem format_spaces_tokens_quotes :
    ∃ tokens, Reads none "x  ='' // a=b  \r\n".toList tokens ∧ Spaced tokens "x = '' // a=b\r\n".toList ∧
      visible "x = '' // a=b\r\n".toList = visible "x  ='' // a=b  \r\n".toList :=
  format_spaces_tokens (by cbv)

end StagedFormat.Proofs.SourceSpacing
