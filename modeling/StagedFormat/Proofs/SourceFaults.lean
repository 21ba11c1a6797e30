import StagedFormat.Proofs.SourceNormalForm

/-! The sources that the formatter turns down. It reads token after token; the first literal or block
comment that nothing closes is the fault, on the line where it is opened. -/

namespace StagedFormat.Proofs.SourceFaults
open StagedFormat.Source SourceReading SourceSpacing SourceNormalForm

/-- These tokens are read one after the other, and `rest` is left. -/
inductive Passes : Option Char → List Token → List Char → Prop where
  | done {before rest} : Passes before [] rest
  | next {before token tokens rest} : Stands before (spelled tokens ++ rest) token →
      Passes token.spelling.getLast? tokens rest → Passes before (token :: tokens) rest

/-- The text opens a literal or a comment that it does not close. -/
inductive LeftOpen : Unterminated → List Char → Prop where
  | raw {inner} : ¬ tripleMarks <:+: inner → LeftOpen .literal (tripleMarks ++ inner)
  /-- `Inside` stops at a line feed, so a quotation mark on a later line closes nothing. -/
  | quoted {quote inner} : quote = '"' ∨ quote = '\'' → (quote = '"' → ¬ ['"', '"'] <+: inner) →
      (∀ body after, Inside quote body → inner ≠ body ++ quote :: after) →
      LeftOpen .literal (quote :: inner)
  | comment {inner} : ¬ ['*', '/'] <:+: inner → LeftOpen .comment ('/' :: '*' :: inner)

/-! ### Literals and comments that nothing closes -/

private theorem closeRaw_eq_none (text : List Char) : closeRaw text = none ↔ ¬ tripleMarks <:+: text := by
  fun_induction closeRaw text with
  | case1 => simp [tripleMarks]
  | case2 rest =>
    have here : tripleMarks <:+: '"' :: '"' :: '"' :: rest := List.IsPrefix.isInfix ⟨rest, rfl⟩
    simp [here]
  | case3 c rest other ih =>
    rw [Option.map_eq_none_iff, ih, List.infix_cons_iff, not_or, iff_and_self]
    rintro _ ⟨after, opened⟩
    obtain ⟨rfl, tail⟩ := List.cons.inj opened
    exact other after rfl tail.symm

private theorem closeComment_eq_none (text : List Char) :
    closeComment text = none ↔ ¬ ['*', '/'] <:+: text := by
  fun_induction closeComment text with
  | case1 => simp
  | case2 rest =>
    have here : ['*', '/'] <:+: '*' :: '/' :: rest := List.IsPrefix.isInfix ⟨rest, rfl⟩
    simp [here]
  | case3 c rest other ih =>
    rw [Option.map_eq_none_iff, ih, List.infix_cons_iff, not_or, iff_and_self]
    rintro _ ⟨after, opened⟩
    obtain ⟨rfl, tail⟩ := List.cons.inj opened
    exact other after rfl tail.symm

private theorem closeQuoted_eq_none {quote : Char} (mark : quote = '"' ∨ quote = '\'') (text : List Char) :
    closeQuoted quote text = none ↔
      ∀ body after, Inside quote body → text ≠ body ++ quote :: after := by
  constructor
  · intro none body after inside whole
    have found : closeQuoted quote (body ++ quote :: after) = some (body ++ [quote], after) := by
      cases mark with
      | inl same => exact inside.close (by simp [same]) (by simp [same]) after
      | inr same => exact inside.close (by simp [same]) (by simp [same]) after
    rw [whole, found] at none
    cases none
  · intro unclosed
    cases found : closeQuoted quote text with
    | none => rfl
    | some read =>
      obtain ⟨body, inside, shape⟩ := inside_of_closeQuoted found
      have whole := closeQuoted_append found
      rw [shape, List.append_assoc] at whole
      exact absurd whole.symm (unclosed body _ inside)

private theorem closed_error {token : List Char → Token} {opening : List Char}
    {fault kind : Unterminated} {found : Option (List Char × List Char)} :
    closed token opening fault found = .error kind ↔ found = none ∧ kind = fault := by
  cases found with
  | none => simp [closed, eq_comm]
  | some read => simp [closed]

/-- The lexer stops exactly at what is left open. -/
theorem first_error_iff {before : Option Char} {c : Char} {rest : List Char} {kind : Unterminated} :
    Token.first before c rest = .error kind ↔ LeftOpen kind (c :: rest) := by
  constructor
  · intro failed
    unfold Token.first at failed
    split at failed
    case h_3 =>
      obtain ⟨none, rfl⟩ := closed_error.mp failed
      exact .raw ((closeRaw_eq_none _).mp none)
    case h_4 other =>
      obtain ⟨none, rfl⟩ := closed_error.mp failed
      apply LeftOpen.quoted (.inl rfl)
      · intro _ ⟨after, opened⟩
        exact other after opened.symm
      · exact (closeQuoted_eq_none (.inl rfl) _).mp none
    case h_5 =>
      obtain ⟨none, rfl⟩ := closed_error.mp failed
      exact .quoted (.inr rfl) nofun ((closeQuoted_eq_none (.inr rfl) _).mp none)
    case h_7 =>
      obtain ⟨none, rfl⟩ := closed_error.mp failed
      exact .comment ((closeComment_eq_none _).mp none)
    case h_9 => split at failed <;> cases failed
    all_goals cases failed
  · intro opened
    generalize whole : c :: rest = text at opened
    cases opened with
    | @raw inner unclosed =>
      obtain ⟨rfl, rfl⟩ := List.cons.inj whole
      exact closed_error.mpr ⟨(closeRaw_eq_none inner).mpr unclosed, rfl⟩
    | @comment inner unclosed =>
      obtain ⟨rfl, rfl⟩ := List.cons.inj whole
      exact closed_error.mpr ⟨(closeComment_eq_none inner).mpr unclosed, rfl⟩
    | @quoted quote inner mark single unclosed =>
      obtain ⟨rfl, rfl⟩ := List.cons.inj whole
      have none := (closeQuoted_eq_none mark rest).mpr unclosed
      cases mark with
      | inr same =>
        subst same
        exact closed_error.mpr ⟨none, rfl⟩
      | inl same =>
        subst same
        rw [Token.first]
        · exact closed_error.mpr ⟨none, rfl⟩
        · intro after opened
          exact single rfl ⟨after, opened.symm⟩

/-! ### Reading up to a place -/

private theorem passes_append {before : Option Char} {front back : List Token} {rest : List Char} :
    Passes before (front ++ back) rest ↔
      Passes before front (spelled back ++ rest) ∧
        Passes ((spelled front).getLast?.or before) back rest := by
  induction front generalizing before with
  | nil => exact ⟨fun passes => ⟨.done, passes⟩, fun both => both.2⟩
  | cons token front ih =>
    have last {text : List Char} (stands : Stands before text token) :
        (spelled (token :: front)).getLast?.or before =
          (spelled front).getLast?.or token.spelling.getLast? := by
      rw [spelled_cons, List.getLast?_append, Option.or_assoc,
        List.getLast?_eq_some_getLast stands.nonempty, Option.some_or]
    constructor
    · intro passes
      cases passes with
      | next stands later =>
        obtain ⟨earlier, more⟩ := ih.mp later
        rw [List.append_eq, spelled_append, List.append_assoc] at stands
        rw [last stands]
        exact ⟨.next stands earlier, more⟩
    · intro ⟨passes, more⟩
      cases passes with
      | next stands later =>
        rw [last stands] at more
        rw [← List.append_assoc, ← spelled_append] at stands
        exact .next stands (ih.mpr ⟨later, more⟩)

private theorem passes_single {before : Option Char} {token : Token} {rest : List Char} :
    Passes before [token] rest ↔ Stands before rest token := by
  constructor
  · intro passes
    cases passes with
    | next stands _ => exact stands
  · intro stands
    exact .next stands .done

theorem passes_concat {front : List Token} {token : Token} {rest : List Char} :
    Passes none (front ++ [token]) rest ↔
      Passes none front (token.spelling ++ rest) ∧ Stands (spelled front).getLast? rest token := by
  have single : spelled [token] = token.spelling := List.append_nil _
  rw [passes_append, passes_single, Option.or_none, single]

theorem lexFrom_stands {before : Option Char} {token : Token} {text : List Char}
    (stands : Stands before text token) (line : Nat) :
    lexFrom before line (token.spelling ++ text) =
      (lexFrom token.spelling.getLast? (line + token.spelling.count '\n') text).map (token :: ·) := by
  obtain ⟨c, rest, opens⟩ := List.exists_cons_of_ne_nil stands.nonempty
  have first : Token.first before c (rest ++ text) = .ok (token, text) :=
    first_of_stands stands (by rw [opens]; rfl)
  conv => lhs; rw [opens, List.cons_append, Source.lexFrom]
  split
  · next failed =>
    rw [first] at failed
    cases failed
  · next found =>
    cases first.symm.trans found
    rfl

/-- The lexer reads what passes and goes on with what is left, on the line where that starts. -/
theorem Passes.lexFrom {before : Option Char} {front : List Token} {rest : List Char}
    (passes : Passes before front rest) (line : Nat) :
    lexFrom before line (spelled front ++ rest) =
      (Source.lexFrom ((spelled front).getLast?.or before) (line + (spelled front).count '\n') rest).map
        (front ++ ·) := by
  induction passes generalizing line with
  | @done before rest =>
    change Source.lexFrom before line rest = (Source.lexFrom before line rest).map fun tokens => tokens
    cases Source.lexFrom before line rest <;> rfl
  | @next before token tokens rest stands _ ih =>
    have last := List.getLast?_eq_some_getLast stands.nonempty
    rw [spelled_cons, List.append_assoc, lexFrom_stands stands, ih, List.count_append, Nat.add_assoc,
      List.getLast?_append, Option.or_assoc, last, Option.some_or]
    cases Source.lexFrom _ _ rest <;> rfl

theorem lexFrom_leftOpen {kind : Unterminated} {text : List Char} (opened : LeftOpen kind text)
    (before : Option Char) (line : Nat) : lexFrom before line text = .error (kind.error line) := by
  have some : text ≠ [] := by cases opened <;> simp [tripleMarks]
  obtain ⟨c, rest, rfl⟩ := List.exists_cons_of_ne_nil some
  have first : Token.first before c rest = .error kind := first_error_iff.mpr opened
  rw [Source.lexFrom]
  split
  · next failed =>
    cases first.symm.trans failed
    rfl
  · next read => cases first.symm.trans read

/-- The lexer fails where the tokens in front of it are read and what is left opens no token. -/
theorem lexFrom_error_iff {before : Option Char} {line : Nat} {text : List Char} {fault : FormatError} :
    lexFrom before line text = .error fault ↔
      ∃ front rest kind, text = spelled front ++ rest ∧ Passes before front rest ∧ LeftOpen kind rest ∧
        fault = kind.error (line + (spelled front).count '\n') := by
  constructor
  · intro failed
    fun_induction Source.lexFrom before line text with
    | case1 => cases failed
    | case2 before line c rest kind first =>
      cases failed
      exact ⟨[], c :: rest, kind, rfl, .done, first_error_iff.mp first, rfl⟩
    | case3 before line c rest token after first _ ih =>
      cases read : Source.lexFrom token.spelling.getLast? (line + token.spelling.count '\n') after with
      | ok tokens =>
        rw [read] at failed
        cases failed
      | error later =>
        rw [read] at failed
        cases failed
        obtain ⟨front, rest, kind, rfl, passes, opened, rfl⟩ := ih read
        refine ⟨token :: front, rest, kind, ?_, .next (stands_of_first first) passes, opened, ?_⟩
        · rw [spelled_cons, List.append_assoc]
          exact (Token.first_append first).symm
        · rw [spelled_cons, List.count_append, Nat.add_assoc]
  · rintro ⟨front, rest, kind, whole, passes, opened, same⟩
    rw [whole, passes.lexFrom, same, lexFrom_leftOpen opened]
    rfl

/-- Formatting fails exactly if the source opens a literal or a comment that it does not close. The
error says which of both the first such one is, and the line where it is opened. -/
theorem format_error_iff (source : String) (fault : FormatError) :
    format source = .error fault ↔
      ∃ front rest kind, source.toList = spelled front ++ rest ∧ Passes none front rest ∧
        LeftOpen kind rest ∧ fault = kind.error (1 + (spelled front).count '\n') := by
  rw [← lexFrom_error_iff, format, formatChars, lex]
  cases lexFrom none 1 source.toList <;> simp [Except.map]

/-- The escaped quotation mark and the one in the comment close nothing; the line feeds in the comment
and in the raw literal count. -/
example : format "/* \" \n */ x=\"\"\"\n\"\"\"\r\n  '\\'\n'" = .error (.unterminatedLiteral 4) := by cbv

end StagedFormat.Proofs.SourceFaults
