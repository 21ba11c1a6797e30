import Mathlib.Data.List.TakeWhile
import StagedFormat.Source.Lexer

/-! The tokens of a text, said without the lexer: what each kind of token holds and what may stand
next to it. The lexer reads the tokens that this grammar allows, and there is one way to do so. -/

namespace StagedFormat.Proofs.SourceReading
open StagedFormat.Source

/-- What may stand between two equal quotation marks. -/
inductive Inside (quote : Char) : List Char → Prop where
  | empty : Inside quote []
  | escaped {c text} : c ≠ '\n' → Inside quote text → Inside quote ('\\' :: c :: text)
  | plain {c text} : c ≠ '\n' → c ≠ quote → c ≠ '\\' → Inside quote text → Inside quote (c :: text)

structure EndsAt (mark text : List Char) : Prop where
  ends : mark <:+ text
  first : ∀ front back, text = front ++ mark ++ back → back = []

def tripleMarks : List Char := ['"', '"', '"']

def AtLineEnd (text : List Char) : Prop := text = [] ∨ ['\n'] <+: text ∨ ['\r', '\n'] <+: text

/-- What a token needs of its own characters, of the character in front of it, and of the text
after it. -/
def Stands (before : Option Char) (text : List Char) : Token → Prop
  | .blanks run => run ≠ [] ∧ (∀ c ∈ run, isBlank c) ∧ ∀ c ∈ text.head?, ¬ isBlank c
  | .newline | .crlf => True
  | .quoted literal => ∃ quote inner, (quote = '"' ∨ quote = '\'') ∧ Inside quote inner ∧
      literal = quote :: (inner ++ [quote]) ∧ (quote = '"' → inner = [] → text.head? ≠ some '"')
  | .raw literal => ∃ inner marks, literal = tripleMarks ++ (inner ++ marks) ∧
      EndsAt tripleMarks inner ∧ (∀ c ∈ marks, c = '"') ∧ text.head? ≠ some '"'
  | .lineComment comment => ∃ inner, comment = '/' :: '/' :: inner ∧ '\n' ∉ inner ∧
      AtLineEnd text ∧ (text.head? = some '\n' → inner.getLast? ≠ some '\r')
  | .blockComment comment => ∃ inner, comment = '/' :: '*' :: inner ∧ EndsAt ['*', '/'] inner
  | .assign => isBareEquals before text.head? = true
  | .other c => isBlank c = false ∧ c ∉ ['\n', '"', '\''] ∧
      (c = '\r' → text.head? ≠ some '\n') ∧
      (c = '/' → text.head? ≠ some '/' ∧ text.head? ≠ some '*') ∧
      (c = '=' → isBareEquals before text.head? = false)

/-- The tokens of a text that follows the character `before`. -/
inductive Reads : Option Char → List Char → List Token → Prop where
  | done {before} : Reads before [] []
  | next {before text token tokens} : Stands before text token →
      Reads token.spelling.getLast? text tokens →
      Reads before (token.spelling ++ text) (token :: tokens)

theorem inside_of_closeQuoted {quote : Char} {s text rest : List Char}
    (closed : closeQuoted quote s = some (text, rest)) :
    ∃ inner, Inside quote inner ∧ text = inner ++ [quote] := by
  fun_induction closeQuoted quote s generalizing text with
  | case1 | case2 | case3 | case5 => simp at closed
  | case4 c s visible ih =>
    simp only [Option.map_eq_some_iff, Prod.mk.injEq, Prod.exists] at closed
    obtain ⟨inside, after, found, rfl, rfl⟩ := closed
    obtain ⟨inner, valid, rfl⟩ := ih found
    exact ⟨'\\' :: c :: inner, .escaped visible valid, rfl⟩
  | case6 c s =>
    obtain ⟨rfl, rfl⟩ := Prod.mk.inj (Option.some.inj closed)
    exact ⟨[], .empty, rfl⟩
  | case7 c s last escape visible different ih =>
    simp only [Option.map_eq_some_iff, Prod.mk.injEq, Prod.exists] at closed
    obtain ⟨inside, after, found, rfl, rfl⟩ := closed
    obtain ⟨inner, valid, rfl⟩ := ih found
    have plain : c ≠ '\\' := by
      rintro rfl
      cases s with
      | nil => exact last rfl rfl
      | cons d s => exact escape d s rfl rfl
    exact ⟨c :: inner, .plain visible different plain valid, rfl⟩

theorem Inside.close {quote : Char} {inner : List Char} (valid : Inside quote inner)
    (code : quote ≠ '\\') (visible : quote ≠ '\n') (rest : List Char) :
    closeQuoted quote (inner ++ quote :: rest) = some (inner ++ [quote], rest) := by
  induction valid with
  | empty => simp [closeQuoted, code, visible]
  | escaped visible _ ih => simp [closeQuoted, visible, ih]
  | plain visible different plain _ ih => simp [closeQuoted, visible, different, plain, ih]

namespace EndsAt
variable {mark text : List Char} {c : Char}

private theorem self (mark : List Char) : EndsAt mark mark := by
  refine ⟨List.suffix_refl mark, fun front back whole => ?_⟩
  have lengths := congrArg List.length whole
  simp only [List.length_append] at lengths
  exact List.length_eq_zero_iff.mp (by omega)

private theorem cons (later : EndsAt mark text) (here : ¬ mark <+: c :: text) : EndsAt mark (c :: text) := by
  refine ⟨later.ends.trans (List.suffix_cons c text), fun front back whole => ?_⟩
  cases front with
  | nil => exact absurd ⟨back, by simpa using whole.symm⟩ here
  | cons d front =>
    simp only [List.cons_append, List.cons.injEq] at whole
    exact later.first front back whole.2

private theorem tail (found : EndsAt mark (c :: text)) (here : ¬ mark <+: c :: text) : EndsAt mark text := by
  refine ⟨?_, fun front back whole => found.first (c :: front) back (by simp [whole])⟩
  rcases List.suffix_cons_iff.mp found.ends with same | below
  · exact absurd (same ▸ List.prefix_refl _) here
  · exact below

private theorem eq_mark (found : EndsAt mark text) (here : mark <+: text) : text = mark := by
  obtain ⟨back, rfl⟩ := here
  rw [found.first [] back rfl, List.append_nil]

end EndsAt

/-- The first triple mark of a text, when more of the text follows, is the first of the whole. -/
theorem EndsAt.prefix_of_append {mark inner : List Char} (found : EndsAt mark inner)
    (text : List Char) (here : mark <+: inner ++ text) : mark <+: inner :=
  List.prefix_of_prefix_length_le here (List.prefix_append inner text) found.ends.length_le

private theorem endsAt_of_closeRaw {s text rest : List Char} (closed : closeRaw s = some (text, rest)) :
    ∃ inner marks, text = inner ++ marks ∧ EndsAt tripleMarks inner ∧ (∀ c ∈ marks, c = '"') ∧
      rest.head? ≠ some '"' := by
  fun_induction closeRaw s generalizing text with
  | case1 => simp at closed
  | case2 s =>
    obtain ⟨rfl, rfl⟩ := Prod.mk.inj (Option.some.inj closed)
    refine ⟨tripleMarks, s.takeWhile (· == '"'), rfl, .self _, ?_, ?_⟩
    · intro c member
      simpa using List.mem_takeWhile_imp member
    · intro mark
      have stop := List.head?_dropWhile_not (· == '"') s
      simp [mark] at stop
  | case3 c s other ih =>
    simp only [Option.map_eq_some_iff, Prod.mk.injEq, Prod.exists] at closed
    obtain ⟨inside, after, found, rfl, rfl⟩ := closed
    have whole := closeRaw_append found
    obtain ⟨inner, marks, rfl, ends, repeated, finished⟩ := ih found
    refine ⟨c :: inner, marks, rfl, ends.cons ?_, repeated, finished⟩
    rintro ⟨back, opened⟩
    obtain ⟨rfl, tail⟩ := List.cons.inj opened
    refine other (back ++ (marks ++ after)) rfl ?_
    simpa [← tail] using whole.symm

private theorem run_apart {α : Type} {p : α → Bool} {run text : List α} (inside : ∀ c ∈ run, p c)
    (stop : ∀ c ∈ text.head?, ¬ p c) :
    (run ++ text).takeWhile p = run ∧ (run ++ text).dropWhile p = text := by
  rw [List.takeWhile_append_of_pos inside, List.dropWhile_append_of_pos inside]
  cases text with
  | nil => simp
  | cons c text => simp [stop c rfl]

theorem EndsAt.closeRaw {inner marks rest : List Char} (ends : EndsAt tripleMarks inner)
    (repeated : ∀ c ∈ marks, c = '"') (finished : rest.head? ≠ some '"') :
    closeRaw (inner ++ (marks ++ rest)) = some (inner ++ marks, rest) := by
  by_cases here : tripleMarks <+: inner
  · rw [ends.eq_mark here]
    have stop : ∀ c ∈ rest.head?, ¬ (c == '"') = true := by
      rintro c first same
      exact finished (by rw [Option.mem_def.mp first, beq_iff_eq.mp same])
    obtain ⟨run, after⟩ := run_apart (p := (· == '"')) (by simpa using repeated) stop
    simp [tripleMarks, Source.closeRaw, run, after]
  · cases inner with
    | nil => simpa [tripleMarks] using ends.ends
    | cons c inner =>
      have later := (ends.tail here).closeRaw repeated finished
      have other : ∀ back, c = '"' → inner ++ (marks ++ rest) = '"' :: '"' :: back → False := by
        rintro back rfl opened
        exact here (ends.prefix_of_append (marks ++ rest) ⟨back, by simp [tripleMarks, opened]⟩)
      rw [List.cons_append, Source.closeRaw]
      · simp [later]
      · exact other

private theorem endsAt_of_closeComment {s text rest : List Char}
    (closed : closeComment s = some (text, rest)) : EndsAt ['*', '/'] text := by
  fun_induction closeComment s generalizing text with
  | case1 => simp at closed
  | case2 s =>
    obtain ⟨rfl, rfl⟩ := Prod.mk.inj (Option.some.inj closed)
    exact .self _
  | case3 c s other ih =>
    simp only [Option.map_eq_some_iff, Prod.mk.injEq, Prod.exists] at closed
    obtain ⟨inside, after, found, rfl, rfl⟩ := closed
    have whole := closeComment_append found
    refine (ih found).cons ?_
    rintro ⟨back, opened⟩
    obtain ⟨rfl, tail⟩ := List.cons.inj opened
    refine other (back ++ after) rfl ?_
    simpa [← tail] using whole.symm

theorem EndsAt.closeComment {inner : List Char} (ends : EndsAt ['*', '/'] inner)
    (rest : List Char) : closeComment (inner ++ rest) = some (inner, rest) := by
  by_cases here : ['*', '/'] <+: inner
  · rw [ends.eq_mark here]
    simp [Source.closeComment]
  · cases inner with
    | nil => simpa using ends.ends
    | cons c inner =>
      have later := (ends.tail here).closeComment rest
      have other : ∀ back, c = '*' → inner ++ rest = '/' :: back → False := by
        rintro back rfl opened
        exact here (ends.prefix_of_append rest ⟨back, by simp [opened]⟩)
      rw [List.cons_append, Source.closeComment]
      · simp [later]
      · exact other

private theorem restOfLine_stops (s : List Char) : '\n' ∉ (restOfLine s).1 ∧ AtLineEnd (restOfLine s).2 ∧
    ((restOfLine s).2.head? = some '\n' → (restOfLine s).1.getLast? ≠ some '\r') := by
  fun_induction restOfLine s with
  | case1 => simp [AtLineEnd]
  | case2 rest => simp [AtLineEnd]
  | case3 rest => simp [AtLineEnd]
  | case4 c s feed pair ih =>
    obtain ⟨inside, finished, apart⟩ := ih
    refine ⟨by simp [inside, Ne.symm feed], finished, fun ended => ?_⟩
    have whole := restOfLine_append s
    cases line : (restOfLine s).1 with
    | cons d line => simpa [line] using apart ended
    | nil =>
      obtain ⟨rest, opened⟩ := List.head?_eq_some_iff.mp ended
      rintro returned
      refine pair rest (by simpa using returned) ?_
      rw [← whole, line, List.nil_append, opened]

private theorem restOfLine_of_stops {inner text : List Char} (inside : '\n' ∉ inner) (finished : AtLineEnd text)
    (apart : text.head? = some '\n' → inner.getLast? ≠ some '\r') :
    restOfLine (inner ++ text) = (inner, text) := by
  induction inner with
  | nil =>
    rcases finished with rfl | ⟨rest, rfl⟩ | ⟨rest, rfl⟩ <;> simp [restOfLine]
  | cons c inner ih =>
    simp only [List.mem_cons, not_or] at inside
    have later := ih inside.2 fun ended => by
      cases inner with
      | nil => simp
      | cons d inner => simpa using apart ended
    have pair : ∀ rest, c = '\r' → inner ++ text = '\n' :: rest → False := by
      rintro rest rfl opened
      cases inner with
      | nil => exact apart (by simp at opened; simp [opened]) rfl
      | cons d inner =>
        obtain ⟨rfl, _⟩ := List.cons.inj opened
        simp at inside
    rw [List.cons_append, restOfLine]
    · simp [later]
    · exact fun feed => inside.1 feed.symm
    · exact pair

private theorem closed_ok {token : List Char → Token} {opening rest : List Char}
    {fault : Unterminated} {found : Option (List Char × List Char)} {read : Token}
    (result : closed token opening fault found = .ok (read, rest)) :
    ∃ text, found = some (text, rest) ∧ read = token (opening ++ text) := by
  match found with
  | none => cases result
  | some (text, after) =>
    cases result
    exact ⟨text, rfl, rfl⟩

theorem stands_of_first {before : Option Char} {c : Char} {s rest : List Char} {token : Token}
    (read : Token.first before c s = .ok (token, rest)) : Stands before rest token := by
  unfold Token.first at read
  split at read
  · cases read; trivial
  · cases read; trivial
  · obtain ⟨text, found, rfl⟩ := closed_ok read
    obtain ⟨inner, marks, rfl, ends, repeated, finished⟩ := endsAt_of_closeRaw found
    exact ⟨inner, marks, rfl, ends, repeated, finished⟩
  · next other =>
    obtain ⟨text, found, rfl⟩ := closed_ok read
    have whole := closeQuoted_append found
    obtain ⟨inner, valid, rfl⟩ := inside_of_closeQuoted found
    refine ⟨'"', inner, .inl rfl, valid, rfl, ?_⟩
    rintro _ rfl opened
    obtain ⟨back, rfl⟩ := List.head?_eq_some_iff.mp opened
    exact other back whole.symm
  · obtain ⟨text, found, rfl⟩ := closed_ok read
    obtain ⟨inner, valid, rfl⟩ := inside_of_closeQuoted found
    exact ⟨'\'', inner, .inr rfl, valid, rfl, by simp⟩
  · cases read
    obtain ⟨inside, finished, apart⟩ := restOfLine_stops _
    exact ⟨_, rfl, inside, finished, apart⟩
  · obtain ⟨text, found, rfl⟩ := closed_ok read
    exact ⟨text, rfl, endsAt_of_closeComment found⟩
  · cases read
    split
    · assumption
    · next joined => simpa [Stands, isBlank] using joined
  · next feed double single equals pair triple line block =>
    split at read
    · next blank =>
      cases read
      refine ⟨by simp, ?_, ?_⟩
      · intro d member
        rcases List.mem_cons.mp member with rfl | member
        · exact blank
        · exact List.mem_takeWhile_imp member
      · intro d stop
        have ends := List.head?_dropWhile_not isBlank s
        rw [Option.mem_def.mp stop] at ends
        simpa using ends
    · next visible =>
      cases read
      refine ⟨by simpa using visible, ?_, ?_, ?_, fun same => (equals same).elim⟩
      · simp only [List.mem_cons, List.not_mem_nil, or_false, not_or]
        exact ⟨feed, double, single⟩
      · rintro rfl opened
        obtain ⟨back, rfl⟩ := List.head?_eq_some_iff.mp opened
        exact pair back rfl rfl
      · rintro rfl
        constructor
        all_goals
          intro opened
          obtain ⟨back, rfl⟩ := List.head?_eq_some_iff.mp opened
        · exact line back rfl rfl
        · exact block back rfl rfl

theorem Stands.nonempty {before : Option Char} {text : List Char} {token : Token}
    (stands : Stands before text token) : token.spelling ≠ [] := by
  cases token with
  | blanks run => exact stands.1
  | newline | crlf | assign | other => simp [Token.spelling]
  | quoted literal =>
    obtain ⟨quote, inner, _, _, rfl, _⟩ := stands
    simp [Token.spelling]
  | raw literal =>
    obtain ⟨inner, marks, rfl, _⟩ := stands
    simp [Token.spelling, tripleMarks]
  | lineComment comment =>
    obtain ⟨inner, rfl, _⟩ := stands
    simp [Token.spelling]
  | blockComment comment =>
    obtain ⟨inner, rfl, _⟩ := stands
    simp [Token.spelling]

private theorem first_blanks {before : Option Char} {c : Char} {run text : List Char}
    (blank : ∀ d ∈ c :: run, isBlank d) (stop : ∀ d ∈ text.head?, ¬ isBlank d) :
    Token.first before c (run ++ text) = .ok (.blanks (c :: run), text) := by
  have here : isBlank c := blank c (by simp)
  obtain ⟨taken, left⟩ := run_apart (fun d member => blank d (List.mem_cons_of_mem c member)) stop
  have space : c = ' ' ∨ c = '\t' := by simpa [isBlank] using here
  rcases space with rfl | rfl <;> simp [Token.first, taken, left, isBlank]

private theorem first_quoted {before : Option Char} {quote : Char} {inner text : List Char}
    (mark : quote = '"' ∨ quote = '\'') (valid : Inside quote inner)
    (apart : quote = '"' → inner = [] → text.head? ≠ some '"') :
    Token.first before quote (inner ++ [quote] ++ text) =
      .ok (.quoted (quote :: (inner ++ [quote])), text) := by
  have found : closeQuoted quote (inner ++ quote :: text) = some (inner ++ [quote], text) := by
    rcases mark with rfl | rfl <;> exact valid.close (by decide) (by decide) text
  rw [List.append_assoc, List.singleton_append]
  rcases mark with rfl | rfl
  · have single : ∀ rest, inner ++ '"' :: text = '"' :: '"' :: rest → False := by
      intro rest opened
      cases valid with
      | empty => exact apart rfl rfl (by simp at opened; simp [opened])
      | escaped => simp at opened
      | plain _ different => simp [different] at opened
    rw [Token.first]
    · simp [found, closed]
    · exact single
  · simp [Token.first, found, closed]

private theorem first_other {before : Option Char} {c : Char} {text : List Char}
    (stands : Stands before text (.other c)) : Token.first before c text = .ok (.other c, text) := by
  obtain ⟨visible, special, returned, slash, equals⟩ := stands
  simp only [List.mem_cons, List.not_mem_nil, or_false, not_or] at special
  by_cases same : c = '='
  · subst same
    simp [Token.first, equals rfl]
  rw [Token.first]
  · simp [visible]
  · exact special.1
  · exact special.2.1
  · exact special.2.2
  · exact same
  · rintro rest rfl rfl
    exact returned rfl rfl
  · rintro rest rfl
    exact (special.2.1 rfl).elim
  · rintro rest rfl rfl
    exact (slash rfl).1 rfl
  · rintro rest rfl rfl
    exact (slash rfl).2 rfl

theorem first_of_stands {before : Option Char} {c : Char} {s text : List Char} {token : Token}
    (stands : Stands before text token) (whole : c :: s = token.spelling ++ text) :
    Token.first before c s = .ok (token, text) := by
  cases token with
  | newline =>
    obtain ⟨rfl, rfl⟩ := List.cons.inj whole
    rfl
  | crlf =>
    obtain ⟨rfl, rfl⟩ := List.cons.inj whole
    rfl
  | assign =>
    obtain ⟨rfl, rfl⟩ := List.cons.inj whole
    have bare : isBareEquals before s.head? = true := stands
    simp [Token.first, bare]
  | blanks run =>
    obtain ⟨some, blank, stop⟩ := stands
    obtain ⟨d, run, rfl⟩ := List.exists_cons_of_ne_nil some
    obtain ⟨rfl, rfl⟩ := List.cons.inj whole
    exact first_blanks blank stop
  | quoted literal =>
    obtain ⟨quote, inner, mark, valid, rfl, apart⟩ := stands
    obtain ⟨rfl, rfl⟩ := List.cons.inj whole
    exact first_quoted mark valid apart
  | raw literal =>
    obtain ⟨inner, marks, rfl, ends, repeated, finished⟩ := stands
    obtain ⟨rfl, rfl⟩ := List.cons.inj whole
    simp [Token.first, ends.closeRaw repeated finished, closed, tripleMarks]
  | lineComment comment =>
    obtain ⟨inner, rfl, inside, finished, apart⟩ := stands
    obtain ⟨rfl, rfl⟩ := List.cons.inj whole
    simp [Token.first, restOfLine_of_stops inside finished apart]
  | blockComment comment =>
    obtain ⟨inner, rfl, ends⟩ := stands
    obtain ⟨rfl, rfl⟩ := List.cons.inj whole
    simp [Token.first, ends.closeComment, closed]
  | other d =>
    obtain ⟨rfl, rfl⟩ := List.cons.inj whole
    exact first_other stands

private theorem reads_of_lexFrom {before : Option Char} {line : Nat} {text : List Char}
    {tokens : List Token} (read : lexFrom before line text = .ok tokens) :
    Reads before text tokens := by
  fun_induction lexFrom before line text generalizing tokens with
  | case1 =>
    cases read
    exact .done
  | case2 => cases read
  | case3 before line c s token after first _ ih =>
    cases later : lexFrom token.spelling.getLast? (line + token.spelling.count '\n') after with
    | error fault => simp [later, Except.map] at read
    | ok rest =>
      simp only [later, Except.map, Except.ok.injEq] at read
      rw [← read, ← Token.first_append first]
      exact .next (stands_of_first first) (ih later)

theorem Reads.lexFrom {before : Option Char} {text : List Char} {tokens : List Token}
    (reads : Reads before text tokens) (line : Nat) : lexFrom before line text = .ok tokens := by
  induction reads generalizing line with
  | done => simp [Source.lexFrom]
  | @next before text token tokens stands _ ih =>
    obtain ⟨c, s, whole⟩ := List.exists_cons_of_ne_nil stands.nonempty
    have first := first_of_stands (c := c) (s := s ++ text) stands (by simp [whole])
    rw [whole, List.cons_append, Source.lexFrom]
    split
    · next failed => simp [first] at failed
    · next found =>
      cases first.symm.trans found
      simp [ih, Except.map]

/-- The lexer reads what the grammar allows, and nothing else. -/
theorem lex_iff {text : List Char} {tokens : List Token} :
    lex text = .ok tokens ↔ Reads none text tokens :=
  ⟨reads_of_lexFrom, fun reads => reads.lexFrom 1⟩

theorem Reads.unique {before : Option Char} {text : List Char} {tokens others : List Token}
    (reads : Reads before text tokens) (again : Reads before text others) : tokens = others :=
  Except.ok.inj ((reads.lexFrom 1).symm.trans (again.lexFrom 1))

/-- The tokens leave nothing of the text out. -/
theorem Reads.spelling {before : Option Char} {text : List Char} {tokens : List Token}
    (reads : Reads before text tokens) : tokens.flatMap Token.spelling = text := by
  induction reads with
  | done => rfl
  | next _ _ ih => rw [List.flatMap_cons, ih]

end StagedFormat.Proofs.SourceReading
