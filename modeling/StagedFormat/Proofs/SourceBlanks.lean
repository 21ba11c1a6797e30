import StagedFormat.Proofs.SourceAssignments
import StagedFormat.Proofs.SourceFaults

/-! How the blanks of a line are written makes no difference to the result, be it a text or a fault.
Next to an assignment it makes no difference either whether blanks are written at all. -/

namespace StagedFormat.Proofs.SourceBlanks
open StagedFormat.Source SourceReading SourceSpacing SourceFixedPoints SourceNormalForm SourceAssignments
open SourceFaults

/-- The equals sign that these tokens and this text have between them is an assignment. -/
structure Assigns (front : List Token) (rest : List Char) : Prop where
  passes : Passes none front ('=' :: rest)
  before : ∀ c ∈ (spelled front).getLast?, c ∉ operatorCharacters
  single : rest.head? ≠ some '='
  arrow : rest.head? ≠ some '>'

/-- One text becomes the other by a change of blanks that the formatter decides on. -/
inductive Reblanked : List Char → List Char → Prop where
  /-- A whole run of blanks that does not start its line becomes another one. -/
  | between {front run other rest} : Passes none (front ++ [.blanks run]) rest → ¬ AtStart front →
      other ≠ [] → (∀ c ∈ other, isBlank c) →
      Reblanked (spelled front ++ (run ++ rest)) (spelled front ++ (other ++ rest))
  | behind {front run rest} : Assigns front rest → (∀ c ∈ run, isBlank c) →
      Reblanked (spelled front ++ '=' :: rest) (spelled front ++ '=' :: (run ++ rest))
  | before {front run rest} : Assigns front rest → ¬ Opens front → (∀ c ∈ run, isBlank c) →
      Reblanked (spelled front ++ '=' :: rest) (spelled front ++ (run ++ '=' :: rest))

/-! ### What a token sees of the text after it -/

private theorem atLineEnd_append {front text other : List Char} (nonempty : front ≠ [])
    (feeds : text.head? = some '\n' ↔ other.head? = some '\n') :
    AtLineEnd (front ++ text) ↔ AtLineEnd (front ++ other) := by
  have feed (text : List Char) : ['\n'] <+: text ↔ text.head? = some '\n' := by
    cases text <;> simp [eq_comm]
  obtain ⟨c, front, rfl⟩ := List.exists_cons_of_ne_nil nonempty
  cases front with
  | nil => simp [AtLineEnd, List.cons_prefix_cons, feed, feeds]
  | cons d front => simp [AtLineEnd, List.cons_prefix_cons]

/-- A token sees no more than the next character and whether the line ends. -/
theorem stands_congr {before : Option Char} {text other : List Char} {token : Token}
    (stands : Stands before text token) (head : text.head? = other.head?)
    (ends : AtLineEnd text ↔ AtLineEnd other) : Stands before other token := by
  cases token with
  | lineComment comment =>
    obtain ⟨inner, shape, line, finished, apart⟩ := stands
    exact ⟨inner, shape, line, ends.mp finished, head ▸ apart⟩
  | newline | crlf | blockComment => exact stands
  | blanks | quoted | raw | assign | other =>
    simp only [Stands] at stands ⊢
    rwa [← head]

private theorem head?_append_congr {front text other : List Char} (head : text.head? = other.head?) :
    (front ++ text).head? = (front ++ other).head? := by
  rw [List.head?_append, List.head?_append, head]

private theorem passes_congr {before : Option Char} {front : List Token} {text other : List Char}
    (passes : Passes before front text) (head : text.head? = other.head?)
    (ends : AtLineEnd text ↔ AtLineEnd other) : Passes before front other := by
  induction passes with
  | done => exact .done
  | @next _ _ tokens _ stands _ ih =>
    refine .next (stands_congr stands (head?_append_congr head) ?_) (ih head ends)
    by_cases none : spelled tokens = []
    · rwa [none]
    · exact atLineEnd_append none (by rw [head])

/-! ### Blanks behind a token -/

/-- Blanks may come behind a token, unless they would belong to it. -/
theorem stands_before_blank {before : Option Char} {text other : List Char} {token : Token}
    (stands : Stands before text token) (solid : ∀ run, token ≠ .blanks run)
    (inside : ¬ AtLineEnd text)
    (equals : token.spelling = ['='] → text.head? ≠ some '=' ∧ text.head? ≠ some '>')
    {c : Char} (head : other.head? = some c) (blank : isBlank c) : Stands before other token := by
  have apart {d : Char} (visible : isBlank d = false) : other.head? ≠ some d := by
    intro same
    obtain rfl := Option.some.inj (head.symm.trans same)
    rw [blank] at visible
    cases visible
  cases token with
  | blanks run => exact absurd rfl (solid run)
  | newline | crlf | blockComment => exact stands
  | lineComment comment =>
    obtain ⟨_, _, _, finished, _⟩ := stands
    exact absurd finished inside
  | quoted literal =>
    obtain ⟨quote, inner, mark, valid, shape, _⟩ := stands
    exact ⟨quote, inner, mark, valid, shape, fun _ _ => apart (by decide)⟩
  | raw literal =>
    obtain ⟨inner, marks, shape, ends, repeated, _⟩ := stands
    exact ⟨inner, marks, shape, ends, repeated, apart (by decide)⟩
  | assign =>
    obtain ⟨bare, _⟩ := isBareEquals_iff.mp stands
    exact isBareEquals_iff.mpr ⟨bare, apart (by decide), apart (by decide)⟩
  | other d =>
    obtain ⟨visible, special, _, _, joined⟩ := stands
    refine ⟨visible, special, fun _ => apart (by decide),
      fun _ => ⟨apart (by decide), apart (by decide)⟩, ?_⟩
    intro same
    obtain ⟨line, arrow⟩ := equals (by rw [same]; rfl)
    have before := joined same
    rw [Bool.eq_false_iff, ne_eq, isBareEquals_iff] at before ⊢
    exact fun bare => before ⟨bare.1, line, arrow⟩

private theorem not_atLineEnd {text : List Char} {c : Char} (head : text.head? = some c) (line : c ≠ '\n')
    (ret : c ≠ '\r') : ¬ AtLineEnd text := by
  obtain ⟨rest, rfl⟩ := List.head?_eq_some_iff.mp head
  simp [AtLineEnd, List.cons_prefix_cons, line.symm, ret.symm]

private theorem blank_line {c : Char} (blank : isBlank c) : c ≠ '\n' ∧ c ≠ '\r' := by
  constructor <;>
    · rintro rfl
      cases blank

/-- Blanks may come behind the last of some tokens, unless they would belong to it. -/
theorem passes_before_blank {front : List Token} {token : Token} {text other : List Char}
    (passes : Passes none (front ++ [token]) text) (solid : ∀ run, token ≠ .blanks run)
    (inside : ¬ AtLineEnd text)
    (equals : token.spelling = ['='] → text.head? ≠ some '=' ∧ text.head? ≠ some '>')
    {c : Char} (head : other.head? = some c) (blank : isBlank c) :
    Passes none (front ++ [token]) other := by
  obtain ⟨earlier, stands⟩ := passes_concat.mp passes
  have nonempty := stands.nonempty
  refine passes_concat.mpr ⟨passes_congr earlier ?_ (atLineEnd_append nonempty ?_),
    stands_before_blank stands solid inside equals head blank⟩
  · rw [List.head?_append_of_ne_nil _ nonempty, List.head?_append_of_ne_nil _ nonempty]
  · have feeds : text.head? ≠ some '\n' := by
      intro opened
      obtain ⟨rest, rfl⟩ := List.head?_eq_some_iff.mp opened
      exact inside (.inr (.inl ⟨rest, rfl⟩))
    have blanks : other.head? ≠ some '\n' := by
      rw [head]
      exact fun same => (blank_line blank).1 (Option.some.inj same)
    exact iff_of_false feeds blanks

/-- A run of blanks that does not start its line comes behind another token of that line. -/
theorem inner_before_blanks {front : List Token} {run rest : List Char}
    (passes : Passes none (front ++ [.blanks run]) rest) (inside : ¬ AtStart front) :
    ∃ earlier token, front = earlier ++ [token] ∧ Inner token := by
  rcases front.eq_nil_or_concat' with rfl | ⟨earlier, token, rfl⟩
  · exact absurd nofun inside
  refine ⟨earlier, token, rfl, ?_, fun ends => inside (by simpa [AtStart] using ends)⟩
  rintro other rfl
  obtain ⟨before, nonempty, blanks, _⟩ := passes_concat.mp passes
  obtain ⟨_, _, _, stop⟩ := passes_concat.mp before
  obtain ⟨c, run, rfl⟩ := List.exists_cons_of_ne_nil nonempty
  exact stop c rfl (blanks c List.mem_cons_self)

private theorem passes_reblanked {front : List Token} {run other rest : List Char}
    (passes : Passes none (front ++ [.blanks run]) rest) (some : other ≠ [])
    (blank : ∀ c ∈ other, isBlank c) : Passes none (front ++ [.blanks other]) rest := by
  obtain ⟨earlier, nonempty, blanks, stop⟩ := passes_concat.mp passes
  refine passes_concat.mpr ⟨?_, some, blank, stop⟩
  obtain ⟨c, run, rfl⟩ := List.exists_cons_of_ne_nil nonempty
  obtain ⟨d, other, rfl⟩ := List.exists_cons_of_ne_nil some
  have here := blanks c List.mem_cons_self
  have there := blank d List.mem_cons_self
  rcases front.eq_nil_or_concat' with rfl | ⟨front, token, rfl⟩
  · exact .done
  · refine passes_before_blank earlier ?_ ?_ ?_ rfl there
    · rintro run rfl
      obtain ⟨_, _, _, stop⟩ := passes_concat.mp earlier
      exact stop c rfl here
    · exact not_atLineEnd rfl (blank_line here).1 (blank_line here).2
    · intro _
      constructor <;>
        · intro same
          obtain rfl := Option.some.inj same
          cases here

/-! ### The result from a place on -/

private theorem stands_elsewhere {before other : Option Char} {text : List Char} {token : Token}
    (stands : Stands before text token)
    (same : token.spelling.head? = some '=' → (Apart before ↔ Apart other)) :
    Stands other text token := by
  cases token with
  | assign =>
    obtain ⟨bare, after⟩ := isBareEquals_iff.mp stands
    exact isBareEquals_iff.mpr ⟨(same rfl).mp bare, after⟩
  | other d =>
    obtain ⟨visible, special, returned, slash, joined⟩ := stands
    refine ⟨visible, special, returned, slash, ?_⟩
    intro equals
    have here := joined equals
    rw [Bool.eq_false_iff, ne_eq, isBareEquals_iff] at here ⊢
    exact fun ⟨bare, after⟩ => here ⟨(same (congrArg some equals)).mpr bare, after⟩
  | blanks | newline | crlf | quoted | raw | lineComment | blockComment => exact stands

/-- What is read from a place on only depends on the character in front if an equals sign comes next. -/
theorem lexFrom_before {before other : Option Char} {text : List Char}
    (same : text.head? = some '=' → (Apart before ↔ Apart other)) (line : Nat) :
    lexFrom before line text = lexFrom other line text := by
  cases text with
  | nil => simp only [lexFrom]
  | cons c rest =>
    cases found : Token.first before c rest with
    | error kind =>
      have opened := first_error_iff.mp found
      rw [lexFrom_leftOpen opened, lexFrom_leftOpen opened]
    | ok read =>
      obtain ⟨token, after⟩ := read
      have stands := stands_of_first found
      have whole := Token.first_append found
      have elsewhere : Stands other after token := by
        apply stands_elsewhere stands
        intro equals
        apply same
        rw [← whole, List.head?_append_of_ne_nil _ stands.nonempty, equals]
      rw [← whole, lexFrom_stands stands, lexFrom_stands elsewhere]

def formatFrom (gap : Gap) (before : Option Char) (line : Nat) (text : List Char) :
    Except FormatError (List Char) :=
  (lexFrom before line text).map (layout gap)

private theorem formatChars_passes {front : List Token} {rest : List Char} (passes : Passes none front rest) :
    formatChars (spelled front ++ rest) =
      (formatFrom (gapAfter front) (spelled front).getLast? (1 + (spelled front).count '\n') rest).map
        (layout (.lineStart []) front ++ ·) := by
  rw [formatChars, lex, passes.lexFrom, Option.or_none, formatFrom]
  cases lexFrom _ _ rest with
  | error fault => rfl
  | ok back => exact congrArg Except.ok (layout_append _ front back)

private theorem gapAfter_concat (front : List Token) (token : Token) :
    gapAfter (front ++ [token]) = Gap.after (gapAfter front) token := by
  rw [gapAfter, List.foldl_append]
  rfl

/-- Blanks inside a line leave no more than one space behind them. -/
theorem formatChars_blanks {front : List Token} {run rest : List Char} {spaced : Bool}
    (passes : Passes none (front ++ [.blanks run]) rest) (gap : gapAfter front = .inLine spaced) :
    formatChars (spelled front ++ (run ++ rest)) =
      (formatFrom (.inLine true) (some ' ') (1 + (spelled front).count '\n') rest).map
        (layout (.lineStart []) front ++ ·) := by
  obtain ⟨_, nonempty, blanks, _⟩ := passes_concat.mp passes
  have spelling : spelled (front ++ [.blanks run]) = spelled front ++ run := by
    rw [spelled_append]
    exact congrArg _ (List.append_nil run)
  have silent : layout (.lineStart []) (front ++ [.blanks run]) = layout (.lineStart []) front := by
    rw [layout_append]
    exact List.append_nil _
  have feeds : run.count '\n' = 0 := by
    apply List.count_eq_zero.mpr
    exact fun member => (blank_line (blanks _ member)).1 rfl
  have last := List.getLast?_eq_some_getLast nonempty
  have apart : Apart (some (run.getLast nonempty)) := apart_of_blank (blanks _ (List.getLast_mem nonempty))
  have read (line : Nat) :
      lexFrom (some (run.getLast nonempty)) line rest = lexFrom (some ' ') line rest :=
    lexFrom_before (fun _ => iff_of_true apart (apart_of_blank rfl)) line
  rw [← List.append_assoc, ← spelling, formatChars_passes passes, gapAfter_concat, gap, silent, spelling,
    List.count_append, feeds, Nat.add_zero, List.getLast?_append, last, Option.some_or, formatFrom, read]
  rfl

private theorem gapAfter_inner (front : List Token) {token : Token} (inner : Inner token) :
    gapAfter (front ++ [token]) = .inLine (token = .assign) := by
  rw [gapAfter_concat, Gap.after_solid _ inner.solid, inner.following]

private theorem formatChars_between {front : List Token} {run other rest : List Char}
    (passes : Passes none (front ++ [.blanks run]) rest) (inside : ¬ AtStart front) (some : other ≠ [])
    (blank : ∀ c ∈ other, isBlank c) :
    formatChars (spelled front ++ (run ++ rest)) = formatChars (spelled front ++ (other ++ rest)) := by
  obtain ⟨earlier, token, rfl, inner⟩ := inner_before_blanks passes inside
  have gap := gapAfter_inner earlier inner
  rw [formatChars_blanks passes gap, formatChars_blanks (passes_reblanked passes some blank) gap]

/-! ### Blanks next to an assignment -/

private theorem inner_assign : Inner .assign := ⟨nofun, by simp [IsLineEnd]⟩

theorem Assigns.stands {front : List Token} {rest : List Char} (assigns : Assigns front rest) :
    Stands (spelled front).getLast? rest .assign :=
  isBareEquals_iff.mpr ⟨assigns.before, assigns.single, assigns.arrow⟩

theorem Assigns.passes_assign {front : List Token} {rest : List Char} (assigns : Assigns front rest) :
    Passes none (front ++ [.assign]) rest :=
  passes_concat.mpr ⟨assigns.passes, assigns.stands⟩

theorem Assigns.elsewhere {front : List Token} {rest other : List Char} (assigns : Assigns front rest)
    (single : other.head? ≠ some '=') (arrow : other.head? ≠ some '>') : Assigns front other := by
  refine ⟨passes_congr assigns.passes rfl ?_, assigns.before, single, arrow⟩
  have code (text : List Char) : ¬ AtLineEnd ('=' :: text) :=
    not_atLineEnd rfl (by decide) (by decide)
  exact iff_of_false (code rest) (code other)

private theorem formatChars_behind {front : List Token} {run rest : List Char} (assigns : Assigns front rest)
    (blank : ∀ c ∈ run, isBlank c) :
    formatChars (spelled front ++ '=' :: rest) = formatChars (spelled front ++ '=' :: (run ++ rest)) := by
  by_cases nonempty : run = []
  · rw [nonempty, List.nil_append]
  have whole (text : List Char) : spelled front ++ '=' :: text = spelled (front ++ [.assign]) ++ text := by
    rw [spelled_append, List.append_assoc]
    rfl
  have passes := assigns.passes_assign
  obtain ⟨there, later, rfl, blanks, stop⟩ := blanks_split rest
  rw [whole, whole]
  by_cases alone : there = []
  · subst alone
    rw [List.nil_append] at assigns passes ⊢
    obtain ⟨c, more, rfl⟩ := List.exists_cons_of_ne_nil nonempty
    have here : isBlank c := blank c List.mem_cons_self
    have moved : Assigns front (c :: more ++ later) := by
      apply assigns.elsewhere <;>
        · intro same
          obtain rfl := Option.some.inj same
          cases here
    have inserted : Passes none (front ++ [.assign] ++ [.blanks (c :: more)]) later :=
      passes_concat.mpr ⟨moved.passes_assign, nonempty, blank, stop⟩
    have gap := gapAfter_inner front inner_assign
    rw [formatChars_blanks inserted gap, formatChars_passes passes, gap, formatFrom,
      formatFrom, lexFrom_before (fun same => absurd same assigns.single)]
    rfl
  · -- The blanks that are there already and the new ones make one run.
    have inside : ¬ AtStart (front ++ [.assign]) := fun first =>
      inner_assign.goes (first .assign List.getLast?_concat)
    have run_then : Passes none (front ++ [.assign] ++ [.blanks there]) later :=
      passes_concat.mpr ⟨passes, alone, blanks, stop⟩
    rw [← List.append_assoc run]
    apply formatChars_between run_then inside
    · exact List.append_ne_nil_of_left_ne_nil nonempty there
    · exact List.forall_mem_append.mpr ⟨blank, blanks⟩

/-- An assignment inside a line has a space in front of it, due or not. -/
theorem formatFrom_assign {before : Option Char} {rest : List Char} (stands : Stands before rest .assign)
    (spaced : Bool) (line : Nat) :
    formatFrom (.inLine spaced) before line ('=' :: rest) =
      (formatFrom (.inLine true) (some '=') line rest).map ([' ', '='] ++ ·) := by
  have read : lexFrom before line ('=' :: rest) = (lexFrom (some '=') line rest).map (.assign :: ·) :=
    lexFrom_stands stands line
  rw [formatFrom, formatFrom, read]
  cases lexFrom (some '=') line rest <;> rfl

private theorem formatChars_before {front : List Token} {run rest : List Char} (assigns : Assigns front rest)
    (inside : ¬ Opens front) (blank : ∀ c ∈ run, isBlank c) :
    formatChars (spelled front ++ '=' :: rest) = formatChars (spelled front ++ (run ++ '=' :: rest)) := by
  by_cases nonempty : run = []
  · rw [nonempty, List.nil_append]
  rcases front.eq_nil_or_concat' with rfl | ⟨earlier, token, rfl⟩
  · exact absurd (.inl nofun) inside
  by_cases solid : ∀ run, token ≠ .blanks run
  · have goes : ¬ IsLineEnd token := fun ends => inside (.inl (by simpa [AtStart] using ends))
    have gap := gapAfter_inner earlier ⟨solid, goes⟩
    have code : ¬ AtLineEnd ('=' :: rest) := not_atLineEnd rfl (by decide) (by decide)
    obtain ⟨c, more, rfl⟩ := List.exists_cons_of_ne_nil nonempty
    have moved : Passes none (earlier ++ [token]) (c :: more ++ '=' :: rest) := by
      refine passes_before_blank assigns.passes solid code ?_ rfl (blank c List.mem_cons_self)
      intro equals
      have stands := (passes_concat.mp assigns.passes).2
      refine absurd (assigns.before '=' ?_) (by decide)
      rw [last_spelled stands.nonempty, equals]
      rfl
    have inserted : Passes none (earlier ++ [token] ++ [.blanks (c :: more)]) ('=' :: rest) :=
      passes_concat.mpr ⟨moved, nonempty, blank, by simp [isBlank]⟩
    have alone : Stands (some ' ') rest .assign :=
      stands_elsewhere assigns.stands fun _ => iff_of_true assigns.before (apart_of_blank rfl)
    rw [formatChars_blanks inserted gap, formatChars_passes assigns.passes, gap,
      formatFrom_assign assigns.stands, formatFrom_assign alone]
  · obtain ⟨there, rfl⟩ := not_forall_not.mp solid
    have later : ¬ AtStart earlier := fun first => inside (.inr ⟨earlier, there, rfl, first⟩)
    have blanks := (passes_concat.mp assigns.passes).2.2.1
    have whole (text : List Char) :
        spelled (earlier ++ [.blanks there]) ++ text = spelled earlier ++ (there ++ text) := by
      rw [spelled_append, List.append_assoc]
      simp [spelled, Token.spelling]
    rw [whole, whole, ← List.append_assoc there]
    apply formatChars_between assigns.passes later
    · exact List.append_ne_nil_of_right_ne_nil there nonempty
    · exact List.forall_mem_append.mpr ⟨blanks, blank⟩

/-- How blanks are written between the tokens of a line, and next to an assignment whether they are,
makes no difference to the result. -/
theorem format_reblanked {source other : String} (change : Reblanked source.toList other.toList) :
    format other = format source := by
  have same : formatChars source.toList = formatChars other.toList := by
    generalize source.toList = text, other.toList = changed at change
    cases change with
    | between passes inside some blank => exact formatChars_between passes inside some blank
    | behind assigns blank => exact formatChars_behind assigns blank
    | before assigns inside blank => exact formatChars_before assigns inside blank
  rw [format, format, same]

theorem format_reblanked_assignment :
    Reblanked "s='='".toList "s\t ='='".toList ∧ format "s\t ='='" = format "s='='" := by
  have assigns : Assigns [.other 's'] ['\'', '=', '\''] := by
    constructor
    case passes => exact .next (by simp [Stands, spelled, isBlank]) .done
    case before => simp [spelled, Token.spelling, operatorCharacters]
    all_goals simp
  have inside : ¬ Opens [.other 's'] := by
    have inner : Inner (.other 's') := ⟨by simp, by simp [IsLineEnd]⟩
    exact @Inner.not_opens _ inner []
  have change : Reblanked "s='='".toList "s\t ='='".toList :=
    @Reblanked.before _ ['\t', ' '] _ assigns inside (by simp [isBlank])
  exact ⟨change, format_reblanked change⟩

end StagedFormat.Proofs.SourceBlanks
