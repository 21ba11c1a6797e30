import StagedFormat.Proofs.SourceAssignments

/-! The lines of a formatted text. Read again, it has no blanks at the end of a line and single spaces
inside; a line starts with the blanks that the same line of the source starts with, or with none. -/

namespace StagedFormat.Proofs.SourceLines
open StagedFormat.Source TextPieces SourceReading SourceSpacing SourceFixedPoints SourceNormalForm SourceAssignments

/-- What the blanks of a formatted text are like. Literals and block comments are tokens, so nothing
is said of what is inside them. -/
structure LaidOut (tokens : List Token) : Prop where
  /-- No blank stands directly before a line feed or the end of the text. -/
  trailing : ∀ front back, tokens = front ++ back → (∀ token ∈ back.head?, token = .newline) →
    ∀ c ∈ (spelled front).getLast?, ¬ isBlank c
  /-- A run of blanks that does not start its line is one space. -/
  interior : ∀ front run back, tokens = front ++ .blanks run :: back → AtStart front ∨ run = [' ']

/-- The line with this many line feeds before it starts with exactly these blanks. -/
structure Begins (text : List Char) (line : Nat) (run after : List Char) : Prop where
  place : ∃ before, text = before ++ (run ++ after) ∧ (∀ c ∈ before.getLast?, c = '\n') ∧
    before.count '\n' = line
  blank : ∀ c ∈ run, isBlank c
  ends : ∀ c ∈ after.head?, ¬ isBlank c

/-- The lines of a formatted text begin as those of its source do. -/
structure SameIndents (source formatted : List Char) : Prop where
  /-- Where a line begins with blanks, the same line of the source begins with exactly these. -/
  written : ∀ line run after, Begins formatted line run after → run ≠ [] →
    ∃ more, Begins source line run more
  /-- A line that has more than blanks keeps those that it begins with. -/
  kept : ∀ line run after, Begins source line run after → ¬ AtLineEnd after →
    ∃ more, Begins formatted line run more

/-! ### The tokens of a formatted text -/

def Shown (previous : Option Token) : Prop :=
  ∀ token ∈ previous, ∀ c ∈ token.spelling.getLast?, ¬ isBlank c

/-- What may come behind a token of a formatted text: a line feed not behind a blank, and blanks
inside a line only as one space. -/
def Follows (previous : Option Token) : Token → Prop
  | .newline => Shown previous
  | .blanks run => (∀ token ∈ previous, IsLineEnd token) ∨ run = [' ']
  | _ => True

/-- Tokens that come one behind the other as in a formatted text, the first one behind this. -/
inductive Laid : Option Token → List Token → Prop where
  | done {previous} : Shown previous → Laid previous []
  | next {previous token rest} : Follows previous token → Laid (some token) rest →
      Laid previous (token :: rest)

theorem Laid.split {previous : Option Token} {front back : List Token}
    (laid : Laid previous (front ++ back)) : Laid (front.getLast?.or previous) back := by
  induction front generalizing previous with
  | nil => exact laid
  | cons token front ih =>
    cases laid with
    | next _ later =>
      have last : (token :: front).getLast?.or previous = front.getLast?.or (some token) := by
        rw [List.getLast?_cons]
        cases front.getLast? <;> rfl
      rw [last]
      exact ih later

private theorem shown_lineEnd {token : Token} (ends : IsLineEnd token) : Shown (some token) := by
  intro other same c last
  obtain rfl := Option.some.inj same
  rcases ends with rfl | rfl
  all_goals
    obtain rfl := Option.some.inj last
    decide

private theorem follows_lineEnd {previous : Token} (ends : IsLineEnd previous) (token : Token) :
    Follows (some previous) token := by
  cases token with
  | newline => exact shown_lineEnd ends
  | blanks run =>
    left
    intro other same
    exact Option.some.inj same ▸ ends
  | crlf | quoted | raw | lineComment | blockComment | assign | other => trivial

theorem Laid.behind_lineEnd {previous other : Token} {rest : List Token}
    (laid : Laid (some previous) rest) (ends : IsLineEnd other) : Laid (some other) rest := by
  cases laid with
  | done => exact .done (shown_lineEnd ends)
  | next _ later => exact .next (follows_lineEnd ends _) later

/-- The token that was written last, while the layout is at this gap. -/
structure Awaits (previous : Option Token) (gap : Gap) : Prop where
  start : ∀ indent, gap = .lineStart indent → ∀ token ∈ previous, IsLineEnd token
  visible : Shown previous

theorem Awaits.widen {previous : Option Token} {gap : Gap} (awaits : Awaits previous gap)
    (run : List Char) : Awaits previous (gap.widen run) := by
  refine ⟨?_, awaits.visible⟩
  cases gap with
  | lineStart indent => exact fun _ _ => awaits.start indent rfl
  | inLine spaced => exact fun _ => nofun

private theorem awaits_following {before : Option Char} {text : List Char} {token : Token}
    (stands : Stands before text token) (solid : ∀ run, token ≠ .blanks run) :
    Awaits (some (trimmed token)) (following token) := by
  constructor
  · intro indent start other same
    obtain rfl := Option.some.inj same
    cases token with
    | newline => exact .inl rfl
    | crlf => exact .inr rfl
    | blanks | quoted | raw | lineComment | blockComment | assign | other => cases start
  · intro other same
    obtain rfl := Option.some.inj same
    rw [spelling_trimmed]
    exact last_kept stands solid

/-- The layout's blanks in front of a token that is no line end. -/
theorem Awaits.follows_lead {previous : Option Token} {gap : Gap} (awaits : Awaits previous gap)
    {token : Token} (some : lead gap token ≠ []) : Follows previous (.blanks (lead gap token)) := by
  cases gap with
  | lineStart indent => exact .inl (awaits.start indent rfl)
  | inLine spaced =>
    right
    cases token <;> cases spaced <;> first | rfl | exact absurd rfl some

/-- A token whose only demand on the one before concerns line feeds. -/
theorem follows_solid {previous : Option Token} {token : Token} (solid : ∀ run, token ≠ .blanks run)
    (apart : token = .newline → Shown previous) : Follows previous token := by
  cases token with
  | blanks run => exact absurd rfl (solid run)
  | newline => exact apart rfl
  | crlf | quoted | raw | lineComment | blockComment | assign | other => trivial

theorem Awaits.laid_lead {previous : Option Token} {gap : Gap} (awaits : Awaits previous gap)
    {token : Token} {rest : List Token}
    (laid : ∀ before, (token = .newline → Shown before) → Laid before rest) :
    Laid previous (spaces (lead gap token) ++ rest) := by
  unfold spaces
  split
  · exact laid previous fun _ => awaits.visible
  · next some =>
    apply Laid.next (awaits.follows_lead some)
    apply laid
    rintro rfl
    exact absurd rfl some

private theorem laid_rejoined {before : Option Char} {text : List Char} {tokens : List Token} {gap : Gap}
    {previous : Option Token} (reads : Reads before text tokens) (awaits : Awaits previous gap) :
    Laid previous (rejoined (respaced gap tokens)) := by
  induction reads generalizing gap previous with
  | done => exact .done awaits.visible
  | @next before text token tokens stands _ ih =>
    by_cases solid : ∀ run, token ≠ .blanks run
    · have later := ih (awaits_following stands solid)
      rw [respaced_cons gap solid, rejoined_spaces]
      apply awaits.laid_lead
      intro before apart
      by_cases whole : unreturned (trimmed token) = none ∨
          ∀ others, respaced (following token) tokens ≠ .newline :: others
      · rw [rejoined_cons whole]
        exact .next (follows_solid (trimmed_solid solid) fun same => apart (newline_of_trimmed same)) later
      · -- A line feed comes to a carriage return, so what is in front of that may be a blank.
        obtain ⟨ends, fed⟩ := not_or.mp whole
        obtain ⟨short, ends⟩ := Option.ne_none_iff_exists'.mp ends
        obtain ⟨others, fed⟩ := not_forall_not.mp fed
        rw [fed, rejoined_cons (.inl rfl)] at later
        rw [fed, rejoined_return ends]
        cases later with
        | next _ later =>
          have crlf (before : Option Token) : Laid before (.crlf :: rejoined others) :=
            .next trivial (later.behind_lineEnd (.inr rfl))
          obtain ⟨_, rfl⟩ | ⟨text, _, rfl⟩ := unreturned_cases ends
          · exact crlf before
          · exact .next trivial (crlf _)
    · obtain ⟨run, rfl⟩ := not_forall_not.mp solid
      exact ih (awaits.widen run)

theorem Laid.laidOut {text : List Char} {tokens : List Token} (laid : Laid none tokens)
    (reads : Reads none text tokens) : LaidOut tokens := by
  constructor
  case trailing =>
    rintro front back rfl ends c last
    rcases front.eq_nil_or_concat' with rfl | ⟨earlier, token, rfl⟩
    · cases last
    have later := laid.split
    rw [List.getLast?_concat, Option.some_or] at later
    rw [List.append_assoc] at reads
    rw [last_spelled (stands_split reads).nonempty] at last
    cases later with
    | done visible => exact visible token rfl c last
    | next follows _ =>
      obtain rfl := ends _ rfl
      exact follows token rfl c last
  case interior =>
    rintro front run back rfl
    have later := laid.split
    rw [Option.or_none] at later
    cases later with
    | next follows _ => exact follows

/-! ### Line feeds and the tokens that they belong to -/

private theorem place_of_append {front back before after : List Char} {c : Char}
    (whole : front ++ back = before ++ c :: after) :
    (∃ more, before = front ++ more ∧ back = more ++ c :: after) ∨
      ∃ rest, front = before ++ c :: rest ∧ after = rest ++ back := by
  rcases List.append_eq_append_iff.mp whole with ⟨more, same, later⟩ | ⟨more, same, later⟩
  · exact .inl ⟨more, same, later⟩
  · cases more with
    | nil => exact .inl ⟨[], by simpa using same.symm, by simpa using later.symm⟩
    | cons d more =>
      obtain ⟨rfl, tail⟩ := List.cons.inj later
      exact .inr ⟨more, same, tail⟩

private theorem spelled_place {tokens : List Token} {before after : List Char} {c : Char}
    (whole : spelled tokens = before ++ c :: after) :
    ∃ front token back inner rest, tokens = front ++ token :: back ∧
      token.spelling = inner ++ c :: rest ∧ before = spelled front ++ inner ∧
      after = rest ++ spelled back := by
  induction tokens generalizing before with
  | nil => simp [spelled] at whole
  | cons token tokens ih =>
    rcases place_of_append whole with ⟨more, rfl, later⟩ | ⟨rest, here, later⟩
    · obtain ⟨front, other, back, inner, rest, rfl, split, rfl, rfl⟩ := ih later
      refine ⟨token :: front, other, back, inner, rest, rfl, split, ?_, rfl⟩
      rw [spelled_cons, List.append_assoc]
    · exact ⟨[], token, tokens, before, rest, rfl, here, rfl, later⟩

/-- What is visible in the layout of some tokens was written for one of them. -/
theorem layout_place {gap : Gap} {tokens : List Token} {before after : List Char} {c : Char}
    (blank : Blank gap) (runs : ∀ run, .blanks run ∈ tokens → ∀ c ∈ run, isBlank c)
    (visible : ¬ isBlank c) (whole : layout gap tokens = before ++ c :: after) :
    ∃ front token back inner rest, tokens = front ++ token :: back ∧ (∀ run, token ≠ .blanks run) ∧
      kept token = inner ++ c :: rest ∧
      before = layout gap front ++ (lead (front.foldl Gap.after gap) token ++ inner) ∧
      after = rest ++ layout (following token) back := by
  induction tokens generalizing gap before with
  | nil => simp [layout] at whole
  | cons token tokens ih =>
    have later {gap : Gap} (blank : Blank gap) {before : List Char}
        (whole : layout gap tokens = before ++ c :: after) :=
      ih blank (fun run member => runs run (.tail token member)) whole
    by_cases solid : ∀ run, token ≠ .blanks run
    · rw [layout_cons gap solid] at whole
      rcases place_of_append whole with ⟨behind, rfl, body⟩ | ⟨rest, here, _⟩
      · rcases place_of_append body with ⟨more, rfl, tail⟩ | ⟨rest, here, tail⟩
        · obtain ⟨front, other, back, inner, rest, rfl, code, split, rfl, rfl⟩ :=
            later (.following token) tail
          refine ⟨token :: front, other, back, inner, rest, rfl, code, split, ?_, rfl⟩
          rw [List.foldl_cons, Gap.after_solid gap solid, layout_cons gap solid]
          simp only [List.append_assoc]
        · exact ⟨[], token, tokens, behind, rest, rfl, solid, here, rfl, tail⟩
      · have member : c ∈ lead gap token := here ▸ by simp
        exact absurd (blank.lead token c member) visible
    · obtain ⟨run, rfl⟩ := not_forall_not.mp solid
      have widened := blank.widen (runs run List.mem_cons_self)
      obtain ⟨front, other, back, inner, rest, rfl, code, split, rfl, rfl⟩ := later widened whole
      exact ⟨.blanks run :: front, other, back, inner, rest, rfl, code, split, rfl, rfl⟩

private theorem inside_line {quote : Char} {text : List Char} (inside : Inside quote text) : '\n' ∉ text := by
  induction inside with
  | empty => exact List.not_mem_nil
  | escaped line _ ih => simp [line.symm, ih]
  | plain line _ _ _ ih => simp [line.symm, ih]

/-- Where a line feed is in a token, the token ends with it or goes on with more than blanks. -/
theorem lineFeed_cases {before : Option Char} {text front back : List Char} {token : Token}
    (stands : Stands before text token) (split : token.spelling = front ++ '\n' :: back) :
    IsLineEnd token ∧ back = [] ∨ kept token = token.spelling ∧ ∃ c ∈ back, ¬ isBlank c := by
  have member : '\n' ∈ token.spelling := split ▸ by simp
  -- A token with a line feed inside ends in something else.
  have goesOn (last : ∀ c ∈ token.spelling.getLast?, c ≠ '\n' ∧ ¬ isBlank c) : ∃ c ∈ back, ¬ isBlank c := by
    rw [split] at last
    rcases back.eq_nil_or_concat' with rfl | ⟨back, c, rfl⟩
    · exact absurd rfl (last '\n' List.getLast?_concat).1
    · refine ⟨c, by simp, (last c ?_).2⟩
      rw [← List.cons_append, ← List.append_assoc, List.getLast?_concat]
      rfl
  cases token with
  | newline =>
    refine .inl ⟨.inl rfl, ?_⟩
    cases front with
    | nil => exact (List.cons.inj split).2.symm
    | cons c front => simp [Token.spelling] at split
  | crlf =>
    refine .inl ⟨.inr rfl, ?_⟩
    have short := congrArg List.length split
    simp only [Token.spelling, List.length_append, List.length_cons, List.length_nil] at short
    cases front with
    | nil => simp [Token.spelling] at split
    | cons d front =>
      rw [List.length_cons] at short
      exact List.length_eq_zero_iff.mp (by omega)
  | blanks run => exact absurd (stands.2.1 '\n' member) (by decide)
  | assign => simp [Token.spelling] at member
  | other d =>
    obtain rfl := List.mem_singleton.mp member
    exact absurd List.mem_cons_self stands.2.1
  | quoted literal =>
    obtain ⟨quote, inner, mark, inside, rfl, _⟩ := stands
    have line : quote ≠ '\n' := by
      rintro rfl
      revert mark
      decide
    simp [Token.spelling, line.symm, inside_line inside] at member
  | lineComment comment =>
    obtain ⟨inner, rfl, line, _⟩ := stands
    simp [Token.spelling, line] at member
  | raw literal =>
    refine .inr ⟨rfl, goesOn fun c last => ?_⟩
    obtain rfl := last_raw stands last
    decide
  | blockComment comment =>
    refine .inr ⟨rfl, goesOn fun c last => ?_⟩
    obtain rfl := last_blockComment stands last
    decide

/-! ### Where lines start -/

private theorem count_visible (text : List Char) : (visible text).count '\n' = text.count '\n' :=
  List.count_filter rfl

/-- The layout has as many line feeds as its tokens. -/
theorem feeds_front {text : List Char} {front back : List Token} (reads : Reads none text (front ++ back)) :
    (layout (.lineStart []) front).count '\n' = (spelled front).count '\n' := by
  rw [← count_visible, ← count_visible (spelled front), visible_front reads]

/-- The layout has as many line feeds before a place in a token as the source has. -/
theorem feeds_place {text : List Char} {front back : List Token} {token : Token}
    (reads : Reads none text (front ++ token :: back)) (inner : List Char) :
    (layout (.lineStart []) front ++ (lead (gapAfter front) token ++ inner)).count '\n' =
      (spelled front ++ inner).count '\n' := by
  have led : (lead (gapAfter front) token).count '\n' = 0 := by
    apply List.count_eq_zero.mpr
    intro member
    exact absurd ((blank_gapAfter reads).lead token '\n' member) (by decide)
  simp only [List.count_append, led, feeds_front reads, Nat.zero_add]

private theorem spelling_kept (token : Token) : ∃ dropped, token.spelling = kept token ++ dropped := by
  cases token with
  | lineComment comment =>
    obtain ⟨dropped, split, _⟩ := dropEndWhile_split isBlank comment
    exact ⟨dropped, split⟩
  | blanks | newline | crlf | quoted | raw | blockComment | assign | other =>
    exact ⟨[], (List.append_nil _).symm⟩

private theorem kept_lineEnd {token : Token} (ends : IsLineEnd token) : kept token = token.spelling := by
  rcases ends with rfl | rfl <;> rfl

/-- One line of the source and of its layout, each with the text after it. -/
inductive Line : List Char → List Char → Prop where
  | visible {run c given written} : (∀ c ∈ run, isBlank c) → ¬ isBlank c →
      Line (run ++ c :: given) (run ++ c :: written)
  | blank {run given written} : (∀ c ∈ run, isBlank c) → AtLineEnd given → AtLineEnd written →
      Line (run ++ given) written

private theorem line_solid {text run : List Char} {front back : List Token} (reads : Reads none text (front ++ back))
    (blank : ∀ c ∈ run, isBlank c) (solid : ∀ token ∈ back.head?, ∀ run, token ≠ .blanks run) :
    Line (run ++ spelled back) (layout (.lineStart run) back) := by
  cases back with
  | nil => exact .blank blank (.inl rfl) (.inl rfl)
  | cons token rest =>
    by_cases ends : IsLineEnd token
    · rcases ends with rfl | rfl
      · exact .blank blank (.inr (.inl ⟨_, rfl⟩)) (.inr (.inl ⟨_, rfl⟩))
      · exact .blank blank (.inr (.inr ⟨_, rfl⟩)) (.inr (.inr ⟨_, rfl⟩))
    · have inner : Inner token := ⟨solid token rfl, ends⟩
      have stands := stands_split reads
      obtain ⟨c, inside, spelling, opens, spells⟩ := kept_opening stands
      have visible := solid_visible stands inner.solid c (by rw [spells]; rfl)
      rw [layout_cons _ inner.solid, inner.indented, spelled_cons, spells, opens]
      exact .visible blank visible

private theorem line_fresh {text : List Char} {front back : List Token} (reads : Reads none text (front ++ back)) :
    Line (spelled back) (layout (.lineStart []) back) := by
  by_cases solid : ∀ token ∈ back.head?, ∀ run, token ≠ .blanks run
  · exact line_solid reads (List.forall_mem_nil _) solid
  · push Not at solid
    obtain ⟨token, first, run, rfl⟩ := solid
    obtain ⟨rest, rfl⟩ := List.head?_eq_some_iff.mp first
    have blank := (stands_split reads).2.1
    rw [List.append_cons] at reads
    refine line_solid reads blank fun token next other same => ?_
    obtain ⟨later, rfl⟩ := List.head?_eq_some_iff.mp next
    subst same
    exact not_blanks_twice reads

private theorem line_within {rest : List Char} (more : ∃ c ∈ rest, ¬ isBlank c) (given written : List Char) :
    Line (rest ++ given) (rest ++ written) := by
  obtain ⟨d, member, seen⟩ := more
  obtain ⟨run, later, rfl, blank, stop⟩ := blanks_split rest
  cases later with
  | nil =>
    rw [List.append_nil] at member
    exact absurd (blank d member) seen
  | cons c later =>
    rw [List.append_assoc, List.append_assoc]
    exact .visible blank (stop c rfl)

private theorem line_behind {text : List Char} {front back : List Token} {token : Token}
    (reads : Reads none text (front ++ token :: back)) (ends : IsLineEnd token) :
    Line (spelled back) (layout (following token) back) := by
  rw [List.append_cons] at reads
  rw [following_lineEnd ends]
  exact line_fresh reads

private theorem atLineEnd_visible {text : List Char} (final : AtLineEnd text) : ∀ c ∈ text.head?, ¬ isBlank c := by
  rcases final with rfl | ⟨rest, rfl⟩ | ⟨rest, rfl⟩ <;> simp [isBlank]

/-- A text that begins with blanks and another character begins with these blanks only. -/
theorem leading_unique {indent rest run after : List Char} {c : Char} (first : ∀ c ∈ indent, isBlank c)
    (visible : ¬ isBlank c) (blank : ∀ c ∈ run, isBlank c) (ends : ∀ c ∈ after.head?, ¬ isBlank c)
    (same : indent ++ c :: rest = run ++ after) : indent = run := by
  refine (parts_of_eq first blank ?_ (List.cons_ne_nil c rest) ends same).1
  rintro _ ⟨⟩
  exact visible

theorem Line.written_run {given run after : List Char} (line : Line given (run ++ after)) (some : run ≠ [])
    (blank : ∀ c ∈ run, isBlank c) (ends : ∀ c ∈ after.head?, ¬ isBlank c) :
    ∃ more, given = run ++ more ∧ ∀ c ∈ more.head?, ¬ isBlank c := by
  generalize whole : run ++ after = written at line
  cases line with
  | @visible indent c rest _ first visible =>
    obtain rfl := leading_unique first visible blank ends whole.symm
    exact ⟨c :: rest, rfl, by simpa using visible⟩
  | blank _ _ final =>
    obtain ⟨c, rest, rfl⟩ := List.exists_cons_of_ne_nil some
    exact absurd (blank c List.mem_cons_self) (atLineEnd_visible final c (by rw [← whole]; rfl))

theorem Line.given_run {written run after : List Char} (line : Line (run ++ after) written)
    (blank : ∀ c ∈ run, isBlank c) (ends : ∀ c ∈ after.head?, ¬ isBlank c) (goes : ¬ AtLineEnd after) :
    ∃ more, written = run ++ more ∧ ∀ c ∈ more.head?, ¬ isBlank c := by
  generalize whole : run ++ after = given at line
  cases line with
  | @visible indent c _ rest first visible =>
    obtain rfl := leading_unique first visible blank ends whole.symm
    exact ⟨c :: rest, rfl, by simpa using visible⟩
  | blank first final _ =>
    have some : after ≠ [] := fun none => goes (.inl none)
    obtain ⟨_, rfl⟩ := parts_of_eq blank first ends some (atLineEnd_visible final) whole
    exact absurd final goes

/-- Each line of the layout is one of the source. -/
theorem line_of_layout {text before after : List Char} {tokens : List Token}
    (reads : Reads none text tokens) (whole : layout (.lineStart []) tokens = before ++ after)
    (starts : ∀ c ∈ before.getLast?, c = '\n') :
    ∃ given later, spelled tokens = given ++ later ∧ (∀ c ∈ given.getLast?, c = '\n') ∧
      given.count '\n' = before.count '\n' ∧ Line later after := by
  rcases before.eq_nil_or_concat' with rfl | ⟨before, c, rfl⟩
  · rw [List.nil_append] at whole
    exact ⟨[], spelled tokens, rfl, nofun, rfl, whole ▸ @line_fresh text [] tokens reads⟩
  obtain rfl := starts c List.getLast?_concat
  rw [List.append_assoc, List.singleton_append] at whole
  obtain ⟨front, token, back, inner, rest, rfl, _, here, rfl, rfl⟩ :=
    layout_place (by simp [Blank, Gap.text]) (fun _ => blank_runs reads) (by decide) whole
  obtain ⟨dropped, spelling⟩ := spelling_kept token
  rw [here, List.append_assoc, List.cons_append] at spelling
  refine ⟨spelled front ++ (inner ++ ['\n']), rest ++ dropped ++ spelled back, ?_, ?_, ?_, ?_⟩
  · rw [spelled_append, spelled_cons, spelling]
    simp
  · simp
  · have feeds := feeds_place reads (inner ++ ['\n'])
    simp only [List.append_assoc] at feeds ⊢
    exact feeds.symm
  · rcases lineFeed_cases (stands_split reads) spelling with ⟨ends, none⟩ | ⟨same, more⟩
    · obtain ⟨rfl, rfl⟩ := List.append_eq_nil_iff.mp none
      exact line_behind reads ends
    · obtain rfl : dropped = [] := by
        rw [here, spelling] at same
        simpa using same
      rw [List.append_nil] at more ⊢
      exact line_within more _ _

/-- Each line of the source is one of the layout. -/
theorem line_of_spelled {text before after : List Char} {tokens : List Token}
    (reads : Reads none text tokens) (whole : spelled tokens = before ++ after)
    (starts : ∀ c ∈ before.getLast?, c = '\n') :
    ∃ written later, layout (.lineStart []) tokens = written ++ later ∧
      (∀ c ∈ written.getLast?, c = '\n') ∧ written.count '\n' = before.count '\n' ∧
      Line after later := by
  rcases before.eq_nil_or_concat' with rfl | ⟨before, c, rfl⟩
  · rw [List.nil_append] at whole
    exact ⟨[], layout (.lineStart []) tokens, rfl, nofun, rfl, whole ▸ @line_fresh text [] tokens reads⟩
  obtain rfl := starts c List.getLast?_concat
  rw [List.append_assoc, List.singleton_append] at whole
  obtain ⟨front, token, back, inner, rest, rfl, spelling, rfl, rfl⟩ := spelled_place whole
  have stands := stands_split reads
  have solid : ∀ run, token ≠ .blanks run := by
    rintro run rfl
    have member : '\n' ∈ (Token.blanks run).spelling := by
      rw [spelling]
      simp
    exact absurd (stands.2.1 '\n' member) (by decide)
  have places := lineFeed_cases stands spelling
  have same : kept token = token.spelling := places.elim (fun first => kept_lineEnd first.1) And.left
  refine ⟨layout (.lineStart []) front ++ (lead (gapAfter front) token ++ (inner ++ ['\n'])),
    rest ++ layout (following token) back, ?_, ?_, ?_, ?_⟩
  · rw [layout_solid front solid, same, spelling]
    simp
  · simp [← List.append_assoc]
  · rw [feeds_place reads, List.append_assoc]
  · rcases places with ⟨ends, rfl⟩ | ⟨_, more⟩
    · exact line_behind reads ends
    · exact line_within more _ _

/-- A formatted text can be read again, and its tokens are laid out. Its lines begin as those of the
source do. -/
theorem format_lines {source formatted : String} (done : format source = .ok formatted) :
    (∃ tokens, lex formatted.toList = .ok tokens ∧ LaidOut tokens) ∧
      SameIndents source.toList formatted.toList := by
  obtain ⟨tokens, reads, written⟩ := format_eq_ok_iff.mp done
  have spelling : spelled tokens = source.toList := reads.spelling
  constructor
  · have blank : Blank (.lineStart []) := by simp [Blank, Gap.text]
    have agrees : Agrees none source.toList none (.lineStart []) := by simp [Agrees, Apart]
    have awaits : Awaits none (.lineStart []) := ⟨by simp, by simp [Shown]⟩
    have again := reads_layout reads blank agrees
    have laid := laid_rejoined reads awaits
    exact ⟨_, lex_iff.mpr (written ▸ again), laid.laidOut again⟩
  constructor
  case written =>
    rintro line run after ⟨⟨before, whole, starts, rfl⟩, blank, ends⟩ some
    obtain ⟨given, later, place, first, count, same⟩ := line_of_layout reads (written ▸ whole) starts
    obtain ⟨more, rfl, visible⟩ := same.written_run some blank ends
    exact ⟨more, ⟨given, spelling ▸ place, first, count⟩, blank, visible⟩
  case kept =>
    rintro line run after ⟨⟨before, whole, starts, rfl⟩, blank, ends⟩ goes
    obtain ⟨laid, later, place, first, count, same⟩ := line_of_spelled reads (spelling ▸ whole) starts
    obtain ⟨more, rfl, visible⟩ := same.given_run blank ends goes
    exact ⟨more, ⟨laid, written ▸ place, first, count⟩, blank, visible⟩

theorem format_lines_indented :
    format "x=1 \n\t y  z\n  \n" = .ok "x = 1\n\t y z\n\n" ∧
      (∃ tokens, lex "x = 1\n\t y z\n\n".toList = .ok tokens ∧ LaidOut tokens) ∧
        SameIndents "x=1 \n\t y  z\n  \n".toList "x = 1\n\t y z\n\n".toList := by
  have done : format "x=1 \n\t y  z\n  \n" = .ok "x = 1\n\t y z\n\n" := by cbv
  exact ⟨done, format_lines done⟩

end StagedFormat.Proofs.SourceLines
