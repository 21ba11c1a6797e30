import StagedFormat.Proofs.SourceFixedPoints

/-! Texts in normal form, said of their tokens and of what stands next to each: the formatter leaves
exactly these texts as they are. -/

namespace StagedFormat.Proofs.SourceNormalForm
open StagedFormat.Source TextPieces SourceReading SourceSpacing SourceFixedPoints

def spelled (tokens : List Token) : List Char := tokens.flatMap Token.spelling

def IsLineEnd (token : Token) : Prop := token = .newline ∨ token = .crlf

/-- What comes after these tokens is at the start of a line. -/
def AtStart (front : List Token) : Prop := ∀ token ∈ front.getLast?, IsLineEnd token

/-- What comes before these tokens is at the end of a line, or of the text. -/
def AtEnd (back : List Token) : Prop := ∀ token ∈ back.head?, IsLineEnd token

/-- The token after these is the first one of its line. -/
def Opens (front : List Token) : Prop :=
  AtStart front ∨ ∃ earlier run, front = earlier ++ [.blanks run] ∧ AtStart earlier

/-- The token before these is the last one of its line. -/
def Closes (back : List Token) : Prop :=
  AtEnd back ∨ ∃ run later, back = .blanks run :: later ∧ AtEnd later

/-- No neighbour makes an operator of an equals sign between these tokens. -/
structure Bare (front back : List Token) : Prop where
  before : ∀ c ∈ (spelled front).getLast?, c ∉ operatorCharacters
  line : (spelled back).head? ≠ some '='
  arrow : (spelled back).head? ≠ some '>'

/-- Literals and block comments are tokens, so nothing is said of the blanks and the equals signs that
are inside them. -/
structure NormalForm (tokens : List Token) : Prop where
  /-- No blank stands directly before a line end or the end of the text. -/
  trailing : ∀ front back, tokens = front ++ back → AtEnd back →
    ∀ c ∈ (spelled front).getLast?, ¬ isBlank c
  /-- A run of blanks that is no indentation is one space. -/
  interior : ∀ front run back, tokens = front ++ .blanks run :: back → AtStart front ∨ run = [' ']
  /-- A bare equals sign has one space on each side, unless it is the first or the last token there. -/
  assigned : ∀ front token back, tokens = front ++ token :: back → token.spelling = ['='] →
    Bare front back →
      (Opens front ∨ front.getLast? = some (.blanks [' '])) ∧
        (Closes back ∨ back.head? = some (.blanks [' ']))

theorem spelled_append (front back : List Token) :
    spelled (front ++ back) = spelled front ++ spelled back := List.flatMap_append

theorem spelled_cons (token : Token) (rest : List Token) :
    spelled (token :: rest) = token.spelling ++ spelled rest := List.flatMap_cons

theorem last_spelled {front : List Token} {token : Token} (some : token.spelling ≠ []) :
    (spelled (front ++ [token])).getLast? = token.spelling.getLast? := by
  have single : spelled [token] = token.spelling := List.append_nil _
  rw [spelled_append, single, List.getLast?_append, List.getLast?_eq_some_getLast some, Option.some_or]

private theorem reads_split {before : Option Char} {text : List Char} {front back : List Token}
    (reads : Reads before text (front ++ back)) :
    Reads ((spelled front).getLast?.or before) (spelled back) back := by
  induction front generalizing before text with
  | nil =>
    rw [← reads.spelling] at reads
    exact reads
  | cons token front ih =>
    cases reads with
    | next stands later =>
      have after := ih later
      have last := List.getLast?_eq_some_getLast stands.nonempty
      rw [spelled_cons, List.getLast?_append, Option.or_assoc, last, Option.some_or]
      rwa [last] at after

theorem stands_split {text : List Char} {front back : List Token} {token : Token}
    (reads : Reads none text (front ++ token :: back)) :
    Stands (spelled front).getLast? (spelled back) token := by
  have later := reads_split reads
  rw [Option.or_none] at later
  generalize whole : spelled (token :: back) = all at later
  cases later with
  | next stands later =>
    rw [spelled_cons, List.append_cancel_left_eq] at whole
    rwa [whole]

theorem not_blanks_twice {text run other : List Char} {front back : List Token} :
    ¬ Reads none text (front ++ [.blanks run] ++ .blanks other :: back) := by
  intro reads
  have second := stands_split reads
  rw [List.append_assoc, List.singleton_append] at reads
  have first := stands_split reads
  obtain ⟨c, rest, rfl⟩ := List.exists_cons_of_ne_nil second.1
  exact first.2.2 c rfl (second.2.1 c List.mem_cons_self)

theorem equals_cases {before : Option Char} {text : List Char} {token : Token}
    (stands : Stands before text token) (equals : token.spelling = ['=']) :
    token = .assign ∨ token = .other '=' := by
  cases token with
  | assign => exact .inl rfl
  | other c =>
    obtain rfl := List.head_eq_of_cons_eq equals
    exact .inr rfl
  | newline | crlf => exact absurd equals (by decide)
  | blanks run =>
    obtain rfl : run = ['='] := equals
    exact absurd (stands.2.1 '=' List.mem_cons_self) (by decide)
  | quoted literal =>
    obtain ⟨quote, inner, _, _, rfl, _⟩ := stands
    simp [Token.spelling] at equals
  | raw literal =>
    obtain ⟨inner, marks, rfl, _⟩ := stands
    simp [Token.spelling, tripleMarks] at equals
  | lineComment comment | blockComment comment =>
    obtain ⟨inner, rfl, _⟩ := stands
    simp [Token.spelling] at equals

/-- An equals sign is an assignment exactly if it is bare. -/
theorem bare_iff {text : List Char} {front back : List Token} {token : Token}
    (reads : Reads none text (front ++ token :: back)) (equals : token.spelling = ['=']) :
    Bare front back ↔ token = .assign := by
  have stands := stands_split reads
  have joins : isBareEquals (spelled front).getLast? (spelled back).head? = true ↔ Bare front back := by
    rw [isBareEquals_iff]
    exact ⟨fun ⟨before, line, arrow⟩ => ⟨before, line, arrow⟩,
      fun bare => ⟨bare.before, bare.line, bare.arrow⟩⟩
  rcases equals_cases stands equals with rfl | rfl
  · exact iff_of_true (joins.mp stands) rfl
  · refine iff_of_false (fun bare => ?_) nofun
    have joined := stands.2.2.2.2 rfl
    rw [joins.mpr bare] at joined
    cases joined

structure Inner (token : Token) : Prop where
  solid : ∀ run, token ≠ .blanks run
  goes : ¬ IsLineEnd token

theorem Inner.following {token : Token} (inner : Inner token) :
    following token = .inLine (token = .assign) := by
  cases token with
  | blanks run => exact absurd rfl (inner.solid run)
  | newline => exact absurd (.inl rfl) inner.goes
  | crlf => exact absurd (.inr rfl) inner.goes
  | assign | other | quoted | raw | blockComment | lineComment => rfl

theorem Inner.indented {token : Token} (inner : Inner token) (indent : List Char) :
    lead (.lineStart indent) token = indent := by
  cases token with
  | newline => exact absurd (.inl rfl) inner.goes
  | crlf => exact absurd (.inr rfl) inner.goes
  | blanks | assign | other | quoted | raw | blockComment | lineComment => rfl

theorem Inner.spaced {token : Token} (inner : Inner token) : lead (.inLine true) token = [' '] := by
  cases token with
  | newline => exact absurd (.inl rfl) inner.goes
  | crlf => exact absurd (.inr rfl) inner.goes
  | blanks | assign | other | quoted | raw | blockComment | lineComment => rfl

private theorem lead_joined {token : Token} (other : token ≠ .assign) : lead (.inLine false) token = [] := by
  cases token with
  | assign => exact absurd rfl other
  | blanks | newline | crlf | other | quoted | raw | blockComment | lineComment => rfl

theorem Inner.not_opens {token : Token} (inner : Inner token) {front : List Token} :
    ¬ Opens (front ++ [token]) := by
  rintro (first | ⟨earlier, run, same, _⟩)
  · exact inner.goes (first token List.getLast?_concat)
  · exact inner.solid run (List.append_singleton_inj.mp same).2

theorem Inner.not_closes {token : Token} (inner : Inner token) {back : List Token} :
    ¬ Closes (token :: back) := by
  rintro (final | ⟨run, later, same, _⟩)
  · exact inner.goes (final token rfl)
  · exact inner.solid run (List.head_eq_of_cons_eq same)

private theorem lead_lineEnd {token : Token} (ends : IsLineEnd token) (gap : Gap) : lead gap token = [] := by
  rcases ends with rfl | rfl <;> rfl

theorem following_lineEnd {token : Token} (ends : IsLineEnd token) : following token = .lineStart [] := by
  rcases ends with rfl | rfl <;> rfl

private theorem lineEnd_solid {token : Token} (ends : IsLineEnd token) (run : List Char) : token ≠ .blanks run := by
  rcases ends with rfl | rfl <;> nofun

private theorem mem_of_last (front : List Char) {back : List Char} {c : Char} (nonempty : back ≠ [])
    (last : (front ++ back).getLast? = some c) : c ∈ back := by
  rw [List.getLast?_append, List.getLast?_eq_some_getLast nonempty, Option.some_or] at last
  exact Option.some.inj last ▸ List.getLast_mem nonempty

section
variable {before : Option Char} {text content : List Char} {c : Char}

theorem last_quoted (stands : Stands before text (.quoted content)) (last : content.getLast? = some c) :
    c = '"' ∨ c = '\'' := by
  obtain ⟨quote, inner, mark, _, rfl, _⟩ := stands
  have final : c ∈ [quote] := mem_of_last (quote :: inner) (by simp) last
  rwa [List.mem_singleton.mp final]

theorem last_raw (stands : Stands before text (.raw content)) (last : content.getLast? = some c) :
    c = '"' := by
  obtain ⟨inner, marks, rfl, ends, repeated, _⟩ := stands
  obtain ⟨front, rfl⟩ := ends.ends
  rw [List.append_assoc, ← List.append_assoc] at last
  rcases List.mem_append.mp (mem_of_last _ (by simp [tripleMarks]) last) with triple | more
  · simpa [tripleMarks] using triple
  · exact repeated c more

theorem last_blockComment (stands : Stands before text (.blockComment content))
    (last : content.getLast? = some c) : c = '/' := by
  obtain ⟨inner, rfl, ends⟩ := stands
  obtain ⟨front, rfl⟩ := ends.ends
  have final : c ∈ ['/'] := mem_of_last ('/' :: '*' :: (front ++ ['*'])) (by simp) (by simpa using last)
  exact List.mem_singleton.mp final

end

/-- What the layout writes of a token does not end in a blank. -/
theorem last_kept {before : Option Char} {text : List Char} {token : Token}
    (stands : Stands before text token) (solid : ∀ run, token ≠ .blanks run) :
    ∀ c ∈ (kept token).getLast?, ¬ isBlank c := by
  intro c last
  cases token with
  | blanks run => exact absurd rfl (solid run)
  | newline | crlf | assign =>
    obtain rfl := Option.some.inj last
    decide
  | other d =>
    obtain rfl := Option.some.inj last
    simpa using stands.1
  | quoted literal => rcases last_quoted stands last with rfl | rfl <;> decide
  | raw literal =>
    obtain rfl := last_raw stands last
    decide
  | blockComment comment =>
    obtain rfl := last_blockComment stands last
    decide
  | lineComment comment =>
    obtain ⟨front, shape⟩ := List.getLast?_eq_some_iff.mp last
    have again := dropEndWhile_idem isBlank comment
    rw [kept] at shape
    rw [shape] at again
    exact keeps_last again

/-! ### What the layout leaves alone -/

/-- The layout writes these tokens as they stand, where it has seen the blanks `waiting` in front of
them. -/
inductive Tidy : Gap → List Char → List Token → Prop where
  | done {gap} : Tidy gap [] []
  | blanks {gap waiting run rest} : Tidy (gap.widen run) (waiting ++ run) rest →
      Tidy gap waiting (.blanks run :: rest)
  | token {gap waiting token rest} : (∀ run, token ≠ .blanks run) → waiting = lead gap token →
      kept token = token.spelling → Tidy (following token) [] rest → Tidy gap waiting (token :: rest)

/-- Texts that begin with blanks and a token each are the same if their parts are. -/
theorem parts_of_eq {one other front back : List Char} (first : ∀ c ∈ one, isBlank c)
    (second : ∀ c ∈ other, isBlank c) (seen : ∀ c ∈ front.head?, ¬ isBlank c) (some : front ≠ [])
    (also : ∀ c ∈ back.head?, ¬ isBlank c) (same : one ++ front = other ++ back) :
    one = other ∧ front = back := by
  rcases List.append_eq_append_iff.mp same with ⟨more, rfl, rfl⟩ | ⟨more, rfl, rfl⟩
  · cases more with
    | nil => simp
    | cons c more => exact absurd (second c (by simp)) (seen c rfl)
  · cases more with
    | nil => simp
    | cons c more => exact absurd (first c (by simp)) (also c rfl)

/-- The layout writes a comment as it stands only if no blanks are at its end: a line end follows. -/
theorem kept_of_eq {before : Option Char} {text : List Char} {token : Token} {rest : List Token}
    (stands : Stands before text token) (reads : Reads token.spelling.getLast? text rest)
    (same : kept token ++ layout (following token) rest = token.spelling ++ text) :
    kept token = token.spelling := by
  cases token with
  | lineComment comment =>
    obtain ⟨inner, _, _, finished, _⟩ := stands
    obtain ⟨dropped, split, blank⟩ := dropEndWhile_split isBlank comment
    have left : layout (.inLine false) rest = dropped ++ text := by
      have right := congrArg (· ++ text) split
      rw [List.append_assoc] at right
      exact List.append_cancel_left (same.trans right)
    cases dropped with
    | nil => exact (List.append_nil _).symm.trans split.symm
    | cons c dropped =>
      have here := blank c List.mem_cons_self
      have final := lineEnd_layout reads finished
      rw [left] at final
      rcases final with none | opened | opened
      · cases none
      · obtain rfl := (List.cons_prefix_cons.mp opened).1
        cases here
      · obtain rfl := (List.cons_prefix_cons.mp opened).1
        cases here
  | blanks | newline | crlf | quoted | raw | blockComment | assign | other => rfl

private theorem layout_eq_iff {before : Option Char} {text waiting : List Char} {tokens : List Token} {gap : Gap}
    (reads : Reads before text tokens) (blank : Blank gap) (seen : ∀ c ∈ waiting, isBlank c) :
    layout gap tokens = waiting ++ text ↔ Tidy gap waiting tokens := by
  induction reads generalizing gap waiting with
  | done =>
    constructor
    · intro same
      obtain rfl : waiting = [] := by simpa [layout] using same.symm
      exact .done
    · intro tidy
      cases tidy
      rfl
  | @next before text token tokens stands reads ih =>
    by_cases solid : ∀ run, token ≠ .blanks run
    · have later := @ih [] (following token) (Blank.following token) (List.forall_mem_nil _)
      rw [List.nil_append] at later
      obtain ⟨c, inner, spelling, opens, spells⟩ := kept_opening stands
      have visible := solid_visible stands solid
      rw [layout_cons gap solid]
      constructor
      · intro same
        obtain ⟨rfl, body⟩ := parts_of_eq (blank.lead token) seen (by simpa [opens, spells] using visible)
          (by simp [opens]) (by simpa [spells] using visible) same
        have whole := kept_of_eq stands reads body
        rw [whole] at body
        exact .token solid rfl whole (later.mp (List.append_cancel_left body))
      · intro tidy
        cases tidy with
        | blanks => exact absurd rfl (solid _)
        | token _ led whole tidy => rw [led, whole, later.mpr tidy]
    · obtain ⟨run, rfl⟩ := not_forall_not.mp solid
      have more : ∀ c ∈ waiting ++ run, isBlank c := by
        intro c member
        exact (List.mem_append.mp member).elim (seen c) (stands.2.1 c)
      have later := ih (blank.widen stands.2.1) more
      rw [List.append_assoc] at later
      refine later.trans ⟨.blanks, fun tidy => ?_⟩
      cases tidy with
      | blanks tidy => exact tidy
      | token solid => exact absurd rfl (solid run)

/-! ### Tidy tokens and the normal form -/

/-- Where the layout is behind tokens that it wrote as they stand: the gap it is in, and the blanks it
has seen since the last other token. -/
inductive Stage : List Token → Gap → List Char → Prop where
  | start {front} : AtStart front → Stage front (.lineStart []) []
  | indent {front run} : AtStart front → run ≠ [] →
      Stage (front ++ [.blanks run]) (.lineStart run) run
  | behind {front token} : Inner token → kept token = token.spelling →
      Stage (front ++ [token]) (following token) []
  | apart {front token run} : Inner token → kept token = token.spelling → run ≠ [] →
      Stage (front ++ [token] ++ [.blanks run]) (.inLine true) run

theorem Stage.nil : Stage [] (.lineStart []) [] := .start nofun

theorem Stage.blanks {text run waiting : List Char} {front back : List Token} {gap : Gap}
    (stage : Stage front gap waiting) (reads : Reads none text (front ++ .blanks run :: back)) :
    Stage (front ++ [.blanks run]) (gap.widen run) (waiting ++ run) := by
  have nonempty : run ≠ [] := (stands_split reads).1
  cases stage with
  | start first => exact .indent first nonempty
  | behind inner same =>
    rw [inner.following]
    exact .apart inner same nonempty
  | indent | apart => exact absurd reads not_blanks_twice

theorem Stage.token (front : List Token) {token : Token} (solid : ∀ run, token ≠ .blanks run)
    (same : kept token = token.spelling) : Stage (front ++ [token]) (following token) [] := by
  by_cases ends : IsLineEnd token
  · rw [following_lineEnd ends]
    exact .start (by simpa [AtStart] using ends)
  · exact .behind ⟨solid, ends⟩ same

theorem Tidy.split {text : List Char} {front middle back : List Token} {gap : Gap}
    {waiting : List Char} (stage : Stage front gap waiting) (tidy : Tidy gap waiting (middle ++ back))
    (reads : Reads none text (front ++ (middle ++ back))) :
    ∃ gap waiting, Stage (front ++ middle) gap waiting ∧ Tidy gap waiting back := by
  induction middle generalizing front gap waiting with
  | nil =>
    rw [List.append_nil]
    exact ⟨gap, waiting, stage, tidy⟩
  | cons token middle ih =>
    have next : Reads none text (front ++ [token] ++ (middle ++ back)) := by simpa using reads
    rw [List.append_cons]
    cases tidy with
    | blanks tidy => exact ih (stage.blanks reads) tidy next
    | token solid led same tidy => exact ih (Stage.token front solid same) tidy next

theorem Tidy.ended {gap : Gap} {waiting : List Char} {back : List Token}
    (tidy : Tidy gap waiting back) (ends : AtEnd back) : waiting = [] := by
  cases tidy with
  | done => rfl
  | blanks => exact absurd rfl (lineEnd_solid (ends _ rfl) _)
  | token _ led => rw [led, lead_lineEnd (ends _ rfl)]

theorem Tidy.one_space {text run : List Char} {front back : List Token}
    (tidy : Tidy (.inLine true) run back) (reads : Reads none text (front ++ .blanks run :: back)) :
    run = [' '] := by
  have nonempty : run ≠ [] := (stands_split reads).1
  rw [List.append_cons] at reads
  cases tidy with
  | done => exact absurd rfl nonempty
  | blanks => exact absurd reads not_blanks_twice
  | @token _ _ token _ solid led =>
    by_cases ends : IsLineEnd token
    · rw [lead_lineEnd ends] at led
      exact absurd led nonempty
    · rw [led, Inner.spaced ⟨solid, ends⟩]

/-- Behind the blanks of a stage stands nothing else. -/
theorem Stage.last_blank {text waiting : List Char} {front back : List Token} {gap : Gap}
    (stage : Stage front gap waiting) (reads : Reads none text (front ++ back)) :
    waiting = [] ∨ ∃ c ∈ (spelled front).getLast?, isBlank c := by
  have last {earlier : List Token} {run : List Char} (nonempty : run ≠ [])
      (reads : Reads none text (earlier ++ [.blanks run] ++ back)) :
      ∃ c ∈ (spelled (earlier ++ [.blanks run])).getLast?, isBlank c := by
    rw [List.append_assoc, List.singleton_append] at reads
    have spelling : (Token.blanks run).spelling ≠ [] := nonempty
    rw [last_spelled spelling]
    have final := List.getLast?_eq_some_getLast nonempty
    exact ⟨_, final, (stands_split reads).2.1 _ (List.mem_of_getLast? final)⟩
  cases stage with
  | start | behind => exact .inl rfl
  | indent _ nonempty | apart _ _ nonempty => exact .inr (last nonempty reads)

theorem AtStart.last_visible {front : List Token} (first : AtStart front) :
    ∀ c ∈ (spelled front).getLast?, ¬ isBlank c := by
  intro c last
  rcases front.eq_nil_or_concat' with rfl | ⟨earlier, token, rfl⟩
  · cases last
  · rcases first token List.getLast?_concat with rfl | rfl
    all_goals
      rw [last_spelled (by simp [Token.spelling])] at last
      obtain rfl := Option.some.inj last
      decide

theorem Tidy.normalForm {text : List Char} {tokens : List Token} (reads : Reads none text tokens)
    (tidy : Tidy (.lineStart []) [] tokens) : NormalForm tokens := by
  have stages (front back : List Token) (whole : tokens = front ++ back) :
      ∃ gap waiting, Stage front gap waiting ∧ Tidy gap waiting back := by
    rw [whole] at tidy reads
    exact tidy.split .nil reads
  constructor
  case trailing =>
    rintro front back rfl ends c last
    obtain ⟨gap, waiting, stage, later⟩ := stages front back rfl
    cases stage with
    | start first => exact first.last_visible c last
    | @behind front token inner same =>
      rw [List.append_assoc] at reads
      have stands := stands_split reads
      rw [last_spelled stands.nonempty, ← same] at last
      exact last_kept stands inner.solid c last
    | indent _ nonempty | apart _ _ nonempty => exact absurd (later.ended ends) nonempty
  case interior =>
    rintro front run back rfl
    obtain ⟨gap, waiting, stage, tidy⟩ := stages front _ rfl
    cases tidy with
    | token solid => exact absurd rfl (solid run)
    | blanks tidy =>
      cases stage with
      | start first => exact .inl first
      | indent | apart => exact absurd reads not_blanks_twice
      | behind inner =>
        rw [inner.following] at tidy
        exact .inr (tidy.one_space reads)
  case assigned =>
    rintro front token back rfl equals bare
    obtain rfl := (bare_iff reads equals).mp bare
    obtain ⟨gap, waiting, stage, tidy⟩ := stages front _ rfl
    cases tidy with
    | token solid led same tidy =>
    constructor
    · cases stage with
      | start first => exact .inl (.inl first)
      | indent first => exact .inl (.inr ⟨_, _, rfl, first⟩)
      | behind inner =>
        rw [inner.following] at led
        cases led
      | apart =>
        rw [led]
        exact .inr List.getLast?_concat
    · cases tidy with
      | done => exact .inl (.inl nofun)
      | @blanks _ _ run rest later =>
        rw [List.append_cons] at reads
        have single : run = [' '] := later.one_space reads
        rw [single]
        exact .inr rfl
      | @token _ _ token rest solid led =>
        refine .inl (.inl ?_)
        rintro other first
        obtain rfl := Option.some.inj first
        by_contra goes
        rw [following, Inner.spaced ⟨solid, goes⟩] at led
        cases led

/-- In a normal form, the blanks that the layout has seen are the ones that it writes. -/
theorem NormalForm.lead {text waiting : List Char} {front back : List Token} {token : Token} {gap : Gap}
    (normal : NormalForm (front ++ token :: back)) (reads : Reads none text (front ++ token :: back))
    (stage : Stage front gap waiting) (solid : ∀ run, token ≠ .blanks run) : waiting = lead gap token := by
  by_cases ends : IsLineEnd token
  · rw [lead_lineEnd ends]
    rcases stage.last_blank reads with none | ⟨c, last, blank⟩
    · exact none
    · refine absurd blank (normal.trailing front _ rfl ?_ c last)
      rintro other first
      exact Option.some.inj first ▸ ends
  have inner : Inner token := ⟨solid, ends⟩
  cases stage with
  | start | indent => rw [inner.indented]
  | @behind front earlier previous same =>
    have other : token ≠ .assign := by
      intro assign
      have bare := (bare_iff reads (congrArg Token.spelling assign)).mpr assign
      rcases (normal.assigned _ token back rfl (congrArg Token.spelling assign) bare).1 with opens | apart
      · exact previous.not_opens opens
      · rw [List.getLast?_concat] at apart
        exact previous.solid _ (Option.some.inj apart)
    have joined : earlier ≠ .assign := by
      intro assign
      rw [List.append_assoc] at normal reads
      have bare := (bare_iff reads (congrArg Token.spelling assign)).mpr assign
      rcases (normal.assigned front earlier _ rfl (congrArg Token.spelling assign) bare).2 with closes | apart
      · exact inner.not_closes closes
      · exact solid _ (Option.some.inj apart)
    rw [previous.following, decide_eq_false joined, lead_joined other]
  | @apart front earlier _ previous =>
    rw [inner.spaced]
    rw [List.append_assoc] at normal
    refine (normal.interior _ waiting _ rfl).resolve_left fun first => ?_
    exact previous.goes (first earlier List.getLast?_concat)

theorem NormalForm.kept {text : List Char} {front back : List Token} {token : Token}
    (normal : NormalForm (front ++ token :: back)) (reads : Reads none text (front ++ token :: back)) :
    kept token = token.spelling := by
  cases token with
  | lineComment comment =>
    have stands := stands_split reads
    obtain ⟨inner, _, _, finished, _⟩ := id stands
    rw [List.append_cons] at normal reads
    have final : AtEnd back := by
      rintro token first
      rcases reads_lineEnd (reads_split reads) finished with rfl | ⟨_, later, rfl⟩ | ⟨later, rfl⟩
      · cases first
      · exact .inl (Option.some.inj first).symm
      · exact .inr (Option.some.inj first).symm
    have last := normal.trailing _ back rfl final
    rw [last_spelled stands.nonempty] at last
    rcases comment.eq_nil_or_concat' with rfl | ⟨start, c, rfl⟩
    · rfl
    · exact dropEndWhile_concat (last c List.getLast?_concat) start
  | blanks | newline | crlf | quoted | raw | blockComment | assign | other => rfl

theorem NormalForm.tidy {text waiting : List Char} {front back : List Token} {gap : Gap}
    (normal : NormalForm (front ++ back)) (reads : Reads none text (front ++ back))
    (stage : Stage front gap waiting) : Tidy gap waiting back := by
  induction back generalizing front gap waiting with
  | nil =>
    rcases stage.last_blank reads with rfl | ⟨c, last, blank⟩
    · exact .done
    · exact absurd blank (normal.trailing front [] rfl nofun c last)
  | cons token back ih =>
    have next {gap : Gap} {waiting : List Char} (stage : Stage (front ++ [token]) gap waiting) :
        Tidy gap waiting back := by
      rw [List.append_cons] at normal reads
      exact ih normal reads stage
    by_cases solid : ∀ run, token ≠ .blanks run
    · have same := normal.kept reads
      exact .token solid (normal.lead reads stage solid) same (next (.token front solid same))
    · obtain ⟨run, rfl⟩ := not_forall_not.mp solid
      exact .blanks (next (stage.blanks reads))

private theorem tidy_iff {text : List Char} {tokens : List Token} (reads : Reads none text tokens) :
    Tidy (.lineStart []) [] tokens ↔ NormalForm tokens := by
  refine ⟨Tidy.normalForm reads, fun normal => ?_⟩
  rw [← List.nil_append tokens] at normal reads
  exact normal.tidy reads .nil

/-- The formatter leaves exactly the texts in normal form as they are. -/
theorem format_fixed_iff (text : String) :
    format text = .ok text ↔ ∃ tokens, Reads none text.toList tokens ∧ NormalForm tokens := by
  rw [format_eq_ok_iff]
  refine exists_congr fun tokens => and_congr_right fun reads => ?_
  rw [← tidy_iff reads, ← layout_eq_iff reads (by simp [Blank, Gap.text]) (by simp), List.nil_append,
    eq_comm]

end StagedFormat.Proofs.SourceNormalForm
