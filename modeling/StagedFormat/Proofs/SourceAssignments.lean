import StagedFormat.Proofs.SourceNormalForm

/-! Which equals signs the formatter puts spaces around. It looks one character back for an operator,
and the end of a block comment is one to it. -/

namespace StagedFormat.Proofs.SourceAssignments
open StagedFormat.Source SourceReading SourceSpacing SourceFixedPoints SourceNormalForm

/-- No other sign of the code makes an operator of an equals sign between these tokens. Unlike `Bare`,
this asks of the operator characters whether they are code. -/
structure Unjoined (front back : List Token) : Prop where
  single : (spelled front).getLast? ≠ some '='
  code : ∀ c, front.getLast? = some (.other c) → c ∉ operatorCharacters
  line : (spelled back).head? ≠ some '='
  arrow : (spelled back).head? ≠ some '>'

/-- The equals sign between these tokens has one space on each side in the result, unless it is the
first or the last token there. What is not blank stays, so it tells which sign of the result it is. -/
structure SpacedBy (front back : List Token) (before after : List Char) : Prop where
  place : visible before = visible (spelled front)
  left : Opens front ∨ ∃ earlier, before = earlier ++ [' '] ∧ ∀ c ∈ earlier.getLast?, ¬ isBlank c
  right : Closes back ∨ ∃ later, after = ' ' :: later ∧ ∀ c ∈ later.head?, ¬ isBlank c

def SpacedIn (front back : List Token) (formatted : List Char) : Prop :=
  ∃ before after, formatted = before ++ '=' :: after ∧ SpacedBy front back before after

/-! ### The layout up to a token -/

def Gap.after (gap : Gap) : Token → Gap
  | .blanks run => gap.widen run
  | token => following token

def gapAfter (tokens : List Token) : Gap := tokens.foldl Gap.after (.lineStart [])

theorem Gap.after_solid (gap : Gap) {token : Token} (solid : ∀ run, token ≠ .blanks run) :
    Gap.after gap token = following token := by
  cases token with
  | blanks run => exact absurd rfl (solid run)
  | newline | crlf | assign | other | quoted | raw | blockComment | lineComment => rfl

/-- What the layout writes of some tokens does not depend on the tokens after them. -/
theorem layout_append (gap : Gap) (front back : List Token) :
    layout gap (front ++ back) = layout gap front ++ layout (front.foldl Gap.after gap) back := by
  induction front generalizing gap with
  | nil => rfl
  | cons token front ih =>
    rw [List.cons_append, List.foldl_cons]
    by_cases solid : ∀ run, token ≠ .blanks run
    · rw [layout_cons gap solid, layout_cons gap solid, Gap.after_solid gap solid, ih, List.append_assoc,
        List.append_assoc]
    · obtain ⟨run, rfl⟩ := not_forall_not.mp solid
      exact ih (gap.widen run)

theorem layout_solid (front : List Token) {token : Token} (solid : ∀ run, token ≠ .blanks run)
    (back : List Token) :
    layout (.lineStart []) (front ++ token :: back) =
      layout (.lineStart []) front ++
        (lead (gapAfter front) token ++ (kept token ++ layout (following token) back)) := by
  rw [layout_append, gapAfter, layout_cons _ solid]

private theorem visible_layout {gap : Gap} {tokens : List Token} (blank : Blank gap)
    (runs : ∀ run, .blanks run ∈ tokens → ∀ c ∈ run, isBlank c) :
    visible (layout gap tokens) = visible (spelled tokens) := by
  induction tokens generalizing gap with
  | nil => rfl
  | cons token tokens ih =>
    have later {gap : Gap} (blank : Blank gap) := ih blank fun run member => runs run (.tail token member)
    rw [spelled_cons, visible_append]
    by_cases solid : ∀ run, token ≠ .blanks run
    · rw [layout_cons gap solid, visible_append, visible_append, visible_blanks (blank.lead token),
        visible_kept, later (.following token), List.nil_append]
    · obtain ⟨run, rfl⟩ := not_forall_not.mp solid
      have here := runs run List.mem_cons_self
      rw [Token.spelling, visible_blanks here, List.nil_append]
      exact later (blank.widen here)

theorem blank_runs {text run : List Char} {tokens : List Token} (reads : Reads none text tokens)
    (member : .blanks run ∈ tokens) : ∀ c ∈ run, isBlank c := by
  obtain ⟨front, back, rfl⟩ := List.append_of_mem member
  exact (stands_split reads).2.1

theorem visible_front {text : List Char} {front back : List Token}
    (reads : Reads none text (front ++ back)) :
    visible (layout (.lineStart []) front) = visible (spelled front) :=
  visible_layout (by simp [Blank, Gap.text]) fun _ member =>
    blank_runs reads (List.mem_append_left back member)

/-- Behind the first token of a line, no indentation is written any more, and what was written last is
no blank. -/
theorem behind_first {text : List Char} {front back : List Token}
    (reads : Reads none text (front ++ back)) (inside : ¬ Opens front) :
    (∃ spaced, gapAfter front = .inLine spaced) ∧
      ∀ c ∈ (layout (.lineStart []) front).getLast?, ¬ isBlank c := by
  -- Blanks write nothing by themselves, so that the token in front of them decides.
  have behind {front back : List Token} {token : Token} (reads : Reads none text (front ++ token :: back))
      (inner : Inner token) :
      gapAfter (front ++ [token]) = .inLine (token = .assign) ∧
        ∀ c ∈ (layout (.lineStart []) (front ++ [token])).getLast?, ¬ isBlank c := by
    have stands := stands_split reads
    constructor
    · rw [gapAfter, List.foldl_append, List.foldl_cons, Gap.after_solid _ inner.solid, inner.following]
      rfl
    · obtain ⟨d, rest, _, opens, _⟩ := kept_opening stands
      intro c last
      rw [layout_solid front inner.solid, layout, List.append_nil, ← List.append_assoc] at last
      have final : (kept token).getLast? = some c := by
        rw [List.getLast?_append, List.getLast?_eq_some_getLast (by simp [opens]), Option.some_or] at last
        rw [← last, List.getLast?_eq_some_getLast]
      exact last_kept stands inner.solid c final
  rcases front.eq_nil_or_concat' with rfl | ⟨earlier, token, rfl⟩
  · exact absurd (.inl (by simp [AtStart])) inside
  rw [List.append_assoc, List.singleton_append] at reads
  by_cases ends : IsLineEnd token
  · exact absurd (.inl (by simpa [AtStart] using ends)) inside
  by_cases solid : ∀ run, token ≠ .blanks run
  · exact ⟨⟨_, (behind reads ⟨solid, ends⟩).1⟩, (behind reads ⟨solid, ends⟩).2⟩
  · obtain ⟨run, rfl⟩ := not_forall_not.mp solid
    have later : ¬ AtStart earlier := fun first => inside (.inr ⟨earlier, run, rfl, first⟩)
    rcases earlier.eq_nil_or_concat' with rfl | ⟨earlier, token, rfl⟩
    · exact absurd (by simp [AtStart]) later
    have inner : Inner token := by
      constructor
      · rintro run rfl
        exact not_blanks_twice reads
      · intro ends
        exact later (by simpa [AtStart] using ends)
    rw [List.append_assoc, List.singleton_append] at reads
    obtain ⟨gap, last⟩ := behind reads inner
    constructor
    · rw [gapAfter, List.foldl_append, ← gapAfter, gap]
      exact ⟨true, rfl⟩
    · rw [layout_append, layout, layout, List.append_nil]
      exact last

/-! ### The two sides of an equals sign -/

theorem blank_gapAfter {text : List Char} {front back : List Token}
    (reads : Reads none text (front ++ back)) : Blank (gapAfter front) := by
  have run (gap : Gap) (blank : Blank gap) (tokens : List Token)
      (inside : ∀ token ∈ tokens, token ∈ front) : Blank (tokens.foldl Gap.after gap) := by
    induction tokens generalizing gap with
    | nil => exact blank
    | cons token tokens ih =>
      refine ih _ ?_ fun other member => inside other (.tail token member)
      by_cases solid : ∀ run, token ≠ .blanks run
      · rw [Gap.after_solid gap solid]
        exact .following token
      · obtain ⟨run, rfl⟩ := not_forall_not.mp solid
        exact blank.widen (blank_runs reads (List.mem_append_left back (inside _ List.mem_cons_self)))
  exact run _ (by simp [Blank, Gap.text]) front fun _ => id

/-- A space that is due is written in front of the next token, if that is on the same line. -/
theorem layout_spaced_line {text : List Char} {front back : List Token}
    (reads : Reads none text (front ++ back)) (more : ¬ Closes back) :
    ∃ later, layout (.inLine true) back = ' ' :: later ∧ ∀ c ∈ later.head?, ¬ isBlank c := by
  have inner (front : List Token) {rest : List Token} {token : Token}
      (reads : Reads none text (front ++ token :: rest)) (inner : Inner token) :
      ∃ later, layout (.inLine true) (token :: rest) = ' ' :: later ∧ ∀ c ∈ later.head?, ¬ isBlank c := by
    have stands := stands_split reads
    obtain ⟨c, kept, spelling, opens, spells⟩ := kept_opening stands
    refine ⟨_, by rw [layout_cons _ inner.solid, inner.spaced]; rfl, ?_⟩
    rw [opens]
    simpa [spells] using solid_visible stands inner.solid
  cases back with
  | nil => exact absurd (.inl nofun) more
  | cons token rest =>
    by_cases ends : IsLineEnd token
    · exact absurd (.inl (by simpa [AtEnd] using ends)) more
    by_cases solid : ∀ run, token ≠ .blanks run
    · exact inner front reads ⟨solid, ends⟩
    · obtain ⟨run, rfl⟩ := not_forall_not.mp solid
      have later : ¬ AtEnd rest := fun final => more (.inr ⟨run, rest, rfl, final⟩)
      rw [List.append_cons] at reads
      cases rest with
      | nil => exact absurd nofun later
      | cons token rest =>
        have solid : ∀ run, token ≠ .blanks run := by
          rintro run rfl
          exact not_blanks_twice reads
        have goes : ¬ IsLineEnd token := fun ends => later (by simpa [AtEnd] using ends)
        have written := inner _ reads ⟨solid, goes⟩
        exact written

private theorem spaced_assign {text : List Char} {front back : List Token}
    (reads : Reads none text (front ++ .assign :: back)) :
    SpacedIn front back (layout (.lineStart []) (front ++ .assign :: back)) := by
  refine ⟨layout (.lineStart []) front ++ lead (gapAfter front) .assign, layout (.inLine true) back,
    ?_, ?_, ?_, ?_⟩
  · have solid : ∀ run, Token.assign ≠ .blanks run := nofun
    rw [layout_solid front solid, ← List.append_assoc]
    rfl
  · rw [visible_append, visible_front reads, visible_blanks ((blank_gapAfter reads).lead .assign),
      List.append_nil]
  · by_cases opens : Opens front
    · exact .inl opens
    · obtain ⟨⟨spaced, gap⟩, last⟩ := behind_first reads opens
      rw [gap]
      exact .inr ⟨_, rfl, last⟩
  · by_cases closes : Closes back
    · exact .inl closes
    · rw [List.append_cons] at reads
      exact .inr (layout_spaced_line reads closes)

/-- The characters that are not blank tell the equals signs of a text apart. -/
theorem before_unique {before after other rest : List Char}
    (same : before ++ '=' :: after = other ++ '=' :: rest) (place : visible before = visible other) :
    before = other := by
  have apart {front more : List Char} (equal : visible front = visible (front ++ '=' :: more)) : False := by
    have none := List.self_eq_append_right.mp (equal.trans (visible_append _ _))
    simp [visible, isBlank] at none
  rcases List.append_eq_append_iff.mp same with ⟨more, rfl, split⟩ | ⟨more, rfl, split⟩
  · cases more with
    | nil => simp
    | cons c more =>
      obtain rfl := List.head_eq_of_cons_eq split
      exact (apart place).elim
  · cases more with
    | nil => simp
    | cons c more =>
      obtain rfl := List.head_eq_of_cons_eq split
      exact (apart place.symm).elim

private theorem comment_joins {text comment : List Char} {front back : List Token} {token : Token}
    (reads : Reads none text (front ++ [.blockComment comment] ++ token :: back))
    (equals : token.spelling = ['=']) : token = .other '=' := by
  refine (equals_cases (stands_split reads) equals).resolve_left fun assign => ?_
  have bare := (bare_iff reads equals).mpr assign
  rw [List.append_assoc, List.singleton_append] at reads
  have stands := stands_split reads
  have last := List.getLast?_eq_some_getLast stands.nonempty
  have slash := last_blockComment stands last
  refine bare.before '/' ?_ (by decide)
  rw [last_spelled stands.nonempty, last, slash]
  rfl

/-- Directly behind a block comment, nothing is written in front of an equals sign that is no
assignment. -/
theorem not_spaced_comment {text comment : List Char} {front back : List Token}
    (reads : Reads none text (front ++ [.blockComment comment] ++ .other '=' :: back)) :
    ¬ SpacedIn (front ++ [.blockComment comment]) back
      (layout (.lineStart []) (front ++ [.blockComment comment] ++ .other '=' :: back)) := by
  rintro ⟨before, after, whole, spaced⟩
  have inner : Inner (.blockComment comment) := ⟨nofun, by simp [IsLineEnd]⟩
  obtain ⟨_, last⟩ := behind_first reads inner.not_opens
  have gap : gapAfter (front ++ [.blockComment comment]) = .inLine false := by
    rw [gapAfter, List.foldl_append]
    rfl
  have solid : ∀ run, Token.other '=' ≠ .blanks run := nofun
  rw [layout_solid _ solid, gap] at whole
  obtain rfl := before_unique whole.symm (spaced.place.trans (visible_front reads).symm)
  obtain ⟨earlier, ending, _⟩ := spaced.left.resolve_left inner.not_opens
  rw [ending] at last
  exact last ' ' List.getLast?_concat rfl

/-- Only a block comment makes an operator of an equals sign that nothing in the code joins. -/
theorem unjoined_assign {text : List Char} {front back : List Token} {token : Token}
    (reads : Reads none text (front ++ token :: back)) (equals : token.spelling = ['='])
    (unjoined : Unjoined front back) (clear : ∀ text, front.getLast? ≠ some (.blockComment text)) :
    token = .assign := by
  refine (bare_iff reads equals).mp ⟨?_, unjoined.line, unjoined.arrow⟩
  rcases front.eq_nil_or_concat' with rfl | ⟨front, neighbour, rfl⟩
  · nofun
  rw [List.append_assoc, List.singleton_append] at reads
  have stands := stands_split reads
  intro c last
  rw [last_spelled stands.nonempty] at last
  cases neighbour with
  | blanks run => exact apart_of_blank (stands.2.1 c (List.mem_of_getLast? last)) c rfl
  | newline | crlf =>
    obtain rfl := Option.some.inj last
    decide
  | quoted literal => rcases last_quoted stands last with rfl | rfl <;> decide
  | raw literal =>
    obtain rfl := last_raw stands last
    decide
  | lineComment comment =>
    obtain ⟨_, _, _, finished, _⟩ := stands
    simp [AtLineEnd, spelled_cons, equals] at finished
  | blockComment comment => exact absurd List.getLast?_concat (clear comment)
  | assign => exact absurd (last_spelled stands.nonempty) unjoined.single
  | other d =>
    obtain rfl := Option.some.inj last
    exact unjoined.code d List.getLast?_concat

/-- An equals sign that nothing in the code joins has its spaces in the result exactly if it does not
stand directly behind a block comment. -/
theorem assignment_spaced_iff {source formatted : String} (done : format source = .ok formatted) :
    ∃ tokens, Reads none source.toList tokens ∧
      ∀ front token back, tokens = front ++ token :: back → token.spelling = ['='] →
        Unjoined front back →
          (SpacedIn front back formatted.toList ↔ ∀ text, front.getLast? ≠ some (.blockComment text)) := by
  obtain ⟨tokens, reads, laid⟩ := format_eq_ok_iff.mp done
  refine ⟨tokens, reads, ?_⟩
  rintro front token back rfl equals unjoined
  rw [laid]
  constructor
  · intro spaced comment behind
    obtain ⟨front, rfl⟩ := List.getLast?_eq_some_iff.mp behind
    obtain rfl := comment_joins reads equals
    exact not_spaced_comment reads spaced
  · intro clear
    obtain rfl := unjoined_assign reads equals unjoined clear
    exact spaced_assign reads

theorem assignment_spaced_plain :
    ∃ tokens, Reads none "x=1 // a=b".toList tokens ∧
      ∀ front token back, tokens = front ++ token :: back → token.spelling = ['='] →
        Unjoined front back →
          (SpacedIn front back "x = 1 // a=b".toList ↔ ∀ text, front.getLast? ≠ some (.blockComment text)) :=
  assignment_spaced_iff (by cbv)

/-- An equals sign behind a comment that nothing in the code joins, and that stays without its spaces. -/
theorem assignment_behind_comment :
    format "x /*c*/=1" = .ok "x /*c*/=1" ∧
      ∃ tokens front token back, Reads none "x /*c*/=1".toList tokens ∧ tokens = front ++ token :: back ∧
        token.spelling = ['='] ∧ Unjoined front back ∧ ¬ SpacedIn front back "x /*c*/=1".toList := by
  have read : lex "x /*c*/=1".toList = .ok
      ([.other 'x', .blanks [' ']] ++ [.blockComment "/*c*/".toList] ++ .other '=' :: [.other '1']) := by
    cbv
  have reads := lex_iff.mp read
  refine ⟨by cbv, _, _, _, _, reads, rfl, rfl, ?_, not_spaced_comment reads⟩
  constructor
  · decide
  · intro c behind
    rw [List.getLast?_concat] at behind
    cases behind
  · decide
  · decide

end StagedFormat.Proofs.SourceAssignments
