import StagedFormat.Proofs.SourceSpacing

/-! What a second pass makes of a formatted text. It reads the tokens of the first pass again, unless
the first pass took the blanks between a carriage return and a line feed: these are one line end
now, and what was in front of the carriage return stands in front of a line end. -/

namespace StagedFormat.Proofs.SourceFixedPoints
open StagedFormat.Source TextPieces SourceReading SourceSpacing

/-- A carriage return that is no line end has blanks in front of it, and only blanks between it and
a line feed. -/
inductive Strands : List Token → Prop where
  | returned {run between rest} :
      Strands (.blanks run :: .other '\r' :: .blanks between :: .newline :: rest)
  | assigned {between rest} : Strands (.assign :: .other '\r' :: .blanks between :: .newline :: rest)
  | commented {text c between rest} : isBlank c → between ≠ [] → (∀ d ∈ between, isBlank d) →
      Strands (.lineComment (text ++ c :: '\r' :: between) :: .newline :: rest)
  | later {token rest} : Strands rest → Strands (token :: rest)

def spaces (text : List Char) : List Token := if text = [] then [] else [.blanks text]

def trimmed : Token → Token
  | .lineComment text => .lineComment (Text.dropEndWhile isBlank text)
  | token => token

def respaced (gap : Gap) : List Token → List Token
  | [] => []
  | .blanks run :: rest => respaced (gap.widen run) rest
  | token :: rest => spaces (lead gap token) ++ trimmed token :: respaced (following token) rest

/-- What is left of a token when the carriage return at its end goes to a line end. -/
def unreturned : Token → Option (List Token)
  | .other '\r' => some []
  | .lineComment text => if text.getLast? = some '\r' then some [.lineComment text.dropLast] else none
  | _ => none

/-- The tokens that are read where the layout wrote these. -/
def rejoined : List Token → List Token
  | [] => []
  | token :: rest =>
    match unreturned token, rest with
    | some short, .newline :: rest => short ++ .crlf :: rejoined rest
    | _, rest => token :: rejoined rest

theorem respaced_cons (gap : Gap) {token : Token} (solid : ∀ run, token ≠ .blanks run)
    (rest : List Token) : respaced gap (token :: rest) =
      spaces (lead gap token) ++ trimmed token :: respaced (following token) rest := by
  cases token with
  | blanks run => exact absurd rfl (solid run)
  | newline | crlf | assign | other | quoted | raw | blockComment | lineComment => rfl

theorem spelling_trimmed (token : Token) : (trimmed token).spelling = kept token := by
  cases token <;> rfl

theorem rejoined_spaces (text : List Char) (rest : List Token) :
    rejoined (spaces text ++ rest) = spaces text ++ rejoined rest := by
  unfold spaces
  split <;> rfl

theorem rejoined_return {token : Token} {short : List Token} (ends : unreturned token = some short)
    (rest : List Token) : rejoined (token :: .newline :: rest) = short ++ .crlf :: rejoined rest := by
  simp [rejoined, ends]

theorem rejoined_cons {token : Token} {rest : List Token}
    (apart : unreturned token = none ∨ ∀ others, rest ≠ .newline :: others) :
    rejoined (token :: rest) = token :: rejoined rest := by
  rw [rejoined]
  rintro short others ends rfl
  rcases apart with whole | apart
  · simp [whole] at ends
  · exact apart others rfl

/-- The grammar and the lexer agree on the token that a text starts with. -/
theorem reads_first {before : Option Char} {c : Char} {text : List Char} {tokens : List Token}
    (reads : Reads before (c :: text) tokens) {token : Token} {after : List Char}
    (first : Token.first before c text = .ok (token, after)) :
    ∃ rest, tokens = token :: rest ∧ Reads token.spelling.getLast? after rest := by
  generalize whole : c :: text = all at reads
  cases reads with
  | done => cases whole
  | next stands later =>
    cases (first_of_stands stands whole).symm.trans first
    exact ⟨_, rfl, later⟩

private theorem reads_newline {before : Option Char} {text : List Char} {tokens : List Token}
    (reads : Reads before ('\n' :: text) tokens) :
    ∃ rest, tokens = .newline :: rest ∧ Reads (some '\n') text rest :=
  reads_first reads rfl

private theorem reads_crlf {before : Option Char} {text : List Char} {tokens : List Token}
    (reads : Reads before ('\r' :: '\n' :: text) tokens) :
    ∃ rest, tokens = .crlf :: rest ∧ Reads (some '\n') text rest :=
  reads_first reads rfl

/-- What a text can start with after the layout decided on the gap. -/
def Settled (head : Option Char) : Prop :=
  head = none ∨ head = some ' ' ∨ head = some '\n' ∨ head = some '\r'

theorem kept_opening {before : Option Char} {text : List Char} {token : Token}
    (stands : Stands before text token) :
    ∃ c inner spelling, kept token = c :: inner ∧ token.spelling = c :: spelling := by
  cases token with
  | lineComment comment =>
    obtain ⟨inner, rfl, _⟩ := stands
    exact ⟨'/', _, _, dropEndWhile_cons (by decide) _, rfl⟩
  | blanks | newline | crlf | quoted | raw | blockComment | assign | other =>
    obtain ⟨c, spelling, spelled⟩ := List.exists_cons_of_ne_nil stands.nonempty
    exact ⟨c, spelling, spelling, spelled, spelled⟩

private theorem head_layout_solid {before : Option Char} {text : List Char} {token : Token}
    (stands : Stands before text token) (solid : ∀ run, token ≠ .blanks run) (spaced : Bool)
    (rest : List Token) :
    Settled (layout (.inLine spaced) (token :: rest)).head? ∨
      spaced = false ∧ (layout (.inLine spaced) (token :: rest)).head? = token.spelling.head? := by
  obtain ⟨c, inner, spelling, opens, spelled⟩ := kept_opening stands
  rw [layout_cons _ solid, opens, spelled]
  cases token with
  | blanks run => exact absurd rfl (solid run)
  | newline | crlf =>
    obtain ⟨rfl, _⟩ := List.cons.inj spelled
    simp [lead, Settled]
  | assign => simp [lead, Gap.beforeAssign, Settled]
  | other | quoted | raw | blockComment | lineComment =>
    cases spaced <;> simp [lead, Gap.text, Settled]

/-- A token that follows on the same line starts as it did, or the layout put something else in front
of it. -/
theorem head_layout {before : Option Char} {text : List Char} {tokens : List Token}
    (reads : Reads before text tokens) (spaced : Bool) :
    Settled (layout (.inLine spaced) tokens).head? ∨
      spaced = false ∧ (layout (.inLine spaced) tokens).head? = text.head? := by
  induction reads generalizing spaced with
  | done => simp [layout, Settled]
  | @next before text token tokens stands _ ih =>
    by_cases solid : ∀ run, token ≠ .blanks run
    · obtain ⟨c, spelling, spelled⟩ := List.exists_cons_of_ne_nil stands.nonempty
      simpa [spelled] using head_layout_solid stands solid spaced tokens
    · obtain ⟨run, rfl⟩ := not_forall_not.mp solid
      have head := ih true
      simp only [Bool.true_eq_false, false_and, or_false] at head
      exact .inl head

theorem Settled.visible {head : Option Char} (settled : Settled head) {c : Char}
    (visible : isBlank c = false) (line : c ≠ '\n' ∧ c ≠ '\r') : head ≠ some c := by
  rintro rfl
  rcases settled with same | same | same | same
  · cases same
  · obtain rfl := Option.some.inj same
    exact absurd visible (by decide)
  · exact line.1 (Option.some.inj same)
  · exact line.2 (Option.some.inj same)

/-- The layout does not move a character to a place where it did not stand. -/
theorem head_layout_ne {before : Option Char} {text : List Char} {tokens : List Token}
    (reads : Reads before text tokens) {spaced : Bool} {c : Char} (visible : isBlank c = false)
    (line : c ≠ '\n' ∧ c ≠ '\r') (apart : spaced = false → text.head? ≠ some c) :
    (layout (.inLine spaced) tokens).head? ≠ some c := by
  rcases head_layout reads spaced with settled | ⟨close, same⟩
  · exact settled.visible visible line
  · rw [same]
    exact apart close

/-- What follows an equals sign that belongs to an operator stays where it is. -/
theorem head_layout_operator {text : List Char} {tokens : List Token} {c : Char}
    (reads : Reads (some '=') text tokens) (head : text.head? = some c) (joins : c = '=' ∨ c = '>') :
    (layout (.inLine false) tokens).head? = some c := by
  obtain ⟨text, rfl⟩ := List.head?_eq_some_iff.mp head
  have first : Token.first (some '=') c text = .ok (.other c, text) := by
    rcases joins with rfl | rfl <;> rfl
  obtain ⟨rest, rfl, _⟩ := reads_first reads first
  rfl

/-- A character that does not make an operator with an equals sign after it. -/
def Apart (before : Option Char) : Prop := ∀ c ∈ before, c ∉ operatorCharacters

theorem isBareEquals_iff {before after : Option Char} :
    isBareEquals before after = true ↔ Apart before ∧ after ≠ some '=' ∧ after ≠ some '>' := by
  cases before <;> simp [isBareEquals, Apart, and_assoc]

private theorem apart_some {c : Char} (plain : c ∉ operatorCharacters) : Apart (some c) := by
  simpa [Apart] using plain

theorem apart_of_blank {c : Char} (blank : isBlank c) : Apart (some c) := by
  have either : c = ' ' ∨ c = '\t' := by simpa [isBlank] using blank
  rcases either with rfl | rfl <;> exact apart_some (by decide)

/-- What the character `written` in the result has to do with the character `before` in the source.
It only matters in front of an equals sign. -/
def Agrees (before : Option Char) (text : List Char) (written : Option Char) : Gap → Prop
  | .lineStart _ => Apart written ∧ (text.head? = some '=' → Apart before)
  | .inLine true => text.head? = some '=' → Apart before
  | .inLine false => text.head? = some '=' → written = before

theorem Agrees.widen {before written : Option Char} {run text : List Char} {gap : Gap}
    (agrees : Agrees before (run ++ text) written gap) (some : run ≠ []) (blank : ∀ c ∈ run, isBlank c) :
    Agrees run.getLast? text written (gap.widen run) := by
  have apart : Apart run.getLast? := by
    rw [List.getLast?_eq_some_getLast some]
    exact apart_of_blank (blank _ (List.getLast_mem some))
  cases gap with
  | lineStart indent => exact ⟨agrees.1, fun _ => apart⟩
  | inLine spaced => exact fun _ => apart

private theorem agrees_following {before : Option Char} {text : List Char} {token : Token}
    (stands : Stands before text token) :
    Agrees token.spelling.getLast? text (kept token).getLast? (following token) := by
  cases token with
  | newline | crlf => exact ⟨apart_some (by decide), fun _ => apart_some (by decide)⟩
  | assign =>
    intro joined
    simp [Stands, isBareEquals, joined] at stands
  | lineComment comment =>
    intro joined
    obtain ⟨inner, _, _, finished, _⟩ := stands
    rcases finished with rfl | ⟨rest, rfl⟩ | ⟨rest, rfl⟩ <;> simp at joined
  | blanks | quoted | raw | blockComment | other => exact fun _ => rfl

private theorem reads_spaces {written : Option Char} {run text : List Char} {tokens : List Token}
    (blank : ∀ c ∈ run, isBlank c) (stop : ∀ c ∈ text.head?, ¬ isBlank c)
    (reads : Reads (run.getLast?.or written) text tokens) :
    Reads written (run ++ text) (spaces run ++ tokens) := by
  unfold spaces
  split
  · next none => simpa [none] using reads
  · next some =>
    have first : Stands written text (.blanks run) := ⟨some, blank, stop⟩
    rw [List.getLast?_eq_some_getLast some] at reads
    refine Reads.next first ?_
    simpa [Token.spelling, List.getLast?_eq_some_getLast some] using reads

theorem reads_lineEnd {before : Option Char} {text : List Char} {tokens : List Token}
    (reads : Reads before text tokens) (finished : AtLineEnd text) : tokens = [] ∨
      (text.head? = some '\n' ∧ ∃ rest, tokens = .newline :: rest) ∨ ∃ rest, tokens = .crlf :: rest := by
  rcases finished with rfl | ⟨rest, rfl⟩ | ⟨rest, rfl⟩
  · generalize none : [] = text at reads
    cases reads with
    | done => exact .inl rfl
    | next stands _ => exact absurd (List.append_eq_nil_iff.mp none.symm).1 stands.nonempty
  · obtain ⟨rest, rfl, _⟩ := reads_newline reads
    exact .inr (.inl ⟨rfl, rest, rfl⟩)
  · obtain ⟨rest, rfl, _⟩ := reads_crlf reads
    exact .inr (.inr ⟨rest, rfl⟩)

theorem lineEnd_layout {before : Option Char} {text : List Char} {tokens : List Token}
    (reads : Reads before text tokens) (finished : AtLineEnd text) :
    AtLineEnd (layout (.inLine false) tokens) := by
  obtain rfl | ⟨_, rest, rfl⟩ | ⟨rest, rfl⟩ := reads_lineEnd reads finished
  · exact .inl rfl
  · exact .inr (.inl ⟨_, rfl⟩)
  · exact .inr (.inr ⟨_, rfl⟩)

private theorem stands_comment {before written : Option Char} {text comment : List Char} {rest : List Token}
    (stands : Stands before text (.lineComment comment))
    (reads : Reads comment.getLast? text rest)
    (apart : unreturned (trimmed (.lineComment comment)) = none ∨
      (layout (.inLine false) rest).head? ≠ some '\n') :
    Stands written (layout (.inLine false) rest) (trimmed (.lineComment comment)) := by
  obtain ⟨inner, rfl, line, finished, _⟩ := stands
  obtain ⟨dropped, split, _⟩ := dropEndWhile_split isBlank inner
  have shape : Text.dropEndWhile isBlank ('/' :: '/' :: inner) =
      '/' :: '/' :: Text.dropEndWhile isBlank inner := by
    rw [dropEndWhile_cons (by decide), dropEndWhile_cons (by decide)]
  refine ⟨_, shape, ?_, lineEnd_layout reads finished, ?_⟩
  · intro member
    exact line (split ▸ List.mem_append_left dropped member)
  · intro ended returned
    rcases apart with whole | apart
    · obtain ⟨front, last⟩ := List.getLast?_eq_some_iff.mp returned
      have ends : ('/' :: '/' :: (front ++ ['\r'])).getLast? = some '\r' := by
        rw [← List.cons_append, ← List.cons_append, List.getLast?_concat]
      simp [trimmed, shape, last, unreturned, ends] at whole
    · exact apart ended

private theorem joined_cases {before after : Option Char} (joined : isBareEquals before after = false) :
    ¬ Apart before ∨ ∃ c, after = some c ∧ (c = '=' ∨ c = '>') := by
  by_cases apart : Apart before
  · right
    by_cases equals : after = some '='
    · exact ⟨'=', equals, .inl rfl⟩
    by_cases arrow : after = some '>'
    · exact ⟨'>', arrow, .inr rfl⟩
    · rw [isBareEquals_iff.mpr ⟨apart, equals, arrow⟩] at joined
      cases joined
  · exact .inl apart

/-- In front of an assignment the layout leaves nothing that would make an operator of it. -/
theorem apart_lead {before written : Option Char} {text : List Char} {gap : Gap}
    (agrees : Agrees before text written gap) (blank : Blank gap) :
    Apart ((lead gap .assign).getLast?.or written) := by
  cases gap with
  | inLine spaced => exact apart_of_blank (by decide)
  | lineStart indent =>
    cases none : indent.getLast? with
    | none => simpa [lead, Gap.beforeAssign, none] using agrees.1
    | some c =>
      simpa [lead, Gap.beforeAssign, none] using apart_of_blank (blank c (List.mem_of_getLast? none))

/-- An operator's equals sign follows the same character as in the source. -/
theorem joined_lead {before written : Option Char} {text : List Char} {gap : Gap}
    (agrees : Agrees before ('=' :: text) written gap) (joined : ¬ Apart before) :
    (lead gap (.other '=')).getLast?.or written = before := by
  cases gap with
  | lineStart indent => exact absurd (agrees.2 rfl) joined
  | inLine spaced =>
    cases spaced with
    | true => exact absurd (agrees rfl) joined
    | false => exact agrees rfl

/-- A token of the layout stands where it is written, unless a line feed came to it. -/
theorem stands_layout {before written : Option Char} {text : List Char} {token : Token}
    {rest : List Token} {gap : Gap} (stands : Stands before text token)
    (solid : ∀ run, token ≠ .blanks run) (reads : Reads token.spelling.getLast? text rest)
    (blank : Blank gap) (agrees : Agrees before (token.spelling ++ text) written gap)
    (apart : unreturned (trimmed token) = none ∨
      (layout (following token) rest).head? ≠ some '\n') :
    Stands ((lead gap token).getLast?.or written) (layout (following token) rest)
      (trimmed token) := by
  cases token with
  | blanks run => exact absurd rfl (solid run)
  | newline | crlf => trivial
  | quoted literal =>
    obtain ⟨quote, inner, mark, valid, spelled, alone⟩ := stands
    exact ⟨quote, inner, mark, valid, spelled, fun double none =>
      head_layout_ne reads (by decide) (by decide) fun _ => alone double none⟩
  | raw literal =>
    obtain ⟨inner, marks, spelled, ends, repeated, finished⟩ := stands
    exact ⟨inner, marks, spelled, ends, repeated,
      head_layout_ne reads (by decide) (by decide) fun _ => finished⟩
  | blockComment comment => exact stands
  | lineComment comment => exact stands_comment stands reads apart
  | assign =>
    refine isBareEquals_iff.mpr ⟨apart_lead agrees blank, ?_, ?_⟩ <;>
      exact head_layout_ne reads (by decide) (by decide) (by simp)
  | other c =>
    obtain ⟨visible, special, _, slash, equals⟩ := stands
    refine ⟨visible, special, ?_, ?_, ?_⟩
    · rintro rfl
      rcases apart with whole | apart
      · cases whole
      · exact apart
    · rintro rfl
      exact ⟨head_layout_ne reads (by decide) (by decide) fun _ => (slash rfl).1,
        head_layout_ne reads (by decide) (by decide) fun _ => (slash rfl).2⟩
    · rintro rfl
      rw [Bool.eq_false_iff, ne_eq, isBareEquals_iff]
      rintro ⟨bare, line, arrow⟩
      rcases joined_cases (equals rfl) with joined | ⟨c, head, joins⟩
      · rw [joined_lead agrees joined] at bare
        exact joined bare
      · have same := head_layout_operator reads head joins
        rcases joins with rfl | rfl
        · exact line same
        · exact arrow same

theorem solid_visible {before : Option Char} {text : List Char} {token : Token}
    (stands : Stands before text token) (solid : ∀ run, token ≠ .blanks run) :
    ∀ c ∈ token.spelling.head?, ¬ isBlank c := by
  intro c head
  cases token with
  | blanks run => exact absurd rfl (solid run)
  | newline | crlf | assign =>
    obtain rfl := Option.some.inj head
    decide
  | other d =>
    obtain rfl := Option.some.inj head
    simpa using stands.1
  | quoted literal =>
    obtain ⟨quote, inner, mark, _, rfl, _⟩ := stands
    obtain rfl := Option.some.inj head
    rcases mark with rfl | rfl <;> decide
  | raw literal =>
    obtain ⟨inner, marks, rfl, _⟩ := stands
    obtain rfl := Option.some.inj head
    decide
  | lineComment comment | blockComment comment =>
    obtain ⟨inner, rfl, _⟩ := stands
    obtain rfl := Option.some.inj head
    decide

theorem unreturned_cases {token : Token} {short : List Token} (ends : unreturned token = some short) :
    token = .other '\r' ∧ short = [] ∨
      ∃ text, token = .lineComment (text ++ ['\r']) ∧ short = [.lineComment text] := by
  unfold unreturned at ends
  split at ends
  · exact .inl ⟨rfl, (Option.some.inj ends).symm⟩
  · next comment =>
    split at ends
    · next returned =>
      obtain ⟨text, rfl⟩ := List.getLast?_eq_some_iff.mp returned
      rw [List.dropLast_concat] at ends
      exact .inr ⟨text, rfl, (Option.some.inj ends).symm⟩
    · cases ends
  · cases ends

private theorem newline_of_rejoined {tokens others : List Token} (same : rejoined tokens = .newline :: others) :
    ∃ rest, tokens = .newline :: rest := by
  cases tokens with
  | nil => cases same
  | cons token rest =>
    unfold rejoined at same
    split at same
    · next short rest ends =>
      obtain ⟨_, rfl⟩ | ⟨text, _, rfl⟩ := unreturned_cases ends <;> cases same
    · obtain ⟨rfl, _⟩ := List.cons.inj same
      exact ⟨_, rfl⟩

private theorem comment_return {inner shorter : List Char} (same : '/' :: '/' :: inner = shorter ++ ['\r']) :
    ∃ front, inner = front ++ ['\r'] ∧ shorter = '/' :: '/' :: front := by
  rcases List.eq_nil_or_concat inner with rfl | ⟨front, last, rfl⟩
  · have ends := congrArg List.getLast? same
    simp at ends
  · rw [List.concat_eq_append, ← List.cons_append, ← List.cons_append] at same
    obtain ⟨rfl, returned⟩ := List.append_inj' same rfl
    obtain rfl := List.head_eq_of_cons_eq returned
    exact ⟨front, List.concat_eq_append, rfl⟩

private theorem stands_shortened {before written : Option Char} {text comment shorter rest : List Char}
    (stands : Stands before text (.lineComment comment))
    (same : Text.dropEndWhile isBlank comment = shorter ++ ['\r']) :
    Stands written ('\r' :: '\n' :: rest) (.lineComment shorter) := by
  obtain ⟨inner, rfl, line, _⟩ := stands
  obtain ⟨dropped, split, _⟩ := dropEndWhile_split isBlank inner
  rw [dropEndWhile_cons (by decide), dropEndWhile_cons (by decide)] at same
  obtain ⟨front, shape, rfl⟩ := comment_return same
  refine ⟨front, rfl, fun member => line ?_, .inr (.inr ⟨rest, rfl⟩), by simp⟩
  rw [split, shape]
  exact List.mem_append_left _ (List.mem_append_left _ member)

private theorem reads_solid {before written : Option Char} {text : List Char} {token : Token}
    {rest : List Token} {gap : Gap} (stands : Stands before text token)
    (solid : ∀ run, token ≠ .blanks run) (blank : Blank gap)
    (agrees : Agrees before (token.spelling ++ text) written gap)
    (reads : Reads token.spelling.getLast? text rest)
    (later : Reads (kept token).getLast? (layout (following token) rest)
      (rejoined (respaced (following token) rest))) :
    Reads ((lead gap token).getLast?.or written) (kept token ++ layout (following token) rest)
      (rejoined (trimmed token :: respaced (following token) rest)) := by
  by_cases apart : unreturned (trimmed token) = none ∨
      ∀ others, respaced (following token) rest ≠ .newline :: others
  · have alone : unreturned (trimmed token) = none ∨
        (layout (following token) rest).head? ≠ some '\n' := by
      refine apart.imp_right fun other fed => ?_
      obtain ⟨after, opened⟩ := List.head?_eq_some_iff.mp fed
      rw [opened] at later
      obtain ⟨_, same, _⟩ := reads_newline later
      obtain ⟨others, same⟩ := newline_of_rejoined same
      exact other others same
    rw [rejoined_cons apart, ← spelling_trimmed]
    refine .next (stands_layout stands solid reads blank agrees alone) ?_
    rwa [spelling_trimmed]
  · obtain ⟨ends, fed⟩ := not_or.mp apart
    obtain ⟨short, ends⟩ := Option.ne_none_iff_exists'.mp ends
    obtain ⟨others, same⟩ := not_forall_not.mp fed
    rw [same, rejoined_cons (.inl rfl)] at later
    rw [same, rejoined_return ends, ← spelling_trimmed]
    generalize layout (following token) rest = all at later
    cases later with
    | @next _ after _ _ _ later =>
      have crlf : ∀ before, Reads before ('\r' :: '\n' :: after) (.crlf :: rejoined others) :=
        fun before => Reads.next (show Stands before after .crlf from trivial) later
      obtain ⟨returned, rfl⟩ | ⟨shorter, commented, rfl⟩ := unreturned_cases ends
      · rw [returned]
        exact crlf _
      · rw [commented]
        cases token with
        | lineComment comment =>
          have shortened : Stands ((lead gap (.lineComment comment)).getLast?.or written)
              ('\r' :: '\n' :: after) (.lineComment shorter) :=
            stands_shortened stands (Token.lineComment.inj commented)
          simpa [Token.spelling] using Reads.next shortened (crlf _)
        | blanks | newline | crlf | quoted | raw | blockComment | assign | other => cases commented

/-- The layout is read as its tokens, with the line ends that it made. -/
theorem reads_layout {before written : Option Char} {text : List Char} {tokens : List Token}
    {gap : Gap} (reads : Reads before text tokens) (blank : Blank gap)
    (agrees : Agrees before text written gap) :
    Reads written (layout gap tokens) (rejoined (respaced gap tokens)) := by
  induction reads generalizing gap written with
  | done => exact .done
  | @next before text token tokens stands reads ih =>
    by_cases solid : ∀ run, token ≠ .blanks run
    · have later := ih (Blank.following token) (agrees_following stands)
      rw [layout_cons gap solid, respaced_cons gap solid, rejoined_spaces]
      refine reads_spaces (blank.lead token) ?_ ?_
      · obtain ⟨c, inner, spelling, opens, spelled⟩ := kept_opening stands
        simpa [opens, spelled] using solid_visible stands solid
      · exact reads_solid stands solid blank agrees reads later
    · obtain ⟨run, rfl⟩ := not_forall_not.mp solid
      exact ih (blank.widen stands.2.1) (agrees.widen stands.1 stands.2.1)

/-- A second pass that is at `start` can do what the first pass did at `gap`. -/
def Resumes : Gap → Gap → Prop
  | .lineStart indent, .lineStart _ => indent = []
  | .inLine spaced, .inLine due => spaced = true → due = true
  | _, _ => False

theorem Resumes.widen {start gap : Gap} (resumes : Resumes start gap) (run : List Char) :
    Resumes start (gap.widen run) := by
  cases start <;> cases gap <;> simp_all [Resumes, Gap.widen]

private theorem resumes_following (token : Token) : Resumes (following token) (following token) := by
  cases token <;> simp [Resumes, following]

private theorem dropEndWhile_return (text : List Char) {run : List Char} (blank : ∀ c ∈ run, isBlank c) :
    Text.dropEndWhile isBlank (text ++ '\r' :: run) = text ++ ['\r'] := by
  rw [← List.singleton_append, ← List.append_assoc, dropEndWhile_blanks blank,
    dropEndWhile_concat (by decide)]

private theorem kept_trimmed (token : Token) : kept (trimmed token) = kept token := by
  cases token with
  | lineComment comment => exact dropEndWhile_idem isBlank comment
  | _ => rfl

private theorem layout_spaces (start : Gap) (run : List Char) (tokens : List Token) :
    layout start (spaces run ++ tokens) =
      layout (if run = [] then start else start.widen run) tokens := by
  unfold spaces
  split <;> rfl

private theorem lead_resumes {start gap : Gap} (resumes : Resumes start gap) (token : Token) :
    lead (if lead gap token = [] then start else start.widen (lead gap token)) token =
      lead gap token := by
  cases start with
  | lineStart indent =>
    cases gap with
    | inLine due => exact resumes.elim
    | lineStart written =>
      obtain rfl : indent = [] := resumes
      by_cases none : written = [] <;>
        cases token <;> simp [lead, Gap.text, Gap.beforeAssign, Gap.widen, none]
  | inLine spaced =>
    cases gap with
    | lineStart written => exact resumes.elim
    | inLine due =>
      have early : spaced = true → due = true := resumes
      cases due <;> cases token <;>
        simp_all [lead, Gap.text, Gap.beforeAssign, Gap.widen]

private theorem layout_resumes {start gap : Gap} (resumes : Resumes start gap) {token : Token}
    (solid : ∀ run, token ≠ .blanks run) (rest : List Token) :
    layout start (spaces (lead gap token) ++ trimmed token :: rest) =
      lead gap token ++ (kept token ++ layout (following token) rest) := by
  have shape : (∀ run, trimmed token ≠ .blanks run) ∧ following (trimmed token) = following token ∧
      ∀ gap, lead gap (trimmed token) = lead gap token := by
    cases token with
    | blanks run => exact absurd rfl (solid run)
    | _ => exact ⟨by simp [trimmed], rfl, fun _ => rfl⟩
  rw [layout_spaces, layout_cons _ shape.1, shape.2.1, shape.2.2, kept_trimmed, lead_resumes resumes]

def Returned (tokens : List Token) : Prop :=
  ∃ between rest, tokens = .other '\r' :: .blanks between :: .newline :: rest

private theorem strands_blanks {run : List Char} {rest : List Token} :
    Strands (.blanks run :: rest) ↔ Returned rest ∨ Strands rest := by
  constructor
  · intro strands
    cases strands with
    | returned => exact .inl ⟨_, _, rfl⟩
    | later strands => exact .inr strands
  · rintro (⟨between, rest, rfl⟩ | strands)
    · exact .returned
    · exact .later strands

private theorem strands_spaces {run : List Char} {rest : List Token} :
    Strands (spaces run ++ rest) ↔ run ≠ [] ∧ Returned rest ∨ Strands rest := by
  by_cases none : run = []
  · simp [spaces, none]
  · simp [spaces, none, strands_blanks]

private theorem strands_assign {rest : List Token} :
    Strands (.assign :: rest) ↔ Returned rest ∨ Strands rest := by
  constructor
  · intro strands
    cases strands with
    | assigned => exact .inl ⟨_, _, rfl⟩
    | later strands => exact .inr strands
  · rintro (⟨between, rest, rfl⟩ | strands)
    · exact .assigned
    · exact .later strands

/-- Where the layout goes on with a line feed, the source has one, after blanks or at once. -/
theorem newline_of_respaced {before : Option Char} {text : List Char} {tokens others : List Token}
    (reads : Reads before text tokens)
    (same : respaced (.inLine false) tokens = .newline :: others) :
    text.head? = some '\n' ∧ (∃ rest, tokens = .newline :: rest) ∨
      ∃ between rest, tokens = .blanks between :: .newline :: rest := by
  have first : ∀ {token gap rest}, (∀ run, token ≠ .blanks run) →
      respaced gap (token :: rest) = .newline :: others → token = .newline := by
    intro token gap rest solid same
    rw [respaced_cons gap solid] at same
    unfold spaces at same
    split at same
    · obtain ⟨same, _⟩ := List.cons.inj same
      cases token <;> cases same
      rfl
    · cases same
  cases reads with
  | done => cases same
  | @next _ _ token tokens stands reads =>
    by_cases solid : ∀ run, token ≠ .blanks run
    · obtain rfl := first solid same
      exact .inl ⟨rfl, _, rfl⟩
    · obtain ⟨between, rfl⟩ := not_forall_not.mp solid
      right
      cases reads with
      | done => cases same
      | @next _ _ token tokens follows reads =>
        have visible : ∀ run, token ≠ .blanks run := by
          rintro run rfl
          obtain ⟨c, run, rfl⟩ := List.exists_cons_of_ne_nil follows.1
          exact stands.2.2 c rfl (follows.2.1 c (by simp))
        obtain rfl := first visible same
        exact ⟨between, tokens, rfl⟩

/-- Where no line end is made, a token adds nothing to what is stranded after it. -/
theorem strands_following {before : Option Char} {text : List Char} {token : Token}
    {rest : List Token} (stands : Stands before text token) (solid : ∀ run, token ≠ .blanks run)
    (gap : Gap) (apart : unreturned (trimmed token) = none ∨
      ∀ others, respaced (following token) rest ≠ .newline :: others) :
    Strands (spaces gap.text ++ token :: rest) ↔
      Strands (spaces (following token).text ++ rest) := by
  rw [strands_spaces, strands_spaces]
  have here : ¬ Returned (token :: rest) := by
    rintro ⟨between, others, same⟩
    obtain ⟨rfl, rfl⟩ := List.cons.inj same
    rcases apart with whole | other
    · cases whole
    · exact other _ rfl
  rw [or_iff_right fun both => here both.2]
  cases token with
  | blanks run => exact absurd rfl (solid run)
  | assign => simp [strands_assign, following, Gap.text]
  | lineComment comment =>
    refine ⟨fun strands => .inr ?_, fun strands => .later (strands.resolve_left (by simp [following, Gap.text]))⟩
    cases strands with
    | later strands => exact strands
    | @commented text c between others blank some blanks =>
      rcases apart with whole | other
      · have ends : trimmed (.lineComment (text ++ c :: '\r' :: between)) =
            .lineComment (text ++ [c] ++ ['\r']) := by
          rw [trimmed, ← dropEndWhile_return _ blanks, List.append_assoc, List.singleton_append]
        rw [ends, unreturned, if_pos List.getLast?_concat] at whole
        cases whole
      · exact absurd rfl (other _)
  | newline | crlf | quoted | raw | blockComment | other =>
    refine ⟨fun strands => .inr ?_, fun strands => .later (strands.resolve_left (by simp [following, Gap.text]))⟩
    cases strands with
    | later strands => exact strands

/-- A line end that the first pass made of a carriage return of its own. The second pass writes the
same text exactly if nothing is in front of it. -/
theorem layout_returned_iff {before : Option Char} {text : List Char} {rest others : List Token}
    {gap : Gap} (stands : Stands before text (.other '\r')) (reads : Reads (some '\r') text rest)
    (blank : Blank gap) (fed : respaced (.inLine false) rest = .newline :: others)
    (later : layout (.inLine false) (rejoined (.newline :: others)) = layout (.inLine false) rest ↔
      ¬ Strands rest) :
    '\r' :: layout (.inLine false) (rejoined (.newline :: others)) =
        gap.text ++ '\r' :: layout (.inLine false) rest ↔
      ¬ Strands (spaces gap.text ++ .other '\r' :: rest) := by
  cases shape : gap.text with
  | nil =>
    rw [List.nil_append, List.cons.injEq, eq_self, true_and, later, spaces, if_pos rfl, List.nil_append]
    refine not_congr ⟨.later, fun strands => ?_⟩
    cases strands with
    | later strands => exact strands
  | cons c run =>
    have stranded : Strands (spaces (c :: run) ++ .other '\r' :: rest) := by
      obtain ⟨head, _⟩ | ⟨between, rest, rfl⟩ := newline_of_respaced reads fed
      · exact absurd head (stands.2.2.1 rfl)
      · exact strands_spaces.mpr (.inl ⟨by simp, between, rest, rfl⟩)
    refine iff_of_false (fun same => ?_) (not_not_intro stranded)
    obtain ⟨rfl, _⟩ := List.cons.inj same
    exact absurd (blank '\r' (by simp [shape])) (by decide)

/-- A comment that ends in blanks and a carriage return has more blanks before the line feed: else the
carriage return was no part of it. -/
theorem strands_commented {before : Option Char} {text comment inner : List Char} {c : Char}
    {rest others : List Token} (stands : Stands before text (.lineComment comment))
    (reads : Reads comment.getLast? text rest)
    (ends : Text.dropEndWhile isBlank comment = inner ++ [c] ++ ['\r']) (blank : isBlank c)
    (fed : respaced (.inLine false) rest = .newline :: others) :
    Strands (.lineComment comment :: rest) := by
  obtain ⟨between, whole, spaced⟩ := dropEndWhile_split isBlank comment
  obtain ⟨front, spelled, _, finished, apart⟩ := stands
  obtain rfl | ⟨head, rest, rfl⟩ | ⟨rest, rfl⟩ := reads_lineEnd reads finished
  · cases fed
  · have some : between ≠ [] := by
      rintro rfl
      rw [List.append_nil, ends, spelled] at whole
      obtain ⟨front, rfl, _⟩ := comment_return whole
      exact apart head List.getLast?_concat
    rw [whole, ends]
    have shape : inner ++ [c] ++ ['\r'] ++ between = inner ++ c :: '\r' :: between := by simp
    rw [shape]
    exact .commented blank some spaced
  · cases fed

/-- A line end that the first pass made of a carriage return at the end of a comment. -/
theorem layout_commented_iff {before : Option Char} {text comment shorter : List Char}
    {rest others : List Token} {gap : Gap} (stands : Stands before text (.lineComment comment))
    (reads : Reads comment.getLast? text rest)
    (ends : Text.dropEndWhile isBlank comment = shorter ++ ['\r'])
    (fed : respaced (.inLine false) rest = .newline :: others)
    (later : layout (.inLine false) (rejoined (.newline :: others)) = layout (.inLine false) rest ↔
      ¬ Strands rest) :
    Text.dropEndWhile isBlank shorter ++
          '\r' :: layout (.inLine false) (rejoined (.newline :: others)) =
        shorter ++ '\r' :: layout (.inLine false) rest ↔
      ¬ Strands (spaces gap.text ++ .lineComment comment :: rest) := by
  obtain ⟨dropped, split, blanks⟩ := dropEndWhile_split isBlank shorter
  -- The second pass drops the blanks that the first one left in front of the carriage return.
  rcases List.eq_nil_or_concat dropped with rfl | ⟨front, c, rfl⟩
  · rw [List.append_nil] at split
    rw [← split, List.append_cancel_left_eq, List.cons.injEq, eq_self, true_and, later, strands_spaces]
    refine not_congr ⟨fun strands => .inr (.later strands), ?_⟩
    rintro (⟨_, between, _, same⟩ | strands)
    · cases same
    cases strands with
    | later strands => exact strands
    | @commented text c between others blank some spaced =>
      have whole := dropEndWhile_return (text ++ [c]) spaced
      rw [List.append_assoc, List.singleton_append, ends] at whole
      obtain ⟨rfl, _⟩ := List.append_inj' whole rfl
      exact absurd blank (keeps_last split.symm)
  · rw [List.concat_eq_append] at split blanks
    have stranded : Strands (.lineComment comment :: rest) := by
      have shape : Text.dropEndWhile isBlank comment =
          Text.dropEndWhile isBlank shorter ++ front ++ [c] ++ ['\r'] := by
        rw [ends, List.append_assoc _ front, ← split]
      exact strands_commented stands reads shape (blanks c (by simp)) fed
    refine iff_of_false (fun same => ?_) (not_not_intro (strands_spaces.mpr (.inr stranded)))
    have apart : '\r' :: layout (.inLine false) (rejoined (.newline :: others)) =
        front ++ [c] ++ '\r' :: layout (.inLine false) rest := by
      rw [← List.append_cancel_left_eq (Text.dropEndWhile isBlank shorter), ← List.append_assoc, ← split]
      exact same
    have first : '\r' ∈ front ++ [c] := by
      cases front with
      | nil => exact (List.cons.inj apart).1 ▸ by simp
      | cons d front => exact (List.cons.inj apart).1 ▸ by simp
    exact absurd (blanks '\r' first) (by decide)

/-- The second pass writes the same text exactly if nothing is stranded. -/
theorem layout_rejoined_iff {before : Option Char} {text : List Char} {tokens : List Token}
    {start gap : Gap} (reads : Reads before text tokens) (blank : Blank gap)
    (resumes : Resumes start gap) :
    layout start (rejoined (respaced gap tokens)) = layout gap tokens ↔
      ¬ Strands (spaces gap.text ++ tokens) := by
  induction reads generalizing start gap with
  | done =>
    refine iff_of_true rfl fun strands => ?_
    rw [strands_spaces] at strands
    rcases strands with ⟨_, _, _, same⟩ | strands
    · cases same
    · cases strands
  | @next before text token tokens stands reads ih =>
    by_cases solid : ∀ run, token ≠ .blanks run
    · have later := ih (Blank.following token) (resumes_following token)
      rw [layout_cons gap solid, respaced_cons gap solid, rejoined_spaces]
      by_cases apart : unreturned (trimmed token) = none ∨
          ∀ others, respaced (following token) tokens ≠ .newline :: others
      · rw [rejoined_cons apart, layout_resumes resumes solid, List.append_cancel_left_eq,
          List.append_cancel_left_eq, strands_following stands solid gap apart]
        exact later
      · obtain ⟨ends, fed⟩ := not_or.mp apart
        obtain ⟨short, ends⟩ := Option.ne_none_iff_exists'.mp ends
        obtain ⟨others, fed⟩ := not_forall_not.mp fed
        rw [fed, rejoined_return ends]
        rw [fed] at later
        obtain ⟨returned, rfl⟩ | ⟨shorter, commented, rfl⟩ := unreturned_cases ends
        · obtain rfl : token = .other '\r' := by
            cases token with
            | other => exact returned
            | _ => cases returned
          rw [List.nil_append, layout_spaces]
          exact layout_returned_iff stands reads blank fed later
        · cases token with
          | lineComment comment =>
            rw [List.singleton_append, layout_spaces, layout_cons _ (by simp)]
            change lead _ (.lineComment comment) ++ _ = _ ↔ _
            have ends : kept (.lineComment comment) = shorter ++ ['\r'] := Token.lineComment.inj commented
            rw [lead_resumes resumes, List.append_cancel_left_eq, ends, List.append_assoc]
            exact layout_commented_iff stands reads ends fed later
          | _ => cases commented
    · obtain ⟨run, rfl⟩ := not_forall_not.mp solid
      have some : (gap.widen run).text ≠ [] := by
        cases gap <;> simp [Gap.widen, Gap.text, stands.1]
      refine (ih (blank.widen stands.2.1) (resumes.widen run)).trans (not_congr ?_)
      rw [strands_spaces, strands_spaces, and_iff_right some, strands_blanks]
      refine (or_iff_right ?_).symm
      rintro ⟨_, _, _, same⟩
      cases same

theorem trimmed_solid {token : Token} (solid : ∀ run, token ≠ .blanks run) (run : List Char) :
    trimmed token ≠ .blanks run := by
  cases token with
  | blanks run => exact absurd rfl (solid run)
  | _ => simp [trimmed]

theorem newline_of_trimmed {token : Token} (same : trimmed token = .newline) : token = .newline := by
  cases token with
  | newline => rfl
  | _ => cases same

private theorem head_rejoined_solid {token : Token} (solid : ∀ run, token ≠ .blanks run) (rest : List Token)
    {run : List Char} {others : List Token} : rejoined (token :: rest) ≠ .blanks run :: others := by
  unfold rejoined
  split
  · next short rest ends =>
    obtain ⟨_, rfl⟩ | ⟨text, _, rfl⟩ := unreturned_cases ends <;> simp
  · simp [solid]

private theorem rejoined_ne_blanks (gap : Gap) (tokens : List Token) {run : List Char} {others : List Token} :
    rejoined (respaced gap tokens) ≠ .blanks run :: .newline :: others := by
  induction tokens generalizing gap with
  | nil => simp [respaced, rejoined]
  | cons token rest ih =>
    by_cases solid : ∀ run, token ≠ .blanks run
    · rw [respaced_cons gap solid, rejoined_spaces]
      unfold spaces
      split
      · exact head_rejoined_solid (trimmed_solid solid) _
      · next some =>
        rintro same
        obtain ⟨rest, first⟩ := newline_of_rejoined (List.cons.inj same).2
        obtain rfl : token = .newline := newline_of_trimmed (List.cons.inj first).1
        exact some rfl
    · obtain ⟨between, rfl⟩ := not_forall_not.mp solid
      exact ih (gap.widen between)

private theorem not_returned_solid (token : Token) (gap : Gap) (rest : List Token) :
    ¬ Returned (rejoined (token :: respaced gap rest)) := by
  rintro ⟨between, others, same⟩
  unfold rejoined at same
  split at same
  · next short _ ends _ =>
    obtain ⟨_, rfl⟩ | ⟨text, _, rfl⟩ := unreturned_cases ends <;> cases same
  · exact rejoined_ne_blanks gap rest (List.cons.inj same).2

private theorem not_strands_solid {token : Token} (solid : ∀ run, token ≠ .blanks run) {gap : Gap}
    {rest : List Token} (settled : ¬ Strands (rejoined (respaced gap rest)))
    (apart : ¬ Returned (rejoined (respaced gap rest))) :
    ¬ Strands (rejoined (trimmed token :: respaced gap rest)) := by
  intro strands
  unfold rejoined at strands
  split at strands
  · next short others ends fed =>
    rw [fed, rejoined_cons (.inl rfl)] at settled
    have line : ∀ tokens, Strands (.crlf :: tokens) → Strands tokens := by
      intro tokens strands
      cases strands with
      | later strands => exact strands
    obtain ⟨_, rfl⟩ | ⟨text, _, rfl⟩ := unreturned_cases ends
    · exact settled (.later (line _ strands))
    · cases strands with
      | later strands => exact settled (.later (line _ strands))
  · generalize shape : trimmed token = first at strands
    generalize rejoined (respaced gap rest) = later at settled apart strands
    cases strands with
    | later strands => exact settled strands
    | returned => exact trimmed_solid solid _ shape
    | assigned => exact apart ⟨_, _, rfl⟩
    | @commented text c between _ _ some blanks =>
      -- The layout took the blanks at the end of the comment.
      have once : kept (trimmed token) = (trimmed token).spelling := by
        rw [kept_trimmed, spelling_trimmed]
      rw [shape, kept, ← List.singleton_append, ← List.append_assoc, dropEndWhile_return _ blanks] at once
      exact some (by simpa [Token.spelling] using once)

/-- After the first pass nothing is stranded any more. -/
theorem not_strands_rejoined (gap : Gap) (tokens : List Token) :
    ¬ Strands (rejoined (respaced gap tokens)) ∧ ¬ Returned (rejoined (respaced gap tokens)) := by
  induction tokens generalizing gap with
  | nil => exact ⟨nofun, nofun⟩
  | cons token rest ih =>
    by_cases solid : ∀ run, token ≠ .blanks run
    · rw [respaced_cons gap solid, rejoined_spaces]
      have returned := not_returned_solid (trimmed token) (following token) rest
      refine ⟨fun strands => ?_, ?_⟩
      · rw [strands_spaces] at strands
        rcases strands with ⟨_, first⟩ | strands
        · exact returned first
        · exact not_strands_solid solid (ih _).1 (ih _).2 strands
      · unfold spaces
        split
        · exact returned
        · rintro ⟨_, _, same⟩
          cases same
    · obtain ⟨between, rfl⟩ := not_forall_not.mp solid
      exact ih (gap.widen between)

/-- A second pass can only change a text in which the first made a line end behind blanks; what it
makes of any text is a fixed point. -/
theorem format_again {source formatted : String} (done : format source = .ok formatted) :
    ∃ tokens again, Reads none source.toList tokens ∧ format formatted = .ok again ∧
      format again = .ok again ∧ (again = formatted ↔ ¬ Strands tokens) := by
  obtain ⟨tokens, reads, laid⟩ := format_eq_ok_iff.mp done
  have blank : Blank (.lineStart []) := by simp [Blank, Gap.text]
  have agrees : ∀ text, Agrees none text none (.lineStart []) := fun _ =>
    ⟨by simp [Apart], fun _ => by simp [Apart]⟩
  have second := reads_layout reads blank (agrees _)
  have third := reads_layout second blank (agrees _)
  have resumes : Resumes (.lineStart []) (.lineStart []) := rfl
  have same := layout_rejoined_iff reads blank resumes
  have settled := (layout_rejoined_iff second blank resumes).mpr (not_strands_rejoined _ _).1
  refine ⟨tokens, String.ofList (layout (.lineStart []) (rejoined (respaced (.lineStart []) tokens))),
    reads, ?_, ?_, ?_⟩
  · exact format_eq_ok_iff.mpr ⟨_, by rwa [laid], String.toList_ofList⟩
  · refine format_eq_ok_iff.mpr ⟨_, by rwa [String.toList_ofList], ?_⟩
    rw [String.toList_ofList, settled]
  · rw [← String.toList_inj, String.toList_ofList, laid, same]
    rfl

theorem format_again_return :
    format "a=\r \n" = .ok "a = \r\n" ∧
      ∃ tokens again, Reads none "a=\r \n".toList tokens ∧ format "a = \r\n" = .ok again ∧
        format again = .ok again ∧ (again = "a = \r\n" ↔ ¬ Strands tokens) := by
  have done : format "a=\r \n" = .ok "a = \r\n" := by cbv
  exact ⟨done, format_again done⟩

/-- The first pass may leave work for a second one. -/
theorem format_not_idempotent :
    ¬ ∀ source formatted, format source = .ok formatted → format formatted = .ok formatted := by
  intro idempotent
  have first : format "a \r \n" = .ok "a \r\n" := by cbv
  have second : format "a \r\n" = .ok "a\r\n" := by cbv
  have same := idempotent _ _ first
  rw [second] at same
  exact absurd (Except.ok.inj same) (by decide)

end StagedFormat.Proofs.SourceFixedPoints
