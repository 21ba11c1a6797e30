/-! The tokens of a source text and how a text is cut into them. Literals and comments are single
tokens, so that nothing inside them is taken for code. -/

namespace StagedFormat.Source

/-- Spaces and tabs, the characters that a layout may change. -/
def isBlank (c : Char) : Bool := c == ' ' || c == '\t'

inductive Token where
  /-- A maximal run of blanks between other tokens. -/
  | blanks (run : List Char)
  | newline
  | crlf
  /-- A literal between two equal quotation marks, on one line. -/
  | quoted (text : List Char)
  /-- A literal between triple quotation marks. -/
  | raw (text : List Char)
  | lineComment (text : List Char)
  | blockComment (text : List Char)
  /-- An equals sign that is not part of an operator. -/
  | assign
  | other (c : Char)
  deriving DecidableEq, Repr

/-- The characters of the token, as they stand in the source. -/
def Token.spelling : Token → List Char
  | .blanks run => run
  | .newline => ['\n']
  | .crlf => ['\r', '\n']
  | .quoted text | .raw text | .lineComment text | .blockComment text => text
  | .assign => ['=']
  | .other c => [c]

/-- What is left open at the end of a text. -/
inductive Unterminated where
  | literal
  | comment
  deriving DecidableEq, Repr

/-- What follows an opening quotation mark: the rest of the literal, and the text after it. A
backslash takes the next character with it; a line end leaves the literal open. -/
def closeQuoted (quote : Char) : List Char → Option (List Char × List Char)
  | [] => none
  | ['\\'] => none
  | '\\' :: escaped :: rest =>
    if escaped = '\n' then none
    else (closeQuoted quote rest).map fun (text, rest) => ('\\' :: escaped :: text, rest)
  | c :: rest =>
    if c = '\n' then none
    else if c = quote then some ([c], rest)
    else (closeQuoted quote rest).map fun (text, rest) => (c :: text, rest)

/-- What follows opening triple quotation marks. Marks directly after the closing ones belong to
the literal. -/
def closeRaw : List Char → Option (List Char × List Char)
  | [] => none
  | '"' :: '"' :: '"' :: rest =>
    some ('"' :: '"' :: '"' :: rest.takeWhile (· == '"'), rest.dropWhile (· == '"'))
  | c :: rest => (closeRaw rest).map fun (text, rest) => (c :: text, rest)

/-- What follows the opening of a block comment; comments do not nest. -/
def closeComment : List Char → Option (List Char × List Char)
  | [] => none
  | '*' :: '/' :: rest => some (['*', '/'], rest)
  | c :: rest => (closeComment rest).map fun (text, rest) => (c :: text, rest)

/-- The characters up to the end of the line, and the text from there. -/
def restOfLine : List Char → List Char × List Char
  | [] => ([], [])
  | '\n' :: rest => ([], '\n' :: rest)
  | '\r' :: '\n' :: rest => ([], '\r' :: '\n' :: rest)
  | c :: rest => (c :: (restOfLine rest).1, (restOfLine rest).2)

/-- The characters that make one operator with an equals sign after them. -/
def operatorCharacters : List Char :=
  ['=', '!', '<', '>', '+', '-', '*', '/', '%', '&', '|', '^']

/-- Whether an equals sign between these neighbours stands alone. -/
def isBareEquals (before after : Option Char) : Bool :=
  !before.any (operatorCharacters.contains ·) && after != some '=' && after != some '>'

/-- The token whose opening characters were read, if what follows them closes it. -/
def closed (token : List Char → Token) (opening : List Char) (fault : Unterminated) :
    Option (List Char × List Char) → Except Unterminated (Token × List Char)
  | some (text, rest) => .ok (token (opening ++ text), rest)
  | none => .error fault

/-- The token that starts with `c` and the text after it, where `before` is the character in front. -/
def Token.first (before : Option Char) (c : Char) (rest : List Char) :
    Except Unterminated (Token × List Char) :=
  match c, rest with
  | '\n', rest => .ok (.newline, rest)
  | '\r', '\n' :: rest => .ok (.crlf, rest)
  | '"', '"' :: '"' :: rest => closed .raw ['"', '"', '"'] .literal (closeRaw rest)
  | '"', rest => closed .quoted ['"'] .literal (closeQuoted '"' rest)
  | '\'', rest => closed .quoted ['\''] .literal (closeQuoted '\'' rest)
  | '/', '/' :: rest => .ok (.lineComment ('/' :: '/' :: (restOfLine rest).1), (restOfLine rest).2)
  | '/', '*' :: rest => closed .blockComment ['/', '*'] .comment (closeComment rest)
  | '=', rest => .ok (if isBareEquals before rest.head? then .assign else .other '=', rest)
  | c, rest =>
    if isBlank c then .ok (.blanks (c :: rest.takeWhile isBlank), rest.dropWhile isBlank)
    else .ok (.other c, rest)

theorem closeQuoted_append {quote : Char} {s text rest : List Char}
    (closed : closeQuoted quote s = some (text, rest)) : text ++ rest = s := by
  fun_induction closeQuoted quote s generalizing text with
  | case1 | case2 | case3 | case5 => simp at closed
  | case4 escaped s _ ih =>
    simp only [Option.map_eq_some_iff, Prod.mk.injEq, Prod.exists] at closed
    obtain ⟨inner, after, found, rfl, rfl⟩ := closed
    simpa using ih found
  | case6 c s =>
    obtain ⟨rfl, rfl⟩ := Prod.mk.inj (Option.some.inj closed)
    rfl
  | case7 c s _ _ _ _ ih =>
    simp only [Option.map_eq_some_iff, Prod.mk.injEq, Prod.exists] at closed
    obtain ⟨inner, after, found, rfl, rfl⟩ := closed
    simpa using ih found

theorem closeRaw_append {s text rest : List Char} (closed : closeRaw s = some (text, rest)) :
    text ++ rest = s := by
  fun_induction closeRaw s generalizing text with
  | case1 => simp at closed
  | case2 s =>
    obtain ⟨rfl, rfl⟩ := Prod.mk.inj (Option.some.inj closed)
    simp
  | case3 c s _ ih =>
    simp only [Option.map_eq_some_iff, Prod.mk.injEq, Prod.exists] at closed
    obtain ⟨inner, after, found, rfl, rfl⟩ := closed
    simpa using ih found

theorem closeComment_append {s text rest : List Char}
    (closed : closeComment s = some (text, rest)) : text ++ rest = s := by
  fun_induction closeComment s generalizing text with
  | case1 => simp at closed
  | case2 s =>
    obtain ⟨rfl, rfl⟩ := Prod.mk.inj (Option.some.inj closed)
    rfl
  | case3 c s _ ih =>
    simp only [Option.map_eq_some_iff, Prod.mk.injEq, Prod.exists] at closed
    obtain ⟨inner, after, found, rfl, rfl⟩ := closed
    simpa using ih found

theorem restOfLine_append (s : List Char) : (restOfLine s).1 ++ (restOfLine s).2 = s := by
  fun_induction restOfLine s <;> simp_all

theorem closed_append {token : List Char → Token} (spelled : ∀ text, (token text).spelling = text)
    {opening s rest : List Char} {fault : Unterminated} {found : Option (List Char × List Char)}
    {read : Token} (whole : ∀ text rest, found = some (text, rest) → text ++ rest = s)
    (result : closed token opening fault found = .ok (read, rest)) :
    read.spelling ++ rest = opening ++ s := by
  match found with
  | none => cases result
  | some (text, after) =>
    cases result
    rw [spelled, List.append_assoc, whole text rest rfl]

/-- The token and the text after it make up the text that was read. -/
theorem Token.first_append {before : Option Char} {c : Char} {s rest : List Char} {token : Token}
    (read : Token.first before c s = .ok (token, rest)) : token.spelling ++ rest = c :: s := by
  unfold Token.first at read
  split at read
  · cases read; rfl
  · cases read; rfl
  · exact closed_append (fun _ => rfl) (fun _ _ => closeRaw_append) read
  · exact closed_append (fun _ => rfl) (fun _ _ => closeQuoted_append) read
  · exact closed_append (fun _ => rfl) (fun _ _ => closeQuoted_append) read
  · cases read; simp [spelling, restOfLine_append]
  · exact closed_append (fun _ => rfl) (fun _ _ => closeComment_append) read
  · cases read; split <;> rfl
  · split at read <;> cases read <;> simp [spelling]

theorem closed_nonempty {token : List Char → Token} {opening rest : List Char} {fault : Unterminated}
    {found : Option (List Char × List Char)} {read : Token}
    (spelled : ∀ text, (token (opening ++ text)).spelling ≠ [])
    (result : closed token opening fault found = .ok (read, rest)) : read.spelling ≠ [] := by
  match found with
  | none => cases result
  | some (text, after) =>
    cases result
    exact spelled text

theorem Token.first_nonempty {before : Option Char} {c : Char} {s rest : List Char} {token : Token}
    (read : Token.first before c s = .ok (token, rest)) : token.spelling ≠ [] := by
  unfold Token.first at read
  split at read
  case h_8 => cases read; split <;> simp [spelling]
  case h_9 => split at read <;> cases read <;> simp [spelling]
  all_goals first
    | exact closed_nonempty (by simp [spelling]) read
    | cases read; simp [spelling]

theorem Token.first_length {before : Option Char} {c : Char} {s rest : List Char} {token : Token}
    (read : Token.first before c s = .ok (token, rest)) : rest.length < (c :: s).length := by
  have whole := congrArg List.length (Token.first_append read)
  have spelled := List.length_pos_iff.mpr (Token.first_nonempty read)
  simp only [List.length_append] at whole
  omega

end StagedFormat.Source
