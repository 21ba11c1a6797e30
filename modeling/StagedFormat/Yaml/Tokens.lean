import StagedFormat.Yaml.Scalar

/-! Cutting a YAML text into tokens. Indentation becomes tokens that open and close collections, and
a key is recognised by the colon after it. -/

namespace StagedFormat.Yaml

/-- A token that turns out to be a key if a colon follows on its line. -/
structure Candidate where
  /-- How many tokens come before it. -/
  position : Nat
  index : Nat
  line : Nat
  column : Nat
  /-- At this place only a key can stand. -/
  required : Bool

structure Tokenizer where
  reader : Reader
  tokens : List Token := []
  /-- The columns of the open block collections, the innermost first. -/
  indents : List Nat := []
  /-- One candidate for each open flow collection and one for the block around them. -/
  candidates : List (Option Candidate) := [none]
  keyAllowed : Bool := true

namespace Tokenizer

def inFlow (state : Tokenizer) : Bool := 1 < state.candidates.length

def emit (state : Tokenizer) (token : Token) : Tokenizer :=
  { state with tokens := state.tokens ++ [token] }

/-- Closes the block collections that lie deeper than a column; `none` closes all. -/
def unroll (column : Option Nat) (state : Tokenizer) : Tokenizer :=
  if state.inFlow then state
  else
    let closed := state.indents.takeWhile fun indent => column.all (· < indent)
    { state with
      indents := state.indents.drop closed.length
      tokens := state.tokens ++ closed.map fun _ => .blockEnd }

/-- Opens a block collection at a column, if none is open there. -/
def roll (column position : Nat) (opening : Token) (state : Tokenizer) : Tokenizer :=
  if state.inFlow || state.indents.head?.any (column ≤ ·) then state
  else
    { state with
      indents := column :: state.indents
      tokens := state.tokens.take position ++ opening :: state.tokens.drop position }

def dropCandidate (state : Tokenizer) : Except Fault Tokenizer :=
  match state.candidates with
  | some candidate :: others =>
    if candidate.required then .error "could not find expected ':'"
    else .ok { state with candidates := none :: others }
  | _ => .ok state

def saveCandidate (state : Tokenizer) : Except Fault Tokenizer := do
  if !state.keyAllowed then return state
  let state ← state.dropCandidate
  let reader := state.reader
  let candidate : Candidate :=
    { position := state.tokens.length, index := reader.index, line := reader.line, column := reader.column
      required := !state.inFlow && state.indents.head? == some reader.column }
  return { state with candidates := some candidate :: state.candidates.tail }

/-- A candidate counts on its own line and for 1024 characters. -/
def dropStale (state : Tokenizer) : Except Fault Tokenizer := do
  let isStale (candidate : Candidate) : Bool :=
    candidate.line < state.reader.line || candidate.index + 1024 < state.reader.index
  if state.candidates.any fun candidate => candidate.any fun c => isStale c && c.required then
    throw "could not find expected ':'"
  return { state with candidates := state.candidates.map (·.filter (!isStale ·)) }

/-- Skips blanks, comments and line breaks. -/
def toNext : (fuel : Nat) → Tokenizer → Tokenizer
  | 0, state => state
  | fuel + 1, state =>
    let reader := state.reader
    if reader.sees ' ' || ((state.inFlow || !state.keyAllowed) && reader.sees '\t') then
      toNext fuel { state with reader := reader.skip }
    else if reader.sees '#' then
      toNext fuel { state with reader := (reader.takeWhile fun c => !isBreak c).2 }
    else if reader.seesBreak then
      toNext fuel
        { state with reader := reader.takeBreak.2, keyAllowed := state.keyAllowed || !state.inFlow }
    else state

def closeBlocks (state : Tokenizer) : Except Fault Tokenizer := do
  return { ← (state.unroll none).dropCandidate with keyAllowed := false }

def isWordCharacter (c : Char) : Bool :=
  ('0' ≤ c && c ≤ '9') || ('A' ≤ c && c ≤ 'Z') || ('a' ≤ c && c ≤ 'z') || c == '_' || c == '-'

def readNumber (reader : Reader) : Except Fault (Nat × Reader) :=
  let (digits, reader) := reader.takeWhile Char.isDigit
  if digits.isEmpty || 9 < digits.length then .error "did not find expected version number"
  else .ok (digits.foldl (fun value c => value * 10 + (c.toNat - 48)) 0, reader)

def readTagHandle (directive : Bool) (reader : Reader) : Except Fault (List Char × Reader) := do
  if !reader.sees '!' then throw "did not find expected '!'"
  let (word, reader) := reader.skip.takeWhile isWordCharacter
  if reader.sees '!' then return ('!' :: word ++ ['!'], reader.skip)
  if directive && !word.isEmpty then throw "did not find expected '!'"
  return ('!' :: word, reader)

def isTagCharacter (c : Char) : Bool :=
  isWordCharacter c || [';', '/', '?', ':', '@', '&', '=', '+', '$', '.', '!', '~', '*', '\'', '(', ')', '%'].contains c

/-- A line that starts with a percent sign. -/
def directive (state : Tokenizer) : Except Fault Tokenizer := do
  let state ← state.closeBlocks
  let (name, reader) := state.reader.skip.takeWhile isWordCharacter
  if name.isEmpty then throw "could not find expected directive name"
  if !reader.seesGap then throw "found unexpected non-alphabetical character"
  let (token, reader) ←
    if String.ofList name == "YAML" then do
      let (major, reader) ← readNumber (reader.takeWhile isBlank).2
      if !reader.sees '.' then throw "did not find expected digit or '.' character"
      let (minor, reader) ← readNumber reader.skip
      pure (Token.versionDirective major minor, reader)
    else if String.ofList name == "TAG" then do
      let (handle, reader) ← readTagHandle true (reader.takeWhile isBlank).2
      if !reader.seesBlank then throw "did not find expected whitespace"
      let (_, reader) := (reader.takeWhile isBlank).2.takeWhile fun c => !isBlank c && !isBreak c
      pure (Token.tagDirective (String.ofList handle), reader)
    else throw "found unknown directive name"
  let (_, reader) := reader.takeWhile isBlank
  let (_, reader) := if reader.sees '#' then reader.takeWhile (fun c => !isBreak c) else ([], reader)
  if !reader.seesBreakOrEnd then throw "did not find expected comment or line break"
  return { state with reader := reader.takeBreak.2 }.emit token

def documentMarker (token : Token) (state : Tokenizer) : Except Fault Tokenizer := do
  let state ← state.closeBlocks
  return { state with reader := state.reader.skip 3 }.emit token

def openFlow (token : Token) (state : Tokenizer) : Except Fault Tokenizer := do
  let state ← state.saveCandidate
  return { state with
    candidates := none :: state.candidates, keyAllowed := true, reader := state.reader.skip }.emit token

def closeFlow (token : Token) (state : Tokenizer) : Except Fault Tokenizer := do
  let state ← state.dropCandidate
  let candidates := if state.inFlow then state.candidates.tail else state.candidates
  return { state with candidates, keyAllowed := false, reader := state.reader.skip }.emit token

def flowEntry (state : Tokenizer) : Except Fault Tokenizer := do
  let state ← state.dropCandidate
  return { state with keyAllowed := true, reader := state.reader.skip }.emit .flowEntry

def blockEntry (state : Tokenizer) : Except Fault Tokenizer := do
  if !state.inFlow && !state.keyAllowed then
    throw "block sequence entries are not allowed in this context"
  let state ← (state.roll state.reader.column state.tokens.length .blockSequenceStart).dropCandidate
  return { state with keyAllowed := true, reader := state.reader.skip }.emit .blockEntry

def key (state : Tokenizer) : Except Fault Tokenizer := do
  if !state.inFlow && !state.keyAllowed then throw "mapping keys are not allowed in this context"
  let state ← (state.roll state.reader.column state.tokens.length .blockMappingStart).dropCandidate
  return { state with keyAllowed := !state.inFlow, reader := state.reader.skip }.emit .key

def value (state : Tokenizer) : Except Fault Tokenizer := do
  match state.candidates with
  | some candidate :: others =>
    let tokens :=
      state.tokens.take candidate.position ++ Token.key :: state.tokens.drop candidate.position
    let state := { state with tokens }.roll candidate.column candidate.position .blockMappingStart
    return { state with
      candidates := none :: others, keyAllowed := false, reader := state.reader.skip }.emit .value
  | _ =>
    if !state.inFlow && !state.keyAllowed then throw "mapping values are not allowed in this context"
    let state := state.roll state.reader.column state.tokens.length .blockMappingStart
    return { state with keyAllowed := !state.inFlow, reader := state.reader.skip }.emit .value

/-- The name after the sign of an anchor or an alias. -/
def name (token : String → Token) (state : Tokenizer) : Except Fault Tokenizer := do
  let state ← state.saveCandidate
  let (word, reader) := state.reader.skip.takeWhile isWordCharacter
  let ends := reader.seesGap || reader.peek.any (['?', ':', ',', ']', '\x7d', '%', '@', '\x60'].contains ·)
  if word.isEmpty || !ends then throw "did not find expected alphabetic or numeric character"
  return { state with keyAllowed := false, reader }.emit (token (String.ofList word))

def tag (state : Tokenizer) : Except Fault Tokenizer := do
  let state ← state.saveCandidate
  let (handle, suffix, reader) ←
    if state.reader.sees '<' 1 then do
      let (uri, reader) := (state.reader.skip 2).takeWhile fun c => isTagCharacter c || c == ',' || c == '[' || c == ']'
      if uri.isEmpty || !reader.sees '>' then throw "did not find the expected '>'"
      pure ("", String.ofList uri, reader.skip)
    else do
      let (handle, reader) ← readTagHandle false state.reader
      let (suffix, reader) := reader.takeWhile isTagCharacter
      if 1 < handle.length && handle.getLast? == some '!' then
        if suffix.isEmpty then throw "did not find expected tag URI"
        pure (String.ofList handle, String.ofList suffix, reader)
      else pure ("!", String.ofList (handle.tail ++ suffix), reader)
  if !(reader.seesGap || (state.inFlow && reader.sees ',')) then
    throw "did not find expected whitespace or line break"
  return { state with keyAllowed := false, reader }.emit (.tag handle suffix)

def blockScalar (folded : Bool) (state : Tokenizer) : Except Fault Tokenizer := do
  let state ← state.dropCandidate
  let (text, reader) ← readBlock folded state.indents.head? state.reader.skip
  let style := if folded then ScalarStyle.folded else .literal
  return { state with keyAllowed := true, reader }.emit (.scalar style (String.ofList text))

def quotedScalar (mark : Char) (state : Tokenizer) : Except Fault Tokenizer := do
  let state ← state.saveCandidate
  let (text, reader) ← readQuoted mark (state.reader.rest.length + 1) [] state.reader.skip
  return { state with keyAllowed := false, reader }.emit (.scalar .quoted (String.ofList text))

def plainScalar (state : Tokenizer) : Except Fault Tokenizer := do
  let state ← state.saveCandidate
  let indent := (state.indents.head?.map (· + 1)).getD 0
  let (text, newLine, reader) ←
    readPlain state.inFlow indent (state.reader.rest.length + 1) [] {} state.reader
  return { state with keyAllowed := newLine, reader }.emit (.scalar .plain (String.ofList text))

/-- Characters that no plain scalar starts with. -/
def indicators : List Char :=
  ['-', '?', ':', ',', '[', ']', '\x7b', '\x7d', '#', '&', '*', '!', '|', '>', '\'', '"', '%', '@', '\x60']

def startsPlain (state : Tokenizer) (c : Char) : Bool :=
  !(indicators.contains c || isBlank c || isBreak c) ||
    (c == '-' && !(state.reader.peek 1).any isBlank) ||
    (!state.inFlow && (c == '?' || c == ':') && !state.reader.seesGap 1)

/-- Reads the next token and what comes with it; `none` at the end of the text. -/
def step (state : Tokenizer) : Except Fault (Option Tokenizer × List Token) := do
  let state ← (state.toNext (state.reader.rest.length + 1)).dropStale
  let state := state.unroll (some state.reader.column)
  let reader := state.reader
  match reader.peek with
  | none =>
    let state ← state.closeBlocks
    return (none, state.tokens)
  | some c =>
    let next ←
      if reader.column == 0 && c == '%' then state.directive
      else if reader.seesMarker '-' then state.documentMarker .documentStart
      else if reader.seesMarker '.' then state.documentMarker .documentEnd
      else if c == '[' then state.openFlow .flowSequenceStart
      else if c == '\x7b' then state.openFlow .flowMappingStart
      else if c == ']' then state.closeFlow .flowSequenceEnd
      else if c == '\x7d' then state.closeFlow .flowMappingEnd
      else if c == ',' then state.flowEntry
      else if c == '-' && reader.seesGap 1 then state.blockEntry
      else if c == '?' && (state.inFlow || reader.seesGap 1) then state.key
      else if c == ':' && (state.inFlow || reader.seesGap 1) then state.value
      else if c == '*' then state.name .alias
      else if c == '&' then state.name .anchor
      else if c == '!' then state.tag
      else if c == '|' && !state.inFlow then state.blockScalar false
      else if c == '>' && !state.inFlow then state.blockScalar true
      else if c == '\'' || c == '"' then state.quotedScalar c
      else if state.startsPlain c then state.plainScalar
      else throw "found character that cannot start any token"
    return (some next, next.tokens)

def run : (fuel : Nat) → Tokenizer → Except Fault (List Token)
  | 0, state => .ok state.tokens
  | fuel + 1, state => do
    match ← state.step with
    | (none, tokens) => return tokens
    | (some next, _) => run fuel next

end Tokenizer

/-- The tokens of a text; a byte order mark in front of it does not count. -/
def tokens (text : List Char) : Except Fault (List Token) :=
  let text := if text.head? == some '\uFEFF' then text.tail else text
  if text.all isAllowed then
    Tokenizer.run (2 * text.length + 2) { reader := Reader.ofText text }
  else .error "control characters are not allowed"

end StagedFormat.Yaml
