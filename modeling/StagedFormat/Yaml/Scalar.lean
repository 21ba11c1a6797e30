import StagedFormat.Yaml.Token

/-! Scalars of a YAML text: plain, quoted and block ones. -/

namespace StagedFormat.Yaml

/-- Line breaks and blanks between two parts of a scalar that spans lines. -/
structure Joint where
  blanks : List Char := []
  first : Option (List Char) := none
  later : List Char := []

/-- One line break becomes a space; of several, the first is dropped. -/
def Joint.text (joint : Joint) : List Char :=
  match joint.first with
  | none => joint.blanks
  | some ['\n'] => if joint.later.isEmpty then [' '] else joint.later
  | some other => other ++ joint.later

/-- Reads blanks and line breaks. Before column `indent` of a later line, a tab is a fault. -/
def readJoint (indent : Nat) (tabsCount : Bool) : (fuel : Nat) → Joint → Reader → Except Fault (Joint × Reader)
  | 0, joint, reader => .ok (joint, reader)
  | fuel + 1, joint, reader =>
    match reader.peek with
    | none => .ok (joint, reader)
    | some c =>
      if isBlank c then
        if joint.first.isSome then
          if tabsCount && c == '\t' && reader.column < indent then
            .error "found a tab character that violates indentation"
          else readJoint indent tabsCount fuel joint reader.skip
        else readJoint indent tabsCount fuel { joint with blanks := joint.blanks ++ [c] } reader.skip
      else if isBreak c then
        let (kept, reader) := reader.takeBreak
        match joint.first with
        | none => readJoint indent tabsCount fuel { joint with blanks := [], first := some kept } reader
        | some _ => readJoint indent tabsCount fuel { joint with later := joint.later ++ kept } reader
      else .ok (joint, reader)

def isFlowIndicator (c : Char) : Bool := c == ',' || c == '[' || c == ']' || c == '\x7b' || c == '\x7d'

/-- Reads the characters of a plain scalar up to a blank, a line break or its end. -/
def readPlainRun (inFlow : Bool) : (fuel : Nat) → List Char → Reader → Except Fault (List Char × Reader)
  | 0, run, reader => .ok (run, reader)
  | fuel + 1, run, reader =>
    match reader.peek with
    | none => .ok (run, reader)
    | some c =>
      if isBlank c || isBreak c then .ok (run, reader)
      else if inFlow && c == ':' && (reader.peek 1).any (fun d => d == '?' || isFlowIndicator d) then
        .error "found unexpected ':'"
      else if (c == ':' && reader.seesGap 1) || (inFlow && isFlowIndicator c) then .ok (run, reader)
      else readPlainRun inFlow fuel (run ++ [c]) reader.skip

/-- Reads a plain scalar. The last part of the answer says whether a line break followed it. -/
def readPlain (inFlow : Bool) (indent : Nat) :
    (fuel : Nat) → List Char → Joint → Reader → Except Fault (List Char × Bool × Reader)
  | 0, text, joint, reader => .ok (text, joint.first.isSome, reader)
  | fuel + 1, text, joint, reader => do
    if reader.seesMarker '-' || reader.seesMarker '.' || reader.sees '#' then
      return (text, joint.first.isSome, reader)
    let (run, after) ← readPlainRun inFlow (reader.rest.length + 1) [] reader
    let (text, joint) := if run.isEmpty then (text, joint) else (text ++ joint.text ++ run, {})
    if !(after.seesBlank || after.seesBreak) then return (text, joint.first.isSome, after)
    let (joint, next) ← readJoint indent true (after.rest.length + 1) joint after
    if !inFlow && next.column < indent then return (text, joint.first.isSome, next)
    readPlain inFlow indent fuel text joint next

def hexDigitValue? (c : Char) : Option Nat :=
  if '0' ≤ c && c ≤ '9' then some (c.toNat - 48)
  else if 'a' ≤ c && c ≤ 'f' then some (c.toNat - 87)
  else if 'A' ≤ c && c ≤ 'F' then some (c.toNat - 55)
  else none

/-- The character that `digits` hexadecimal digits name. -/
def readCodePoint (digits : Nat) (reader : Reader) : Except Fault (Char × Reader) := do
  let mut value := 0
  for offset in List.range digits do
    match (reader.peek offset).bind hexDigitValue? with
    | some digit => value := value * 16 + digit
    | none => throw "did not find expected hexdecimal number"
  if value.isValidChar then return (Char.ofNat value, reader.skip digits)
  throw "found invalid Unicode character escape code"

def escapes : List (Char × Char) :=
  [('0', '\x00'), ('a', '\x07'), ('b', '\x08'), ('t', '\t'), ('\t', '\t'), ('n', '\n'), ('v', '\x0b'),
    ('f', '\x0c'), ('r', '\r'), ('e', '\x1b'), (' ', ' '), ('"', '"'), ('/', '/'), ('\\', '\\'),
    ('N', '\x85'), ('_', '\xA0'), ('L', '\u2028'), ('P', '\u2029')]

/-- The character after a backslash between double quotation marks. -/
def readEscape (reader : Reader) : Except Fault (Char × Reader) := do
  match reader.peek with
  | some 'x' => readCodePoint 2 reader.skip
  | some 'u' => readCodePoint 4 reader.skip
  | some 'U' => readCodePoint 8 reader.skip
  | some c =>
    match escapes.lookup c with
    | some meant => return (meant, reader.skip)
    | none => throw "found unknown escape character"
  | none => throw "found unknown escape character"

/-- Reads a quoted scalar after its opening mark. -/
def readQuoted (mark : Char) : (fuel : Nat) → List Char → Reader → Except Fault (List Char × Reader)
  | 0, _, _ => .error "found unexpected end of stream"
  | fuel + 1, text, reader => do
    if reader.seesMarker '-' || reader.seesMarker '.' then throw "found unexpected document indicator"
    match reader.peek with
    | none => throw "found unexpected end of stream"
    | some c =>
      if c == mark then
        if mark == '\'' && reader.sees '\'' 1 then readQuoted mark fuel (text ++ ['\'']) (reader.skip 2)
        else return (text, reader.skip)
      else if mark == '"' && c == '\\' then
        let escaped := reader.skip
        if escaped.seesBreak then
          let (_, next) := escaped.takeBreak
          let (joint, next) ← readJoint 0 false (next.rest.length + 1) { first := some [] } next
          readQuoted mark fuel (text ++ joint.later) next
        else
          let (meant, next) ← readEscape escaped
          readQuoted mark fuel (text ++ [meant]) next
      else if isBlank c || isBreak c then
        let (joint, next) ← readJoint 0 false (reader.rest.length + 1) {} reader
        readQuoted mark fuel (text ++ joint.text) next
      else readQuoted mark fuel (text ++ [c]) reader.skip

/-- What becomes of the line ends after the last line of a block scalar. -/
inductive Chomping where
  | strip
  | clip
  | keep
  deriving DecidableEq

/-- Reads the signs after the opening of a block scalar: chomping and indentation. -/
def readBlockHeader (reader : Reader) : Except Fault (Chomping × Option Nat × Reader) := do
  let chomping (reader : Reader) : Option (Chomping × Reader) :=
    if reader.sees '+' then some (.keep, reader.skip)
    else if reader.sees '-' then some (.strip, reader.skip)
    else none
  let increment (reader : Reader) : Except Fault (Option Nat × Reader) :=
    match reader.peek with
    | some c =>
      if c == '0' then .error "found an indentation indicator equal to 0"
      else if '1' ≤ c && c ≤ '9' then .ok (some (c.toNat - 48), reader.skip)
      else .ok (none, reader)
    | none => .ok (none, reader)
  match chomping reader with
  | some (chomp, reader) =>
    let (indent, reader) ← increment reader
    return (chomp, indent, reader)
  | none =>
    let (indent, reader) ← increment reader
    match indent, chomping reader with
    | some _, some (chomp, reader) => return (chomp, indent, reader)
    | _, _ => return (.clip, indent, reader)

/-- Reads the indentation and the empty lines before a line of a block scalar. An indentation that
is not known yet is found as the greatest one. -/
def readBlockBreaks (known : Option Nat) :
    (fuel : Nat) → (greatest : Nat) → List Char → Reader → Except Fault (Nat × List Char × Reader)
  | 0, greatest, breaks, reader => .ok (greatest, breaks, reader)
  | fuel + 1, greatest, breaks, reader =>
    if reader.sees ' ' && known.all (reader.column < ·) then
      readBlockBreaks known fuel (max greatest (reader.column + 1)) breaks reader.skip
    else if reader.sees '\t' && known.all (reader.column < ·) then
      .error "found a tab character where an indentation space is expected"
    else if reader.seesBreak then
      let (kept, reader) := reader.takeBreak
      readBlockBreaks known fuel greatest (breaks ++ kept) reader
    else .ok (greatest, breaks, reader)

/-- Reads the lines of a block scalar from the first one with content. -/
def readBlockLines (folded : Bool) (indent : Nat) :
    (fuel : Nat) → (text lineEnd breaks : List Char) → (wasBlank : Bool) → Reader →
      Except Fault (List Char × List Char × List Char × Reader)
  | 0, text, lineEnd, breaks, _, reader => .ok (text, lineEnd, breaks, reader)
  | fuel + 1, text, lineEnd, breaks, wasBlank, reader => do
    if reader.column != indent || reader.peek.isNone then return (text, lineEnd, breaks, reader)
    let startsBlank := reader.seesBlank
    let joint :=
      if folded && lineEnd == ['\n'] && !wasBlank && !startsBlank then
        if breaks.isEmpty then [' '] else []
      else lineEnd
    let (line, after) := reader.takeWhile fun c => !isBreak c
    let (lineEnd, next) := after.takeBreak
    let (_, later, next) ← readBlockBreaks (some indent) (next.rest.length + 1) 0 [] next
    readBlockLines folded indent fuel (text ++ joint ++ breaks ++ line) lineEnd later startsBlank next

/-- Reads a block scalar after its opening character; `parent` is the indentation around it. -/
def readBlock (folded : Bool) (parent : Option Nat) (reader : Reader) : Except Fault (List Char × Reader) := do
  let (chomp, increment, reader) ← readBlockHeader reader
  let (_, reader) := reader.takeWhile isBlank
  let (_, reader) := if reader.sees '#' then reader.takeWhile (fun c => !isBreak c) else ([], reader)
  if !reader.seesBreakOrEnd then throw "did not find expected comment or line break"
  let (_, reader) := reader.takeBreak
  let least := (parent.map (· + 1)).getD 0
  let known := increment.map fun count => (parent.getD 0) + count
  let (greatest, breaks, reader) ← readBlockBreaks known (reader.rest.length + 1) 0 [] reader
  let indent := known.getD (max 1 (max greatest least))
  let (text, lineEnd, later, reader) ←
    readBlockLines folded indent (reader.rest.length + 1) [] [] breaks false reader
  return (match chomp with
    | .strip => text
    | .clip => text ++ lineEnd
    | .keep => text ++ lineEnd ++ later, reader)

end StagedFormat.Yaml
