/-! The tokens of a YAML text, and the reader that moves over its characters. -/

namespace StagedFormat.Yaml

inductive ScalarStyle where
  | plain
  | quoted
  /-- A block scalar that keeps its line ends. -/
  | literal
  | folded
  deriving DecidableEq, Repr

inductive Token where
  | versionDirective (major minor : Nat)
  | tagDirective (handle : String)
  | otherDirective
  | documentStart
  | documentEnd
  | blockSequenceStart
  | blockMappingStart
  | blockEnd
  | flowSequenceStart
  | flowSequenceEnd
  | flowMappingStart
  | flowMappingEnd
  | blockEntry
  | flowEntry
  | key
  | value
  | alias (name : String)
  | anchor (name : String)
  | tag (handle suffix : String)
  | scalar (style : ScalarStyle) (text : String)
  deriving DecidableEq, Repr

/-- What is wrong with a text. -/
abbrev Fault := String

/-- The characters that are left, and where they stand. -/
structure Reader where
  rest : List Char
  index : Nat
  line : Nat
  column : Nat

def isBreak (c : Char) : Bool :=
  c == '\n' || c == '\r' || c == '\x85' || c == '\u2028' || c == '\u2029'

def isBlank (c : Char) : Bool := c == ' ' || c == '\t'

/-- Characters that a text may hold. -/
def isAllowed (c : Char) : Bool :=
  c == '\t' || c == '\n' || c == '\r' || (' ' ≤ c && c ≤ '~') || c == '\x85' ||
    ('\xA0' ≤ c && c ≤ '\uFFFD' && c != '\uFEFF') || 0x10000 ≤ c.val

namespace Reader

def ofText (text : List Char) : Reader := { rest := text, index := 0, line := 0, column := 0 }

def peek (reader : Reader) (offset : Nat := 0) : Option Char := reader.rest[offset]?

/-- Whether the next character is `c`. -/
def sees (reader : Reader) (c : Char) (offset : Nat := 0) : Bool := reader.peek offset == some c

/-- Whether a blank, a line break or the end comes next. -/
def seesGap (reader : Reader) (offset : Nat := 0) : Bool :=
  match reader.peek offset with
  | none => true
  | some c => isBlank c || isBreak c

def seesBreakOrEnd (reader : Reader) : Bool :=
  match reader.peek with
  | none => true
  | some c => isBreak c

def seesBreak (reader : Reader) : Bool := reader.peek.any isBreak

def seesBlank (reader : Reader) : Bool := reader.peek.any isBlank

def skip (reader : Reader) (count : Nat := 1) : Reader :=
  { reader with
    rest := reader.rest.drop count
    index := reader.index + count
    column := reader.column + count }

/-- Takes a line break and says how a scalar keeps it. -/
def takeBreak (reader : Reader) : List Char × Reader :=
  let after (count : Nat) : Reader :=
    { rest := reader.rest.drop count, index := reader.index + count, line := reader.line + 1, column := 0 }
  match reader.rest with
  | '\r' :: '\n' :: _ => (['\n'], after 2)
  | '\u2028' :: _ => (['\u2028'], after 1)
  | '\u2029' :: _ => (['\u2029'], after 1)
  | c :: _ => if isBreak c then (['\n'], after 1) else ([], reader)
  | [] => ([], reader)

/-- Whether a document marker made of three `mark`s starts here. -/
def seesMarker (reader : Reader) (mark : Char) : Bool :=
  reader.column == 0 && reader.sees mark 0 && reader.sees mark 1 && reader.sees mark 2 &&
    reader.seesGap 3

/-- The characters up to the first that does not belong. -/
def takeWhile (reader : Reader) (belongs : Char → Bool) : List Char × Reader :=
  let taken := reader.rest.takeWhile belongs
  (taken, reader.skip taken.length)

end Reader

end StagedFormat.Yaml
