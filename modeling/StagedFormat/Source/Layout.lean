import StagedFormat.Source.Lexer
import StagedFormat.Text.WhiteSpace

/-! The standard spacing of a source text. Indentation and everything inside literals and comments
stay as they are; other runs of blanks become one space, no blanks stand before a line end, and an
assignment has one space on each side. -/

namespace StagedFormat.Source

/-- What stands between the last token and the next one. -/
inductive Gap where
  /-- No token was on this line yet; the blanks seen so far are its indentation. -/
  | lineStart (indent : List Char)
  /-- A token was on this line; `spaced` says that a space is due before the next one. -/
  | inLine (spaced : Bool)
  deriving DecidableEq, Repr

def Gap.text : Gap → List Char
  | .lineStart indent => indent
  | .inLine spaced => if spaced then [' '] else []

def Gap.widen (run : List Char) : Gap → Gap
  | .lineStart indent => .lineStart (indent ++ run)
  | .inLine _ => .inLine true

/-- The gap before an assignment: one space, unless it is the first token of its line. -/
def Gap.beforeAssign : Gap → List Char
  | .lineStart indent => indent
  | .inLine _ => [' ']

def layout (gap : Gap) : List Token → List Char
  | [] => []
  | .blanks run :: rest => layout (gap.widen run) rest
  | .newline :: rest => '\n' :: layout (.lineStart []) rest
  | .crlf :: rest => '\r' :: '\n' :: layout (.lineStart []) rest
  | .assign :: rest => gap.beforeAssign ++ '=' :: layout (.inLine true) rest
  | .lineComment text :: rest =>
    gap.text ++ Text.dropEndWhile isBlank text ++ layout (.inLine false) rest
  | token :: rest => gap.text ++ token.spelling ++ layout (.inLine false) rest

def formatChars (text : List Char) : Except FormatError (List Char) :=
  (lex text).map (layout (.lineStart []))

/-- The source with standard spacing, or the first literal or comment that is left open. -/
def format (source : String) : Except FormatError String :=
  (formatChars source.toList).map String.ofList

end StagedFormat.Source
