import StagedFormat.Source.Token

/-! Cutting a whole source text into tokens, and the errors that stop it. -/

namespace StagedFormat.Source

inductive FormatError where
  | unterminatedLiteral (line : Nat)
  | unterminatedComment (line : Nat)
  /-- A formatter turned the text down for a reason of its own. -/
  | rejected (reason : String)
  deriving DecidableEq, Repr

def FormatError.message : FormatError → String
  | .unterminatedLiteral line => s!"unterminated literal starting on line {line}"
  | .unterminatedComment line => s!"unterminated block comment starting on line {line}"
  | .rejected reason => reason

def Unterminated.error (line : Nat) : Unterminated → FormatError
  | .literal => .unterminatedLiteral line
  | .comment => .unterminatedComment line

/-- The tokens of a text that follows the character `before` and starts on `line`. A line number
counts the line feeds in front of it, those in literals and comments too. -/
def lexFrom (before : Option Char) (line : Nat) : List Char → Except FormatError (List Token)
  | [] => .ok []
  | c :: rest =>
    match read : Token.first before c rest with
    | .error fault => .error (fault.error line)
    | .ok (token, after) =>
      have := Token.first_length read
      (lexFrom token.spelling.getLast? (line + token.spelling.count '\n') after).map (token :: ·)
termination_by text => text.length
decreasing_by assumption

def lex (text : List Char) : Except FormatError (List Token) := lexFrom none 1 text

end StagedFormat.Source
