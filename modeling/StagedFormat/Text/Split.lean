/-! Cutting texts at a separator. -/

namespace StagedFormat.Text

variable [DecidableEq α]

/-- What stands before the first separator and what stands after it. -/
def splitOnce (separator : α) : List α → Option (List α × List α)
  | [] => none
  | c :: rest =>
    if c = separator then some ([], rest)
    else (splitOnce separator rest).map fun (before, after) => (c :: before, after)

/-- At most `count` parts: the last part keeps the separators that are left. -/
def splitInto (separator : α) : (count : Nat) → List α → List (List α)
  | 0, _ => []
  | 1, text => [text]
  | count + 2, text =>
    match splitOnce separator text with
    | none => [text]
    | some (before, after) => before :: splitInto separator (count + 1) after

/-- The parts that a separator divides a text into, empty ones left out. -/
def pieces (separator : Char) (text : List Char) : List (List Char) :=
  (text.splitOn separator).filter (!·.isEmpty)

/-- The lines of a text, without their ends `\n` or `\r\n`; a last line without end counts. -/
def lines (text : List Char) : List (List Char) :=
  let parts := text.splitOn '\n'
  let ended := parts.dropLast.map fun line =>
    if line.getLast? = some '\r' then line.dropLast else line
  match parts.getLast? with
  | some [] | none => ended
  | some last => ended ++ [last]

end StagedFormat.Text
