/-! Unicode white space: the class, the words it separates, and trimming. -/

namespace StagedFormat.Text

/-- The characters with the Unicode property White_Space. -/
def isWhiteSpace (c : Char) : Bool :=
  (9 ≤ c.val && c.val ≤ 13) || c.val == 0x20 || c.val == 0x85 || c.val == 0xA0 || c.val == 0x1680 ||
    (0x2000 ≤ c.val && c.val ≤ 0x200A) || c.val == 0x2028 || c.val == 0x2029 || c.val == 0x202F ||
    c.val == 0x205F || c.val == 0x3000

def dropEndWhile (drop : Char → Bool) (text : List Char) : List Char :=
  (text.reverse.dropWhile drop).reverse

def trimStart (text : List Char) : List Char := text.dropWhile isWhiteSpace

def trimEnd (text : List Char) : List Char := dropEndWhile isWhiteSpace text

def trim (text : List Char) : List Char := trimEnd (trimStart text)

/-- The maximal runs without white space, in order. -/
def words (text : List Char) : List (List Char) :=
  (text.splitOnP isWhiteSpace).filter (!·.isEmpty)

end StagedFormat.Text

namespace String
open StagedFormat

/-- The text without white space at its two ends. -/
def trimmed (text : String) : String := ofList (Text.trim text.toList)

def trimmedEnd (text : String) : String := ofList (Text.trimEnd text.toList)

/-- The words of a text, separated by Unicode white space. -/
def words (text : String) : List String := (Text.words text.toList).map ofList

end String
