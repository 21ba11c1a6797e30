import StagedFormat.Path.Basic
import StagedFormat.Text.Quoted
import StagedFormat.Text.Split
import StagedFormat.Text.Utf8

/-! The NUL-delimited listing of changed paths: which content is staged, and whether the working
tree has it too. -/

namespace StagedFormat.Listing

inductive ListingError where
  | malformedStatus (entry : String)
  | malformedTree (entry : String)
  deriving DecidableEq, Repr

def ListingError.message : ListingError → String
  | .malformedStatus entry => "malformed status entry: " ++ entry.quoted
  | .malformedTree entry => "malformed tree entry: " ++ entry.quoted

/-- A changed path with the mode and hash of its staged content. -/
structure Change where
  path : Path
  mode : String
  hash : String
  staged : Char
  unstaged : Char
  deriving DecidableEq, Repr

namespace Change

/-- Whether content was added, copied, modified or renamed. -/
def isStagedContent (change : Change) : Bool := ['A', 'C', 'M', 'R'].contains change.staged

/-- Whether the working tree holds the staged content. -/
def isClean (change : Change) : Bool := change.unstaged == '.'

/-- Reads a record of `fields` fields; the last one is the path and may hold spaces. -/
def ofRecord (fields : Nat) (entry : List Char) : Except ListingError Change :=
  let malformed := .malformedStatus (String.ofList entry)
  match Text.splitInto ' ' fields entry with
  | _ :: codes :: _ :: _ :: mode :: _ :: _ :: hash :: rest =>
    if rest.length + 8 = fields then
      match codes, rest.getLast? with
      | [staged, unstaged], some path =>
        .ok { path := ⟨String.ofList path⟩, mode := String.ofList mode, hash := String.ofList hash,
              staged, unstaged }
      | _, _ => .error malformed
    else .error malformed
  | _ => .error malformed

/-- Reads entries in order. The entry after a rename or copy is its old path. -/
def ofEntries : List (List Char) → Except ListingError (List Change)
  | [] => .ok []
  | entry :: rest =>
    match entry.head? with
    | some '1' => do
      let change ← ofRecord 9 entry
      return change :: (← ofEntries rest)
    | some '2' => do
      let change ← ofRecord 10 entry
      match rest with
      | [] => return [change]
      | _ :: rest => return change :: (← ofEntries rest)
    | some 'u' | some '?' | some '!' | some '#' => ofEntries rest
    | _ => .error (.malformedStatus (String.ofList entry))

/-- The changes of a raw listing. -/
def ofListing (raw : ByteArray) : Except ListingError (List Change) :=
  ofEntries (Text.pieces '\x00' (Text.decodeLossy raw).toList)

end Change

end StagedFormat.Listing
