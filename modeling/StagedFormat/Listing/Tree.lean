import StagedFormat.Listing.Status

/-! The NUL-delimited listing of the files of a commit. -/

namespace StagedFormat.Listing

structure TreeEntry where
  mode : String
  kind : String
  hash : String
  path : Path
  deriving DecidableEq, Repr

namespace TreeEntry

def isBlob (entry : TreeEntry) : Bool := entry.kind == "blob"

/-- Three words separated by single spaces, a tab, and the path. -/
def ofEntry (entry : List Char) : Except ListingError TreeEntry :=
  let malformed := .malformedTree (String.ofList entry)
  match Text.splitOnce '\t' entry with
  | none => .error malformed
  | some (fields, path) =>
    match fields.splitOn ' ' with
    | [mode, kind, hash] =>
      .ok { mode := String.ofList mode, kind := String.ofList kind, hash := String.ofList hash,
            path := ⟨String.ofList path⟩ }
    | _ => .error malformed

/-- The entries of a raw listing, or the first one that is malformed. -/
def ofListing (raw : ByteArray) : Except ListingError (List TreeEntry) :=
  (Text.pieces '\x00' (Text.decodeLossy raw).toList).mapM ofEntry

end TreeEntry

end StagedFormat.Listing
