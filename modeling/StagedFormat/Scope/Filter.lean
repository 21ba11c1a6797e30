import StagedFormat.Disk.Basic
import StagedFormat.Path.Normal

/-! Choosing paths by file arguments: each argument stands for itself and all that lies below it. -/

namespace StagedFormat

/-- The place that `path` names as seen from `directory`: links are followed if it exists, and its
text is put into normal form if not. -/
def absolutize (disk : Disk) (directory path : Path) : Path :=
  let joined := directory.join path
  match disk.canonicalize joined with
  | .ok place => place
  | .error _ => joined.normalize

namespace Scope

/-- The places that arguments choose, relative to the root. An argument that is the root chooses
everything, as an empty list does; one outside the root stays absolute and chooses nothing. -/
def filters (disk : Disk) (root directory : Path) (arguments : List Path) : List Path :=
  let root := absolutize disk root ⟨""⟩
  let places := arguments.map (absolutize disk directory)
  if places.any (·.same root) then []
  else places.map fun place => (place.relativeTo? root).getD place

/-- Whether a path relative to the root passes. -/
def passes (filters : List Path) (path : Path) : Bool :=
  filters.isEmpty || filters.any path.startsWith

end Scope

end StagedFormat
