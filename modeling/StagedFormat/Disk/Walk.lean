import StagedFormat.Disk.Basic

/-! The regular files below a directory. Links inside it are not followed. -/

namespace StagedFormat.Disk

/-- The files below a directory that is reached by `path`, without the directories that `skips`. The
depth is bounded, since a tree has no more levels than entries. -/
def filesFrom (disk : Disk) (skips : Path → Bool) : (depth : Nat) → Location → Path → List Path
  | 0, _, _ => []
  | depth + 1, location, path =>
    (disk.children location).flatMap fun (name, entry) =>
      let below := path.join ⟨name⟩
      match entry with
      | .file _ _ _ => [below]
      | .link _ => []
      | .directory => if skips below then [] else filesFrom disk skips depth (location ++ [name]) below

/-- The files below `path`; it may be a link to a directory itself. -/
def filesBelow (disk : Disk) (skips : Path → Bool) (path : Path) : List Path :=
  match disk.find true path with
  | .ok { location, entry := some .directory } =>
    disk.filesFrom skips (disk.entries.length + 1) location path
  | _ => []

end StagedFormat.Disk
